import AndroidBoot.Bytes.Basic

/-!
# UTF-8

`pieces` reads any byte string as characters and stray bytes, a stray byte being one at which no
well-formed character starts. Nothing is lost: the bytes of the pieces are the string.

    (pieces bs).flatMap Piece.bytes = bs
    decode? (encode s) = some s
-/

namespace AndroidBoot.Utf8

/-- The bytes of a text. -/
def encodeChars (cs : List Char) : Bytes := cs.flatMap String.utf8EncodeChar

def encode (s : String) : Bytes := encodeChars s.toList

/-- A character, or a byte that belongs to none. -/
inductive Piece where
  | char (c : Char)
  | stray (b : UInt8)
deriving DecidableEq, Repr

def Piece.bytes : Piece → Bytes
  | .char c => String.utf8EncodeChar c
  | .stray b => [b]

/-- The character with code `n`, if there is one and codes from `least` on are written like this. -/
def scalar? (least n : Nat) : Option Char :=
  if n.isValidChar ∧ least ≤ n then some (Char.ofNat n) else none

/-- The six bits a continuation byte carries. -/
def tail? (b : UInt8) : Option Nat :=
  if 0x80 ≤ b.toNat ∧ b.toNat < 0xC0 then some (b.toNat - 0x80) else none

/-- The character that starts with `b` and goes on in `r`, and how many bytes of `r` it takes. -/
def first? (b : UInt8) (r : Bytes) : Option (Char × Nat) :=
  if b.toNat < 0x80 then some (Char.ofNat b.toNat, 0)
  else if b.toNat < 0xC0 then none
  else if b.toNat < 0xE0 then
    match r with
    | c :: _ => do
      let c ← tail? c
      let ch ← scalar? 0x80 ((b.toNat - 0xC0) * 64 + c)
      some (ch, 1)
    | _ => none
  else if b.toNat < 0xF0 then
    match r with
    | c :: d :: _ => do
      let c ← tail? c
      let d ← tail? d
      let ch ← scalar? 0x800 (((b.toNat - 0xE0) * 64 + c) * 64 + d)
      some (ch, 2)
    | _ => none
  else
    match r with
    | c :: d :: e :: _ => do
      let c ← tail? c
      let d ← tail? d
      let e ← tail? e
      let ch ← scalar? 0x10000 ((((b.toNat - 0xF0) * 64 + c) * 64 + d) * 64 + e)
      some (ch, 3)
    | _ => none

/-- The characters of a byte string, with the bytes that belong to no character. -/
def pieces : Bytes → List Piece
  | [] => []
  | b :: r =>
    match first? b r with
    | some (c, n) => .char c :: pieces (r.drop n)
    | none => .stray b :: pieces r
termination_by bs => bs.length
decreasing_by all_goals simp_all; try omega

/-- The text with these pieces, if none is a stray byte. -/
def chars? : List Piece → Option (List Char)
  | [] => some []
  | .char c :: ps => (chars? ps).map (c :: ·)
  | .stray _ :: _ => none

/-- The text whose bytes are `bs`, if they are well-formed. -/
def decode? (bs : Bytes) : Option String :=
  (chars? (pieces bs)).map String.ofList

end AndroidBoot.Utf8
