import AndroidBoot.Number.Text
import AndroidBoot.Text.Utf8

/-!
# Escaped byte fields

A fixed-size field is written as text: its zeros at the end are left out, visible ASCII and
well-formed longer characters stand for themselves, and any other byte is `\0`, `\t`, `\n`, `\r` or
`\x` with two upper-case digits. Reading takes these escapes back and leaves every other backslash
as it stands.

    unescapeField n (escapeField v) = .ok v
    unescapeField n s = .error (.tooLong m n) ↔ m = (unescape s).length ∧ n < m
-/

namespace AndroidBoot

namespace Escaped

def upperDigit (n : Nat) : Char := (Nat.digitChar n).toUpper

/-- `\x` with the two upper-case digits of `b`. -/
def byteEscape (b : UInt8) : List Char :=
  ['\\', 'x', upperDigit (b.toNat / 16), upperDigit (b.toNat % 16)]

def escapePiece : Utf8.Piece → List Char
  | .stray b => byteEscape b
  | .char c =>
    if c = '\x00' then ['\\', '0']
    else if c = '\n' then ['\\', 'n']
    else if c = '\r' then ['\\', 'r']
    else if c = '\t' then ['\\', 't']
    else if c = '\\' then ['\\', '\\']
    else if c.toNat ≤ 0x20 ∨ c.toNat = 0x7F then byteEscape (UInt8.ofNat c.toNat)
    else [c]

/-- The escaped text of any bytes. -/
def escape (bs : Bytes) : List Char := (Utf8.pieces bs).flatMap escapePiece

/-- The bytes an escaped text stands for. A backslash that starts no escape stands for itself, and
so do the characters after it that were read in search of one. -/
def unescape : List Char → Bytes
  | '\\' :: 'x' :: a :: b :: r =>
    match hexValue? a, hexValue? b with
    | some h, some l => UInt8.ofNat (h * 16 + l) :: unescape r
    | some _, none => Utf8.encodeChars ['\\', 'x', a, b] ++ unescape r
    | none, _ => Utf8.encodeChars ['\\', 'x', a] ++ unescape (b :: r)
  | ['\\', 'x', a] => Utf8.encodeChars ['\\', 'x', a]
  | '\\' :: '0' :: r => 0x00 :: unescape r
  | '\\' :: 'n' :: r => 0x0A :: unescape r
  | '\\' :: 'r' :: r => 0x0D :: unescape r
  | '\\' :: 't' :: r => 0x09 :: unescape r
  | '\\' :: '\\' :: r => 0x5C :: unescape r
  | '\\' :: c :: r => Utf8.encodeChars ['\\', c] ++ unescape r
  | c :: r => String.utf8EncodeChar c ++ unescape r
  | [] => []

end Escaped

/-- A text whose bytes do not fit the field they are read into. -/
structure FieldTooLong where
  size : Nat
  limit : Nat
deriving DecidableEq, Repr

def FieldTooLong.message (e : FieldTooLong) : String :=
  "Decoded field size (" ++ toString e.size ++ ") exceeds maximum size (" ++ toString e.limit ++ ")"

/-- The text of a field, without the zeros at its end. -/
def escapeField {n : Nat} (v : Vector UInt8 n) : String :=
  String.ofList (Escaped.escape (Bytes.trimZeros v.toList))

/-- The field a text stands for, filled up with zeros. -/
def unescapeField (n : Nat) (s : String) : Except FieldTooLong (Vector UInt8 n) :=
  let bs := Escaped.unescape s.toList
  match Bytes.padTo? n bs with
  | some v => .ok v
  | none => .error ⟨bs.length, n⟩

end AndroidBoot
