/-!
# Written numbers

Decimal and hexadecimal digits, filled up with zeros on the left or blanks on the right where a
column asks for it.
-/

namespace AndroidBoot

def padLeft (fill : Char) (width : Nat) (s : String) : String :=
  String.ofList (List.replicate (width - s.length) fill) ++ s

def padRight (fill : Char) (width : Nat) (s : String) : String :=
  s ++ String.ofList (List.replicate (width - s.length) fill)

/-- The lower-case hexadecimal digits of `n`. -/
def hexDigits (n : Nat) : String := String.ofList (Nat.toDigits 16 n)

/-- `n` in hexadecimal with the mark `0x`. -/
def hex (n : Nat) : String := "0x" ++ hexDigits n

/-- `n` in hexadecimal with the mark `0x` and at least eight digits. -/
def hexWord (n : Nat) : String := "0x" ++ padLeft '0' 8 (hexDigits n)

/-- `n` in decimal with at least `width` digits. -/
def decimal (width n : Nat) : String := padLeft '0' width (toString n)

/-- The value of a hexadecimal digit of either case. -/
def hexValue? (c : Char) : Option Nat :=
  if '0' ≤ c ∧ c ≤ '9' then some (c.toNat - '0'.toNat)
  else if 'a' ≤ c ∧ c ≤ 'f' then some (c.toNat - 'a'.toNat + 10)
  else if 'A' ≤ c ∧ c ≤ 'F' then some (c.toNat - 'A'.toNat + 10)
  else none

/-- The number written by `digits` in `base`, if every one of them is a digit of that base. -/
def digitsValue? (base : Nat) (digits : List Char) : Option Nat :=
  digits.foldlM (fun n c => do
    let d ← hexValue? c
    if d < base then some (n * base + d) else none) 0

/-- A written natural number below `limit`: digits of `base`, at least one, perhaps after a `+`. -/
def readNat? (base limit : Nat) (s : List Char) : Option Nat := do
  let digits := match s with
    | '+' :: r => r
    | r => r
  if digits.isEmpty then none
  let n ← digitsValue? base digits
  if n < limit then some n else none

/-- A written decimal number below `limit`. Before a zero there may also be a minus. -/
def readSignedNat? (limit : Nat) (s : List Char) : Option Nat :=
  match s with
  | '-' :: r => if r.isEmpty then none else (digitsValue? 10 r).filter (· = 0)
  | r => readNat? 10 limit r

end AndroidBoot
