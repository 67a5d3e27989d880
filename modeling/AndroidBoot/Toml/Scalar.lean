import AndroidBoot.Number.Text
import AndroidBoot.Toml.Value

/-!
# Numbers and moments of TOML

Readers for the values that start with a sign or a digit. Each takes the longest value at the front
of a text and gives what follows it. Integers are refused outside 64 signed bits and floats that
exceed every finite double.
-/

namespace AndroidBoot.Toml

def isDigit (base : Nat) (c : Char) : Bool :=
  match hexValue? c with
  | some d => d < base
  | none => false

/-- Digits of `base` with single underscores between them; without the underscores. -/
def readDigits (base : Nat) : List Char → Option (List Char × List Char)
  | [] => none
  | c :: r =>
    if isDigit base c then
      match r with
      | [] => some ([c], [])
      | '_' :: r' => (readDigits base r').map fun (ds, rest) => (c :: ds, rest)
      | d :: r' =>
        if isDigit base d then (readDigits base (d :: r')).map fun (ds, rest) => (c :: ds, rest)
        else some ([c], d :: r')
    else none

/-- A sign at the front and what follows it; `true` for a minus. -/
def readSign : List Char → Bool × List Char
  | '+' :: r => (false, r)
  | '-' :: r => (true, r)
  | r => (false, r)

/-- The digits of a decimal integer: a zero alone or digits that start with no zero. -/
def readDecimal : List Char → Option (List Char × List Char)
  | '0' :: r => some (['0'], r)
  | r => readDigits 10 r

def signed (negative : Bool) (n : Nat) : Int := if negative then -n else n

def inRange? (n : Int) : Option Int := if integerMin ≤ n ∧ n ≤ integerMax then some n else none

/-- An integer in decimal, or in base 16, 8 or 2 behind `0x`, `0o` or `0b`. -/
def readInteger (cs : List Char) : Option (Int × List Char) := do
  let based (base : Nat) (r : List Char) : Option (Int × List Char) := do
    let (ds, rest) ← readDigits base r
    let n ← digitsValue? base ds
    return (← inRange? n, rest)
  match cs with
  | '0' :: 'x' :: r => based 16 r
  | '0' :: 'o' :: r => based 8 r
  | '0' :: 'b' :: r => based 2 r
  | cs =>
    let (negative, r) := readSign cs
    let (ds, rest) ← readDecimal r
    let n ← digitsValue? 10 ds
    return (← inRange? (signed negative n), rest)

/-! ## Floats -/

/-- The least number that rounds to no finite double. -/
def floatLimit : Nat := Nat.pow 2 1024 - Nat.pow 2 970

/-- Whether the number with these digits, the last `places` of them behind the point, times a power
of ten, rounds to a finite double. -/
def isFinite (digits : List Char) (places : Nat) (exponent : Int) : Bool :=
  let n := (digitsValue? 10 digits).getD 0
  let e := exponent - places
  if n == 0 then true
  else if e ≤ 0 then
    let down := (-e).toNat
    -- as many places as digits leave a number below one
    if digits.length ≤ down then true else n < floatLimit * Nat.pow 10 down
  else if 400 < e then false
  else n * Nat.pow 10 e.toNat < floatLimit

/-- The exponent part of a float. -/
def readExponent : List Char → Option (Int × List Char)
  | c :: r =>
    if c == 'e' || c == 'E' then do
      let (negative, r) := readSign r
      let (ds, rest) ← readDigits 10 r
      return (signed negative (← digitsValue? 10 ds), rest)
    else none
  | [] => none

/-- What follows a float at the front of a text. An infinite result is refused only without a minus
sign. -/
def skipFloat? (cs : List Char) : Option (List Char) := do
  let (negative, r) := readSign cs
  match r with
  | 'i' :: 'n' :: 'f' :: rest => return rest
  | 'n' :: 'a' :: 'n' :: rest => return rest
  | r =>
    let (whole, r) ← readDecimal r
    let (digits, places, exponent, rest) ← match r with
      | '.' :: r => do
        let (part, r) ← readDigits 10 r
        match readExponent r with
        | some (e, r) => some (whole ++ part, part.length, e, r)
        | none => some (whole ++ part, part.length, 0, r)
      | r => do
        let (e, r) ← readExponent r
        some (whole, 0, e, r)
    if negative || isFinite digits places exponent then return rest else none

/-! ## Moments -/

/-- The number written by the `width` decimal digits at the front of a text. -/
def readFixed (width : Nat) (cs : List Char) : Option (Nat × List Char) :=
  if cs.length < width then none
  else (digitsValue? 10 (cs.take width)).map (·, cs.drop width)

def expect (c : Char) : List Char → Option (List Char)
  | d :: r => if d = c then some r else none
  | [] => none

def isLeapYear (year : Nat) : Bool := year % 4 == 0 && (year % 100 != 0 || year % 400 == 0)

def daysInMonth (year month : Nat) : Nat :=
  if month == 2 then (if isLeapYear year then 29 else 28)
  else if month == 4 || month == 6 || month == 9 || month == 11 then 30
  else 31

def skipDate? (cs : List Char) : Option (List Char) := do
  let (year, r) ← readFixed 4 cs
  let (month, r) ← readFixed 2 (← expect '-' r)
  let (day, r) ← readFixed 2 (← expect '-' r)
  if 1 ≤ month ∧ month ≤ 12 ∧ 1 ≤ day ∧ day ≤ daysInMonth year month then some r else none

/-- Hours and minutes. -/
def skipClock? (cs : List Char) : Option (List Char) := do
  let (hour, r) ← readFixed 2 cs
  let (minute, r) ← readFixed 2 (← expect ':' r)
  if hour ≤ 23 ∧ minute ≤ 59 then some r else none

/-- A fraction of a second, if there is one. -/
def skipFraction (cs : List Char) : List Char :=
  match cs with
  | '.' :: c :: r => if isDigit 10 c then r.dropWhile (isDigit 10) else cs
  | _ => cs

def skipTime? (cs : List Char) : Option (List Char) := do
  let r ← skipClock? cs
  let (second, r) ← readFixed 2 (← expect ':' r)
  if second ≤ 60 then some (skipFraction r) else none

/-- The distance from universal time, if one follows. -/
def skipOffset (cs : List Char) : List Char :=
  match cs with
  | 'Z' :: r => r
  | 'z' :: r => r
  | '+' :: r => (skipClock? r).getD cs
  | '-' :: r => (skipClock? r).getD cs
  | _ => cs

/-- A time of day behind the mark that parts it from a date. -/
def skipMarkedTime? : List Char → Option (List Char)
  | c :: r => if c == 'T' || c == 't' || c == ' ' then skipTime? r else none
  | [] => none

/-- What follows a date, a time of day or both at the front of a text. -/
def skipMoment? (cs : List Char) : Option (List Char) :=
  match skipDate? cs with
  | some r =>
    match skipMarkedTime? r with
    | some r' => some (skipOffset r')
    | none => some r
  | none => skipTime? cs

/-- The part of `cs` before its rest `rest`. -/
def writtenBefore (cs rest : List Char) : String :=
  String.ofList (cs.take (cs.length - rest.length))

/-- A moment, a float or an integer. -/
def readNumeric (cs : List Char) : Option (Value × List Char) :=
  match skipMoment? cs with
  | some rest => some (.moment (writtenBefore cs rest), rest)
  | none =>
    match skipFloat? cs with
    | some rest => some (.float (writtenBefore cs rest), rest)
    | none => (readInteger cs).map fun (n, rest) => (.integer n, rest)

end AndroidBoot.Toml
