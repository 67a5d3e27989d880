import AndroidBoot.Number.Text
import AndroidBoot.Text.Printable
import AndroidBoot.Text.Utf8

/-!
# Quoted text

A text between double quotes in which no character is invisible: tabs, line breaks, quotes and
backslashes have a short escape, other characters that cannot be shown are `\u` with their code in
braces, and bytes that are no character are `\x` with two digits.
-/

namespace AndroidBoot

/-- `\u` with the code of `c` in braces. -/
def codeEscape (c : Char) : String := "\\u\x7b" ++ hexDigits c.toNat ++ "\x7d"

/-- `\x` with the two digits of `n`. -/
def byteEscape (n : Nat) : String := "\\x" ++ padLeft '0' 2 (hexDigits n)

/-- A character as it stands in a quoted text; a single quote is escaped where `single` says so. -/
def quoteChar (single : Bool) (c : Char) : String :=
  match c with
  | '\x00' => "\\0"
  | '\t' => "\\t"
  | '\r' => "\\r"
  | '\n' => "\\n"
  | '"' => "\\\""
  | '\\' => "\\\\"
  | '\'' => if single then "\\'" else "'"
  | c => if joinsPrevious c || isInvisible c then codeEscape c else c.toString

/-- A text between double quotes. -/
def quoteText (s : String) : String :=
  "\"" ++ String.join (s.toList.map (quoteChar false)) ++ "\""

/-- A piece of a byte string as it stands between quotes; controls are bytes here. -/
def quotePiece : Utf8.Piece → String
  | .stray b => byteEscape b.toNat
  | .char c =>
    if c == '\x00' || c == '\t' || c == '\r' || c == '\n' then quoteChar true c
    else if c.toNat < 0x20 || c.toNat == 0x7F then byteEscape c.toNat
    else quoteChar true c

/-- A byte string between double quotes. -/
def quoteBytes (bs : Bytes) : String :=
  "\"" ++ String.join ((Utf8.pieces bs).map quotePiece) ++ "\""

end AndroidBoot
