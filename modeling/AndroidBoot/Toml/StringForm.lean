import AndroidBoot.Number.Text

/-!
# Strings of TOML

A string has four written forms: basic or literal, on one line or several. `Form.choose` takes the
plainest form that can hold a string, `Form.write` writes it, and the readers take the text behind
an opening quote apart into the string and what follows it.

    read (write s ++ rest) = some (s, rest)
-/

namespace AndroidBoot.Toml

/-- A character that stands for itself in every form: no control but the tab. -/
def isTextChar (c : Char) : Bool := c == '\t' || (' ' ≤ c && c != '\x7f')

inductive Form where
  | basic
  | literal
  | multilineBasic
  | multilineLiteral
deriving DecidableEq, Repr

namespace Form

/-- The length of the longest run of `q`, where `run` of them stand before the text. -/
def longestRun (q : Char) (run : Nat) : List Char → Nat
  | [] => run
  | c :: cs => if c = q then longestRun q (run + 1) cs else max run (longestRun q 0 cs)

/-- A character that needs an escape: a control other than the tab and the line feed. -/
def isEscapeCode (c : Char) : Bool := !isTextChar c && c != '\n'

def choose (cs : List Char) : Form :=
  let escapes := cs.any isEscapeCode
  let backslash := cs.contains '\\'
  let newline := cs.contains '\n'
  if !escapes && !backslash && !newline && longestRun '"' 0 cs == 0 then basic
  else if !escapes && !newline && longestRun '\'' 0 cs == 0 then literal
  else if !escapes && !backslash && longestRun '"' 0 cs ≤ 2 then multilineBasic
  else if !escapes && longestRun '\'' 0 cs ≤ 2 then multilineLiteral
  else if newline then multilineBasic
  else basic

def isMultiline : Form → Bool
  | basic | literal => false
  | multilineBasic | multilineLiteral => true

def delimiter : Form → List Char
  | basic => ['"']
  | literal => ['\'']
  | multilineBasic => ['"', '"', '"']
  | multilineLiteral => ['\'', '\'', '\'']

/-- `\u` with four upper-case digits. -/
def codeEscape (c : Char) : List Char :=
  ['\\', 'u'] ++ (padLeft '0' 4 (hexDigits c.toNat)).toList.map Char.toUpper

/-- The text of a basic string. On several lines only the third of three double quotes in a row is
escaped; `run` of them stand before the text. -/
def writeBasic (multiline : Bool) (run : Nat) : List Char → List Char
  | [] => []
  | c :: cs =>
    if c = '"' then
      if multiline ∧ run < 2 then '"' :: writeBasic multiline (run + 1) cs
      else '\\' :: '"' :: writeBasic multiline 0 cs
    else (match c with
      | '\x08' => ['\\', 'b']
      | '\t' => ['\\', 't']
      | '\n' => if multiline then ['\n'] else ['\\', 'n']
      | '\x0c' => ['\\', 'f']
      | '\r' => ['\\', 'r']
      | '\\' => ['\\', '\\']
      | c => if isTextChar c then [c] else codeEscape c) ++ writeBasic multiline 0 cs

/-- The text of a string between its delimiters. -/
def writeBody (form : Form) (cs : List Char) : List Char :=
  match form with
  | basic => writeBasic false 0 cs
  | multilineBasic => writeBasic true 0 cs
  | literal | multilineLiteral => cs

def write (form : Form) (cs : List Char) : List Char :=
  form.delimiter ++ (if form.isMultiline && cs.contains '\n' then ['\n'] else []) ++
    form.writeBody cs ++ form.delimiter

end Form

/-- A string in the plainest form that can hold it. -/
def writeString (cs : List Char) : List Char := (Form.choose cs).write cs

/-! ## Reading -/

/-- The character whose code has these digits. -/
def codeChar? (digits : List Char) : Option Char := do
  let n ← digitsValue? 16 digits
  if n.isValidChar then some (Char.ofNat n) else none

/-- The character a backslash and the text behind it stand for, and how much of the text that is. -/
def escape? : List Char → Option (Char × Nat)
  | 'b' :: _ => some ('\x08', 1)
  | 't' :: _ => some ('\t', 1)
  | 'n' :: _ => some ('\n', 1)
  | 'f' :: _ => some ('\x0c', 1)
  | 'r' :: _ => some ('\r', 1)
  | '"' :: _ => some ('"', 1)
  | '\\' :: _ => some ('\\', 1)
  | 'u' :: r => if r.length < 4 then none else (codeChar? (r.take 4)).map (·, 5)
  | 'U' :: r => if r.length < 8 then none else (codeChar? (r.take 8)).map (·, 9)
  | _ => none

/-- Puts `c` in front of a string that was read. -/
def pushFront (c : Char) : List Char × List Char → List Char × List Char
  | (s, rest) => (c :: s, rest)

/-- A basic string behind its opening quote. -/
def readBasic : List Char → Option (List Char × List Char)
  | [] => none
  | c :: r =>
    if c = '"' then some ([], r)
    else if c = '\\' then
      match escape? r with
      | some (e, n) => (readBasic (r.drop n)).map (pushFront e)
      | none => none
    else if isTextChar c then (readBasic r).map (pushFront c)
    else none
termination_by cs => cs.length
decreasing_by all_goals simp; try omega

/-- A literal string behind its opening quote. -/
def readLiteral : List Char → Option (List Char × List Char)
  | [] => none
  | c :: r =>
    if c = '\'' then some ([], r)
    else if isTextChar c then (readLiteral r).map (pushFront c)
    else none

/-- Drops a line break at the front. -/
def skipNewline : List Char → List Char
  | '\n' :: r => r
  | '\r' :: '\n' :: r => r
  | r => r

/-- Drops blanks and line breaks at the front. -/
def skipSpace : List Char → List Char
  | ' ' :: r => skipSpace r
  | '\t' :: r => skipSpace r
  | '\n' :: r => skipSpace r
  | '\r' :: '\n' :: r => skipSpace r
  | r => r

/-- The text behind a backslash that ends its line, without the blank lines that follow. -/
def continued? (r : List Char) : Option (List Char) :=
  match r.dropWhile (fun c => c == ' ' || c == '\t') with
  | '\n' :: r' => some (skipSpace r')
  | '\r' :: '\n' :: r' => some (skipSpace r')
  | _ => none

/-- The end of a string on several lines behind three quotes `q`: up to two more belong to it. -/
def closing (q : Char) : List Char → List Char × List Char
  | a :: b :: r =>
    if a = q then (if b = q then ([q, q], r) else ([q], b :: r)) else ([], a :: b :: r)
  | [a] => if a = q then ([q], []) else ([], [a])
  | [] => ([], [])

/-- Whether three quotes `q` stand at the front. -/
def closes (q : Char) (cs : List Char) : Bool := cs.take 3 == [q, q, q]

/-- Whether a line break stands at the front, and what follows it. -/
def newline? : List Char → Option (List Char)
  | '\n' :: r => some r
  | '\r' :: '\n' :: r => some r
  | _ => none

/-- A literal string on several lines behind its opening quotes and first line break. -/
def readMultilineLiteral : Nat → List Char → Option (List Char × List Char)
  | 0, _ => none
  | fuel + 1, cs =>
    if closes '\'' cs then some (closing '\'' (cs.drop 3))
    else match newline? cs with
      | some r => (readMultilineLiteral fuel r).map (pushFront '\n')
      | none => match cs with
        | [] => none
        | c :: r =>
          if isTextChar c then (readMultilineLiteral fuel r).map (pushFront c) else none

/-- A basic string on several lines behind its opening quotes and first line break. -/
def readMultilineBasic : Nat → List Char → Option (List Char × List Char)
  | 0, _ => none
  | fuel + 1, cs =>
    if closes '"' cs then some (closing '"' (cs.drop 3))
    else match newline? cs with
      | some r => (readMultilineBasic fuel r).map (pushFront '\n')
      | none => match cs with
        | [] => none
        | c :: r =>
          if c = '\\' then
            match continued? r with
            | some r' => readMultilineBasic fuel r'
            | none => match escape? r with
              | some (e, n) => (readMultilineBasic fuel (r.drop n)).map (pushFront e)
              | none => none
          else if isTextChar c then (readMultilineBasic fuel r).map (pushFront c)
          else none

/-- A string of any form, from its opening quote on. -/
def readString (cs : List Char) : Option (List Char × List Char) :=
  if closes '"' cs then readMultilineBasic cs.length (skipNewline (cs.drop 3))
  else if closes '\'' cs then readMultilineLiteral cs.length (skipNewline (cs.drop 3))
  else match cs with
    | '"' :: r => readBasic r
    | '\'' :: r => readLiteral r
    | _ => none

end AndroidBoot.Toml
