import AndroidBoot.Toml.Definition
import AndroidBoot.Toml.Scalar
import AndroidBoot.Toml.StringForm

/-!
# Reading TOML

`readTable?` takes a document apart into its statements and collects what they define. Arrays and
inline tables nest at most 79 deep, and a key has at most 79 parts. Loops are bounded by the number
of characters left.

    readTable? of what the writer makes is the table it was made from
-/

namespace AndroidBoot.Toml

/-- How deep values nest, and how many parts a key has, at most. -/
def depthLimit : Nat := 79

def isBlankChar (c : Char) : Bool := c == ' ' || c == '\t'

def skipBlanks (cs : List Char) : List Char := cs.dropWhile isBlankChar

/-- Drops blanks, line breaks and comments at the front; `inComment` says whether one is open. -/
def skipFiller : Bool → List Char → List Char
  | _, [] => []
  | _, '\n' :: r => skipFiller false r
  | _, '\r' :: '\n' :: r => skipFiller false r
  | true, c :: r => if isTextChar c then skipFiller true r else c :: r
  | false, '#' :: r => skipFiller true r
  | false, c :: r => if isBlankChar c then skipFiller false r else c :: r

/-- What follows the end of a line, with blanks and a comment before it. -/
def endLine? (cs : List Char) : Option (List Char) :=
  let r := match skipBlanks cs with
    | '#' :: r => r.dropWhile isTextChar
    | r => r
  match r with
  | [] => some []
  | r => newline? r

/-! ## Keys -/

def isBareKeyChar (c : Char) : Bool :=
  ('a' ≤ c && c ≤ 'z') || ('A' ≤ c && c ≤ 'Z') || ('0' ≤ c && c ≤ '9') || c == '-' || c == '_'

/-- One part of a key. -/
def readKeyPart : List Char → Option (String × List Char)
  | '"' :: r => (readBasic r).map fun (s, rest) => (String.ofList s, rest)
  | '\'' :: r => (readLiteral r).map fun (s, rest) => (String.ofList s, rest)
  | cs =>
    let bare := cs.takeWhile isBareKeyChar
    if bare.isEmpty then none else some (String.ofList bare, cs.dropWhile isBareKeyChar)

/-- The parts of a key, with points between them and blanks around them. -/
def readKeyParts : Nat → List Char → Option (List String × List Char)
  | 0, _ => none
  | fuel + 1, cs => do
    let (part, r) ← readKeyPart (skipBlanks cs)
    match skipBlanks r with
    | '.' :: r =>
      let (parts, rest) ← readKeyParts fuel r
      return (part :: parts, rest)
    | r => return ([part], r)

/-- A key as the path to its table and its last part. -/
def readKey (cs : List Char) : Option (List String × String × List Char) := do
  let (parts, rest) ← readKeyParts depthLimit cs
  return (parts.dropLast, ← parts.getLast?, rest)

/-! ## Values -/

/-- The items of an array behind its opening bracket; a comma may follow the last one. -/
def readItems (item : List Char → Option (Value × List Char)) :
    Nat → List Char → Option (List Value × List Char)
  | 0, _ => none
  | fuel + 1, cs =>
    match skipFiller false cs with
    | ']' :: rest => some ([], rest)
    | r => do
      let (v, r) ← item r
      match skipFiller false r with
      | ',' :: r =>
        let (vs, rest) ← readItems item fuel r
        return (v :: vs, rest)
      | ']' :: rest => return ([v], rest)
      | _ => none

/-- A key, an equals sign and a value. -/
def readAssignment (value : List Char → Option (Value × List Char)) (cs : List Char) :
    Option (Assignment × List Char) := do
  let (path, key, r) ← readKey cs
  let (v, rest) ← value (skipBlanks (← expect '=' r))
  return (⟨path, key, v⟩, rest)

/-- The assignments of an inline table, of which there is at least one. -/
def readAssignments (value : List Char → Option (Value × List Char)) :
    Nat → List Char → Option (List Assignment × List Char)
  | 0, _ => none
  | fuel + 1, cs => do
    let (a, r) ← readAssignment value cs
    match skipBlanks r with
    | ',' :: r =>
      let (as, rest) ← readAssignments value fuel r
      return (a :: as, rest)
    | '}' :: rest => return ([a], rest)
    | _ => none

/-- An inline table behind its opening brace. -/
def readInlineTable (value : List Char → Option (Value × List Char)) (cs : List Char) :
    Option (Value × List Char) :=
  match skipBlanks cs with
  | '}' :: rest => some (.table [], rest)
  | _ => do
    let (as, rest) ← readAssignments value cs.length cs
    let es ← Entries.assignAll [] as
    return (.table (Entries.toTable es), rest)

/-- A value at the front of a text that may nest `depth` deep. -/
def readValue : Nat → List Char → Option (Value × List Char)
  | depth, c :: r =>
    if c = '"' ∨ c = '\'' then
      (readString (c :: r)).map fun (s, rest) => (.string (String.ofList s), rest)
    else if c = '[' then
      match depth with
      | 0 => none
      | depth + 1 =>
        (readItems (readValue depth) (r.length + 1) r).map fun (vs, rest) => (.array vs, rest)
    else if c = '\x7b' then
      match depth with
      | 0 => none
      | depth + 1 => readInlineTable (readValue depth) r
    else match c :: r with
      | 't' :: 'r' :: 'u' :: 'e' :: rest => some (.boolean true, rest)
      | 'f' :: 'a' :: 'l' :: 's' :: 'e' :: rest => some (.boolean false, rest)
      | cs => readNumeric cs
  | _, [] => none

/-! ## Documents -/

inductive Statement where
  | assignment (a : Assignment)
  | table (path : List String) (key : String)
  | element (path : List String) (key : String)

/-- The statement at the front of a text, without the line break that ends it. -/
def readStatement : List Char → Option (Statement × List Char)
  | '[' :: '[' :: r => do
    let (path, key, r) ← readKey r
    return (.element path key, ← expect ']' (← expect ']' r))
  | '[' :: r => do
    let (path, key, r) ← readKey r
    return (.table path key, ← expect ']' r)
  | cs => do
    let (a, rest) ← readAssignment (readValue depthLimit) cs
    return (.assignment a, rest)

/-- The statements of a text, each on a line of its own. -/
def readStatements : Nat → List Char → Option (List Statement)
  | 0, _ => none
  | fuel + 1, cs =>
    match endLine? cs with
    | some [] => some []
    | some r => readStatements fuel r
    | none => do
      let (s, r) ← readStatement (skipBlanks cs)
      let r ← endLine? r
      return s :: (← if r.isEmpty then some [] else readStatements fuel r)

/-- The assignments before the next header, and the statements from there on. -/
def leadingAssignments : List Statement → List Assignment × List Statement
  | .assignment a :: ss =>
    let (as, rest) := leadingAssignments ss
    (a :: as, rest)
  | ss => ([], ss)

theorem length_leadingAssignments (ss : List Statement) :
    (leadingAssignments ss).2.length ≤ ss.length := by
  fun_induction leadingAssignments ss with
  | case1 a ss as rest h ih => simp_all; omega
  | case2 ss => exact Nat.le_refl _

/-- Adds the tables that a list of statements from a header on defines. -/
def addSections (es : Entries) : List Statement → Option Entries
  | [] => some es
  | .assignment _ :: _ => none
  | .table path key :: ss => do
    addSections (← es.defineTable path key (leadingAssignments ss).1) (leadingAssignments ss).2
  | .element path key :: ss => do
    addSections (← es.addElement path key (leadingAssignments ss).1) (leadingAssignments ss).2
termination_by ss => ss.length
decreasing_by all_goals exact Nat.lt_succ_of_le (length_leadingAssignments ss)

/-- The document that a list of statements defines. -/
def define? (ss : List Statement) : Option Table := do
  let es ← addSections (← Entries.assignAll [] (leadingAssignments ss).1) (leadingAssignments ss).2
  return Entries.toTable es

/-- The table a document stands for. A mark of the byte order at the front is no part of it. -/
def readTable? (text : String) : Option Table :=
  let cs := match text.toList with
    | '\uFEFF' :: r => r
    | cs => cs
  readStatements (cs.length + 1) cs >>= define?

end AndroidBoot.Toml
