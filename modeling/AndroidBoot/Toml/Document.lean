import AndroidBoot.Toml.StringForm
import AndroidBoot.Toml.Value

/-!
# Written documents

A `Document` is a list of fields and then sections, each of which is a table of its own or the next
element of an array of tables. Names are bare keys. An array of two or more items takes a line for
every item; an integer has to fit 64 bits with a sign.

    d.write = none  ↔  an integer of d does not fit
    readTable? d.write = some d.toTable
-/

namespace AndroidBoot.Toml

abbrev Field := String × Value

structure Section where
  name : String
  /-- Whether the section is an element of the array `name`, and not the table `name`. -/
  isElement : Bool
  fields : List Field

structure Document where
  fields : List Field
  sections : List Section

/-! ## The table of a document -/

/-- Adds an element to the array of tables `name`, which stands where its first element does. -/
def addElement (name : String) (element : Table) : Table → Table
  | [] => [(name, .array [.table element])]
  | (k, v) :: t =>
    if k = name then
      match v with
      | .array items => (k, .array (items ++ [.table element])) :: t
      | v => (k, v) :: t
    else (k, v) :: addElement name element t

def Section.addTo (t : Table) (s : Section) : Table :=
  if s.isElement then addElement s.name s.fields t else t ++ [(s.name, .table s.fields)]

def Document.toTable (d : Document) : Table := d.sections.foldl Section.addTo d.fields

/-! ## Writing -/

/-- An array of written items. -/
def writeArray : List (List Char) → List Char
  | [] => ['[', ']']
  | [w] => '[' :: w ++ [']']
  | ws => '[' :: ws.flatMap (fun w => "\n    ".toList ++ w ++ [',']) ++ ['\n', ']']

mutual

/-- A value as it stands behind its key. Tables have sections of their own and none in a line. -/
def writeValue : Value → Option (List Char)
  | .string s => some (writeString s.toList)
  | .integer n => if integerMin ≤ n ∧ n ≤ integerMax then some (toString n).toList else none
  | .boolean b => some (if b then "true" else "false").toList
  | .float written | .moment written => some written.toList
  | .array items => (writeItems items).map writeArray
  | .table _ => none

def writeItems : List Value → Option (List (List Char))
  | [] => some []
  | v :: vs => do return (← writeValue v) :: (← writeItems vs)

end

/-- The line of a field. -/
def writeField (f : Field) : Option (List Char) :=
  (writeValue f.2).map (f.1.toList ++ [' ', '=', ' '] ++ · ++ ['\n'])

def writeFields (fs : List Field) : Option (List Char) := (fs.mapM writeField).map List.flatten

def Section.header (s : Section) : List Char :=
  if s.isElement then "[[".toList ++ s.name.toList ++ "]]\n".toList
  else '[' :: s.name.toList ++ "]\n".toList

/-- The sections, each behind a blank line, of which the first has none if it opens the document. -/
def writeSections : Bool → List Section → Option (List Char)
  | _, [] => some []
  | opens, s :: ss => do
    let fields ← writeFields s.fields
    return (if opens then [] else ['\n']) ++ s.header ++ fields ++ (← writeSections false ss)

def Document.write (d : Document) : Option String := do
  let fields ← writeFields d.fields
  return String.ofList (fields ++ (← writeSections d.fields.isEmpty d.sections))

end AndroidBoot.Toml
