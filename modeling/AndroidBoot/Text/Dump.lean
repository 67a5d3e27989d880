/-!
# Indented dumps

A `Dump` is the tree of a value: a plain text, named fields, unnamed parts or a list. Shown, every
part stands on a line of its own, four blanks further in, and ends with a comma.
-/

namespace AndroidBoot

inductive Dump where
  | text (s : String)
  | record (name : String) (fields : List (String × Dump))
  | parts (name : String) (items : List Dump)
  | list (items : List Dump)

namespace Dump

def indentation (depth : Nat) : String := String.ofList (List.replicate (4 * depth) ' ')

mutual

/-- The text of a dump whose first line starts at `depth`. -/
def render (depth : Nat) : Dump → String
  | text s => s
  | record name fields =>
    name ++ " \x7b\n" ++ renderFields (depth + 1) fields ++ indentation depth ++ "\x7d"
  | parts name items => name ++ "(\n" ++ renderItems (depth + 1) items ++ indentation depth ++ ")"
  | list [] => "[]"
  | list (item :: items) =>
    "[\n" ++ renderItems (depth + 1) (item :: items) ++ indentation depth ++ "]"

def renderFields (depth : Nat) : List (String × Dump) → String
  | [] => ""
  | (name, d) :: rest =>
    indentation depth ++ name ++ ": " ++ render depth d ++ ",\n" ++ renderFields depth rest

def renderItems (depth : Nat) : List Dump → String
  | [] => ""
  | d :: rest => indentation depth ++ render depth d ++ ",\n" ++ renderItems depth rest

end

end Dump

end AndroidBoot
