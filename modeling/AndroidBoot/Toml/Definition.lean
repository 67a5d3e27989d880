import AndroidBoot.Toml.Value

/-!
# Definitions of tables

A document defines its tables piece by piece: by headers, by dotted keys and as elements of arrays.
`Node` is a document while it grows; it remembers how each table came to be, since a table is
defined by one header or by dotted keys, and never by both.

    assign, defineTable and addElement refuse what would define a key twice
-/

namespace AndroidBoot.Toml

/-- How a table came to be. -/
inductive Origin where
  /-- By a header of its own, as the document itself or as an element of an array. -/
  | header
  /-- As a parent named in the header of another table. -/
  | parent
  /-- By a dotted key. -/
  | dotted
deriving DecidableEq, Repr

inductive Node where
  | value (v : Value)
  | table (origin : Origin) (entries : List (String × Node))
  | elements (tables : List (List (String × Node)))

abbrev Entries := List (String × Node)

namespace Entries

/-- The entries with another node for `key`, which keeps its place. -/
def replace (key : String) (node : Node) : Entries → Entries
  | [] => []
  | (k, n) :: es => if k = key then (k, node) :: es else (k, n) :: replace key node es

/-- Changes the table at the end of a path by `change`. Tables that are not there yet are made, as
parents or, where `dotted`, by dotted keys. An array of tables stands for its last element. -/
def changeAt (dotted : Bool) (change : Origin → Entries → Option Entries) :
    List String → Origin → Entries → Option Entries
  | [], origin, es => change origin es
  | key :: path, _, es =>
    match es.lookup key with
    | none => do
      let origin := if dotted then Origin.dotted else .parent
      let child ← changeAt dotted change path origin []
      return es ++ [(key, .table origin child)]
    | some (.value _) => none
    | some (.table origin child) =>
      if dotted ∧ origin = .header then none
      else do
        let child ← changeAt dotted change path origin child
        return replace key (.table origin child) es
    | some (.elements tables) =>
      match tables.getLast? with
      | none => none
      | some last => do
        let last ← changeAt dotted change path .header last
        return replace key (.elements (tables.dropLast ++ [last])) es

end Entries

/-- A key with the path in front of it, and the value it is given. -/
structure Assignment where
  path : List String
  key : String
  value : Value

namespace Entries

/-- Gives a key its value, in a table that only such keys, or only a header, define. -/
def assign (es : Entries) (a : Assignment) : Option Entries :=
  changeAt true (fun origin es =>
    if (origin == .dotted) == a.path.isEmpty then none
    else if (es.lookup a.key).isSome then none
    else some (es ++ [(a.key, .value a.value)])) a.path .header es

def assignAll (es : Entries) (as : List Assignment) : Option Entries := as.foldlM assign es

/-- Defines a table by a header; it may already be there as a parent only. -/
def defineTable (es : Entries) (path : List String) (key : String) (as : List Assignment) :
    Option Entries :=
  changeAt false (fun _ es =>
    match es.lookup key with
    | none => do return es ++ [(key, .table .header (← assignAll [] as))]
    | some (.table .parent child) => do
      return replace key (.table .header (← assignAll child as)) es
    | some _ => none) path .header es

/-- Adds an element to an array of tables. -/
def addElement (es : Entries) (path : List String) (key : String) (as : List Assignment) :
    Option Entries :=
  changeAt false (fun _ es =>
    match es.lookup key with
    | none => do return es ++ [(key, .elements [← assignAll [] as])]
    | some (.elements tables) => do
      return replace key (.elements (tables ++ [← assignAll [] as])) es
    | some _ => none) path .header es

end Entries

/-! ## The finished document -/

mutual

def Node.toValue : Node → Value
  | .value v => v
  | .table _ entries => .table (Entries.toTable entries)
  | .elements tables => .array (Entries.toElements tables)

def Entries.toTable : List (String × Node) → Table
  | [] => []
  | (key, node) :: es => (key, Node.toValue node) :: Entries.toTable es

def Entries.toElements : List (List (String × Node)) → List Value
  | [] => []
  | es :: rest => .table (Entries.toTable es) :: Entries.toElements rest

end

end AndroidBoot.Toml
