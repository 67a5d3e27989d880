import AndroidBoot.Storage.Files
import AndroidBoot.Text.Blank

/-!
# Stores

A `Store` is a tree of files and directories, kept as a list of paths from its root. Names of files
are followed through the tree, from the current directory or, behind a slash, from the root: every
part but the last has to be a directory, `.` stays and `..` goes back, but not beyond the root. A
name holds no zero, and it and its parts are of limited length.

    (s.write name data) = .ok s' → s'.read name = .ok data
    and every other path has in s' what it has in s
-/

namespace AndroidBoot

/-- The names of the directories from the root on, and then that of the file. -/
abbrev Path := List String

inductive Node where
  | file (data : Bytes)
  | directory
deriving DecidableEq, Repr

structure Store where
  /-- The current directory. -/
  current : Path
  nodes : List (Path × Node)
deriving DecidableEq, Repr

namespace Store

/-- A store that holds nothing but the directory `current`, which lies in the root. -/
def empty (current : String) : Store := ⟨[current], [([current], .directory)]⟩

/-- What is at a path; the root is always a directory. -/
def node? (s : Store) (p : Path) : Option Node :=
  if p = [] then some .directory else s.nodes.lookup p

def insertNode (p : Path) (n : Node) : List (Path × Node) → List (Path × Node)
  | [] => [(p, n)]
  | (q, m) :: rest => if q = p then (p, n) :: rest else (q, m) :: insertNode p n rest

/-- The store with another node at a path. -/
def insert (s : Store) (p : Path) (n : Node) : Store := { s with nodes := insertNode p n s.nodes }

/-! ## Names -/

/-- A name has fewer bytes than this. -/
def nameLimit : Nat := 4096

/-- A part of a name has at most as many bytes as this. -/
def partLimit : Nat := 255

/-- Refuses what is no name of a file. -/
def checkName (name : String) : Except Fault Unit := do
  if name.toList.contains '\x00' then throw .invalidInput
  if nameLimit ≤ name.utf8ByteSize then throw .nameTooLong

/-- The parts of a name between its slashes. -/
def nameParts (name : String) : List String :=
  (splitAtChars (· == '/') name.toList).map String.ofList

/-- The directory that a name is followed from. -/
def startOf (s : Store) (name : String) : Path :=
  if name.toList.head? = some '/' then [] else s.current

/-- Follows the parts of a name from a path on. What the last part names need not be there. -/
def follow (s : Store) : List String → Path → Except Fault Path
  | [], p => .ok p
  | part :: parts, p =>
    match s.node? p with
    | none => .error .notFound
    | some (.file _) => .error .notADirectory
    | some .directory =>
      if partLimit < part.utf8ByteSize then .error .nameTooLong
      else follow s parts (if part = "" ∨ part = "." then p else if part = ".." then p.dropLast
        else p ++ [part])

/-- The parts of a name without the empty ones at its end. -/
def trimParts (parts : List String) : List String := (parts.reverse.dropWhile (· = "")).reverse

/-! ## Operations -/

/-- The content of a file. A directory can be opened, but not read. -/
def read (s : Store) (name : String) : Except ReadFault Bytes :=
  match checkName name >>= fun _ => s.follow (nameParts name) (s.startOf name) with
  | .error fault => .error (.opening fault)
  | .ok p =>
    match s.node? p with
    | none => .error (.opening .notFound)
    | some .directory => .error (.reading .isADirectory)
    | some (.file data) => .ok data

/-- Writes a file, in place of one that is there. A name with a slash at its end is no file. -/
def write (s : Store) (name : String) (data : Bytes) : Except Fault Store := do
  checkName name
  let parts := nameParts name
  if trimParts parts ≠ parts then
    let _ ← s.follow ((trimParts parts).dropLast ++ [""]) (s.startOf name)
    throw .isADirectory
  let p ← s.follow parts (s.startOf name)
  if s.node? p = some .directory then throw .isADirectory
  return s.insert p (.file data)

/-- Makes the directory that the parts of a name lead to from a path on. -/
def makeDirectory (s : Store) (start : Path) (parts : List String) : Except Fault Store := do
  let p ← s.follow (trimParts parts) start
  if (s.node? p).isSome then throw .alreadyExists
  return s.insert p .directory

/-- Whether the parts of a name lead to a directory. -/
def isDirectory (s : Store) (start : Path) (parts : List String) : Bool :=
  match s.follow parts start with
  | .ok p => s.node? p == some .directory
  | .error _ => false

/-- The parts of the parent of a name. -/
def parentParts (parts : List String) : List String :=
  (parts.filter fun part => part ≠ "" ∧ part ≠ ".").dropLast

theorem length_parentParts_lt {parts : List String} (h : parts ≠ []) :
    (parentParts parts).length < parts.length := by
  have hle := List.length_filter_le (fun part => decide (part ≠ "" ∧ part ≠ ".")) parts
  have hpos := List.length_pos_iff.2 h
  simp only [parentParts, List.length_dropLast]
  omega

/-- Makes a directory and, before it, its parents where they are missing. A directory that is
already there is fine. What was made before a fault stays. -/
def makeWithParents (s : Store) (start : Path) (parts : List String) : Except Fault Unit × Store :=
  if _h : parts = [] then (.ok (), s)
  else match s.makeDirectory start parts with
    | .ok s' => (.ok (), s')
    | .error .notFound =>
      match makeWithParents s start (parentParts parts) with
      | (.error fault, s') => (.error fault, s')
      | (.ok (), s') =>
        match s'.makeDirectory start parts with
        | .ok s'' => (.ok (), s'')
        | .error fault => (if s'.isDirectory start parts then .ok () else .error fault, s')
    | .error fault => (if s.isDirectory start parts then .ok () else .error fault, s)
termination_by parts.length
decreasing_by exact length_parentParts_lt _h

/-- Makes the directory with a name, and its parents where they are missing. -/
def makeDirectories (s : Store) (name : String) : Except Fault Unit × Store :=
  match checkName name with
  | .ok () => s.makeWithParents (s.startOf name) (nameParts name)
  | .error fault => (.error fault, s)

end Store

/-! ## Sessions -/

/-- A store and what was printed. -/
structure Session where
  store : Store
  output : String
deriving DecidableEq, Repr

/-- Changes the store; the change says how it ended. -/
def Session.change (f : Store → Except Fault Unit × Store) : StateM Session (Except Fault Unit) :=
  fun session =>
    let (r, store) := f session.store
    (r, { session with store })

instance : Files (StateM Session) where
  read name := fun session => (session.store.read name, session)
  write name data := Session.change fun s => match s.write name data with
    | .ok s' => (.ok (), s')
    | .error fault => (.error fault, s)
  makeDirectories name := Session.change (·.makeDirectories name)
  print text := fun session => ((), { session with output := session.output ++ text })

end AndroidBoot
