import AndroidBoot.Bytes.Basic
import AndroidBoot.Storage.Fault

/-!
# Access to files

`Files m` are the operations by which a program in the monad `m` reaches files and prints.
-/

namespace AndroidBoot

/-- A fault in reading a file: it cannot be opened, or what was opened cannot be read. -/
inductive ReadFault where
  | opening (fault : Fault)
  | reading (fault : Fault)
deriving DecidableEq, Repr

def ReadFault.fault : ReadFault → Fault
  | opening fault | reading fault => fault

class Files (m : Type → Type) where
  /-- The content of a file. -/
  read : String → m (Except ReadFault Bytes)
  /-- Writes a file, in place of one that is there. -/
  write : String → Bytes → m (Except Fault Unit)
  /-- Makes a directory, and its parents where they are missing. -/
  makeDirectories : String → m (Except Fault Unit)
  print : String → m Unit

/-- The name of a file in a directory. One that is empty or ends in a slash needs no other. -/
def joinName (directory name : String) : String :=
  match directory.toList.getLast? with
  | none | some '/' => directory ++ name
  | some _ => directory ++ "/" ++ name

end AndroidBoot
