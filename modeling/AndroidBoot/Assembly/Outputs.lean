import AndroidBoot.Assembly.Fragment
import AndroidBoot.Text.Utf8

/-!
# Outputs of assembly

The fragments are measured before any of them is written. The totals bound both outputs: an
`OutputWriter` refuses a fragment that would not fit, and stays as it was.

    w.write f = .ok w' → the outputs of w' are within the budget
    what was measured can be written, in any order
-/

namespace AndroidBoot

inductive AssemblyError where
  | noBaseband
  | noSerialNumber
  | budgetExceeded (output : Destination) (written measured : Nat)
deriving DecidableEq, Repr

def Destination.name : Destination → String
  | cmdline => "cmdline"
  | bootconfig => "bootconfig"

def AssemblyError.message : AssemblyError → String
  | noBaseband => "Chip baseband is not available"
  | noSerialNumber => "Serial number is not available"
  | budgetExceeded output written measured =>
    "Wrote " ++ toString written ++ " bytes to " ++ output.name ++ ", but only measured "
      ++ toString measured

/-- How many bytes each output may take. -/
structure OutputBudget where
  cmdline : Nat
  bootconfig : Nat
deriving DecidableEq, Repr

namespace OutputBudget

def empty : OutputBudget := ⟨0, 0⟩

/-- What a bootconfig entry may take beyond its text. -/
def entryMargin : Nat := 2

/-- Adds a fragment. The command line grows by every fragment, also by one of the bootconfig. -/
def grow (b : OutputBudget) (f : Fragment) : OutputBudget where
  cmdline := b.cmdline + f.size
  bootconfig := match f.destination with
    | .cmdline => b.bootconfig
    | .bootconfig => b.bootconfig + f.size + entryMargin

def ofFragments (fs : List Fragment) : OutputBudget := fs.foldl grow empty

end OutputBudget

/-- The finished outputs, without the zeros that close them. -/
structure BootOutputs where
  cmdline : String
  bootconfig : Option String
deriving DecidableEq, Repr

namespace BootOutputs

/-- The command line with the zero that closes it. -/
def cmdlineBytes (a : BootOutputs) : Bytes := Utf8.encode a.cmdline ++ [0]

/-- The bootconfig with the zero that closes it. -/
def bootconfigBytes (a : BootOutputs) : Bytes :=
  match a.bootconfig with
  | some b => Utf8.encode b ++ [0]
  | none => []

/-- The size of the bootconfig with the zero that closes it. -/
def bootconfigSize (a : BootOutputs) : Nat :=
  match a.bootconfig with
  | some b => b.utf8ByteSize + 1
  | none => 0

end BootOutputs

/-- Both outputs while they are written. -/
structure OutputWriter where
  budget : OutputBudget
  cmdline : String
  /-- The entries of the bootconfig. -/
  entries : List String
  /-- The size of the entries, each with its line break. -/
  entriesSize : Nat
deriving DecidableEq, Repr

namespace OutputWriter

def ofBudget (budget : OutputBudget) : OutputWriter := ⟨budget, "", [], 0⟩

/-- Adds a fragment to its output, if the budget holds it. -/
def write (w : OutputWriter) (f : Fragment) : Except AssemblyError OutputWriter :=
  match f.destination with
  | .cmdline =>
    let written := w.cmdline.utf8ByteSize + f.size
    if w.budget.cmdline < written then
      .error (.budgetExceeded .cmdline written w.budget.cmdline)
    else .ok { w with cmdline := w.cmdline ++ f.text }
  | .bootconfig =>
    let entry := bootconfigEntry f.text
    let written := w.entriesSize + entry.utf8ByteSize + 1
    if w.budget.bootconfig < written then
      .error (.budgetExceeded .bootconfig written w.budget.bootconfig)
    else .ok { w with entries := w.entries ++ [entry], entriesSize := written }

/-- The outputs. A bootconfig is a line break and then its entries, one to a line. -/
def finish (w : OutputWriter) : BootOutputs where
  cmdline := w.cmdline
  bootconfig :=
    if w.entries.isEmpty then none else some ("\n" ++ String.join (w.entries.map (· ++ "\n")))

end OutputWriter

end AndroidBoot
