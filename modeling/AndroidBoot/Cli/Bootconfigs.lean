import AndroidBoot.Bootconfig.Trailer
import AndroidBoot.Cli.Failure
import AndroidBoot.Text.Utf8

/-!
# Commands on bootconfig regions

`append` adds parameters to a region in a file and `trailer` closes one; a file that is too small
grows. `check` verifies a trailer.
-/

namespace AndroidBoot.Cli

/-- A region in a file, and the file the result goes to: the same one, if no other is given. -/
structure RegionSpot where
  input : String
  output : Option String
  start : Nat
  size : Nat
deriving DecidableEq, Repr

inductive BootconfigCommand where
  | append (spot : RegionSpot) (params : List String)
  | trailer (spot : RegionSpot)
  | check (input : String) (stop : Option Nat)
deriving DecidableEq, Repr

/-- By how much a region grows at most, when a trailer is written behind `added` bytes. -/
def growth (added : Nat) : Nat := added + 3 + Bootconfig.trailerSize

variable {m : Type → Type} [Monad m] [Files m]

/-- The content of the file of a region, with room behind it for `added` bytes and a trailer, and
its size before. -/
def readSpot (spot : RegionSpot) (added : Nat) : Action m (Bytes × Nat) := do
  let data ← readFile ("Failed to read data: " ++ quoteText spot.input) spot.input
  let needed := spot.start + spot.size + growth added
  if UInt64.size ≤ needed then throw (Failure.ofMessage "Region bounds overflow")
  return (data ++ Bytes.zeros (needed - data.length), data.length)

/-- Changes a region and writes its file, which grows no further than the end of the region. -/
def changeSpot (spot : RegionSpot) (context : String) (added : Nat)
    (change : Bytes → Except BootconfigError Nat × Bytes) : Action m Unit := do
  let (data, size) ← readSpot spot added
  let (result, data) := change data
  let stop ← Action.ofExcept
    (fun e => (Failure.ofMessage e.message).within (context ++ quoteText spot.input)) result
  let output := spot.output.getD spot.input
  writeFile ("Failed to write data: " ++ quoteText output) output (data.take (max size stop))

/-- The parameters, one to a line. -/
def paramLines (params : List String) : Bytes := params.flatMap fun p => Utf8.encode p ++ [0x0A]

def append (spot : RegionSpot) (params : List String) : Action m Unit :=
  let lines := paramLines params
  changeSpot spot "Failed to append parameters: " lines.length
    (Bootconfig.addParams · spot.start spot.size lines)

def trailer (spot : RegionSpot) : Action m Unit :=
  changeSpot spot "Failed to write trailer: " 0 (Bootconfig.close · spot.start spot.size)

def check (input : String) (stop : Option Nat) : Action m Unit := do
  let data ← readFile ("Failed to read data: " ++ quoteText input) input
  let found ← Action.ofExcept
    (fun e => (Failure.ofMessage e.message).within
      ("Failed to verify trailer: " ++ quoteText input))
    (Bootconfig.verify data (stop.getD data.length))
  print (found.text ++ "\n")

def BootconfigCommand.run : BootconfigCommand → Action m Unit
  | append spot params => Cli.append spot params
  | trailer spot => Cli.trailer spot
  | check input stop => Cli.check input stop

end AndroidBoot.Cli
