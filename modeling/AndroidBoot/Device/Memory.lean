import AndroidBoot.DeviceTree.Property

/-!
# Memory offlining

A device may leave part of its memory unused. How much depends on its size: a table of thresholds,
in ascending order, gives the amount from each of them on. A device tree may bring a table of its
own.

    usableMemory = none  ↔  the memory is too small, or the table is empty
    otherwise the last entry whose threshold is reached gives the amount
-/

namespace AndroidBoot

structure OfflineMemory where
  /-- The size of the memory in bytes. -/
  ddrSize : UInt64
  /-- Devices with less memory than this use all of it. -/
  minDdrSize : UInt64
  /-- Thresholds, in ascending order, and the amounts that are left unused from them on. -/
  table : List (UInt64 × UInt64)
deriving DecidableEq, Repr

/-- The amount that the last reached threshold of a table gives. -/
def unusedAmount (ddrSize : UInt64) (table : List (UInt64 × UInt64)) : UInt64 :=
  match table.reverse.find? (fun entry => entry.1 ≤ ddrSize) with
  | some entry => entry.2
  | none => 0

/-- How much memory is used, where a limit applies. -/
def usableMemory (ddrSize minDdrSize : UInt64) (table : List (UInt64 × UInt64)) : Option Nat :=
  if ddrSize < minDdrSize ∨ table.isEmpty then none
  else some (ddrSize.toNat - (unusedAmount ddrSize table).toNat)

namespace DeviceTree

/-- The pairs of neighbouring cells; a last cell without a neighbour is passed over. -/
def cellPairs : List UInt64 → List (UInt64 × UInt64)
  | a :: b :: rest => (a, b) :: cellPairs rest
  | _ => []

/-- The table of thresholds and amounts in a blob, if it has one. -/
def offlineTable (data : Bytes) : Except DeviceTreeError (Option (List (UInt64 × UInt64))) := do
  let t ← DeviceTree.read data
  return (← t.lookup "/mem-offline" "offline-sizes").map fun value => cellPairs (cells value)

end DeviceTree

namespace OfflineMemory

def limit (m : OfflineMemory) : Option Nat := usableMemory m.ddrSize m.minDdrSize m.table

/-- The limit by the table of a device tree, where there is one that can be read. -/
def limitWith (m : OfflineMemory) (tree : Option Bytes) : Option Nat :=
  match tree.map DeviceTree.offlineTable with
  | some (.ok (some table)) => usableMemory m.ddrSize m.minDdrSize table
  | _ => m.limit

end OfflineMemory

end AndroidBoot
