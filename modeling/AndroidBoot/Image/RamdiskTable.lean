import AndroidBoot.Image.Vendor

/-!
# Vendor ramdisk tables

The ramdisk section of a version 4 vendor image is cut into ramdisks without gaps, in the order of
the table. A table is accepted only if its entries say exactly that.

    decode (t.encode ++ rest) h = .ok t      if `h` and the entries of `t` agree
-/

namespace AndroidBoot

inductive RamdiskType where
  | unspecified
  | platform
  | recovery
  | dlkm
deriving DecidableEq, Repr

namespace RamdiskType

def name : RamdiskType → String
  | unspecified => "none"
  | platform => "platform"
  | recovery => "recovery"
  | dlkm => "dlkm"

def code : RamdiskType → UInt32
  | unspecified => 0
  | platform => 1
  | recovery => 2
  | dlkm => 3

def all : List RamdiskType := [unspecified, platform, recovery, dlkm]

def ofCode (value : UInt32) : Except ImageError RamdiskType :=
  match all.find? (·.code == value) with
  | some t => .ok t
  | none => .error (.unknownRamdiskType value)

def ofName? (s : String) : Option RamdiskType := all.find? (·.name == s)

theorem ofName?_name (t : RamdiskType) : ofName? t.name = some t := by
  cases t <;> decide

theorem ofCode_code (t : RamdiskType) : ofCode t.code = .ok t := by
  cases t <;> rfl

end RamdiskType

structure RamdiskEntry where
  size : UInt32
  offset : UInt32
  type : RamdiskType
  name : Vector UInt8 32
  boardId : Vector UInt32 16
deriving DecidableEq, Repr

structure RamdiskTable where
  entries : List RamdiskEntry
deriving DecidableEq, Repr

namespace RamdiskEntry

/-- An entry with its type as a plain word. -/
structure Stored where
  size : UInt32
  offset : UInt32
  type : UInt32
  name : Vector UInt8 32
  boardId : Vector UInt32 16
deriving DecidableEq, Repr

open Codec in
def Stored.codec : Codec Stored :=
  (wordLE.pair <| wordLE.pair <| wordLE.pair <| (bytes 32).pair (wordLE.array 16)).map
    (fun (size, offset, type, name, boardId) => { size, offset, type, name, boardId })
    (fun e => (e.size, e.offset, e.type, e.name, e.boardId)) (fun _ => rfl) (fun _ => rfl)

def toStored (e : RamdiskEntry) : Stored := { e with type := e.type.code }

def ofStored (e : Stored) : Except ImageError RamdiskEntry := do
  return { e with type := ← RamdiskType.ofCode e.type }

def encode (e : RamdiskEntry) : Bytes := Stored.codec.encode e.toStored

end RamdiskEntry

namespace RamdiskTable

def encode (t : RamdiskTable) : Bytes := t.entries.flatMap RamdiskEntry.encode

def ofType (t : RamdiskTable) (type : RamdiskType) : List RamdiskEntry :=
  t.entries.filter (·.type == type)

/-- Reads `count` entries, the first of which has number `index` and starts at `offset` of the
ramdisk section. Also gives the offset after the last one. -/
def readEntries : Nat → Nat → UInt32 → Bytes → Except ImageError (List RamdiskEntry × UInt32)
  | 0, _, offset, _ => .ok ([], offset)
  | count + 1, index, offset, data => do
    let raw ← BootHeader.readPart RamdiskEntry.Stored.codec "Vendor::V4::table_entry" data
    if raw.offset ≠ offset then throw (.entryOffsetMismatch index raw.offset offset)
    let next := offset.toNat + raw.size.toNat
    if UInt32.size ≤ next then throw (.overflow "Vendor::V4::vendor_ramdisk_size")
    let entry ← RamdiskEntry.ofStored raw
    let (entries, stop) ← readEntries count (index + 1) (UInt32.ofNat next)
      (data.drop RamdiskEntry.Stored.codec.width)
    return (entry :: entries, stop)

/-- The table at the front of `data`, if it fits what the header says. -/
def decode (data : Bytes) : VendorHeader → Except ImageError RamdiskTable
  | .v3 _ => .error (.noRamdiskTable 3)
  | .v4 base v4 => do
    if v4.tableEntrySize.toNat ≠ VendorHeader.tableEntrySize then
      throw (.entrySizeUnsupported v4.tableEntrySize)
    let expected := v4.tableEntryCount.toNat * v4.tableEntrySize.toNat
    if UInt32.size ≤ expected then throw (.overflow "Vendor::V4::vendor_ramdisk_table_size")
    if v4.tableSize.toNat ≠ expected then
      throw (.tableSizeMismatch v4.tableSize (UInt32.ofNat expected))
    let (entries, total) ← readEntries v4.tableEntryCount.toNat 0 0 data
    if total ≠ base.vendorRamdiskSize then
      throw (.ramdiskSizeMismatch base.vendorRamdiskSize total)
    return ⟨entries⟩

end RamdiskTable

end AndroidBoot
