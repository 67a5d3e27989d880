import AndroidBoot.Image.Boot

/-!
# Vendor boot image headers

A vendor boot image starts with a header of version 3 or 4; version 4 adds a table of ramdisks and
a bootconfig section. The version stands at offset 8.

    decode (h.encode ++ rest) = .ok h
    decode data = .ok h → h.encode = data.take h.headerSize
-/

namespace AndroidBoot

/-- The fields of a version 3 vendor header. -/
structure VendorFieldsV3 where
  pageSize : UInt32
  kernelAddr : UInt32
  ramdiskAddr : UInt32
  vendorRamdiskSize : UInt32
  cmdline : Vector UInt8 2048
  tagsAddr : UInt32
  name : Vector UInt8 16
  headerSize : UInt32
  dtbSize : UInt32
  dtbAddr : UInt64
deriving DecidableEq, Repr

/-- The fields that version 4 adds. -/
structure VendorFieldsV4 where
  tableSize : UInt32
  tableEntryCount : UInt32
  tableEntrySize : UInt32
  bootconfigSize : UInt32
deriving DecidableEq, Repr

inductive VendorHeader where
  | v3 (base : VendorFieldsV3)
  | v4 (base : VendorFieldsV3) (v4 : VendorFieldsV4)
deriving DecidableEq, Repr

open Codec in
def VendorFieldsV3.codec : Codec (Stamp × VendorFieldsV3) :=
  ((bytes 8).pair <| wordLE.pair <| wordLE.pair <| wordLE.pair <| wordLE.pair <| wordLE.pair <|
    (bytes 2048).pair <| wordLE.pair <| (bytes 16).pair <| wordLE.pair <| wordLE.pair longLE).map
    (fun (magic, version, pageSize, kernelAddr, ramdiskAddr, vendorRamdiskSize, cmdline, tagsAddr,
        name, headerSize, dtbSize, dtbAddr) =>
      (⟨magic, version⟩,
        { pageSize, kernelAddr, ramdiskAddr, vendorRamdiskSize, cmdline, tagsAddr, name, headerSize,
          dtbSize, dtbAddr }))
    (fun (stamp, h) => (stamp.magic, stamp.version, h.pageSize, h.kernelAddr, h.ramdiskAddr,
      h.vendorRamdiskSize, h.cmdline, h.tagsAddr, h.name, h.headerSize, h.dtbSize, h.dtbAddr))
    (fun _ => rfl) (fun _ => rfl)

open Codec in
def VendorFieldsV4.codec : Codec VendorFieldsV4 :=
  (wordLE.pair <| wordLE.pair <| wordLE.pair wordLE).map
    (fun (tableSize, tableEntryCount, tableEntrySize, bootconfigSize) =>
      { tableSize, tableEntryCount, tableEntrySize, bootconfigSize })
    (fun h => (h.tableSize, h.tableEntryCount, h.tableEntrySize, h.bootconfigSize))
    (fun _ => rfl) (fun _ => rfl)

namespace VendorHeader

/-- `VNDRBOOT`. -/
def magic : Vector UInt8 8 := #v[0x56, 0x4E, 0x44, 0x52, 0x42, 0x4F, 0x4F, 0x54]

/-- The front of a header of any version: the magic and the version. -/
def prefixCodec : Codec (Vector UInt8 8 × UInt32) := (Codec.bytes 8).pair Codec.wordLE

def codecV3 : Codec (Stamp × VendorFieldsV3) := VendorFieldsV3.codec

def codecV4 : Codec ((Stamp × VendorFieldsV3) × VendorFieldsV4) := codecV3.pair VendorFieldsV4.codec

def version : VendorHeader → Nat
  | v3 .. => 3
  | v4 .. => 4

/-- The size of a header, without the zeros that fill its last page. -/
def headerSize : VendorHeader → Nat
  | v3 .. => codecV3.width
  | v4 .. => codecV4.width

def encode : VendorHeader → Bytes
  | v3 base => codecV3.encode (⟨magic, 3⟩, base)
  | v4 base e4 => codecV4.encode ((⟨magic, 4⟩, base), e4)

/-- The header at the front of an image. -/
def decode (data : Bytes) : Except ImageError VendorHeader := do
  let (magic', version) ← BootHeader.readPart prefixCodec "Vendor::prefix" data
  if magic' ≠ magic then throw (.unknownMagic magic')
  match version.toNat with
  | 3 =>
    let (_, base) ← BootHeader.readPart codecV3 "Vendor::V3::header" data
    return .v3 base
  | 4 =>
    let ((_, base), e4) ← BootHeader.readPart codecV4 "Vendor::V4::header" data
    return .v4 base e4
  | _ => throw (.unknownHeaderVersion version)

def base : VendorHeader → VendorFieldsV3
  | v3 base | v4 base _ => base

def pageSize (h : VendorHeader) : UInt32 := h.base.pageSize

def cmdline (h : VendorHeader) : Bytes := Bytes.trimZeros h.base.cmdline.toList

def bootconfigSize? : VendorHeader → Option UInt32
  | v3 _ => none
  | v4 _ e4 => some e4.bootconfigSize

/-! ## Regions -/

/-- The size of an entry of the ramdisk table. -/
def tableEntrySize : Nat := 108

/-- The regions a header can describe, in their order in the image, with their sizes. -/
def regionSizes : VendorHeader → List (RegionKind × UInt32)
  | v3 base => [(.vendorRamdisk, base.vendorRamdiskSize), (.dtb, base.dtbSize)]
  | v4 base e4 =>
    [(.vendorRamdisk, base.vendorRamdiskSize), (.dtb, base.dtbSize),
      (.vendorRamdiskTable, e4.tableSize), (.bootconfig, e4.bootconfigSize)]

def regionKinds (h : VendorHeader) : List RegionKind := h.regionSizes.map (·.1)

end VendorHeader

/-- Changes the size of a region of a version 3 vendor header. -/
def VendorFieldsV3.withSize? (base : VendorFieldsV3) (kind : RegionKind) (size : UInt32) :
    Option VendorFieldsV3 :=
  match kind with
  | .vendorRamdisk => some { base with vendorRamdiskSize := size }
  | .dtb => some { base with dtbSize := size }
  | _ => none

/-- Changes the size of a region that version 4 adds. A table of another size holds entries of the
standard size. -/
def VendorFieldsV4.withSize? (v4 : VendorFieldsV4) (kind : RegionKind) (size : UInt32) :
    Option VendorFieldsV4 :=
  match kind with
  | .vendorRamdiskTable => some { v4 with
      tableSize := size
      tableEntrySize := UInt32.ofNat VendorHeader.tableEntrySize
      tableEntryCount := size / UInt32.ofNat VendorHeader.tableEntrySize }
  | .bootconfig => some { v4 with bootconfigSize := size }
  | _ => none

namespace VendorHeader

/-- The header with another size for a region, if its version has that region. -/
def resized? (h : VendorHeader) (kind : RegionKind) (size : UInt32) : Option VendorHeader :=
  match h with
  | v3 base => (base.withSize? kind size).map v3
  | v4 base e4 =>
    match base.withSize? kind size with
    | some base' => some (v4 base' e4)
    | none => (e4.withSize? kind size).map (v4 base ·)

def resizeRegion (h : VendorHeader) (kind : RegionKind) (size : UInt32) :
    Except ImageError VendorHeader :=
  match h.resized? kind size with
  | some h' => .ok h'
  | none => .error (.noRegion kind h.version)

/-- Where the non-empty regions lie. -/
def layout (h : VendorHeader) : Except ImageError (List Region) :=
  Layout.compute h.headerSize h.pageSize h.regionSizes

end VendorHeader

end AndroidBoot
