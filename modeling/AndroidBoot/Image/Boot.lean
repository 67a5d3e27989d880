import AndroidBoot.Bytes.Codec
import AndroidBoot.Image.Layout
import AndroidBoot.Image.OsVersion

/-!
# Boot image headers

A boot image starts with a header of version 0 to 4. Versions 1 and 2 add fields to version 0,
version 4 adds one to version 3. All integers are little-endian and the version stands at offset
40 in every header.

    decode (h.encode ++ rest) = .ok h
    decode data = .ok h → h.encode = data.take h.headerSize
-/

namespace AndroidBoot

/-- The magic and the version, by which a header is told from others. -/
structure Stamp where
  magic : Vector UInt8 8
  version : UInt32
deriving DecidableEq, Repr

/-- The fields of a version 0 header. -/
structure BootFieldsV0 where
  kernelSize : UInt32
  kernelAddr : UInt32
  ramdiskSize : UInt32
  ramdiskAddr : UInt32
  secondSize : UInt32
  secondAddr : UInt32
  tagsAddr : UInt32
  pageSize : UInt32
  osVersion : UInt32
  name : Vector UInt8 16
  cmdline : Vector UInt8 512
  id : Vector UInt32 8
  extraCmdline : Vector UInt8 1024
deriving DecidableEq, Repr

/-- The fields that version 1 adds. -/
structure BootFieldsV1 where
  recoveryDtboSize : UInt32
  recoveryDtboOffset : UInt64
  headerSize : UInt32
deriving DecidableEq, Repr

/-- The fields that version 2 adds. -/
structure BootFieldsV2 where
  dtbSize : UInt32
  dtbAddr : UInt64
deriving DecidableEq, Repr

/-- The fields of a version 3 header. -/
structure BootFieldsV3 where
  kernelSize : UInt32
  ramdiskSize : UInt32
  osVersion : UInt32
  headerSize : UInt32
  reserved : Vector UInt32 4
  cmdline : Vector UInt8 1536
deriving DecidableEq, Repr

/-- The field that version 4 adds. -/
structure BootFieldsV4 where
  signatureSize : UInt32
deriving DecidableEq, Repr

inductive BootHeader where
  | v0 (base : BootFieldsV0)
  | v1 (base : BootFieldsV0) (v1 : BootFieldsV1)
  | v2 (base : BootFieldsV0) (v1 : BootFieldsV1) (v2 : BootFieldsV2)
  | v3 (base : BootFieldsV3)
  | v4 (base : BootFieldsV3) (v4 : BootFieldsV4)
deriving DecidableEq, Repr

/-! ## Layouts of the fields -/

open Codec in
def BootFieldsV0.codec : Codec (Stamp × BootFieldsV0) :=
  ((bytes 8).pair <| wordLE.pair <| wordLE.pair <| wordLE.pair <| wordLE.pair <| wordLE.pair <|
    wordLE.pair <| wordLE.pair <| wordLE.pair <| wordLE.pair <| wordLE.pair <| (bytes 16).pair <|
    (bytes 512).pair <| (wordLE.array 8).pair (bytes 1024)).map
    (fun (magic, kernelSize, kernelAddr, ramdiskSize, ramdiskAddr, secondSize, secondAddr, tagsAddr,
        pageSize, version, osVersion, name, cmdline, id, extraCmdline) =>
      (⟨magic, version⟩,
        { kernelSize, kernelAddr, ramdiskSize, ramdiskAddr, secondSize, secondAddr, tagsAddr,
          pageSize, osVersion, name, cmdline, id, extraCmdline }))
    (fun (stamp, h) => (stamp.magic, h.kernelSize, h.kernelAddr, h.ramdiskSize, h.ramdiskAddr,
      h.secondSize, h.secondAddr, h.tagsAddr, h.pageSize, stamp.version, h.osVersion, h.name,
      h.cmdline, h.id, h.extraCmdline))
    (fun _ => rfl) (fun _ => rfl)

open Codec in
def BootFieldsV1.codec : Codec BootFieldsV1 :=
  (wordLE.pair <| longLE.pair wordLE).map
    (fun (recoveryDtboSize, recoveryDtboOffset, headerSize) =>
      { recoveryDtboSize, recoveryDtboOffset, headerSize })
    (fun h => (h.recoveryDtboSize, h.recoveryDtboOffset, h.headerSize))
    (fun _ => rfl) (fun _ => rfl)

open Codec in
def BootFieldsV2.codec : Codec BootFieldsV2 :=
  (wordLE.pair longLE).map (fun (dtbSize, dtbAddr) => { dtbSize, dtbAddr })
    (fun h => (h.dtbSize, h.dtbAddr)) (fun _ => rfl) (fun _ => rfl)

open Codec in
def BootFieldsV3.codec : Codec (Stamp × BootFieldsV3) :=
  ((bytes 8).pair <| wordLE.pair <| wordLE.pair <| wordLE.pair <| wordLE.pair <|
    (wordLE.array 4).pair <| wordLE.pair (bytes 1536)).map
    (fun (magic, kernelSize, ramdiskSize, osVersion, headerSize, reserved, version, cmdline) =>
      (⟨magic, version⟩, { kernelSize, ramdiskSize, osVersion, headerSize, reserved, cmdline }))
    (fun (stamp, h) => (stamp.magic, h.kernelSize, h.ramdiskSize, h.osVersion, h.headerSize,
      h.reserved, stamp.version, h.cmdline))
    (fun _ => rfl) (fun _ => rfl)

open Codec in
def BootFieldsV4.codec : Codec BootFieldsV4 :=
  wordLE.map (⟨·⟩) (·.signatureSize) (fun _ => rfl) (fun _ => rfl)

namespace BootHeader

/-- `ANDROID!`. -/
def magic : Vector UInt8 8 := #v[0x41, 0x4E, 0x44, 0x52, 0x4F, 0x49, 0x44, 0x21]

/-- The front of a header of any version: the magic, 32 bytes of it, and the version. -/
def prefixCodec : Codec (Vector UInt8 8 × Vector UInt8 32 × UInt32) :=
  (Codec.bytes 8).pair <| (Codec.bytes 32).pair Codec.wordLE

def codecV0 : Codec (Stamp × BootFieldsV0) := BootFieldsV0.codec

def codecV1 : Codec ((Stamp × BootFieldsV0) × BootFieldsV1) := codecV0.pair BootFieldsV1.codec

def codecV2 : Codec (((Stamp × BootFieldsV0) × BootFieldsV1) × BootFieldsV2) :=
  codecV1.pair BootFieldsV2.codec

def codecV3 : Codec (Stamp × BootFieldsV3) := BootFieldsV3.codec

def codecV4 : Codec ((Stamp × BootFieldsV3) × BootFieldsV4) := codecV3.pair BootFieldsV4.codec

def version : BootHeader → Nat
  | v0 .. => 0
  | v1 .. => 1
  | v2 .. => 2
  | v3 .. => 3
  | v4 .. => 4

/-- The size of a header, without the zeros that fill its last page. -/
def headerSize : BootHeader → Nat
  | v0 .. => codecV0.width
  | v1 .. => codecV1.width
  | v2 .. => codecV2.width
  | v3 .. => codecV3.width
  | v4 .. => codecV4.width

def encode : BootHeader → Bytes
  | v0 base => codecV0.encode (⟨magic, 0⟩, base)
  | v1 base e1 => codecV1.encode ((⟨magic, 1⟩, base), e1)
  | v2 base e1 e2 => codecV2.encode (((⟨magic, 2⟩, base), e1), e2)
  | v3 base => codecV3.encode (⟨magic, 3⟩, base)
  | v4 base e4 => codecV4.encode ((⟨magic, 4⟩, base), e4)

/-- The record at the front of `data`; an error naming `part` if `data` is too short. -/
def readPart {α : Type} (c : Codec α) (part : String) (data : Bytes) : Except ImageError α :=
  match c.decode? data with
  | some a => .ok a
  | none => .error (.read part .unexpectedEof)

/-- The header at the front of an image. -/
def decode (data : Bytes) : Except ImageError BootHeader := do
  let (magic', _, version) ← readPart prefixCodec "Boot::prefix" data
  if magic' ≠ magic then throw (.unknownMagic magic')
  match version.toNat with
  | 0 =>
    let (_, base) ← readPart codecV0 "Boot::V0::header" data
    return .v0 base
  | 1 =>
    let ((_, base), e1) ← readPart codecV1 "Boot::V1::header" data
    return .v1 base e1
  | 2 =>
    let (((_, base), e1), e2) ← readPart codecV2 "Boot::V2::header" data
    return .v2 base e1 e2
  | 3 =>
    let (_, base) ← readPart codecV3 "Boot::V3::header" data
    return .v3 base
  | 4 =>
    let ((_, base), e4) ← readPart codecV4 "Boot::V4::header" data
    return .v4 base e4
  | _ => throw (.unknownHeaderVersion version)

/-! ## What a header says -/

/-- The page size; fixed from version 3 on. -/
def pageSize : BootHeader → UInt32
  | v0 base | v1 base _ | v2 base _ _ => base.pageSize
  | v3 _ | v4 _ _ => 4096

def kernelSize : BootHeader → UInt32
  | v0 base | v1 base _ | v2 base _ _ => base.kernelSize
  | v3 base | v4 base _ => base.kernelSize

def ramdiskSize : BootHeader → UInt32
  | v0 base | v1 base _ | v2 base _ _ => base.ramdiskSize
  | v3 base | v4 base _ => base.ramdiskSize

def osVersion : BootHeader → OsVersion
  | v0 base | v1 base _ | v2 base _ _ => .ofWord base.osVersion
  | v3 base | v4 base _ => .ofWord base.osVersion

/-- The kernel command line. Up to version 2 a second field continues it. -/
def cmdline : BootHeader → Bytes
  | v0 base | v1 base _ | v2 base _ _ =>
    Bytes.trimZeros base.cmdline.toList ++ Bytes.trimZeros base.extraCmdline.toList
  | v3 base | v4 base _ => Bytes.trimZeros base.cmdline.toList

/-! ## Regions -/

/-- The regions a header can describe, in their order in the image, with their sizes. -/
def regionSizes : BootHeader → List (RegionKind × UInt32)
  | v0 base =>
    [(.kernel, base.kernelSize), (.ramdisk, base.ramdiskSize), (.second, base.secondSize)]
  | v1 base e1 =>
    [(.kernel, base.kernelSize), (.ramdisk, base.ramdiskSize), (.second, base.secondSize),
      (.recoveryDtbo, e1.recoveryDtboSize)]
  | v2 base e1 e2 =>
    [(.kernel, base.kernelSize), (.ramdisk, base.ramdiskSize), (.second, base.secondSize),
      (.recoveryDtbo, e1.recoveryDtboSize), (.dtb, e2.dtbSize)]
  | v3 base => [(.kernel, base.kernelSize), (.ramdisk, base.ramdiskSize)]
  | v4 base e4 =>
    [(.kernel, base.kernelSize), (.ramdisk, base.ramdiskSize), (.signature, e4.signatureSize)]

def regionKinds (h : BootHeader) : List RegionKind := h.regionSizes.map (·.1)

end BootHeader

/-- Changes the size of a region of a version 0 header. -/
def BootFieldsV0.withSize? (base : BootFieldsV0) (kind : RegionKind) (size : UInt32) :
    Option BootFieldsV0 :=
  match kind with
  | .kernel => some { base with kernelSize := size }
  | .ramdisk => some { base with ramdiskSize := size }
  | .second => some { base with secondSize := size }
  | _ => none

/-- Changes the size of a region of a version 3 header. -/
def BootFieldsV3.withSize? (base : BootFieldsV3) (kind : RegionKind) (size : UInt32) :
    Option BootFieldsV3 :=
  match kind with
  | .kernel => some { base with kernelSize := size }
  | .ramdisk => some { base with ramdiskSize := size }
  | _ => none

namespace BootHeader

/-- The header with another size for a region, if its version has that region. -/
def resized? (h : BootHeader) (kind : RegionKind) (size : UInt32) : Option BootHeader :=
  match h with
  | v0 base => (base.withSize? kind size).map v0
  | v1 base e1 =>
    if kind = .recoveryDtbo then some (v1 base { e1 with recoveryDtboSize := size })
    else (base.withSize? kind size).map (v1 · e1)
  | v2 base e1 e2 =>
    if kind = .recoveryDtbo then some (v2 base { e1 with recoveryDtboSize := size } e2)
    else if kind = .dtb then some (v2 base e1 { e2 with dtbSize := size })
    else (base.withSize? kind size).map (v2 · e1 e2)
  | v3 base => (base.withSize? kind size).map v3
  | v4 base e4 =>
    if kind = .signature then some (v4 base { e4 with signatureSize := size })
    else (base.withSize? kind size).map (v4 · e4)

def resizeRegion (h : BootHeader) (kind : RegionKind) (size : UInt32) :
    Except ImageError BootHeader :=
  match h.resized? kind size with
  | some h' => .ok h'
  | none => .error (.noRegion kind h.version)

/-- Where the non-empty regions lie. -/
def layout (h : BootHeader) : Except ImageError (List Region) :=
  Layout.compute h.headerSize h.pageSize h.regionSizes

/-- The offset of the region of a kind, or 0 if it is empty. -/
def regionOffset (regions : List Region) (kind : RegionKind) : Nat :=
  match regions.find? (·.kind == kind) with
  | some r => r.offset
  | none => 0

/-- The header with the offsets that follow from its region sizes. -/
def withOffsets (h : BootHeader) : Except ImageError BootHeader := do
  let offset := UInt64.ofNat (regionOffset (← h.layout) .recoveryDtbo)
  return match h with
    | v1 base e1 => v1 base { e1 with recoveryDtboOffset := offset }
    | v2 base e1 e2 => v2 base { e1 with recoveryDtboOffset := offset } e2
    | h => h

end BootHeader

end AndroidBoot
