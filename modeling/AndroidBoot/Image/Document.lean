import AndroidBoot.Image.Header
import AndroidBoot.Image.RamdiskTable
import AndroidBoot.Toml.Document
import AndroidBoot.Toml.Reader
import AndroidBoot.Toml.Shape

/-!
# Images as documents

A header is a document with its type and a section for the fields of every version it builds on. A
ramdisk table is a document with a section for every entry. Sizes and addresses are numbers, byte
fields are escaped text.

    h.toDocument.write = none  ↔  a 64-bit field of h is 2 ^ 63 or more
    h.toDocument.write = some s → ofDocument? s = some h
-/

namespace AndroidBoot

open Toml

/-! ## Fields of boot headers -/

open Shape in
def BootFieldsV0.fields : Fields BootFieldsV0 :=
  (Fields.cons "kernel_size" word <| .cons "kernel_addr" word <| .cons "ramdisk_size" word <|
    .cons "ramdisk_addr" word <| .cons "second_size" word <| .cons "second_addr" word <|
    .cons "tags_addr" word <| .cons "page_size" word <| .cons "os_version" word <|
    .cons "name" (escaped 16) <| .cons "cmdline" (escaped 512) <|
    .cons "id" (word.vector true 8) <| .one "extra_cmdline" (escaped 1024)).map
    (fun (kernelSize, kernelAddr, ramdiskSize, ramdiskAddr, secondSize, secondAddr, tagsAddr,
        pageSize, osVersion, name, cmdline, id, extraCmdline) =>
      { kernelSize, kernelAddr, ramdiskSize, ramdiskAddr, secondSize, secondAddr, tagsAddr,
        pageSize, osVersion, name, cmdline, id, extraCmdline })
    (fun h => (h.kernelSize, h.kernelAddr, h.ramdiskSize, h.ramdiskAddr, h.secondSize,
      h.secondAddr, h.tagsAddr, h.pageSize, h.osVersion, h.name, h.cmdline, h.id, h.extraCmdline))

open Shape in
def BootFieldsV1.fields : Fields BootFieldsV1 :=
  (Fields.cons "recovery_dtbo_size" word <| .cons "recovery_dtbo_offset" long <|
    .one "header_size" word).map
    (fun (recoveryDtboSize, recoveryDtboOffset, headerSize) =>
      { recoveryDtboSize, recoveryDtboOffset, headerSize })
    (fun h => (h.recoveryDtboSize, h.recoveryDtboOffset, h.headerSize))

open Shape in
def BootFieldsV2.fields : Fields BootFieldsV2 :=
  (Fields.cons "dtb_size" word <| .one "dtb_addr" long).map
    (fun (dtbSize, dtbAddr) => { dtbSize, dtbAddr }) (fun h => (h.dtbSize, h.dtbAddr))

open Shape in
def BootFieldsV3.fields : Fields BootFieldsV3 :=
  (Fields.cons "kernel_size" word <| .cons "ramdisk_size" word <| .cons "os_version" word <|
    .cons "header_size" word <| .cons "reserved" (word.vector true 4) <|
    .one "cmdline" (escaped 1536)).map
    (fun (kernelSize, ramdiskSize, osVersion, headerSize, reserved, cmdline) =>
      { kernelSize, ramdiskSize, osVersion, headerSize, reserved, cmdline })
    (fun h => (h.kernelSize, h.ramdiskSize, h.osVersion, h.headerSize, h.reserved, h.cmdline))

def BootFieldsV4.fields : Fields BootFieldsV4 :=
  (Fields.one "signature_size" Shape.word).map (⟨·⟩) (·.signatureSize)

/-! ## Fields of vendor headers -/

open Shape in
def VendorFieldsV3.fields : Fields VendorFieldsV3 :=
  (Fields.cons "page_size" word <| .cons "kernel_addr" word <| .cons "ramdisk_addr" word <|
    .cons "vendor_ramdisk_size" word <| .cons "cmdline" (escaped 2048) <|
    .cons "tags_addr" word <| .cons "name" (escaped 16) <| .cons "header_size" word <|
    .cons "dtb_size" word <| .one "dtb_addr" long).map
    (fun (pageSize, kernelAddr, ramdiskAddr, vendorRamdiskSize, cmdline, tagsAddr, name, headerSize,
        dtbSize, dtbAddr) =>
      { pageSize, kernelAddr, ramdiskAddr, vendorRamdiskSize, cmdline, tagsAddr, name, headerSize,
        dtbSize, dtbAddr })
    (fun h => (h.pageSize, h.kernelAddr, h.ramdiskAddr, h.vendorRamdiskSize, h.cmdline, h.tagsAddr,
      h.name, h.headerSize, h.dtbSize, h.dtbAddr))

open Shape in
def VendorFieldsV4.fields : Fields VendorFieldsV4 :=
  (Fields.cons "vendor_ramdisk_table_size" word <|
    .cons "vendor_ramdisk_table_entry_num" word <|
    .cons "vendor_ramdisk_table_entry_size" word <| .one "bootconfig_size" word).map
    (fun (tableSize, tableEntryCount, tableEntrySize, bootconfigSize) =>
      { tableSize, tableEntryCount, tableEntrySize, bootconfigSize })
    (fun h => (h.tableSize, h.tableEntryCount, h.tableEntrySize, h.bootconfigSize))

/-! ## Headers -/

namespace ImageHeader

/-- The type of a header as its document names it. -/
def typeName : ImageHeader → String
  | boot (.v0 ..) => "V0"
  | boot (.v1 ..) => "V1"
  | boot (.v2 ..) => "V2"
  | boot (.v3 ..) => "V3"
  | boot (.v4 ..) => "V4"
  | vendor (.v3 ..) => "VendorV3"
  | vendor (.v4 ..) => "VendorV4"

/-- The sections of a header, by name. -/
def sections : ImageHeader → List (String × Toml.Table)
  | boot (.v0 base) => [("base", BootFieldsV0.fields.entries base)]
  | boot (.v1 base e1) =>
    [("base", BootFieldsV0.fields.entries base), ("v1", BootFieldsV1.fields.entries e1)]
  | boot (.v2 base e1 e2) =>
    [("base", BootFieldsV0.fields.entries base), ("v1", BootFieldsV1.fields.entries e1),
      ("v2", BootFieldsV2.fields.entries e2)]
  | boot (.v3 base) => [("base", BootFieldsV3.fields.entries base)]
  | boot (.v4 base e4) =>
    [("base", BootFieldsV3.fields.entries base), ("v4", BootFieldsV4.fields.entries e4)]
  | vendor (.v3 base) => [("base", VendorFieldsV3.fields.entries base)]
  | vendor (.v4 base e4) =>
    [("base", VendorFieldsV3.fields.entries base), ("v4", VendorFieldsV4.fields.entries e4)]

def toDocument (h : ImageHeader) : Toml.Document where
  fields := [("type", .string h.typeName)]
  sections := h.sections.map fun (name, entries) => ⟨name, false, entries⟩

/-- The record in the section `name` of a document. -/
def section? {α : Type} (t : Toml.Table) (name : String) (fs : Fields α) : Option α := do
  fs.ofValue? true (← t.lookup name)

/-- The header that a table describes; what it holds besides is passed over. -/
def ofTable? (t : Toml.Table) : Option ImageHeader := do
  let type ← Shape.text.ofValue? (← t.lookup "type")
  let base {α : Type} (fs : Fields α) : Option α := section? t "base" fs
  match type with
  | "V0" => return boot (.v0 (← base BootFieldsV0.fields))
  | "V1" => return boot (.v1 (← base BootFieldsV0.fields) (← section? t "v1" BootFieldsV1.fields))
  | "V2" =>
    return boot (.v2 (← base BootFieldsV0.fields) (← section? t "v1" BootFieldsV1.fields)
      (← section? t "v2" BootFieldsV2.fields))
  | "V3" => return boot (.v3 (← base BootFieldsV3.fields))
  | "V4" => return boot (.v4 (← base BootFieldsV3.fields) (← section? t "v4" BootFieldsV4.fields))
  | "VendorV3" => return vendor (.v3 (← base VendorFieldsV3.fields))
  | "VendorV4" =>
    return vendor (.v4 (← base VendorFieldsV3.fields) (← section? t "v4" VendorFieldsV4.fields))
  | _ => none

/-- The header that a written document describes. -/
def ofDocument? (text : String) : Option ImageHeader := Toml.readTable? text >>= ofTable?

end ImageHeader

/-! ## Ramdisk tables -/

/-- A type by its name, or by its name as the only key of a table with nothing in it. -/
def RamdiskType.shape : Shape RamdiskType where
  toValue t := .string t.name
  ofValue?
    | .string s => ofName? s
    | .table [(s, .table [])] | .table [(s, .array [])] => ofName? s
    | _ => none

open Shape in
def RamdiskEntry.fields : Fields RamdiskEntry :=
  (Fields.cons "ramdisk_size" word <| .cons "ramdisk_offset" word <|
    .cons "ramdisk_type" RamdiskType.shape <| .cons "ramdisk_name" (escaped 32) <|
    .one "board_id" (word.vector false 16)).map
    (fun (size, offset, type, name, boardId) => { size, offset, type, name, boardId })
    (fun e => (e.size, e.offset, e.type, e.name, e.boardId))

namespace RamdiskTable

def toDocument (t : RamdiskTable) : Toml.Document where
  fields := if t.entries.isEmpty then [("entries", .array [])] else []
  sections := t.entries.map fun e => ⟨"entries", true, RamdiskEntry.fields.entries e⟩

/-- The ramdisk table that a table describes. -/
def ofTable? (t : Toml.Table) : Option RamdiskTable := do
  match ← t.lookup "entries" with
  | .array vs => return ⟨← vs.mapM (RamdiskEntry.fields.ofValue? false)⟩
  | _ => none

/-- The ramdisk table that a written document describes. -/
def ofDocument? (text : String) : Option RamdiskTable := Toml.readTable? text >>= ofTable?

end RamdiskTable

end AndroidBoot
