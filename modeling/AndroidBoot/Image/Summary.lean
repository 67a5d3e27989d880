import AndroidBoot.Image.Header
import AndroidBoot.Text.Dump

/-!
# Headers for people

`summary` lists the fields of a header, one to a line; `dump` is the indented tree of all of them.
Neither ends with a line break.
-/

namespace AndroidBoot

/-- Words in brackets with commas between them. -/
def wordList {n : Nat} (words : Vector UInt32 n) : String :=
  "[" ++ ", ".intercalate (words.toList.map fun w => toString w.toNat) ++ "]"

/-- A field of bytes between quotes, without the zeros at its end. -/
def quoteField {n : Nat} (v : Vector UInt8 n) : String := quoteBytes (Bytes.trimZeros v.toList)

def joinLines (lines : List String) : String := "\n".intercalate lines

namespace BootHeader

def summaryV0 (h : BootFieldsV0) : List String :=
  ["- Kernel size:          " ++ toString h.kernelSize.toNat,
    "- Kernel address:       " ++ hex h.kernelAddr.toNat,
    "- Ramdisk size:         " ++ toString h.ramdiskSize.toNat,
    "- Ramdisk address:      " ++ hex h.ramdiskAddr.toNat,
    "- Second stage size:    " ++ toString h.secondSize.toNat,
    "- Second stage address: " ++ hex h.secondAddr.toNat,
    "- Kernel tags address:  " ++ hex h.tagsAddr.toNat,
    "- Page size:            " ++ toString h.pageSize.toNat,
    "- OS version:           " ++ (OsVersion.ofWord h.osVersion).text,
    "- Name:                 " ++ quoteField h.name,
    "- Kernel cmdline:       " ++ quoteField h.cmdline,
    "- ID:                   " ++ wordList h.id,
    "- Extra kernel cmdline: " ++ quoteField h.extraCmdline]

def summaryV1 (h : BootFieldsV1) : List String :=
  ["- Recovery dtbo size:   " ++ toString h.recoveryDtboSize.toNat,
    "- Recovery dtbo offset: " ++ toString h.recoveryDtboOffset.toNat,
    "- Header size:          " ++ toString h.headerSize.toNat]

def summaryV2 (h : BootFieldsV2) : List String :=
  ["- Device tree size:     " ++ toString h.dtbSize.toNat,
    "- Device tree address:  " ++ hex h.dtbAddr.toNat]

def summaryV3 (h : BootFieldsV3) : List String :=
  ["- Kernel size:          " ++ toString h.kernelSize.toNat,
    "- Ramdisk size:         " ++ toString h.ramdiskSize.toNat,
    "- OS version:           " ++ (OsVersion.ofWord h.osVersion).text,
    "- Header size:          " ++ toString h.headerSize.toNat,
    "- Reserved:             " ++ wordList h.reserved,
    "- Kernel cmdline:       " ++ quoteField h.cmdline]

def summaryV4 (h : BootFieldsV4) : List String :=
  ["- Signature size:       " ++ toString h.signatureSize.toNat]

def summary (h : BootHeader) : String :=
  joinLines <| ("Boot image v" ++ toString h.version ++ " header:") :: match h with
    | v0 base => summaryV0 base
    | v1 base e1 => summaryV0 base ++ summaryV1 e1
    | v2 base e1 e2 => summaryV0 base ++ summaryV1 e1 ++ summaryV2 e2
    | v3 base => summaryV3 base
    | v4 base e4 => summaryV3 base ++ summaryV4 e4

end BootHeader

namespace VendorHeader

def summaryV3 (h : VendorFieldsV3) : List String :=
  ["- Page size:                  " ++ toString h.pageSize.toNat,
    "- Kernel address:             " ++ hex h.kernelAddr.toNat,
    "- Ramdisk address:            " ++ hex h.ramdiskAddr.toNat,
    "- Vendor ramdisk size:        " ++ toString h.vendorRamdiskSize.toNat,
    "- Vendor cmdline:             " ++ quoteField h.cmdline,
    "- Kernel tags address:        " ++ hex h.tagsAddr.toNat,
    "- Name:                       " ++ quoteField h.name,
    "- Header size:                " ++ toString h.headerSize.toNat,
    "- Device tree size:           " ++ toString h.dtbSize.toNat,
    "- Device tree address:        " ++ hex h.dtbAddr.toNat]

def summaryV4 (h : VendorFieldsV4) : List String :=
  ["- Ramdisk table size:         " ++ toString h.tableSize.toNat,
    "- Ramdisk table entries:      " ++ toString h.tableEntryCount.toNat,
    "- Ramdisk table entry size:   " ++ toString h.tableEntrySize.toNat,
    "- Bootconfig size:            " ++ toString h.bootconfigSize.toNat]

def summary (h : VendorHeader) : String :=
  joinLines <| ("Vendor boot image v" ++ toString h.version ++ " header:") :: match h with
    | v3 base => summaryV3 base
    | v4 base e4 => summaryV3 base ++ summaryV4 e4

end VendorHeader

def ImageHeader.summary : ImageHeader → String
  | boot h => h.summary
  | vendor h => h.summary

/-! ## Dumps -/

namespace Dump

def word (w : UInt32) : Dump := text (toString w.toNat)

def long (w : UInt64) : Dump := text (toString w.toNat)

def byteItems {n : Nat} (v : Vector UInt8 n) : Dump :=
  list (v.toList.map fun b => text (toString b.toNat))

def wordItems {n : Nat} (v : Vector UInt32 n) : Dump := list (v.toList.map word)

end Dump

namespace BootHeader

open Dump

def dumpV0 (h : BootFieldsV0) : String × Dump :=
  ("base", .record "BootHeaderV0" [("kernel_size", word h.kernelSize),
    ("kernel_addr", word h.kernelAddr), ("ramdisk_size", word h.ramdiskSize),
    ("ramdisk_addr", word h.ramdiskAddr), ("second_size", word h.secondSize),
    ("second_addr", word h.secondAddr), ("tags_addr", word h.tagsAddr),
    ("page_size", word h.pageSize), ("os_version", word h.osVersion), ("name", byteItems h.name),
    ("cmdline", byteItems h.cmdline), ("id", wordItems h.id),
    ("extra_cmdline", byteItems h.extraCmdline)])

def dumpV1 (h : BootFieldsV1) : String × Dump :=
  ("v1", .record "BootV1Extra" [("recovery_dtbo_size", word h.recoveryDtboSize),
    ("recovery_dtbo_offset", long h.recoveryDtboOffset), ("header_size", word h.headerSize)])

def dumpV2 (h : BootFieldsV2) : String × Dump :=
  ("v2", .record "BootV2Extra" [("dtb_size", word h.dtbSize), ("dtb_addr", long h.dtbAddr)])

def dumpV3 (h : BootFieldsV3) : String × Dump :=
  ("base", .record "BootHeaderV3" [("kernel_size", word h.kernelSize),
    ("ramdisk_size", word h.ramdiskSize), ("os_version", word h.osVersion),
    ("header_size", word h.headerSize), ("reserved", wordItems h.reserved),
    ("cmdline", byteItems h.cmdline)])

def dumpV4 (h : BootFieldsV4) : String × Dump :=
  ("v4", .record "BootV4Extra" [("signature_size", word h.signatureSize)])

def dump : BootHeader → Dump
  | v0 base => .record "V0" [dumpV0 base]
  | v1 base e1 => .record "V1" [dumpV0 base, dumpV1 e1]
  | v2 base e1 e2 => .record "V2" [dumpV0 base, dumpV1 e1, dumpV2 e2]
  | v3 base => .record "V3" [dumpV3 base]
  | v4 base e4 => .record "V4" [dumpV3 base, dumpV4 e4]

end BootHeader

namespace VendorHeader

open Dump

def dumpV3 (h : VendorFieldsV3) : String × Dump :=
  ("base", .record "VendorHeaderV3" [("page_size", word h.pageSize),
    ("kernel_addr", word h.kernelAddr), ("ramdisk_addr", word h.ramdiskAddr),
    ("vendor_ramdisk_size", word h.vendorRamdiskSize), ("cmdline", byteItems h.cmdline),
    ("tags_addr", word h.tagsAddr), ("name", byteItems h.name), ("header_size", word h.headerSize),
    ("dtb_size", word h.dtbSize), ("dtb_addr", long h.dtbAddr)])

def dumpV4 (h : VendorFieldsV4) : String × Dump :=
  ("v4", .record "VendorV4Extra" [("vendor_ramdisk_table_size", word h.tableSize),
    ("vendor_ramdisk_table_entry_num", word h.tableEntryCount),
    ("vendor_ramdisk_table_entry_size", word h.tableEntrySize),
    ("bootconfig_size", word h.bootconfigSize)])

def dump : VendorHeader → Dump
  | v3 base => .record "VendorV3" [dumpV3 base]
  | v4 base e4 => .record "VendorV4" [dumpV3 base, dumpV4 e4]

end VendorHeader

def ImageHeader.dump : ImageHeader → String
  | boot h => (Dump.parts "Boot" [h.dump]).render 0
  | vendor h => (Dump.parts "Vendor" [h.dump]).render 0

end AndroidBoot
