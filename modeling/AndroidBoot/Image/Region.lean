import AndroidBoot.Bytes.Basic

/-!
# Regions of an image

The parts of an image that a header gives a size for, and where one of them lies. Offsets and
sizes are natural numbers; an end at or above `2 ^ 64` is outside every image.
-/

namespace AndroidBoot

inductive RegionKind where
  | kernel
  | ramdisk
  | second
  | recoveryDtbo
  | dtb
  | signature
  | vendorRamdisk
  | vendorRamdiskTable
  | bootconfig
deriving DecidableEq, Repr

namespace RegionKind

def name : RegionKind → String
  | kernel => "kernel"
  | ramdisk => "ramdisk"
  | second => "second"
  | recoveryDtbo => "recovery_dtbo"
  | dtb => "dtb"
  | signature => "signature"
  | vendorRamdisk => "vendor_ramdisk"
  | vendorRamdiskTable => "vendor_ramdisk_table"
  | bootconfig => "bootconfig"

def all : List RegionKind :=
  [kernel, ramdisk, second, recoveryDtbo, dtb, signature, vendorRamdisk, vendorRamdiskTable,
    bootconfig]

def ofName? (s : String) : Option RegionKind := all.find? (·.name == s)

theorem ofName?_name (k : RegionKind) : ofName? k.name = some k := by
  cases k <;> decide

end RegionKind

/-- A part of an image that starts on a page and fills `pageCount` pages. -/
structure Region where
  kind : RegionKind
  offset : Nat
  size : Nat
  pageCount : Nat
deriving DecidableEq, Repr

/-- The first byte after the region. -/
def Region.stop (r : Region) : Nat := r.offset + r.size

end AndroidBoot
