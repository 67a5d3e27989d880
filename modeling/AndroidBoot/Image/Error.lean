import AndroidBoot.Image.Region
import AndroidBoot.Number.Bounds
import AndroidBoot.Storage.Fault
import AndroidBoot.Text.Quoted

/-!
# Errors of images

Why an image, its header or its ramdisk table is refused. Parts of a format are named by their
path, such as `Vendor::V4::table_entry`.
-/

namespace AndroidBoot

/-- What lies below an error. -/
inductive Cause where
  | storage (fault : Fault)
  | document
  | reason (text : String)
deriving DecidableEq, Repr

inductive ImageError where
  | unknownMagic (magic : Vector UInt8 8)
  | unknownHeaderVersion (version : UInt32)
  | unknownRamdiskType (value : UInt32)
  | fieldOutOfBounds (field : String) (found : OutOfBounds)
  | overflow (part : String)
  | noPageSize
  | noRamdiskTable (version : Nat)
  | noRegion (kind : RegionKind) (version : Nat)
  | ramdiskSizeMismatch (stated total : UInt32)
  | tableSizeMismatch (stated expected : UInt32)
  | entrySizeUnsupported (size : UInt32)
  | entryOffsetMismatch (index : Nat) (stated expected : UInt32)
  | regionOutside (kind : RegionKind) (offset size imageSize : Nat)
  | read (part : String) (fault : Fault)
  | write (part : String) (fault : Fault)
deriving DecidableEq, Repr

namespace ImageError

def message : ImageError → String
  | unknownMagic magic =>
    "Unknown magic: [" ++ ", ".intercalate (magic.toList.map fun b => toString b.toNat) ++ "]"
  | unknownHeaderVersion version => "Unknown header version: " ++ toString version.toNat
  | unknownRamdiskType value => "Unknown vendor ramdisk type: " ++ toString value.toNat
  | fieldOutOfBounds field _ => quoteText field ++ " field is out of bounds"
  | overflow part => quoteText part ++ " overflowed integer bounds during calculations"
  | noPageSize => "Page size must not be zero"
  | noRamdiskTable version =>
    "Vendor ramdisk table requires a vendor v4 header, but found v" ++ toString version
  | noRegion kind version =>
    "Region " ++ kind.name ++ " does not exist in a v" ++ toString version ++ " header"
  | ramdiskSizeMismatch stated total =>
    "Invalid vendor v4 total ramdisk size: " ++ toString stated.toNat ++ " != "
      ++ toString total.toNat
  | tableSizeMismatch stated expected =>
    "Invalid vendor v4 ramdisk table size: " ++ toString stated.toNat ++ " != "
      ++ toString expected.toNat
  | entrySizeUnsupported size => "Invalid vendor v4 ramdisk entry size: " ++ toString size.toNat
  | entryOffsetMismatch index stated expected =>
    "Invalid vendor v4 ramdisk entry [" ++ toString index ++ "] offset: " ++ toString stated.toNat
      ++ " != " ++ toString expected.toNat
  | regionOutside kind offset size imageSize =>
    "Region " ++ kind.name ++ " (" ++ toString offset ++ "+" ++ toString size
      ++ ") exceeds image size " ++ toString imageSize
  | read part _ => "Failed to read boot image data: " ++ part
  | write part _ => "Failed to write boot image data: " ++ part

def cause? : ImageError → Option Cause
  | fieldOutOfBounds _ found => some (.reason found.message)
  | read _ fault => some (.storage fault)
  | write _ fault => some (.storage fault)
  | _ => none

end ImageError

namespace Region

/-- The bytes of the region in `image`. -/
def slice (r : Region) (image : Bytes) : Except ImageError Bytes :=
  let refused := .error (.regionOutside r.kind r.offset r.size image.length)
  if UInt64.size ≤ r.stop then refused
  else match Bytes.slice? image r.offset r.stop with
    | some bs => .ok bs
    | none => refused

end Region

end AndroidBoot
