import AndroidBoot.Image.Vendor
import AndroidBoot.Storage.Stream

/-!
# Image headers

The header of a boot or of a vendor boot image; the magic says which of them an image has.

    decode (h.encode ++ rest) = .ok h
-/

namespace AndroidBoot

inductive ImageHeader where
  | boot (h : BootHeader)
  | vendor (h : VendorHeader)
deriving DecidableEq, Repr

namespace ImageHeader

def encode : ImageHeader → Bytes
  | boot h => h.encode
  | vendor h => h.encode

def version : ImageHeader → Nat
  | boot h => h.version
  | vendor h => h.version

def headerSize : ImageHeader → Nat
  | boot h => h.headerSize
  | vendor h => h.headerSize

def pageSize : ImageHeader → UInt32
  | boot h => h.pageSize
  | vendor h => h.pageSize

def cmdline : ImageHeader → Bytes
  | boot h => h.cmdline
  | vendor h => h.cmdline

def regionSizes : ImageHeader → List (RegionKind × UInt32)
  | boot h => h.regionSizes
  | vendor h => h.regionSizes

def regionKinds : ImageHeader → List RegionKind
  | boot h => h.regionKinds
  | vendor h => h.regionKinds

def resizeRegion (h : ImageHeader) (kind : RegionKind) (size : UInt32) :
    Except ImageError ImageHeader :=
  match h with
  | boot h => (h.resizeRegion kind size).map boot
  | vendor h => (h.resizeRegion kind size).map vendor

def layout : ImageHeader → Except ImageError (List Region)
  | boot h => h.layout
  | vendor h => h.layout

/-- The header with the offsets that follow from its region sizes; vendor headers have none. -/
def withOffsets : ImageHeader → Except ImageError ImageHeader
  | boot h => h.withOffsets.map boot
  | vendor h => .ok (vendor h)

/-- The header at the front of an image, of the kind its magic names. -/
def decode (data : Bytes) : Except ImageError ImageHeader := do
  let magic ← BootHeader.readPart (Codec.bytes 8) "Image::magic" data
  if magic = BootHeader.magic then (BootHeader.decode data).map boot
  else if magic = VendorHeader.magic then (VendorHeader.decode data).map vendor
  else throw (.unknownMagic magic)

/-- The name of the header as a part of an image. -/
def partName : ImageHeader → String
  | boot _ => "Boot::header"
  | vendor _ => "Vendor::header"

/-- Writes the header into a buffer; a buffer too small is filled as far as it goes. -/
def write (h : ImageHeader) (b : FixedBuffer) : Except ImageError Unit × FixedBuffer :=
  match b.writeAll h.encode with
  | (none, b') => (.ok (), b')
  | (some fault, b') => (.error (.write h.partName fault), b')

end ImageHeader

end AndroidBoot
