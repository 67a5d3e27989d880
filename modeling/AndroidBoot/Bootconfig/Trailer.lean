import AndroidBoot.Bytes.Codec
import AndroidBoot.Number.Rounding
import AndroidBoot.Number.Text

/-!
# Bootconfig regions

A bootconfig region is parameter data in a buffer, filled up with zeros to a multiple of four bytes
and closed by a trailer of 20 bytes: the size of the data, the sum of its bytes and a magic.

    close buf start size = (.ok e, buf') → verify buf' e = .ok ⟨start, e - 20 - start, _⟩
    close buf start size = (.error _, buf') → buf' = buf
-/

namespace AndroidBoot

inductive BootconfigError where
  | noParams
  | noBuffer
  | emptyRegion
  | alreadyClosed
  | tooSmall (needed available : Nat)
  | tooLarge (size : Nat)
  | notClosed (stop : Nat)
  | wrongChecksum (expected actual : UInt32)
deriving DecidableEq, Repr

namespace BootconfigError

def message : BootconfigError → String
  | noParams => "No bootconfig parameters to add"
  | noBuffer => "Bootconfig region is missing"
  | emptyRegion => "Bootconfig region is empty"
  | alreadyClosed => "Bootconfig trailer is already present"
  | tooSmall needed available =>
    "Bootconfig region needs " ++ toString needed ++ " bytes, but buffer has " ++ toString available
  | tooLarge size => "Bootconfig size does not fit in the trailer: " ++ toString size
  | notClosed stop => "No bootconfig trailer ends at offset " ++ toString stop
  | wrongChecksum expected actual =>
    "Bootconfig checksum mismatch: expected " ++ hexWord expected.toNat ++ ", but have "
      ++ hexWord actual.toNat

end BootconfigError

namespace Bootconfig

/-- `#BOOTCONFIG\n`. -/
def magic : Vector UInt8 12 :=
  #v[0x23, 0x42, 0x4F, 0x4F, 0x54, 0x43, 0x4F, 0x4E, 0x46, 0x49, 0x47, 0x0A]

/-- The size, the checksum and the magic. -/
def trailerCodec : Codec (UInt32 × UInt32 × Vector UInt8 12) :=
  Codec.wordLE.pair <| Codec.wordLE.pair (Codec.bytes 12)

def trailerSize : Nat := 20

/-- Parameter data is filled up to a multiple of this. -/
def alignment : Nat := 4

/-- The sum of the bytes, modulo `2 ^ 32`. -/
def checksum (data : Bytes) : UInt32 := data.foldl (fun sum b => sum + b.toUInt32) 0

/-- Whether the magic ends at `stop`. -/
def isClosedAt (buf : Bytes) (stop : Nat) : Bool :=
  12 ≤ stop && Bytes.slice? buf (stop - 12) stop == some magic.toList

/-- The end of a region, if it lies in the buffer. What would be needed is at most `2 ^ 64 - 1`. -/
def boundedEnd (buf : Bytes) (start size : Nat) : Except BootconfigError Nat :=
  if start + size ≤ buf.length then .ok (start + size)
  else .error (.tooSmall (min (start + size) (UInt64.size - 1)) buf.length)

/-- Where the trailer of the data in a region goes and ends, if one can be written. -/
def closingPlace (buf : Bytes) (start size : Nat) : Except BootconfigError (Nat × Nat × Nat) := do
  if buf.isEmpty then throw .noBuffer
  if size = 0 then throw .emptyRegion
  let dataEnd ← boundedEnd buf start size
  let trailerStart := dataEnd + padding dataEnd alignment
  let trailerEnd := trailerStart + trailerSize
  if isClosedAt buf trailerStart || isClosedAt buf trailerEnd then
    throw .alreadyClosed
  if buf.length < trailerEnd then throw (.tooSmall trailerEnd buf.length)
  if UInt32.size ≤ trailerStart - start then throw (.tooLarge (trailerStart - start))
  return (dataEnd, trailerStart, trailerEnd)

/-- Closes the data in `size` bytes from `start` on by a trailer and gives the end of it. A trailer
that is already there is not overwritten. -/
def close (buf : Bytes) (start size : Nat) : Except BootconfigError Nat × Bytes :=
  match closingPlace buf start size with
  | .error e => (.error e, buf)
  | .ok (dataEnd, trailerStart, trailerEnd) =>
    let filled := Bytes.overwrite buf dataEnd (Bytes.zeros (trailerStart - dataEnd))
    let sum := checksum ((filled.drop start).take (trailerStart - start))
    let trailer := trailerCodec.encode (UInt32.ofNat (trailerStart - start), sum, magic)
    (.ok trailerEnd, Bytes.overwrite filled trailerStart trailer)

/-- The size of a region without the trailer at its end, if it has one. -/
def sizeWithoutTrailer (buf : Bytes) (stop size : Nat) : Nat :=
  if trailerSize ≤ size ∧ isClosedAt buf stop then size - trailerSize else size

/-- Where parameters added to a region go, if there is room for them. -/
def paramsPlace (buf : Bytes) (start size : Nat) (params : Bytes) :
    Except BootconfigError (Nat × Nat) := do
  if params.isEmpty then throw .noParams
  if buf.isEmpty then throw .noBuffer
  let size := sizeWithoutTrailer buf (← boundedEnd buf start size) size
  let _ ← boundedEnd buf (start + size) params.length
  return (start + size, size + params.length)

/-- Adds parameters to a region, in place of a trailer at its end, and closes it by a new trailer.
Gives the end of that and the buffer, which holds the parameters even if no trailer can follow. -/
def addParams (buf : Bytes) (start size : Nat) (params : Bytes) :
    Except BootconfigError Nat × Bytes :=
  match paramsPlace buf start size params with
  | .error e => (.error e, buf)
  | .ok (place, size) => close (Bytes.overwrite buf place params) start size

/-- A trailer whose checksum is that of the data it covers. -/
structure Trailer where
  dataStart : Nat
  size : UInt32
  checksum : UInt32
deriving DecidableEq, Repr

/-- The trailer that ends at `stop`. -/
def verify (buf : Bytes) (stop : Nat) : Except BootconfigError Trailer := do
  if stop < trailerSize || !isClosedAt buf stop then throw (.notClosed stop)
  let trailerStart := stop - trailerSize
  let (size, expected, _) := trailerCodec.read ((buf.drop trailerStart).take trailerSize)
  if trailerStart < size.toNat then throw (.tooSmall size.toNat trailerStart)
  let dataStart := trailerStart - size.toNat
  let actual := checksum ((buf.drop dataStart).take size.toNat)
  if expected ≠ actual then throw (.wrongChecksum expected actual)
  return ⟨dataStart, size, expected⟩

def Trailer.text (t : Trailer) : String :=
  "Bootconfig trailer:\n- Data offset: " ++ toString t.dataStart
    ++ "\n- Size:        " ++ toString t.size.toNat
    ++ "\n- Checksum:    " ++ hexWord t.checksum.toNat

end Bootconfig

end AndroidBoot
