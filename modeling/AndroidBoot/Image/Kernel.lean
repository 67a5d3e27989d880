import AndroidBoot.Bytes.Codec

/-!
# Kernel images

An AArch64 kernel image has a header of 64 bytes with the word `ARM\x64` at offset 56.
-/

namespace AndroidBoot

inductive KernelArch where
  | aarch64
  | other
deriving DecidableEq, Repr

namespace KernelArch

def name : KernelArch → String
  | aarch64 => "aarch64"
  | other => "other"

def headerSize : Nat := 64

def magicOffset : Nat := 56

/-- `ARM\x64` as a little-endian word. -/
def magic : UInt32 := 0x644D5241

/-- The architecture of a kernel; data too short for a header is of no known one. -/
def ofKernel (data : Bytes) : KernelArch :=
  if data.length < headerSize then other
  else if Codec.wordLE.decode? (data.drop magicOffset) = some magic then aarch64
  else other

end KernelArch

end AndroidBoot
