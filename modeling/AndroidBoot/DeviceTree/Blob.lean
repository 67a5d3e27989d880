import AndroidBoot.Bytes.Codec
import AndroidBoot.Number.Text

/-!
# Device tree blobs

A flattened device tree starts with a header of ten big-endian words, which says where the block of
tokens and the block of property names lie. Versions below 17 do not state the size of the token
block, which then reaches to the end of the tree.

    DeviceTree.read data = .ok t → t.tokens and t.names lie in data
-/

namespace AndroidBoot

inductive DeviceTreeError where
  | unknownMagic (magic : UInt32)
  | unsupportedVersion (version : UInt32)
  | blockOutside (block : String)
  | truncated (part : String)
  | unknownToken (token : UInt32) (offset : Nat)
  | surplusEnd (offset : Nat)
deriving DecidableEq, Repr

namespace DeviceTreeError

def message : DeviceTreeError → String
  | unknownMagic magic => "Unknown device tree magic: " ++ hexWord magic.toNat
  | unsupportedVersion version => "Unsupported device tree version: " ++ toString version.toNat
  | blockOutside block => "Device tree " ++ block ++ " block is out of bounds"
  | truncated part => "Device tree is truncated while reading " ++ part
  | unknownToken token offset =>
    "Unknown device tree token " ++ hex token.toNat ++ " at offset " ++ toString offset
  | surplusEnd offset => "Unbalanced node end at offset " ++ toString offset

end DeviceTreeError

namespace DeviceTree

/-- The words of a blob's header. -/
structure Header where
  magic : UInt32
  totalSize : UInt32
  tokensOffset : UInt32
  namesOffset : UInt32
  reservationsOffset : UInt32
  version : UInt32
  lastCompatible : UInt32
  bootCpu : UInt32
  namesSize : UInt32
  tokensSize : UInt32
deriving DecidableEq, Repr

open Codec in
def Header.codec : Codec Header :=
  (wordBE.pair <| wordBE.pair <| wordBE.pair <| wordBE.pair <| wordBE.pair <| wordBE.pair <|
    wordBE.pair <| wordBE.pair <| wordBE.pair wordBE).map
    (fun (magic, totalSize, tokensOffset, namesOffset, reservationsOffset, version, lastCompatible,
        bootCpu, namesSize, tokensSize) =>
      { magic, totalSize, tokensOffset, namesOffset, reservationsOffset, version, lastCompatible,
        bootCpu, namesSize, tokensSize })
    (fun h => (h.magic, h.totalSize, h.tokensOffset, h.namesOffset, h.reservationsOffset, h.version,
      h.lastCompatible, h.bootCpu, h.namesSize, h.tokensSize))
    (fun _ => rfl) (fun _ => rfl)

def magic : UInt32 := 0xD00DFEED

/-- The newest version whose readers can read a blob that this library reads. -/
def newestCompatible : UInt32 := 17

/-- The first version whose header states the size of the token block. -/
def sizedTokensVersion : UInt32 := 17

/-- The size of the token block. -/
def Header.tokensLength (h : Header) : Nat :=
  if sizedTokensVersion ≤ h.version then h.tokensSize.toNat
  else h.totalSize.toNat - h.tokensOffset.toNat

/-- The block of `size` bytes at `offset`. -/
def block (data : Bytes) (offset size : Nat) (name : String) : Except DeviceTreeError Bytes :=
  match Bytes.slice? data offset (offset + size) with
  | some bs => .ok bs
  | none => .error (.blockOutside name)

end DeviceTree

structure DeviceTree where
  tokens : Bytes
  /-- The names of the properties, each with a zero behind it. -/
  names : Bytes
  version : UInt32
deriving DecidableEq, Repr

/-- The blocks of the blob at the front of `data`. -/
def DeviceTree.read (data : Bytes) : Except DeviceTreeError DeviceTree := do
  let some header := Header.codec.decode? data | throw (.truncated "header")
  if header.magic ≠ magic then throw (.unknownMagic header.magic)
  if newestCompatible < header.lastCompatible then throw (.unsupportedVersion header.version)
  let data ← block data 0 header.totalSize.toNat "total"
  return {
    tokens := ← block data header.tokensOffset.toNat header.tokensLength "struct"
    names := ← block data header.namesOffset.toNat header.namesSize.toNat "strings"
    version := header.version }

end AndroidBoot
