import AndroidBoot.Number.Text
import AndroidBoot.Text.Blank

/-!
# Device flags

A word with a bit for each boolean property of a device. Bits without a name are kept. As text the
flags are names with bars between them, and the bits without a name a hexadecimal number.

    parse? f.text = some f
-/

namespace AndroidBoot

inductive DeviceFlag where
  | mdtpActive
  | dynamicPartitions
  | multiSlot
  | bootDeviceImage
  | leVariant
  | systemAsRoot
  | recoveryAsBoot
  | recoveryHasNoKernel
  | chargingScreen
deriving DecidableEq, Repr

namespace DeviceFlag

def name : DeviceFlag → String
  | mdtpActive => "MDTP_ACTIVE"
  | dynamicPartitions => "DYNAMIC_PARTITIONS"
  | multiSlot => "MULTI_SLOT"
  | bootDeviceImage => "BOOT_DEVICE_IMAGE"
  | leVariant => "LE_VARIANT"
  | systemAsRoot => "SYSTEM_AS_ROOT"
  | recoveryAsBoot => "RECOVERY_AS_BOOT"
  | recoveryHasNoKernel => "RECOVERY_HAS_NO_KERNEL"
  | chargingScreen => "CHARGING_SCREEN"

def mask : DeviceFlag → UInt32
  | mdtpActive => 0x001
  | dynamicPartitions => 0x002
  | multiSlot => 0x004
  | bootDeviceImage => 0x008
  | leVariant => 0x010
  | systemAsRoot => 0x020
  | recoveryAsBoot => 0x040
  | recoveryHasNoKernel => 0x080
  | chargingScreen => 0x100

/-- All flags, the lowest bit first. -/
def all : List DeviceFlag :=
  [mdtpActive, dynamicPartitions, multiSlot, bootDeviceImage, leVariant, systemAsRoot,
    recoveryAsBoot, recoveryHasNoKernel, chargingScreen]

def ofName? (s : String) : Option DeviceFlag := all.find? (·.name == s)

end DeviceFlag

structure DeviceFlags where
  bits : UInt32
deriving DecidableEq, Repr

namespace DeviceFlags

def empty : DeviceFlags := ⟨0⟩

def has (f : DeviceFlags) (flag : DeviceFlag) : Bool := f.bits &&& flag.mask != 0

/-- The bits that have no name. -/
def unnamed (f : DeviceFlags) : UInt32 := f.bits &&& 0xFFFFFE00

def text (f : DeviceFlags) : String :=
  " | ".intercalate ((DeviceFlag.all.filter f.has).map DeviceFlag.name
    ++ if f.unnamed = 0 then [] else [hex f.unnamed.toNat])

/-- The bits of a name, or of a hexadecimal number with the mark `0x`. -/
def parsePart? : List Char → Option UInt32
  | '0' :: 'x' :: digits => (readNat? 16 UInt32.size digits).map UInt32.ofNat
  | name => (DeviceFlag.ofName? (String.ofList name)).map DeviceFlag.mask

/-- The flags that a text names; a blank one names none. -/
def parse? (s : String) : Option DeviceFlags := do
  if (trim s.toList).isEmpty then return empty
  let parts ← (splitAtChars (· == '|') s.toList).mapM (parsePart? ∘ trim)
  return ⟨parts.foldl (· ||| ·) 0⟩

end DeviceFlags

end AndroidBoot
