import AndroidBoot.Assembly.Fragment
import AndroidBoot.Bytes.Basic
import AndroidBoot.Device.Flags

/-!
# Inputs of assembly

What the kernel command line depends on: a view of the device, the request to boot it, and the mode
that follows from both.

    select picks the first mode that applies: fastboot, charger, alarm, normal
-/

namespace AndroidBoot

/-- What assembly has to know about a device; `none` is a fact that is not available. -/
structure DeviceView where
  serialNumber : Option String
  slotSuffix : Option String
  bootDevice : Option String
  rootDeviceType : Option String
  chipBaseband : Option String
  displayConfig : Option String
  /-- How much memory is used, by the device tree if one is given. -/
  memoryLimit : Option Bytes → Option Nat
  dtboIndex : Option UInt32
  dtbIndex : Option UInt32
  /-- What a Linux Embedded build adds to this command line for dm-verity. -/
  leVerityCmdline : String → Option String
  /-- Whether the boot pauses to charge the battery. -/
  pauseForBatteryCharge : Bool
  initBinary : String := "/init"
  flags : DeviceFlags
  /-- Whether theft protection is active; `none` is a query that failed. -/
  mdtpActive : Option Bool := some (flags.has .mdtpActive)

/-- The circumstances of a boot. -/
structure BootRequest where
  /-- The command line in the header of the boot image. -/
  rawCmdline : String := ""
  /-- The factory mode that is asked for. -/
  factoryMode : Option String := none
  recovery : Bool := false
  alarmBoot : Bool := false
  /-- The command line that verified boot gives. -/
  verifiedBootCmdline : Option String := none
  headerVersion : Nat
  deviceTree : Option Bytes := none

inductive BootMode where
  | fastboot (mode : String)
  | charger
  | alarm
  | normal
deriving DecidableEq, Repr

namespace BootMode

/-- The mode of a boot; one that is asked for goes before charging, and that before an alarm. -/
def select (request : BootRequest) (device : DeviceView) : BootMode :=
  match request.factoryMode.filter (· ≠ "") with
  | some mode => fastboot mode
  | none =>
    if !request.recovery && device.pauseForBatteryCharge && device.flags.has .chargingScreen then
      charger
    else if request.alarmBoot then alarm
    else normal

def text : BootMode → String
  | fastboot mode => "fastboot (" ++ mode ++ ")"
  | charger => "charger"
  | alarm => "alarm"
  | normal => "normal"

def fragments (version : Nat) : BootMode → List Fragment
  | fastboot mode => [.keyed " androidboot.mode=" mode version, .plain " quiet"]
  | charger => [.keyed " androidboot.mode=charger" "" version]
  | alarm => [.keyed " androidboot.alarmboot=true" "" version]
  | normal => []

end BootMode

end AndroidBoot
