import AndroidBoot.Assembly.Selection
import AndroidBoot.Device.Memory
import AndroidBoot.Image.Error
import AndroidBoot.Toml.Document
import AndroidBoot.Toml.Reader
import AndroidBoot.Toml.Shape

/-!
# Device facts

The facts about a device, as they are kept in a document. A fact that is not available has no key.

    f.toDocument.write = none  ↔  a number of f.memoryOffline is 2 ^ 63 or more
    f.toDocument.write = some s → ofDocument? s = some f
-/

namespace AndroidBoot

open Toml

structure DeviceFacts where
  serialNumber : Option String
  slotSuffix : Option String
  bootDevice : Option String
  rootDeviceType : Option String
  chipBaseband : Option String
  displayConfig : Option String
  dtboIndex : Option UInt32
  dtbIndex : Option UInt32
  initBinary : Option String
  leVerityCmdline : Option String
  pauseForBatteryCharge : Bool
  flags : DeviceFlags
  memoryOffline : Option OfflineMemory
deriving DecidableEq, Repr

inductive DeviceFactsError where
  | read (path : String) (fault : Fault)
  | parse
  | serialize
deriving DecidableEq, Repr

namespace DeviceFactsError

def message : DeviceFactsError → String
  | read path _ => "Failed to read device facts: " ++ quoteText path
  | parse => "Failed to parse device facts"
  | serialize => "Failed to serialize device facts"

def cause : DeviceFactsError → Cause
  | read _ fault => .storage fault
  | parse | serialize => .document

end DeviceFactsError

open Shape in
def OfflineMemory.fields : Fields OfflineMemory :=
  (Fields.cons "ddr_size" long <| .cons "min_ddr_size" long <|
    .one "offline_sizes" (list (pair false long long))).map
    (fun (ddrSize, minDdrSize, table) => { ddrSize, minDdrSize, table })
    (fun m => (m.ddrSize, m.minDdrSize, m.table))

def DeviceFlags.shape : Shape DeviceFlags := .named DeviceFlags.text DeviceFlags.parse?

def OfflineMemory.shape : Shape OfflineMemory where
  toValue m := .table (fields.entries m)
  ofValue? := fields.ofValue? false

namespace DeviceFacts

/-- The field of a fact that is available. -/
def field {α : Type} (name : String) (s : Shape α) (fact : Option α) : List Field :=
  match fact with
  | some a => [(name, s.toValue a)]
  | none => []

def toDocument (f : DeviceFacts) : Document where
  fields := field "serial_number" .text f.serialNumber
    ++ field "slot_suffix" .text f.slotSuffix
    ++ field "boot_device" .text f.bootDevice
    ++ field "root_device_type" .text f.rootDeviceType
    ++ field "chip_baseband" .text f.chipBaseband
    ++ field "display_config" .text f.displayConfig
    ++ field "dtbo_index" .word f.dtboIndex
    ++ field "dtb_index" .word f.dtbIndex
    ++ field "init_binary" .text f.initBinary
    ++ field "le_verity_cmdline" .text f.leVerityCmdline
    ++ [("pause_for_battery_charge", Shape.boolean.toValue f.pauseForBatteryCharge),
      ("flags", DeviceFlags.shape.toValue f.flags)]
  sections := match f.memoryOffline with
    | some m => [⟨"memory_offline", false, OfflineMemory.fields.entries m⟩]
    | none => []

/-- The facts that a table states; what it holds besides is passed over. -/
def ofTable? (t : Table) : Option DeviceFacts := do
  return {
    serialNumber := ← optionalField? t "serial_number" .text
    slotSuffix := ← optionalField? t "slot_suffix" .text
    bootDevice := ← optionalField? t "boot_device" .text
    rootDeviceType := ← optionalField? t "root_device_type" .text
    chipBaseband := ← optionalField? t "chip_baseband" .text
    displayConfig := ← optionalField? t "display_config" .text
    dtboIndex := ← optionalField? t "dtbo_index" .word
    dtbIndex := ← optionalField? t "dtb_index" .word
    initBinary := ← optionalField? t "init_binary" .text
    leVerityCmdline := ← optionalField? t "le_verity_cmdline" .text
    pauseForBatteryCharge := (← optionalField? t "pause_for_battery_charge" .boolean).getD false
    flags := (← optionalField? t "flags" DeviceFlags.shape).getD .empty
    memoryOffline := ← optionalField? t "memory_offline" OfflineMemory.shape }

/-- The facts that a written document states. -/
def ofDocument (text : String) : Except DeviceFactsError DeviceFacts :=
  match readTable? text >>= ofTable? with
  | some f => .ok f
  | none => .error .parse

/-- The facts as a written document. -/
def write (f : DeviceFacts) : Except DeviceFactsError String :=
  match f.toDocument.write with
  | some text => .ok text
  | none => .error .serialize

/-- What assembly needs of the facts. Linux Embedded builds have no memory limit. -/
def toView (f : DeviceFacts) : DeviceView where
  serialNumber := f.serialNumber
  slotSuffix := f.slotSuffix
  bootDevice := f.bootDevice
  rootDeviceType := f.rootDeviceType
  chipBaseband := f.chipBaseband
  displayConfig := f.displayConfig
  memoryLimit tree :=
    if f.flags.has .leVariant then none else f.memoryOffline.bind (·.limitWith tree)
  dtboIndex := f.dtboIndex
  dtbIndex := f.dtbIndex
  leVerityCmdline _ := f.leVerityCmdline
  pauseForBatteryCharge := f.pauseForBatteryCharge
  initBinary := f.initBinary.getD "/init"
  flags := f.flags

end DeviceFacts

end AndroidBoot
