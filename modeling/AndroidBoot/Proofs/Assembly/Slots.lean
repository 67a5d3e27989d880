import AndroidBoot.Proofs.Assembly.Outputs

/-!
# Slots

The list of fragments has a slot for each fragment there can be, in a fixed order. What stands in a
slot, if anything does, is known before it is known where it goes: a source, which the version of
the header makes a fragment of.

    fragments request device = .ok ((sources request device).map (·.fragment request.headerVersion))
      if a serial number and a baseband are available                         (fragments_of_sources)
    the sources do not depend on the version of the header                            (fragments_at)
-/

namespace AndroidBoot

/-- What a fragment is made of. -/
inductive Source where
  | plain (text : String)
  | keyed (key value : String)
  | routed (text : String)
  | verifiedBoot (text : String)
deriving DecidableEq, Repr

namespace Source

/-- The fragment that a version of the header makes of a source. -/
def fragment (version : Nat) : Source → Fragment
  | plain text => .plain text
  | keyed key value => .keyed key value version
  | routed text => .routed text version
  | verifiedBoot text => .verifiedBoot text version

end Source

/-- The places in the list of fragments, in order. -/
inductive Slot where
  | rawCmdline
  | verifiedBoot
  | bootDevice
  | fstabSuffix
  | bootDevices
  | serialNumber
  | mode
  | quiet
  | baseband
  | display
  | mdtp
  | slotSuffix
  | skipInitramfs
  | rootInit
  | dtboIndex
  | dtbIndex
  | forceNormalBoot
  | leVerity
  | memoryLimit
  | memoryOnline
  | movableNode
deriving DecidableEq, Repr

def Slot.all : List Slot :=
  [.rawCmdline, .verifiedBoot, .bootDevice, .fstabSuffix, .bootDevices, .serialNumber, .mode,
    .quiet, .baseband, .display, .mdtp, .slotSuffix, .skipInitramfs, .rootInit, .dtboIndex,
    .dtbIndex, .forceNormalBoot, .leVerity, .memoryLimit, .memoryOnline, .movableNode]

namespace Assembly

section

variable (request : BootRequest) (device : DeviceView)

/-- Whether the kernel is told where its root is. -/
def statesRoot : Bool :=
  (device.flags.has .systemAsRoot && !device.flags.has .multiSlot) || bootsSlot device

/-- Whether the boot is to be a normal one where the image is a recovery too. -/
def forcesNormalBoot : Bool :=
  ((device.flags.has .recoveryAsBoot || device.flags.has .recoveryHasNoKernel)
      && device.flags.has .dynamicPartitions && !request.recovery)
    || (!device.flags.has .multiSlot && !device.flags.has .recoveryAsBoot)

/-- The memory limit that the command line is to state. -/
def statedLimit : Option Nat :=
  if holds "mem=".toList request.rawCmdline.toList then none
  else device.memoryLimit request.deviceTree

/-- What stands in a slot. -/
@[simp] def source : Slot → Option Source
  | .rawCmdline => if request.rawCmdline = "" then none else some (.plain request.rawCmdline)
  | .verifiedBoot => (request.verifiedBootCmdline.filter (· ≠ "")).map .verifiedBoot
  | .bootDevice => device.bootDevice.map (.keyed " androidboot.bootdevice=")
  | .fstabSuffix => device.bootDevice.map fun _ =>
      .keyed " androidboot.fstab_suffix=" (fstabSuffix device.rootDeviceType)
  | .bootDevices =>
    if device.flags.has .dynamicPartitions then
      device.bootDevice.map (.keyed " androidboot.boot_devices=soc/")
    else none
  | .serialNumber => device.serialNumber.map (.keyed " androidboot.serialno=")
  | .mode =>
    match BootMode.select request device with
    | .fastboot mode => some (.keyed " androidboot.mode=" mode)
    | .charger => some (.keyed " androidboot.mode=charger" "")
    | .alarm => some (.keyed " androidboot.alarmboot=true" "")
    | .normal => none
  | .quiet =>
    match BootMode.select request device with
    | .fastboot _ => some (.plain " quiet")
    | _ => none
  | .baseband => device.chipBaseband.map fun name =>
      .keyed " androidboot.baseband=" (lowerCase name)
  | .display => (device.displayConfig.filter (· ≠ "")).map fun config =>
      .routed (if config.toList.head? = some ' ' then config else " " ++ config)
  | .mdtp => if device.mdtpActive.getD true then some (.plain " mdtp") else none
  | .slotSuffix =>
    if bootsSlot device then device.slotSuffix.map (.keyed " androidboot.slot_suffix=") else none
  | .skipInitramfs =>
    if statesRoot device && (!device.flags.has .dynamicPartitions && !request.recovery) then
      some (.plain " skip_initramfs")
    else none
  | .rootInit =>
    if statesRoot device then some (.plain (" rootwait ro init=" ++ device.initBinary)) else none
  | .dtboIndex =>
    if device.flags.has .leVariant then none
    else device.dtboIndex.map fun n => .keyed " androidboot.dtbo_idx=" (toString n.toNat)
  | .dtbIndex =>
    if device.flags.has .leVariant then none
    else device.dtbIndex.map fun n => .keyed " androidboot.dtb_idx=" (toString n.toNat)
  | .forceNormalBoot =>
    if forcesNormalBoot request device then some (.keyed " androidboot.force_normal_boot=1" "")
    else none
  | .leVerity =>
    if device.flags.has .leVariant then
      ((device.leVerityCmdline request.rawCmdline).filter (· ≠ "")).map .plain
    else none
  | .memoryLimit =>
    (statedLimit request device).map fun limit => .plain (" mem=" ++ toString limit ++ "B")
  | .memoryOnline =>
    (statedLimit request device).map fun _ => .plain " memhp_default_state=online"
  | .movableNode => (statedLimit request device).map fun _ => .plain " movable_node"

/-- All sources, in the order of their slots. -/
def sources : List Source := Slot.all.filterMap (source request device)

end

/-! ## The parts of the list -/

section

variable (request : BootRequest) (device : DeviceView)

/-- The fragments that come from these slots. -/
def fromSlots (slots : List Slot) : List Fragment :=
  (slots.filterMap (source request device)).map (·.fragment request.headerVersion)

theorem fromSlots_cons (slot : Slot) (slots : List Slot) :
    fromSlots request device (slot :: slots)
      = ((source request device slot).map (·.fragment request.headerVersion)).toList
        ++ fromSlots request device slots := by
  unfold fromSlots
  rw [List.filterMap_cons]
  cases source request device slot <;> rfl

theorem fromSlots_append (slots slots' : List Slot) :
    fromSlots request device (slots ++ slots')
      = fromSlots request device slots ++ fromSlots request device slots' := by
  rw [fromSlots, List.filterMap_append, List.map_append]
  rfl

theorem fromSlots_rawCmdline : fromSlots request device [.rawCmdline] = rawCmdline request := by
  rw [fromSlots_cons, source, rawCmdline]
  split <;> rfl

theorem fromSlots_verifiedBoot :
    fromSlots request device [.verifiedBoot] = verifiedBoot request := by
  rw [fromSlots_cons, source, verifiedBoot]
  cases request.verifiedBootCmdline.filter (· ≠ "") <;> rfl

theorem fromSlots_storage :
    fromSlots request device [.bootDevice, .fstabSuffix, .bootDevices]
      = storage request device := by
  rw [fromSlots_cons, fromSlots_cons, fromSlots_cons, source, source, source, storage]
  cases device.bootDevice <;> cases device.flags.has .dynamicPartitions <;> rfl

theorem fromSlots_serialNumber {serial : String} (h : device.serialNumber = some serial) :
    fromSlots request device [.serialNumber]
      = [.keyed " androidboot.serialno=" serial request.headerVersion] := by
  rw [fromSlots_cons, source, h]
  rfl

theorem fromSlots_mode : fromSlots request device [.mode, .quiet]
    = (BootMode.select request device).fragments request.headerVersion := by
  rw [fromSlots_cons, fromSlots_cons, source, source]
  cases BootMode.select request device <;> rfl

theorem fromSlots_baseband {baseband : String} (h : device.chipBaseband = some baseband) :
    fromSlots request device [.baseband]
      = [.keyed " androidboot.baseband=" (lowerCase baseband) request.headerVersion] := by
  rw [fromSlots_cons, source, h]
  rfl

theorem fromSlots_display : fromSlots request device [.display] = display request device := by
  rw [fromSlots_cons, source, display]
  cases device.displayConfig.filter (· ≠ "") <;> rfl

theorem fromSlots_mdtp : fromSlots request device [.mdtp] = mdtp device := by
  rw [fromSlots_cons, source, mdtp]
  split <;> rfl

theorem fromSlots_slotSuffix : fromSlots request device [.slotSuffix] = slot request device := by
  rw [fromSlots_cons, source, slot]
  cases device.slotSuffix <;> cases bootsSlot device <;> rfl

theorem fromSlots_root :
    fromSlots request device [.skipInitramfs, .rootInit] = root request device := by
  rw [fromSlots_cons, fromSlots_cons, source, source, root, ← statesRoot]
  cases statesRoot device <;>
    cases !device.flags.has .dynamicPartitions && !request.recovery <;> rfl

theorem fromSlots_indices :
    fromSlots request device [.dtboIndex, .dtbIndex] = indices request device := by
  rw [fromSlots_cons, fromSlots_cons, source, source, indices]
  cases device.flags.has .leVariant <;> cases device.dtboIndex <;> cases device.dtbIndex <;> rfl

theorem fromSlots_forceNormalBoot :
    fromSlots request device [.forceNormalBoot] = forceNormalBoot request device := by
  rw [fromSlots_cons, source, forcesNormalBoot, forceNormalBoot]
  split <;> rfl

theorem fromSlots_leVerity : fromSlots request device [.leVerity] = leVerity request device := by
  rw [fromSlots_cons, source, leVerity]
  cases (device.leVerityCmdline request.rawCmdline).filter (· ≠ "") <;>
    cases device.flags.has .leVariant <;> rfl

theorem fromSlots_memory : fromSlots request device [.memoryLimit, .memoryOnline, .movableNode]
    = memory request device := by
  rw [fromSlots_cons, fromSlots_cons, fromSlots_cons, source, source, source, statedLimit, memory]
  cases holds "mem=".toList request.rawCmdline.toList <;>
    cases device.memoryLimit request.deviceTree <;> rfl

/-! ## All fragments -/

/-- The fragments are made of the sources, in the order of the slots. -/
theorem fragments_of_sources {serial baseband : String}
    (hserial : device.serialNumber = some serial)
    (hbaseband : device.chipBaseband = some baseband) :
    fragments request device
      = .ok ((sources request device).map (·.fragment request.headerVersion)) := by
  have hslots : Slot.all = [Slot.rawCmdline] ++ [Slot.verifiedBoot]
      ++ [Slot.bootDevice, .fstabSuffix, .bootDevices] ++ [Slot.serialNumber]
      ++ [Slot.mode, .quiet] ++ [Slot.baseband] ++ [Slot.display] ++ [Slot.mdtp]
      ++ [Slot.slotSuffix] ++ [Slot.skipInitramfs, .rootInit] ++ [Slot.dtboIndex, .dtbIndex]
      ++ [Slot.forceNormalBoot] ++ [Slot.leVerity]
      ++ [Slot.memoryLimit, .memoryOnline, .movableNode] := rfl
  rw [fragments_of_some hserial hbaseband, sources, ← fromSlots, hslots]
  simp only [fromSlots_append, fromSlots_rawCmdline, fromSlots_verifiedBoot, fromSlots_storage,
    fromSlots_serialNumber request device hserial, fromSlots_mode,
    fromSlots_baseband request device hbaseband, fromSlots_display, fromSlots_mdtp,
    fromSlots_slotSuffix, fromSlots_root, fromSlots_indices, fromSlots_forceNormalBoot,
    fromSlots_leVerity, fromSlots_memory]

/-- Refuses a device whose serial number or baseband is not available. -/
def checkAvailable : Except AssemblyError Unit :=
  match device.serialNumber, device.chipBaseband with
  | none, _ => .error .noSerialNumber
  | some _, none => .error .noBaseband
  | some _, some _ => .ok ()

theorem fragments_eq : fragments request device = (checkAvailable device).map fun _ =>
    (sources request device).map (·.fragment request.headerVersion) := by
  unfold checkAvailable
  cases hserial : device.serialNumber with
  | none => exact fragments_of_noSerial hserial
  | some serial =>
    cases hbaseband : device.chipBaseband with
    | none => exact fragments_of_noBaseband hserial hbaseband
    | some baseband => exact fragments_of_sources request device hserial hbaseband

/-- The version of the header only decides what fragments the sources become. -/
theorem fragments_at (version : Nat) :
    fragments { request with headerVersion := version } device
      = (checkAvailable device).map fun _ =>
        (sources request device).map (·.fragment version) :=
  fragments_eq { request with headerVersion := version } device

end

end Assembly

end AndroidBoot
