import AndroidBoot.Assembly.Inputs
import AndroidBoot.Assembly.Outputs

/-!
# Selection of fragments

Which fragments a boot has, and in what order. Each part of the list has a definition of its own;
`fragments` joins them, and `assemble` writes them out within the budget that they measure.

    assemble fails only for a missing serial number or baseband
-/

namespace AndroidBoot.Assembly

/-- ASCII letters in lower case. -/
def lowerCase (s : String) : String := String.ofList (s.toList.map Char.toLower)

/-- The suffix of the file system table: `emmc` for storage of that type, else `default`. -/
def fstabSuffix (rootDeviceType : Option String) : String :=
  if rootDeviceType.map lowerCase = some "emmc" then "emmc" else "default"

/-! ## The parts of the list -/

variable (request : BootRequest) (device : DeviceView)

def rawCmdline : List Fragment :=
  if request.rawCmdline = "" then [] else [.plain request.rawCmdline]

def verifiedBoot : List Fragment :=
  match request.verifiedBootCmdline.filter (· ≠ "") with
  | some text => [.verifiedBoot text request.headerVersion]
  | none => []

def storage : List Fragment :=
  match device.bootDevice with
  | some name =>
    [.keyed " androidboot.bootdevice=" name request.headerVersion,
      .keyed " androidboot.fstab_suffix=" (fstabSuffix device.rootDeviceType) request.headerVersion]
    ++ if device.flags.has .dynamicPartitions then
        [.keyed " androidboot.boot_devices=soc/" name request.headerVersion]
      else []
  | none => []

/-- The display configuration, with a blank in front. -/
def display : List Fragment :=
  match device.displayConfig.filter (· ≠ "") with
  | some config =>
    [.routed (if config.toList.head? = some ' ' then config else " " ++ config)
      request.headerVersion]
  | none => []

/-- A query for theft protection that failed counts as active. -/
def mdtp : List Fragment := if device.mdtpActive.getD true then [.plain " mdtp"] else []

/-- Whether the boot partition has slots and is what was booted. -/
def bootsSlot : Bool := device.flags.has .multiSlot && !device.flags.has .bootDeviceImage

def slot : List Fragment :=
  match device.slotSuffix with
  | some suffix =>
    if bootsSlot device then [.keyed " androidboot.slot_suffix=" suffix request.headerVersion]
    else []
  | none => []

def root : List Fragment :=
  if (device.flags.has .systemAsRoot && !device.flags.has .multiSlot) || bootsSlot device then
    (if !device.flags.has .dynamicPartitions && !request.recovery then [.plain " skip_initramfs"]
      else [])
    ++ [.plain (" rootwait ro init=" ++ device.initBinary)]
  else []

/-- The number of a device tree that was picked. -/
def index (key : String) (n : Option UInt32) : List Fragment :=
  match n with
  | some n => [.keyed key (toString n.toNat) request.headerVersion]
  | none => []

def indices : List Fragment :=
  if device.flags.has .leVariant then []
  else index request " androidboot.dtbo_idx=" device.dtboIndex
    ++ index request " androidboot.dtb_idx=" device.dtbIndex

def forceNormalBoot : List Fragment :=
  let recoveryAsBoot := device.flags.has .recoveryAsBoot
  if ((recoveryAsBoot || device.flags.has .recoveryHasNoKernel)
        && device.flags.has .dynamicPartitions && !request.recovery)
      || (!device.flags.has .multiSlot && !recoveryAsBoot) then
    [.keyed " androidboot.force_normal_boot=1" "" request.headerVersion]
  else []

def leVerity : List Fragment :=
  match (device.leVerityCmdline request.rawCmdline).filter (· ≠ "") with
  | some text => if device.flags.has .leVariant then [.plain text] else []
  | none => []

/-- The memory limit, unless the command line of the image states one. -/
def memory : List Fragment :=
  if holds "mem=".toList request.rawCmdline.toList then []
  else match device.memoryLimit request.deviceTree with
    | some limit =>
      [.plain (" mem=" ++ toString limit ++ "B"), .plain " memhp_default_state=online",
        .plain " movable_node"]
    | none => []

/-- All fragments, in the order of the outputs. -/
def fragments : Except AssemblyError (List Fragment) := do
  let some serial := device.serialNumber | throw .noSerialNumber
  let some baseband := device.chipBaseband | throw .noBaseband
  return rawCmdline request ++ verifiedBoot request ++ storage request device
    ++ [.keyed " androidboot.serialno=" serial request.headerVersion]
    ++ (BootMode.select request device).fragments request.headerVersion
    ++ [.keyed " androidboot.baseband=" (lowerCase baseband) request.headerVersion]
    ++ display request device ++ mdtp device ++ slot request device ++ root request device
    ++ indices request device ++ forceNormalBoot request device ++ leVerity request device
    ++ memory request device

/-- The command line and, where there is anything for it, the bootconfig. -/
def assemble : Except AssemblyError BootOutputs := do
  let fs ← fragments request device
  let w ← fs.foldlM OutputWriter.write (OutputWriter.ofBudget (OutputBudget.ofFragments fs))
  return w.finish

end AndroidBoot.Assembly
