import Mathlib.Data.List.Forall2
import AndroidBoot.Proofs.Assembly.Versions

/-!
# The shape of the list of fragments

Whatever the device and the request, a list of fragments is a choice among the slots, in their
order. Which slots can be filled together is decided in many places; `Shape` says what holds of all
lists: what is always there, what excludes one another, and what comes with what.

    fragments request device = .ok fs → Shape request device (occupied request device) fs
-/

namespace AndroidBoot

theorem Slot.mem_all (slot : Slot) : slot ∈ Slot.all := by cases slot <;> decide

namespace Assembly

section

variable (request : BootRequest) (device : DeviceView)

/-- The fragment that stands in a slot. -/
def Fills (slot : Slot) (f : Fragment) : Prop :=
  (source request device slot).map (·.fragment request.headerVersion) = some f

/-- The slots in which there is something, in order. -/
def occupied : List Slot := Slot.all.filter fun slot => (source request device slot).isSome

/-- What holds of the fragments of any boot, and of the slots that they fill. -/
structure Shape (slots : List Slot) (fs : List Fragment) : Prop where
  filled : List.Forall₂ (Fills request device) slots fs
  inOrder : slots.Sublist Slot.all
  once : slots.Nodup
  serialNumber : .serialNumber ∈ slots
  baseband : .baseband ∈ slots
  /-- The three modes share a slot, so that one at most is announced. -/
  mode : ∀ f, Fills request device .mode f →
    (∃ name, request.factoryMode = some name ∧ name ≠ "" ∧
      f = .keyed " androidboot.mode=" name request.headerVersion) ∨
    f = .keyed " androidboot.mode=charger" "" request.headerVersion ∨
    f = .keyed " androidboot.alarmboot=true" "" request.headerVersion
  quiet : .quiet ∈ slots ↔ ∃ name, request.factoryMode = some name ∧ name ≠ ""
  fstabSuffix : .fstabSuffix ∈ slots ↔ .bootDevice ∈ slots
  bootDevices : .bootDevices ∈ slots → .bootDevice ∈ slots
  rootInit : .slotSuffix ∈ slots ∨ .skipInitramfs ∈ slots → .rootInit ∈ slots
  skipInitramfs : .skipInitramfs ∈ slots →
    [.skipInitramfs, .rootInit] <:+: slots ∧ request.recovery = false ∧
      device.flags.has .dynamicPartitions = false
  leVerity : .leVerity ∈ slots → .dtboIndex ∉ slots ∧ .dtbIndex ∉ slots
  memory : .memoryLimit ∈ slots ∨ .memoryOnline ∈ slots ∨ .movableNode ∈ slots →
    [.memoryLimit, .memoryOnline, .movableNode] <:+ slots ∧
      ¬ ∃ before after, request.rawCmdline.toList = before ++ "mem=".toList ++ after

end

section

variable {request : BootRequest} {device : DeviceView}

theorem mem_occupied_iff {slot : Slot} :
    slot ∈ occupied request device ↔ (source request device slot).isSome := by
  rw [occupied, List.mem_filter, and_iff_right slot.mem_all]

/-- What is chosen from a list by a partial function stands beside what it is chosen for. -/
theorem forall₂_filterMap {α β : Type} (g : α → Option β) (l : List α) :
    List.Forall₂ (fun a b => g a = some b) (l.filter fun a => (g a).isSome) (l.filterMap g) := by
  induction l with
  | nil => exact .nil
  | cons a l ih =>
    cases hg : g a with
    | none =>
      have hout : ¬ (g a).isSome := by simp [hg]
      rw [List.filterMap_cons_none hg, List.filter_cons, if_neg hout]
      exact ih
    | some b =>
      have hin : (g a).isSome := by simp [hg]
      rw [List.filterMap_cons_some hg, List.filter_cons, if_pos hin]
      exact .cons hg ih

theorem filled_occupied {fs : List Fragment} (hfs : fragments request device = .ok fs) :
    List.Forall₂ (Fills request device) (occupied request device) fs := by
  obtain ⟨serial, baseband, hserial, hbaseband⟩ := available_of_fragments hfs
  rw [fragments_of_sources request device hserial hbaseband] at hfs
  obtain rfl := Except.ok.inj hfs
  rw [List.forall₂_map_right_iff]
  refine (forall₂_filterMap (source request device) Slot.all).imp fun slot s hs => ?_
  rw [Fills, hs]
  rfl

/-! ## Which slots are occupied -/

theorem select_eq_fastboot_iff {name : String} :
    BootMode.select request device = .fastboot name
      ↔ request.factoryMode = some name ∧ name ≠ "" := by
  have hasked : request.factoryMode.filter (· ≠ "") = some name
      ↔ request.factoryMode = some name ∧ name ≠ "" := by
    rw [Option.filter_eq_some_iff, decide_eq_true_iff]
  rw [← hasked, BootMode.select]
  cases request.factoryMode.filter (· ≠ "") with
  | some name' => simp
  | none =>
    -- No mode that is picked without being asked for is fastboot.
    refine iff_of_false ?_ nofun
    dsimp only
    split
    · nofun
    · split <;> nofun

theorem mode_of_fills {f : Fragment} (h : Fills request device .mode f) :
    (∃ name, request.factoryMode = some name ∧ name ≠ "" ∧
      f = .keyed " androidboot.mode=" name request.headerVersion) ∨
    f = .keyed " androidboot.mode=charger" "" request.headerVersion ∨
    f = .keyed " androidboot.alarmboot=true" "" request.headerVersion := by
  rw [Fills, source] at h
  cases hmode : BootMode.select request device with
  | fastboot name =>
    rw [hmode] at h
    obtain ⟨hasked, hne⟩ := select_eq_fastboot_iff.1 hmode
    exact .inl ⟨name, hasked, hne, (Option.some.inj h).symm⟩
  | charger =>
    rw [hmode] at h
    exact .inr (.inl (Option.some.inj h).symm)
  | alarm =>
    rw [hmode] at h
    exact .inr (.inr (Option.some.inj h).symm)
  | normal =>
    rw [hmode] at h
    cases h

theorem quiet_mem_occupied_iff : Slot.quiet ∈ occupied request device
    ↔ ∃ name, request.factoryMode = some name ∧ name ≠ "" := by
  simp only [mem_occupied_iff, source, ← @select_eq_fastboot_iff request device]
  cases BootMode.select request device <;> simp

theorem fstabSuffix_mem_occupied_iff :
    Slot.fstabSuffix ∈ occupied request device ↔ Slot.bootDevice ∈ occupied request device := by
  simp only [mem_occupied_iff, source, Option.isSome_map]

theorem bootDevice_mem_of_bootDevices (h : Slot.bootDevices ∈ occupied request device) :
    Slot.bootDevice ∈ occupied request device := by
  simp only [mem_occupied_iff, source] at h ⊢
  split at h
  · simpa only [Option.isSome_map] using h
  · cases h

theorem rootInit_mem_occupied_iff :
    Slot.rootInit ∈ occupied request device ↔ statesRoot device = true := by
  rw [mem_occupied_iff, source]
  cases statesRoot device <;> simp

theorem rootInit_mem_of_slotSuffix (h : Slot.slotSuffix ∈ occupied request device) :
    Slot.rootInit ∈ occupied request device := by
  rw [mem_occupied_iff, source] at h
  split at h
  · next hslot => rw [rootInit_mem_occupied_iff, statesRoot, hslot, Bool.or_true]
  · cases h

theorem skipInitramfs_mem_occupied_iff : Slot.skipInitramfs ∈ occupied request device ↔
    statesRoot device = true ∧ device.flags.has .dynamicPartitions = false ∧
      request.recovery = false := by
  rw [mem_occupied_iff, source]
  cases statesRoot device <;> cases device.flags.has .dynamicPartitions <;>
    cases request.recovery <;> simp

theorem indices_not_mem_of_leVerity (h : Slot.leVerity ∈ occupied request device) :
    Slot.dtboIndex ∉ occupied request device ∧ Slot.dtbIndex ∉ occupied request device := by
  simp only [mem_occupied_iff, source] at h ⊢
  cases hvariant : device.flags.has .leVariant with
  | true => simp
  | false =>
    rw [hvariant] at h
    cases h

theorem memory_mem_occupied_iff {slot : Slot}
    (h : slot ∈ [Slot.memoryLimit, .memoryOnline, .movableNode]) :
    slot ∈ occupied request device ↔ (statedLimit request device).isSome := by
  rw [mem_occupied_iff]
  simp only [List.mem_cons, List.not_mem_nil, or_false] at h
  rcases h with rfl | rfl | rfl <;> rw [source, Option.isSome_map]

theorem not_mem_of_statedLimit (h : (statedLimit request device).isSome) :
    ¬ ∃ before after, request.rawCmdline.toList = before ++ "mem=".toList ++ after := by
  rw [← holds_iff]
  intro hstated
  rw [statedLimit, if_pos hstated] at h
  cases h

/-! ## Neighbours -/

theorem filter_of_occupied {slots : List Slot}
    (h : ∀ slot ∈ slots, slot ∈ occupied request device) :
    slots.filter (fun slot => (source request device slot).isSome) = slots :=
  List.filter_eq_self.2 fun slot hslot => mem_occupied_iff.1 (h slot hslot)

/-- Neighbours in the list of all slots stay neighbours if they are occupied. -/
theorem infix_occupied {slots : List Slot} (hall : slots <:+: Slot.all)
    (h : ∀ slot ∈ slots, slot ∈ occupied request device) : slots <:+: occupied request device := by
  rw [← filter_of_occupied h]
  exact hall.filter _

theorem suffix_occupied {slots : List Slot} (hall : slots <:+ Slot.all)
    (h : ∀ slot ∈ slots, slot ∈ occupied request device) : slots <:+ occupied request device := by
  rw [← filter_of_occupied h]
  exact hall.filter _

end

/-- **The shape of the list of fragments.** Whenever fragments can be selected they stand one by
one in the occupied slots, in the order of the slots, and these go together as `Shape` says. -/
theorem fragments_shape (request : BootRequest) (device : DeviceView) {fs : List Fragment}
    (hfs : fragments request device = .ok fs) :
    Shape request device (occupied request device) fs := by
  obtain ⟨serial, baseband, hserial, hbaseband⟩ := available_of_fragments hfs
  refine
    { filled := filled_occupied hfs
      inOrder := List.filter_sublist
      once := List.Nodup.sublist List.filter_sublist (by decide)
      serialNumber := by rw [mem_occupied_iff, source, hserial]; rfl
      baseband := by rw [mem_occupied_iff, source, hbaseband]; rfl
      mode := fun f => mode_of_fills
      quiet := quiet_mem_occupied_iff
      fstabSuffix := fstabSuffix_mem_occupied_iff
      bootDevices := bootDevice_mem_of_bootDevices
      rootInit := ?_
      skipInitramfs := ?_
      leVerity := indices_not_mem_of_leVerity
      memory := ?_ }
  · rintro (hsuffix | hskip)
    · exact rootInit_mem_of_slotSuffix hsuffix
    · exact rootInit_mem_occupied_iff.2 (skipInitramfs_mem_occupied_iff.1 hskip).1
  · intro hskip
    obtain ⟨hroot, hdynamic, hrecovery⟩ := skipInitramfs_mem_occupied_iff.1 hskip
    refine ⟨infix_occupied (by decide) ?_, hrecovery, hdynamic⟩
    simpa using ⟨hskip, rootInit_mem_occupied_iff.2 hroot⟩
  · intro hmemory
    have hlimit : (statedLimit request device).isSome := by
      rcases hmemory with h | h | h
      all_goals exact (memory_mem_occupied_iff (by decide)).1 h
    exact ⟨suffix_occupied (by decide) fun slot hslot => (memory_mem_occupied_iff hslot).2 hlimit,
      not_mem_of_statedLimit hlimit⟩

/-- A device with slots, on its way into a factory mode. -/
def slottedDevice : DeviceView :=
  { bareDevice with
    slotSuffix := some "_a"
    bootDevice := some "soc"
    memoryLimit := fun _ => some 5
    dtboIndex := some 2
    pauseForBatteryCharge := true
    flags := ⟨DeviceFlag.multiSlot.mask⟩ }

def factoryRequest : BootRequest where
  rawCmdline := "a=1"
  factoryMode := some "ffbm-00"
  headerVersion := 4

theorem fragments_shape_of_factoryMode :
    occupied factoryRequest slottedDevice =
      [.rawCmdline, .bootDevice, .fstabSuffix, .serialNumber, .mode, .quiet, .baseband, .slotSuffix,
        .skipInitramfs, .rootInit, .dtboIndex, .memoryLimit, .memoryOnline, .movableNode] ∧
    ∃ fs, fragments factoryRequest slottedDevice = .ok fs ∧
      Shape factoryRequest slottedDevice (occupied factoryRequest slottedDevice) fs :=
  ⟨by decide, _, fragments_of_sources _ _ rfl rfl,
    fragments_shape _ _ (fragments_of_sources _ _ rfl rfl)⟩

end Assembly

end AndroidBoot
