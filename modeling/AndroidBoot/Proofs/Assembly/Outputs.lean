import Mathlib.Algebra.Ring.Nat
import Mathlib.Data.String.Basic
import AndroidBoot.Assembly.Selection

/-!
# What assembly writes

All fragments are measured before the first is written, so that each of them finds room: at any
time the writer holds what the fragments so far say, and that takes no more than what all of them
were measured to take.

    w.Holds fs → w.budget.Covers (fs ++ [f]) → w.write f = .ok w' with w'.Holds (fs ++ [f])
    (OutputBudget.ofFragments fs).Covers fs                            (covers_ofFragments)
    assemble request device = (fragments request device).map BootOutputs.ofFragments
                                                                       (assemble_eq)
-/

namespace AndroidBoot

namespace Fragment

/-- The fragments that go to the command line. -/
def onCmdline (fs : List Fragment) : List Fragment := fs.filter (·.destination = .cmdline)

/-- The fragments that go to the bootconfig. -/
def inBootconfig (fs : List Fragment) : List Fragment := fs.filter (·.destination = .bootconfig)

/-- The size of the bootconfig entry of a fragment, with its line break. -/
def entrySize (f : Fragment) : Nat := (bootconfigEntry f.text).utf8ByteSize + 1

end Fragment

open Fragment

/-- The outputs that fragments stand for. -/
def BootOutputs.ofFragments (fs : List Fragment) : BootOutputs where
  cmdline := String.join ((onCmdline fs).map (·.text))
  bootconfig :=
    if (inBootconfig fs).isEmpty then none
    else some ("\n" ++ String.join ((inBootconfig fs).map (bootconfigEntry ·.text ++ "\n")))

/-- The budget has room for the fragments. -/
structure OutputBudget.Covers (b : OutputBudget) (fs : List Fragment) : Prop where
  cmdline : ((onCmdline fs).map size).sum ≤ b.cmdline
  bootconfig : ((inBootconfig fs).map entrySize).sum ≤ b.bootconfig

/-- The writer holds what the fragments stand for. -/
structure OutputWriter.Holds (w : OutputWriter) (fs : List Fragment) : Prop where
  cmdline : w.cmdline = String.join ((onCmdline fs).map (·.text))
  entries : w.entries = (inBootconfig fs).map (bootconfigEntry ·.text)
  entriesSize : w.entriesSize = ((inBootconfig fs).map entrySize).sum

/-! ## Sizes -/

@[simp] theorem Fragment.onCmdline_append (fs gs : List Fragment) :
    onCmdline (fs ++ gs) = onCmdline fs ++ onCmdline gs := List.filter_append ..

@[simp] theorem Fragment.inBootconfig_append (fs gs : List Fragment) :
    inBootconfig (fs ++ gs) = inBootconfig fs ++ inBootconfig gs := List.filter_append ..

theorem utf8ByteSize_join (texts : List String) :
    (String.join texts).utf8ByteSize = (texts.map String.utf8ByteSize).sum := by
  induction texts with
  | nil => simp
  | cons text texts ih => simp [String.join_cons, ih]

theorem utf8ByteSize_cmdline (fs : List Fragment) :
    (String.join ((onCmdline fs).map (·.text))).utf8ByteSize = ((onCmdline fs).map size).sum := by
  rw [utf8ByteSize_join, List.map_map]
  rfl

theorem utf8ByteSize_lines (texts : List String) :
    (String.join (texts.map (· ++ "\n"))).utf8ByteSize
      = (texts.map fun text => text.utf8ByteSize + 1).sum := by
  rw [utf8ByteSize_join, List.map_map]
  congr 2
  funext text
  exact String.utf8ByteSize_append

theorem utf8ByteSize_entries (fs : List Fragment) :
    (String.join (fs.map (bootconfigEntry ·.text ++ "\n"))).utf8ByteSize
      = (fs.map entrySize).sum := by
  have hlines := utf8ByteSize_lines (fs.map (bootconfigEntry ·.text))
  rw [List.map_map, List.map_map] at hlines
  exact hlines

/-- Leaving out spaces makes a text no longer. -/
theorem entrySize_le (f : Fragment) : f.entrySize ≤ f.size + 1 := by
  have hfilter : (f.text.toList.filter (· != ' ')).Sublist f.text.toList := List.filter_sublist
  have hle := String.utf8Len_le_of_sublist hfilter
  rw [String.utf8Len_toList, ← String.utf8ByteSize_ofList] at hle
  exact Nat.succ_le_succ hle

namespace Fragment

/-- A fragment goes to one of the two outputs. -/
theorem sum_size (fs : List Fragment) :
    ((onCmdline fs).map size).sum + ((inBootconfig fs).map size).sum = (fs.map size).sum := by
  induction fs with
  | nil => rfl
  | cons f fs ih =>
    cases hf : f.destination with
    | cmdline => simp [onCmdline, inBootconfig, hf] at ih ⊢; omega
    | bootconfig => simp [onCmdline, inBootconfig, hf] at ih ⊢; omega

theorem sum_entrySize_le (fs : List Fragment) :
    (fs.map entrySize).sum ≤ (fs.map fun f => f.size + OutputBudget.entryMargin).sum := by
  induction fs with
  | nil => simp
  | cons f fs ih =>
    have hf := entrySize_le f
    simp only [List.map_cons, List.sum_cons, OutputBudget.entryMargin] at ih ⊢
    omega

end Fragment

/-! ## The budget -/

namespace OutputBudget

theorem cmdline_foldl_grow (b : OutputBudget) (fs : List Fragment) :
    (fs.foldl grow b).cmdline = b.cmdline + (fs.map size).sum := by
  induction fs generalizing b with
  | nil => rfl
  | cons f fs ih =>
    rw [List.foldl_cons, ih]
    simp only [grow, List.map_cons, List.sum_cons]
    omega

theorem bootconfig_foldl_grow (b : OutputBudget) (fs : List Fragment) :
    (fs.foldl grow b).bootconfig
      = b.bootconfig + ((inBootconfig fs).map fun f => f.size + entryMargin).sum := by
  induction fs generalizing b with
  | nil => rfl
  | cons f fs ih =>
    rw [List.foldl_cons, ih]
    cases hf : f.destination with
    | cmdline => simp [grow, inBootconfig, hf]
    | bootconfig =>
      simp [grow, inBootconfig, hf]
      omega

/-- Every fragment is measured for the command line. -/
theorem cmdline_ofFragments (fs : List Fragment) :
    (ofFragments fs).cmdline = (fs.map size).sum := by
  rw [ofFragments, cmdline_foldl_grow]
  exact Nat.zero_add _

theorem bootconfig_ofFragments (fs : List Fragment) :
    (ofFragments fs).bootconfig
      = ((inBootconfig fs).map fun f => f.size + entryMargin).sum := by
  rw [ofFragments, bootconfig_foldl_grow]
  exact Nat.zero_add _

/-- What was measured has room. -/
theorem covers_ofFragments (fs : List Fragment) : (ofFragments fs).Covers fs where
  cmdline := by
    rw [cmdline_ofFragments, ← sum_size fs]
    exact Nat.le_add_right _ _
  bootconfig := by
    rw [bootconfig_ofFragments]
    exact sum_entrySize_le _

theorem Covers.of_append {b : OutputBudget} {fs gs : List Fragment} (h : b.Covers (fs ++ gs)) :
    b.Covers fs where
  cmdline := by
    have h := h.cmdline
    simp only [onCmdline_append, List.map_append, List.sum_append] at h
    omega
  bootconfig := by
    have h := h.bootconfig
    simp only [inBootconfig_append, List.map_append, List.sum_append] at h
    omega

end OutputBudget

/-! ## The writer -/

namespace OutputWriter

theorem holds_ofBudget (b : OutputBudget) : (ofBudget b).Holds [] := ⟨rfl, rfl, rfl⟩

/-- A fragment that the budget has room for is written. -/
theorem Holds.write {w : OutputWriter} {fs : List Fragment} {f : Fragment} (h : w.Holds fs)
    (hb : w.budget.Covers (fs ++ [f])) :
    ∃ w', w.write f = .ok w' ∧ w'.Holds (fs ++ [f]) ∧ w'.budget = w.budget := by
  cases hf : f.destination with
  | cmdline =>
    have hfits : w.cmdline.utf8ByteSize + f.size ≤ w.budget.cmdline := by
      have hroom := hb.cmdline
      rw [h.cmdline, utf8ByteSize_cmdline]
      simpa [onCmdline, hf] using hroom
    refine ⟨{ w with cmdline := w.cmdline ++ f.text }, ?_, ?_, rfl⟩
    · simp only [OutputWriter.write, hf]
      exact if_neg (Nat.not_lt.2 hfits)
    · exact
        { cmdline := by simp [onCmdline, hf, h.cmdline, String.join_append]
          entries := by simpa [inBootconfig, hf] using h.entries
          entriesSize := by simpa [inBootconfig, hf] using h.entriesSize }
  | bootconfig =>
    have hfits : w.entriesSize + f.entrySize ≤ w.budget.bootconfig := by
      have hroom := hb.bootconfig
      rw [h.entriesSize]
      simpa [inBootconfig, hf] using hroom
    refine ⟨{ w with
      entries := w.entries ++ [bootconfigEntry f.text]
      entriesSize := w.entriesSize + f.entrySize }, ?_, ?_, rfl⟩
    · simp only [OutputWriter.write, hf]
      exact if_neg (Nat.not_lt.2 hfits)
    · exact
        { cmdline := by simpa [onCmdline, hf] using h.cmdline
          entries := by simp [inBootconfig, hf, h.entries]
          entriesSize := by simp [inBootconfig, hf, h.entriesSize] }

/-- Fragments that the budget has room for are written, one after the other. -/
theorem Holds.foldlM_write {w : OutputWriter} {fs gs : List Fragment} (h : w.Holds fs)
    (hb : w.budget.Covers (fs ++ gs)) :
    ∃ w', gs.foldlM OutputWriter.write w = .ok w' ∧ w'.Holds (fs ++ gs) := by
  induction gs generalizing w fs with
  | nil => exact ⟨w, rfl, by simpa using h⟩
  | cons f gs ih =>
    rw [List.append_cons] at hb
    obtain ⟨w1, hw1, h1, hb1⟩ := h.write hb.of_append
    obtain ⟨w2, hw2, h2⟩ := ih h1 (hb1 ▸ hb)
    refine ⟨w2, ?_, by rwa [List.append_cons]⟩
    rw [List.foldlM_cons, hw1]
    exact hw2

theorem Holds.finish {w : OutputWriter} {fs : List Fragment} (h : w.Holds fs) :
    w.finish = BootOutputs.ofFragments fs := by
  rw [OutputWriter.finish, BootOutputs.ofFragments, h.cmdline, h.entries, List.isEmpty_map,
    List.map_map]
  rfl

end OutputWriter

/-! ## The outputs -/

namespace BootOutputs

theorem bootconfig_eq_none_iff {fs : List Fragment} :
    (ofFragments fs).bootconfig = none ↔ ∀ f ∈ fs, f.destination ≠ .bootconfig := by
  have hempty : (inBootconfig fs).isEmpty = true ↔ ∀ f ∈ fs, f.destination ≠ .bootconfig := by
    simp [inBootconfig, List.filter_eq_nil_iff]
  rw [← hempty, ofFragments]
  cases (inBootconfig fs).isEmpty <;> simp

theorem exists_bootconfig {fs : List Fragment} (h : inBootconfig fs ≠ []) :
    ∃ text, (ofFragments fs).bootconfig = some text := by
  rw [ofFragments, if_neg (h ∘ List.isEmpty_iff.1)]
  exact ⟨_, rfl⟩

theorem eq_of_bootconfig_eq_some {fs : List Fragment} {text : String}
    (h : (ofFragments fs).bootconfig = some text) :
    text = "\n" ++ String.join ((inBootconfig fs).map (bootconfigEntry ·.text ++ "\n")) := by
  rw [ofFragments] at h
  split at h
  · cases h
  · exact (Option.some.inj h).symm

/-- The command line is short of its total by what goes to the bootconfig. -/
theorem utf8ByteSize_cmdline_add (fs : List Fragment) :
    (ofFragments fs).cmdline.utf8ByteSize + ((inBootconfig fs).map size).sum
      = (OutputBudget.ofFragments fs).cmdline := by
  rw [OutputBudget.cmdline_ofFragments, ← sum_size fs, ofFragments, utf8ByteSize_cmdline]

/-- The bootconfig takes no more than its total, a line break in front of the entries and the zero
behind them. -/
theorem bootconfigSize_le (fs : List Fragment) :
    (ofFragments fs).bootconfigSize ≤ (OutputBudget.ofFragments fs).bootconfig + 2 := by
  rw [bootconfigSize]
  split
  · next text htext =>
    have hle := sum_entrySize_le (inBootconfig fs)
    have hbreak : "\n".utf8ByteSize = 1 := by decide
    rw [eq_of_bootconfig_eq_some htext, String.utf8ByteSize_append, utf8ByteSize_entries,
      OutputBudget.bootconfig_ofFragments, hbreak]
    omega
  · exact Nat.zero_le _

end BootOutputs

/-! ## Assembly -/

namespace Assembly

variable (request : BootRequest) (device : DeviceView)

/-- Assembly fails only where the fragments cannot be had, and else writes what they stand for. -/
theorem assemble_eq :
    assemble request device = (fragments request device).map BootOutputs.ofFragments := by
  rw [assemble]
  cases fragments request device with
  | error e => rfl
  | ok fs =>
    have hstart := OutputWriter.holds_ofBudget (OutputBudget.ofFragments fs)
    obtain ⟨w, hw, hholds⟩ := hstart.foldlM_write (OutputBudget.covers_ofFragments fs)
    show (fs.foldlM OutputWriter.write _ >>= fun w => pure w.finish) = _
    rw [hw]
    exact congrArg Except.ok hholds.finish

variable {request device}

theorem exists_of_assemble {outputs : BootOutputs} (hout : assemble request device = .ok outputs) :
    ∃ fs, fragments request device = .ok fs ∧ outputs = BootOutputs.ofFragments fs := by
  rw [assemble_eq] at hout
  cases hfs : fragments request device with
  | error e =>
    rw [hfs] at hout
    cases hout
  | ok fs =>
    rw [hfs] at hout
    exact ⟨fs, rfl, (Except.ok.inj hout).symm⟩

theorem fragments_of_noSerial (hserial : device.serialNumber = none) :
    fragments request device = .error .noSerialNumber := by
  rw [fragments, hserial]
  rfl

theorem fragments_of_noBaseband {serial : String} (hserial : device.serialNumber = some serial)
    (hbaseband : device.chipBaseband = none) :
    fragments request device = .error .noBaseband := by
  rw [fragments, hserial, hbaseband]
  rfl

theorem available_of_fragments {fs : List Fragment} (hfs : fragments request device = .ok fs) :
    ∃ serial baseband, device.serialNumber = some serial ∧
      device.chipBaseband = some baseband := by
  cases hserial : device.serialNumber with
  | none =>
    rw [fragments_of_noSerial hserial] at hfs
    cases hfs
  | some serial =>
    cases hbaseband : device.chipBaseband with
    | none =>
      rw [fragments_of_noBaseband hserial hbaseband] at hfs
      cases hfs
    | some baseband => exact ⟨serial, baseband, rfl, rfl⟩

theorem fragments_of_some {serial baseband : String} (hserial : device.serialNumber = some serial)
    (hbaseband : device.chipBaseband = some baseband) :
    fragments request device = .ok (rawCmdline request ++ verifiedBoot request
      ++ storage request device
      ++ [.keyed " androidboot.serialno=" serial request.headerVersion]
      ++ (BootMode.select request device).fragments request.headerVersion
      ++ [.keyed " androidboot.baseband=" (lowerCase baseband) request.headerVersion]
      ++ display request device ++ mdtp device ++ slot request device ++ root request device
      ++ indices request device ++ forceNormalBoot request device ++ leVerity request device
      ++ memory request device) := by
  rw [fragments, hserial, hbaseband]
  rfl

variable (request device)

/-- **Assembly.** It fails only for a serial number or a baseband that is not available, the serial
number first; no budget is too small. Otherwise the command line is the texts of its fragments, the
bootconfig the text of each of its own, without its spaces and with a line break behind it. What was
measured for the command line is its size and that of the fragments it is spared; with the zero that
closes it the bootconfig is at most four bytes longer than was measured. -/
theorem assemble_writes_fragments :
    (device.serialNumber = none → assemble request device = .error .noSerialNumber) ∧
    (device.serialNumber ≠ none → device.chipBaseband = none →
      assemble request device = .error .noBaseband) ∧
    (device.serialNumber ≠ none → device.chipBaseband ≠ none →
      ∃ fs outputs, fragments request device = .ok fs ∧ assemble request device = .ok outputs ∧
        outputs.cmdline = String.join ((onCmdline fs).map (·.text)) ∧
        (outputs.bootconfig = none ↔ ∀ f ∈ fs, f.destination ≠ .bootconfig) ∧
        (∀ text, outputs.bootconfig = some text →
          text = "\n" ++ String.join ((inBootconfig fs).map fun f =>
            String.ofList (f.text.toList.filter (· != ' ')) ++ "\n") ∧
          outputs.bootconfigSize = text.utf8ByteSize + 1) ∧
        outputs.cmdline.utf8ByteSize + ((inBootconfig fs).map (·.text.utf8ByteSize)).sum
          = (OutputBudget.ofFragments fs).cmdline ∧
        outputs.bootconfigSize ≤ (OutputBudget.ofFragments fs).bootconfig + 4) := by
  rw [assemble_eq]
  refine ⟨fun hserial => ?_, fun hserial hbaseband => ?_, fun hserial hbaseband => ?_⟩
  · rw [fragments_of_noSerial hserial]
    rfl
  · obtain ⟨serial, hserial⟩ := Option.ne_none_iff_exists'.1 hserial
    rw [fragments_of_noBaseband hserial hbaseband]
    rfl
  · obtain ⟨serial, hserial⟩ := Option.ne_none_iff_exists'.1 hserial
    obtain ⟨baseband, hbaseband⟩ := Option.ne_none_iff_exists'.1 hbaseband
    obtain ⟨fs, hfs⟩ : ∃ fs, fragments request device = .ok fs :=
      ⟨_, fragments_of_some hserial hbaseband⟩
    have hle := BootOutputs.bootconfigSize_le fs
    refine ⟨fs, BootOutputs.ofFragments fs, hfs, by rw [hfs]; rfl, rfl,
      BootOutputs.bootconfig_eq_none_iff, fun text htext => ?_,
      BootOutputs.utf8ByteSize_cmdline_add fs, by omega⟩
    exact ⟨BootOutputs.eq_of_bootconfig_eq_some htext, by rw [BootOutputs.bootconfigSize, htext]⟩

/-- A device that has what it must have. -/
def bareDevice : DeviceView where
  serialNumber := some "1"
  slotSuffix := none
  bootDevice := none
  rootDeviceType := none
  chipBaseband := some "msm"
  displayConfig := none
  memoryLimit _ := none
  dtboIndex := none
  dtbIndex := none
  leVerityCmdline _ := none
  pauseForBatteryCharge := false
  flags := .empty

/-- The spaces of a serial number are left out of the bootconfig; those of a command line stay. -/
theorem assemble_writes_fragments_spaced :
    let request : BootRequest := { rawCmdline := "ro quiet", headerVersion := 4 }
    let device : DeviceView := { bareDevice with serialNumber := some " 1 2" }
    ∃ outputs, assemble request device = .ok outputs ∧ outputs.cmdline = "ro quiet" ∧
      outputs.bootconfig = some ("\nandroidboot.serialno=12\nandroidboot.baseband=msm\n"
        ++ "androidboot.force_normal_boot=1\n") := by
  intro request device
  obtain ⟨fs, outputs, hfs, hout, hcmdline, hnone, htext, -⟩ :=
    (assemble_writes_fragments request device).2.2 (by decide) (by decide)
  obtain rfl := Except.ok.inj ((fragments_of_some rfl rfl).symm.trans hfs)
  refine ⟨outputs, hout, hcmdline.trans (by decide), ?_⟩
  cases hbootconfig : outputs.bootconfig with
  | none => exact absurd (hnone.1 hbootconfig) (by decide)
  | some text =>
    rw [(htext text hbootconfig).1]
    decide

end Assembly

end AndroidBoot
