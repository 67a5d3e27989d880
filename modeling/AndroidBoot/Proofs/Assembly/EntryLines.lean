import AndroidBoot.Proofs.Assembly.Versions
import AndroidBoot.Proofs.Number.Digits

/-!
# Lines of the bootconfig

The bootconfig is meant to hold an entry a line, and a line for each word of the text of verified
boot. An entry is a text without its spaces, and a space is not the only blank: a line break stays,
and cuts the entry in two. No text that assembly makes itself has one; a value of the device has
whatever the device says, and its lines may then be read as parameters of their own.

    linesOf (the bootconfig without its outer line breaks) = the lines of its entries
                                                                          (linesOf_bootconfig)
    each entry is its own line  ↔  no value in the bootconfig has a line break
                                                                      (lines_bootconfig_iff)
-/

namespace AndroidBoot

open Fragment

namespace Source

/-- The lines that a source is meant to have in the bootconfig. -/
def lines : Source → List (List Char)
  | verifiedBoot text => words text.toList
  | s => [s.text.toList.filter (· != ' ')]

/-- Whether there is a line break in a text that is meant to be one line. -/
def breaksLine : Source → Bool
  | verifiedBoot _ => false
  | s => s.text.toList.contains '\n'

/-- The lines that a source has in the bootconfig. -/
def entryLines (s : Source) : List (List Char) :=
  linesOf (bootconfigEntry s.movedText).toList

/-! ## One source -/

/-- What goes to the bootconfig has a mark, which is not all spaces. -/
theorem mem_of_holds_mark {cs : List Char} (h : holds androidBootMark.toList cs = true) :
    'a' ∈ cs := by
  obtain ⟨before, after, rfl⟩ := holds_iff.1 h
  apply List.mem_append_left
  apply List.mem_append_right
  decide

theorem mem_text_of_moves {s : Source} (h : s.moves = true) : 'a' ∈ s.text.toList := by
  cases s with
  | plain text => cases h
  | keyed key value =>
    rw [text, String.toList_append]
    exact List.mem_append_left _ (mem_of_holds_mark h)
  | routed text => exact mem_of_holds_mark h
  | verifiedBoot text => exact mem_of_holds_mark h

theorem toList_bootconfigEntry (text : String) :
    (bootconfigEntry text).toList = text.toList.filter (· != ' ') :=
  String.toList_ofList

theorem mem_entry_iff (text : String) :
    '\n' ∈ text.toList.filter (· != ' ') ↔ '\n' ∈ text.toList := by
  rw [List.mem_filter]
  exact and_iff_left (by decide)

/-- A source that is not the text of verified boot is meant to be one line. -/
theorem verifiedBoot_or_single (s : Source) :
    (∃ text, s = verifiedBoot text) ∨
      (s.lines = [s.text.toList.filter (· != ' ')] ∧ s.movedText = s.text ∧
        (s.breaksLine = true ↔ '\n' ∈ s.text.toList)) := by
  cases s with
  | plain text => exact .inr ⟨rfl, rfl, List.contains_iff_mem⟩
  | keyed key value => exact .inr ⟨rfl, rfl, List.contains_iff_mem⟩
  | routed text => exact .inr ⟨rfl, rfl, List.contains_iff_mem⟩
  | verifiedBoot text => exact .inl ⟨text, rfl⟩

/-- Without a line break in it a source has the lines it is meant to have. -/
theorem entryLines_eq {s : Source} (hmoves : s.moves = true) (h : s.breaksLine = false) :
    s.entryLines = s.lines := by
  rw [entryLines, toList_bootconfigEntry]
  rcases s.verifiedBoot_or_single with ⟨text, rfl⟩ | ⟨hlines, htext, hbreaks⟩
  · have hwords : words text.toList ≠ [] :=
      words_ne_nil_of_mem (by decide) (mem_of_holds_mark hmoves)
    rw [movedText, String.toList_ofList, ← toList_wordLines, filter_wordLines,
      linesOf_wordLines hwords]
    rfl
  · rw [htext, hlines]
    apply linesOf_of_not_mem
    rw [mem_entry_iff, ← hbreaks, h]
    exact Bool.false_ne_true

theorem exists_mem_lines_of_breaksLine {s : Source} (h : s.breaksLine = true) :
    ∃ line ∈ s.lines, '\n' ∈ line := by
  rcases s.verifiedBoot_or_single with ⟨text, rfl⟩ | ⟨hlines, -, hbreaks⟩
  · cases h
  · rw [hlines]
    exact ⟨_, List.mem_singleton_self _, (mem_entry_iff _).2 (hbreaks.1 h)⟩

theorem ne_nil_of_mem_lines {s : Source} (hmoves : s.moves = true) {line : List Char}
    (h : line ∈ s.lines) : line ≠ [] := by
  rcases s.verifiedBoot_or_single with ⟨text, rfl⟩ | ⟨hlines, -, -⟩
  · exact ne_nil_of_mem_words h
  · rw [hlines] at h
    have hmem : 'a' ∈ line := by
      rw [List.mem_singleton.1 h, List.mem_filter]
      exact ⟨mem_text_of_moves hmoves, by decide⟩
    exact List.ne_nil_of_mem hmem

end Source

/-! ## The bootconfig -/

/-- The entries stand between line breaks, with one in front and one behind. -/
theorem toList_bootconfig {fs : List Fragment} {text : String}
    (h : (BootOutputs.ofFragments fs).bootconfig = some text) :
    inBootconfig fs ≠ [] ∧ text.toList = '\n' ::
      (['\n'].intercalate ((inBootconfig fs).map fun f => (bootconfigEntry f.text).toList)
        ++ ['\n']) := by
  have hfilled : inBootconfig fs ≠ [] := by
    intro hempty
    rw [BootOutputs.ofFragments, hempty] at h
    cases h
  refine ⟨hfilled, ?_⟩
  rw [BootOutputs.eq_of_bootconfig_eq_some h, ← flatMap_line_eq_intercalate _ hfilled,
    String.toList_append, String.toList_join, List.flatMap_map]
  simp only [String.toList_append]
  rfl

/-- The lines of the bootconfig are those of its entries. -/
theorem linesOf_bootconfig {fs : List Fragment} {text : String}
    (h : (BootOutputs.ofFragments fs).bootconfig = some text) :
    ∃ body, text.toList = '\n' :: (body ++ ['\n']) ∧
      linesOf body
        = (inBootconfig fs).flatMap fun f => linesOf (bootconfigEntry f.text).toList := by
  obtain ⟨hfilled, htext⟩ := toList_bootconfig h
  refine ⟨_, htext, ?_⟩
  rw [linesOf_intercalate, List.flatMap_map]
  rwa [ne_eq, List.map_eq_nil_iff]

namespace Assembly

section

variable (request : BootRequest) (device : DeviceView)

/-- The sources of the bootconfig. -/
def movedSources : List Source :=
  (sources request device).filter fun s =>
    (s.fragment request.headerVersion).destination = .bootconfig

/-- The facts whose values can break a line. -/
def breakableSlots : List Slot :=
  [.bootDevice, .bootDevices, .serialNumber, .mode, .baseband, .display, .slotSuffix]

theorem fstabSuffix_eq (rootDeviceType : Option String) :
    fstabSuffix rootDeviceType = "emmc" ∨ fstabSuffix rootDeviceType = "default" := by
  unfold fstabSuffix
  split
  · exact .inl rfl
  · exact .inr rfl

theorem breaksLine_keyed_toString {key : String} (hkey : '\n' ∉ key.toList) (n : Nat) :
    (Source.keyed key (toString n)).breaksLine = false := by
  have hdigits : ∀ c ∈ (toString n).toList, c ≠ '\n' := by
    rw [Nat.toString_eq_repr, Nat.toList_repr]
    exact forall_mem_toDigits (p := (· ≠ '\n')) (by decide) (by decide) n
  show (key ++ toString n).toList.contains '\n' = false
  rw [String.toList_append, ← Bool.not_eq_true, List.contains_iff_mem, List.mem_append]
  rintro (h | h)
  · exact hkey h
  · exact hdigits _ h rfl

/-- Whatever else goes to the bootconfig is free of line breaks. -/
theorem breaksLine_eq_false {slot : Slot} (hslot : slot ∉ breakableSlots) {s : Source}
    (hs : source request device slot = some s) (hmoves : s.moves = true) :
    s.breaksLine = false := by
  cases slot
  case bootDevice | bootDevices | serialNumber | mode | baseband | display | slotSuffix =>
    exact absurd (by decide) hslot
  case verifiedBoot =>
    obtain ⟨text, -, rfl⟩ := Option.map_eq_some_iff.1 hs
    rfl
  case fstabSuffix =>
    obtain ⟨name, -, rfl⟩ := Option.map_eq_some_iff.1 hs
    rcases fstabSuffix_eq device.rootDeviceType with h | h
    · rw [h]
      decide
    · rw [h]
      decide
  case dtboIndex | dtbIndex =>
    rw [source] at hs
    split at hs
    · cases hs
    · obtain ⟨n, -, rfl⟩ := Option.map_eq_some_iff.1 hs
      exact breaksLine_keyed_toString (by decide) _
  case forceNormalBoot =>
    rw [source] at hs
    split at hs
    · cases hs
      decide
    · cases hs
  -- the others go to the command line
  case rawCmdline | rootInit | leVerity =>
    rw [moves_of_plain_slot request device (by decide) hs] at hmoves
    cases hmoves
  case quiet | mdtp | skipInitramfs =>
    rw [source] at hs
    split at hs
    · cases hs
      cases hmoves
    · cases hs
  case memoryLimit | memoryOnline | movableNode =>
    obtain ⟨limit, -, rfl⟩ := Option.map_eq_some_iff.1 hs
    cases hmoves

theorem destination_fragment {version : Nat} (h : lastLegacyVersion < version) (s : Source) :
    (s.fragment version).destination = .bootconfig ↔ s.moves = true := by
  rw [s.fragment_of_bootconfig h, Source.movedFragment]
  cases s.moves with
  | true => exact iff_of_true rfl rfl
  | false =>
    apply iff_of_false
    · intro h
      cases h
    · exact Bool.false_ne_true

theorem moves_of_mem_movedSources (hversion : lastLegacyVersion < request.headerVersion)
    {s : Source}
    (hs : s ∈ movedSources request device) : s.moves = true :=
  (destination_fragment hversion s).1 (of_decide_eq_true (List.mem_filter.1 hs).2)

/-- The bootconfig has the lines of the sources that go there. -/
theorem flatMap_entryLines (hversion : lastLegacyVersion < request.headerVersion) :
    (inBootconfig ((sources request device).map (·.fragment request.headerVersion))).flatMap
        (fun f => linesOf (bootconfigEntry f.text).toList)
      = (movedSources request device).flatMap Source.entryLines := by
  rw [inBootconfig, List.filter_map, List.flatMap_map]
  apply List.flatMap_congr
  intro s hs
  have hmoves := moves_of_mem_movedSources request device hversion hs
  rw [s.fragment_of_bootconfig hversion, Source.movedFragment, if_pos hmoves]
  rfl

/-- The lines are those that are meant exactly if no text breaks a line. -/
theorem entryLines_eq_lines_iff {ss : List Source} (hmoves : ∀ s ∈ ss, s.moves = true)
    {body : List Char} (hbody : linesOf body = ss.flatMap Source.entryLines) :
    linesOf body = ss.flatMap Source.lines ↔ ∀ s ∈ ss, s.breaksLine = false := by
  constructor
  · intro heq s hs
    apply Bool.eq_false_iff.2
    intro hbreaks
    obtain ⟨line, hline, hmem⟩ := Source.exists_mem_lines_of_breaksLine hbreaks
    have hin : line ∈ linesOf body := by
      rw [heq]
      exact List.mem_flatMap.2 ⟨s, hs, hline⟩
    exact not_mem_of_mem_linesOf hin hmem
  · intro hbreaks
    rw [hbody]
    apply List.flatMap_congr
    intro s hs
    exact Source.entryLines_eq (hmoves s hs) (hbreaks s hs)

/-- **Lines of the bootconfig.** The bootconfig has a line for each of its entries, and one for each
word of the text of verified boot, exactly if no value that goes there has a line break. Those that
can have one are the boot device, the serial number, the mode, the baseband, the configuration of
the display and the suffix of the slot. -/
theorem lines_bootconfig_iff {fs : List Fragment}
    (hversion : lastLegacyVersion < request.headerVersion)
    (hfs : fragments request device = .ok fs) :
    fs = (sources request device).map (·.fragment request.headerVersion) ∧
    (∀ slot ∉ breakableSlots, ∀ s, source request device slot = some s →
      s ∈ movedSources request device → s.breaksLine = false) ∧
    (∀ s ∈ movedSources request device, ∀ line ∈ s.lines, line ≠ []) ∧
    ∃ outputs, assemble request device = .ok outputs ∧
      ∀ text, outputs.bootconfig = some text →
        ∃ body, text.toList = '\n' :: (body ++ ['\n']) ∧
          (linesOf body = (movedSources request device).flatMap Source.lines ↔
            ∀ s ∈ movedSources request device, s.breaksLine = false) := by
  have hmoves : ∀ s ∈ movedSources request device, s.moves = true :=
    fun s => moves_of_mem_movedSources request device hversion
  obtain ⟨serial, baseband, hserial, hbaseband⟩ := available_of_fragments hfs
  have hall : fs = (sources request device).map (·.fragment request.headerVersion) :=
    Except.ok.inj (hfs.symm.trans (fragments_of_sources request device hserial hbaseband))
  refine ⟨hall, fun slot hslot s hs hmem => ?_, fun s hs line hline => ?_,
    BootOutputs.ofFragments fs, by rw [assemble_eq, hfs]; rfl, fun text htext => ?_⟩
  · exact breaksLine_eq_false request device hslot hs (hmoves s hmem)
  · exact Source.ne_nil_of_mem_lines (hmoves s hs) hline
  · obtain ⟨body, hbody, hlines⟩ := linesOf_bootconfig htext
    rw [hall, flatMap_entryLines request device hversion] at hlines
    exact ⟨body, hbody, entryLines_eq_lines_iff hmoves hlines⟩

end

/-- A device with a serial number, and a display configuration with spaces. -/
def spacedDevice (serial : String) : DeviceView :=
  { bareDevice with
    serialNumber := some serial
    displayConfig := some "androidboot.display = a" }

/-- A request with a text of verified boot that has a tab between its words. -/
def tabbedRequest : BootRequest where
  verifiedBootCmdline := some "androidboot.a=1\tb=2"
  headerVersion := 4

theorem fragments_tabbedRequest (serial : String) :
    fragments tabbedRequest (spacedDevice serial)
      = .ok ((sources tabbedRequest (spacedDevice serial)).map (·.fragment 4)) :=
  fragments_of_sources tabbedRequest (spacedDevice serial) rfl rfl

theorem assemble_tabbedRequest (serial : String) :
    ∃ outputs text, assemble tabbedRequest (spacedDevice serial) = .ok outputs ∧
      outputs.bootconfig = some text := by
  have hout : assemble tabbedRequest (spacedDevice serial) = .ok (BootOutputs.ofFragments
      ((sources tabbedRequest (spacedDevice serial)).map (·.fragment 4))) := by
    rw [assemble_eq, fragments_tabbedRequest]
    rfl
  exact ⟨_, _, hout, rfl⟩

/-- Without a line break in the serial number there is a line for every entry. -/
theorem lines_bootconfig_of_spaces :
    let device := spacedDevice "1"
    lastLegacyVersion < tabbedRequest.headerVersion ∧
    fragments tabbedRequest device
      = .ok ((sources tabbedRequest device).map (·.fragment 4)) ∧
    ∃ outputs text body, assemble tabbedRequest device = .ok outputs ∧
      outputs.bootconfig = some text ∧ text.toList = '\n' :: (body ++ ['\n']) ∧
      linesOf body = ["androidboot.a=1".toList, "b=2".toList, "androidboot.serialno=1".toList,
        "androidboot.baseband=msm".toList, "androidboot.display=a".toList,
        "androidboot.force_normal_boot=1".toList] := by
  intro device
  refine ⟨by decide, fragments_tabbedRequest "1", ?_⟩
  obtain ⟨outputs, text, hout, htext⟩ := assemble_tabbedRequest "1"
  obtain ⟨-, -, -, outputs', hout', hlines⟩ :=
    lines_bootconfig_iff tabbedRequest (spacedDevice "1") (by decide) (fragments_tabbedRequest "1")
  obtain rfl := Except.ok.inj (hout.symm.trans hout')
  obtain ⟨body, hbody, hiff⟩ := hlines text htext
  refine ⟨outputs, text, body, hout, htext, hbody, ?_⟩
  rw [hiff.2 (by decide)]
  decide

/-- A serial number with a line break gets a line in the bootconfig that no entry stands for. -/
theorem not_linesOf_bootconfig_eq :
    ¬ ∀ request device fs outputs text, lastLegacyVersion < request.headerVersion →
        fragments request device = .ok fs → assemble request device = .ok outputs →
        outputs.bootconfig = some text →
        ∃ body, text.toList = '\n' :: (body ++ ['\n']) ∧
          linesOf body = (movedSources request device).flatMap Source.lines := by
  intro hall
  obtain ⟨outputs, text, hout, htext⟩ := assemble_tabbedRequest "1\nandroidboot.x=2"
  obtain ⟨body, -, heq⟩ :=
    hall _ _ _ outputs text (by decide) (fragments_tabbedRequest _) hout htext
  have hmem : "androidboot.serialno=1\nandroidboot.x=2".toList ∈ linesOf body := by
    rw [heq]
    decide
  exact not_mem_of_mem_linesOf hmem (by decide)

end Assembly

end AndroidBoot
