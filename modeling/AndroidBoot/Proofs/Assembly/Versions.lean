import AndroidBoot.Proofs.Assembly.Slots
import AndroidBoot.Proofs.Text.Lines

/-!
# Header versions

The version of the header says where fragments go, and never which there are. Before there was a
bootconfig all of them are on the command line; since then some have moved: those with a key that
bears the mark, and of the texts of the display and of verified boot those that bear it somewhere.
Moving changes no text but that of verified boot, which gets its words on lines of their own.

    v ≤ 3 → s.fragment v = ⟨s.text, .cmdline⟩                                (fragment_of_legacy)
    3 < w → s.fragment w = ⟨s.movedText, .bootconfig⟩ if s.moves, else the same
                                                                         (fragment_of_bootconfig)
-/

namespace AndroidBoot

open Fragment

theorem belongsInBootconfig_of_legacy {version : Nat} (h : version ≤ lastLegacyVersion)
    (text : String) : belongsInBootconfig text version = false := by
  rw [belongsInBootconfig, decide_eq_false (Nat.not_lt.2 h), Bool.false_and]

theorem belongsInBootconfig_of_lt {version : Nat} (h : lastLegacyVersion < version)
    (text : String) :
    belongsInBootconfig text version = holds androidBootMark.toList text.toList := by
  rw [belongsInBootconfig, decide_eq_true h, Bool.true_and]

namespace Source

/-- The text of a source on the command line. -/
def text : Source → String
  | plain text => text
  | keyed key value => key ++ value
  | routed text => text
  | verifiedBoot text => text

/-- Whether a source goes to the bootconfig where there is one. A key is asked for the mark, and
where there is none the whole text. -/
def moves : Source → Bool
  | plain _ => false
  | keyed key _ => holds androidBootMark.toList key.toList
  | routed text => holds androidBootMark.toList text.toList
  | verifiedBoot text => holds androidBootMark.toList text.toList

/-- The text of a source in the bootconfig. -/
def movedText : Source → String
  | verifiedBoot text => String.ofList (breakRuns (trim text.toList))
  | s => s.text

/-- The fragment of a source where there is a bootconfig. -/
def movedFragment (s : Source) : Fragment :=
  if s.moves then ⟨s.movedText, .bootconfig⟩ else ⟨s.text, .cmdline⟩

theorem fragment_of_legacy {version : Nat} (h : version ≤ lastLegacyVersion) (s : Source) :
    s.fragment version = ⟨s.text, .cmdline⟩ := by
  cases s with
  | plain text => rfl
  | keyed key value =>
    rw [fragment, Fragment.keyed, route, belongsInBootconfig_of_legacy h]
    rfl
  | routed text =>
    rw [fragment, Fragment.routed, route, belongsInBootconfig_of_legacy h]
    rfl
  | verifiedBoot text =>
    rw [fragment, Fragment.verifiedBoot, belongsInBootconfig_of_legacy h]
    rfl

theorem fragment_of_bootconfig {version : Nat} (h : lastLegacyVersion < version) (s : Source) :
    s.fragment version = s.movedFragment := by
  cases s with
  | plain text => rfl
  | keyed key value =>
    rw [fragment, Fragment.keyed, route, belongsInBootconfig_of_lt h, movedFragment, moves]
    split <;> rfl
  | routed text =>
    rw [fragment, Fragment.routed, route, belongsInBootconfig_of_lt h, movedFragment, moves]
    split <;> rfl
  | verifiedBoot text =>
    have hlines : wordLines text = movedText (.verifiedBoot text) := by
      rw [← String.toList_inj, toList_wordLines, movedText, String.toList_ofList]
    rw [fragment, Fragment.verifiedBoot, belongsInBootconfig_of_lt h, hlines]
    rfl

end Source

section

variable {v w : Nat} (ss : List Source)

theorem map_fragment_of_legacy (h : v ≤ lastLegacyVersion) :
    ss.map (·.fragment v) = ss.map fun s => ⟨s.text, .cmdline⟩ :=
  List.map_congr_left fun s _ => s.fragment_of_legacy h

theorem map_fragment_of_bootconfig (h : lastLegacyVersion < v) :
    ss.map (·.fragment v) = ss.map (·.movedFragment) :=
  List.map_congr_left fun s _ => s.fragment_of_bootconfig h

/-- On the same side of the first bootconfig a source becomes the same fragment. -/
theorem map_fragment_congr (h : v ≤ lastLegacyVersion ↔ w ≤ lastLegacyVersion) :
    ss.map (·.fragment v) = ss.map (·.fragment w) := by
  by_cases hv : v ≤ lastLegacyVersion
  · rw [map_fragment_of_legacy ss hv, map_fragment_of_legacy ss (h.1 hv)]
  · have hw : ¬ w ≤ lastLegacyVersion := fun hw => hv (h.2 hw)
    rw [map_fragment_of_bootconfig ss (Nat.not_le.1 hv),
      map_fragment_of_bootconfig ss (Nat.not_le.1 hw)]

end

/-! ## The outputs -/

theorem inBootconfig_of_legacy (ss : List Source) :
    inBootconfig (ss.map fun s => ⟨s.text, .cmdline⟩) = [] := by
  rw [inBootconfig, List.filter_eq_nil_iff, List.forall_mem_map]
  intro s _ hmoved
  cases hmoved

theorem onCmdline_of_legacy (ss : List Source) :
    (onCmdline (ss.map fun s => ⟨s.text, .cmdline⟩)).map (·.text) = ss.map (·.text) := by
  have hall : onCmdline (ss.map fun s => ⟨s.text, .cmdline⟩)
      = ss.map fun s => ⟨s.text, .cmdline⟩ := by
    rw [onCmdline, List.filter_eq_self, List.forall_mem_map]
    exact fun s _ => rfl
  rw [hall, List.map_map]
  rfl

/-- The command line keeps the sources that do not move, with their texts. -/
theorem onCmdline_of_bootconfig (ss : List Source) :
    (onCmdline (ss.map (·.movedFragment))).map (·.text)
      = (ss.filter (!·.moves)).map (·.text) := by
  induction ss with
  | nil => rfl
  | cons s ss ih =>
    cases h : s.moves with
    | true => simpa [onCmdline, Source.movedFragment, h] using ih
    | false => simpa [onCmdline, Source.movedFragment, h] using ih

namespace Assembly

section

variable (request : BootRequest) (device : DeviceView)

theorem assemble_at (version : Nat) :
    assemble { request with headerVersion := version } device
      = (checkAvailable device).map fun _ =>
        BootOutputs.ofFragments ((sources request device).map (·.fragment version)) := by
  rw [assemble_eq, fragments_at]
  cases checkAvailable device <;> rfl

/-- The command line of the image, the init program and dm-verity are never asked for the mark. -/
theorem moves_of_plain_slot {slot : Slot} (hslot : slot ∈ [Slot.rawCmdline, .rootInit, .leVerity])
    {s : Source} (hs : source request device slot = some s) : s.moves = false := by
  simp only [List.mem_cons, List.not_mem_nil, or_false] at hslot
  rcases hslot with rfl | rfl | rfl
  · rw [source] at hs
    split at hs
    · cases hs
    · cases hs
      rfl
  · rw [source] at hs
    split at hs
    · cases hs
      rfl
    · cases hs
  · rw [source] at hs
    split at hs
    · obtain ⟨text, -, rfl⟩ := Option.map_eq_some_iff.1 hs
      rfl
    · cases hs

/-- **Header versions.** Versions on the same side of the first bootconfig are assembled to the same
outputs. Across it the fragments are made of the same sources, one by one: in front of it all are on
the command line with their texts; behind it the sources that move are in the bootconfig, and the
command line is what it was without their texts. -/
theorem fragments_across_versions :
    (∀ v w, (v ≤ lastLegacyVersion ↔ w ≤ lastLegacyVersion) →
      assemble { request with headerVersion := v } device
        = assemble { request with headerVersion := w } device) ∧
    (∀ slot ∈ [Slot.rawCmdline, .rootInit, .leVerity], ∀ s,
      source request device slot = some s → s.moves = false) ∧
    ∀ v w, v ≤ lastLegacyVersion → lastLegacyVersion < w →
      (∀ e, fragments { request with headerVersion := v } device = .error e ↔
        fragments { request with headerVersion := w } device = .error e) ∧
      ∀ fs, fragments { request with headerVersion := v } device = .ok fs →
        ∃ gs outputs outputs',
          fragments { request with headerVersion := w } device = .ok gs ∧
          assemble { request with headerVersion := v } device = .ok outputs ∧
          assemble { request with headerVersion := w } device = .ok outputs' ∧
          gs.length = fs.length ∧
          fs = (sources request device).map (fun s => ⟨s.text, .cmdline⟩) ∧
          gs = (sources request device).map (fun s =>
            if s.moves then ⟨s.movedText, .bootconfig⟩ else ⟨s.text, .cmdline⟩) ∧
          outputs.bootconfig = none ∧
          outputs.cmdline = String.join ((sources request device).map (·.text)) ∧
          outputs'.cmdline
            = String.join (((sources request device).filter (!·.moves)).map (·.text)) := by
  refine ⟨?_, fun slot hslot s => moves_of_plain_slot request device hslot, ?_⟩
  · intro v w hsame
    rw [assemble_at, assemble_at, map_fragment_congr _ hsame]
  · intro v w hv hw
    rw [fragments_at, fragments_at, assemble_at, assemble_at, map_fragment_of_legacy _ hv,
      map_fragment_of_bootconfig _ hw]
    cases checkAvailable device with
    | error e => exact ⟨fun e' => Iff.rfl, nofun⟩
    | ok u =>
      refine ⟨fun e => ⟨nofun, nofun⟩, ?_⟩
      rintro fs ⟨⟩
      refine ⟨_, _, _, rfl, rfl, rfl, ?_, rfl, rfl, ?_, ?_, ?_⟩
      · rw [List.length_map, List.length_map]
      · rw [BootOutputs.ofFragments, inBootconfig_of_legacy]
        rfl
      · rw [BootOutputs.ofFragments, onCmdline_of_legacy]
      · rw [BootOutputs.ofFragments, onCmdline_of_bootconfig]

end

/-- A request with a text of verified boot that has a blank in front. -/
def blankRequest : BootRequest where
  verifiedBootCmdline := some " androidboot.a=1"
  headerVersion := 4

/-- Moving does not put a line break for every run of blanks: the one in front of the text of
verified boot is dropped, as an empty line would stand there. -/
theorem not_text_eq_breakRuns :
    ¬ ∀ (request : BootRequest) (device : DeviceView) (v w : Nat) (fs gs : List Fragment),
        v ≤ lastLegacyVersion → lastLegacyVersion < w →
        fragments { request with headerVersion := v } device = .ok fs →
        fragments { request with headerVersion := w } device = .ok gs →
        ∀ (i : Nat) (f g : Fragment), fs[i]? = some f → gs[i]? = some g →
          g.text.toList = f.text.toList ∨ g.text.toList = breakRuns f.text.toList := by
  intro hall
  have hlegacy : fragments { blankRequest with headerVersion := 3 } bareDevice
      = .ok ((sources blankRequest bareDevice).map fun s => ⟨s.text, .cmdline⟩) := by
    rw [fragments_at, map_fragment_of_legacy _ (by decide)]
    rfl
  have hmoved : fragments { blankRequest with headerVersion := 4 } bareDevice
      = .ok ((sources blankRequest bareDevice).map (·.movedFragment)) := by
    rw [fragments_at, map_fragment_of_bootconfig _ (by decide)]
    rfl
  have hchars := hall _ _ 3 4 _ _ (by decide) (by decide) hlegacy hmoved 0
    ⟨" androidboot.a=1", .cmdline⟩
    ⟨Source.movedText (.verifiedBoot " androidboot.a=1"), .bootconfig⟩ rfl rfl
  rw [Source.movedText, String.toList_ofList] at hchars
  revert hchars
  decide

end Assembly

end AndroidBoot
