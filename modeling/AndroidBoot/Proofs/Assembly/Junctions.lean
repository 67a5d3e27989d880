import AndroidBoot.Proofs.Assembly.Outputs
import AndroidBoot.Proofs.Text.Words

/-!
# Where fragments meet

The command line is its fragments with nothing between them, so that each has to bring the blank in
front of it. Those that assembly makes do, and a display configuration is given one. The texts of
verified boot and of dm-verity are taken as they are: where such a text starts with a word and comes
directly behind a word, the two become one.

    a fragment behind the raw command line is one of those two or leads with a blank
                                                                        (exists_of_fragments)
    the words of the command line are those of its fragments  ↔  neither of the two runs together
                                                                        (words_cmdline_iff)
-/

namespace AndroidBoot

/-- Whether a text has a blank in front. -/
def LeadsWithBlank (text : String) : Prop := text.toList.head? = some ' '

instance (text : String) : Decidable (LeadsWithBlank text) :=
  inferInstanceAs (Decidable (text.toList.head? = some ' '))

theorem LeadsWithBlank.append {text : String} (h : LeadsWithBlank text) (rest : String) :
    LeadsWithBlank (text ++ rest) := by
  rw [LeadsWithBlank, String.toList_append, List.head?_append, h]
  rfl

theorem LeadsWithBlank.startsWord_eq {text : String} (h : LeadsWithBlank text) :
    startsWord text.toList = false := by
  rw [startsWord, h]
  decide

theorem Fragment.keyed_leadsWithBlank {key : String} (hkey : LeadsWithBlank key) (value : String)
    (version : Nat) : LeadsWithBlank (keyed key value version).text := hkey.append value

open Fragment

/-! ## The parts of the list -/

theorem BootMode.leadsWithBlank (mode : BootMode) (version : Nat) :
    ∀ f ∈ mode.fragments version, LeadsWithBlank f.text := by
  cases mode with
  | fastboot mode =>
    simp only [fragments, List.forall_mem_cons]
    exact ⟨keyed_leadsWithBlank (by decide) _ _, by decide, nofun⟩
  | charger =>
    rw [fragments, List.forall_mem_singleton]
    exact keyed_leadsWithBlank (by decide) _ _
  | alarm =>
    rw [fragments, List.forall_mem_singleton]
    exact keyed_leadsWithBlank (by decide) _ _
  | normal => nofun

namespace Assembly

section

variable (request : BootRequest) (device : DeviceView)

theorem storage_leadsWithBlank : ∀ f ∈ storage request device, LeadsWithBlank f.text := by
  unfold storage
  split
  · split
    · simp only [List.forall_mem_append, List.forall_mem_cons]
      exact ⟨⟨keyed_leadsWithBlank (by decide) _ _, keyed_leadsWithBlank (by decide) _ _, nofun⟩,
        keyed_leadsWithBlank (by decide) _ _, nofun⟩
    · simp only [List.append_nil, List.forall_mem_cons]
      exact ⟨keyed_leadsWithBlank (by decide) _ _, keyed_leadsWithBlank (by decide) _ _, nofun⟩
  · nofun

theorem display_leadsWithBlank : ∀ f ∈ display request device, LeadsWithBlank f.text := by
  unfold display
  split
  · next config _ =>
    rw [List.forall_mem_singleton]
    show LeadsWithBlank (if config.toList.head? = some ' ' then config else " " ++ config)
    split
    · next h => exact h
    · exact LeadsWithBlank.append (by decide) config
  · nofun

theorem mdtp_leadsWithBlank : ∀ f ∈ mdtp device, LeadsWithBlank f.text := by
  unfold mdtp
  split
  · rw [List.forall_mem_singleton]
    decide
  · nofun

theorem slot_leadsWithBlank : ∀ f ∈ slot request device, LeadsWithBlank f.text := by
  unfold slot
  split
  · split
    · rw [List.forall_mem_singleton]
      exact keyed_leadsWithBlank (by decide) _ _
    · nofun
  · nofun

theorem root_leadsWithBlank : ∀ f ∈ root request device, LeadsWithBlank f.text := by
  unfold root
  split
  · split
    · rw [List.forall_mem_append, List.forall_mem_singleton, List.forall_mem_singleton]
      exact ⟨by decide, LeadsWithBlank.append (by decide) _⟩
    · rw [List.nil_append, List.forall_mem_singleton]
      exact LeadsWithBlank.append (by decide) _
  · nofun

theorem index_leadsWithBlank {key : String} (hkey : LeadsWithBlank key) (n : Option UInt32) :
    ∀ f ∈ index request key n, LeadsWithBlank f.text := by
  cases n with
  | none => nofun
  | some n =>
    rw [index, List.forall_mem_singleton]
    exact hkey.append _

theorem indices_leadsWithBlank : ∀ f ∈ indices request device, LeadsWithBlank f.text := by
  unfold indices
  split
  · nofun
  · rw [List.forall_mem_append]
    exact ⟨index_leadsWithBlank request (by decide) _, index_leadsWithBlank request (by decide) _⟩

theorem forceNormalBoot_leadsWithBlank :
    ∀ f ∈ forceNormalBoot request device, LeadsWithBlank f.text := by
  unfold forceNormalBoot
  extract_lets
  split
  · rw [List.forall_mem_singleton]
    exact keyed_leadsWithBlank (by decide) _ _
  · nofun

theorem memory_leadsWithBlank : ∀ f ∈ memory request device, LeadsWithBlank f.text := by
  unfold memory
  split
  · nofun
  · split
    · simp only [List.forall_mem_cons]
      exact ⟨.append (.append (by decide) _) _, by decide, by decide, nofun⟩
    · nofun

end

/-! ## The command line -/

section

variable {request : BootRequest} {device : DeviceView} {fs : List Fragment}

/-- Behind the raw command line, two fragments may lack the blank in front. -/
theorem exists_of_fragments (hfs : fragments request device = .ok fs) :
    ∃ rest, fs = rawCmdline request ++ rest ∧
      ∀ f ∈ rest, f ∈ verifiedBoot request ++ leVerity request device ∨ LeadsWithBlank f.text := by
  obtain ⟨serial, baseband, hserial, hbaseband⟩ := available_of_fragments hfs
  rw [fragments_of_some hserial hbaseband] at hfs
  obtain rfl := Except.ok.inj hfs
  simp only [List.append_assoc]
  refine ⟨_, rfl, ?_⟩
  simp only [List.forall_mem_append, List.forall_mem_singleton]
  exact ⟨fun f hf => .inl (List.mem_append_left _ hf),
    fun f hf => .inr (storage_leadsWithBlank request device f hf),
    .inr (keyed_leadsWithBlank (by decide) serial _),
    fun f hf => .inr (BootMode.leadsWithBlank _ _ f hf),
    .inr (keyed_leadsWithBlank (by decide) (lowerCase baseband) _),
    fun f hf => .inr (display_leadsWithBlank request device f hf),
    fun f hf => .inr (mdtp_leadsWithBlank device f hf),
    fun f hf => .inr (slot_leadsWithBlank request device f hf),
    fun f hf => .inr (root_leadsWithBlank request device f hf),
    fun f hf => .inr (indices_leadsWithBlank request device f hf),
    fun f hf => .inr (forceNormalBoot_leadsWithBlank request device f hf),
    fun f hf => .inl (List.mem_append_right _ hf),
    fun f hf => .inr (memory_leadsWithBlank request device f hf)⟩

/-- A fragment with another one in front of it is not the raw command line. -/
theorem mem_or_leadsWithBlank (hfs : fragments request device = .ok fs) {g f : Fragment}
    {left right : List Fragment} (hsplit : onCmdline fs = (g :: left) ++ f :: right) :
    f ∈ verifiedBoot request ++ leVerity request device ∨ LeadsWithBlank f.text := by
  obtain ⟨rest, rfl, hrest⟩ := exists_of_fragments hfs
  have hmem : f ∈ onCmdline rest := by
    rw [onCmdline_append, rawCmdline] at hsplit
    split at hsplit
    · have hall : onCmdline rest = g :: left ++ f :: right := hsplit
      rw [hall]
      simp
    · have htail : onCmdline rest = left ++ f :: right := (List.cons.inj hsplit).2
      rw [htail]
      simp
  exact hrest f (List.mem_filter.1 hmem).1

theorem toList_cmdline (fs : List Fragment) :
    (BootOutputs.ofFragments fs).cmdline.toList = (onCmdline fs).flatMap (·.text.toList) := by
  rw [BootOutputs.ofFragments, String.toList_join, List.flatMap_map]

/-- **Fragments on the command line.** Its words are the words of its fragments, in order, exactly
if the texts of verified boot and of dm-verity do not start with a word directly behind one. No
other fragment can run together with those in front of it. -/
theorem words_cmdline_iff (hfs : fragments request device = .ok fs) :
    ∃ outputs, assemble request device = .ok outputs ∧
      (words outputs.cmdline.toList = (onCmdline fs).flatMap (fun f => words f.text.toList) ↔
        ∀ left f right, onCmdline fs = left ++ f :: right →
          f ∈ verifiedBoot request ++ leVerity request device →
          runTogether (left.flatMap (·.text.toList)) f.text.toList = false) := by
  refine ⟨BootOutputs.ofFragments fs, by rw [assemble_eq, hfs]; rfl, ?_⟩
  rw [toList_cmdline, words_flatMap_iff (fun f : Fragment => f.text.toList)]
  constructor
  · intro h left f right hsplit _
    exact h left f right hsplit
  · intro h left f right hsplit
    cases left with
    | nil => rfl
    | cons g left =>
      rcases mem_or_leadsWithBlank hfs hsplit with hmem | hblank
      · exact h (g :: left) f right hsplit hmem
      · exact runTogether_of_not_startsWord _ hblank.startsWord_eq

end

/-- A Linux Embedded device that boots the system as its root, with a text for dm-verity. -/
def verityDevice (text : String) : DeviceView where
  serialNumber := some "1"
  slotSuffix := none
  bootDevice := none
  rootDeviceType := none
  chipBaseband := some "msm"
  displayConfig := none
  memoryLimit _ := none
  dtboIndex := none
  dtbIndex := none
  leVerityCmdline _ := some text
  pauseForBatteryCharge := false
  flags := ⟨DeviceFlag.leVariant.mask ||| DeviceFlag.systemAsRoot.mask⟩

/-- The fragments of a boot of that device. -/
def verityFragments (text : String) : List Fragment :=
  [⟨" androidboot.serialno=1", .bootconfig⟩, ⟨" androidboot.baseband=msm", .bootconfig⟩,
    plain " skip_initramfs", plain " rootwait ro init=/init",
    ⟨" androidboot.force_normal_boot=1", .bootconfig⟩, plain text]

theorem words_cmdline_of_blank_verity :
    let device := verityDevice " dm-mod.create=system"
    let fs := verityFragments " dm-mod.create=system"
    fragments { headerVersion := 4 } device = .ok fs ∧
    ∃ outputs, assemble { headerVersion := 4 } device = .ok outputs ∧
      words outputs.cmdline.toList = (onCmdline fs).flatMap fun f => words f.text.toList := by
  intro device fs
  have hfs : fragments { headerVersion := 4 } (verityDevice " dm-mod.create=system")
      = .ok (verityFragments " dm-mod.create=system") := by rfl
  refine ⟨hfs, ?_⟩
  obtain ⟨outputs, hout, hiff⟩ := words_cmdline_iff hfs
  refine ⟨outputs, hout, hiff.2 fun left f right hsplit hmem => ?_⟩
  have hf : f = plain " dm-mod.create=system" := List.mem_singleton.1 hmem
  subst hf
  exact runTogether_of_not_startsWord _ (by decide)

/-- Without a blank in front, `dm-mod.create=system` becomes a part of `init=/init`. -/
theorem not_words_cmdline_eq :
    ¬ ∀ request device fs outputs, fragments request device = .ok fs →
        assemble request device = .ok outputs →
        words outputs.cmdline.toList = (onCmdline fs).flatMap fun f => words f.text.toList := by
  intro hall
  have hfs : fragments { headerVersion := 4 } (verityDevice "dm-mod.create=system")
      = .ok (verityFragments "dm-mod.create=system") := by rfl
  have hout : assemble { headerVersion := 4 } (verityDevice "dm-mod.create=system")
      = .ok (BootOutputs.ofFragments (verityFragments "dm-mod.create=system")) := by
    rw [assemble_eq, hfs]
    rfl
  have hwords := hall _ _ _ _ hfs hout
  rw [toList_cmdline, words_flatMap_iff (fun f : Fragment => f.text.toList)] at hwords
  have happart := hwords [plain " skip_initramfs", plain " rootwait ro init=/init"]
    (plain "dm-mod.create=system") [] rfl
  have htogether : runTogether " skip_initramfs rootwait ro init=/init".toList
      "dm-mod.create=system".toList = true := by decide
  exact Bool.false_ne_true (happart.symm.trans htogether)

end Assembly

end AndroidBoot
