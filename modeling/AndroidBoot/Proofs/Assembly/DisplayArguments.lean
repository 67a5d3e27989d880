import AndroidBoot.Proofs.Assembly.EntryLines
import AndroidBoot.Proofs.Assembly.Junctions

/-!
# Arguments of the display configuration

The configuration of the display may hold several arguments, and it goes to one of the outputs as a
whole. On the command line its arguments stay apart, unless a text for dm-verity comes directly
behind it. In the bootconfig the configuration is an entry like any other, which loses its spaces
and keeps all other blanks: only line breaks keep its arguments apart, and those that stand on one
line with spaces between them become one.

    the words of the configuration are words of the command line  ↔  ApartFromVerity
    its words are lines of the bootconfig                         ↔  OneWordLines
                                                                       (display_arguments_iff)
-/

namespace AndroidBoot

open Fragment

/-- Whether an argument stands by itself in the outputs: as a word of the command line or as a line
of the bootconfig. -/
def BootOutputs.HasArgument (outputs : BootOutputs) (argument : List Char) : Prop :=
  argument ∈ words outputs.cmdline.toList ∨
    ∃ text, outputs.bootconfig = some text ∧ argument ∈ linesOf text.toList

/-! ## Outputs in parts -/

/-- What fragments put on the command line. -/
def cmdlinePart (fs : List Fragment) : List Char := (onCmdline fs).flatMap (·.text.toList)

/-- The lines that fragments have in the bootconfig, without empty ones. -/
def bootconfigPart (fs : List Fragment) : List (List Char) :=
  (inBootconfig fs).flatMap fun f => filledLines (bootconfigEntry f.text).toList

theorem cmdlinePart_append (fs gs : List Fragment) :
    cmdlinePart (fs ++ gs) = cmdlinePart fs ++ cmdlinePart gs := by
  rw [cmdlinePart, onCmdline_append, List.flatMap_append]
  rfl

theorem bootconfigPart_append (fs gs : List Fragment) :
    bootconfigPart (fs ++ gs) = bootconfigPart fs ++ bootconfigPart gs := by
  rw [bootconfigPart, inBootconfig_append, List.flatMap_append]
  rfl

theorem filledLines_bootconfig {fs : List Fragment} {text : String}
    (h : (BootOutputs.ofFragments fs).bootconfig = some text) :
    filledLines text.toList = bootconfigPart fs := by
  obtain ⟨body, htext, hlines⟩ := linesOf_bootconfig h
  rw [filledLines, htext, linesOf_between_breaks, List.filter_cons_of_neg (by decide),
    List.filter_append, hlines, List.filter_flatMap, bootconfigPart]
  exact List.append_nil _

namespace Assembly

section

variable (request : BootRequest) (device : DeviceView)

/-- The text of a display configuration, with a blank in front. -/
def displayText (config : String) : String :=
  if config.toList.head? = some ' ' then config else " " ++ config

/-- The fragments behind the display configuration. -/
def behindDisplay : List Fragment :=
  mdtp device ++ slot request device ++ root request device ++ indices request device
    ++ forceNormalBoot request device ++ leVerity request device ++ memory request device

/-- If a text for dm-verity is the first on the command line behind the display configuration, the
two do not run together. -/
def ApartFromVerity (config : String) : Prop :=
  ∀ f rest, onCmdline (behindDisplay request device) = f :: rest → f ∈ leVerity request device →
    runTogether config.toList f.text.toList = false

/-! ## The text -/

section

variable {config : String}

theorem toList_displayText (config : String) :
    (displayText config).toList = config.toList ∨
      (displayText config).toList = ' ' :: config.toList := by
  unfold displayText
  split
  · exact .inl rfl
  · refine .inr ?_
    rw [String.toList_append]
    rfl

theorem startsWord_displayText (config : String) :
    startsWord (displayText config).toList = false := by
  apply LeadsWithBlank.startsWord_eq
  unfold displayText
  split
  · next h => exact h
  · exact LeadsWithBlank.append (by decide) config

theorem words_displayText (config : String) :
    words (displayText config).toList = words config.toList := by
  rcases toList_displayText config with h | h
  · rw [h]
  · rw [h, words_cons_of_blank (by decide)]

theorem filter_displayText (config : String) :
    (displayText config).toList.filter (· != ' ') = config.toList.filter (· != ' ') := by
  rcases toList_displayText config with h | h
  · rw [h]
  · rw [h]
    rfl

theorem belongsInBootconfig_displayText (config : String) (version : Nat) :
    belongsInBootconfig (displayText config) version = belongsInBootconfig config version := by
  rcases toList_displayText config with h | h
  · rw [belongsInBootconfig, h]
    rfl
  · have hholds : holds androidBootMark.toList (' ' :: config.toList)
        = holds androidBootMark.toList config.toList := rfl
    rw [belongsInBootconfig, h, hholds]
    rfl

theorem runTogether_append_displayText (hconfig : config ≠ "") (front behind : List Char) :
    runTogether (front ++ (displayText config).toList) behind
      = runTogether config.toList behind := by
  obtain ⟨c, cs, hcs⟩ := List.exists_cons_of_ne_nil
    (fun h => hconfig (String.toList_inj.1 h) : config.toList ≠ [])
  have hlast : (front ++ (displayText config).toList).getLast? = config.toList.getLast? := by
    rcases toList_displayText config with h | h
    · rw [h, hcs, List.getLast?_append_cons]
    · rw [h, hcs, List.getLast?_append_cons, List.getLast?_cons_cons]
  rw [runTogether, runTogether, endsWord, endsWord, hlast]

theorem display_of_some (hdisplay : device.displayConfig = some config) (hconfig : config ≠ "") :
    display request device = [.routed (displayText config) request.headerVersion] := by
  rw [display, hdisplay, Option.filter_some, if_pos (decide_eq_true hconfig)]
  rfl

end

/-! ## Behind the configuration -/

theorem behindDisplay_cases : ∀ f ∈ behindDisplay request device,
    f ∈ leVerity request device ∨ LeadsWithBlank f.text := by
  unfold behindDisplay
  simp only [List.forall_mem_append]
  exact ⟨⟨⟨⟨⟨⟨fun f hf => .inr (mdtp_leadsWithBlank device f hf),
    fun f hf => .inr (slot_leadsWithBlank request device f hf)⟩,
    fun f hf => .inr (root_leadsWithBlank request device f hf)⟩,
    fun f hf => .inr (indices_leadsWithBlank request device f hf)⟩,
    fun f hf => .inr (forceNormalBoot_leadsWithBlank request device f hf)⟩,
    fun f hf => .inl hf⟩,
    fun f hf => .inr (memory_leadsWithBlank request device f hf)⟩

theorem ne_nil_of_mem_leVerity {f : Fragment} (hf : f ∈ leVerity request device) :
    f.text.toList ≠ [] := by
  unfold leVerity at hf
  split at hf
  · next text htext =>
    split at hf
    · rw [List.mem_singleton.1 hf]
      have hfilled := of_decide_eq_true (Option.filter_eq_some_iff.1 htext).2
      exact fun h => hfilled (String.toList_inj.1 h)
    · cases hf
  · cases hf

theorem ne_nil_of_mem_behindDisplay {f : Fragment} (hf : f ∈ behindDisplay request device) :
    f.text.toList ≠ [] := by
  rcases behindDisplay_cases request device f hf with hverity | hblank
  · exact ne_nil_of_mem_leVerity request device hverity
  · intro hempty
    rw [LeadsWithBlank, hempty] at hblank
    cases hblank

/-- Only a text for dm-verity can run together with the configuration. -/
theorem runTogether_behindDisplay_iff (config : String) :
    runTogether config.toList (cmdlinePart (behindDisplay request device)) = false ↔
      ApartFromVerity request device config := by
  unfold cmdlinePart ApartFromVerity
  cases hbehind : onCmdline (behindDisplay request device) with
  | nil =>
    apply iff_of_true
    · exact runTogether_of_not_startsWord _ rfl
    · nofun
  | cons f rest =>
    have hfirst : f ∈ onCmdline (behindDisplay request device) := by
      rw [hbehind]
      exact List.mem_cons_self
    have hmem : f ∈ behindDisplay request device := (List.mem_filter.1 hfirst).1
    rw [List.flatMap_cons, runTogether,
      startsWord_append (ne_nil_of_mem_behindDisplay request device hmem)]
    constructor
    · rintro h g others ⟨⟩ -
      exact h
    · intro h
      rcases behindDisplay_cases request device f hmem with hverity | hblank
      · exact h f rest rfl hverity
      · exact runTogether_of_not_startsWord _ hblank.startsWord_eq

end

/-! ## The outputs -/

section

variable {request : BootRequest} {device : DeviceView} {config : String}

theorem exists_fragments_around {fs : List Fragment} (hfs : fragments request device = .ok fs) :
    ∃ front, fs = front ++ display request device ++ behindDisplay request device := by
  obtain ⟨serial, baseband, hserial, hbaseband⟩ := available_of_fragments hfs
  rw [fragments_of_some hserial hbaseband] at hfs
  obtain rfl := Except.ok.inj hfs
  unfold behindDisplay
  simp only [← List.append_assoc]
  exact ⟨_, rfl⟩

/-- A configuration that goes to the bootconfig is not empty, and neither is the bootconfig then. -/
theorem display_of_moves (hdisplay : device.displayConfig = some config)
    (hmoves : belongsInBootconfig config request.headerVersion = true) :
    display request device = [⟨displayText config, .bootconfig⟩] := by
  have hconfig : config ≠ "" := by
    rintro rfl
    rw [belongsInBootconfig, Bool.and_eq_true] at hmoves
    cases hmoves.2
  rw [display_of_some request device hdisplay hconfig, Fragment.routed, route,
    belongsInBootconfig_displayText, hmoves]
  rfl

theorem exists_bootconfig_of_moves (hdisplay : device.displayConfig = some config)
    (hmoves : belongsInBootconfig config request.headerVersion = true) (front : List Fragment) :
    ∃ text, (BootOutputs.ofFragments
      (front ++ display request device ++ behindDisplay request device)).bootconfig
        = some text := by
  have hmem : ⟨displayText config, .bootconfig⟩
      ∈ front ++ display request device ++ behindDisplay request device := by
    rw [display_of_moves hdisplay hmoves]
    exact List.mem_append_left _ (List.mem_append_right _ List.mem_cons_self)
  exact BootOutputs.exists_bootconfig (List.ne_nil_of_mem (List.mem_filter.2 ⟨hmem, rfl⟩))

/-- On the command line the words of the configuration stand between those in front and those
behind, if it is kept apart from dm-verity. -/
theorem words_cmdline_display_iff (hdisplay : device.displayConfig = some config)
    (hconfig : config ≠ "") (hstays : belongsInBootconfig config request.headerVersion = false)
    (front : List Fragment) :
    words (cmdlinePart (front ++ display request device ++ behindDisplay request device))
        = words (cmdlinePart front) ++ words config.toList
          ++ words (cmdlinePart (behindDisplay request device)) ↔
      ApartFromVerity request device config := by
  have hpart : cmdlinePart (display request device) = (displayText config).toList := by
    rw [display_of_some request device hdisplay hconfig, Fragment.routed, route,
      belongsInBootconfig_displayText, hstays]
    exact List.flatMap_singleton _ _
  have hfront : words (cmdlinePart front ++ (displayText config).toList)
      = words (cmdlinePart front) ++ words config.toList := by
    rw [words_append (runTogether_of_not_startsWord _ (startsWord_displayText config)),
      words_displayText]
  rw [cmdlinePart_append, cmdlinePart_append, hpart, ← hfront, words_append_iff,
    runTogether_append_displayText hconfig, runTogether_behindDisplay_iff]

/-- In the bootconfig they do if each line of it is one word. -/
theorem bootconfigPart_display_iff (hdisplay : device.displayConfig = some config)
    (hmoves : belongsInBootconfig config request.headerVersion = true) (front : List Fragment) :
    bootconfigPart (front ++ display request device ++ behindDisplay request device)
        = bootconfigPart front ++ words config.toList
          ++ bootconfigPart (behindDisplay request device) ↔
      OneWordLines config.toList := by
  have hpart : bootconfigPart (display request device)
      = filledLines (config.toList.filter (· != ' ')) := by
    rw [display_of_moves hdisplay hmoves, ← filter_displayText, ← Source.toList_bootconfigEntry]
    exact List.flatMap_singleton _ _
  rw [bootconfigPart_append, bootconfigPart_append, hpart, List.append_left_inj,
    List.append_right_inj, filledLines_filter_spaces_iff]

/-- **Arguments of the display configuration.** Where the configuration stays on the command line
its arguments are words of it, in order, exactly if it does not run together with a text for
dm-verity. Where it goes to the bootconfig they are lines of it, in order, exactly if each line of
the configuration has one argument and no blanks but spaces. -/
theorem display_arguments_iff {outputs : BootOutputs}
    (hdisplay : device.displayConfig = some config)
    (hout : assemble request device = .ok outputs) :
    ∃ front,
      fragments request device
        = .ok (front ++ display request device ++ behindDisplay request device) ∧
      (belongsInBootconfig config request.headerVersion = false →
        (config ≠ "" →
          (words outputs.cmdline.toList
              = words (cmdlinePart front) ++ words config.toList
                ++ words (cmdlinePart (behindDisplay request device)) ↔
            ApartFromVerity request device config)) ∧
        (ApartFromVerity request device config →
          ∀ argument ∈ words config.toList, outputs.HasArgument argument)) ∧
      (belongsInBootconfig config request.headerVersion = true →
        ∃ text, outputs.bootconfig = some text ∧
          (filledLines text.toList
              = bootconfigPart front ++ words config.toList
                ++ bootconfigPart (behindDisplay request device) ↔
            OneWordLines config.toList) ∧
          (OneWordLines config.toList →
            ∀ argument ∈ words config.toList, outputs.HasArgument argument)) := by
  obtain ⟨fs, hfs, rfl⟩ := exists_of_assemble hout
  obtain ⟨front, rfl⟩ := exists_fragments_around hfs
  refine ⟨front, hfs, fun hstays => ?_, fun hmoves => ?_⟩
  · rw [toList_cmdline]
    have hiff := fun hconfig => words_cmdline_display_iff hdisplay hconfig hstays front
    refine ⟨hiff, fun hapart argument hargument => .inl ?_⟩
    have hconfig : config ≠ "" := by
      rintro rfl
      cases hargument
    rw [toList_cmdline]
    show argument ∈ words (cmdlinePart _)
    rw [(hiff hconfig).2 hapart]
    exact List.mem_append_left _ (List.mem_append_right _ hargument)
  · obtain ⟨text, htext⟩ := exists_bootconfig_of_moves hdisplay hmoves front
    have hlines := filledLines_bootconfig htext
    have hiff := bootconfigPart_display_iff hdisplay hmoves front
    rw [← hlines] at hiff
    refine ⟨text, htext, hiff, fun hone argument hargument => .inr ⟨text, htext, ?_⟩⟩
    have hmem : argument ∈ filledLines text.toList := by
      rw [hiff.2 hone]
      exact List.mem_append_left _ (List.mem_append_right _ hargument)
    exact (List.mem_filter.1 hmem).1

end

/-- A device with a display configuration. -/
def displayDevice (config : String) : DeviceView :=
  { bareDevice with displayConfig := some config }

theorem assemble_displayDevice (config : String) :
    assemble { headerVersion := 4 } (displayDevice config) = .ok (BootOutputs.ofFragments
      ((sources { headerVersion := 4 } (displayDevice config)).map (·.fragment 4))) := by
  rw [assemble_eq, fragments_of_sources _ (displayDevice config) rfl rfl]
  rfl

/-- Arguments on lines of their own are lines of the bootconfig, also one without the mark. -/
theorem display_arguments_of_lines :
    let device := displayDevice "androidboot.panel=a\nmsm_drm.b=c"
    device.displayConfig = some "androidboot.panel=a\nmsm_drm.b=c" ∧
    ∃ outputs, assemble { headerVersion := 4 } device = .ok outputs ∧
      outputs.HasArgument "androidboot.panel=a".toList ∧
      outputs.HasArgument "msm_drm.b=c".toList := by
  intro device
  have hout := assemble_displayDevice "androidboot.panel=a\nmsm_drm.b=c"
  obtain ⟨front, -, -, hmoves⟩ := display_arguments_iff rfl hout
  obtain ⟨text, -, -, hall⟩ := hmoves (by decide)
  have hlines : OneWordLines "androidboot.panel=a\nmsm_drm.b=c".toList :=
    filledLines_filter_spaces_iff.1 (by decide)
  exact ⟨rfl, _, hout, hall hlines _ (by decide), hall hlines _ (by decide)⟩

/-- Two arguments with a space between them become one line, and the first is no line any more. -/
theorem not_hasArgument_of_space :
    ¬ ∀ request device config outputs, device.displayConfig = some config →
        assemble request device = .ok outputs →
        ∀ argument ∈ words config.toList, outputs.HasArgument argument := by
  intro hall
  have hout := assemble_displayDevice "androidboot.a=1 androidboot.b=2"
  rcases hall _ _ _ _ rfl hout "androidboot.a=1".toList (by decide) with
    hword | ⟨text, htext, hline⟩
  · revert hword
    decide
  · have hfilled : "androidboot.a=1".toList ∈ filledLines text.toList :=
      List.mem_filter.2 ⟨hline, by decide⟩
    rw [filledLines_bootconfig htext] at hfilled
    revert hfilled
    decide

end Assembly

end AndroidBoot
