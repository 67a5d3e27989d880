import AndroidBoot.Proofs.Assembly.EntryLines

/-!
# Arguments of verified boot

The text of verified boot is one fragment, however many arguments it has. If it goes to the
bootconfig its arguments get a line each, although they are told apart in three ways before they are
there: by any white space of Unicode in the text, by line breaks in the fragment, and in the entry
by what is left of it without spaces. A word has no blank of any kind, so that the arguments that go
in are the lines that come out.

    linesOf (verifiedBoot text version).text.toList = words text.toList    (onePerLine_verifiedBoot)
    the bootconfig starts with an empty line and then these                  (leadsWith_of_assemble)
-/

namespace AndroidBoot

open Fragment

/-- Whether a text of verified boot goes to the bootconfig. -/
def MovesToBootconfig (text : String) (version : Nat) : Prop :=
  4 ≤ version ∧ ∃ before after, text.toList = before ++ "androidboot.".toList ++ after

/-- A fragment of the bootconfig with the words of a text, one to a line. -/
structure Fragment.OnePerLine (f : Fragment) (text : String) : Prop where
  destination : f.destination = .bootconfig
  lines : linesOf f.text.toList = words text.toList
  someLine : words text.toList ≠ []
  filled : ∀ line ∈ linesOf f.text.toList, line ≠ []
  size : f.size ≤ text.utf8ByteSize
  /-- There is no space in it that the bootconfig would leave out. -/
  entry : bootconfigEntry f.text = f.text

/-- Behind the empty line at its start the bootconfig has these lines. -/
def BootOutputs.LeadsWith (outputs : BootOutputs) (lines : List (List Char)) : Prop :=
  ∃ config behind, outputs.bootconfig = some config ∧
    linesOf config.toList = [] :: (lines ++ behind)

section

variable {text : String} {version : Nat}

/-! ## The fragment -/

theorem belongsInBootconfig_iff :
    belongsInBootconfig text version = true ↔ MovesToBootconfig text version := by
  rw [belongsInBootconfig, Bool.and_eq_true, decide_eq_true_iff, holds_iff]
  rfl

theorem verifiedBoot_of_moves (h : MovesToBootconfig text version) :
    Fragment.verifiedBoot text version = ⟨wordLines text, .bootconfig⟩ :=
  if_pos (belongsInBootconfig_iff.2 h)

theorem verifiedBoot_of_stays (h : ¬ MovesToBootconfig text version) :
    Fragment.verifiedBoot text version = ⟨text, .cmdline⟩ :=
  if_neg fun hbelongs => h (belongsInBootconfig_iff.1 hbelongs)

/-- The mark is part of a word. -/
theorem words_ne_nil_of_moves (h : MovesToBootconfig text version) : words text.toList ≠ [] :=
  words_ne_nil_of_mem (by decide) (Source.mem_of_holds_mark (holds_iff.2 h.2))

theorem bootconfigEntry_wordLines (text : String) :
    bootconfigEntry (wordLines text) = wordLines text := by
  rw [← String.toList_inj, Source.toList_bootconfigEntry, filter_wordLines]

theorem onePerLine_verifiedBoot (h : MovesToBootconfig text version) :
    (Fragment.verifiedBoot text version).OnePerLine text := by
  have hlines := linesOf_wordLines (words_ne_nil_of_moves h)
  rw [verifiedBoot_of_moves h]
  exact
    { destination := rfl
      lines := hlines
      someLine := words_ne_nil_of_moves h
      filled := fun line hline => ne_nil_of_mem_words (hlines ▸ hline)
      size := utf8ByteSize_wordLines_le text
      entry := bootconfigEntry_wordLines text }

/-! ## The bootconfig -/

namespace Assembly

variable {request : BootRequest} {device : DeviceView}

/-- Only the command line of the image goes before the text of verified boot. -/
theorem exists_fragments_behind {fs : List Fragment} (hfs : fragments request device = .ok fs) :
    ∃ behind, fs = rawCmdline request ++ (verifiedBoot request ++ behind) := by
  obtain ⟨serial, baseband, hserial, hbaseband⟩ := available_of_fragments hfs
  rw [fragments_of_some hserial hbaseband] at hfs
  obtain rfl := Except.ok.inj hfs
  simp only [List.append_assoc]
  exact ⟨_, rfl⟩

theorem inBootconfig_rawCmdline (request : BootRequest) :
    inBootconfig (rawCmdline request) = [] := by
  unfold rawCmdline
  split <;> rfl

theorem verifiedBoot_of_some (hverified : request.verifiedBootCmdline = some text)
    (hmoves : MovesToBootconfig text request.headerVersion) :
    verifiedBoot request = [⟨wordLines text, .bootconfig⟩] := by
  have htext : text ≠ "" := by
    rintro rfl
    exact words_ne_nil_of_moves hmoves rfl
  rw [verifiedBoot, hverified, Option.filter_some, if_pos (decide_eq_true htext)]
  exact congrArg (fun f => [f]) (verifiedBoot_of_moves hmoves)

theorem leadsWith_of_assemble {outputs : BootOutputs}
    (hverified : request.verifiedBootCmdline = some text)
    (hmoves : MovesToBootconfig text request.headerVersion)
    (hout : assemble request device = .ok outputs) : outputs.LeadsWith (words text.toList) := by
  obtain ⟨fs, hfs, rfl⟩ := exists_of_assemble hout
  obtain ⟨behind, rfl⟩ := exists_fragments_behind hfs
  have hentries : inBootconfig (rawCmdline request ++ (verifiedBoot request ++ behind))
      = ⟨wordLines text, .bootconfig⟩ :: inBootconfig behind := by
    rw [inBootconfig_append, inBootconfig_rawCmdline, List.nil_append, inBootconfig_append,
      verifiedBoot_of_some hverified hmoves]
    rfl
  obtain ⟨config, hconfig⟩ := BootOutputs.exists_bootconfig (hentries ▸ List.cons_ne_nil _ _)
  obtain ⟨body, hbody, hlines⟩ := linesOf_bootconfig hconfig
  rw [hentries, List.flatMap_cons, bootconfigEntry_wordLines,
    linesOf_wordLines (words_ne_nil_of_moves hmoves)] at hlines
  have hall := linesOf_between_breaks body
  rw [← hbody, hlines, List.append_assoc] at hall
  exact ⟨config, _, hconfig, hall⟩

end Assembly

end

/-- **Arguments of verified boot.** A text with the mark goes to the bootconfig from version 4 on,
with a line for each of its words: none is lost, none is empty, and together they take no more bytes
than the text. Every other text goes to the command line as it is. What assembly then writes to the
bootconfig starts with an empty line and these lines. -/
theorem verifiedBoot_one_per_line (text : String) (version : Nat) :
    (MovesToBootconfig text version → (Fragment.verifiedBoot text version).OnePerLine text) ∧
    (¬ MovesToBootconfig text version →
      Fragment.verifiedBoot text version = ⟨text, .cmdline⟩) ∧
    ∀ request device outputs, request.headerVersion = version →
      request.verifiedBootCmdline = some text → MovesToBootconfig text version →
      Assembly.assemble request device = .ok outputs →
      outputs.LeadsWith (words text.toList) := by
  refine ⟨onePerLine_verifiedBoot, verifiedBoot_of_stays, ?_⟩
  rintro request device outputs rfl hverified hmoves hout
  exact Assembly.leadsWith_of_assemble hverified hmoves hout

/-- A tab between two arguments is a line break in the bootconfig. -/
theorem leadsWith_tabbedRequest :
    MovesToBootconfig "androidboot.a=1\tb=2" 4 ∧
    ∃ outputs, Assembly.assemble Assembly.tabbedRequest (Assembly.spacedDevice "1") = .ok outputs ∧
      outputs.LeadsWith ["androidboot.a=1".toList, "b=2".toList] := by
  have hmoves : MovesToBootconfig "androidboot.a=1\tb=2" 4 :=
    ⟨by decide, [], "a=1\tb=2".toList, by decide⟩
  obtain ⟨outputs, -, hout, -⟩ := Assembly.assemble_tabbedRequest "1"
  obtain ⟨-, -, hlines⟩ := verifiedBoot_one_per_line "androidboot.a=1\tb=2" 4
  exact ⟨hmoves, outputs, hout, hlines _ _ outputs rfl rfl hmoves hout⟩

end AndroidBoot
