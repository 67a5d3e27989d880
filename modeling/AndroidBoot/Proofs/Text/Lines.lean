import Mathlib.Data.List.Basic
import Mathlib.Data.String.Basic
import AndroidBoot.Assembly.Fragment
import AndroidBoot.Proofs.Text.Words

/-!
# Words on lines

A text with each of its words on a line of its own is the text without the blanks at its ends, where
a line break stands in place of every run of blanks.

    (wordLines text).toList = breakRuns (trim text.toList)                     (toList_wordLines)
    linesOf (wordLines text).toList = words text.toList  if there is a word     (linesOf_wordLines)
    (wordLines text).utf8ByteSize ≤ text.utf8ByteSize                  (utf8ByteSize_wordLines_le)
-/

namespace AndroidBoot

/-- Whether a text starts with a blank. -/
def startsBlank (cs : List Char) : Bool := cs.head?.any isBlank

/-- The lines of a text, empty ones included. -/
def linesOf (cs : List Char) : List (List Char) := splitAtChars (· == '\n') cs

/-- A text with a line break in place of every run of blanks. -/
def breakRuns : List Char → List Char
  | [] => []
  | c :: cs =>
    if isBlank c then (if startsBlank cs then breakRuns cs else '\n' :: breakRuns cs)
    else c :: breakRuns cs

/-! ## Trimmed texts -/

theorem words_trimStart (cs : List Char) : words (trimStart cs) = words cs := by
  induction cs with
  | nil => rfl
  | cons c cs ih =>
    unfold trimStart
    rw [List.dropWhile_cons]
    split
    · next hc =>
      rw [words_cons_of_blank hc]
      exact ih
    · rfl

theorem startsWord_of_blanks {cs : List Char} (h : ∀ c ∈ cs, isBlank c = true) :
    startsWord cs = false := by
  cases cs with
  | nil => rfl
  | cons c cs => rw [startsWord_cons, h c List.mem_cons_self, Bool.not_true]

theorem words_of_blanks {cs : List Char} (h : ∀ c ∈ cs, isBlank c = true) : words cs = [] := by
  induction cs with
  | nil => rfl
  | cons c cs ih =>
    rw [words_cons_of_blank (h c List.mem_cons_self)]
    exact ih fun d hd => h d (List.mem_cons_of_mem _ hd)

/-- Behind a trimmed text there are only blanks. -/
theorem trimStart_eq_trim_append (cs : List Char) :
    ∃ blanks, trimStart cs = trim cs ++ blanks ∧ ∀ c ∈ blanks, isBlank c = true := by
  refine ⟨((trimStart cs).reverse.takeWhile isBlank).reverse, ?_, ?_⟩
  · unfold trim
    rw [← List.reverse_append]
    unfold trimStart
    rw [List.takeWhile_append_dropWhile, List.reverse_reverse]
  · intro c hc
    exact List.all_eq_true.1 List.all_takeWhile c (List.mem_reverse.1 hc)

theorem words_trim (cs : List Char) : words (trim cs) = words cs := by
  obtain ⟨blanks, hsplit, hblanks⟩ := trimStart_eq_trim_append cs
  have happart := runTogether_of_not_startsWord (trim cs) (startsWord_of_blanks hblanks)
  rw [← words_trimStart cs, hsplit, words_append happart, words_of_blanks hblanks, List.append_nil]

theorem trim_sublist (cs : List Char) : (trim cs).Sublist cs := by
  obtain ⟨blanks, hsplit, -⟩ := trimStart_eq_trim_append cs
  have hstart : (trimStart cs).Sublist cs := List.dropWhile_sublist _
  rw [hsplit] at hstart
  exact (List.sublist_append_left _ _).trans hstart

theorem head?_trimStart {cs : List Char} {c : Char} (h : (trimStart cs).head? = some c) :
    isBlank c = false := by
  have hhead := List.head?_dropWhile_not isBlank cs
  unfold trimStart at h
  rw [h] at hhead
  exact hhead

theorem startsWord_trim {cs : List Char} (h : trim cs ≠ []) : startsWord (trim cs) = true := by
  obtain ⟨blanks, hsplit, -⟩ := trimStart_eq_trim_append cs
  obtain ⟨c, ds, hcs⟩ := List.exists_cons_of_ne_nil h
  rw [hcs] at hsplit
  rw [hcs, startsWord_cons, head?_trimStart (by rw [hsplit]; rfl), Bool.not_false]

theorem endsWord_trim {cs : List Char} (h : trim cs ≠ []) : endsWord (trim cs) = true := by
  have hlast : (trim cs).getLast? = (trimStart (trimStart cs).reverse).head? := by
    unfold trim
    exact List.getLast?_reverse
  cases hc : (trim cs).getLast? with
  | none => exact absurd (List.getLast?_eq_none_iff.1 hc) h
  | some c =>
    rw [endsWord, hc, Option.any_some, head?_trimStart (hlast.symm.trans hc), Bool.not_false]

theorem trimStart_append {blanks rest : List Char} (hblanks : ∀ c ∈ blanks, isBlank c = true)
    (hrest : startsWord rest = true) : trimStart (blanks ++ rest) = rest := by
  unfold trimStart
  rw [List.dropWhile_append_of_pos hblanks]
  cases rest with
  | nil => rfl
  | cons c cs =>
    rw [startsWord_cons, Bool.not_eq_true'] at hrest
    exact List.dropWhile_cons_of_neg (by rw [hrest]; decide)

/-- A word with blanks at its ends is trimmed to the word. -/
theorem trim_padded {before word after : List Char} (hbefore : ∀ c ∈ before, isBlank c = true)
    (hafter : ∀ c ∈ after, isBlank c = true) (hword : ∀ c ∈ word, isBlank c = false)
    (hne : word ≠ []) : trim (before ++ (word ++ after)) = word := by
  have hstarts : ∀ {cs ds : List Char}, cs ≠ [] → (∀ c ∈ cs, isBlank c = false) →
      startsWord (cs ++ ds) = true := by
    intro cs ds hcs hall
    obtain ⟨c, cs, rfl⟩ := List.exists_cons_of_ne_nil hcs
    rw [List.cons_append, startsWord_cons, hall c List.mem_cons_self]
    rfl
  unfold trim
  rw [trimStart_append hbefore (hstarts hne hword), List.reverse_append, trimStart_append,
    List.reverse_reverse]
  · intro c hc
    exact hafter c (List.mem_reverse.1 hc)
  · rw [← List.append_nil word.reverse]
    apply hstarts
    · rwa [ne_eq, List.reverse_eq_nil_iff]
    · intro c hc
      exact hword c (List.mem_reverse.1 hc)

theorem trim_ne_nil {cs : List Char} (h : startsWord cs = true) : trim cs ≠ [] := by
  intro htrim
  have hwords : words cs = [] := by
    rw [← words_trim, htrim]
    rfl
  exact words_ne_nil h hwords

/-! ## Line breaks -/

theorem words_ne_nil_of_endsWord {cs : List Char} (h : endsWord cs = true) : words cs ≠ [] := by
  obtain ⟨c, hlast, hc⟩ := (Option.any_eq_true _ _).1 h
  rw [Bool.not_eq_true'] at hc
  exact words_ne_nil_of_mem hc (List.mem_of_getLast? hlast)

theorem intercalate_growHead (sep : List Char) (c : Char) {ws : List (List Char)} (h : ws ≠ []) :
    sep.intercalate (growHead c ws) = c :: sep.intercalate ws := by
  match ws, h with
  | [w], _ => rfl
  | w :: v :: ws, _ =>
    rw [growHead, List.intercalate_cons_cons, List.intercalate_cons_cons]
    rfl

theorem intercalate_cons (sep : List Char) (w : List Char) {ws : List (List Char)} (h : ws ≠ []) :
    sep.intercalate (w :: ws) = w ++ sep ++ sep.intercalate ws := by
  obtain ⟨v, vs, rfl⟩ := List.exists_cons_of_ne_nil h
  exact List.intercalate_cons_cons

/-- Up to its last word, a text with its runs broken is its words with line breaks between them. -/
theorem breakRuns_eq : ∀ {cs : List Char}, endsWord cs = true →
    breakRuns cs = (if startsWord cs then [] else ['\n']) ++ ['\n'].intercalate (words cs)
  | [c], h => by
    have hc : isBlank c = false := by simpa [endsWord] using h
    rw [breakRuns, hc, words_cons_of_not_blank hc, startsWord_cons, hc]
    rfl
  | c :: d :: cs, h => by
    have hends : endsWord (d :: cs) = true := h
    have hrest := breakRuns_eq hends
    have hne := words_ne_nil_of_endsWord hends
    have hblank : startsBlank (d :: cs) = isBlank d := rfl
    rw [breakRuns, hblank, hrest, startsWord_cons, startsWord_cons]
    cases hc : isBlank c with
    | true =>
      rw [words_cons_of_blank hc]
      cases isBlank d <;> rfl
    | false =>
      rw [words_cons_of_not_blank hc, startsWord_cons]
      cases isBlank d with
      | true => exact (intercalate_cons ['\n'] [c] hne).symm
      | false => exact (intercalate_growHead ['\n'] c hne).symm

theorem toList_wordLines_eq_intercalate (text : String) :
    (Fragment.wordLines text).toList = ['\n'].intercalate (words text.toList) := by
  unfold Fragment.wordLines
  rw [String.toList_intercalate, List.map_map]
  have hmap : (words text.toList).map (String.toList ∘ String.ofList) = words text.toList := by
    simp [Function.comp_def]
  rw [hmap]
  rfl

/-- Each word on a line of its own, or a line break for every run of blanks between two words. -/
theorem toList_wordLines (text : String) :
    (Fragment.wordLines text).toList = breakRuns (trim text.toList) := by
  rw [toList_wordLines_eq_intercalate, ← words_trim]
  by_cases h : trim text.toList = []
  · rw [h]
    rfl
  · rw [breakRuns_eq (endsWord_trim h), startsWord_trim h]
    rfl

/-- A line break takes one byte, and no blank takes less. -/
theorem utf8Len_breakRuns_le (cs : List Char) :
    String.utf8Len (breakRuns cs) ≤ String.utf8Len cs := by
  have hbreak : ('\n').utf8Size = 1 := rfl
  induction cs with
  | nil => exact Nat.le_refl _
  | cons c cs ih =>
    have hc := c.utf8Size_pos
    rw [breakRuns]
    split
    · split
      · rw [String.utf8Len_cons]
        omega
      · rw [String.utf8Len_cons, String.utf8Len_cons, hbreak]
        omega
    · rw [String.utf8Len_cons, String.utf8Len_cons]
      omega

/-- Words on lines of their own take no more bytes than the text they are from. -/
theorem utf8ByteSize_wordLines_le (text : String) :
    (Fragment.wordLines text).utf8ByteSize ≤ text.utf8ByteSize := by
  rw [← String.utf8Len_toList, ← String.utf8Len_toList, toList_wordLines]
  exact (utf8Len_breakRuns_le _).trans (String.utf8Len_le_of_sublist (trim_sublist _))

/-! ## Lines -/

theorem linesOf_of_not_mem {cs : List Char} (h : '\n' ∉ cs) : linesOf cs = [cs] := by
  apply splitAtChars_of_none
  intro c hc
  rw [beq_eq_false_iff_ne]
  rintro rfl
  exact h hc

/-- No line has a line break in it. -/
theorem not_mem_of_mem_linesOf {cs line : List Char} (h : line ∈ linesOf cs) : '\n' ∉ line := by
  intro hc
  have hbreak := sep_eq_false_of_mem h '\n' hc
  cases hbreak

theorem linesOf_intercalate {texts : List (List Char)} (h : texts ≠ []) :
    linesOf (['\n'].intercalate texts) = texts.flatMap linesOf :=
  splitAtChars_intercalate rfl h

/-- Texts that each end a line are texts with line breaks between them, and one more. -/
theorem flatMap_line_eq_intercalate {α : Type} (text : α → List Char) :
    ∀ {xs : List α}, xs ≠ [] →
      xs.flatMap (fun x => text x ++ ['\n']) = ['\n'].intercalate (xs.map text) ++ ['\n']
  | [x], _ => by
    rw [List.flatMap_singleton, List.map_singleton, List.intercalate_singleton]
  | x :: y :: xs, _ => by
    have hmap : (x :: y :: xs).map text = text x :: (y :: xs).map text := rfl
    have hne : (y :: xs).map text ≠ [] := List.cons_ne_nil _ _
    rw [List.flatMap_cons, flatMap_line_eq_intercalate text (List.cons_ne_nil _ _), hmap,
      intercalate_cons _ _ hne, List.append_assoc (text x ++ _)]

theorem forall_mem_intercalate {p : Char → Prop} {sep : List Char} (hsep : ∀ c ∈ sep, p c) :
    ∀ {texts : List (List Char)}, (∀ cs ∈ texts, ∀ c ∈ cs, p c) → ∀ c ∈ sep.intercalate texts, p c
  | [], _ => nofun
  | [cs], h => by
    rw [List.intercalate_singleton]
    exact h cs List.mem_cons_self
  | cs :: ds :: texts, h => by
    rw [List.forall_mem_cons] at h
    rw [List.intercalate_cons_cons, List.forall_mem_append, List.forall_mem_append]
    exact ⟨⟨h.1, hsep⟩, forall_mem_intercalate hsep h.2⟩

theorem ne_of_not_blank {c : Char} (h : isBlank c = false) : c ≠ ' ' ∧ c ≠ '\n' := by
  constructor
  · rintro rfl
    exact absurd h (by decide)
  · rintro rfl
    exact absurd h (by decide)

/-- Words on lines of their own have no spaces that could be left out. -/
theorem filter_wordLines (text : String) :
    (Fragment.wordLines text).toList.filter (· != ' ') = (Fragment.wordLines text).toList := by
  rw [List.filter_eq_self, toList_wordLines_eq_intercalate]
  apply forall_mem_intercalate (p := fun c => (c != ' ') = true)
    (List.forall_mem_singleton.2 (by decide))
  intro w hw c hc
  exact bne_iff_ne.2 (ne_of_not_blank (not_blank_of_mem_words hw c hc)).1

/-- The lines of words that are on lines of their own are the words. -/
theorem linesOf_wordLines {text : String} (h : words text.toList ≠ []) :
    linesOf (Fragment.wordLines text).toList = words text.toList := by
  have hlines : ∀ w ∈ words text.toList, linesOf w = [w] := by
    intro w hw
    apply linesOf_of_not_mem
    intro hc
    exact (ne_of_not_blank (not_blank_of_mem_words hw _ hc)).2 rfl
  rw [toList_wordLines_eq_intercalate, linesOf_intercalate h, List.flatMap_congr hlines,
    List.flatMap_singleton']

/-- A line break in front and one behind add an empty line each. -/
theorem linesOf_between_breaks (cs : List Char) :
    linesOf ('\n' :: (cs ++ ['\n'])) = [] :: (linesOf cs ++ [[]]) := by
  rw [linesOf, splitAtChars, if_pos (by decide), splitAtChars_append (by decide)]
  rfl

/-! ## Lines without their spaces -/

/-- The lines of a text that are not empty. -/
def filledLines (cs : List Char) : List (List Char) := (linesOf cs).filter (!·.isEmpty)

/-- Each line is a word with spaces around it, or has nothing but spaces. -/
def OneWordLines (cs : List Char) : Prop :=
  ∀ line ∈ linesOf cs, (words line).length ≤ 1 ∧ ∀ c ∈ line, isBlank c = true → c = ' '

theorem intercalate_linesOf (cs : List Char) : ['\n'].intercalate (linesOf cs) = cs := by
  unfold linesOf
  induction cs with
  | nil => rfl
  | cons c cs ih =>
    have hne := splitAtChars_ne_nil (· == '\n') cs
    rw [splitAtChars]
    split
    · next hc =>
      rw [intercalate_cons _ _ hne, ih, eq_of_beq hc]
      rfl
    · rw [intercalate_growHead _ _ hne, ih]

/-- No word goes over a line break. -/
theorem words_eq_flatMap_linesOf (cs : List Char) : words cs = (linesOf cs).flatMap words := by
  have hlines : linesOf cs ≠ [] := splitAtChars_ne_nil _ _
  have hpieces : splitAtChars isBlank (['\n'].intercalate (linesOf cs))
      = (linesOf cs).flatMap (splitAtChars isBlank) := splitAtChars_intercalate (by decide) hlines
  rw [intercalate_linesOf] at hpieces
  rw [words, hpieces, List.filter_flatMap]
  rfl

theorem linesOf_filter_spaces (cs : List Char) :
    linesOf (cs.filter (· != ' ')) = (linesOf cs).map (List.filter (· != ' ')) := by
  apply splitAtChars_filter
  intro c hc
  rw [eq_of_beq hc]
  decide

/-- Without blanks but spaces a line without its spaces is its words joined, and that is the only
word there is or none. -/
theorem filter_map_lines_eq_iff {lines : List (List Char)}
    (hblanks : ∀ line ∈ lines, ∀ c ∈ line, isBlank c = true → c = ' ') :
    (lines.map (List.filter (· != ' '))).filter (!·.isEmpty) = lines.flatMap words ↔
      ∀ line ∈ lines, (words line).length ≤ 1 := by
  induction lines with
  | nil => exact iff_of_true rfl nofun
  | cons line lines ih =>
    rw [List.forall_mem_cons] at hblanks
    have hjoined : line.filter (· != ' ') = (words line).flatten := by
      rw [flatten_words]
      apply List.filter_congr
      intro c hc
      cases hblank : isBlank c with
      | true => rw [hblanks.1 c hc hblank]; rfl
      | false => exact bne_iff_ne.2 (ne_of_not_blank hblank).1
    rw [List.forall_mem_cons, ← ih hblanks.2, List.map_cons, hjoined, List.flatMap_cons]
    cases hwords : words line with
    | nil => simp
    | cons w ws =>
      have hw : w ≠ [] := ne_nil_of_mem_words (hwords ▸ List.mem_cons_self)
      have hfilled : (!(w ++ ws.flatten).isEmpty) = true := by simp [hw]
      rw [List.flatten_cons, List.filter_cons, if_pos hfilled, List.cons_append]
      cases ws with
      | nil => simp
      | cons v vs =>
        -- the words are joined to one that is longer than the first of them
        have hmem : v ∈ words line := by
          rw [hwords]
          exact List.mem_cons_of_mem _ List.mem_cons_self
        have hv := ne_nil_of_mem_words hmem
        constructor
        · intro heq
          have hhead := (List.cons.inj heq).1
          simp [hv] at hhead
        · rintro ⟨hlength, -⟩
          simp at hlength

/-- The lines of a text without its spaces are the words of the text exactly if each of its lines is
one word. -/
theorem filledLines_filter_spaces_iff {cs : List Char} :
    filledLines (cs.filter (· != ' ')) = words cs ↔ OneWordLines cs := by
  have hlines := @filter_map_lines_eq_iff (linesOf cs)
  rw [← words_eq_flatMap_linesOf, ← linesOf_filter_spaces] at hlines
  constructor
  · intro heq
    have hblanks : ∀ line ∈ linesOf cs, ∀ c ∈ line, isBlank c = true → c = ' ' := by
      intro line hline c hc hblank
      apply Classical.byContradiction
      intro hne
      -- a blank that is not left out is in a line, and so in a word
      have hkept : c ∈ line.filter (· != ' ') := List.mem_filter.2 ⟨hc, bne_iff_ne.2 hne⟩
      have hword : line.filter (· != ' ') ∈ words cs := by
        rw [← heq, filledLines, linesOf_filter_spaces, List.mem_filter]
        refine ⟨List.mem_map_of_mem hline, ?_⟩
        rw [Bool.not_eq_true', List.isEmpty_eq_false_iff]
        exact List.ne_nil_of_mem hkept
      rw [not_blank_of_mem_words hword c hkept] at hblank
      cases hblank
    intro line hline
    exact ⟨(hlines hblanks).1 heq line hline, hblanks line hline⟩
  · intro hone
    exact (hlines fun line hline => (hone line hline).2).2 fun line hline => (hone line hline).1

end AndroidBoot
