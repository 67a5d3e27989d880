import AndroidBoot.Text.Blank

/-!
# Pieces and words of joined texts

The pieces of a text are those in front of a separator and then those behind it. Words are different
where texts are joined without anything between them: the words of the joined text are those of the
texts, unless a text that starts with a word comes directly behind a word. Then the two become one,
and the joined text has a word less.

    splitAtChars sep (cs ++ e :: ds) = splitAtChars sep cs ++ splitAtChars sep ds  if sep e = true
                                                                           (splitAtChars_append)
    runTogether as bs = false → words (as ++ bs) = words as ++ words bs      (words_append)
    words (xs.flatMap text) = xs.flatMap (words ∘ text)  ↔  no text runs together with those before
                                                                          (words_flatMap_iff)
-/

namespace AndroidBoot

/-- Whether a text starts with a word. -/
def startsWord (cs : List Char) : Bool := cs.head?.any (!isBlank ·)

/-- Whether a text ends with a word. -/
def endsWord (cs : List Char) : Bool := cs.getLast?.any (!isBlank ·)

/-- Whether the last word of a text and the first of the next become one. -/
def runTogether (as bs : List Char) : Bool := endsWord as && startsWord bs

/-! ## Pieces -/

theorem splitAtChars_ne_nil (sep : Char → Bool) (cs : List Char) : splitAtChars sep cs ≠ [] := by
  induction cs with
  | nil => exact List.cons_ne_nil _ _
  | cons c cs ih =>
    rw [splitAtChars]
    split
    · exact List.cons_ne_nil _ _
    · cases hsplit : splitAtChars sep cs with
      | nil => exact absurd hsplit ih
      | cons w ws => exact List.cons_ne_nil _ _

theorem splitAtChars_of_none {sep : Char → Bool} {cs : List Char} (h : ∀ c ∈ cs, sep c = false) :
    splitAtChars sep cs = [cs] := by
  induction cs with
  | nil => rfl
  | cons c cs ih =>
    rw [splitAtChars, h c List.mem_cons_self, ih fun c hc => h c (List.mem_cons_of_mem _ hc)]
    rfl

theorem growHead_append {c : Char} {ws : List (List Char)} (h : ws ≠ []) (vs : List (List Char)) :
    growHead c (ws ++ vs) = growHead c ws ++ vs := by
  cases ws with
  | nil => exact absurd rfl h
  | cons w ws => rfl

/-- The pieces in front of a separator and then those behind it. -/
theorem splitAtChars_append {sep : Char → Bool} {e : Char} (he : sep e = true)
    (cs ds : List Char) :
    splitAtChars sep (cs ++ e :: ds) = splitAtChars sep cs ++ splitAtChars sep ds := by
  induction cs with
  | nil => exact if_pos he
  | cons c cs ih =>
    rw [List.cons_append, splitAtChars, splitAtChars, ih]
    split
    · rfl
    · exact growHead_append (splitAtChars_ne_nil sep cs) _

/-- The pieces of texts with separators between them are the pieces of the texts. -/
theorem splitAtChars_intercalate {sep : Char → Bool} {e : Char} (he : sep e = true) :
    ∀ {texts : List (List Char)}, texts ≠ [] →
      splitAtChars sep ([e].intercalate texts) = texts.flatMap (splitAtChars sep)
  | [cs], _ => by
    rw [List.intercalate_singleton, List.flatMap_singleton]
  | cs :: ds :: texts, _ => by
    rw [List.intercalate_cons_cons, List.append_assoc, List.singleton_append,
      splitAtChars_append he, splitAtChars_intercalate he (List.cons_ne_nil _ _),
      List.flatMap_cons (x := cs)]

/-- No piece has a separator in it. -/
theorem sep_eq_false_of_mem {sep : Char → Bool} {cs piece : List Char}
    (h : piece ∈ splitAtChars sep cs) : ∀ c ∈ piece, sep c = false := by
  induction cs generalizing piece with
  | nil =>
    intro c hc
    rw [List.mem_singleton.1 h] at hc
    cases hc
  | cons d cs ih =>
    rw [splitAtChars] at h
    split at h
    · rcases List.mem_cons.1 h with rfl | h
      · nofun
      · exact ih h
    · next hd =>
      obtain ⟨w, ws, hcs⟩ := List.exists_cons_of_ne_nil (splitAtChars_ne_nil sep cs)
      rw [hcs] at h ih
      rcases List.mem_cons.1 h with rfl | h
      · intro c hc
        rcases List.mem_cons.1 hc with rfl | hc
        · exact Bool.not_eq_true _ ▸ hd
        · exact ih List.mem_cons_self c hc
      · exact ih (List.mem_cons_of_mem _ h)

/-- Leaving out characters that are no separators leaves them out of the pieces. -/
theorem splitAtChars_filter {sep p : Char → Bool} (h : ∀ c, sep c = true → p c = true)
    (cs : List Char) :
    splitAtChars sep (cs.filter p) = (splitAtChars sep cs).map (List.filter p) := by
  induction cs with
  | nil => rfl
  | cons c cs ih =>
    obtain ⟨w, ws, hcs⟩ := List.exists_cons_of_ne_nil (splitAtChars_ne_nil sep cs)
    rw [hcs] at ih
    cases hsep : sep c with
    | true =>
      rw [List.filter_cons_of_pos (h c hsep), splitAtChars, splitAtChars, if_pos hsep, if_pos hsep,
        ih, hcs]
      rfl
    | false =>
      have hsplit : splitAtChars sep (c :: cs) = (c :: w) :: ws := by
        rw [splitAtChars, hsep, hcs]
        rfl
      cases hp : p c with
      | true =>
        rw [List.filter_cons_of_pos hp, splitAtChars, hsep, ih, hsplit, List.map_cons,
          List.map_cons, List.filter_cons_of_pos hp]
        rfl
      | false =>
        have hnot : ¬ p c = true := by rw [hp]; decide
        rw [List.filter_cons_of_neg hnot, ih, hsplit, List.map_cons, List.map_cons,
          List.filter_cons_of_neg hnot]

theorem flatten_splitAtChars (sep : Char → Bool) (cs : List Char) :
    (splitAtChars sep cs).flatten = cs.filter (!sep ·) := by
  induction cs with
  | nil => rfl
  | cons c cs ih =>
    rw [splitAtChars, List.filter_cons, ← ih]
    cases sep c with
    | true => rfl
    | false =>
      cases splitAtChars sep cs <;> rfl

/-! ## Words -/

theorem startsWord_cons (c : Char) (cs : List Char) : startsWord (c :: cs) = !isBlank c := rfl

/-- What stands behind a text that is not empty has no part in how it starts. -/
theorem startsWord_append {as : List Char} (h : as ≠ []) (bs : List Char) :
    startsWord (as ++ bs) = startsWord as := by
  obtain ⟨c, cs, rfl⟩ := List.exists_cons_of_ne_nil h
  rfl

theorem words_cons_of_blank {c : Char} (hc : isBlank c = true) (cs : List Char) :
    words (c :: cs) = words cs := by
  rw [words, splitAtChars, if_pos hc]
  rfl

theorem words_ne_nil {cs : List Char} (h : startsWord cs = true) : words cs ≠ [] := by
  cases cs with
  | nil => cases h
  | cons c cs =>
    rw [startsWord_cons, Bool.not_eq_true'] at h
    rw [words, splitAtChars, h]
    cases splitAtChars isBlank cs with
    | nil => nofun
    | cons w ws => nofun

theorem words_ne_nil_of_mem {c : Char} (hc : isBlank c = false) {cs : List Char} (h : c ∈ cs) :
    words cs ≠ [] := by
  induction cs with
  | nil => cases h
  | cons d ds ih =>
    cases hd : isBlank d with
    | true =>
      have hne : c ≠ d := by
        rintro rfl
        rw [hc] at hd
        cases hd
      rw [words_cons_of_blank hd]
      exact ih ((List.mem_cons.1 h).resolve_left hne)
    | false => exact words_ne_nil (by rw [startsWord_cons, hd, Bool.not_false])

/-- A character in front of a word belongs to it, and else is a word of its own. -/
theorem words_cons_of_not_blank {c : Char} (hc : isBlank c = false) (cs : List Char) :
    words (c :: cs) = if startsWord cs then growHead c (words cs) else [c] :: words cs := by
  cases cs with
  | nil =>
    rw [words, splitAtChars, hc]
    rfl
  | cons d ds =>
    rw [startsWord_cons]
    cases hd : isBlank d with
    | true =>
      rw [words_cons_of_blank hd, words, splitAtChars, hc, splitAtChars, if_pos hd]
      rfl
    | false =>
      rw [words, words, splitAtChars, hc, splitAtChars, hd]
      cases splitAtChars isBlank ds with
      | nil => rfl
      | cons w ws => rfl

theorem not_blank_of_mem_words {cs w : List Char} (hw : w ∈ words cs) :
    ∀ c ∈ w, isBlank c = false :=
  sep_eq_false_of_mem (List.mem_filter.1 hw).1

theorem ne_nil_of_mem_words {cs w : List Char} (hw : w ∈ words cs) : w ≠ [] := by
  have hfilled := (List.mem_filter.1 hw).2
  rw [Bool.not_eq_true', List.isEmpty_eq_false_iff] at hfilled
  exact hfilled

/-- The words of a text have all of it but the blanks. -/
theorem flatten_words (cs : List Char) : (words cs).flatten = cs.filter (!isBlank ·) := by
  rw [words, List.flatten_filter_not_isEmpty, flatten_splitAtChars]

/-! ## Two texts -/

theorem runTogether_singleton (c : Char) (bs : List Char) :
    runTogether [c] bs = (!isBlank c && startsWord bs) := rfl

theorem runTogether_cons_cons (c d : Char) (cs bs : List Char) :
    runTogether (c :: d :: cs) bs = runTogether (d :: cs) bs := by
  rw [runTogether, endsWord, List.getLast?_cons_cons]
  rfl

theorem runTogether_of_not_startsWord (as : List Char) {bs : List Char}
    (h : startsWord bs = false) : runTogether as bs = false := by
  rw [runTogether, h, Bool.and_false]

/-- Texts that do not run together keep their words. -/
theorem words_append {bs : List Char} : ∀ {as : List Char}, runTogether as bs = false →
    words (as ++ bs) = words as ++ words bs
  | [], _ => rfl
  | [a], h => by
    rw [List.singleton_append]
    cases ha : isBlank a with
    | true =>
      rw [words_cons_of_blank ha, words_cons_of_blank ha]
      rfl
    | false =>
      have hbs : startsWord bs = false := by simpa [runTogether_singleton, ha] using h
      rw [words_cons_of_not_blank ha, words_cons_of_not_blank ha, hbs]
      rfl
  | a :: c :: cs, h => by
    rw [runTogether_cons_cons] at h
    have hwords : words (c :: cs ++ bs) = words (c :: cs) ++ words bs := words_append h
    have hstart : startsWord (c :: cs ++ bs) = startsWord (c :: cs) := rfl
    rw [List.cons_append]
    cases ha : isBlank a with
    | true => rw [words_cons_of_blank ha, words_cons_of_blank ha, hwords]
    | false =>
      rw [words_cons_of_not_blank ha, words_cons_of_not_blank ha, hwords, hstart]
      by_cases hs : startsWord (c :: cs) = true
      · rw [if_pos hs, if_pos hs, growHead_append (words_ne_nil hs)]
      · rw [if_neg hs, if_neg hs, List.cons_append]

/-- Where texts run together, the last word of the first and the first of the second are one word,
and the others stay. -/
theorem words_append_of_runTogether {bs : List Char} : ∀ {as : List Char},
    runTogether as bs = true → ∃ vs v w ws, words as = vs ++ [v] ∧ words bs = w :: ws ∧
      words (as ++ bs) = vs ++ (v ++ w) :: ws
  | [a], h => by
    rw [runTogether_singleton, Bool.and_eq_true, Bool.not_eq_true'] at h
    obtain ⟨ha, hstart⟩ := h
    obtain ⟨w, ws, hbs⟩ := List.exists_cons_of_ne_nil (words_ne_nil hstart)
    refine ⟨[], [a], w, ws, ?_, hbs, ?_⟩
    · rw [words_cons_of_not_blank ha]
      rfl
    · rw [List.singleton_append, words_cons_of_not_blank ha, if_pos hstart, hbs]
      rfl
  | a :: c :: cs, h => by
    rw [runTogether_cons_cons] at h
    obtain ⟨vs, v, w, ws, has, hbs, hboth⟩ := words_append_of_runTogether h
    have hstart : startsWord (c :: cs ++ bs) = startsWord (c :: cs) := rfl
    rw [List.cons_append]
    cases ha : isBlank a with
    | true =>
      refine ⟨vs, v, w, ws, ?_, hbs, ?_⟩
      · rw [words_cons_of_blank ha, has]
      · rw [words_cons_of_blank ha, hboth]
    | false =>
      rw [words_cons_of_not_blank ha, words_cons_of_not_blank ha, hboth, has, hstart]
      by_cases hs : startsWord (c :: cs) = true
      · rw [if_pos hs, if_pos hs]
        cases vs with
        | nil => exact ⟨[], a :: v, w, ws, rfl, hbs, rfl⟩
        | cons u us => exact ⟨(a :: u) :: us, v, w, ws, rfl, hbs, rfl⟩
      · rw [if_neg hs, if_neg hs]
        exact ⟨[a] :: vs, v, w, ws, rfl, hbs, rfl⟩

theorem length_words_append (as bs : List Char) :
    (words (as ++ bs)).length + (runTogether as bs).toNat
      = (words as).length + (words bs).length := by
  cases h : runTogether as bs with
  | false =>
    rw [words_append h, List.length_append]
    rfl
  | true =>
    obtain ⟨vs, v, w, ws, has, hbs, hboth⟩ := words_append_of_runTogether h
    simp only [has, hbs, hboth, List.length_append, List.length_cons, List.length_nil,
      Bool.toNat_true]
    omega

/-- Texts keep their words exactly if they do not run together. -/
theorem words_append_iff {as bs : List Char} :
    words (as ++ bs) = words as ++ words bs ↔ runTogether as bs = false := by
  constructor
  · intro heq
    have hlength := length_words_append as bs
    rw [heq, List.length_append] at hlength
    exact Bool.toNat_eq_zero.1 (by omega)
  · exact words_append

/-! ## Any number of texts -/

section

variable {α : Type} (text : α → List Char)

/-- No text runs together with `before` and the texts in front of it. -/
def KeptApart (before : List Char) (xs : List α) : Prop :=
  ∀ left x right, xs = left ++ x :: right →
    runTogether (before ++ left.flatMap text) (text x) = false

theorem keptApart_cons_iff {before : List Char} {x : α} {xs : List α} :
    KeptApart text before (x :: xs) ↔
      runTogether before (text x) = false ∧ KeptApart text (before ++ text x) xs := by
  constructor
  · intro h
    refine ⟨by simpa using h [] x xs rfl, fun left y right hxs => ?_⟩
    simpa using h (x :: left) y right (by rw [hxs, List.cons_append])
  · rintro ⟨hx, h⟩ left y right hxs
    cases left with
    | nil =>
      cases hxs
      simpa using hx
    | cons z left =>
      rw [List.cons_append] at hxs
      cases hxs
      simpa using h left y right rfl

theorem length_words_flatMap_le (before : List Char) (xs : List α) :
    (words (before ++ xs.flatMap text)).length
      ≤ (words before).length + (xs.flatMap fun x => words (text x)).length := by
  induction xs generalizing before with
  | nil => simp
  | cons x xs ih =>
    have hx := length_words_append before (text x)
    have hxs := ih (before ++ text x)
    rw [List.append_assoc] at hxs
    rw [List.flatMap_cons, List.flatMap_cons, List.length_append]
    omega

theorem words_append_flatMap_iff (before : List Char) (xs : List α) :
    words (before ++ xs.flatMap text) = words before ++ xs.flatMap (fun x => words (text x)) ↔
      KeptApart text before xs := by
  induction xs generalizing before with
  | nil => simp [KeptApart]
  | cons x xs ih =>
    rw [keptApart_cons_iff, ← ih, List.flatMap_cons, List.flatMap_cons, ← List.append_assoc,
      ← List.append_assoc]
    cases h : runTogether before (text x) with
    | false => rw [words_append h, and_iff_right rfl]
    | true =>
      -- a word is missing, and what follows brings none that is not its own
      have hx := length_words_append before (text x)
      have hxs := length_words_flatMap_le text (before ++ text x) xs
      rw [h, Bool.toNat_true] at hx
      constructor
      · intro heq
        have hlen := congrArg List.length heq
        simp only [List.length_append] at hlen
        omega
      · nofun

/-- The words of joined texts are those of the texts exactly if none runs together with what
stands in front of it. -/
theorem words_flatMap_iff (xs : List α) :
    words (xs.flatMap text) = xs.flatMap (fun x => words (text x)) ↔ KeptApart text [] xs :=
  words_append_flatMap_iff text [] xs

end

end AndroidBoot
