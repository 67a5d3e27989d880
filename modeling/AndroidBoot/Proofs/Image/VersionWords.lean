import AndroidBoot.Image.OsVersion

/-!
# Version words

A word and its version say the same, but for the month: four bits hold up to fifteen, and a version
with a month above twelve is not written. Before a version is written its fields are checked from
the highest bits of the word down, and the first that does not fit is the one that is named.

    v.toWord? = Field.answer v.fields (UInt32.ofNat v.word)                          (toWord?_eq)
    v.toWord? = .ok r ↔ ofWord r = v ∧ r.toNat % 16 ≤ 12                      (toWord?_eq_ok_iff)
-/

namespace AndroidBoot.OsVersion

/-- A field of a version, with the values that can be written. -/
structure Field where
  name : String
  range : Interval
  value : Nat

namespace Field

def Fits (f : Field) : Prop := f.range.Contains f.value

instance (f : Field) : Decidable f.Fits := by
  unfold Fits
  infer_instance

/-- What is said of a field that does not fit. -/
def refusal (f : Field) : ImageError :=
  .fieldOutOfBounds ("OsVersion::" ++ f.name) ⟨f.value, f.range⟩

section

variable {α : Type} {fs : List Field} {a : α}

/-- The refusal of the first field that does not fit, or else `a`. -/
def answer (fs : List Field) (a : α) : Except ImageError α :=
  match fs.find? fun f => !decide f.Fits with
  | some f => .error f.refusal
  | none => .ok a

/-- One check goes before the answer to the fields behind it. -/
theorem checkField_bind {name : String} {range : Interval} {value : Nat}
    {next : Nat → Except ImageError α} (hnext : next value = answer fs a) :
    checkField name range value >>= next = answer (⟨name, range, value⟩ :: fs) a := by
  by_cases hfits : range.Contains value
  · have hfits' : Fits ⟨name, range, value⟩ := hfits
    have hpass : checkField name range value = .ok value := by
      rw [checkField, Interval.check_eq_ok_iff.2 ⟨rfl, hfits⟩]
    have hskip : answer (⟨name, range, value⟩ :: fs) a = answer fs a := by
      rw [answer, List.find?_cons_of_neg (by simpa using hfits')]
      rfl
    rw [hpass, hskip]
    exact hnext
  · have hmisfit : ¬ Fits ⟨name, range, value⟩ := hfits
    have hstop : checkField name range value = .error (refusal ⟨name, range, value⟩) := by
      rw [checkField, Interval.check, if_neg hfits]
      rfl
    have hfound : answer (⟨name, range, value⟩ :: fs) a
        = .error (refusal ⟨name, range, value⟩) := by
      rw [answer, List.find?_cons_of_pos (by simpa using hmisfit)]
    rw [hstop, hfound]
    rfl

theorem answer_eq_error_iff {e : ImageError} :
    answer fs a = .error e ↔ ∃ before f after, fs = before ++ f :: after ∧
      (∀ g ∈ before, g.Fits) ∧ ¬ f.Fits ∧ e = f.refusal := by
  unfold answer
  constructor
  · intro h
    split at h
    · next f hfind =>
      obtain ⟨hmisfit, before, after, rfl, hbefore⟩ := List.find?_eq_some_iff_append.1 hfind
      cases h
      exact ⟨before, f, after, rfl, by simpa using hbefore, by simpa using hmisfit, rfl⟩
    · cases h
  · rintro ⟨before, f, after, rfl, hbefore, hmisfit, rfl⟩
    have hfind : (before ++ f :: after).find? (fun g => !decide g.Fits) = some f :=
      List.find?_eq_some_iff_append.2
        ⟨by simpa using hmisfit, before, after, rfl, by simpa using hbefore⟩
    rw [hfind]

theorem answer_eq_ok_iff {b : α} : answer fs a = .ok b ↔ (∀ f ∈ fs, f.Fits) ∧ a = b := by
  have hnone : (fs.find? fun f => !decide f.Fits) = none ↔ ∀ f ∈ fs, f.Fits := by
    rw [List.find?_eq_none]
    simp
  rw [answer, ← hnone]
  cases fs.find? fun f => !decide f.Fits <;> simp

end

end Field

variable {v : OsVersion} {r : UInt32}

/-- The fields, those in the highest bits first. -/
def fields (v : OsVersion) : List Field :=
  [⟨"major", .upTo 127, v.major.toNat⟩, ⟨"minor", .upTo 127, v.minor.toNat⟩,
    ⟨"patch", .upTo 127, v.patch.toNat⟩, ⟨"year", .closed 2000 2127, v.year.toNat⟩,
    ⟨"month", .upTo 12, v.month.toNat⟩]

/-- The fields, each in its bits. -/
def word (v : OsVersion) : Nat :=
  (v.major.toNat <<< 25) + (v.minor.toNat <<< 18) + (v.patch.toNat <<< 11)
    + ((v.year.toNat - 2000) <<< 4) + v.month.toNat

/-- Every field has a value that can be written. -/
structure Writable (v : OsVersion) : Prop where
  major : v.major.toNat ≤ 127
  minor : v.minor.toNat ≤ 127
  patch : v.patch.toNat ≤ 127
  firstYear : 2000 ≤ v.year.toNat
  lastYear : v.year.toNat ≤ 2127
  month : v.month.toNat ≤ 12

theorem forall_fits_iff : (∀ f ∈ v.fields, f.Fits) ↔ v.Writable := by
  simp only [fields, List.forall_mem_cons, Field.Fits, Interval.Contains, Interval.upTo,
    Interval.closed]
  constructor
  · rintro ⟨hmajor, hminor, hpatch, hyear, hmonth, -⟩
    constructor <;> omega
  · rintro ⟨hmajor, hminor, hpatch, hfirst, hlast, hmonth⟩
    exact ⟨⟨trivial, by omega⟩, ⟨trivial, by omega⟩, ⟨trivial, by omega⟩, by omega,
      ⟨trivial, by omega⟩, List.forall_mem_nil _⟩

theorem toWord?_eq (v : OsVersion) : v.toWord? = Field.answer v.fields (UInt32.ofNat v.word) := by
  unfold toWord? fields
  iterate 5 apply Field.checkField_bind
  rfl

/-! ## Words and versions -/

/-- The bits of a word, put together again. -/
theorem word_ofWord (r : UInt32) : (ofWord r).word = r.toNat := by
  have hr := r.toNat_lt
  simp only [word, ofWord, UInt8.toNat_ofNat', UInt16.toNat_ofNat']
  omega

theorem month_ofWord (r : UInt32) : (ofWord r).month.toNat = r.toNat % 16 := by
  simp only [ofWord, UInt8.toNat_ofNat']
  omega

theorem fits_month_ofWord_iff :
    Field.Fits ⟨"month", .upTo 12, (ofWord r).month.toNat⟩ ↔ r.toNat % 16 ≤ 12 := by
  show True ∧ ((ofWord r).month.toNat : Int) ≤ 12 ↔ r.toNat % 16 ≤ 12
  rw [month_ofWord, true_and]
  omega

/-- Seven bits are in range whatever they are. -/
theorem fits_of_mem_take_fields (r : UInt32) : ∀ f ∈ (ofWord r).fields.take 4, f.Fits := by
  have hr := r.toNat_lt
  simp only [fields, ofWord, List.take_succ_cons, List.take_zero, List.forall_mem_cons, Field.Fits,
    Interval.Contains, Interval.upTo, Interval.closed, UInt8.toNat_ofNat', UInt16.toNat_ofNat']
  exact ⟨⟨trivial, by omega⟩, ⟨trivial, by omega⟩, ⟨trivial, by omega⟩, by omega,
    List.forall_mem_nil _⟩

/-- The month alone decides whether the version of a word can be written. -/
theorem writable_ofWord_iff : (ofWord r).Writable ↔ r.toNat % 16 ≤ 12 := by
  rw [← forall_fits_iff, ← List.take_append_drop 4 (ofWord r).fields, List.forall_mem_append,
    and_iff_right (fits_of_mem_take_fields r)]
  exact List.forall_mem_singleton.trans fits_month_ofWord_iff

/-- The fields do not overlap, and so are found again in their word. -/
theorem ofWord_word (h : v.Writable) : ofWord (UInt32.ofNat v.word) = v := by
  obtain ⟨hmajor, hminor, hpatch, hfirst, hlast, hmonth⟩ := h
  have hword : (UInt32.ofNat v.word).toNat = v.word := by
    rw [UInt32.toNat_ofNat', Nat.mod_eq_of_lt]
    unfold word
    omega
  have hmajor' : v.word >>> 25 = v.major.toNat := by unfold word; omega
  have hminor' : (v.word >>> 18) % 128 = v.minor.toNat := by unfold word; omega
  have hpatch' : (v.word >>> 11) % 128 = v.patch.toNat := by unfold word; omega
  have hyear' : 2000 + (v.word >>> 4) % 128 = v.year.toNat := by unfold word; omega
  have hmonth' : v.word % 16 = v.month.toNat := by unfold word; omega
  simp only [ofWord, hword, hmajor', hminor', hpatch', hyear', hmonth', UInt8.ofNat_toNat,
    UInt16.ofNat_toNat]

theorem toWord?_eq_ok_iff : v.toWord? = .ok r ↔ ofWord r = v ∧ r.toNat % 16 ≤ 12 := by
  rw [toWord?_eq, Field.answer_eq_ok_iff, forall_fits_iff]
  constructor
  · rintro ⟨hwritable, rfl⟩
    have hfields := ofWord_word hwritable
    exact ⟨hfields, writable_ofWord_iff.1 (hfields.symm ▸ hwritable)⟩
  · rintro ⟨rfl, hmonth⟩
    exact ⟨writable_ofWord_iff.2 hmonth, by rw [word_ofWord, UInt32.ofNat_toNat]⟩

theorem toWord?_of_month (h : ¬ r.toNat % 16 ≤ 12) : (ofWord r).toWord?
    = .error (.fieldOutOfBounds "OsVersion::month" ⟨(r.toNat % 16 : Nat), .upTo 12⟩) := by
  rw [toWord?_eq, Field.answer_eq_error_iff]
  refine ⟨(ofWord r).fields.take 4, ⟨"month", .upTo 12, (ofWord r).month.toNat⟩, [], rfl,
    fits_of_mem_take_fields r, mt fits_month_ofWord_iff.1 h, ?_⟩
  rw [Field.refusal, month_ofWord]
  rfl

/-- **Version words.** Of every word with a month up to twelve the version is written as this word,
and of every other word the month is refused. A version is written exactly if all its fields are in
their ranges, and else the first that is not is named; and if its word is `r`, it is the version of
`r`. -/
theorem versions_and_words :
    (∀ r : UInt32, (ofWord r).toWord? =
      if r.toNat % 16 ≤ 12 then .ok r
      else .error (.fieldOutOfBounds "OsVersion::month" ⟨(r.toNat % 16 : Nat), .upTo 12⟩)) ∧
    (∀ v : OsVersion, (∃ r, v.toWord? = .ok r) ↔ v.Writable) ∧
    (∀ (v : OsVersion) (e : ImageError), v.toWord? = .error e ↔
      ∃ before f after, v.fields = before ++ f :: after ∧
        (∀ g ∈ before, g.Fits) ∧ ¬ f.Fits ∧ e = f.refusal) ∧
    ∀ (v : OsVersion) (r : UInt32), v.toWord? = .ok r ↔ ofWord r = v ∧ r.toNat % 16 ≤ 12 := by
  refine ⟨fun r => ?_, fun v => ?_, fun v e => ?_, fun v r => toWord?_eq_ok_iff⟩
  · split
    · next hmonth => exact toWord?_eq_ok_iff.2 ⟨rfl, hmonth⟩
    · next hmonth => exact toWord?_of_month hmonth
  · simp only [toWord?_eq, Field.answer_eq_ok_iff, forall_fits_iff, exists_and_left, exists_eq',
      and_true]
  · rw [toWord?_eq, Field.answer_eq_error_iff]

end AndroidBoot.OsVersion
