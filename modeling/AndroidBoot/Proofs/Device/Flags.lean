import Mathlib.Data.Nat.Bitwise
import AndroidBoot.Device.Flags
import AndroidBoot.Proofs.Number.Digits
import AndroidBoot.Proofs.Text.Lines

/-!
# Flags can be read again

The written flags are parts with bars between them: the names of the flags that are set, and a
number for the bits that have no name. Every part is read back as the bits it was written for, and
these are all bits there are.

    parse? f.text = some f                                                       (parse?_text)
-/

namespace AndroidBoot

/-- What can stand between bars: neither a bar nor a blank is in it. -/
structure FlagPart (part : List Char) : Prop where
  ne_nil : part ≠ []
  not_blank : ∀ c ∈ part, isBlank c = false
  not_bar : ∀ c ∈ part, (c == '|') = false

/-! ## Parts between bars -/

/-- The parts are found between the bars, whatever blanks stand in front of the first. -/
theorem map_trim_splitAtChars {parts : List (List Char)} (hparts : ∀ p ∈ parts, FlagPart p)
    (hne : parts ≠ []) {blanks : List Char} (hblanks : blanks = [] ∨ blanks = [' ']) :
    (splitAtChars (· == '|') (blanks ++ [' ', '|', ' '].intercalate parts)).map trim = parts := by
  have hblank : ∀ c ∈ blanks, isBlank c = true := by
    rcases hblanks with rfl | rfl
    · nofun
    · exact List.forall_mem_singleton.2 (by decide)
  have hbar : ∀ c ∈ blanks, (c == '|') = false := by
    rcases hblanks with rfl | rfl
    · nofun
    · exact List.forall_mem_singleton.2 (by decide)
  induction parts generalizing blanks with
  | nil => exact absurd rfl hne
  | cons p ps ih =>
    have hp := hparts p List.mem_cons_self
    cases ps with
    | nil =>
      have hpiece : ∀ c ∈ blanks ++ p, (c == '|') = false := by
        intro c hc
        rcases List.mem_append.1 hc with hc | hc
        · exact hbar c hc
        · exact hp.not_bar c hc
      have htrim := trim_padded hblank (List.forall_mem_nil _) hp.not_blank hp.ne_nil
      rw [List.append_nil] at htrim
      rw [List.intercalate_singleton, splitAtChars_of_none hpiece, List.map_singleton, htrim]
    | cons q qs =>
      have hpiece : ∀ c ∈ blanks ++ (p ++ [' ']), (c == '|') = false := by
        intro c hc
        rcases List.mem_append.1 hc with hc | hc
        · exact hbar c hc
        · rcases List.mem_append.1 hc with hc | hc
          · exact hp.not_bar c hc
          · rw [List.mem_singleton.1 hc]
            decide
      have hsplit : blanks ++ [' ', '|', ' '].intercalate (p :: q :: qs)
          = (blanks ++ (p ++ [' ']))
            ++ '|' :: ([' '] ++ [' ', '|', ' '].intercalate (q :: qs)) := by
        rw [List.intercalate_cons_cons]
        simp
      have hrest := ih (fun p hp => hparts p (List.mem_cons_of_mem _ hp)) (List.cons_ne_nil q qs)
        (.inr rfl) (List.forall_mem_singleton.2 (by decide))
        (List.forall_mem_singleton.2 (by decide))
      rw [hsplit, splitAtChars_append (by decide), splitAtChars_of_none hpiece, List.map_append,
        hrest, List.map_singleton, trim_padded hblank (List.forall_mem_singleton.2 (by decide))
          hp.not_blank hp.ne_nil]
      rfl

theorem startsWord_intercalate {parts : List (List Char)} (hparts : ∀ p ∈ parts, FlagPart p)
    (hne : parts ≠ []) : startsWord ([' ', '|', ' '].intercalate parts) = true := by
  obtain ⟨p, ps, rfl⟩ := List.exists_cons_of_ne_nil hne
  have hp := hparts p List.mem_cons_self
  obtain ⟨c, cs, rfl⟩ := List.exists_cons_of_ne_nil hp.ne_nil
  have hc := hp.not_blank c List.mem_cons_self
  cases ps with
  | nil =>
    rw [List.intercalate_singleton, startsWord_cons, hc]
    rfl
  | cons q qs =>
    rw [List.intercalate_cons_cons, List.cons_append, List.cons_append, startsWord_cons, hc]
    rfl

/-! ## Bits -/

theorem and_or_distrib (a b c : UInt32) : a &&& (b ||| c) = (a &&& b) ||| (a &&& c) := by
  apply UInt32.toNat_inj.1
  simp only [UInt32.toNat_and, UInt32.toNat_or]
  exact Nat.and_or_distrib_left ..

namespace DeviceFlags

/-- Each flag is one bit. -/
theorem and_mask (bits : UInt32) (flag : DeviceFlag) :
    bits &&& flag.mask = 0 ∨ bits &&& flag.mask = flag.mask := by
  have hbit : ∃ i, flag.mask.toNat = 2 ^ i := by
    cases flag
    exacts [⟨0, rfl⟩, ⟨1, rfl⟩, ⟨2, rfl⟩, ⟨3, rfl⟩, ⟨4, rfl⟩, ⟨5, rfl⟩, ⟨6, rfl⟩, ⟨7, rfl⟩,
      ⟨8, rfl⟩]
  obtain ⟨i, hi⟩ := hbit
  have hand : (bits &&& flag.mask).toNat = (bits.toNat.testBit i).toNat * 2 ^ i := by
    rw [UInt32.toNat_and, hi, Nat.and_two_pow]
  cases hset : bits.toNat.testBit i with
  | false =>
    left
    apply UInt32.toNat_inj.1
    rw [hand, hset]
    exact Nat.zero_mul _
  | true =>
    right
    apply UInt32.toNat_inj.1
    rw [hand, hset, hi]
    exact Nat.one_mul _

/-- The masks of the flags that are set are the bits that these flags have. -/
theorem foldl_or_masks (f : DeviceFlags) (flags : List DeviceFlag) (bits : UInt32) :
    ((flags.filter f.has).map DeviceFlag.mask).foldl (· ||| ·) bits
      = bits ||| (f.bits &&& (flags.map DeviceFlag.mask).foldr (· ||| ·) 0) := by
  induction flags generalizing bits with
  | nil => simp
  | cons flag flags ih =>
    rw [List.map_cons, List.foldr_cons, and_or_distrib]
    by_cases hflag : f.has flag = true
    · have hmask : f.bits &&& flag.mask = flag.mask := by
        apply (and_mask f.bits flag).resolve_left
        simpa [has] using hflag
      rw [List.filter_cons_of_pos hflag, List.map_cons, List.foldl_cons, ih, hmask, UInt32.or_assoc]
    · have hmask : f.bits &&& flag.mask = 0 := by
        simpa [has] using hflag
      rw [List.filter_cons_of_neg hflag, ih, hmask, UInt32.zero_or]

/-- The masks of the parts that are written. -/
def writtenBits (f : DeviceFlags) : List UInt32 :=
  (DeviceFlag.all.filter f.has).map DeviceFlag.mask ++ if f.unnamed = 0 then [] else [f.unnamed]

theorem foldl_writtenBits (f : DeviceFlags) : f.writtenBits.foldl (· ||| ·) 0 = f.bits := by
  have hnamed : (DeviceFlag.all.map DeviceFlag.mask).foldr (· ||| ·) 0 = 0x1FF := by decide
  have hall : (0x1FF : UInt32) ||| 0xFFFFFE00 = -1 := by decide
  have hunnamed : (if f.unnamed = 0 then [] else [f.unnamed]).foldl (· ||| ·) (f.bits &&& 0x1FF)
      = (f.bits &&& 0x1FF) ||| f.unnamed := by
    split
    · next h => rw [h, List.foldl_nil, UInt32.or_zero]
    · rfl
  rw [writtenBits, List.foldl_append, foldl_or_masks, hnamed, UInt32.zero_or, hunnamed, unnamed,
    ← and_or_distrib, hall, UInt32.and_neg_one]

/-! ## Reading the parts -/

/-- The parts that are written. -/
def writtenParts (f : DeviceFlags) : List (List Char) :=
  (DeviceFlag.all.filter f.has).map (·.name.toList)
    ++ if f.unnamed = 0 then [] else ['0' :: 'x' :: Nat.toDigits 16 f.unnamed.toNat]

theorem toList_text (f : DeviceFlags) :
    f.text.toList = [' ', '|', ' '].intercalate f.writtenParts := by
  have hparts : ((DeviceFlag.all.filter f.has).map DeviceFlag.name
      ++ if f.unnamed = 0 then [] else [hex f.unnamed.toNat]).map String.toList
        = f.writtenParts := by
    rw [writtenParts, List.map_append, List.map_map]
    congr 1
    split
    · rfl
    · simp only [List.map_singleton, hex, hexDigits, String.toList_append, String.toList_ofList]
      rfl
  rw [text, String.toList_intercalate, hparts]
  rfl

theorem flagPart_of_mem {f : DeviceFlags} {part : List Char} (h : part ∈ f.writtenParts) :
    FlagPart part := by
  rcases List.mem_append.1 h with h | h
  · obtain ⟨flag, -, rfl⟩ := List.mem_map.1 h
    have hfilled : flag.name.toList ≠ [] := by cases flag <;> decide
    have hblank : flag.name.toList.any isBlank = false := by cases flag <;> decide
    have hbar : flag.name.toList.any (· == '|') = false := by cases flag <;> decide
    refine ⟨hfilled, fun c hc => ?_, fun c hc => ?_⟩
    · exact Bool.not_eq_true _ ▸ List.any_eq_false.1 hblank c hc
    · exact Bool.not_eq_true _ ▸ List.any_eq_false.1 hbar c hc
  · split at h
    · cases h
    · rw [List.mem_singleton.1 h]
      have hblank : ∀ d < 16, isBlank (Nat.digitChar d) = false := by decide
      have hbar : ∀ d < 16, (Nat.digitChar d == '|') = false := by decide
      refine ⟨List.cons_ne_nil _ _, ?_, ?_⟩
      · simp only [List.forall_mem_cons]
        exact ⟨by decide, by decide, forall_mem_toDigits (by decide) hblank _⟩
      · simp only [List.forall_mem_cons]
        exact ⟨by decide, by decide, forall_mem_toDigits (by decide) hbar _⟩

theorem parsePart?_name (flag : DeviceFlag) : parsePart? flag.name.toList = some flag.mask := by
  cases flag <;> decide

theorem parsePart?_hex (n : UInt32) :
    parsePart? ('0' :: 'x' :: Nat.toDigits 16 n.toNat) = some n := by
  rw [parsePart?, readNat?_toDigits (by decide) (by decide) n.toNat_lt, Option.map_some,
    UInt32.ofNat_toNat]

/-- Every part is read as what it was written for. -/
theorem mapM_parsePart? (f : DeviceFlags) :
    f.writtenParts.mapM parsePart? = some f.writtenBits := by
  have hnames : ∀ flags : List DeviceFlag, (flags.map (·.name.toList)).mapM parsePart?
      = some (flags.map DeviceFlag.mask) := by
    intro flags
    induction flags with
    | nil => rfl
    | cons flag flags ih =>
      rw [List.map_cons, List.mapM_cons, parsePart?_name, ih]
      rfl
  rw [writtenParts, List.mapM_append, hnames, writtenBits]
  split
  · rfl
  · rw [List.mapM_cons, parsePart?_hex]
    rfl

/-- **Flags.** Written flags are read again as the same bits, with a name or without one. -/
theorem parse?_text (f : DeviceFlags) : parse? f.text = some f := by
  have hbits := f.foldl_writtenBits
  have hreads := f.mapM_parsePart?
  unfold parse?
  rw [toList_text]
  by_cases hparts : f.writtenParts = []
  · -- nothing is written, so that no bit is set
    rw [hparts] at hreads ⊢
    rw [← Option.some.inj hreads] at hbits
    have hzero : f = empty := congrArg DeviceFlags.mk hbits.symm
    rw [hzero]
    rfl
  · have hall : ∀ p ∈ f.writtenParts, FlagPart p := fun p hp => flagPart_of_mem hp
    have hfilled := trim_ne_nil (startsWord_intercalate hall hparts)
    have hpieces := map_trim_splitAtChars hall hparts (.inl rfl)
    rw [List.nil_append] at hpieces
    rw [if_neg (by simpa using hfilled), ← List.mapM_map, hpieces, hreads]
    show some (DeviceFlags.mk (f.writtenBits.foldl (· ||| ·) 0)) = some f
    rw [hbits]

/-- The bit with the number 15 has no name. -/
example : (DeviceFlags.mk 0x8014).text = "MULTI_SLOT | LE_VARIANT | 0x8000" := by decide

end DeviceFlags

end AndroidBoot
