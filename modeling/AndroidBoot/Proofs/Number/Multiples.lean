import Mathlib.Algebra.Ring.Nat
import Mathlib.Order.Bounds.Basic
import AndroidBoot.Number.Rounding

/-!
# Next multiples

The next multiple is found in three ways: by the distance to it, by a sum that has to fit a word,
and by a quotient. All three find the least multiple that is not below the number, and alignments
need not be powers of two.

    NextMultiple n a m ↔ m = n + padding n a                            (nextMultiple_iff)
    roundUp? bits n a = some m ↔ NextMultiple n a m ∧ m < 2 ^ bits      (roundUp?_eq_some_iff)
    NextMultiple n a (q * a) ↔ q = divCeil n a                          (nextMultiple_mul_iff)

Words of fixed width follow the same rules. The sum is the only step that can leave the width.

    (Word.roundUp? n a).map BitVec.toNat = roundUp? bits n.toNat a.toNat       (Word.map_roundUp?)
    (Word.divCeil n a).toNat = divCeil n.toNat a.toNat                         (Word.toNat_divCeil)
-/

namespace AndroidBoot

/-- The least multiple of `a` that is not below `n`. -/
def NextMultiple (n a m : Nat) : Prop := IsLeast {k | a ∣ k ∧ n ≤ k} m

variable {n a m : Nat}

theorem nextMultiple_add_padding (ha : 0 < a) : NextMultiple n a (n + padding n a) := by
  refine ⟨⟨dvd_add_padding ha, Nat.le_add_right n _⟩, ?_⟩
  rintro k ⟨hdvd, hle⟩
  by_contra hlt
  -- Two multiples of `a` that are less than `a` apart are the same.
  have hpadding := padding_lt (n := n) ha
  have hgap : a ∣ n + padding n a - k := Nat.dvd_sub (dvd_add_padding ha) hdvd
  have hge := Nat.le_of_dvd (by omega) hgap
  omega

theorem nextMultiple_iff (ha : 0 < a) : NextMultiple n a m ↔ m = n + padding n a := by
  constructor
  · exact fun h => h.unique (nextMultiple_add_padding ha)
  · rintro rfl
    exact nextMultiple_add_padding ha

/-! ## Words of fixed width -/

variable {bits : Nat}

theorem roundUp?_eq (bits n a : Nat) : roundUp? bits n a =
    if n + padding n a < 2 ^ bits then some (n + padding n a) else none := rfl

theorem roundUp?_eq_some_iff (ha : 0 < a) :
    roundUp? bits n a = some m ↔ NextMultiple n a m ∧ m < 2 ^ bits := by
  rw [nextMultiple_iff ha, roundUp?_eq]
  split
  · next hfits =>
    rw [Option.some_inj]
    constructor
    · rintro rfl
      exact ⟨rfl, hfits⟩
    · rintro ⟨rfl, -⟩
      rfl
  · next hfits =>
    refine iff_of_false nofun ?_
    rintro ⟨rfl, hlt⟩
    exact hfits hlt

theorem roundUp?_eq_none_iff : roundUp? bits n a = none ↔ 2 ^ bits ≤ n + padding n a := by
  rw [roundUp?_eq]
  split
  · next hfits => exact iff_of_false nofun (Nat.not_le.2 hfits)
  · next hfits => exact iff_of_true rfl (Nat.le_of_not_lt hfits)

/-! ## Quotients -/

theorem nextMultiple_mul_iff {q : Nat} (ha : 0 < a) :
    NextMultiple n a (q * a) ↔ q = divCeil n a := by
  rw [nextMultiple_iff ha, ← divCeil_mul ha]
  exact Nat.mul_left_inj (Nat.ne_of_gt ha)

/-- A quotient is not above the number, so it fits where the number does. -/
theorem divCeil_le (ha : 0 < a) : divCeil n a ≤ n := by
  have hmul := divCeil_mul (n := n) ha
  have hpadding := padding_lt (n := n) ha
  by_contra hlt
  have hge : (n + 1) * a ≤ divCeil n a * a := Nat.mul_le_mul_right a (Nat.not_le.1 hlt)
  have hsum : n * 1 ≤ n * a := Nat.mul_le_mul_left n ha
  rw [Nat.succ_mul] at hge
  omega

/-! ## Words -/

namespace Word

variable {n a : BitVec bits}

/-- How far `n` is below the next multiple of `a`. -/
def padding (n a : BitVec bits) : BitVec bits :=
  if n % a = 0 then 0 else a - n % a

/-- The next multiple of `a` from `n` on, if the sum does not wrap around. -/
def roundUp? (n a : BitVec bits) : Option (BitVec bits) :=
  if n.uaddOverflow (padding n a) then none else some (n + padding n a)

/-- The quotient of `n` by `a`, rounded up; it wraps around where it does not fit. -/
def divCeil (n a : BitVec bits) : BitVec bits :=
  if n % a = 0 then n / a else n / a + 1

theorem umod_eq_zero_iff : n % a = 0 ↔ n.toNat % a.toNat = 0 := by
  rw [← BitVec.toNat_inj, BitVec.toNat_umod]
  rfl

theorem toNat_padding (ha : 0 < a.toNat) :
    (padding n a).toNat = AndroidBoot.padding n.toNat a.toNat := by
  have hle : n % a ≤ a := by
    rw [BitVec.le_def, BitVec.toNat_umod]
    exact Nat.le_of_lt (Nat.mod_lt _ ha)
  unfold padding AndroidBoot.padding
  simp only [umod_eq_zero_iff]
  split
  · rfl
  · rw [BitVec.toNat_sub_of_le hle, BitVec.toNat_umod]

theorem map_roundUp? (ha : 0 < a.toNat) :
    (roundUp? n a).map BitVec.toNat = AndroidBoot.roundUp? bits n.toNat a.toNat := by
  have hwraps : n.uaddOverflow (padding n a) = true ↔
      2 ^ bits ≤ n.toNat + AndroidBoot.padding n.toNat a.toNat := by
    rw [← toNat_padding ha]
    simp [BitVec.uaddOverflow]
  unfold roundUp?
  rw [roundUp?_eq]
  split
  · next h => rw [if_neg (Nat.not_lt.2 (hwraps.1 h)), Option.map_none]
  · next h =>
    have hfits := Nat.not_le.1 (mt hwraps.2 h)
    rw [if_pos hfits, Option.map_some, BitVec.toNat_add, toNat_padding ha, Nat.mod_eq_of_lt hfits]

/-- The quotient is not above `n`, so one more than it does not wrap around. -/
theorem toNat_divCeil (ha : 0 < a.toNat) :
    (divCeil n a).toNat = AndroidBoot.divCeil n.toNat a.toNat := by
  have hle := divCeil_le (n := n.toNat) ha
  have hlt := n.isLt
  unfold divCeil
  unfold AndroidBoot.divCeil at hle ⊢
  simp only [umod_eq_zero_iff]
  split
  · exact BitVec.toNat_udiv
  · next h =>
    rw [if_neg h] at hle
    have hone : (1 : BitVec bits).toNat = 1 := by
      show 1 % 2 ^ bits = 1
      exact Nat.mod_eq_of_lt (by omega)
    rw [BitVec.toNat_add, BitVec.toNat_udiv, hone, Nat.mod_eq_of_lt (by omega)]

end Word

end AndroidBoot
