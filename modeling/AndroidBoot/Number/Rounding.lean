/-!
# Rounding to multiples

`padding n a` is the distance from `n` up to the next multiple of `a`, `roundUp? bits n a` that
multiple if it fits a word of `bits` bits, and `divCeil n a` its quotient by `a`.

    a ∣ n + padding n a,  padding n a < a                        (dvd_add_padding, padding_lt)
    divCeil n a * a = n + padding n a                            (divCeil_mul)
-/

namespace AndroidBoot

/-- How far `n` is below the next multiple of `a`. -/
def padding (n a : Nat) : Nat :=
  if n % a = 0 then 0 else a - n % a

/-- The next multiple of `a` from `n` on, if it is below `2 ^ bits`. -/
def roundUp? (bits n a : Nat) : Option Nat :=
  let m := n + padding n a
  if m < Nat.pow 2 bits then some m else none

/-- The quotient of `n` by `a`, rounded up. -/
def divCeil (n a : Nat) : Nat :=
  if n % a = 0 then n / a else n / a + 1

/-! ## Lemmas -/

theorem padding_lt {n a : Nat} (ha : 0 < a) : padding n a < a := by
  unfold padding
  split <;> omega

theorem dvd_add_padding {n a : Nat} (ha : 0 < a) : a ∣ n + padding n a := by
  have hr := Nat.mod_lt n ha
  have hn := Nat.div_add_mod n a
  unfold padding
  split
  · next h => exact Nat.dvd_of_mod_eq_zero (by simpa using h)
  · refine ⟨n / a + 1, ?_⟩
    rw [Nat.mul_add, Nat.mul_one]
    omega

theorem divCeil_mul {n a : Nat} (ha : 0 < a) : divCeil n a * a = n + padding n a := by
  have hr := Nat.mod_lt n ha
  have hn := Nat.div_add_mod n a
  rw [Nat.mul_comm] at hn
  unfold divCeil padding
  split
  · omega
  · rw [Nat.add_mul, Nat.one_mul]
    omega

end AndroidBoot
