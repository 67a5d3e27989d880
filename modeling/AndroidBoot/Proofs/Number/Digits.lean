import AndroidBoot.Number.Text

/-!
# Written numbers can be read again

The digits of a number in any base up to sixteen have that number as their value.

    digitsValue? base (Nat.toDigits base n) = some n                     (digitsValue?_toDigits)
    readNat? base limit (Nat.toDigits base n) = some n  if n < limit         (readNat?_toDigits)
-/

namespace AndroidBoot

theorem hexValue?_digitChar {d : Nat} (h : d < 16) : hexValue? (Nat.digitChar d) = some d := by
  have key : ∀ d < 16, hexValue? (Nat.digitChar d) = some d := by decide
  exact key d h

section

variable {base : Nat} (hbase : 1 < base)
include hbase

/-- What holds of the digits of a base holds of the digits of every number in it. -/
theorem forall_mem_toDigits {p : Char → Prop} (hp : ∀ d < base, p (Nat.digitChar d)) (n : Nat) :
    ∀ c ∈ Nat.toDigits base n, p c := by
  induction n using Nat.strongRecOn with
  | ind n ih =>
    intro c hc
    rw [Nat.toDigits_eq_if hbase] at hc
    split at hc
    · next hn =>
      rw [List.mem_singleton.1 hc]
      exact hp n hn
    · next hn =>
      rcases List.mem_append.1 hc with hc | hc
      · exact ih (n / base) (Nat.div_lt_self (by omega) hbase) c hc
      · rw [List.mem_singleton.1 hc]
        exact hp _ (Nat.mod_lt _ (by omega))

variable (hle : base ≤ 16)
include hle

theorem digitsValue?_concat (ds : List Char) {d : Nat} (hd : d < base) :
    digitsValue? base (ds ++ [Nat.digitChar d]) = (digitsValue? base ds).map (· * base + d) := by
  have happend : digitsValue? base (ds ++ [Nat.digitChar d])
      = (digitsValue? base ds).bind fun n => (hexValue? (Nat.digitChar d)).bind fun e =>
        if e < base then some (n * base + e) else none := by
    unfold digitsValue?
    rw [List.foldlM_append]
    refine congrArg _ (funext fun n => ?_)
    rw [List.foldlM_cons, bind_congr (fun m => List.foldlM_nil), bind_pure]
    rfl
  rw [happend]
  cases digitsValue? base ds with
  | none => rfl
  | some n =>
    rw [hexValue?_digitChar (by omega)]
    exact if_pos hd

/-- The digits of a number have its value. -/
theorem digitsValue?_toDigits (n : Nat) : digitsValue? base (Nat.toDigits base n) = some n := by
  induction n using Nat.strongRecOn with
  | ind n ih =>
    rw [Nat.toDigits_eq_if hbase]
    split
    · next hn =>
      rw [← List.nil_append [Nat.digitChar n], digitsValue?_concat hbase hle [] hn]
      simp [digitsValue?]
    · next hn =>
      rw [digitsValue?_concat hbase hle _ (Nat.mod_lt _ (by omega)),
        ih (n / base) (Nat.div_lt_self (by omega) hbase), Option.map_some, Nat.div_add_mod']

theorem readNat?_toDigits {limit n : Nat} (hn : n < limit) :
    readNat? base limit (Nat.toDigits base n) = some n := by
  have hdigit : ∀ d < base, Nat.digitChar d ≠ '+' := by
    intro d hd
    have key : ∀ d < 16, Nat.digitChar d ≠ '+' := by decide
    exact key d (by omega)
  have hplus : ∀ c ∈ Nat.toDigits base n, c ≠ '+' := forall_mem_toDigits hbase hdigit n
  unfold readNat?
  split
  · next r hr =>
    rw [hr] at hplus
    exact absurd rfl (hplus '+' List.mem_cons_self)
  · simp only [List.isEmpty_iff, Nat.toDigits_ne_nil, if_false,
      digitsValue?_toDigits hbase hle n, Option.bind_eq_bind, Option.bind_some, if_pos hn]

end

end AndroidBoot
