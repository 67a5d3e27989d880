import Mathlib.Algebra.Ring.Nat
import AndroidBoot.Bytes.Basic

/-!
# Pieces one behind the other

Pieces of a file, each with an offset and a number of bytes that it takes. In a chain every piece
starts where the one before it ends, so the offset of a piece is the sum of what those in front of
it take, and the pieces cut the bytes from the start of the first to the end of the last.

    Chained offset span start xs ↔
      xs = before ++ x :: after → offset x = start + the spans of before     (chained_iff)
-/

namespace AndroidBoot

variable {α : Type} {offset span : α → Nat}

/-- Every piece starts where the one before it ends, the first at `start`. -/
def Chained (offset span : α → Nat) (start : Nat) : List α → Prop
  | [] => True
  | x :: xs => offset x = start ∧ Chained offset span (start + span x) xs

theorem chained_iff {start : Nat} {xs : List α} :
    Chained offset span start xs ↔
      ∀ before x after, xs = before ++ x :: after → offset x = start + (before.map span).sum := by
  induction xs generalizing start with
  | nil => simp [Chained]
  | cons y xs ih =>
    rw [Chained, ih]
    constructor
    · rintro ⟨hy, h⟩ before x after hxs
      cases before with
      | nil =>
        cases hxs
        exact hy
      | cons b before =>
        cases hxs
        rw [h before x after rfl, List.map_cons, List.sum_cons]
        omega
    · intro h
      refine ⟨h [] y xs rfl, fun before x after hxs => ?_⟩
      rw [h (y :: before) x after (by rw [hxs, List.cons_append]), List.map_cons, List.sum_cons]
      omega

namespace Chained

theorem bounds {start : Nat} {xs : List α} (h : Chained offset span start xs) :
    ∀ x ∈ xs, start ≤ offset x ∧ offset x + span x ≤ start + (xs.map span).sum := by
  induction xs generalizing start with
  | nil => nofun
  | cons y xs ih =>
    obtain ⟨hy, h⟩ := h
    intro x hx
    rw [List.map_cons, List.sum_cons]
    rcases List.mem_cons.1 hx with rfl | hx
    · omega
    · have := ih h x hx
      omega

/-- No piece reaches into one behind it. -/
theorem pairwise {start : Nat} {xs : List α} (h : Chained offset span start xs) :
    xs.Pairwise fun x y => offset x + span x ≤ offset y := by
  induction xs generalizing start with
  | nil => exact .nil
  | cons y xs ih =>
    obtain ⟨hy, h⟩ := h
    apply List.Pairwise.cons
    · intro x hx
      have hbounds := h.bounds x hx
      omega
    · exact ih h

/-- The bytes in some piece are those from the start on, as many as all pieces take. -/
theorem covers {start : Nat} {xs : List α} (h : Chained offset span start xs) (i : Nat) :
    (∃ x ∈ xs, offset x ≤ i ∧ i < offset x + span x) ↔
      start ≤ i ∧ i < start + (xs.map span).sum := by
  constructor
  · rintro ⟨x, hx, hle, hlt⟩
    have hbounds := h.bounds x hx
    omega
  · rintro ⟨hle, hlt⟩
    induction xs generalizing start with
    | nil =>
      exfalso
      exact Nat.not_le_of_lt hlt hle
    | cons y xs ih =>
      obtain ⟨hy, h⟩ := h
      rw [List.map_cons, List.sum_cons] at hlt
      by_cases hfirst : i < offset y + span y
      · exact ⟨y, List.mem_cons_self, by omega, hfirst⟩
      · obtain ⟨x, hx, hin⟩ := ih h (by omega) (by omega)
        exact ⟨x, List.mem_cons_of_mem _ hx, hin⟩

/-- What divides the start and all that the pieces take divides every offset. -/
theorem dvd {start n : Nat} {xs : List α} (h : Chained offset span start xs) (hstart : n ∣ start)
    (hspan : ∀ x ∈ xs, n ∣ span x) : ∀ x ∈ xs, n ∣ offset x := by
  induction xs generalizing start with
  | nil => nofun
  | cons y xs ih =>
    obtain ⟨rfl, h⟩ := h
    rw [List.forall_mem_cons] at hspan ⊢
    exact ⟨hstart, ih h (Nat.dvd_add hstart hspan.1) hspan.2⟩

theorem next {start : Nat} {left right : List α} {x y : α}
    (h : Chained offset span start (left ++ x :: y :: right)) : offset y = offset x + span x := by
  rw [chained_iff] at h
  rw [h left x (y :: right) rfl, h (left ++ [x]) y right (by rw [List.append_assoc]; rfl),
    List.map_append, List.sum_append, List.map_singleton, List.sum_singleton, Nat.add_assoc]

end Chained

end AndroidBoot
