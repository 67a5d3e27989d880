import AndroidBoot.Storage.Stream

/-!
# Lawful sinks

A sink is lawful if it makes no difference to it where a string is cut in two: the second part goes
on where the first one ended, unless the first part was cut short already. Then chunks of zeros are
one string of zeros, and a count of what was taken stays in step with the sink.

    s.fill n = s.write (Bytes.zeros n)                                              (fill_eq_write)
    s.fillToMultiple a = (.ok gap, s') → a ∣ s'.count            (dvd_count_of_fillToMultiple)
-/

namespace AndroidBoot

/-- A first part was offered to a sink, and the rest is only if all `length` bytes of it were
taken. -/
def Sink.goOn {α : Type} (first : Nat × α) (length : Nat) (rest : α → Nat × α) : Nat × α :=
  if first.1 < length then first else (first.1 + (rest first.2).1, (rest first.2).2)

/-- A sink that takes no more than it is offered, from the front on, and stops where it falls
short. -/
class LawfulSink (σ : Type) [Sink σ] : Prop where
  write_le : ∀ (b : σ) (bs : Bytes), (Sink.write b bs).1 ≤ bs.length
  write_nil : ∀ b : σ, Sink.write b [] = (0, b)
  write_append : ∀ (b : σ) (bs cs : Bytes),
    Sink.write b (bs ++ cs) = Sink.goOn (Sink.write b bs) bs.length (Sink.write · cs)

namespace Counted

variable {σ : Type} [Sink σ] [LawfulSink σ] {s s' : Counted σ}

omit [LawfulSink σ] in
theorem write_eq (s : Counted σ) (bs : Bytes) : s.write bs =
    ((Sink.write s.buffer bs).1,
      ⟨(Sink.write s.buffer bs).2, s.count + (Sink.write s.buffer bs).1⟩) := rfl

theorem write_le (s : Counted σ) (bs : Bytes) : (s.write bs).1 ≤ bs.length :=
  LawfulSink.write_le s.buffer bs

theorem write_nil (s : Counted σ) : s.write [] = (0, s) := by
  rw [write_eq, LawfulSink.write_nil]
  rfl

theorem write_append (s : Counted σ) (bs cs : Bytes) :
    s.write (bs ++ cs) = Sink.goOn (s.write bs) bs.length (·.write cs) := by
  rw [write_eq s (bs ++ cs), LawfulSink.write_append, Sink.goOn, Sink.goOn]
  by_cases hshort : (Sink.write s.buffer bs).1 < bs.length
  · have hshort' : (s.write bs).1 < bs.length := hshort
    rw [if_pos hshort, if_pos hshort', write_eq]
  · have hshort' : ¬ (s.write bs).1 < bs.length := hshort
    rw [if_neg hshort, if_neg hshort', write_eq, write_eq, Nat.add_assoc]

/-! ## Zeros -/

omit [LawfulSink σ] in
theorem fill_of_ne_zero (s : Counted σ) {size : Nat} (hsize : size ≠ 0) :
    s.fill size = Sink.goOn (s.write (Bytes.zeros (min size chunkSize))) (min size chunkSize)
      (·.fill (size - min size chunkSize)) := by
  rw [fill, dif_neg hsize]
  rfl

/-- The chunks of zeros are one string of zeros. -/
theorem fill_eq_write (s : Counted σ) (size : Nat) : s.fill size = s.write (Bytes.zeros size) := by
  induction size using Nat.strongRecOn generalizing s with
  | ind size ih =>
    by_cases hsize : size = 0
    · rw [hsize, fill, dif_pos rfl, Bytes.zeros_zero, write_nil]
    · have hle : min size chunkSize ≤ size := Nat.min_le_left _ _
      have hpos : 0 < min size chunkSize := by simp only [chunkSize]; omega
      have hrest : ∀ s : Counted σ, s.fill (size - min size chunkSize)
          = s.write (Bytes.zeros (size - min size chunkSize)) := fun s => ih _ (by omega) s
      calc s.fill size
          = Sink.goOn (s.write (Bytes.zeros (min size chunkSize))) (min size chunkSize)
              (·.write (Bytes.zeros (size - min size chunkSize))) := by
            rw [fill_of_ne_zero s hsize]
            simp only [hrest]
        _ = s.write (Bytes.zeros (min size chunkSize)
              ++ Bytes.zeros (size - min size chunkSize)) := by
            rw [write_append, Bytes.length_zeros]
        _ = s.write (Bytes.zeros size) := by
            rw [Bytes.zeros_append_zeros, Nat.add_sub_cancel' hle]

theorem fillExactly_eq (s : Counted σ) (size : Nat) : s.fillExactly size =
    (if (s.write (Bytes.zeros size)).1 ≠ size
      then .error (.shortFill size (s.write (Bytes.zeros size)).1) else .ok (),
      (s.write (Bytes.zeros size)).2) := by
  rw [← fill_eq_write]
  rfl

theorem fillExactly_eq_ok_iff {size : Nat} :
    s.fillExactly size = (.ok (), s') ↔ s.write (Bytes.zeros size) = (size, s') := by
  rw [fillExactly_eq, Prod.mk.injEq, Prod.ext_iff]
  refine and_congr_left fun _ => ?_
  split
  · next hshort => exact iff_of_false nofun hshort
  · next hall => exact iff_of_true rfl (Decidable.not_not.1 hall)

theorem count_of_fillExactly {size : Nat} (h : s.fillExactly size = (.ok (), s')) :
    s'.count = s.count + size := by
  have hcount := s.count_write (Bytes.zeros size)
  rwa [fillExactly_eq_ok_iff.1 h] at hcount

theorem count_of_writeAll {bs : Bytes} (h : s.writeAll bs = (.ok (), s')) :
    s'.count = s.count + bs.length := by
  have hle := s.write_le bs
  have hcount := s.count_write bs
  obtain ⟨hok, rfl⟩ := Prod.mk.inj h
  split at hok
  · cases hok
  · next hall => exact hcount.trans (congrArg _ (Nat.le_antisymm hle (Nat.le_of_not_lt hall)))

/-! ## Zeros up to a multiple -/

omit [LawfulSink σ] in
theorem fillToMultiple_eq (s : Counted σ) (a : Nat) : s.fillToMultiple a =
    ((s.fillExactly (padding s.count a)).1.map fun () => padding s.count a,
      (s.fillExactly (padding s.count a)).2) := by
  simp only [fillToMultiple]
  rcases s.fillExactly (padding s.count a) with ⟨_ | _, s₁⟩ <;> rfl

omit [LawfulSink σ] in
theorem fillToMultiple_eq_ok_iff {a gap : Nat} : s.fillToMultiple a = (.ok gap, s') ↔
    gap = padding s.count a ∧ s.fillExactly gap = (.ok (), s') := by
  rw [fillToMultiple_eq]
  constructor
  · intro h
    obtain ⟨hok, hs⟩ := Prod.mk.inj h
    cases hfill : (s.fillExactly (padding s.count a)).1 with
    | error e =>
      rw [hfill] at hok
      cases hok
    | ok u =>
      rw [hfill] at hok
      cases hok
      exact ⟨rfl, Prod.ext hfill hs⟩
  · rintro ⟨rfl, hfill⟩
    rw [hfill]
    rfl

theorem dvd_count_of_fillToMultiple {a gap : Nat} (ha : 0 < a)
    (h : s.fillToMultiple a = (.ok gap, s')) : a ∣ s'.count := by
  obtain ⟨rfl, hfill⟩ := fillToMultiple_eq_ok_iff.1 h
  rw [count_of_fillExactly hfill]
  exact dvd_add_padding ha

end Counted

end AndroidBoot
