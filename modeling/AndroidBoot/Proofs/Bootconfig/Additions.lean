import AndroidBoot.Proofs.Bootconfig.Trailers

/-!
# One addition

An addition first puts the parameters in place, which needs room for them only, and then closes the
region. `Placeable` is what the first step asks for, `Closable` what the second one does.

    addParams buf start size p = (.ok stop, b) ↔ Placeable buf start size p ∧
      Closable (the buffer with p) … ∧ stop = … ∧ b = …                (addParams_eq_ok_iff)
    ¬ Placeable buf start size p → addParams buf start size p = (.error _, buf)
                                                                (addParams_of_not_placeable)
-/

namespace AndroidBoot.Bootconfig

/-- Where added parameters go: behind the data of a region, in place of a trailer at its end. -/
def paramsStart (buf : Bytes) (start size : Nat) : Nat :=
  start + sizeWithoutTrailer buf (start + size) size

/-- What has to hold for parameters to be put in place. -/
structure Placeable (buf : Bytes) (start size : Nat) (p : Bytes) : Prop where
  params : p ≠ []
  inside : start + size ≤ buf.length
  room : paramsStart buf start size + p.length ≤ buf.length

/-! ## Places -/

section
variable (buf : Bytes) (start size : Nat)

theorem le_paramsStart : start ≤ paramsStart buf start size := Nat.le_add_right start _

theorem paramsStart_le : paramsStart buf start size ≤ start + size := by
  unfold paramsStart sizeWithoutTrailer
  split <;> omega

theorem le_paramsStart_add : start + size ≤ paramsStart buf start size + trailerSize := by
  unfold paramsStart sizeWithoutTrailer
  split <;> omega

end

section
variable {buf p : Bytes} {start size : Nat}

/-- Where the parameters can be put in place, the rest is closing the region with them. -/
theorem addParams_of_placeable (h : Placeable buf start size p) :
    addParams buf start size p = close (Bytes.overwrite buf (paramsStart buf start size) p) start
      (paramsStart buf start size - start + p.length) := by
  have hpos := List.length_pos_iff.2 h.params
  have hroom := h.room
  have hbuf : buf ≠ [] := List.length_pos_iff.1 (by omega)
  have hplace : paramsPlace buf start size p
      = .ok (paramsStart buf start size, paramsStart buf start size - start + p.length) := by
    have hback : paramsStart buf start size - start
      = sizeWithoutTrailer buf (start + size) size := Nat.add_sub_cancel_left ..
    unfold paramsPlace
    rw [List.isEmpty_eq_false_iff.2 h.params, List.isEmpty_eq_false_iff.2 hbuf,
      boundedEnd_of_le h.inside, hback]
    show (boundedEnd buf (paramsStart buf start size) p.length >>= fun _ => _) = _
    rw [boundedEnd_of_le hroom]
    rfl
  rw [addParams, hplace]

/-- Where they cannot, nothing is done, and no trailer is to blame. -/
theorem addParams_of_not_placeable (h : ¬ Placeable buf start size p) :
    ∃ e, e ≠ .alreadyClosed ∧ addParams buf start size p = (.error e, buf) := by
  have hplace : ∃ e, e ≠ .alreadyClosed ∧ paramsPlace buf start size p = .error e := by
    unfold paramsPlace
    by_cases hp : p = []
    · exact ⟨.noParams, by simp, by rw [hp]; rfl⟩
    by_cases hb : buf = []
    · exact ⟨.noBuffer, by simp, by rw [List.isEmpty_eq_false_iff.2 hp, hb]; rfl⟩
    rw [List.isEmpty_eq_false_iff.2 hp, List.isEmpty_eq_false_iff.2 hb]
    by_cases hin : start + size ≤ buf.length
    · have hroom : ¬ paramsStart buf start size + p.length ≤ buf.length :=
        fun hroom => h ⟨hp, hin, hroom⟩
      rw [boundedEnd_of_le hin]
      refine ⟨.tooSmall (min (paramsStart buf start size + p.length) (UInt64.size - 1)) buf.length,
        by simp, ?_⟩
      show (boundedEnd buf (paramsStart buf start size) p.length >>= fun _ => _) = _
      rw [boundedEnd, if_neg hroom]
      rfl
    · exact ⟨.tooSmall _ _, by simp, by rw [boundedEnd, if_neg hin]; rfl⟩
  obtain ⟨e, hne, he⟩ := hplace
  exact ⟨e, hne, by rw [addParams, he]⟩

/-- An addition succeeds exactly if both of its steps do. -/
theorem addParams_eq_ok_iff {stop : Nat} {b : Bytes} :
    let place := paramsStart buf start size
    let placed := Bytes.overwrite buf place p
    addParams buf start size p = (.ok stop, b) ↔
      Placeable buf start size p ∧ Closable placed start (place - start + p.length) ∧
        stop = alignedEnd (place + p.length) + trailerSize ∧
        b = closed placed start (place + p.length) (alignedEnd (place + p.length)) := by
  intro place placed
  have hle : start ≤ place := le_paramsStart buf start size
  have hdata : start + (place - start + p.length) = place + p.length := by omega
  by_cases h : Placeable buf start size p
  · rw [addParams_of_placeable h, close_eq_ok_iff, hdata]
    exact ⟨fun hok => ⟨h, hok⟩, fun hok => hok.2⟩
  · obtain ⟨e, -, he⟩ := addParams_of_not_placeable h
    rw [he]
    constructor
    · intro hok
      cases hok
    · intro hok
      exact absurd hok.1 h

/-- An addition is refused for a trailer only if there is one with the parameters in place. -/
theorem isClosedAt_of_addParams_alreadyClosed
    (h : (addParams buf start size p).1 = .error .alreadyClosed) :
    let place := paramsStart buf start size
    let placed := Bytes.overwrite buf place p
    Placeable buf start size p ∧
      (isClosedAt placed (alignedEnd (place + p.length)) = true ∨
        isClosedAt placed (alignedEnd (place + p.length) + trailerSize) = true) := by
  intro place placed
  have hle : start ≤ place := le_paramsStart buf start size
  have hdata : start + (place - start + p.length) = place + p.length := by omega
  by_cases hplaceable : Placeable buf start size p
  · rw [addParams_of_placeable hplaceable] at h
    have hclosed := isClosedAt_of_close_alreadyClosed (Prod.ext h rfl)
    rw [hdata] at hclosed
    exact ⟨hplaceable, hclosed⟩
  · obtain ⟨e, hne, he⟩ := addParams_of_not_placeable hplaceable
    rw [he] at h
    exact absurd (Except.error.inj h) hne

end

end AndroidBoot.Bootconfig
