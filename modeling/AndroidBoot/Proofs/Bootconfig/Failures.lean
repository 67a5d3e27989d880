import AndroidBoot.Proofs.Bootconfig.Appending

/-!
# Additions that fail

Where the parameters are in place but the region with them cannot be closed, they are not taken
back. They stay, in place of a trailer that was there.

    addParams buf start size p = (.error e, b) →
      (b = buf ↔ p could not be put in place, or stood there before)
                                                                (unchanged_iff_of_addParams_error)
-/

namespace AndroidBoot.Bootconfig

section
variable {buf p : Bytes} {start size : Nat}

/-! ## What stays -/

theorem paramsStart_of_trailer (hsize : trailerSize ≤ size)
    (hclosed : isClosedAt buf (start + size) = true) :
    paramsStart buf start size + trailerSize = start + size := by
  unfold paramsStart sizeWithoutTrailer
  rw [if_pos ⟨hsize, hclosed⟩]
  omega

/-- Parameters put over a trailer leave its magic if they are no longer than what stands before
it. -/
theorem isClosedAt_overwrite_trailer {place : Nat} (hpmark : mark ∉ p)
    (hroom : place + p.length ≤ buf.length)
    (hclosed : isClosedAt buf (place + trailerSize) = true) :
    isClosedAt (Bytes.overwrite buf place p) (place + trailerSize) = true ↔ p.length ≤ 8 := by
  have h20 : trailerSize = 20 := rfl
  constructor
  · intro h
    refine Nat.not_lt.1 fun hlong => ?_
    -- the first byte of the magic would be one of the parameters
    have hmark := mark_of_isClosedAt h
    rw [Bytes.getElem?_overwrite hroom, if_neg (by omega), if_pos (by omega)] at hmark
    exact getElem?_of_not_mem hpmark _ hmark
  · intro hshort
    have hmagic : place + 8 + 12 ≤ place + trailerSize := by omega
    refine isClosedAt_of_slice?_eq hmagic ?_ hclosed
    rw [Bytes.slice?, Bytes.slice?, Bytes.length_overwrite hroom,
      Bytes.drop_overwrite hroom (by omega)]

/-- **What a failed addition leaves.** The buffer is as it was exactly if the parameters could not
be put in place or stood there before. Otherwise they stay, though the region with them cannot be
closed, and the magic of a trailer that they were put over is left only if they are short. -/
theorem unchanged_iff_of_addParams_error {e : BootconfigError} {b : Bytes}
    (h : addParams buf start size p = (.error e, b)) :
    let place := paramsStart buf start size
    (b = buf ↔
      (Placeable buf start size p → Bytes.slice? buf place (place + p.length) = some p)) ∧
    (Placeable buf start size p →
      b = Bytes.overwrite buf place p ∧ ¬ Closable b start (place - start + p.length) ∧
      (trailerSize ≤ size → isClosedAt buf (start + size) = true → mark ∉ p →
        (isClosedAt b (start + size) = true ↔ p.length ≤ 8))) := by
  intro place
  by_cases hplaceable : Placeable buf start size p
  · rw [addParams_of_placeable hplaceable] at h
    have hb := eq_of_close_error h
    have hclosable : ¬ Closable b start (place - start + p.length) := by
      intro hclosable
      rw [hb] at hclosable
      obtain ⟨stop, hok⟩ := close_isOk_iff.2 hclosable
      rw [h] at hok
      cases hok
    subst hb
    refine ⟨?_, fun _ => ⟨rfl, hclosable, fun hsize hclosed hpmark => ?_⟩⟩
    · rw [Bytes.overwrite_eq_self_iff hplaceable.room]
      exact ⟨fun hslice _ => hslice, fun hslice => hslice hplaceable⟩
    · have hstop := paramsStart_of_trailer hsize hclosed
      rw [← hstop] at hclosed ⊢
      exact isClosedAt_overwrite_trailer hpmark hplaceable.room hclosed
  · obtain ⟨e', -, he⟩ := addParams_of_not_placeable hplaceable
    obtain ⟨-, rfl⟩ := Prod.mk.inj (he.symm.trans h)
    exact ⟨⟨fun _ hplaceable' => absurd hplaceable' hplaceable, fun _ => rfl⟩,
      fun hplaceable' => absurd hplaceable' hplaceable⟩

end

/-- `a=1` and `b=2` with their trailer, and nothing behind it. -/
def fullRegion : Bytes :=
  (close ([0x61, 0x3D, 0x31, 0x0A, 0x62, 0x3D, 0x32, 0x0A] ++ Bytes.zeros 20) 0 8).2

/-- `c=3` takes the place of the size in the trailer, and the magic stays. -/
theorem unchanged_iff_of_addParams_error_short :
    ∃ b, addParams fullRegion 0 28 [0x63, 0x3D, 0x33, 0x0A] = (.error (.tooSmall 32 28), b) ∧
      b ≠ fullRegion ∧ isClosedAt b 28 = true := by
  have herror : (addParams fullRegion 0 28 [0x63, 0x3D, 0x33, 0x0A]).1
      = .error (.tooSmall 32 28) := by rfl
  refine ⟨_, Prod.ext herror rfl, ?_⟩
  obtain ⟨hsame, hstays⟩ := unchanged_iff_of_addParams_error (Prod.ext herror rfl)
  have hplaceable : Placeable fullRegion 0 28 [0x63, 0x3D, 0x33, 0x0A] :=
    ⟨by decide, by decide, by decide⟩
  obtain ⟨-, -, hmagic⟩ := hstays hplaceable
  exact ⟨fun h => absurd (hsame.1 h hplaceable) (by decide),
    (hmagic (by decide) (by decide) (by decide)).2 (by decide)⟩

/-- `c=3`, `d=4` and `e=5` have room in place of the trailer, but not with one of their own. -/
theorem not_unchanged_of_addParams_error :
    (¬ ∀ (buf : Bytes) (start size : Nat) (p : Bytes) (e : BootconfigError) (b : Bytes),
      addParams buf start size p = (.error e, b) → b = buf) ∧
    ¬ ∀ (buf : Bytes) (start size : Nat) (p : Bytes) (e : BootconfigError) (b : Bytes)
        (t : Trailer),
      verify buf (start + size) = .ok t → addParams buf start size p = (.error e, b) →
      ∃ t', verify b (start + size) = .ok t' := by
  have herror : (addParams fullRegion 0 28
      [0x63, 0x3D, 0x33, 0x0A, 0x64, 0x3D, 0x34, 0x0A, 0x65, 0x3D, 0x35, 0x0A]).1
        = .error (.tooSmall 40 28) := by rfl
  constructor
  · intro hall
    have hsame := hall _ _ _ _ _ _ (Prod.ext herror rfl)
    exact absurd hsame (by decide)
  · intro hall
    have hvalid : verify fullRegion (0 + 28) = .ok ⟨0, 8, 0x1B4⟩ := by rfl
    have hlost : verify (addParams fullRegion 0 28
        [0x63, 0x3D, 0x33, 0x0A, 0x64, 0x3D, 0x34, 0x0A, 0x65, 0x3D, 0x35, 0x0A]).2 (0 + 28)
          = .error (.notClosed 28) := by rfl
    obtain ⟨t', ht'⟩ := hall _ _ _ _ _ _ _ hvalid (Prod.ext herror rfl)
    cases hlost.symm.trans ht'

end AndroidBoot.Bootconfig
