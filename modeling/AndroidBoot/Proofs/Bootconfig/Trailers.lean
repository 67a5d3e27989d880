import Mathlib.Algebra.Ring.Nat
import AndroidBoot.Proofs.Bootconfig.Closing

/-!
# Which regions can be closed

`Closable buf start size` is what `close` asks of a region, and `ClosedRegion buf start size b` is
all that it makes of the buffer. A region that is closed cannot be closed again, neither by its data
nor by its data and trailer.

    close buf start size = (.ok stop, b) ↔
      Closable buf start size ∧ stop = _ + 20 ∧ b = closed buf start _ _        (close_eq_ok_iff)
    Closable buf start size → ClosedRegion buf start size (closed buf start _ _)
                                                                     (Closable.closedRegion)
    (checksum data).toNat = byteSum data % 2 ^ 32                         (toNat_checksum)
-/

namespace AndroidBoot.Bootconfig

/-- What has to hold for a region to be closed. -/
structure Closable (buf : Bytes) (start size : Nat) : Prop where
  buffer : buf ≠ []
  data : size ≠ 0
  inside : start + size ≤ buf.length
  /-- No magic ends where the trailer would start. -/
  notBefore : isClosedAt buf (alignedEnd (start + size)) = false
  /-- No magic ends where the trailer would end. -/
  notBehind : isClosedAt buf (alignedEnd (start + size) + trailerSize) = false
  room : alignedEnd (start + size) + trailerSize ≤ buf.length
  small : alignedEnd (start + size) - start < UInt32.size

/-- The sum of the bytes. -/
def byteSum (data : Bytes) : Nat := (data.map UInt8.toNat).sum

/-- What closing a region of `buf` leaves: zeros behind the data up to a multiple of four, the size
of all that, its sum and the magic, and everything else as it was. -/
structure ClosedRegion (buf : Bytes) (start size : Nat) (b : Bytes) : Prop where
  length : b.length = buf.length
  front : b.take (start + size) = buf.take (start + size)
  filling : Bytes.slice? b (start + size) (alignedEnd (start + size))
    = some (Bytes.zeros (alignedEnd (start + size) - (start + size)))
  trailer : Bytes.slice? b (alignedEnd (start + size)) (alignedEnd (start + size) + trailerSize)
    = some (Bytes.ofNatLE 4 (alignedEnd (start + size) - start)
      ++ (Bytes.ofNatLE 4
        (byteSum ((b.drop start).take (alignedEnd (start + size) - start)) % 2 ^ 32)
      ++ magic.toList))
  behind : b.drop (alignedEnd (start + size) + trailerSize)
    = buf.drop (alignedEnd (start + size) + trailerSize)

/-- Why a region cannot be closed although there is room for a trailer. -/
inductive Unclosable (buf : Bytes) (start size : Nat) : BootconfigError → Prop
  | emptyRegion : size = 0 → Unclosable buf start size .emptyRegion
  | alreadyClosed : isClosedAt buf (alignedEnd (start + size)) = true ∨
      isClosedAt buf (alignedEnd (start + size) + trailerSize) = true →
      Unclosable buf start size .alreadyClosed
  | tooLarge : UInt32.size ≤ alignedEnd (start + size) - start →
      Unclosable buf start size (.tooLarge (alignedEnd (start + size) - start))

/-! ## Checksums -/

theorem toNat_foldl_checksum (data : Bytes) (sum : UInt32) :
    (data.foldl (fun sum b => sum + b.toUInt32) sum).toNat
      = (sum.toNat + byteSum data) % 2 ^ 32 := by
  induction data generalizing sum with
  | nil =>
    have := sum.toNat_lt
    simp only [List.foldl_nil, byteSum, List.map_nil, List.sum_nil]
    omega
  | cons b data ih =>
    rw [List.foldl_cons, ih, UInt32.toNat_add, UInt8.toNat_toUInt32]
    simp only [byteSum, List.map_cons, List.sum_cons]
    omega

/-- The checksum is the sum of the bytes in 32 bits. -/
theorem toNat_checksum (data : Bytes) : (checksum data).toNat = byteSum data % 2 ^ 32 := by
  rw [checksum, toNat_foldl_checksum]
  simp

theorem trailerOf_eq {size : Nat} (h : size < UInt32.size) (data : Bytes) :
    trailerOf size data
      = Bytes.ofNatLE 4 size ++ (Bytes.ofNatLE 4 (byteSum data % 2 ^ 32) ++ magic.toList) := by
  show Bytes.ofNatLE 4 (UInt32.ofNat size).toNat
    ++ (Bytes.ofNatLE 4 (checksum data).toNat ++ magic.toList) = _
  rw [UInt32.toNat_ofNat_of_lt' h, toNat_checksum]

/-! ## One closing -/

section
variable {buf : Bytes} {start size : Nat}

/-- A region is closed exactly if it can be, and then in one way. -/
theorem close_eq_ok_iff {stop : Nat} {b : Bytes} :
    close buf start size = (.ok stop, b) ↔
      Closable buf start size ∧ stop = alignedEnd (start + size) + trailerSize ∧
        b = closed buf start (start + size) (alignedEnd (start + size)) := by
  constructor
  · intro h
    cases hplace : closingPlace buf start size with
    | error e =>
      rw [close_of_error hplace] at h
      cases h
    | ok r =>
      obtain ⟨hbuf, hdata, hin, hbefore, hbehind, hroom, hsmall, rfl⟩ :=
        closingPlace_eq_ok_iff.1 hplace
      rw [close_of_place hplace] at h
      cases h
      exact ⟨⟨hbuf, hdata, hin, hbefore, hbehind, hroom, hsmall⟩, rfl, rfl⟩
  · rintro ⟨⟨hbuf, hdata, hin, hbefore, hbehind, hroom, hsmall⟩, rfl, rfl⟩
    exact close_of_place (closingPlace_eq_ok_iff.2
      ⟨hbuf, hdata, hin, hbefore, hbehind, hroom, hsmall, rfl⟩)

theorem close_isOk_iff :
    (∃ stop, (close buf start size).1 = .ok stop) ↔ Closable buf start size := by
  constructor
  · rintro ⟨stop, h⟩
    exact (close_eq_ok_iff.1 (Prod.ext h rfl)).1
  · intro h
    exact ⟨_, congrArg Prod.fst (close_eq_ok_iff.2 ⟨h, rfl, rfl⟩)⟩

/-- All checks come before the first write. -/
theorem eq_of_close_error {e : BootconfigError} {b : Bytes}
    (h : close buf start size = (.error e, b)) : b = buf := by
  cases hplace : closingPlace buf start size with
  | error e' =>
    rw [close_of_error hplace] at h
    exact (Prod.mk.inj h).2.symm
  | ok r =>
    rw [close_of_place hplace] at h
    cases h

/-- Why `close` fails: there is a reason against the region, or no room for its trailer. -/
theorem unclosable_or_of_close_error {e : BootconfigError} {b : Bytes}
    (h : close buf start size = (.error e, b)) :
    Unclosable buf start size e ∨
      e ≠ .alreadyClosed ∧ buf.length < alignedEnd (start + size) + trailerSize := by
  have hle := le_alignedEnd (start + size)
  have hpos : 0 < trailerSize := by decide
  cases hplace : closingPlace buf start size with
  | ok r =>
    rw [close_of_place hplace] at h
    cases h
  | error e' =>
    rw [close_of_error hplace] at h
    cases h
    rw [closingPlace_eq] at hplace
    by_cases hbuf : buf = []
    · subst hbuf
      cases hplace
      exact .inr ⟨by simp, by rw [List.length_nil]; omega⟩
    rw [List.isEmpty_eq_false_iff.2 hbuf, if_neg (by decide)] at hplace
    by_cases hsize : size = 0
    · rw [if_pos hsize] at hplace
      cases hplace
      exact .inl (.emptyRegion hsize)
    rw [if_neg hsize] at hplace
    by_cases hin : start + size ≤ buf.length
    · rw [boundedEnd_of_le hin] at hplace
      simp only [] at hplace
      split at hplace
      · next hclosed =>
        cases hplace
        exact .inl (.alreadyClosed (by rwa [Bool.or_eq_true] at hclosed))
      split at hplace
      · next hshort =>
        cases hplace
        exact .inr ⟨by simp, hshort⟩
      split at hplace
      · next hlarge =>
        cases hplace
        exact .inl (.tooLarge hlarge)
      · cases hplace
    · rw [boundedEnd, if_neg hin] at hplace
      cases hplace
      exact .inr ⟨by simp, by omega⟩

/-- With room for a trailer no failure is one of room. -/
theorem unclosable_of_close_error {e : BootconfigError} {b : Bytes}
    (hroom : alignedEnd (start + size) + trailerSize ≤ buf.length)
    (h : close buf start size = (.error e, b)) : Unclosable buf start size e :=
  (unclosable_or_of_close_error h).resolve_right fun hno => absurd hno.2 (Nat.not_lt.2 hroom)

/-- A region counts as closed only where a magic is found. -/
theorem isClosedAt_of_close_alreadyClosed {b : Bytes}
    (h : close buf start size = (.error .alreadyClosed, b)) :
    isClosedAt buf (alignedEnd (start + size)) = true ∨
      isClosedAt buf (alignedEnd (start + size) + trailerSize) = true := by
  cases (unclosable_or_of_close_error h).resolve_right fun hno => hno.1 rfl with
  | alreadyClosed hclosed => exact hclosed

theorem Closable.closedRegion (h : Closable buf start size) :
    ClosedRegion buf start size
      (closed buf start (start + size) (alignedEnd (start + size))) := by
  have hle := le_alignedEnd (start + size)
  have hlen := length_filled hle h.room
  have hclosed :
      (closed buf start (start + size) (alignedEnd (start + size))).length = buf.length :=
    length_closed hle h.room
  refine
    { length := hclosed
      front := take_closed hle h.room (Nat.le_refl _)
      filling := ?_
      trailer := ?_
      behind := drop_closed hle h.room (Nat.le_refl _) }
  · -- the trailer stands behind the zeros, so they are still those that were filled in
    have htake : (closed buf start (start + size) (alignedEnd (start + size))).take
        (alignedEnd (start + size)) = (filled buf (start + size) (alignedEnd (start + size))).take
          (alignedEnd (start + size)) :=
      Bytes.take_overwrite (by have := h.room; omega) (Nat.le_refl _)
    rw [Bytes.slice?_of_take_eq (Nat.le_refl _) htake (hclosed.trans hlen.symm)]
    have hfilled := @Bytes.slice?_overwrite buf
      (Bytes.zeros (alignedEnd (start + size) - (start + size))) (start + size)
      (by rw [Bytes.length_zeros]; have := h.room; omega)
    rwa [Bytes.length_zeros, Nat.add_sub_cancel' hle] at hfilled
  · rw [slice?_closed_trailer hle h.room, trailerOf_eq h.small,
      take_drop_closed hle h.room (Nat.le_add_right start size)]

/-- `verify` reads the trailer of a closed region. -/
theorem Closable.verify_closed (h : Closable buf start size) :
    let b := closed buf start (start + size) (alignedEnd (start + size))
    ∃ t, verify b (alignedEnd (start + size) + trailerSize) = .ok t ∧ t.dataStart = start ∧
      t.size.toNat = alignedEnd (start + size) - start ∧
      t.checksum.toNat
        = byteSum ((b.drop start).take (alignedEnd (start + size) - start)) % 2 ^ 32 := by
  intro b
  have hle := le_alignedEnd (start + size)
  refine ⟨_, Bootconfig.verify_closed hle h.room (Nat.le_add_right _ _) h.small, rfl,
    UInt32.toNat_ofNat_of_lt' h.small, ?_⟩
  rw [toNat_checksum, take_drop_closed hle h.room (Nat.le_add_right _ _)]

end

/-! ## Reading -/

theorem verify_eq (buf : Bytes) (stop : Nat) :
    verify buf stop =
      let trailer := trailerCodec.read ((buf.drop (stop - trailerSize)).take trailerSize)
      let size := trailer.1
      let dataStart := stop - trailerSize - size.toNat
      let actual := checksum ((buf.drop dataStart).take size.toNat)
      if stop < trailerSize || !isClosedAt buf stop then .error (.notClosed stop)
      else if stop - trailerSize < size.toNat then
        .error (.tooSmall size.toNat (stop - trailerSize))
      else if trailer.2.1 ≠ actual then .error (.wrongChecksum trailer.2.1 actual)
      else .ok ⟨dataStart, size, trailer.2.1⟩ := by
  unfold verify
  cases (decide (stop < trailerSize) || !isClosedAt buf stop) with
  | true => rfl
  | false =>
    simp only [Bool.false_eq_true, if_false]
    split
    · rfl
    · split <;> rfl

/-- A trailer is read from what stands before its end. -/
theorem verify_take {b : Bytes} {stop n : Nat} (hstop : stop ≤ n) (hn : n ≤ b.length) :
    verify (b.take n) stop = verify b stop := by
  have hclosed : isClosedAt (b.take n) stop = isClosedAt b stop := by
    rw [isClosedAt, isClosedAt, Bytes.slice?_take hstop hn]
  have hslice : ∀ i k, i + k ≤ stop → ((b.take n).drop i).take k = (b.drop i).take k := by
    intro i k hik
    rw [List.drop_take, List.take_take, Nat.min_eq_left (by omega)]
  rw [verify_eq, verify_eq, hclosed]
  by_cases hshort : stop < trailerSize
  · rw [decide_eq_true hshort, Bool.true_or]
    rfl
  rw [hslice (stop - trailerSize) trailerSize (by omega)]
  generalize trailerCodec.read ((b.drop (stop - trailerSize)).take trailerSize) = trailer
  obtain ⟨size, expected, -⟩ := trailer
  simp only []
  by_cases hlong : stop - trailerSize < size.toNat
  · rw [if_pos hlong, if_pos hlong]
  · rw [hslice (stop - trailerSize - size.toNat) size.toNat (by omega)]

/-- Zeros behind a buffer do not make a magic. -/
theorem isClosedAt_append_zeros (data : Bytes) (n stop : Nat) :
    isClosedAt (data ++ Bytes.zeros n) stop = isClosedAt data stop := by
  rw [Bool.eq_iff_iff, isClosedAt_iff, isClosedAt_iff]
  constructor
  · rintro ⟨h12, -, hbytes⟩
    have hstop : stop ≤ data.length := by
      refine Nat.not_lt.1 fun hlt => ?_
      -- the last byte of the magic is no zero
      have hlast := hbytes 11 (by decide)
      rw [List.getElem?_append_right (by omega), Bytes.zeros, List.getElem?_replicate] at hlast
      split at hlast
      · revert hlast
        decide
      · revert hlast
        decide
    refine ⟨h12, hstop, fun i hi => ?_⟩
    rw [← hbytes i hi, List.getElem?_append_left (by omega)]
  · rintro ⟨h12, hstop, hbytes⟩
    refine ⟨h12, by rw [List.length_append]; omega, fun i hi => ?_⟩
    rw [List.getElem?_append_left (by omega), hbytes i hi]

/-! ## Closing again -/

/-- A magic is found where the bytes around its place are the same. -/
theorem isClosedAt_of_slice?_eq {b b' : Bytes} {start stop : Nat} (hstart : start + 12 ≤ stop)
    (hslice : Bytes.slice? b' start stop = Bytes.slice? b start stop)
    (hclosed : isClosedAt b stop = true) : isClosedAt b' stop = true := by
  rw [isClosedAt_iff] at hclosed ⊢
  obtain ⟨h12, hle, hbytes⟩ := hclosed
  obtain ⟨bs, hbs⟩ : ∃ bs, Bytes.slice? b start stop = some bs := ⟨_, if_pos ⟨by omega, hle⟩⟩
  have hb := Bytes.slice?_eq_some_iff.1 hbs
  have hb' := Bytes.slice?_eq_some_iff.1 (hslice.trans hbs)
  refine ⟨h12, hb'.2.1, fun i hi => ?_⟩
  -- both bytes stand in the slice
  have hat : ∀ data : Bytes, ((data.drop start).take (stop - start))[stop - 12 - start + i]?
      = data[stop - 12 + i]? := by
    intro data
    rw [List.getElem?_take_of_lt (by omega), List.getElem?_drop]
    congr 1
    omega
  rw [← hbytes i hi, ← hat b', ← hat b, hb'.2.2, hb.2.2]

theorem close_of_closed {b : Bytes} {start size place : Nat}
    (hclosed : isClosedAt b (place + trailerSize) = true) (hdata : size ≠ 0)
    (hin : start + size ≤ b.length)
    (hplace : alignedEnd (start + size) = place ∨ alignedEnd (start + size) = place + trailerSize) :
    close b start size = (.error .alreadyClosed, b) := by
  have hb : b.isEmpty = false := List.isEmpty_eq_false_iff.2 (List.length_pos_iff.1 (by omega))
  have hmagic : (isClosedAt b (alignedEnd (start + size))
      || isClosedAt b (alignedEnd (start + size) + trailerSize)) = true := by
    rcases hplace with h | h
    · rw [h, hclosed, Bool.or_true]
    · rw [h, hclosed, Bool.true_or]
  apply close_of_error
  rw [closingPlace_eq, hb, if_neg (by decide), if_neg hdata, boundedEnd_of_le hin]
  simp only [hmagic, if_true]

/-- **Closing a region.** It succeeds exactly for the regions that can be closed, writes zeros and a
trailer that `verify` reads back, and changes nothing where it fails. As long as what it wrote
stands, no region that ends before or behind the trailer can be closed. -/
theorem close_leaves_trailer (buf : Bytes) (start size : Nat) :
    let place := alignedEnd (start + size)
    let stop := place + trailerSize
    ((∃ e, (close buf start size).1 = .ok e) ↔ Closable buf start size) ∧
    (∀ e b, close buf start size = (.ok e, b) →
      e = stop ∧ ClosedRegion buf start size b ∧
      (∃ t, verify b stop = .ok t ∧ t.dataStart = start ∧ t.size.toNat = place - start ∧
        t.checksum.toNat = byteSum ((b.drop start).take (place - start)) % 2 ^ 32) ∧
      ∀ b' start' size', Bytes.slice? b' (start + size) stop = Bytes.slice? b (start + size) stop →
        size' ≠ 0 → start' + size' ≤ b'.length →
        alignedEnd (start' + size') = place ∨ alignedEnd (start' + size') = stop →
        close b' start' size' = (.error .alreadyClosed, b')) ∧
    ∀ e b, close buf start size = (.error e, b) → b = buf := by
  intro place stop
  have hle : start + size ≤ place := le_alignedEnd _
  have h20 : trailerSize = 20 := rfl
  refine ⟨close_isOk_iff, fun e b hok => ?_, fun e b herror => eq_of_close_error herror⟩
  obtain ⟨hclosable, rfl, rfl⟩ := close_eq_ok_iff.1 hok
  refine ⟨rfl, hclosable.closedRegion, hclosable.verify_closed, ?_⟩
  intro b' start' size' hslice hdata hin hplace
  have hclosed : isClosedAt b' stop = true :=
    isClosedAt_of_slice?_eq (by omega) hslice (isClosedAt_closed hle hclosable.room)
  exact close_of_closed hclosed hdata hin hplace

/-- Three bytes at an odd offset, in a buffer that is full then; their trailer is not overwritten by
closing what follows, from its start on or together with it. -/
theorem close_leaves_trailer_odd :
    ∃ b, close (List.replicate 28 0xFF) 1 4 = (.ok 28, b) ∧
      ClosedRegion (List.replicate 28 0xFF) 1 4 b ∧
      close b 5 3 = (.error .alreadyClosed, b) ∧ close b 8 20 = (.error .alreadyClosed, b) := by
  obtain ⟨hok, hleaves, -⟩ := close_leaves_trailer (List.replicate 28 0xFF) 1 4
  have hclose : (close (List.replicate 28 0xFF) 1 4).1 = .ok 28 := by rfl
  obtain ⟨-, hregion, -, hagain⟩ := hleaves 28 _ (Prod.ext hclose rfl)
  have hlen := hregion.length
  refine ⟨_, Prod.ext hclose rfl, hregion, ?_, ?_⟩
  · exact hagain _ 5 3 rfl (by decide) (by rw [hlen]; decide) (.inl (by decide))
  · exact hagain _ 8 20 rfl (by decide) (by rw [hlen]; decide) (.inr (by decide))

end AndroidBoot.Bootconfig
