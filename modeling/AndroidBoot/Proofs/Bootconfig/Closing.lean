import AndroidBoot.Bootconfig.Trailer

/-!
# Closing a region

What `close` writes: zeros up to the next multiple of four bytes, then the size of the data, its
sum and the magic. Nothing else changes, and `verify` reads back what was written.

    closingPlace buf start size = .ok (d, a, e) ↔ …                  (closingPlace_eq_ok_iff)
    verify (closed buf start d a) (a + 20) = .ok ⟨start, a - start, _⟩    (verify_closed)
-/

namespace AndroidBoot.Bootconfig

/-- The next multiple of four from `n` on. -/
def alignedEnd (n : Nat) : Nat := n + padding n alignment

/-- The buffer with zeros from `dataEnd` up to `trailerStart`. -/
def filled (buf : Bytes) (dataEnd trailerStart : Nat) : Bytes :=
  Bytes.overwrite buf dataEnd (Bytes.zeros (trailerStart - dataEnd))

/-- The trailer of `size` bytes of data. -/
def trailerOf (size : Nat) (data : Bytes) : Bytes :=
  trailerCodec.encode (UInt32.ofNat size, checksum data, magic)

/-- The data from `start` on, which was filled up to `trailerStart`. -/
def covered (buf : Bytes) (start dataEnd trailerStart : Nat) : Bytes :=
  ((filled buf dataEnd trailerStart).drop start).take (trailerStart - start)

/-- The filled buffer with the trailer of the data from `start` on. -/
def closed (buf : Bytes) (start dataEnd trailerStart : Nat) : Bytes :=
  Bytes.overwrite (filled buf dataEnd trailerStart) trailerStart
    (trailerOf (trailerStart - start) (covered buf start dataEnd trailerStart))

/-! ## Lemmas -/

theorem le_alignedEnd (n : Nat) : n ≤ alignedEnd n := Nat.le_add_right n _

theorem alignedEnd_lt (n : Nat) : alignedEnd n < n + 4 :=
  Nat.add_lt_add_left (padding_lt (by decide)) n

theorem dvd_alignedEnd (n : Nat) : 4 ∣ alignedEnd n := dvd_add_padding (by decide)

@[simp] theorem length_trailerOf (size : Nat) (data : Bytes) :
    (trailerOf size data).length = trailerSize := trailerCodec.length_encode _

/-- The magic stands behind the size and the checksum. -/
theorem getElem?_trailerOf (size : Nat) (data : Bytes) {i : Nat} (hi : 8 ≤ i) :
    (trailerOf size data)[i]? = magic.toList[i - 8]? := by
  have hlen :
      (Bytes.ofWordLE (UInt32.ofNat size) ++ Bytes.ofWordLE (checksum data)).length = 8 := by
    simp [Bytes.length_ofWordLE]
  have h : trailerOf size data
      = (Bytes.ofWordLE (UInt32.ofNat size) ++ Bytes.ofWordLE (checksum data))
        ++ magic.toList := by
    rw [List.append_assoc]; rfl
  rw [h, List.getElem?_append_right (by omega), hlen]

theorem isClosedAt_iff {buf : Bytes} {stop : Nat} :
    isClosedAt buf stop = true ↔
      12 ≤ stop ∧ stop ≤ buf.length ∧ ∀ i, i < 12 → buf[stop - 12 + i]? = magic.toList[i]? := by
  have hmagic : magic.toList.length = 12 := magic.length_toList
  rw [isClosedAt, Bool.and_eq_true, decide_eq_true_eq, beq_iff_eq, Bytes.slice?_eq_some_iff]
  constructor
  · rintro ⟨h12, -, hle, heq⟩
    refine ⟨h12, hle, fun i hi => ?_⟩
    rw [← heq, List.getElem?_take_of_lt (by omega), List.getElem?_drop]
  · rintro ⟨h12, hle, heq⟩
    refine ⟨h12, by omega, hle, List.ext_getElem? fun i => ?_⟩
    by_cases hi : i < 12
    · rw [List.getElem?_take_of_lt (by omega), List.getElem?_drop, heq i hi]
    · rw [List.getElem?_eq_none (by simp; omega), List.getElem?_eq_none (by omega)]

theorem boundedEnd_of_le {buf : Bytes} {start size : Nat} (h : start + size ≤ buf.length) :
    boundedEnd buf start size = .ok (start + size) := if_pos h

theorem closingPlace_eq (buf : Bytes) (start size : Nat) :
    closingPlace buf start size =
      if buf.isEmpty then .error .noBuffer
      else if size = 0 then .error .emptyRegion
      else match boundedEnd buf start size with
        | .error e => .error e
        | .ok stop =>
          if isClosedAt buf (alignedEnd stop) || isClosedAt buf (alignedEnd stop + trailerSize) then
            .error .alreadyClosed
          else if buf.length < alignedEnd stop + trailerSize then
            .error (.tooSmall (alignedEnd stop + trailerSize) buf.length)
          else if UInt32.size ≤ alignedEnd stop - start then
            .error (.tooLarge (alignedEnd stop - start))
          else .ok (stop, alignedEnd stop, alignedEnd stop + trailerSize) := by
  unfold closingPlace
  cases boundedEnd buf start size with
  | error e => rfl
  | ok stop => rfl

/-- A region can be closed exactly if none of the seven reasons against it holds. -/
theorem closingPlace_eq_ok_iff {buf : Bytes} {start size : Nat} {r : Nat × Nat × Nat} :
    closingPlace buf start size = .ok r ↔
      buf ≠ [] ∧ size ≠ 0 ∧ start + size ≤ buf.length ∧
      isClosedAt buf (alignedEnd (start + size)) = false ∧
      isClosedAt buf (alignedEnd (start + size) + trailerSize) = false ∧
      alignedEnd (start + size) + trailerSize ≤ buf.length ∧
      alignedEnd (start + size) - start < UInt32.size ∧
      r = (start + size, alignedEnd (start + size), alignedEnd (start + size) + trailerSize) := by
  rw [closingPlace_eq, boundedEnd]
  by_cases hb : buf.isEmpty
  · simp [List.isEmpty_iff.1 hb]
  rw [if_neg hb]
  rw [List.isEmpty_iff] at hb
  by_cases hs : size = 0
  · simp [hs]
  rw [if_neg hs]
  by_cases he : start + size ≤ buf.length
  · rw [if_pos he]
    simp only [hb, hs, he, ne_eq, not_false_eq_true, true_and]
    split
    · next hc =>
      rw [Bool.or_eq_true] at hc
      rcases hc with hc | hc <;> simp [hc]
    next hc =>
    rw [Bool.or_eq_true, not_or, Bool.not_eq_true, Bool.not_eq_true] at hc
    rw [hc.1, hc.2]
    split
    · next hl => simp [Nat.not_le.2 hl]
    next hl =>
    split
    · next hu => simp [Nat.not_lt.2 hu]
    next hu => simp only [Nat.not_lt.1 hl, Nat.not_le.1 hu, Except.ok.injEq, true_and, eq_comm]
  · simp [he]

/-- What `close` does where a region can be closed. -/
theorem close_of_place {buf : Bytes} {start size dataEnd trailerStart trailerEnd : Nat}
    (h : closingPlace buf start size = .ok (dataEnd, trailerStart, trailerEnd)) :
    close buf start size = (.ok trailerEnd, closed buf start dataEnd trailerStart) := by
  rw [close, h]
  rfl

/-- A region that cannot be closed is left as it is. -/
theorem close_of_error {buf : Bytes} {start size : Nat} {e : BootconfigError}
    (h : closingPlace buf start size = .error e) : close buf start size = (.error e, buf) := by
  rw [close, h]

/-- What `verify` accepts: a trailer whose size and sum are those of the data before it. -/
theorem verify_of_trailer {buf : Bytes} {stop : Nat} {size sum : UInt32}
    (hstop : trailerSize ≤ stop) (hclosed : isClosedAt buf stop = true)
    (hread : (buf.drop (stop - trailerSize)).take trailerSize
      = trailerCodec.encode (size, sum, magic))
    (hsize : size.toNat ≤ stop - trailerSize)
    (hsum : checksum ((buf.drop (stop - trailerSize - size.toNat)).take size.toNat) = sum) :
    verify buf stop = .ok ⟨stop - trailerSize - size.toNat, size, sum⟩ := by
  have hguard : (decide (stop < trailerSize) || !isClosedAt buf stop) = false := by
    rw [hclosed, Bool.not_true, Bool.or_false, decide_eq_false_iff_not]
    exact Nat.not_lt.2 hstop
  unfold verify
  simp only [hguard, Bool.false_eq_true, if_false, hread, trailerCodec.read_encode,
    if_neg (Nat.not_lt.2 hsize), hsum, ne_eq, not_true_eq_false]
  rfl

section

variable {buf : Bytes} {start dataEnd trailerStart : Nat} (hdata : dataEnd ≤ trailerStart)
  (hfit : trailerStart + trailerSize ≤ buf.length)

include hdata hfit

theorem length_filled : (filled buf dataEnd trailerStart).length = buf.length := by
  apply Bytes.length_overwrite
  rw [Bytes.length_zeros]
  omega

theorem length_closed : (closed buf start dataEnd trailerStart).length = buf.length := by
  rw [closed, Bytes.length_overwrite, length_filled hdata hfit]
  rw [length_filled hdata hfit, length_trailerOf]
  exact hfit

theorem take_closed {n : Nat} (hn : n ≤ dataEnd) :
    (closed buf start dataEnd trailerStart).take n = buf.take n := by
  have hlen := length_filled hdata hfit
  rw [closed, Bytes.take_overwrite (by omega) (by omega), filled,
    Bytes.take_overwrite (by omega) hn]

theorem drop_closed {n : Nat} (hn : trailerStart + trailerSize ≤ n) :
    (closed buf start dataEnd trailerStart).drop n = buf.drop n := by
  have hlen := length_filled hdata hfit
  have hzeros := Bytes.length_zeros (trailerStart - dataEnd)
  rw [closed, Bytes.drop_overwrite (by rw [length_trailerOf, hlen]; exact hfit)
    (by rw [length_trailerOf]; exact hn), filled, Bytes.drop_overwrite (by omega) (by omega)]

theorem getElem?_filled (i : Nat) :
    (filled buf dataEnd trailerStart)[i]? =
      if i < dataEnd then buf[i]? else if i < trailerStart then some 0 else buf[i]? := by
  have hzeros := Bytes.length_zeros (trailerStart - dataEnd)
  rw [filled, Bytes.getElem?_overwrite (by omega), hzeros]
  by_cases h1 : i < dataEnd
  · rw [if_pos h1, if_pos h1]
  rw [if_neg h1, if_neg h1]
  by_cases h2 : i < trailerStart
  · rw [if_pos (by omega), if_pos h2, Bytes.zeros, List.getElem?_replicate, if_pos (by omega)]
  · rw [if_neg (by omega), if_neg h2]

/-- A closed region byte by byte. -/
theorem getElem?_closed (i : Nat) :
    (closed buf start dataEnd trailerStart)[i]? =
      if i < dataEnd then buf[i]?
      else if i < trailerStart then some 0
      else if i < trailerStart + trailerSize then
        (trailerOf (trailerStart - start)
          (covered buf start dataEnd trailerStart))[i - trailerStart]?
      else buf[i]? := by
  rw [closed, Bytes.getElem?_overwrite (by
    rw [length_filled hdata hfit, length_trailerOf]; exact hfit), length_trailerOf,
    getElem?_filled hdata hfit]
  by_cases h1 : i < dataEnd
  · rw [if_pos (Nat.lt_of_lt_of_le h1 hdata), if_pos h1, if_pos h1]
  rw [if_neg h1, if_neg h1]
  by_cases h2 : i < trailerStart
  · rw [if_pos h2, if_pos h2, if_pos h2]
  · rw [if_neg h2, if_neg h2, if_neg h2]

/-- The magic ends where the trailer does. -/
theorem isClosedAt_closed :
    isClosedAt (closed buf start dataEnd trailerStart) (trailerStart + trailerSize) = true := by
  rw [isClosedAt_iff, length_closed hdata hfit]
  refine ⟨by simp only [trailerSize]; omega, hfit, fun i hi => ?_⟩
  have h20 : trailerSize = 20 := rfl
  rw [getElem?_closed hdata hfit, if_neg (by omega), if_neg (by omega), if_pos (by omega),
    getElem?_trailerOf _ _ (by omega)]
  congr 1
  omega

/-- Closing changes nothing between the start of the data and the trailer but for the filling. -/
theorem take_drop_closed (hstart : start ≤ dataEnd) :
    ((closed buf start dataEnd trailerStart).drop start).take (trailerStart - start)
      = covered buf start dataEnd trailerStart := by
  have hlen := length_filled hdata hfit
  have hforth : start + (trailerStart - start) = trailerStart := by omega
  rw [covered, List.take_drop, List.take_drop, hforth, closed,
    Bytes.take_overwrite (by omega) (Nat.le_refl _)]

/-- The trailer stands behind the filled data. -/
theorem slice?_closed_trailer :
    Bytes.slice? (closed buf start dataEnd trailerStart) trailerStart (trailerStart + trailerSize)
      = some (trailerOf (trailerStart - start) (covered buf start dataEnd trailerStart)) := by
  have hlen := length_filled hdata hfit
  rw [← length_trailerOf (trailerStart - start) (covered buf start dataEnd trailerStart)]
  exact Bytes.slice?_overwrite (by rw [length_trailerOf, hlen]; exact hfit)

/-- The parser reads back what closing a region wrote. -/
theorem verify_closed (hstart : start ≤ dataEnd) (hsize : trailerStart - start < UInt32.size) :
    verify (closed buf start dataEnd trailerStart) (trailerStart + trailerSize)
      = .ok ⟨start, UInt32.ofNat (trailerStart - start),
        checksum (covered buf start dataEnd trailerStart)⟩ := by
  have hword : (UInt32.ofNat (trailerStart - start)).toNat = trailerStart - start :=
    UInt32.toNat_ofNat_of_lt' hsize
  have hback : trailerStart - (trailerStart - start) = start := by omega
  obtain ⟨-, -, hslice⟩ :=
    Bytes.slice?_eq_some_iff.1 (@slice?_closed_trailer buf start _ _ hdata hfit)
  rw [Nat.add_sub_cancel_left] at hslice
  have h := verify_of_trailer (Nat.le_add_left trailerSize trailerStart)
    (isClosedAt_closed hdata hfit)
    (by rw [Nat.add_sub_cancel]; exact hslice)
    (by rw [hword, Nat.add_sub_cancel]; exact Nat.sub_le _ _)
    (by rw [hword, Nat.add_sub_cancel, hback, take_drop_closed hdata hfit hstart])
  rw [h, hword, Nat.add_sub_cancel, hback]

end

end AndroidBoot.Bootconfig
