import AndroidBoot.Proofs.Bootconfig.Trailers

/-!
# Changed trailers

A trailer is accepted exactly where it says what is in the buffer: the magic ends where the trailer
does, the size in front of it leads back into the buffer, and the checksum is the sum of the bytes
between. So a byte of all that can only be changed for another trailer, or for none: a change of one
summand is less than `2 ^ 32` and cannot be lost in the sum.

    verify buf stop = .ok t ↔ t.EndsAt buf stop                            (verify_eq_ok_iff)
    verify (cut.toBytes) cut.stop = what the mark and the sum of the cut say       (verify_cut)
    data[i] ≠ b → checksum (data.set i b) ≠ checksum data                 (checksum_set_ne)
-/

namespace AndroidBoot.Bootconfig

/-- A trailer that says what is in the buffer in front of `stop`. -/
structure Trailer.EndsAt (t : Trailer) (buf : Bytes) (stop : Nat) : Prop where
  room : 20 ≤ stop
  inside : stop ≤ buf.length
  magic : Bytes.slice? buf (stop - 12) stop = some magic.toList
  size : Bytes.slice? buf (stop - 20) (stop - 16) = some (Bytes.ofWordLE t.size)
  sizeFits : t.size.toNat ≤ stop - 20
  dataStart : t.dataStart = stop - 20 - t.size.toNat
  checksum : Bytes.slice? buf (stop - 16) (stop - 12) = some (Bytes.ofWordLE t.checksum)
  sum : t.checksum.toNat = byteSum ((buf.drop t.dataStart).take t.size.toNat) % 2 ^ 32

/-- A buffer cut at the data of a trailer and at the trailer, which has `mark` in place of the
magic. -/
structure Cut where
  front : Bytes
  data : Bytes
  size : UInt32
  sum : UInt32
  mark : Vector UInt8 12
  behind : Bytes
  length_data : data.length = size.toNat

namespace Cut

def toBytes (c : Cut) : Bytes :=
  c.front ++ (c.data ++ (trailerCodec.encode (c.size, c.sum, c.mark) ++ c.behind))

/-- Where the trailer ends. -/
def stop (c : Cut) : Nat := c.front.length + c.data.length + 20

/-- The trailer that is read from the cut, if it is accepted. -/
def trailer (c : Cut) : Trailer := ⟨c.front.length, c.size, c.sum⟩

end Cut

/-! ## Sums -/

theorem byteSum_append (as bs : Bytes) : byteSum (as ++ bs) = byteSum as + byteSum bs := by
  rw [byteSum, List.map_append, List.sum_append]
  rfl

theorem byteSum_cons (b : UInt8) (bs : Bytes) : byteSum (b :: bs) = b.toNat + byteSum bs := by
  rw [byteSum, List.map_cons, List.sum_cons]
  rfl

/-- What the sum loses and wins by a byte that is changed. -/
theorem byteSum_set {data : Bytes} {i : Nat} (hi : i < data.length) (b : UInt8) :
    byteSum (data.set i b) + data[i].toNat = byteSum data + b.toNat := by
  have hdata : data = data.take i ++ data[i] :: data.drop (i + 1) := by
    rw [← List.drop_eq_getElem_cons hi, List.take_append_drop]
  have hold := congrArg byteSum hdata
  have hset := congrArg byteSum (List.set_eq_take_append_cons_drop (l := data) (i := i) (a := b))
  rw [if_pos hi] at hset
  rw [byteSum_append, byteSum_cons] at hold hset
  omega

/-- No change of one byte keeps the checksum. -/
theorem checksum_set_ne {data : Bytes} {i : Nat} {b : UInt8} (h : data.set i b ≠ data) :
    checksum (data.set i b) ≠ checksum data := by
  have hi : i < data.length := by
    apply Nat.lt_of_not_le
    intro hle
    exact h (List.set_eq_of_length_le hle)
  have hne : data[i].toNat ≠ b.toNat := by
    intro heq
    apply h
    rw [← UInt8.toNat_inj.1 heq, List.set_getElem_self]
  intro heq
  have hsum := byteSum_set hi b
  have hmod := congrArg UInt32.toNat heq
  rw [toNat_checksum, toNat_checksum] at hmod
  have hold := data[i].toNat_lt
  have hnew := b.toNat_lt
  omega

/-! ## Reading a cut -/

/-- What is in front of the end of a range is what is in front of its start, and the range. -/
theorem take_of_slice? {data bs : Bytes} {start stop : Nat}
    (h : Bytes.slice? data start stop = some bs) : data.take stop = data.take start ++ bs := by
  obtain ⟨hle, -, rfl⟩ := Bytes.slice?_eq_some_iff.1 h
  have hstop : stop = start + (stop - start) := by omega
  rw [hstop, List.take_add, ← hstop]

namespace Cut

theorem length_trailer (size sum : UInt32) (mark : Vector UInt8 12) :
    (trailerCodec.encode (size, sum, mark)).length = 20 := trailerCodec.length_encode _

theorem encode_eq (size sum : UInt32) (mark : Vector UInt8 12) :
    trailerCodec.encode (size, sum, mark)
      = Bytes.ofWordLE size ++ (Bytes.ofWordLE sum ++ mark.toList) := rfl

variable (c : Cut)

theorem length_toBytes : c.toBytes.length = c.stop + c.behind.length := by
  simp only [toBytes, stop, List.length_append, length_trailer]
  omega

theorem slice?_size : Bytes.slice? c.toBytes (c.stop - 20) (c.stop - 16)
    = some (Bytes.ofWordLE c.size) := by
  have hbytes : c.toBytes = (c.front ++ c.data)
      ++ (Bytes.ofWordLE c.size ++ (Bytes.ofWordLE c.sum ++ (c.mark.toList ++ c.behind))) := by
    simp only [toBytes, encode_eq, List.append_assoc]
  have hstop : c.stop - 16 = c.stop - 20 + 4 := by
    unfold stop
    omega
  rw [hbytes, hstop]
  apply Bytes.slice?_append
  · simp only [stop, List.length_append]
    omega
  · rw [Bytes.length_ofWordLE]

theorem slice?_sum : Bytes.slice? c.toBytes (c.stop - 16) (c.stop - 12)
    = some (Bytes.ofWordLE c.sum) := by
  have hbytes : c.toBytes = (c.front ++ (c.data ++ Bytes.ofWordLE c.size))
      ++ (Bytes.ofWordLE c.sum ++ (c.mark.toList ++ c.behind)) := by
    simp only [toBytes, encode_eq, List.append_assoc]
  have hstop : c.stop - 12 = c.stop - 16 + 4 := by
    unfold stop
    omega
  rw [hbytes, hstop]
  apply Bytes.slice?_append
  · simp only [stop, List.length_append, Bytes.length_ofWordLE]
    omega
  · rw [Bytes.length_ofWordLE]

theorem slice?_mark : Bytes.slice? c.toBytes (c.stop - 12) c.stop = some c.mark.toList := by
  have hbytes : c.toBytes
      = (c.front ++ (c.data ++ (Bytes.ofWordLE c.size ++ Bytes.ofWordLE c.sum)))
        ++ (c.mark.toList ++ c.behind) := by
    simp only [toBytes, encode_eq, List.append_assoc]
  have hstop : c.stop = c.stop - 12 + 12 := by
    unfold stop
    omega
  rw [hstop, Nat.add_sub_cancel, hbytes]
  apply Bytes.slice?_append
  · simp only [stop, List.length_append, Bytes.length_ofWordLE]
    omega
  · rw [Vector.length_toList]

theorem drop_front : c.toBytes.drop c.front.length
    = c.data ++ (trailerCodec.encode (c.size, c.sum, c.mark) ++ c.behind) :=
  List.drop_left

theorem isClosedAt_toBytes : isClosedAt c.toBytes c.stop = decide (c.mark = magic) := by
  have h12 : 12 ≤ c.stop := by
    unfold stop
    omega
  rw [isClosedAt, slice?_mark, decide_eq_true h12, Bool.true_and, Bool.eq_iff_iff, beq_iff_eq,
    decide_eq_true_eq, Option.some.injEq, Vector.toList_inj]

/-- The mark decides whether there is a trailer, and then the sum whether it is accepted. -/
theorem verify_cut : verify c.toBytes c.stop =
    if c.mark ≠ magic then .error (.notClosed c.stop)
    else if c.sum ≠ checksum c.data then .error (.wrongChecksum c.sum (checksum c.data))
    else .ok c.trailer := by
  have hroom : ¬ c.stop < trailerSize := by
    unfold stop trailerSize
    omega
  have hstart : c.stop - trailerSize = c.front.length + c.data.length := rfl
  have hdata : c.front.length + c.data.length - c.size.toNat = c.front.length := by
    rw [c.length_data, Nat.add_sub_cancel]
  have hfits : ¬ c.front.length + c.data.length < c.size.toNat := by
    rw [c.length_data]
    omega
  have hread : (c.toBytes.drop (c.front.length + c.data.length)).take trailerSize
      = trailerCodec.encode (c.size, c.sum, c.mark) := by
    rw [← List.drop_drop, drop_front, List.drop_left]
    exact List.take_left' (length_trailer _ _ _)
  have hcovered : (c.toBytes.drop c.front.length).take c.size.toNat = c.data := by
    rw [drop_front]
    exact List.take_left' c.length_data
  rw [verify_eq, hstart, hread, trailerCodec.read_encode, isClosedAt_toBytes]
  simp only [hdata, hcovered, if_neg hfits, decide_eq_false hroom, Bool.false_or]
  by_cases hmark : c.mark = magic
  · simp [hmark, trailer]
  · simp [hmark]

variable {c}

theorem verify_of_mark_ne (hmark : c.mark ≠ magic) :
    verify c.toBytes c.stop = .error (.notClosed c.stop) := by
  rw [verify_cut, if_pos hmark]

theorem verify_of_sum_ne (hmark : c.mark = magic) (hsum : c.sum ≠ checksum c.data) :
    verify c.toBytes c.stop = .error (.wrongChecksum c.sum (checksum c.data)) := by
  rw [verify_cut, if_neg (not_not_intro hmark), if_pos hsum]

theorem verify_of_sum_eq (hmark : c.mark = magic) (hsum : c.sum = checksum c.data) :
    verify c.toBytes c.stop = .ok c.trailer := by
  rw [verify_cut, if_neg (not_not_intro hmark), if_neg (not_not_intro hsum)]

/-- A buffer with room for a trailer and its data in front of `stop` can be cut there. -/
theorem exists_cut {buf : Bytes} {stop : Nat} {size sum : UInt32} {mark : Vector UInt8 12}
    (hroom : 20 ≤ stop) (hin : stop ≤ buf.length) (hfits : size.toNat ≤ stop - 20)
    (htrailer : buf.take stop = buf.take (stop - 20) ++ trailerCodec.encode (size, sum, mark)) :
    ∃ c : Cut, c.toBytes = buf ∧ c.stop = stop ∧ c.size = size ∧ c.sum = sum ∧ c.mark = mark := by
  have hfront : (buf.take (stop - 20 - size.toNat)).length = stop - 20 - size.toNat :=
    List.length_take_of_le (by omega)
  have hdata : ((buf.drop (stop - 20 - size.toNat)).take size.toNat).length = size.toNat := by
    rw [List.length_take, List.length_drop]
    omega
  refine ⟨⟨buf.take (stop - 20 - size.toNat), (buf.drop (stop - 20 - size.toNat)).take size.toNat,
    size, sum, mark, buf.drop stop, hdata⟩, ?_, ?_, rfl, rfl, rfl⟩
  · have hsplit : stop - 20 = stop - 20 - size.toNat + size.toNat := by omega
    rw [toBytes, ← List.append_assoc, ← List.take_add, ← hsplit, ← List.append_assoc, ← htrailer,
      List.take_append_drop]
  · show _ + _ + 20 = _
    rw [hfront, hdata]
    omega

/-! ## Changing a cut -/

/-- The cut with another byte at an offset of the data. -/
def setData (c : Cut) (k : Nat) (b : UInt8) : Cut :=
  { c with data := c.data.set k b, length_data := List.length_set.trans c.length_data }

/-- The cut with another byte at an offset of the checksum. -/
def setSum (c : Cut) (k : Nat) (b : UInt8) : Cut :=
  { c with sum := Bytes.toWordLE ((Bytes.ofWordLE c.sum).set k b) }

/-- The cut with another byte at an offset of the mark. -/
def setMark (c : Cut) (k : Nat) (b : UInt8) : Cut := { c with mark := c.mark.setIfInBounds k b }

variable {i : Nat} (b : UInt8)

theorem set_data (hstart : c.front.length ≤ i) (hi : i < c.stop - 20) :
    c.toBytes.set i b = (c.setData (i - c.front.length) b).toBytes := by
  unfold stop at hi
  rw [toBytes, List.set_append_right _ _ hstart, List.set_append_left _ _ (by omega)]
  rfl

/-- Other bytes in the place of the checksum are another checksum. -/
theorem set_sum (hstart : c.stop - 16 ≤ i) (hi : i < c.stop - 12) :
    c.toBytes.set i b = (c.setSum (i - (c.stop - 16)) b).toBytes := by
  have hlength : ((Bytes.ofWordLE c.sum).set (i - (c.stop - 16)) b).length = 4 := by
    rw [List.length_set, Bytes.length_ofWordLE]
  have hword := Bytes.ofWordLE_toWordLE hlength
  have hplace : i - c.front.length - c.data.length - 4 = i - (c.stop - 16) := by
    unfold stop
    omega
  unfold stop at hstart hi
  simp only [toBytes, setSum, encode_eq, List.append_assoc, hword]
  rw [List.set_append_right _ _ (by omega), List.set_append_right _ _ (by omega),
    List.set_append_right _ _ (by rw [Bytes.length_ofWordLE]; omega),
    List.set_append_left _ _ (by rw [Bytes.length_ofWordLE, Bytes.length_ofWordLE]; omega),
    Bytes.length_ofWordLE, hplace]

theorem set_mark (hstart : c.stop - 12 ≤ i) (hi : i < c.stop) :
    c.toBytes.set i b = (c.setMark (i - (c.stop - 12)) b).toBytes := by
  have hplace : i - c.front.length - c.data.length - 4 - 4 = i - (c.stop - 12) := by
    unfold stop
    omega
  unfold stop at hstart hi
  simp only [toBytes, setMark, encode_eq, List.append_assoc, Vector.toList_setIfInBounds]
  rw [List.set_append_right _ _ (by omega), List.set_append_right _ _ (by omega),
    List.set_append_right _ _ (by rw [Bytes.length_ofWordLE]; omega),
    List.set_append_right _ _ (by rw [Bytes.length_ofWordLE, Bytes.length_ofWordLE]; omega),
    List.set_append_left _ _
      (by rw [Bytes.length_ofWordLE, Bytes.length_ofWordLE, Vector.length_toList]; omega),
    Bytes.length_ofWordLE, Bytes.length_ofWordLE, hplace]

end Cut

/-! ## Reading -/

/-- What is accepted is a cut with the magic for its mark and the checksum of its data. -/
theorem exists_cut_of_verify {buf : Bytes} {stop : Nat} {t : Trailer}
    (h : verify buf stop = .ok t) :
    ∃ c : Cut, c.toBytes = buf ∧ c.stop = stop ∧ c.mark = magic ∧ c.sum = checksum c.data ∧
      c.trailer = t := by
  have hverify := h
  rw [verify_eq] at h
  simp only [] at h
  split at h
  · cases h
  next hclosed =>
  split at h
  · cases h
  next hfits =>
  rw [Bool.or_eq_true, decide_eq_true_eq, Bool.not_eq_true', not_or, Bool.not_eq_false] at hclosed
  obtain ⟨hroom, hclosed⟩ := hclosed
  obtain ⟨-, hin, -⟩ := isClosedAt_iff.1 hclosed
  have htrailer : buf.take stop = buf.take (stop - 20) ++ trailerCodec.encode
      (trailerCodec.read ((buf.drop (stop - trailerSize)).take trailerSize)) := by
    unfold trailerSize at hroom ⊢
    rw [trailerCodec.encode_read _ (by
        show _ = 20
        rw [List.length_take, List.length_drop]
        omega), ← List.take_add]
    congr 1
    omega
  obtain ⟨c, rfl, rfl, -, -, -⟩ :=
    Cut.exists_cut (Nat.not_lt.1 hroom) hin (Nat.not_lt.1 hfits) htrailer
  refine ⟨c, rfl, rfl, ?_⟩
  by_cases hmark : c.mark = magic
  · by_cases hsum : c.sum = checksum c.data
    · rw [Cut.verify_of_sum_eq hmark hsum] at hverify
      exact ⟨hmark, hsum, Except.ok.inj hverify⟩
    · rw [Cut.verify_of_sum_ne hmark hsum] at hverify
      cases hverify
  · rw [Cut.verify_of_mark_ne hmark] at hverify
    cases hverify

theorem verify_eq_ok_iff {buf : Bytes} {stop : Nat} {t : Trailer} :
    verify buf stop = .ok t ↔ t.EndsAt buf stop := by
  constructor
  · intro h
    obtain ⟨c, rfl, rfl, hmark, hsum, rfl⟩ := exists_cut_of_verify h
    have hcovered : (c.toBytes.drop c.front.length).take c.size.toNat = c.data := by
      rw [c.drop_front]
      exact List.take_left' c.length_data
    have hlength := c.length_data
    refine ⟨?_, ?_, ?_, c.slice?_size, ?_, ?_, c.slice?_sum, ?_⟩
    · unfold Cut.stop
      omega
    · rw [c.length_toBytes]
      exact Nat.le_add_right _ _
    · rw [← hmark]
      exact c.slice?_mark
    · show c.size.toNat ≤ c.stop - 20
      unfold Cut.stop
      omega
    · show c.front.length = c.stop - 20 - c.size.toNat
      unfold Cut.stop
      omega
    · show c.sum.toNat = byteSum ((c.toBytes.drop c.front.length).take c.size.toNat) % 2 ^ 32
      rw [hcovered, hsum, toNat_checksum]
  · intro h
    have htrailer : buf.take stop = buf.take (stop - 20)
        ++ trailerCodec.encode (t.size, t.checksum, magic) := by
      rw [take_of_slice? h.magic, take_of_slice? h.checksum, take_of_slice? h.size,
        Cut.encode_eq, List.append_assoc, List.append_assoc]
    obtain ⟨c, rfl, rfl, hsize, hsum, hmark⟩ := Cut.exists_cut h.room h.inside h.sizeFits htrailer
    have hlength := c.length_data
    have hstart : t.dataStart = c.front.length := by
      rw [h.dataStart, ← hsize, Cut.stop]
      omega
    have hcovered : (c.toBytes.drop t.dataStart).take t.size.toNat = c.data := by
      rw [hstart, c.drop_front, ← hsize]
      exact List.take_left' c.length_data
    have hchecksum : c.sum = checksum c.data := by
      rw [← UInt32.toNat_inj, toNat_checksum, hsum, h.sum, hcovered]
    rw [Cut.verify_of_sum_eq hmark hchecksum, Cut.trailer, ← hstart, hsize, hsum]

/-! ## One byte changed -/

theorem set_ne_self {buf : Bytes} {i : Nat} {b : UInt8} (hi : i < buf.length)
    (hb : buf[i]? ≠ some b) : buf.set i b ≠ buf := by
  intro h
  apply hb
  rw [← h, List.getElem?_set_self hi]

namespace Cut

variable {c : Cut} {k : Nat} {b : UInt8}

theorem verify_setData (hmark : c.mark = magic) (hsum : c.sum = checksum c.data)
    (hother : (c.setData k b).toBytes ≠ c.toBytes) :
    ∃ actual ≠ c.sum,
      verify (c.setData k b).toBytes c.stop = .error (.wrongChecksum c.sum actual) := by
  have hdata : checksum (c.data.set k b) ≠ checksum c.data := by
    apply checksum_set_ne
    intro hsame
    apply hother
    simp only [toBytes, setData, hsame]
  have hstop : (c.setData k b).stop = c.stop := by
    unfold stop setData
    rw [List.length_set]
  rw [← hsum] at hdata
  refine ⟨_, hdata, ?_⟩
  rw [← hstop]
  exact verify_of_sum_ne (c := c.setData k b) hmark hdata.symm

theorem verify_setSum (hmark : c.mark = magic) (hsum : c.sum = checksum c.data)
    (hother : (c.setSum k b).toBytes ≠ c.toBytes) :
    ∃ stated ≠ c.sum,
      verify (c.setSum k b).toBytes c.stop = .error (.wrongChecksum stated c.sum) := by
  have hstated : (c.setSum k b).sum ≠ c.sum := by
    intro hsame
    apply hother
    have hcut : c.setSum k b = { c with sum := (c.setSum k b).sum } := rfl
    rw [hcut, hsame]
  refine ⟨_, hstated, ?_⟩
  rw [hsum] at hstated ⊢
  exact verify_of_sum_ne (c := c.setSum k b) hmark hstated

theorem verify_setMark (hmark : c.mark = magic) (hother : (c.setMark k b).toBytes ≠ c.toBytes) :
    verify (c.setMark k b).toBytes c.stop = .error (.notClosed c.stop) := by
  have hchanged : (c.setMark k b).mark ≠ c.mark := by
    intro hsame
    apply hother
    have hcut : c.setMark k b = { c with mark := (c.setMark k b).mark } := rfl
    rw [hcut, hsame]
  rw [hmark] at hchanged
  exact verify_of_mark_ne (c := c.setMark k b) hchanged

end Cut

/-- **Trailers and the bytes they cover.** A trailer is accepted exactly where it says what is in
the buffer. Another byte in the data or in the checksum is then a checksum that is wrong, and
another byte in the magic leaves no trailer. -/
theorem verify_exact (buf : Bytes) (stop : Nat) :
    (∀ t, verify buf stop = .ok t ↔ t.EndsAt buf stop) ∧
    ∀ t, verify buf stop = .ok t → ∀ i b, buf[i]? ≠ some b →
      (t.dataStart ≤ i → i < stop - 20 → ∃ actual ≠ t.checksum,
        verify (buf.set i b) stop = .error (.wrongChecksum t.checksum actual)) ∧
      (stop - 16 ≤ i → i < stop - 12 → ∃ stated ≠ t.checksum,
        verify (buf.set i b) stop = .error (.wrongChecksum stated t.checksum)) ∧
      (stop - 12 ≤ i → i < stop → verify (buf.set i b) stop = .error (.notClosed stop)) := by
  refine ⟨fun t => verify_eq_ok_iff, fun t h i b hb => ?_⟩
  obtain ⟨c, rfl, rfl, hmark, hsum, rfl⟩ := exists_cut_of_verify h
  have hlength := c.length_toBytes
  refine ⟨fun hstart hi => ?_, fun hstart hi => ?_, fun hstart hi => ?_⟩
  · have hother := set_ne_self (by omega) hb
    rw [Cut.set_data b hstart hi] at hother ⊢
    exact Cut.verify_setData hmark hsum hother
  · have hother := set_ne_self (by omega) hb
    rw [Cut.set_sum b hstart hi] at hother ⊢
    exact Cut.verify_setSum hmark hsum hother
  · have hother := set_ne_self (by omega) hb
    rw [Cut.set_mark b hstart hi] at hother ⊢
    exact Cut.verify_setMark hmark hother

end AndroidBoot.Bootconfig
