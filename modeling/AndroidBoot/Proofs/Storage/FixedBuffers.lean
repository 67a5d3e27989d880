import AndroidBoot.Proofs.Storage.Sinks

/-!
# Buffers of fixed size

A buffer takes what fits behind its position and refuses the rest, then and ever after. So calls
one after the other do what one write of all that they offer would do, whichever of them fail, and
the count of a stream is the length of what they put into its buffer.

    b.write bs = (taken.length, b.put taken), with taken = bs.take b.room                (write_eq)
    StreamCall.runAll s calls = (s.write (StreamCall.offeredAll s calls)).2       (runAll_eq_write)
-/

namespace AndroidBoot

namespace FixedBuffer

/-- How many bytes still fit. -/
def room (b : FixedBuffer) : Nat := b.data.length - b.position

/-- The buffer with bytes at its position, and behind them. -/
def put (b : FixedBuffer) (bs : Bytes) : FixedBuffer :=
  ⟨Bytes.overwrite b.data b.position bs, b.position + bs.length⟩

variable {b : FixedBuffer} {bs cs : Bytes}

theorem write_eq (b : FixedBuffer) (bs : Bytes) :
    b.write bs = ((bs.take b.room).length, b.put (bs.take b.room)) := rfl

theorem put_nil (b : FixedBuffer) : b.put [] = b := by
  rw [put, Bytes.overwrite_nil]
  rfl

/-- A position outside the buffer has no room. -/
theorem eq_nil_or_position_le (h : bs.length ≤ b.room) : bs = [] ∨ b.position ≤ b.data.length := by
  unfold room at h
  by_cases hin : b.position ≤ b.data.length
  · exact .inr hin
  · exact .inl (List.eq_nil_of_length_eq_zero (by omega))

theorem room_put (h : bs.length ≤ b.room) : (b.put bs).room = b.room - bs.length := by
  rcases eq_nil_or_position_le h with rfl | hin
  · rw [put_nil, List.length_nil, Nat.sub_zero]
  · unfold room at h
    rw [room, room, put, Bytes.length_overwrite (by omega), Nat.sub_sub]

theorem put_put (h : bs.length ≤ b.room) (cs : Bytes) : (b.put bs).put cs = b.put (bs ++ cs) := by
  rcases eq_nil_or_position_le h with rfl | hin
  · rw [put_nil, List.nil_append]
  · rw [put, put, put, Bytes.overwrite_append hin, List.length_append, Nat.add_assoc]

theorem getElem?_put (h : bs.length ≤ b.room) (i : Nat) : (b.put bs).data[i]? =
    if b.position ≤ i ∧ i < b.position + bs.length then bs[i - b.position]? else b.data[i]? := by
  rcases eq_nil_or_position_le h with rfl | hin
  · rw [put_nil, if_neg (by simp)]
  · unfold room at h
    rw [put, Bytes.getElem?_overwrite (by omega)]
    by_cases hfront : i < b.position
    · rw [if_pos hfront, if_neg (by omega)]
    · simp only [if_neg hfront, Nat.le_of_not_lt hfront, true_and]

theorem getElem?_put_zeros {n : Nat} (h : n ≤ b.room) (i : Nat) : (b.put (Bytes.zeros n)).data[i]? =
    if b.position ≤ i ∧ i < b.position + n then some 0 else b.data[i]? := by
  rw [getElem?_put (by rwa [Bytes.length_zeros]), Bytes.length_zeros]
  split
  · next hin => rw [Bytes.zeros, List.getElem?_replicate, if_pos (by omega)]
  · rfl

theorem length_take_room_le (b : FixedBuffer) (bs : Bytes) : (bs.take b.room).length ≤ b.room :=
  List.length_take_le _ _

/-! ## Writes -/

theorem write_of_fits (h : bs.length ≤ b.room) : b.write bs = (bs.length, b.put bs) := by
  rw [write_eq, List.take_of_length_le h]

/-- What did not fit leaves no room. -/
theorem room_write (h : (b.write bs).1 < bs.length) : (b.write bs).2.room = 0 := by
  rw [write_eq, List.length_take] at h
  rw [write_eq, room_put (b.length_take_room_le bs), List.length_take]
  omega

instance : LawfulSink FixedBuffer where
  write_le b bs := by
    show (bs.take b.room).length ≤ bs.length
    exact List.length_take_le' _ _
  write_nil b := by
    show b.write [] = (0, b)
    rw [write_eq, List.take_nil, List.length_nil, put_nil]
  write_append b bs cs := by
    show b.write (bs ++ cs) = Sink.goOn (b.write bs) bs.length (·.write cs)
    by_cases hfits : bs.length ≤ b.room
    · have hroom := room_put hfits
      rw [write_of_fits hfits, Sink.goOn, if_neg (Nat.lt_irrefl _), write_eq, write_eq, hroom,
        List.take_append, List.take_of_length_le hfits, put_put hfits, List.length_append]
    · have hshort : (b.write bs).1 < bs.length := by
        rw [write_eq, List.length_take]
        omega
      rw [Sink.goOn, if_pos hshort, write_eq, write_eq,
        List.take_append_of_le_length (by omega)]

end FixedBuffer

/-! ## Calls on a stream -/

/-- A call that writes to a counted stream. -/
inductive StreamCall where
  | write (bs : Bytes)
  | writeAll (bs : Bytes)
  | fill (size : Nat)
  | fillExactly (size : Nat)
  | fillToMultiple (pageSize : Nat)
deriving DecidableEq, Repr

namespace StreamCall

variable {σ : Type} [Sink σ]

/-- The bytes that a call offers to the sink. -/
def offered (s : Counted σ) : StreamCall → Bytes
  | write bs | writeAll bs => bs
  | fill size | fillExactly size => Bytes.zeros size
  | fillToMultiple pageSize => Bytes.zeros (padding s.count pageSize)

/-- The stream after a call, which may have failed. -/
def run (s : Counted σ) : StreamCall → Counted σ
  | write bs => (s.write bs).2
  | writeAll bs => (s.writeAll bs).2
  | fill size => (s.fill size).2
  | fillExactly size => (s.fillExactly size).2
  | fillToMultiple pageSize => (s.fillToMultiple pageSize).2

/-- What all calls of a row offer, one behind the other. -/
def offeredAll : Counted σ → List StreamCall → Bytes
  | _, [] => []
  | s, c :: calls => c.offered s ++ offeredAll (c.run s) calls

/-- The stream after a row of calls, going on after those that failed. -/
def runAll (s : Counted σ) (calls : List StreamCall) : Counted σ := calls.foldl run s

/-- A call leaves the stream as one write of what it offers does, whatever it answers. -/
theorem run_eq_write [LawfulSink σ] (s : Counted σ) (c : StreamCall) :
    c.run s = (s.write (c.offered s)).2 := by
  cases c with
  | write bs => rfl
  | writeAll bs => rfl
  | fill size =>
    show (s.fill size).2 = _
    rw [Counted.fill_eq_write]
    rfl
  | fillExactly size =>
    show (s.fillExactly size).2 = _
    rw [Counted.fillExactly_eq]
    rfl
  | fillToMultiple pageSize =>
    show (s.fillToMultiple pageSize).2 = _
    rw [Counted.fillToMultiple_eq, Counted.fillExactly_eq]
    rfl

end StreamCall

namespace CountedStream

variable {s : CountedStream}

theorem write_eq (s : CountedStream) (bs : Bytes) : s.write bs =
    ((bs.take s.buffer.room).length,
      ⟨s.buffer.put (bs.take s.buffer.room), s.count + (bs.take s.buffer.room).length⟩) := rfl

/-- Once a write was cut short, the next one adds nothing. -/
theorem write_write (s : CountedStream) (bs cs : Bytes) :
    ((s.write bs).2.write cs).2 = (s.write (bs ++ cs)).2 := by
  rw [Counted.write_append, Sink.goOn]
  split
  · next hshort =>
    have hroom : (s.write bs).2.buffer.room = 0 := FixedBuffer.room_write hshort
    rw [write_eq (s.write bs).2, hroom, List.take_zero, FixedBuffer.put_nil]
    rfl
  · rfl

theorem runAll_eq_write (s : CountedStream) (calls : List StreamCall) :
    StreamCall.runAll s calls = (s.write (StreamCall.offeredAll s calls)).2 := by
  induction calls generalizing s with
  | nil =>
    rw [StreamCall.offeredAll, Counted.write_nil]
    rfl
  | cons c calls ih =>
    show StreamCall.runAll (c.run s) calls = _
    rw [ih (c.run s), StreamCall.offeredAll, StreamCall.run_eq_write, write_write]

/-! ## Zeros -/

theorem fill_eq (s : CountedStream) (size : Nat) : s.fill size =
    (min size s.buffer.room, ⟨s.buffer.put (Bytes.zeros (min size s.buffer.room)),
      s.count + min size s.buffer.room⟩) := by
  have htake : (Bytes.zeros size).take s.buffer.room = Bytes.zeros (min size s.buffer.room) := by
    rw [Bytes.zeros, List.take_replicate, Nat.min_comm, Bytes.zeros]
  rw [Counted.fill_eq_write, write_eq, htake, Bytes.length_zeros]

theorem fillExactly_eq (s : CountedStream) (size : Nat) : s.fillExactly size =
    (if s.buffer.room < size then .error (.shortFill size s.buffer.room) else .ok (),
      (s.fill size).2) := by
  have hwritten : (s.write (Bytes.zeros size)).1 = min size s.buffer.room := by
    rw [← Counted.fill_eq_write, fill_eq]
  rw [Counted.fillExactly_eq, hwritten, Counted.fill_eq_write]
  by_cases hshort : s.buffer.room < size
  · rw [if_pos hshort, Nat.min_eq_right (Nat.le_of_lt hshort), if_pos (Nat.ne_of_lt hshort)]
  · rw [if_neg hshort, Nat.min_eq_left (Nat.le_of_not_lt hshort), if_neg (not_not_intro rfl)]

theorem fillExactly_eq_error_iff {size : Nat} {e : StreamError} :
    (s.fillExactly size).1 = .error e ↔
      s.buffer.room < size ∧ e = .shortFill size s.buffer.room := by
  rw [fillExactly_eq]
  split
  · next hshort => rw [Except.error.injEq, and_iff_right hshort, eq_comm]
  · next hfits => exact iff_of_false nofun fun h => hfits h.1

theorem fillToMultiple_isOk_iff {pageSize : Nat} :
    (∃ gap s', s.fillToMultiple pageSize = (.ok gap, s')) ↔
      padding s.count pageSize ≤ s.buffer.room := by
  simp only [Counted.fillToMultiple_eq_ok_iff, fillExactly_eq, Prod.mk.injEq, exists_eq_left,
    exists_and_left, exists_eq', and_true]
  split
  · next hshort => exact iff_of_false nofun (Nat.not_le.2 hshort)
  · next hfits => exact iff_of_true rfl (Nat.le_of_not_lt hfits)

/-- The count of a stream and the bytes in its buffer, behind any calls. -/
theorem runAll_ofBuffer (b : FixedBuffer) (calls : List StreamCall) :
    StreamCall.runAll (ofBuffer b) calls =
      ⟨b.put ((StreamCall.offeredAll (ofBuffer b) calls).take b.room),
        ((StreamCall.offeredAll (ofBuffer b) calls).take b.room).length⟩ := by
  rw [runAll_eq_write, write_eq]
  show (⟨_, 0 + _⟩ : CountedStream) = _
  rw [Nat.zero_add]
  rfl

/-- **Zeros in a buffer.** A fill from any position puts zeros in the next bytes, as many as there
is room for, says how many, and changes no others. An exact fill does the same and fails exactly if
that is fewer than it should be. Behind any calls on a stream the position it reports is how many
bytes they have written, and those stand in the buffer; zeros up to the next page end on a page,
and fail exactly if there is no room for them. -/
theorem fill_exact (b : FixedBuffer) :
    (∀ count size : Nat,
      let s : CountedStream := ⟨b, count⟩
      let n := min size (b.data.length - b.position)
      (∃ data, s.fill size = (n, ⟨⟨data, b.position + n⟩, count + n⟩) ∧
        ∀ i, data[i]? = if b.position ≤ i ∧ i < b.position + n then some 0 else b.data[i]?) ∧
      (s.fillExactly size).2 = (s.fill size).2 ∧
      ∀ e, (s.fillExactly size).1 = .error e ↔ b.data.length - b.position < size ∧
        e = .shortFill size n ∧ e.fault = .unexpectedEof) ∧
    ∀ calls : List StreamCall,
      let s := StreamCall.runAll (ofBuffer b) calls
      let written := (StreamCall.offeredAll (ofBuffer b) calls).take (b.data.length - b.position)
      s.seek (.current 0) = .ok written.length ∧
      s.buffer = ⟨Bytes.overwrite b.data b.position written, b.position + written.length⟩ ∧
      ∀ pageSize, ((∃ gap s', s.fillToMultiple pageSize = (.ok gap, s')) ↔
          padding written.length pageSize ≤ b.data.length - b.position - written.length) ∧
        ∀ gap s', 0 < pageSize → s.fillToMultiple pageSize = (.ok gap, s') →
          s'.seek (.current 0) = .ok (written.length + gap) ∧ pageSize ∣ written.length + gap := by
  constructor
  · intro count size s n
    have hn : n ≤ b.room := Nat.min_le_right _ _
    have hfill : s.fill size = (n, ⟨b.put (Bytes.zeros n), count + n⟩) := fill_eq s size
    have hput : b.put (Bytes.zeros n) = ⟨(b.put (Bytes.zeros n)).data, b.position + n⟩ := by
      rw [FixedBuffer.put, Bytes.length_zeros]
    refine ⟨⟨_, hput ▸ hfill, FixedBuffer.getElem?_put_zeros hn⟩, ?_, fun e => ?_⟩
    · rw [fillExactly_eq]
    · rw [fillExactly_eq_error_iff]
      refine and_congr_right fun hshort => ?_
      have hall : n = b.room := Nat.min_eq_right (Nat.le_of_lt hshort)
      rw [hall]
      exact ⟨fun he => ⟨he, he ▸ rfl⟩, fun he => he.1⟩
  · intro calls s written
    have hs : s = ⟨b.put written, written.length⟩ := runAll_ofBuffer b calls
    have hroom : s.buffer.room = b.data.length - b.position - written.length := by
      rw [hs]
      exact FixedBuffer.room_put (b.length_take_room_le _)
    have hcount : s.count = written.length := by rw [hs]
    refine ⟨congrArg Except.ok hcount, by rw [hs]; rfl, fun pageSize => ⟨?_, ?_⟩⟩
    · rw [fillToMultiple_isOk_iff, hcount, hroom]
    · intro gap s' hpage hfill
      have hgap := (Counted.fillToMultiple_eq_ok_iff.1 hfill).2
      have hend : s'.count = written.length + gap := hcount ▸ Counted.count_of_fillExactly hgap
      have hdvd := Counted.dvd_count_of_fillToMultiple hpage hfill
      exact ⟨congrArg Except.ok hend, hend ▸ hdvd⟩

/-- Three bytes and two zeros into a buffer of eleven bytes from its third one on, and then zeros up
to the end of the second page of four bytes. -/
theorem fill_exact_page :
    let s := StreamCall.runAll (ofBuffer ⟨List.replicate 11 0xEE, 2⟩) [.write [1, 2, 3], .fill 2]
    s.buffer.data = [0xEE, 0xEE, 1, 2, 3, 0, 0, 0xEE, 0xEE, 0xEE, 0xEE] ∧
    ∃ gap s', s.fillToMultiple 4 = (.ok gap, s') ∧
      s'.seek (.current 0) = .ok (5 + gap) ∧ 4 ∣ 5 + gap := by
  obtain ⟨-, hbuffer, hpages⟩ :=
    (fill_exact ⟨List.replicate 11 0xEE, 2⟩).2 [.write [1, 2, 3], .fill 2]
  obtain ⟨hisOk, hends⟩ := hpages 4
  obtain ⟨gap, s', hfill⟩ := hisOk.2 (by decide)
  exact ⟨congrArg FixedBuffer.data hbuffer, gap, s', hfill, hends gap s' (by decide) hfill⟩

end CountedStream

end AndroidBoot
