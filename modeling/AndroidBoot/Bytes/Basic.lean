/-!
# Byte strings

`Bytes` is a list of bytes. `slice?` reads a range, `overwrite` replaces one in place, and a
fixed-size field is a `Vector UInt8 n` filled up with zeros: `padTo?` fills, `trimZeros` takes
the filling off again.

    padTo? n bs = none  ↔  n < bs.length                        (padTo?_eq_none_iff)
    padTo? n v.toList.trimZeros = some v                         (padTo?_trimZeros)
-/

namespace AndroidBoot

abbrev Bytes := List UInt8

namespace Bytes

/-- The bytes from `start` up to `stop`, if that range lies inside `data`. -/
def slice? (data : Bytes) (start stop : Nat) : Option Bytes :=
  if start ≤ stop ∧ stop ≤ data.length then some ((data.drop start).take (stop - start)) else none

/-- `data` with the bytes from `start` on replaced by `patch`. -/
def overwrite (data : Bytes) (start : Nat) (patch : Bytes) : Bytes :=
  data.take start ++ (patch ++ data.drop (start + patch.length))

def zeros (n : Nat) : Bytes := List.replicate n 0

@[simp] theorem length_zeros (n : Nat) : (zeros n).length = n := List.length_replicate

@[simp] theorem zeros_zero : zeros 0 = [] := rfl

theorem zeros_append_zeros (m n : Nat) : zeros m ++ zeros n = zeros (m + n) :=
  List.replicate_append_replicate

/-- Drops the zeros at the end; zeros before another byte stay. -/
def trimZeros (data : Bytes) : Bytes :=
  (data.reverse.dropWhile (· == 0)).reverse

/-- `data` cut or filled up with zeros to `n` bytes. -/
def resize (data : Bytes) (n : Nat) : Bytes :=
  data.take n ++ zeros (n - data.length)

theorem length_resize (data : Bytes) (n : Nat) : (resize data n).length = n := by
  simp [resize, zeros]; omega

/-- The first `n` bytes of `data` as a field of `n` bytes, with zeros where `data` has none. -/
def field (n : Nat) (data : Bytes) : Vector UInt8 n :=
  ⟨(resize data n).toArray, by simp [length_resize]⟩

/-- `data` as a field of `n` bytes, filled up with zeros, if it fits. -/
def padTo? (n : Nat) (data : Bytes) : Option (Vector UInt8 n) :=
  if data.length ≤ n then some (field n data) else none

/-! ## Lemmas -/

theorem resize_of_length {data : Bytes} {n : Nat} (h : data.length = n) : resize data n = data := by
  simp [resize, zeros, ← h]

@[simp] theorem toList_field (n : Nat) (data : Bytes) : (field n data).toList = resize data n := by
  simp [field]

theorem field_toList {n : Nat} (v : Vector UInt8 n) : field n v.toList = v := by
  rw [← Vector.toList_inj, toList_field, resize_of_length (by simp)]

theorem field_of_toList {n : Nat} {v : Vector UInt8 n} {data : Bytes} (h : v.toList = data.take n) :
    field n data = v := by
  have hlength : n ≤ data.length := by
    have := congrArg List.length h
    rw [Vector.length_toList, List.length_take] at this
    omega
  rw [← Vector.toList_inj, toList_field, resize, h, Nat.sub_eq_zero_of_le hlength, zeros_zero,
    List.append_nil]

/-- A field is read alike in what is in front of its end. -/
theorem field_take {data : Bytes} {k n : Nat} (hk : k ≤ n) (hn : n ≤ data.length) :
    field k (data.take n) = field k data := by
  apply field_of_toList
  rw [toList_field, resize, List.take_take, Nat.min_eq_left hk,
    Nat.sub_eq_zero_of_le (Nat.le_trans hk hn), zeros_zero, List.append_nil]

@[simp] theorem length_overwrite {data patch : Bytes} {start : Nat}
    (h : start + patch.length ≤ data.length) :
    (overwrite data start patch).length = data.length := by
  simp [overwrite]; omega

/-- What `overwrite` leaves in front of the patch. -/
theorem take_overwrite {data patch : Bytes} {start n : Nat} (h : start ≤ data.length)
    (hn : n ≤ start) : (overwrite data start patch).take n = data.take n := by
  rw [overwrite, List.take_append_of_le_length (by simp; omega), List.take_take,
    Nat.min_eq_left hn]

/-- What `overwrite` leaves behind the patch. -/
theorem drop_overwrite {data patch : Bytes} {start n : Nat}
    (h : start + patch.length ≤ data.length) (hn : start + patch.length ≤ n) :
    (overwrite data start patch).drop n = data.drop n := by
  have hlen : (data.take start).length = start := by simp; omega
  rw [overwrite, List.drop_append, List.drop_eq_nil_of_le (by omega), List.nil_append, hlen,
    List.drop_append, List.drop_eq_nil_of_le (by omega), List.nil_append, List.drop_drop]
  congr 1
  omega

/-- The patch stands where `overwrite` puts it. -/
theorem slice?_overwrite {data patch : Bytes} {start : Nat}
    (h : start + patch.length ≤ data.length) :
    slice? (overwrite data start patch) start (start + patch.length) = some patch := by
  have hlen : (data.take start).length = start := by simp; omega
  rw [slice?, if_pos ⟨by omega, by rw [length_overwrite h]; exact h⟩, overwrite,
    List.drop_left' hlen, Nat.add_sub_cancel_left, List.take_left' rfl]

theorem getElem?_overwrite {data patch : Bytes} {start : Nat}
    (h : start + patch.length ≤ data.length) (i : Nat) :
    (overwrite data start patch)[i]? =
      if i < start then data[i]?
      else if i < start + patch.length then patch[i - start]? else data[i]? := by
  have hlen : (data.take start).length = start := by simp; omega
  rw [overwrite, List.getElem?_append, hlen]
  split
  · next hi => rw [List.getElem?_take_of_lt hi]
  · rw [List.getElem?_append]
    split
    · next hi => rw [if_pos (by omega)]
    · next hi =>
      rw [if_neg (by omega), List.getElem?_drop]
      congr 1
      omega

/-- A range that lies inside `data` is read byte by byte. -/
theorem slice?_eq_some_iff {data bs : Bytes} {start stop : Nat} :
    slice? data start stop = some bs ↔
      start ≤ stop ∧ stop ≤ data.length ∧ (data.drop start).take (stop - start) = bs := by
  unfold slice?
  split
  · next h => simp [h.1, h.2]
  · next h => simp only [reduceCtorEq, false_iff]; rintro ⟨h1, h2, -⟩; exact h ⟨h1, h2⟩

/-- A range is read alike in strings that agree up to its end. -/
theorem slice?_of_take_eq {data data' : Bytes} {start stop n : Nat} (hn : stop ≤ n)
    (h : data.take n = data'.take n) (hlen : data.length = data'.length) :
    slice? data start stop = slice? data' start stop := by
  have htake : data.take stop = data'.take stop := by
    have := congrArg (List.take stop) h
    rwa [List.take_take, List.take_take, Nat.min_eq_left hn] at this
  rw [slice?, slice?, hlen, ← List.drop_take, ← List.drop_take, htake]

/-- A range is read alike in what is in front of its end. -/
theorem slice?_take {data : Bytes} {start stop n : Nat} (hstop : stop ≤ n) (hn : n ≤ data.length) :
    slice? (data.take n) start stop = slice? data start stop := by
  have hlen : (data.take n).length = n := by rw [List.length_take, Nat.min_eq_left hn]
  have hinside : (start ≤ stop ∧ stop ≤ (data.take n).length) ↔
      (start ≤ stop ∧ stop ≤ data.length) := by
    omega
  simp only [slice?, hinside, List.drop_take, List.take_take]
  rw [Nat.min_eq_left (by omega)]

/-- The middle of three parts. -/
theorem slice?_append {bs : Bytes} {start size : Nat} (before after : Bytes)
    (hstart : start = before.length) (hsize : size = bs.length) :
    slice? (before ++ (bs ++ after)) start (start + size) = some bs := by
  subst hstart hsize
  refine slice?_eq_some_iff.2 ⟨by omega, by simp only [List.length_append]; omega, ?_⟩
  rw [List.drop_left, Nat.add_sub_cancel_left, List.take_left]

theorem overwrite_nil (data : Bytes) (start : Nat) : overwrite data start [] = data := by
  simp [overwrite]

/-- A second patch that goes on where the first one ended. -/
theorem overwrite_append {data : Bytes} {start : Nat} (h : start ≤ data.length) (bs cs : Bytes) :
    overwrite data start (bs ++ cs) =
      overwrite (overwrite data start bs) (start + bs.length) cs := by
  have hlen : (data.take start ++ bs).length = start + bs.length := by simp; omega
  have hfirst : overwrite data start bs
      = data.take start ++ bs ++ data.drop (start + bs.length) := by
    rw [overwrite, List.append_assoc]
  have hbehind : (overwrite data start bs).drop (start + bs.length + cs.length)
      = data.drop (start + (bs ++ cs).length) := by
    rw [hfirst, ← List.drop_drop, List.drop_left' hlen, List.drop_drop, List.length_append,
      Nat.add_assoc]
  rw [overwrite, overwrite, hbehind, hfirst, List.take_left' hlen]
  simp only [List.append_assoc]

/-- `overwrite` changes nothing exactly if the patch stands there already. -/
theorem overwrite_eq_self_iff {data patch : Bytes} {start : Nat}
    (h : start + patch.length ≤ data.length) :
    overwrite data start patch = data ↔
      slice? data start (start + patch.length) = some patch := by
  constructor
  · intro hself
    have hslice := slice?_overwrite h
    rwa [hself] at hslice
  · intro hslice
    have hpatch := (slice?_eq_some_iff.1 hslice).2.2
    rw [Nat.add_sub_cancel_left] at hpatch
    calc overwrite data start patch
        = data.take start ++ (patch ++ (data.drop start).drop patch.length) := by
          rw [overwrite, List.drop_drop]
      _ = data.take start ++
            ((data.drop start).take patch.length ++ (data.drop start).drop patch.length) := by
          rw [hpatch]
      _ = data := by rw [List.take_append_drop, List.take_append_drop]

theorem padTo?_eq_none_iff {n : Nat} {data : Bytes} : padTo? n data = none ↔ n < data.length := by
  simp [padTo?]

theorem length_trimZeros_le (data : Bytes) : (trimZeros data).length ≤ data.length := by
  simpa [trimZeros] using (List.dropWhile_suffix (· == 0) (l := data.reverse)).length_le

/-- What `trimZeros` drops is zeros. -/
theorem trimZeros_append_zeros (data : Bytes) :
    trimZeros data ++ zeros (data.length - (trimZeros data).length) = data := by
  have key : ∀ l : Bytes,
      zeros (l.length - (l.dropWhile (· == 0)).length) ++ l.dropWhile (· == 0) = l := by
    intro l
    induction l with
    | nil => rfl
    | cons b l ih =>
      by_cases hb : b = 0
      · subst hb
        have hle := (List.dropWhile_suffix (· == (0 : UInt8)) (l := l)).length_le
        simp only [List.dropWhile_cons, beq_self_eq_true, if_true, List.length_cons]
        rw [show l.length + 1 - (l.dropWhile (· == 0)).length
          = (l.length - (l.dropWhile (· == 0)).length) + 1 by omega]
        simpa [zeros, List.replicate_succ] using ih
      · simp [hb, zeros]
  have h := congrArg List.reverse (key data.reverse)
  simpa [trimZeros, zeros] using h

theorem padTo?_trimZeros {n : Nat} (v : Vector UInt8 n) :
    padTo? n (trimZeros v.toList) = some v := by
  have hle : (trimZeros v.toList).length ≤ n := by simpa using length_trimZeros_le v.toList
  rw [padTo?, if_pos hle, Option.some_inj, ← Vector.toList_inj, toList_field, resize,
    List.take_of_length_le hle]
  simpa using trimZeros_append_zeros v.toList

end Bytes

end AndroidBoot
