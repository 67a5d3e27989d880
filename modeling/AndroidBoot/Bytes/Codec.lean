import AndroidBoot.Bytes.Endian

/-!
# Fixed-width records

A `Codec α` says how the values of `α` are laid out in exactly `width` bytes. Its laws make the
layout a bijection: every value has one byte string and every string of `width` bytes is one
value. Integers, byte fields, arrays and products of them are such layouts, and `map` names the
parts of a product.

    c.decode? (c.encode a ++ rest) = some a                      (decode?_encode_append)
    c.decode? data = some a → c.encode a = data.take c.width     (encode_of_decode?)
    c.decode? data = none ↔ data.length < c.width                (decode?_eq_none_iff)
-/

namespace AndroidBoot

structure Codec (α : Type) where
  width : Nat
  encode : α → Bytes
  /-- The value of a string of `width` bytes. -/
  read : Bytes → α
  length_encode : ∀ a, (encode a).length = width
  read_encode : ∀ a, read (encode a) = a
  encode_read : ∀ bs, bs.length = width → encode (read bs) = bs

namespace Codec

variable {α β : Type}

/-- The value at the front of `data`, if `data` is long enough to hold one. -/
def decode? (c : Codec α) (data : Bytes) : Option α :=
  if c.width ≤ data.length then some (c.read (data.take c.width)) else none

def wordLE : Codec UInt32 where
  width := 4
  encode := Bytes.ofWordLE
  read := Bytes.toWordLE
  length_encode := Bytes.length_ofWordLE
  read_encode := Bytes.toWordLE_ofWordLE
  encode_read _ := Bytes.ofWordLE_toWordLE

def longLE : Codec UInt64 where
  width := 8
  encode := Bytes.ofLongLE
  read := Bytes.toLongLE
  length_encode := Bytes.length_ofLongLE
  read_encode := Bytes.toLongLE_ofLongLE
  encode_read _ := Bytes.ofLongLE_toLongLE

def wordBE : Codec UInt32 where
  width := 4
  encode := Bytes.ofWordBE
  read := Bytes.toWordBE
  length_encode := Bytes.length_ofWordBE
  read_encode := Bytes.toWordBE_ofWordBE
  encode_read _ := Bytes.ofWordBE_toWordBE

def longBE : Codec UInt64 where
  width := 8
  encode := Bytes.ofLongBE
  read := Bytes.toLongBE
  length_encode := Bytes.length_ofLongBE
  read_encode := Bytes.toLongBE_ofLongBE
  encode_read _ := Bytes.ofLongBE_toLongBE

/-- A field of `n` bytes. -/
def bytes (n : Nat) : Codec (Vector UInt8 n) where
  width := n
  encode v := v.toList
  read bs := Bytes.field n bs
  length_encode v := by simp
  read_encode v := Bytes.field_toList v
  encode_read bs h := by rw [Bytes.toList_field, Bytes.resize_of_length h]

/-- Two records, one after the other. -/
def pair (c : Codec α) (d : Codec β) : Codec (α × β) where
  width := c.width + d.width
  encode p := c.encode p.1 ++ d.encode p.2
  read bs := (c.read (bs.take c.width), d.read (bs.drop c.width))
  length_encode p := by simp [c.length_encode, d.length_encode]
  read_encode p := by
    rw [List.take_left' (c.length_encode _), List.drop_left' (c.length_encode _), c.read_encode,
      d.read_encode]
  encode_read bs h := by
    rw [c.encode_read _ (by simp; omega), d.encode_read _ (by simp; omega), List.take_append_drop]

/-- The same bytes read as a value of another type that holds the same information. -/
def map (c : Codec α) (f : α → β) (g : β → α) (fg : ∀ b, f (g b) = b) (gf : ∀ a, g (f a) = a) :
    Codec β where
  width := c.width
  encode b := c.encode (g b)
  read bs := f (c.read bs)
  length_encode b := c.length_encode _
  read_encode b := by rw [c.read_encode, fg]
  encode_read bs h := by rw [gf, c.encode_read bs h]

/-- `n` values read off the front of a byte string. -/
def readMany (c : Codec α) : Nat → Bytes → List α
  | 0, _ => []
  | n + 1, bs => c.read (bs.take c.width) :: readMany c n (bs.drop c.width)

theorem length_readMany (c : Codec α) (n : Nat) (bs : Bytes) : (c.readMany n bs).length = n := by
  induction n generalizing bs with
  | zero => rfl
  | succ n ih => simp [readMany, ih]

theorem length_flatMap_encode (c : Codec α) (xs : List α) :
    (xs.flatMap c.encode).length = xs.length * c.width := by
  induction xs with
  | nil => simp
  | cons x xs ih => simp [ih, c.length_encode, Nat.succ_mul, Nat.add_comm]

theorem readMany_flatMap_encode (c : Codec α) (xs : List α) (rest : Bytes) :
    c.readMany xs.length (xs.flatMap c.encode ++ rest) = xs := by
  induction xs with
  | nil => rfl
  | cons x xs ih =>
    simp only [List.length_cons, readMany, List.flatMap_cons, List.append_assoc]
    rw [List.take_left' (c.length_encode _), List.drop_left' (c.length_encode _), c.read_encode, ih]

theorem flatMap_encode_readMany (c : Codec α) (n : Nat) (bs : Bytes) (h : bs.length = n * c.width) :
    (c.readMany n bs).flatMap c.encode = bs := by
  induction n generalizing bs with
  | zero => simp at h; simp [readMany, h]
  | succ n ih =>
    rw [Nat.succ_mul] at h
    simp only [readMany, List.flatMap_cons]
    rw [c.encode_read _ (by simp; omega), ih _ (by simp; omega), List.take_append_drop]

/-- `n` records of one kind, one after the other. -/
def array (c : Codec α) (n : Nat) : Codec (Vector α n) where
  width := n * c.width
  encode v := v.toList.flatMap c.encode
  read bs := ⟨(c.readMany n bs).toArray, by simp [length_readMany]⟩
  length_encode v := by rw [length_flatMap_encode, Vector.length_toList]
  read_encode v := by
    rw [← Vector.toList_inj]
    simpa using readMany_flatMap_encode c v.toList []
  encode_read bs h := by simpa using flatMap_encode_readMany c n bs h

/-! ## Lemmas -/

theorem decode?_eq_none_iff (c : Codec α) {data : Bytes} :
    c.decode? data = none ↔ data.length < c.width := by
  simp [decode?]

theorem decode?_encode_append (c : Codec α) (a : α) (rest : Bytes) :
    c.decode? (c.encode a ++ rest) = some a := by
  rw [decode?, if_pos (by simp [c.length_encode]), List.take_left' (c.length_encode _),
    c.read_encode]

theorem encode_of_decode? (c : Codec α) {data : Bytes} {a : α} (h : c.decode? data = some a) :
    c.encode a = data.take c.width := by
  unfold decode? at h
  split at h
  · next hw =>
    cases h
    rw [c.encode_read _ (by simp; omega)]
  · cases h

end Codec

end AndroidBoot
