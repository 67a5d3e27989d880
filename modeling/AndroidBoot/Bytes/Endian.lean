import AndroidBoot.Bytes.Basic

/-!
# Integers as bytes

A natural number below `capacity w` is `w` bytes, least significant first (`ofNatLE`) or last
(`ofNatBE`). Both directions are inverse on strings of `w` bytes:

    toNatLE (ofNatLE w n) = n           for n < capacity w       (toNatLE_ofNatLE)
    ofNatLE bs.length (toNatLE bs) = bs                          (ofNatLE_toNatLE)

Words of 32 bits take four bytes, words of 64 bits eight.
-/

namespace AndroidBoot.Bytes

/-- How many numbers `w` bytes tell apart. -/
def capacity : Nat → Nat
  | 0 => 1
  | w + 1 => 256 * capacity w

def ofNatLE : Nat → Nat → Bytes
  | 0, _ => []
  | w + 1, n => UInt8.ofNat n :: ofNatLE w (n / 256)

def toNatLE : Bytes → Nat
  | [] => 0
  | b :: bs => b.toNat + 256 * toNatLE bs

def ofNatBE (w n : Nat) : Bytes := (ofNatLE w n).reverse

def toNatBE (bs : Bytes) : Nat := toNatLE bs.reverse

/-! ## Words -/

def ofWordLE (n : UInt32) : Bytes := ofNatLE 4 n.toNat

def toWordLE (bs : Bytes) : UInt32 := UInt32.ofNat (toNatLE bs)

def ofWordBE (n : UInt32) : Bytes := ofNatBE 4 n.toNat

def toWordBE (bs : Bytes) : UInt32 := UInt32.ofNat (toNatBE bs)

def ofLongLE (n : UInt64) : Bytes := ofNatLE 8 n.toNat

def toLongLE (bs : Bytes) : UInt64 := UInt64.ofNat (toNatLE bs)

def ofLongBE (n : UInt64) : Bytes := ofNatBE 8 n.toNat

def toLongBE (bs : Bytes) : UInt64 := UInt64.ofNat (toNatBE bs)

/-! ## Lemmas -/

@[simp] theorem length_ofNatLE (w n : Nat) : (ofNatLE w n).length = w := by
  induction w generalizing n with
  | zero => rfl
  | succ w ih => simp [ofNatLE, ih]

@[simp] theorem length_ofNatBE (w n : Nat) : (ofNatBE w n).length = w := by
  simp [ofNatBE]

theorem toNatLE_lt (bs : Bytes) : toNatLE bs < capacity bs.length := by
  induction bs with
  | nil => simp [toNatLE, capacity]
  | cons b bs ih =>
    have hb : b.toNat < 256 := UInt8.toNat_lt b
    simp only [toNatLE, List.length_cons, capacity]
    omega

theorem toNatLE_ofNatLE {w n : Nat} (h : n < capacity w) : toNatLE (ofNatLE w n) = n := by
  induction w generalizing n with
  | zero => simp [ofNatLE, toNatLE, capacity] at h ⊢; omega
  | succ w ih =>
    have h' : n / 256 < capacity w := by
      rw [capacity] at h
      exact Nat.div_lt_of_lt_mul h
    simp only [ofNatLE, toNatLE, ih h']
    have : (UInt8.ofNat n).toNat = n % 256 := by simp
    omega

theorem ofNatLE_toNatLE (bs : Bytes) : ofNatLE bs.length (toNatLE bs) = bs := by
  induction bs with
  | nil => rfl
  | cons b bs ih =>
    have hb : b.toNat < 256 := UInt8.toNat_lt b
    simp only [List.length_cons, ofNatLE, toNatLE, List.cons.injEq]
    constructor
    · rw [← UInt8.toNat_inj]
      simp
    · rw [show (b.toNat + 256 * toNatLE bs) / 256 = toNatLE bs by omega, ih]

theorem toNatBE_lt (bs : Bytes) : toNatBE bs < capacity bs.length := by
  simpa [toNatBE] using toNatLE_lt bs.reverse

theorem toNatBE_ofNatBE {w n : Nat} (h : n < capacity w) : toNatBE (ofNatBE w n) = n := by
  simpa [toNatBE, ofNatBE] using toNatLE_ofNatLE h

theorem ofNatBE_toNatBE (bs : Bytes) : ofNatBE bs.length (toNatBE bs) = bs := by
  have h := congrArg List.reverse (ofNatLE_toNatLE bs.reverse)
  simpa [toNatBE, ofNatBE] using h

/-! ### Words -/

theorem length_ofWordLE (n : UInt32) : (ofWordLE n).length = 4 := length_ofNatLE 4 n.toNat

theorem toWordLE_ofWordLE (n : UInt32) : toWordLE (ofWordLE n) = n := by
  rw [toWordLE, ofWordLE, toNatLE_ofNatLE n.toNat_lt, UInt32.ofNat_toNat]

theorem ofWordLE_toWordLE {bs : Bytes} (h : bs.length = 4) : ofWordLE (toWordLE bs) = bs := by
  have hlt : toNatLE bs < capacity 4 := h ▸ toNatLE_lt bs
  rw [ofWordLE, toWordLE, UInt32.toNat_ofNat_of_lt' hlt, ← h, ofNatLE_toNatLE]

theorem length_ofWordBE (n : UInt32) : (ofWordBE n).length = 4 := length_ofNatBE 4 n.toNat

theorem toWordBE_ofWordBE (n : UInt32) : toWordBE (ofWordBE n) = n := by
  rw [toWordBE, ofWordBE, toNatBE_ofNatBE n.toNat_lt, UInt32.ofNat_toNat]

theorem ofWordBE_toWordBE {bs : Bytes} (h : bs.length = 4) : ofWordBE (toWordBE bs) = bs := by
  have hlt : toNatBE bs < capacity 4 := h ▸ toNatBE_lt bs
  rw [ofWordBE, toWordBE, UInt32.toNat_ofNat_of_lt' hlt, ← h, ofNatBE_toNatBE]

theorem length_ofLongLE (n : UInt64) : (ofLongLE n).length = 8 := length_ofNatLE 8 n.toNat

theorem toLongLE_ofLongLE (n : UInt64) : toLongLE (ofLongLE n) = n := by
  rw [toLongLE, ofLongLE, toNatLE_ofNatLE n.toNat_lt, UInt64.ofNat_toNat]

theorem ofLongLE_toLongLE {bs : Bytes} (h : bs.length = 8) : ofLongLE (toLongLE bs) = bs := by
  have hlt : toNatLE bs < capacity 8 := h ▸ toNatLE_lt bs
  rw [ofLongLE, toLongLE, UInt64.toNat_ofNat_of_lt' hlt, ← h, ofNatLE_toNatLE]

theorem length_ofLongBE (n : UInt64) : (ofLongBE n).length = 8 := length_ofNatBE 8 n.toNat

theorem toLongBE_ofLongBE (n : UInt64) : toLongBE (ofLongBE n) = n := by
  rw [toLongBE, ofLongBE, toNatBE_ofNatBE n.toNat_lt, UInt64.ofNat_toNat]

theorem ofLongBE_toLongBE {bs : Bytes} (h : bs.length = 8) : ofLongBE (toLongBE bs) = bs := by
  have hlt : toNatBE bs < capacity 8 := h ▸ toNatBE_lt bs
  rw [ofLongBE, toLongBE, UInt64.toNat_ofNat_of_lt' hlt, ← h, ofNatBE_toNatBE]

end AndroidBoot.Bytes
