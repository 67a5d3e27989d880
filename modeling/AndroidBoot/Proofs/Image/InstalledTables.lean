import AndroidBoot.Proofs.Image.RamdiskTables

/-!
# Tables put into a header

A header that is given the size of a table counts the entries that have room in it, and one that is
given the size of the ramdisk section states the total. That is all that reading asks of a header,
so a table without gaps is read back from its bytes behind the two calls, up to the limit of what a
header can state. A size that is no multiple of an entry's leaves a header that takes no table.

    t.Contiguous → t.Fits (t.encode ++ rest) (the header with the sizes of t)  (fits_installed)
    ¬ 108 ∣ size → decode data (the header with a table of it) = .error (.tableSizeMismatch …)
                                                                     (decode_of_not_dvd)
-/

namespace AndroidBoot

namespace VendorFieldsV4

/-- The fields with the size of a table, and the number of entries that have room in it. -/
def withTable (v4 : VendorFieldsV4) (size : UInt32) : VendorFieldsV4 :=
  { v4 with tableSize := size, tableEntrySize := 108, tableEntryCount := size / 108 }

end VendorFieldsV4

namespace RamdiskTable

/-! ## Sizes -/

theorem length_encode (t : RamdiskTable) : t.encode.length = t.entries.length * 108 :=
  length_flatMap_encode t.entries

theorem toNat_div_entrySize (size : UInt32) : (size / 108).toNat = size.toNat / 108 :=
  UInt32.toNat_div size 108

/-- A header with the sizes of a table is one that the table fits. -/
theorem fits_installed {t : RamdiskTable} (hchain : t.Contiguous)
    (htotal : totalSize t.entries < 2 ^ 32) (hlength : t.encode.length < 2 ^ 32)
    (base : VendorFieldsV3) (v4 : VendorFieldsV4) (rest : Bytes) :
    t.Fits (t.encode ++ rest)
      { base with vendorRamdiskSize := UInt32.ofNat (totalSize t.entries) }
      (v4.withTable (UInt32.ofNat t.encode.length)) := by
  have hsize : (UInt32.ofNat t.encode.length).toNat = t.entries.length * 108 := by
    rw [UInt32.toNat_ofNat_of_lt' hlength, length_encode]
  have hcount : (UInt32.ofNat t.encode.length / 108).toNat = t.entries.length := by
    rw [toNat_div_entrySize, hsize, Nat.mul_div_cancel _ (by decide)]
  refine
    { entrySize := rfl
      tableSize := ?_
      room := ?_
      count := hcount.symm
      bytes := ?_
      offsets := hchain
      total := (UInt32.toNat_ofNat_of_lt' htotal).symm }
  · show (UInt32.ofNat t.encode.length).toNat = (UInt32.ofNat t.encode.length / 108).toNat * 108
    rw [hsize, hcount]
  · show (UInt32.ofNat t.encode.length / 108).toNat * 108 ≤ _
    rw [hcount, List.length_append, length_encode]
    exact Nat.le_add_right _ _
  · show t.encode = (t.encode ++ rest).take ((UInt32.ofNat t.encode.length / 108).toNat * 108)
    rw [hcount, ← length_encode, List.take_left]

/-- A header whose table has a size that is no multiple of an entry's takes no table. -/
theorem decode_of_not_dvd {size : UInt32} (hsize : ¬ 108 ∣ size.toNat) (base : VendorFieldsV3)
    (v4 : VendorFieldsV4) (data : Bytes) :
    decode data (.v4 base (v4.withTable size))
      = .error (.tableSizeMismatch size (size / 108 * 108)) := by
  have hcount := toNat_div_entrySize size
  have hle : size.toNat / 108 * 108 ≤ size.toNat := Nat.div_mul_le_self _ _
  have hlt := size.toNat_lt
  have hover : ¬ UInt32.size ≤ size.toNat / 108 * 108 := by
    show ¬ 0x100000000 ≤ _
    omega
  have hne : size.toNat ≠ size.toNat / 108 * 108 := by
    omega
  have hproduct : UInt32.ofNat (size.toNat / 108 * 108) = size / 108 * 108 := by
    rw [← hcount, UInt32.ofNat_mul, UInt32.ofNat_toNat]
    rfl
  have hentry : ((108 : UInt32)).toNat = 108 := rfl
  unfold decode VendorFieldsV4.withTable
  simp only [VendorHeader.tableEntrySize, hentry, hcount, ne_eq, not_true_eq_false, if_false,
    if_neg hover, hne, not_false_eq_true, if_true, hproduct]
  rfl

/-- **Tables put into a header.** Behind the two calls that give a header the size of a table and
the total of its ramdisks, in either order, the table is read back from its bytes, whatever follows
them. Behind a call with a size that is no multiple of an entry's, nothing is read as a table. -/
theorem decode_of_installed (base : VendorFieldsV3) (v4 : VendorFieldsV4) :
    (∀ t : RamdiskTable, t.Contiguous → totalSize t.entries < 2 ^ 32 → t.encode.length < 2 ^ 32 →
      let tableSize := UInt32.ofNat t.encode.length
      let total := UInt32.ofNat (totalSize t.entries)
      ∃ h,
        ((VendorHeader.v4 base v4).resizeRegion .vendorRamdiskTable tableSize
          >>= (·.resizeRegion .vendorRamdisk total)) = .ok h ∧
        ((VendorHeader.v4 base v4).resizeRegion .vendorRamdisk total
          >>= (·.resizeRegion .vendorRamdiskTable tableSize)) = .ok h ∧
        ∀ rest, decode (t.encode ++ rest) h = .ok t) ∧
    ∀ size : UInt32, ¬ 108 ∣ size.toNat →
      ∃ h, (VendorHeader.v4 base v4).resizeRegion .vendorRamdiskTable size = .ok h ∧
        ∀ data, decode data h = .error (.tableSizeMismatch size (size / 108 * 108)) := by
  constructor
  · intro t hchain htotal hlength tableSize total
    refine ⟨.v4 { base with vendorRamdiskSize := total } (v4.withTable tableSize), rfl, rfl,
      fun rest => ?_⟩
    exact decode_v4_eq_ok_iff.2 (fits_iff.1 (fits_installed hchain htotal hlength base v4 rest))
  · intro size hsize
    exact ⟨.v4 base (v4.withTable size), rfl, decode_of_not_dvd hsize base v4⟩

/-- Two ramdisks that take all of a section, whose size is the largest that a header can state. -/
def full : RamdiskTable where
  entries :=
    [{ size := 0xFFFFFFFE, offset := 0, type := .platform,
       name := .replicate 32 0x61, boardId := .replicate 16 0 },
     { size := 1, offset := 0xFFFFFFFE, type := .recovery,
       name := .replicate 32 0x62, boardId := .replicate 16 1 }]

/-- The fields of a header without regions. -/
def blankV3 : VendorFieldsV3 where
  pageSize := 4096
  kernelAddr := 0
  ramdiskAddr := 0
  vendorRamdiskSize := 0
  cmdline := .replicate 2048 0
  tagsAddr := 0
  name := .replicate 16 0
  headerSize := 2128
  dtbSize := 0
  dtbAddr := 0

def blankV4 : VendorFieldsV4 where
  tableSize := 0
  tableEntryCount := 0
  tableEntrySize := 0
  bootconfigSize := 0

theorem full_contiguous : full.Contiguous :=
  contiguous_iff.2 ⟨rfl, rfl, trivial⟩

/-- A table at the limit is read back, also with a byte behind it, and a size of one byte less than
two entries leaves no table. -/
theorem decode_of_installed_full :
    (full.Contiguous ∧ totalSize full.entries = 0xFFFFFFFF ∧ ¬ 108 ∣ (215 : UInt32).toNat) ∧
    (∃ h,
      ((VendorHeader.v4 blankV3 blankV4).resizeRegion .vendorRamdiskTable
          (UInt32.ofNat full.encode.length)
        >>= (·.resizeRegion .vendorRamdisk (UInt32.ofNat (totalSize full.entries)))) = .ok h ∧
      decode (full.encode ++ [0x61]) h = .ok full) ∧
    ∃ h, (VendorHeader.v4 blankV3 blankV4).resizeRegion .vendorRamdiskTable 215 = .ok h ∧
      decode full.encode h = .error (.tableSizeMismatch 215 108) := by
  have htotal : totalSize full.entries = 0xFFFFFFFF := rfl
  have hodd : ¬ 108 ∣ (215 : UInt32).toNat := by decide
  obtain ⟨htables, hsizes⟩ := decode_of_installed blankV3 blankV4
  refine ⟨⟨full_contiguous, htotal, hodd⟩, ?_, ?_⟩
  · obtain ⟨h, hset, -, hread⟩ := htables full full_contiguous (by rw [htotal]; decide)
      (by rw [length_encode]; decide)
    exact ⟨h, hset, hread [0x61]⟩
  · obtain ⟨h, hset, hread⟩ := hsizes 215 hodd
    exact ⟨h, hset, hread full.encode⟩

end RamdiskTable

end AndroidBoot
