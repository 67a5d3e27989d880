import AndroidBoot.Image.RamdiskTable
import AndroidBoot.Proofs.Image.Chains
import AndroidBoot.Proofs.Image.Inverses

/-!
# Which ramdisk tables are accepted

The entries of a table are read one after the other, each at the offset where the one before it
stops, so that what is read cuts the ramdisk section into pieces without gaps. Nothing else is asked
of the entries but that their types are known, and any such table is read back from its bytes.

    readEntries count index start data = .ok (es, stop) ↔
      es are the first count entries of data, in a chain from start to stop
                                                                      (readEntries_eq_ok_iff)
    decode data (.v4 base v4) = .ok t ↔ t.Fits data base v4           (decode_iff_fits)
-/

namespace AndroidBoot

/-! ## Ramdisks in the section -/

/-- Where a ramdisk stops in the ramdisk section. -/
def RamdiskEntry.stop (e : RamdiskEntry) : Nat := e.offset.toNat + e.size.toNat

namespace RamdiskTable

def totalSize (es : List RamdiskEntry) : Nat := (es.map (·.size.toNat)).sum

/-- What a table has to be for `data` and the fields of a header. -/
structure Fits (t : RamdiskTable) (data : Bytes) (base : VendorFieldsV3) (v4 : VendorFieldsV4) :
    Prop where
  entrySize : v4.tableEntrySize.toNat = 108
  tableSize : v4.tableSize.toNat = v4.tableEntryCount.toNat * 108
  room : v4.tableEntryCount.toNat * 108 ≤ data.length
  count : t.entries.length = v4.tableEntryCount.toNat
  bytes : t.encode = data.take (v4.tableEntryCount.toNat * 108)
  offsets : ∀ before e after, t.entries = before ++ e :: after → e.offset.toNat = totalSize before
  total : totalSize t.entries = base.vendorRamdiskSize.toNat

/-- The ramdisks lie one behind the other, the first at the start of the section. -/
def Contiguous (t : RamdiskTable) : Prop :=
  ∀ before e after, t.entries = before ++ e :: after → e.offset.toNat = totalSize before

theorem contiguous_iff {t : RamdiskTable} :
    t.Contiguous ↔ Chained (·.offset.toNat) (·.size.toNat) 0 t.entries := by
  rw [chained_iff]
  simp only [Nat.zero_add]
  rfl

end RamdiskTable

/-! ## One entry -/

theorem Codec.decode?_eq_some_iff {α : Type} {c : Codec α} {data : Bytes} {a : α} :
    c.decode? data = some a ↔ c.width ≤ data.length ∧ c.encode a = data.take c.width := by
  constructor
  · intro h
    refine ⟨?_, c.encode_of_decode? h⟩
    apply Nat.le_of_not_lt
    intro hshort
    rw [c.decode?_eq_none_iff.2 hshort] at h
    cases h
  · rintro ⟨-, h⟩
    rw [← List.take_append_drop c.width data, ← h, c.decode?_encode_append]

theorem RamdiskType.code_of_ofCode {code : UInt32} {type : RamdiskType}
    (h : ofCode code = .ok type) : type.code = code := by
  unfold ofCode at h
  split at h
  · next found hfound =>
    cases h
    simpa using List.find?_some hfound
  · cases h

namespace RamdiskEntry

theorem length_encode (e : RamdiskEntry) : e.encode.length = 108 := Stored.codec.length_encode _

theorem ofStored_eq_ok_iff {raw : Stored} {e : RamdiskEntry} :
    ofStored raw = .ok e ↔ raw = e.toStored := by
  obtain ⟨size, offset, code, name, boardId⟩ := raw
  constructor
  · intro h
    obtain ⟨type, htype, h⟩ : ∃ type, RamdiskType.ofCode code = .ok type ∧
        e = ⟨size, offset, type, name, boardId⟩ := by
      cases htype : RamdiskType.ofCode code with
      | error err =>
        rw [ofStored, htype] at h
        cases h
      | ok type =>
        rw [ofStored, htype] at h
        exact ⟨type, rfl, (Except.ok.inj h).symm⟩
    subst h
    rw [toStored, RamdiskType.code_of_ofCode htype]
  · intro h
    rw [h]
    show (RamdiskType.ofCode e.type.code >>= fun type => pure { e with type := type }) = _
    rw [RamdiskType.ofCode_code]
    rfl

end RamdiskEntry

namespace RamdiskTable

/-- All that reading an entry in front of others does. -/
theorem readEntries_succ_eq_ok_iff {count index : Nat} {offset stop : UInt32} {data : Bytes}
    {es : List RamdiskEntry} :
    readEntries (count + 1) index offset data = .ok (es, stop) ↔
      ∃ e rest, es = e :: rest ∧ 108 ≤ data.length ∧ e.encode = data.take 108 ∧
        e.offset = offset ∧ offset.toNat + e.size.toNat < UInt32.size ∧
        readEntries count (index + 1) (UInt32.ofNat (offset.toNat + e.size.toNat))
          (data.drop 108) = .ok (rest, stop) := by
  constructor
  · intro h
    obtain ⟨raw, hraw, h⟩ := BootHeader.readPart_bind_eq_ok h
    by_cases hoffset : raw.offset = offset
    · by_cases hfits : UInt32.size ≤ offset.toNat + raw.size.toNat
      · simp only [hoffset, ne_eq, not_true_eq_false, if_false, if_pos hfits] at h
        cases h
      · simp only [hoffset, ne_eq, not_true_eq_false, if_false, if_neg hfits] at h
        cases hentry : RamdiskEntry.ofStored raw with
        | error err =>
          rw [hentry] at h
          cases h
        | ok e =>
          obtain rfl := RamdiskEntry.ofStored_eq_ok_iff.1 hentry
          obtain ⟨hroom, hbytes⟩ := Codec.decode?_eq_some_iff.1 hraw
          replace h : (readEntries count (index + 1) (UInt32.ofNat (offset.toNat + e.size.toNat))
              (data.drop 108) >>= fun p => Except.ok (e :: p.1, p.2)) = .ok (es, stop) := by
            rw [hentry] at h
            exact h
          cases hrest : readEntries count (index + 1)
              (UInt32.ofNat (offset.toNat + e.size.toNat)) (data.drop 108) with
          | error err =>
            rw [hrest] at h
            cases h
          | ok p =>
            rw [hrest] at h
            cases h
            exact ⟨e, p.1, rfl, hroom, hbytes, hoffset, Nat.lt_of_not_le hfits, hrest⟩
    · simp only [ne_eq, hoffset, not_false_eq_true, if_true] at h
      cases h
  · rintro ⟨e, rest, rfl, hroom, hbytes, hoffset, hfits, hrest⟩
    have hread : BootHeader.readPart RamdiskEntry.Stored.codec "Vendor::V4::table_entry" data
        = .ok e.toStored :=
      BootHeader.readPart_eq_ok_iff.2 (Codec.decode?_eq_some_iff.2 ⟨hroom, hbytes⟩)
    unfold readEntries
    rw [hread]
    show (if e.offset ≠ offset then _ else if UInt32.size ≤ offset.toNat + e.size.toNat then _ else
      RamdiskEntry.ofStored e.toStored >>= fun entry => readEntries count (index + 1)
        (UInt32.ofNat (offset.toNat + e.size.toNat)) (data.drop 108) >>= fun p =>
          Except.ok (entry :: p.1, p.2)) = _
    rw [if_neg (Classical.not_not.2 hoffset), if_neg (Nat.not_le.2 hfits),
      RamdiskEntry.ofStored_eq_ok_iff.2 rfl, hrest]
    rfl

/-! ## All entries -/

theorem totalSize_cons (e : RamdiskEntry) (es : List RamdiskEntry) :
    totalSize (e :: es) = e.size.toNat + totalSize es := List.sum_cons

theorem length_flatMap_encode (es : List RamdiskEntry) :
    (es.flatMap RamdiskEntry.encode).length = es.length * 108 := by
  have h := RamdiskEntry.Stored.codec.length_flatMap_encode (es.map RamdiskEntry.toStored)
  rwa [List.flatMap_map, List.length_map] at h

/-- The entries that are read are those that the bytes hold, one behind the other. -/
theorem readEntries_eq_ok_iff {count index : Nat} {offset stop : UInt32} {data : Bytes}
    {es : List RamdiskEntry} :
    readEntries count index offset data = .ok (es, stop) ↔
      es.length = count ∧ count * 108 ≤ data.length ∧
      es.flatMap RamdiskEntry.encode = data.take (count * 108) ∧
      Chained (·.offset.toNat) (·.size.toNat) offset.toNat es ∧
      stop.toNat = offset.toNat + totalSize es := by
  induction count generalizing index offset data es with
  | zero =>
    rw [readEntries]
    constructor
    · intro h
      cases h
      exact ⟨rfl, by omega, by simp, trivial, rfl⟩
    · rintro ⟨hlength, -, -, -, hstop⟩
      obtain rfl := List.eq_nil_of_length_eq_zero hlength
      rw [UInt32.toNat_inj.1 hstop]
  | succ count ih =>
    have htake : data.take ((count + 1) * 108)
        = data.take 108 ++ (data.drop 108).take (count * 108) := by
      rw [Nat.succ_mul, Nat.add_comm, List.take_add]
    rw [readEntries_succ_eq_ok_iff]
    constructor
    · rintro ⟨e, rest, rfl, hroom, hbytes, hoffset, hfits, hrest⟩
      have hnext : (UInt32.ofNat (offset.toNat + e.size.toNat)).toNat
          = offset.toNat + e.size.toNat := UInt32.toNat_ofNat_of_lt' hfits
      obtain ⟨hlength, hmore, hothers, hchain, hstop⟩ := ih.1 hrest
      rw [List.length_drop] at hmore
      rw [hnext] at hchain hstop
      refine ⟨?_, ?_, ?_, ?_, ?_⟩
      · rw [List.length_cons, hlength]
      · omega
      · rw [List.flatMap_cons, hbytes, hothers, htake]
      · exact ⟨congrArg UInt32.toNat hoffset, hchain⟩
      · rw [totalSize_cons]
        omega
    · rintro ⟨hlength, hroom, hbytes, hchain, hstop⟩
      obtain ⟨e, rest, rfl⟩ := List.exists_cons_of_length_eq_add_one hlength
      obtain ⟨hoffset, hchain⟩ := hchain
      rw [totalSize_cons] at hstop
      have hlt := stop.toNat_lt
      have hfits : offset.toNat + e.size.toNat < UInt32.size := by
        show _ < 0x100000000
        omega
      have hnext : (UInt32.ofNat (offset.toNat + e.size.toNat)).toNat
          = offset.toNat + e.size.toNat := UInt32.toNat_ofNat_of_lt' hfits
      rw [List.flatMap_cons, htake] at hbytes
      have hparts := List.append_inj hbytes (by
        rw [e.length_encode, List.length_take]
        omega)
      refine ⟨e, rest, rfl, by omega, hparts.1, UInt32.toNat_inj.1 hoffset, hfits, ih.2 ?_⟩
      rw [hnext, List.length_drop]
      exact ⟨Nat.succ.inj hlength, by omega, hparts.2, hchain, by omega⟩

/-! ## Tables -/

/-- The word that says of what type an entry is. -/
theorem type_of_encode (e : RamdiskEntry) (rest : Bytes) :
    Codec.wordLE.decode? ((e.encode ++ rest).drop 8) = some e.type.code := by
  have hencode : ∃ others, e.encode
      = Codec.wordLE.encode e.size ++ Codec.wordLE.encode e.offset
        ++ (Codec.wordLE.encode e.type.code ++ others) := ⟨_, by
    rw [List.append_assoc]
    rfl⟩
  obtain ⟨others, hothers⟩ := hencode
  have hfront : (Codec.wordLE.encode e.size ++ Codec.wordLE.encode e.offset).length = 8 := by
    rw [List.length_append, Codec.length_encode, Codec.length_encode]
    rfl
  rw [hothers, List.append_assoc, List.drop_left' hfront, List.append_assoc,
    Codec.decode?_encode_append]

theorem code_le (type : RamdiskType) : type.code ≤ 3 := by
  cases type <;> decide

namespace Fits

variable {t : RamdiskTable} {data : Bytes} {base : VendorFieldsV3} {v4 : VendorFieldsV4}

theorem chained (h : t.Fits data base v4) :
    Chained (·.offset.toNat) (·.size.toNat) 0 t.entries := contiguous_iff.1 h.offsets

/-- A table that fits has only types that are known. -/
theorem types (h : t.Fits data base v4) :
    ∀ k < v4.tableEntryCount.toNat, ∃ code ≤ 3,
      Codec.wordLE.decode? (data.drop (k * 108 + 8)) = some code := by
  intro k hk
  rw [← h.count] at hk
  have hsplit : t.entries = t.entries.take k ++ t.entries[k] :: t.entries.drop (k + 1) := by
    rw [← List.drop_eq_getElem_cons hk, List.take_append_drop]
  have hfront : ((t.entries.take k).flatMap RamdiskEntry.encode).length = k * 108 := by
    rw [length_flatMap_encode, List.length_take_of_le (Nat.le_of_lt hk)]
  have hdata : data = (t.entries.take k).flatMap RamdiskEntry.encode
      ++ (t.entries[k].encode ++ ((t.entries.drop (k + 1)).flatMap RamdiskEntry.encode
        ++ data.drop (v4.tableEntryCount.toNat * 108))) := by
    rw [← List.append_assoc t.entries[k].encode, ← List.flatMap_cons, ← List.append_assoc,
      ← List.flatMap_append, ← hsplit]
    exact ((congrArg (· ++ _) h.bytes).trans (List.take_append_drop _ _)).symm
  refine ⟨t.entries[k].type.code, code_le _, ?_⟩
  rw [hdata, ← List.drop_drop, List.drop_left' hfront, type_of_encode]

end Fits

/-- The entries of a table have to add up to the section, and the header to the table. -/
theorem decode_v4_eq_ok_iff {data : Bytes} {base : VendorFieldsV3} {v4 : VendorFieldsV4}
    {t : RamdiskTable} :
    decode data (.v4 base v4) = .ok t ↔
      v4.tableEntrySize.toNat = 108 ∧ v4.tableSize.toNat = v4.tableEntryCount.toNat * 108 ∧
      readEntries v4.tableEntryCount.toNat 0 0 data = .ok (t.entries, base.vendorRamdiskSize) := by
  unfold decode
  by_cases hentry : v4.tableEntrySize.toNat = 108
  · by_cases hover : UInt32.size ≤ v4.tableEntryCount.toNat * 108
    · simp only [VendorHeader.tableEntrySize, hentry, ne_eq, not_true_eq_false, if_false,
        if_pos hover]
      constructor
      · nofun
      · rintro ⟨-, htable, -⟩
        have hlt := v4.tableSize.toNat_lt
        rw [htable] at hlt
        exact absurd hlt (Nat.not_lt.2 hover)
    · by_cases htable : v4.tableSize.toNat = v4.tableEntryCount.toNat * 108
      · simp only [VendorHeader.tableEntrySize, hentry, ne_eq, not_true_eq_false, if_false,
          if_neg hover, htable, true_and]
        cases hread : readEntries v4.tableEntryCount.toNat 0 0 data with
        | error err =>
          constructor <;> nofun
        | ok p =>
          show (if p.2 ≠ base.vendorRamdiskSize then Except.error _ else
            Except.ok (RamdiskTable.mk p.1)) = _ ↔ _
          by_cases htotal : p.2 = base.vendorRamdiskSize
          · rw [if_neg (Classical.not_not.2 htotal), ← htotal]
            constructor
            · intro h
              cases h
              rfl
            · intro h
              rw [congrArg Prod.fst (Except.ok.inj h)]
          · rw [if_pos htotal]
            constructor
            · nofun
            · rintro h
              cases h
              exact absurd rfl htotal
      · simp only [VendorHeader.tableEntrySize, hentry, ne_eq, not_true_eq_false, if_false,
          if_neg hover, htable, not_false_eq_true, if_true]
        constructor
        · nofun
        · rintro ⟨-, h, -⟩
          cases h
  · simp only [VendorHeader.tableEntrySize, ne_eq, hentry, not_false_eq_true, if_true]
    constructor
    · nofun
    · rintro ⟨h, -⟩
      cases h

theorem fits_iff {data : Bytes} {base : VendorFieldsV3} {v4 : VendorFieldsV4} {t : RamdiskTable} :
    t.Fits data base v4 ↔
      v4.tableEntrySize.toNat = 108 ∧ v4.tableSize.toNat = v4.tableEntryCount.toNat * 108 ∧
      readEntries v4.tableEntryCount.toNat 0 0 data = .ok (t.entries, base.vendorRamdiskSize) := by
  rw [readEntries_eq_ok_iff]
  constructor
  · intro h
    refine ⟨h.entrySize, h.tableSize, h.count, h.room, h.bytes, h.chained, ?_⟩
    rw [h.total]
    exact (Nat.zero_add _).symm
  · rintro ⟨hentry, htable, hcount, hroom, hbytes, hchain, htotal⟩
    refine ⟨hentry, htable, hroom, hcount, hbytes, contiguous_iff.2 hchain, ?_⟩
    rw [htotal]
    exact (Nat.zero_add _).symm

/-- **Decoding accepts the tables that cut the ramdisk section into pieces, and no others.** The
ramdisks of such a table lie one behind the other, and every byte of the section is in one of them.
-/
theorem decode_iff_fits (data : Bytes) (base : VendorFieldsV3) (v4 : VendorFieldsV4)
    (t : RamdiskTable) :
    (decode data (.v4 base v4) = .ok t ↔ t.Fits data base v4) ∧
    (t.Fits data base v4 →
      (∀ k < v4.tableEntryCount.toNat, ∃ code ≤ 3,
        Codec.wordLE.decode? (data.drop (k * 108 + 8)) = some code) ∧
      t.entries.Pairwise (fun e e' => e.stop ≤ e'.offset.toNat) ∧
      (∀ e ∈ t.entries, e.stop ≤ base.vendorRamdiskSize.toNat) ∧
      ∀ i, (∃ e ∈ t.entries, e.offset.toNat ≤ i ∧ i < e.stop) ↔
        i < base.vendorRamdiskSize.toNat) ∧
    decode data (.v3 base) = .error (.noRamdiskTable 3) := by
  refine ⟨decode_v4_eq_ok_iff.trans fits_iff.symm, fun h => ?_, rfl⟩
  have htotal : 0 + (t.entries.map (·.size.toNat)).sum = base.vendorRamdiskSize.toNat :=
    (Nat.zero_add _).trans h.total
  refine ⟨h.types, h.chained.pairwise, ?_, ?_⟩
  · intro e he
    have hbounds := h.chained.bounds e he
    rw [htotal] at hbounds
    exact hbounds.2
  · intro i
    have hcovers := h.chained.covers i
    rw [htotal, and_iff_right (Nat.zero_le i)] at hcovers
    exact hcovers

end RamdiskTable

end AndroidBoot
