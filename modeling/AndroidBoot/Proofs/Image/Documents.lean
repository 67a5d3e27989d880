import AndroidBoot.Image.Document
import AndroidBoot.Proofs.Toml.Shapes

/-!
# Headers can be read back from their documents

The fields of every record are read back by their names, and the sections of a header by theirs, so
a header is the one that its document describes. A document can be written unless a number of 64
bits in the header does not fit them with a sign.

    h.toDocument.write = some text → ofDocument? text = some h               (ofDocument?_write)
    h.toDocument.write.isSome ↔ ∀ n ∈ h.longs, n < 2 ^ 63               (isSome_write_toDocument)

Both together say when a header survives its document                          (document_inverse)
-/

namespace AndroidBoot

open Toml

/-! ## Fields of the records -/

open Toml.Fields

theorem BootFieldsV0.sound_fields : BootFieldsV0.fields.Sound where
  lawful := (lawful_one_escaped.words.escaped.escaped.word.word.word.word.word.word.word.word.word
    ).map fun _ => rfl
  distinct := by decide
  bare := by decide

theorem BootFieldsV0.isSome_entries (base : BootFieldsV0) :
    ∀ f ∈ BootFieldsV0.fields.entries base, (writeValue f.2).isSome := by
  rw [sound_fields.isSome_entries]
  simp [fields]

theorem BootFieldsV1.sound_fields : BootFieldsV1.fields.Sound where
  lawful := lawful_one_word.long.word.map fun _ => rfl
  distinct := by decide
  bare := by decide

theorem BootFieldsV1.isSome_entries (e1 : BootFieldsV1) :
    (∀ f ∈ BootFieldsV1.fields.entries e1, (writeValue f.2).isSome) ↔
      e1.recoveryDtboOffset.toNat < signedLimit := by
  rw [sound_fields.isSome_entries]
  simp [fields]

theorem BootFieldsV2.sound_fields : BootFieldsV2.fields.Sound where
  lawful := lawful_one_long.word.map fun _ => rfl
  distinct := by decide
  bare := by decide

theorem BootFieldsV2.isSome_entries (e2 : BootFieldsV2) :
    (∀ f ∈ BootFieldsV2.fields.entries e2, (writeValue f.2).isSome)
      ↔ e2.dtbAddr.toNat < signedLimit := by
  rw [sound_fields.isSome_entries]
  simp [fields]

theorem BootFieldsV3.sound_fields : BootFieldsV3.fields.Sound where
  lawful := lawful_one_escaped.words.word.word.word.word.map fun _ => rfl
  distinct := by decide
  bare := by decide

theorem BootFieldsV3.isSome_entries (base : BootFieldsV3) :
    ∀ f ∈ BootFieldsV3.fields.entries base, (writeValue f.2).isSome := by
  rw [sound_fields.isSome_entries]
  simp [fields]

theorem BootFieldsV4.sound_fields : BootFieldsV4.fields.Sound where
  lawful := lawful_one_word.map fun _ => rfl
  distinct := by decide
  bare := by decide

theorem BootFieldsV4.isSome_entries (e4 : BootFieldsV4) :
    ∀ f ∈ BootFieldsV4.fields.entries e4, (writeValue f.2).isSome := by
  rw [sound_fields.isSome_entries]
  simp [fields]

theorem VendorFieldsV3.sound_fields : VendorFieldsV3.fields.Sound where
  lawful := (lawful_one_long.word.word.escaped.word.escaped.word.word.word.word).map fun _ => rfl
  distinct := by decide
  bare := by decide

theorem VendorFieldsV3.isSome_entries (base : VendorFieldsV3) :
    (∀ f ∈ VendorFieldsV3.fields.entries base, (writeValue f.2).isSome) ↔
      base.dtbAddr.toNat < signedLimit := by
  rw [sound_fields.isSome_entries]
  simp [fields]

theorem VendorFieldsV4.sound_fields : VendorFieldsV4.fields.Sound where
  lawful := lawful_one_word.word.word.word.map fun _ => rfl
  distinct := by decide
  bare := by decide

theorem VendorFieldsV4.isSome_entries (e4 : VendorFieldsV4) :
    ∀ f ∈ VendorFieldsV4.fields.entries e4, (writeValue f.2).isSome := by
  rw [sound_fields.isSome_entries]
  simp [fields]

namespace ImageHeader

/-! ## Reading a document back -/

/-- The sections of a header have names of their own and fields that can stand in a section. -/
theorem sections_ok (h : ImageHeader) :
    ("type" :: h.sections.map (·.1)).Nodup ∧
      ∀ s ∈ h.sections, Bare s.1 ∧ FieldsOk s.2 := by
  have hbase : Bare "base" := by decide
  have hv1 : Bare "v1" := by decide
  have hv2 : Bare "v2" := by decide
  have hv4 : Bare "v4" := by decide
  match h with
  | boot (.v0 base) =>
    exact ⟨(by decide : ["type", "base"].Nodup),
      List.forall_mem_singleton.2 ⟨hbase, BootFieldsV0.sound_fields.fieldsOk base⟩⟩
  | boot (.v1 base e1) =>
    exact ⟨(by decide : ["type", "base", "v1"].Nodup),
      List.forall_mem_cons.2 ⟨⟨hbase, BootFieldsV0.sound_fields.fieldsOk base⟩,
      List.forall_mem_singleton.2 ⟨hv1, BootFieldsV1.sound_fields.fieldsOk e1⟩⟩⟩
  | boot (.v2 base e1 e2) =>
    exact ⟨(by decide : ["type", "base", "v1", "v2"].Nodup),
      List.forall_mem_cons.2 ⟨⟨hbase, BootFieldsV0.sound_fields.fieldsOk base⟩,
      List.forall_mem_cons.2 ⟨⟨hv1, BootFieldsV1.sound_fields.fieldsOk e1⟩,
        List.forall_mem_singleton.2 ⟨hv2, BootFieldsV2.sound_fields.fieldsOk e2⟩⟩⟩⟩
  | boot (.v3 base) =>
    exact ⟨(by decide : ["type", "base"].Nodup),
      List.forall_mem_singleton.2 ⟨hbase, BootFieldsV3.sound_fields.fieldsOk base⟩⟩
  | boot (.v4 base e4) =>
    exact ⟨(by decide : ["type", "base", "v4"].Nodup),
      List.forall_mem_cons.2 ⟨⟨hbase, BootFieldsV3.sound_fields.fieldsOk base⟩,
      List.forall_mem_singleton.2 ⟨hv4, BootFieldsV4.sound_fields.fieldsOk e4⟩⟩⟩
  | vendor (.v3 base) =>
    exact ⟨(by decide : ["type", "base"].Nodup),
      List.forall_mem_singleton.2 ⟨hbase, VendorFieldsV3.sound_fields.fieldsOk base⟩⟩
  | vendor (.v4 base e4) =>
    exact ⟨(by decide : ["type", "base", "v4"].Nodup),
      List.forall_mem_cons.2 ⟨⟨hbase, VendorFieldsV3.sound_fields.fieldsOk base⟩,
      List.forall_mem_singleton.2 ⟨hv4, VendorFieldsV4.sound_fields.fieldsOk e4⟩⟩⟩

theorem wellFormed_toDocument (h : ImageHeader) : h.toDocument.WellFormed := by
  obtain ⟨hdistinct, hsections⟩ := h.sections_ok
  have hnames : h.toDocument.sections.map (·.name) = h.sections.map (·.1) := by
    show (h.sections.map _).map _ = _
    rw [List.map_map]
    rfl
  refine ⟨⟨?_, ?_, ?_⟩, ?_, ?_⟩
  · exact List.forall_mem_singleton.2 (by decide : Bare "type")
  · exact List.forall_mem_singleton.2 trivial
  · exact (by decide : ["type"].Nodup)
  · intro s hs
    obtain ⟨e, he, rfl⟩ := List.mem_map.1 hs
    exact ⟨rfl, hsections e he⟩
  · rw [hnames]
    exact hdistinct

theorem toTable_toDocument (h : ImageHeader) :
    h.toDocument.toTable
      = ("type", .string h.typeName) :: h.sections.map fun s => (s.1, .table s.2) := by
  rw [toTable_eq fun s hs => (h.wellFormed_toDocument.sections s hs).1]
  show _ ++ (h.sections.map _).map _ = _
  rw [List.map_map]
  rfl

/-- A section is read back if its name finds it. -/
theorem section?_entries {α : Type} {fs : Fields α} (hfs : fs.Sound) {t : Toml.Table}
    {name : String} {a : α}
    (h : t.lookup name = some (.table (fs.entries a))) : section? t name fs = some a := by
  unfold section?
  rw [h]
  exact hfs.ofValue?_entries true a

theorem ofTable?_toDocument (h : ImageHeader) : ofTable? h.toDocument.toTable = some h := by
  rw [toTable_toDocument]
  match h with
  | boot (.v0 base) =>
    show (do return boot (.v0 (← section? _ "base" BootFieldsV0.fields))) = _
    rw [section?_entries BootFieldsV0.sound_fields rfl]
    rfl
  | boot (.v1 base e1) =>
    show (do return boot (.v1 (← section? _ "base" BootFieldsV0.fields)
      (← section? _ "v1" BootFieldsV1.fields))) = _
    rw [section?_entries BootFieldsV0.sound_fields rfl]
    rw [section?_entries BootFieldsV1.sound_fields rfl]
    rfl
  | boot (.v2 base e1 e2) =>
    show (do return boot (.v2 (← section? _ "base" BootFieldsV0.fields)
      (← section? _ "v1" BootFieldsV1.fields) (← section? _ "v2" BootFieldsV2.fields))) = _
    rw [section?_entries BootFieldsV0.sound_fields rfl]
    rw [section?_entries BootFieldsV1.sound_fields rfl]
    rw [section?_entries BootFieldsV2.sound_fields rfl]
    rfl
  | boot (.v3 base) =>
    show (do return boot (.v3 (← section? _ "base" BootFieldsV3.fields))) = _
    rw [section?_entries BootFieldsV3.sound_fields rfl]
    rfl
  | boot (.v4 base e4) =>
    show (do return boot (.v4 (← section? _ "base" BootFieldsV3.fields)
      (← section? _ "v4" BootFieldsV4.fields))) = _
    rw [section?_entries BootFieldsV3.sound_fields rfl]
    rw [section?_entries BootFieldsV4.sound_fields rfl]
    rfl
  | vendor (.v3 base) =>
    show (do return vendor (.v3 (← section? _ "base" VendorFieldsV3.fields))) = _
    rw [section?_entries VendorFieldsV3.sound_fields rfl]
    rfl
  | vendor (.v4 base e4) =>
    show (do return vendor (.v4 (← section? _ "base" VendorFieldsV3.fields)
      (← section? _ "v4" VendorFieldsV4.fields))) = _
    rw [section?_entries VendorFieldsV3.sound_fields rfl]
    rw [section?_entries VendorFieldsV4.sound_fields rfl]
    rfl

/-- A header is the one that its written document describes. -/
theorem ofDocument?_write {h : ImageHeader} {text : String}
    (htext : h.toDocument.write = some text) : ofDocument? text = some h := by
  unfold ofDocument?
  rw [readTable?_write h.wellFormed_toDocument htext]
  exact h.ofTable?_toDocument

/-! ## Which headers can be written -/

/-- The numbers of 64 bits that a header holds. -/
def longs : ImageHeader → List UInt64
  | boot (.v1 _ e1) => [e1.recoveryDtboOffset]
  | boot (.v2 _ e1 e2) => [e1.recoveryDtboOffset, e2.dtbAddr]
  | vendor (.v3 base) | vendor (.v4 base _) => [base.dtbAddr]
  | boot _ => []

theorem isSome_write_toDocument (h : ImageHeader) :
    h.toDocument.write.isSome ↔ ∀ n ∈ h.longs, n.toNat < signedLimit := by
  have htype : ∀ f ∈ h.toDocument.fields, (writeValue f.2).isSome :=
    List.forall_mem_singleton.2 rfl
  have hsections : (∀ s ∈ h.toDocument.sections, ∀ f ∈ s.fields, (writeValue f.2).isSome) ↔
      ∀ s ∈ h.sections, ∀ f ∈ s.2, (writeValue f.2).isSome := List.forall_mem_map
  rw [isSome_write, and_iff_right htype, hsections]
  rcases h with (base | ⟨base, e1⟩ | ⟨base, e1, e2⟩ | base | ⟨base, e4⟩) | (base | ⟨base, e4⟩) <;>
    simp only [sections, longs, List.forall_mem_cons, List.not_mem_nil, false_implies,
      implies_true, and_true, true_and, iff_true_intro (BootFieldsV0.isSome_entries _),
      BootFieldsV1.isSome_entries, BootFieldsV2.isSome_entries,
      iff_true_intro (BootFieldsV3.isSome_entries _),
      iff_true_intro (BootFieldsV4.isSome_entries _), VendorFieldsV3.isSome_entries,
      iff_true_intro (VendorFieldsV4.isSome_entries _)]

theorem write_toDocument_eq_none_iff (h : ImageHeader) :
    h.toDocument.write = none ↔ ∃ n ∈ h.longs, signedLimit ≤ n.toNat := by
  rw [← Option.not_isSome_iff_eq_none, isSome_write_toDocument]
  simp only [Classical.not_forall, Nat.not_lt, exists_prop]

/-- **Headers and their documents.** A header has no document exactly if it holds a number of 64
bits above the largest one with a sign; otherwise its document describes that header, of that
version. -/
theorem document_inverse (h : ImageHeader) :
    (h.toDocument.write = none ↔ ∃ n ∈ h.longs, 0x7fffffffffffffff < n.toNat) ∧
    ((∀ n ∈ h.longs, n.toNat ≤ 0x7fffffffffffffff) →
      ∃ text, h.toDocument.write = some text ∧ ofDocument? text = some h) := by
  have hlimit : signedLimit = 0x7fffffffffffffff + 1 := rfl
  refine ⟨?_, fun hlongs => ?_⟩
  · rw [write_toDocument_eq_none_iff, hlimit]
    rfl
  · have hsome : h.toDocument.write.isSome :=
      h.isSome_write_toDocument.2 fun n hn => Nat.lt_succ_of_le (hlongs n hn)
    obtain ⟨text, htext⟩ := Option.isSome_iff_exists.1 hsome
    exact ⟨text, htext, ofDocument?_write htext⟩

end ImageHeader

end AndroidBoot
