import AndroidBoot.Device.Facts
import AndroidBoot.Proofs.Device.Flags
import AndroidBoot.Proofs.Toml.Shapes

/-!
# Facts can be read back from their documents

Each fact that is available has an entry under its own name, and the offline memory has a section.
Names find their entries again, so that the facts are those that the document states. A document can
be written unless a number of the offline memory does not fit 64 bits with a sign.

    f.toDocument.write = some text → ofDocument text = .ok f                  (ofDocument_write)
    f.toDocument.write.isSome ↔ ∀ n ∈ f.longs, n < 2 ^ 63              (isSome_write_toDocument)

Both together say when facts survive their document                       (written_facts_inverse)
-/

namespace AndroidBoot

open Toml

/-! ## Offline memory -/

namespace OfflineMemory

/-- The numbers of 64 bits that are written. -/
def longs (m : OfflineMemory) : List UInt64 :=
  m.ddrSize :: m.minDdrSize :: m.table.flatMap fun e => [e.1, e.2]

/-- The shape of the table: a list of pairs. -/
def tableShape : Shape (List (UInt64 × UInt64)) := .list (.pair false .long .long)

theorem lawful_tableShape : tableShape.Lawful :=
  Shape.lawful_list (Shape.lawful_pair Shape.lawful_long Shape.lawful_long false)

theorem plain_table (table : List (UInt64 × UInt64)) :
    (tableShape.toValue table).Plain depthLimit := by
  intro v hv
  obtain ⟨e, -, rfl⟩ := List.mem_map.1 hv
  intro n hn
  simp only [List.mem_cons, List.not_mem_nil, or_false] at hn
  rcases hn with rfl | rfl <;> trivial

theorem isSome_writeValue_table (table : List (UInt64 × UInt64)) :
    (writeValue (tableShape.toValue table)).isSome ↔
      ∀ n ∈ table.flatMap (fun e => [e.1, e.2]), n.toNat < signedLimit := by
  have hpair : ∀ e : UInt64 × UInt64,
      (writeValue ((Shape.pair false .long .long).toValue e)).isSome ↔
        e.1.toNat < signedLimit ∧ e.2.toNat < signedLimit := by
    intro e
    show (writeValue (.array [Shape.long.toValue e.1, Shape.long.toValue e.2])).isSome ↔ _
    simp only [isSome_writeValue_array, List.forall_mem_cons, List.not_mem_nil, false_implies,
      implies_true, and_true, isSome_writeValue_long]
  show (writeValue (.array (table.map (Shape.pair false .long .long).toValue))).isSome ↔ _
  simp only [isSome_writeValue_array, List.forall_mem_map, List.forall_mem_flatMap, hpair,
    List.forall_mem_cons, List.not_mem_nil, false_implies, implies_true, and_true]

theorem sound_fields : fields.Sound where
  lawful := ((Fields.lawful_one lawful_tableShape plain_table).long.long).map fun _ => rfl
  distinct := by decide
  bare := by decide

theorem lawful_shape : shape.Lawful := sound_fields.ofValue?_entries false

theorem isSome_entries (m : OfflineMemory) :
    (∀ f ∈ fields.entries m, (writeValue f.2).isSome) ↔ ∀ n ∈ m.longs, n.toNat < signedLimit := by
  have htable := isSome_writeValue_table m.table
  rw [sound_fields.isSome_entries, longs, List.forall_mem_cons, List.forall_mem_cons, ← htable]
  simp only [fields, Fields.written_map, Fields.written_long, Fields.written_one]
  rfl

end OfflineMemory

namespace DeviceFacts

/-! ## Entries -/

/-- The entries in front of the sections. -/
def entries (f : DeviceFacts) : List (String × Option Value) := [
  ("serial_number", f.serialNumber.map Shape.text.toValue),
  ("slot_suffix", f.slotSuffix.map Shape.text.toValue),
  ("boot_device", f.bootDevice.map Shape.text.toValue),
  ("root_device_type", f.rootDeviceType.map Shape.text.toValue),
  ("chip_baseband", f.chipBaseband.map Shape.text.toValue),
  ("display_config", f.displayConfig.map Shape.text.toValue),
  ("dtbo_index", f.dtboIndex.map Shape.word.toValue),
  ("dtb_index", f.dtbIndex.map Shape.word.toValue),
  ("init_binary", f.initBinary.map Shape.text.toValue),
  ("le_verity_cmdline", f.leVerityCmdline.map Shape.text.toValue),
  ("pause_for_battery_charge", (some f.pauseForBatteryCharge).map Shape.boolean.toValue),
  ("flags", (some f.flags).map DeviceFlags.shape.toValue)]

/-- The entry of the offline memory, whose section stands behind the others. -/
def memoryEntry (f : DeviceFacts) : String × Option Value :=
  ("memory_offline", f.memoryOffline.map OfflineMemory.shape.toValue)

theorem distinct_entries (f : DeviceFacts) : ((f.entries ++ [f.memoryEntry]).map (·.1)).Nodup := by
  show ["serial_number", "slot_suffix", "boot_device", "root_device_type", "chip_baseband",
    "display_config", "dtbo_index", "dtb_index", "init_binary", "le_verity_cmdline",
    "pause_for_battery_charge", "flags", "memory_offline"].Nodup
  decide

theorem bare_entries (f : DeviceFacts) : ∀ e ∈ f.entries ++ [f.memoryEntry], Bare e.1 := by
  have hnames : ∀ name ∈ (f.entries ++ [f.memoryEntry]).map (·.1), Bare name := by
    show ∀ name ∈ ["serial_number", "slot_suffix", "boot_device", "root_device_type",
      "chip_baseband", "display_config", "dtbo_index", "dtb_index", "init_binary",
      "le_verity_cmdline", "pause_for_battery_charge", "flags", "memory_offline"], Bare name
    decide
  exact List.forall_mem_map.1 hnames

/-- What holds of the values of a shape holds of the value of an entry. -/
theorem forall_of_map {α : Type} {s : Shape α} {p : Value → Prop} (hs : ∀ a, p (s.toValue a))
    (fact : Option α) : ∀ v, fact.map s.toValue = some v → p v := by
  intro v hv
  obtain ⟨a, -, rfl⟩ := Option.map_eq_some_iff.1 hv
  exact hs a

/-- The entries in front of the sections are single values that can be written. -/
theorem simple_entries (f : DeviceFacts) :
    ∀ e ∈ f.entries, ∀ v, e.2 = some v → v.Plain depthLimit ∧ (writeValue v).isSome := by
  have htext : ∀ s, (Shape.text.toValue s).Plain depthLimit ∧
      (writeValue (Shape.text.toValue s)).isSome := fun s => ⟨trivial, rfl⟩
  have hword : ∀ n, (Shape.word.toValue n).Plain depthLimit ∧
      (writeValue (Shape.word.toValue n)).isSome := fun n => ⟨trivial, isSome_writeValue_word n⟩
  have hboolean : ∀ b, (Shape.boolean.toValue b).Plain depthLimit ∧
      (writeValue (Shape.boolean.toValue b)).isSome := fun b => ⟨trivial, rfl⟩
  have hflags : ∀ flags, (DeviceFlags.shape.toValue flags).Plain depthLimit ∧
      (writeValue (DeviceFlags.shape.toValue flags)).isSome := fun flags => ⟨trivial, rfl⟩
  unfold entries
  simp only [List.forall_mem_cons]
  exact ⟨forall_of_map htext _, forall_of_map htext _, forall_of_map htext _,
    forall_of_map htext _, forall_of_map htext _, forall_of_map htext _, forall_of_map hword _,
    forall_of_map hword _, forall_of_map htext _, forall_of_map htext _, forall_of_map hboolean _,
    forall_of_map hflags _, nofun⟩

/-! ## The document -/

theorem field_eq_present {α : Type} (name : String) (s : Shape α) (fact : Option α) :
    field name s fact = present [(name, fact.map s.toValue)] := by
  cases fact <;> rfl

/-- The fields are the entries that have a value. -/
theorem fields_toDocument (f : DeviceFacts) : f.toDocument.fields = present f.entries := by
  unfold toDocument
  simp only [field_eq_present]
  show _ ++ present [
    ("pause_for_battery_charge", (some f.pauseForBatteryCharge).map Shape.boolean.toValue),
    ("flags", (some f.flags).map DeviceFlags.shape.toValue)] = _
  simp only [← present_append]
  rfl

theorem sections_toDocument (f : DeviceFacts) :
    f.toDocument.sections.map (fun s => (s.name, Value.table s.fields))
      = present [f.memoryEntry] := by
  unfold toDocument memoryEntry
  cases f.memoryOffline <;> rfl

/-- Every section is the table of an offline memory. -/
theorem eq_of_mem_sections {f : DeviceFacts} {s : Section} (hs : s ∈ f.toDocument.sections) :
    ∃ m, f.memoryOffline = some m ∧
      s = ⟨"memory_offline", false, OfflineMemory.fields.entries m⟩ := by
  unfold toDocument at hs
  cases hm : f.memoryOffline with
  | none =>
    rw [hm] at hs
    cases hs
  | some m =>
    rw [hm] at hs
    exact ⟨m, rfl, List.mem_singleton.1 hs⟩

theorem wellFormed_toDocument (f : DeviceFacts) : f.toDocument.WellFormed := by
  have hfields : (f.entries.map (·.1)).Nodup := by
    have hdistinct := f.distinct_entries
    rw [List.map_append] at hdistinct
    exact (List.nodup_append.1 hdistinct).1
  refine ⟨?_, ?_, ?_⟩
  · rw [fields_toDocument]
    apply fieldsOk_present
    · exact fun e he => f.bare_entries e (List.mem_append_left _ he)
    · exact fun e he v hv => (f.simple_entries e he v hv).1
    · exact hfields
  · intro s hs
    obtain ⟨m, -, rfl⟩ := eq_of_mem_sections hs
    exact ⟨rfl, (by decide : Bare "memory_offline"), OfflineMemory.sound_fields.fieldsOk m⟩
  · have hsections : f.toDocument.sections.map (·.name) = (present [f.memoryEntry]).map (·.1) := by
      rw [← sections_toDocument, List.map_map]
      rfl
    rw [fields_toDocument, hsections, ← List.map_append, ← present_append]
    exact (map_fst_present_sublist _).nodup f.distinct_entries

theorem toTable_toDocument (f : DeviceFacts) :
    f.toDocument.toTable = present (f.entries ++ [f.memoryEntry]) := by
  rw [toTable_eq fun s hs => (f.wellFormed_toDocument.sections s hs).1, fields_toDocument,
    sections_toDocument, present_append]

/-- Every fact is read from the entry with its name. -/
theorem ofTable?_toDocument (f : DeviceFacts) : ofTable? f.toDocument.toTable = some f := by
  have hread : ∀ {α : Type} {s : Shape α} (name : String) (fact : Option α), s.Lawful →
      (name, fact.map s.toValue) ∈ f.entries ++ [f.memoryEntry] →
        optionalField? f.toDocument.toTable name s = some fact := by
    intro α s name fact hs hmem
    rw [toTable_toDocument]
    exact optionalField?_present f.distinct_entries hs hmem
  have htext : ∀ (name : String) (fact : Option String),
      (name, fact.map Shape.text.toValue) ∈ f.entries ++ [f.memoryEntry] →
        optionalField? f.toDocument.toTable name .text = some fact :=
    fun name fact => hread name fact Shape.lawful_text
  have hflags : DeviceFlags.shape.Lawful := Shape.lawful_named DeviceFlags.parse?_text
  unfold ofTable?
  rw [htext "serial_number" f.serialNumber (by simp [entries]),
    htext "slot_suffix" f.slotSuffix (by simp [entries]),
    htext "boot_device" f.bootDevice (by simp [entries]),
    htext "root_device_type" f.rootDeviceType (by simp [entries]),
    htext "chip_baseband" f.chipBaseband (by simp [entries]),
    htext "display_config" f.displayConfig (by simp [entries]),
    hread "dtbo_index" f.dtboIndex Shape.lawful_word (by simp [entries]),
    hread "dtb_index" f.dtbIndex Shape.lawful_word (by simp [entries]),
    htext "init_binary" f.initBinary (by simp [entries]),
    htext "le_verity_cmdline" f.leVerityCmdline (by simp [entries]),
    hread "pause_for_battery_charge" (some f.pauseForBatteryCharge) Shape.lawful_boolean
      (by simp [entries]),
    hread "flags" (some f.flags) hflags (by simp [entries]),
    hread "memory_offline" f.memoryOffline OfflineMemory.lawful_shape (by simp [memoryEntry])]
  rfl

/-- Facts are those that their written document states. -/
theorem ofDocument_write {f : DeviceFacts} {text : String}
    (htext : f.toDocument.write = some text) : ofDocument text = .ok f := by
  have hread : (readTable? text >>= ofTable?) = some f := by
    rw [readTable?_write f.wellFormed_toDocument htext]
    exact ofTable?_toDocument f
  rw [ofDocument, hread]

/-! ## Which facts can be written -/

/-- The numbers of 64 bits that facts hold, all of them in the offline memory. -/
def longs (f : DeviceFacts) : List UInt64 := f.memoryOffline.elim [] OfflineMemory.longs

theorem isSome_write_toDocument (f : DeviceFacts) :
    f.toDocument.write.isSome ↔ ∀ n ∈ f.longs, n.toNat < signedLimit := by
  have hfields : ∀ e ∈ f.toDocument.fields, (writeValue e.2).isSome := by
    rw [fields_toDocument]
    exact fun e he => (f.simple_entries _ (mem_present.1 he) e.2 rfl).2
  rw [isSome_write, and_iff_right hfields]
  unfold toDocument longs
  cases f.memoryOffline with
  | none => exact ⟨fun _ => nofun, fun _ => nofun⟩
  | some m =>
    rw [List.forall_mem_singleton]
    exact m.isSome_entries

theorem write_eq_error_iff (f : DeviceFacts) :
    f.write = .error .serialize ↔ ∃ n ∈ f.longs, signedLimit ≤ n.toNat := by
  have hwrite : f.write = .error .serialize ↔ f.toDocument.write = none := by
    unfold write
    cases f.toDocument.write <;> simp
  rw [hwrite, ← Option.not_isSome_iff_eq_none, isSome_write_toDocument]
  simp only [Classical.not_forall, Nat.not_lt, exists_prop]

/-- **Facts and their documents.** Facts have no document exactly if a number of their offline
memory is above the largest one with a sign; otherwise their document states just these facts, each
text, number and flag of them, and none that is not available. -/
theorem written_facts_inverse (f : DeviceFacts) :
    (f.write = .error .serialize ↔ ∃ n ∈ f.longs, 0x7fffffffffffffff < n.toNat) ∧
    ((∀ n ∈ f.longs, n.toNat ≤ 0x7fffffffffffffff) →
      ∃ text, f.write = .ok text ∧ ofDocument text = .ok f) := by
  have hlimit : signedLimit = 0x7fffffffffffffff + 1 := rfl
  constructor
  · rw [write_eq_error_iff, hlimit]
    rfl
  · intro hlongs
    have hsome : f.toDocument.write.isSome :=
      f.isSome_write_toDocument.2 fun n hn => Nat.lt_succ_of_le (hlongs n hn)
    obtain ⟨text, htext⟩ := Option.isSome_iff_exists.1 hsome
    refine ⟨text, ?_, ofDocument_write htext⟩
    unfold write
    rw [htext]

end DeviceFacts

end AndroidBoot
