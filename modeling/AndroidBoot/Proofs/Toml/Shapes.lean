import AndroidBoot.Proofs.Text.Escaped
import AndroidBoot.Proofs.Toml.Documents
import AndroidBoot.Toml.Shape

/-!
# Records can be read back from their values

A shape is lawful if it reads what it writes. The fields of a record are read back if each of their
shapes is lawful; the names only have to differ from each other, since fields are looked up by name.

    fs.ofValue? strict (.table (fs.entries a)) = some a         (Fields.Sound.ofValue?_entries)
    optionalField? (present entries) name s = some fact               (optionalField?_present)
      if `entries` has the value of the fact, if there is one, under this name only
-/

namespace AndroidBoot.Toml

variable {α β : Type}

/-! ## Shapes -/

namespace Shape

theorem natBelow?_toNat {limit n : Nat} (h : n < limit) :
    natBelow? limit (.integer (n : Int)) = some n := by
  show (if n < limit then some n else none) = some n
  rw [if_pos h]

theorem lawful_word : word.Lawful := by
  intro n
  show (natBelow? UInt32.size (.integer (n.toNat : Int))).map UInt32.ofNat = some n
  rw [natBelow?_toNat n.toNat_lt, Option.map_some, UInt32.ofNat_toNat]

theorem lawful_long : long.Lawful := by
  intro n
  show (natBelow? UInt64.size (.integer (n.toNat : Int))).map UInt64.ofNat = some n
  rw [natBelow?_toNat n.toNat_lt, Option.map_some, UInt64.ofNat_toNat]

theorem lawful_text : text.Lawful := fun _ => rfl

theorem lawful_boolean : boolean.Lawful := fun _ => rfl

theorem lawful_named {write : α → String} {read? : String → Option α}
    (h : ∀ a, read? (write a) = some a) : (named write read?).Lawful := h

theorem lawful_escaped (n : Nat) : (escaped n).Lawful := by
  intro v
  show (unescapeField n (escapeField v)).toOption = some v
  rw [unescapeField_escapeField]
  rfl

theorem mapM_toValue {s : Shape α} (hs : s.Lawful) (as : List α) :
    (as.map s.toValue).mapM s.ofValue? = some as := by
  induction as with
  | nil => rfl
  | cons a as ih =>
    rw [List.map_cons, List.mapM_cons, hs a, ih]
    rfl

theorem lawful_list {s : Shape α} (hs : s.Lawful) : (list s).Lawful := mapM_toValue hs

theorem lawful_pair {s : Shape α} {t : Shape β} (hs : s.Lawful) (ht : t.Lawful) (strict : Bool) :
    (pair strict s t).Lawful := by
  intro p
  have hitems : items? strict 2 [s.toValue p.1, t.toValue p.2]
      = some [s.toValue p.1, t.toValue p.2] := by
    unfold items?
    rw [if_neg (by simp)]
    rfl
  unfold pair
  dsimp only
  rw [hitems]
  show (s.ofValue? (s.toValue p.1) >>= fun a => t.ofValue? (t.toValue p.2) >>= fun b =>
    some (a, b)) = some p
  rw [hs, ht]
  rfl

theorem lawful_vector {s : Shape α} (hs : s.Lawful) (strict : Bool) (n : Nat) :
    (s.vector strict n).Lawful := by
  intro v
  have hlength : (v.toList.map s.toValue).length = n := by
    rw [List.length_map, Vector.length_toList]
  have hitems : items? strict n (v.toList.map s.toValue) = some (v.toList.map s.toValue) := by
    unfold items?
    rw [if_neg (by rw [hlength]; simp), List.take_of_length_le (Nat.le_of_eq hlength)]
  show (items? strict n (v.toList.map s.toValue) >>= fun vs => vs.mapM s.ofValue? >>= fun as =>
    if h : as.length = n then some (⟨as.toArray, by simpa using h⟩ : Vector α n) else none) = _
  rw [hitems]
  show ((v.toList.map s.toValue).mapM s.ofValue? >>= fun as =>
    if h : as.length = n then some (⟨as.toArray, by simpa using h⟩ : Vector α n) else none) = _
  rw [mapM_toValue hs]
  show (if h : v.toList.length = n then some (⟨v.toList.toArray, by simp⟩ : Vector α n)
    else none) = _
  rw [dif_pos Vector.length_toList]
  rfl

end Shape

/-! ## Records -/

namespace Fields

/-- What is written can be read again, value by value, and stands in a line behind its name. -/
structure Lawful (fs : Fields α) : Prop where
  length : ∀ a, (fs.toValues a).length = fs.names.length
  reads : ∀ a, fs.ofValues? (fs.toValues a) = some a
  plain : ∀ a, ∀ v ∈ fs.toValues a, v.Plain depthLimit

theorem lawful_one {name : String} {s : Shape α} (hs : s.Lawful)
    (hplain : ∀ a, (s.toValue a).Plain depthLimit) : (one name s).Lawful where
  length _ := rfl
  reads := hs
  plain a v hv := by
    obtain rfl := List.mem_singleton.1 hv
    exact hplain a

theorem Lawful.cons {name : String} {s : Shape α} {fs : Fields β} (h : fs.Lawful) (hs : s.Lawful)
    (hplain : ∀ a, (s.toValue a).Plain depthLimit) : (Fields.cons name s fs).Lawful where
  length p := congrArg (· + 1) (h.length p.2)
  reads p := by
    show (s.ofValue? (s.toValue p.1) >>= fun a => fs.ofValues? (fs.toValues p.2) >>= fun b =>
      some (a, b)) = _
    rw [hs, h.reads]
    rfl
  plain p v hv := by
    rcases List.mem_cons.1 hv with rfl | hv
    · exact hplain p.1
    · exact h.plain p.2 v hv

theorem Lawful.map {fs : Fields α} (h : fs.Lawful) {f : α → β} {g : β → α}
    (hfg : ∀ b, f (g b) = b) : (fs.map f g).Lawful where
  length b := h.length (g b)
  reads b := by
    show (fs.ofValues? (fs.toValues (g b))).map f = some b
    rw [h.reads, Option.map_some, hfg]
  plain b := h.plain (g b)

/-- Every name finds its own value. -/
theorem mapM_lookup_zip {names : List String} {vs : List Value} (hlength : vs.length = names.length)
    (hnames : names.Nodup) :
    names.mapM (fun name => (names.zip vs).lookup name) = some vs := by
  -- the names in front have been looked up and differ from those that follow
  have key : ∀ (front : Table) (names : List String) (vs : List Value),
      vs.length = names.length → (front.map (·.1) ++ names).Nodup →
      names.mapM (fun name => (front ++ names.zip vs).lookup name) = some vs := by
    intro front names
    induction names generalizing front with
    | nil =>
      intro vs hlength _
      rw [List.eq_nil_of_length_eq_zero hlength]
      rfl
    | cons name names ih =>
      intro vs hlength hnodup
      match vs, hlength with
      | v :: vs, hlength =>
        have hfirst : (front ++ (name :: names).zip (v :: vs)).lookup name = some v := by
          have hnone : front.lookup name = none := by
            rw [List.lookup_eq_none_iff]
            intro e he
            rw [bne_iff_ne]
            exact fun heq => (List.nodup_append.1 hnodup).2.2 e.1 (List.mem_map_of_mem he) name
              List.mem_cons_self heq.symm
          rw [List.lookup_append, hnone, List.zip_cons_cons, List.lookup_cons_self]
          rfl
        have hrest := ih (front ++ [(name, v)]) vs (Nat.succ.inj hlength) (by
          rw [List.map_append, List.append_assoc]
          exact hnodup)
        rw [List.append_assoc] at hrest
        rw [List.mapM_cons, hfirst, List.zip_cons_cons, ← List.singleton_append, hrest]
        rfl
  exact key [] names vs hlength hnames

theorem Lawful.map_fst_entries {fs : Fields α} (h : fs.Lawful) (a : α) :
    (fs.entries a).map (·.1) = fs.names :=
  List.map_fst_zip (Nat.le_of_eq (h.length a).symm)

theorem Lawful.map_snd_entries {fs : Fields α} (h : fs.Lawful) (a : α) :
    (fs.entries a).map (·.2) = fs.toValues a :=
  List.map_snd_zip (Nat.le_of_eq (h.length a))

/-- Fields that make up a section of a document. -/
structure Sound (fs : Fields α) : Prop where
  lawful : fs.Lawful
  distinct : fs.names.Nodup
  bare : ∀ name ∈ fs.names, Bare name

/-- A record is read back from the table of its entries. -/
theorem Sound.ofValue?_entries {fs : Fields α} (h : fs.Sound) (strict : Bool) (a : α) :
    fs.ofValue? strict (.table (fs.entries a)) = some a := by
  show (fs.names.mapM (fun name => (fs.names.zip (fs.toValues a)).lookup name) >>= fs.ofValues?) = _
  rw [mapM_lookup_zip (h.lawful.length a) h.distinct]
  exact h.lawful.reads a

theorem Sound.fieldsOk {fs : Fields α} (h : fs.Sound) (a : α) : FieldsOk (fs.entries a) where
  bare f hf := h.bare _ (by rw [← h.lawful.map_fst_entries a]; exact List.mem_map_of_mem hf)
  plain f hf := h.lawful.plain a _ (by
    rw [← h.lawful.map_snd_entries a]
    exact List.mem_map_of_mem hf)
  distinct := by
    rw [h.lawful.map_fst_entries]
    exact h.distinct

/-- Every value of the record has a written form. -/
def Written (fs : Fields α) (a : α) : Prop := ∀ v ∈ fs.toValues a, (writeValue v).isSome

theorem Sound.isSome_entries {fs : Fields α} (h : fs.Sound) (a : α) :
    (∀ f ∈ fs.entries a, (writeValue f.2).isSome) ↔ fs.Written a := by
  unfold Written
  rw [← h.lawful.map_snd_entries a, List.forall_mem_map]

end Fields

/-! ## Which values can be written -/

/-- What a number of 64 bits has to be below to fit them with a sign. -/
def signedLimit : Nat := 0x8000000000000000

theorem isSome_writeItems {items : List Value} :
    (writeItems items).isSome ↔ ∀ v ∈ items, (writeValue v).isSome := by
  induction items with
  | nil => simp [writeItems]
  | cons v items ih =>
    rw [writeItems, List.forall_mem_cons, ← ih]
    cases writeValue v <;> cases writeItems items <;> simp

theorem isSome_writeValue_word (n : UInt32) : (writeValue (Shape.word.toValue n)).isSome := by
  have hn := n.toNat_lt
  show (writeValue (.integer (n.toNat : Int))).isSome
  rw [writeValue, if_pos (by unfold integerMin integerMax; omega)]
  rfl

/-- A number of 64 bits can be written if it fits them with a sign. -/
theorem isSome_writeValue_long (n : UInt64) :
    (writeValue (Shape.long.toValue n)).isSome ↔ n.toNat < signedLimit := by
  show (writeValue (.integer (n.toNat : Int))).isSome ↔ _
  rw [writeValue, Option.isSome_ite]
  unfold integerMin integerMax signedLimit
  omega

theorem isSome_writeValue_escaped {n : Nat} (v : Vector UInt8 n) :
    (writeValue ((Shape.escaped n).toValue v)).isSome := rfl

theorem isSome_writeValue_array {items : List Value} :
    (writeValue (.array items)).isSome ↔ ∀ v ∈ items, (writeValue v).isSome := by
  rw [writeValue, Option.isSome_map, isSome_writeItems]

theorem isSome_writeValue_words {n : Nat} (strict : Bool) (v : Vector UInt32 n) :
    (writeValue ((Shape.word.vector strict n).toValue v)).isSome := by
  show (writeValue (.array (v.toList.map Shape.word.toValue))).isSome
  rw [isSome_writeValue_array, List.forall_mem_map]
  exact fun n _ => isSome_writeValue_word n

/-! ## Fields of a shape -/

namespace Fields

variable {fs : Fields β} {name : String}

theorem Lawful.word (h : fs.Lawful) : (Fields.cons name Shape.word fs).Lawful :=
  h.cons Shape.lawful_word fun _ => trivial

theorem Lawful.long (h : fs.Lawful) : (Fields.cons name Shape.long fs).Lawful :=
  h.cons Shape.lawful_long fun _ => trivial

theorem Lawful.escaped (h : fs.Lawful) {n : Nat} :
    (Fields.cons name (Shape.escaped n) fs).Lawful :=
  h.cons (Shape.lawful_escaped n) fun _ => trivial

theorem plain_words (n : Nat) (v : Vector UInt32 n) :
    ((Shape.word.vector true n).toValue v).Plain depthLimit := by
  intro item hitem
  obtain ⟨_, -, rfl⟩ := List.mem_map.1 hitem
  trivial

theorem Lawful.words (h : fs.Lawful) {n : Nat} :
    (Fields.cons name (Shape.word.vector true n) fs).Lawful :=
  h.cons (Shape.lawful_vector Shape.lawful_word true n) (plain_words n)

theorem lawful_one_word : (one name Shape.word).Lawful :=
  lawful_one Shape.lawful_word fun _ => trivial

theorem lawful_one_long : (one name Shape.long).Lawful :=
  lawful_one Shape.lawful_long fun _ => trivial

theorem lawful_one_escaped {n : Nat} : (one name (Shape.escaped n)).Lawful :=
  lawful_one (Shape.lawful_escaped n) fun _ => trivial

@[simp] theorem written_map {fs : Fields α} {f : α → β} {g : β → α} {b : β} :
    (fs.map f g).Written b ↔ fs.Written (g b) := Iff.rfl

theorem written_cons {s : Shape α} {p : α × β} :
    (cons name s fs).Written p ↔ (writeValue (s.toValue p.1)).isSome ∧ fs.Written p.2 :=
  List.forall_mem_cons

theorem written_one {s : Shape α} {a : α} :
    (one name s).Written a ↔ (writeValue (s.toValue a)).isSome :=
  List.forall_mem_singleton

@[simp] theorem written_word {p : UInt32 × β} :
    (cons name Shape.word fs).Written p ↔ fs.Written p.2 := by
  rw [written_cons, and_iff_right (isSome_writeValue_word p.1)]

@[simp] theorem written_long {p : UInt64 × β} :
    (cons name Shape.long fs).Written p ↔ p.1.toNat < signedLimit ∧ fs.Written p.2 := by
  rw [written_cons, isSome_writeValue_long]

@[simp] theorem written_escaped {n : Nat} {p : Vector UInt8 n × β} :
    (cons name (Shape.escaped n) fs).Written p ↔ fs.Written p.2 := by
  rw [written_cons, and_iff_right (isSome_writeValue_escaped p.1)]

@[simp] theorem written_words {n : Nat} {strict : Bool} {p : Vector UInt32 n × β} :
    (cons name (Shape.word.vector strict n) fs).Written p ↔ fs.Written p.2 := by
  rw [written_cons, and_iff_right (isSome_writeValue_words strict p.1)]

@[simp] theorem written_one_word {n : UInt32} : (one name Shape.word).Written n :=
  written_one.2 (isSome_writeValue_word n)

@[simp] theorem written_one_long {n : UInt64} :
    (one name Shape.long).Written n ↔ n.toNat < signedLimit := by
  rw [written_one, isSome_writeValue_long]

@[simp] theorem written_one_escaped {n : Nat} {v : Vector UInt8 n} :
    (one name (Shape.escaped n)).Written v :=
  written_one.2 (isSome_writeValue_escaped v)

end Fields

/-! ## Fields that need not be there -/

/-- The fields that have a value. -/
def present (entries : List (String × Option Value)) : List Field :=
  entries.filterMap fun e => e.2.map (e.1, ·)

theorem present_append (entries others : List (String × Option Value)) :
    present (entries ++ others) = present entries ++ present others := List.filterMap_append ..

theorem mem_present {entries : List (String × Option Value)} {name : String} {v : Value} :
    (name, v) ∈ present entries ↔ (name, some v) ∈ entries := by
  unfold present
  rw [List.mem_filterMap]
  constructor
  · rintro ⟨⟨name', v'⟩, hmem, heq⟩
    obtain ⟨v, rfl, heq⟩ := Option.map_eq_some_iff.1 heq
    cases heq
    exact hmem
  · intro hmem
    exact ⟨(name, some v), hmem, rfl⟩

theorem map_fst_present_sublist (entries : List (String × Option Value)) :
    ((present entries).map (·.1)).Sublist (entries.map (·.1)) := by
  induction entries with
  | nil => exact List.Sublist.refl _
  | cons e entries ih =>
    obtain ⟨name, v⟩ := e
    cases v with
    | none => exact ih.cons _
    | some v => exact ih.cons_cons _

theorem lookup_present_of_not_mem {entries : List (String × Option Value)} {name : String}
    (h : name ∉ entries.map (·.1)) : (present entries).lookup name = none := by
  rw [List.lookup_eq_none_iff]
  intro f hf
  have hname := (map_fst_present_sublist entries).subset (List.mem_map_of_mem hf)
  rw [bne_iff_ne]
  rintro rfl
  exact h hname

/-- A name finds its own value, or nothing where it has none. -/
theorem lookup_present {entries : List (String × Option Value)}
    (hdistinct : (entries.map (·.1)).Nodup) {name : String} {v : Option Value}
    (hmem : (name, v) ∈ entries) : (present entries).lookup name = v := by
  induction entries with
  | nil => cases hmem
  | cons e entries ih =>
    obtain ⟨name', v'⟩ := e
    obtain ⟨hnew, hrest⟩ := List.nodup_cons.1 hdistinct
    rcases List.mem_cons.1 hmem with heq | hlater
    · cases heq
      cases v with
      | none =>
        show (present entries).lookup name = none
        exact lookup_present_of_not_mem hnew
      | some v => exact List.lookup_cons_self
    · have hne : name ≠ name' := by
        rintro rfl
        exact hnew (List.mem_map.2 ⟨(name, v), hlater, rfl⟩)
      rw [← ih hrest hlater]
      cases v' with
      | none => rfl
      | some v' =>
        show ((name', v') :: present entries).lookup name = _
        rw [List.lookup_cons, beq_false_of_ne hne]

/-- A fact that need not be there is read back from its entry. -/
theorem optionalField?_present {entries : List (String × Option Value)}
    (hdistinct : (entries.map (·.1)).Nodup) {name : String} {s : Shape α} (hs : s.Lawful)
    {fact : Option α} (hmem : (name, fact.map s.toValue) ∈ entries) :
    optionalField? (present entries) name s = some fact := by
  unfold optionalField?
  rw [lookup_present hdistinct hmem]
  cases fact with
  | none => rfl
  | some a =>
    show (s.ofValue? (s.toValue a)).map some = _
    rw [hs]
    rfl

theorem fieldsOk_present {entries : List (String × Option Value)}
    (hbare : ∀ e ∈ entries, Bare e.1)
    (hplain : ∀ e ∈ entries, ∀ v, e.2 = some v → v.Plain depthLimit)
    (hdistinct : (entries.map (·.1)).Nodup) : FieldsOk (present entries) where
  bare _ hf := hbare _ (mem_present.1 hf)
  plain f hf := hplain _ (mem_present.1 hf) f.2 rfl
  distinct := (map_fst_present_sublist entries).nodup hdistinct

end AndroidBoot.Toml
