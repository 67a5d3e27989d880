import AndroidBoot.Proofs.Toml.Values

/-!
# Written documents can be read again

A written document is a line for each field and each header, with blank lines between the sections.
Its lines are the statements that the reader finds, and these define the table of the document.

    readTable? text = some d.toTable, if d.WellFormed and d.write = some text (readTable?_write)
    d.write.isSome ↔ each value of d has a written form                          (isSome_write)
-/

namespace AndroidBoot.Toml

/-- A key that is written without quotes. -/
def Bare (key : String) : Prop := key.toList ≠ [] ∧ key.toList.all isBareKeyChar = true

instance (key : String) : Decidable (Bare key) := inferInstanceAs (Decidable (_ ∧ _))

/-- Fields that can stand behind one header. -/
structure FieldsOk (fs : List Field) : Prop where
  bare : ∀ f ∈ fs, Bare f.1
  plain : ∀ f ∈ fs, f.2.Plain depthLimit
  distinct : (fs.map (·.1)).Nodup

/-- A document whose sections are tables with names of their own. -/
structure Document.WellFormed (d : Document) : Prop where
  fields : FieldsOk d.fields
  sections : ∀ s ∈ d.sections, s.isElement = false ∧ Bare s.name ∧ FieldsOk s.fields
  distinct : (d.fields.map (·.1) ++ d.sections.map (·.name)).Nodup

/-! ## The statements of a document -/

def Field.statement (f : Field) : Statement := .assignment ⟨[], f.1, f.2⟩

def Section.statements (s : Section) : List Statement :=
  .table [] s.name :: s.fields.map Field.statement

/-- The reader takes the text for these statements, as long as it may read all of it. -/
def ReadsAs (cs : List Char) (ss : List Statement) : Prop :=
  ∀ fuel, cs.length < fuel → readStatements fuel cs = some ss

/-! ## Keys -/

theorem bareKeyChar_ne {c d : Char} (hc : isBareKeyChar c = true) (hd : isBareKeyChar d = false) :
    c ≠ d := by
  rintro rfl
  rw [hc] at hd
  cases hd

theorem Bare.all {key : String} (hkey : Bare key) : ∀ c ∈ key.toList, isBareKeyChar c = true :=
  List.all_eq_true.1 hkey.2

/-- A bare key starts with none of the marks that start something else. -/
theorem bare_cons {key : String} (hkey : Bare key) :
    ∃ c cs, key.toList = c :: cs ∧ isBareKeyChar c = true := by
  cases hcs : key.toList with
  | nil => exact absurd hcs hkey.1
  | cons c cs => exact ⟨c, cs, rfl, hkey.all c (by rw [hcs]; exact List.mem_cons_self)⟩

theorem starts_bare {key : String} (hkey : Bare key) : Starts key.toList := by
  obtain ⟨c, cs, hcs, hc⟩ := bare_cons hkey
  refine ⟨c, cs, hcs, ?_, bareKeyChar_ne hc (by decide), bareKeyChar_ne hc (by decide),
    bareKeyChar_ne hc (by decide), bareKeyChar_ne hc (by decide)⟩
  simp only [isBlankChar, Bool.or_eq_false_iff, beq_eq_false_iff_ne]
  exact ⟨bareKeyChar_ne hc (by decide), bareKeyChar_ne hc (by decide)⟩

theorem readKeyPart_bare {key : String} (hkey : Bare key) {e : Char} (r : List Char)
    (he : isBareKeyChar e = false) :
    readKeyPart (key.toList ++ e :: r) = some (key, e :: r) := by
  have htake : (key.toList ++ e :: r).takeWhile isBareKeyChar = key.toList := by
    rw [List.takeWhile_append_of_pos hkey.all, List.takeWhile_cons_of_neg (by rw [he]; decide),
      List.append_nil]
  have hdrop : (key.toList ++ e :: r).dropWhile isBareKeyChar = e :: r := by
    rw [List.dropWhile_append_of_pos hkey.all, List.dropWhile_cons_of_neg (by rw [he]; decide)]
  obtain ⟨c, cs, hcs, hc⟩ := bare_cons hkey
  unfold readKeyPart
  split
  · next heq =>
    rw [hcs] at heq
    exact absurd (List.cons.inj heq).1 (bareKeyChar_ne hc (by decide))
  · next heq =>
    rw [hcs] at heq
    exact absurd (List.cons.inj heq).1 (bareKeyChar_ne hc (by decide))
  · simp only []
    rw [htake, hdrop, if_neg (by simpa using hkey.1), String.ofList_toList]

/-- A bare key in front of what parts it from the rest of its line. -/
theorem readKey_bare {key : String} (hkey : Bare key) {e e' : Char} {r r' : List Char}
    (he : isBareKeyChar e = false) (hskip : skipBlanks (e :: r) = e' :: r') (he' : e' ≠ '.') :
    readKey (key.toList ++ e :: r) = some ([], key, e' :: r') := by
  have hparts : readKeyParts depthLimit (key.toList ++ e :: r) = some ([key], e' :: r') := by
    show readKeyParts (78 + 1) _ = _
    rw [readKeyParts, skipBlanks_of_starts ((starts_bare hkey).append _),
      readKeyPart_bare hkey r he]
    simp only [Option.bind_eq_bind, Option.bind_some, hskip]
    split
    · next heq => exact absurd (List.cons.inj heq).1 he'
    · rfl
  unfold readKey
  rw [hparts]
  rfl

/-! ## Lines -/

theorem readsAs_nil : ReadsAs [] [] := by
  intro fuel hfuel
  match fuel, hfuel with
  | fuel + 1, _ => rfl

theorem ReadsAs.blank {cs : List Char} {ss : List Statement} (h : ReadsAs cs ss) :
    ReadsAs ('\n' :: cs) ss := by
  intro fuel hfuel
  match fuel, hfuel with
  | fuel + 1, hfuel =>
    have hend : endLine? ('\n' :: cs) = some cs := rfl
    have hfuel' : cs.length < fuel := by
      rw [List.length_cons] at hfuel
      omega
    rw [readStatements, hend]
    split
    · next heq =>
      cases heq
      have := h 1 (by decide)
      rw [readsAs_nil 1 (by decide)] at this
      exact this
    · next heq =>
      cases heq
      exact h fuel hfuel'
    · next heq => cases heq

/-- A statement on a line of its own. -/
theorem ReadsAs.line {s : Statement} {line cs : List Char} {ss : List Statement} (h : ReadsAs cs ss)
    (hstarts : Starts line) (hread : readStatement (line ++ '\n' :: cs) = some (s, '\n' :: cs)) :
    ReadsAs (line ++ '\n' :: cs) (s :: ss) := by
  intro fuel hfuel
  match fuel, hfuel with
  | fuel + 1, hfuel =>
    have hskip := skipBlanks_of_starts (hstarts.append ('\n' :: cs))
    have hnone : endLine? (line ++ '\n' :: cs) = none := by
      unfold endLine?
      rw [hskip]
      obtain ⟨c, r, hc, -, hfeed, hreturn, hcomment, -⟩ := hstarts.append ('\n' :: cs)
      rw [hc]
      split
      · next heq => exact absurd (List.cons.inj heq).1 hcomment
      · exact newline?_of_ne hfeed hreturn r
    have hend : endLine? ('\n' :: cs) = some cs := rfl
    have hfuel' : cs.length < fuel := by
      simp only [List.length_append, List.length_cons] at hfuel
      omega
    rw [readStatements, hnone, hskip, hread]
    simp only [Option.bind_eq_bind, Option.bind_some, hend]
    cases cs with
    | nil =>
      have := h 1 (by decide)
      rw [readsAs_nil 1 (by decide)] at this
      rw [← Option.some.inj this]
      rfl
    | cons c cs =>
      show (readStatements fuel (c :: cs) >>= fun rest => some (s :: rest)) = _
      rw [h fuel hfuel']
      rfl

/-- The line of a field. -/
theorem ReadsAs.field {f : Field} {line cs : List Char} {ss : List Statement} (h : ReadsAs cs ss)
    (hbare : Bare f.1) (hplain : f.2.Plain depthLimit) (hline : writeField f = some line) :
    ReadsAs (line ++ cs) (f.statement :: ss) := by
  unfold writeField at hline
  obtain ⟨w, hw, rfl⟩ := Option.map_eq_some_iff.1 hline
  have hread := readValue_writeValue hplain hw cs
  have hstarts := (reads_of_writeValue hplain hw).starts
  have hkey : readKey (f.1.toList ++ ' ' :: '=' :: ' ' :: (w ++ '\n' :: cs))
      = some ([], f.1, '=' :: ' ' :: (w ++ '\n' :: cs)) :=
    readKey_bare hbare (by decide) rfl (by decide)
  have hskip : skipBlanks (' ' :: (w ++ '\n' :: cs)) = w ++ '\n' :: cs := by
    show skipBlanks (w ++ '\n' :: cs) = _
    exact skipBlanks_of_starts (hstarts.append _)
  have hbytes : f.1.toList ++ [' ', '=', ' '] ++ w ++ ['\n'] ++ cs
      = (f.1.toList ++ ' ' :: '=' :: ' ' :: w) ++ '\n' :: cs := by simp
  rw [hbytes]
  refine h.line ((starts_bare hbare).append _) ?_
  have hassign : readAssignment (readValue depthLimit)
      (f.1.toList ++ ' ' :: '=' :: ' ' :: (w ++ '\n' :: cs))
        = some (⟨[], f.1, f.2⟩, '\n' :: cs) := by
    unfold readAssignment
    rw [hkey]
    show (readValue depthLimit (skipBlanks (' ' :: (w ++ '\n' :: cs))) >>= fun p => _) = _
    rw [hskip, hread]
    rfl
  rw [List.append_assoc]
  show readStatement (f.1.toList ++ ' ' :: '=' :: ' ' :: (w ++ '\n' :: cs)) = _
  obtain ⟨c, key, hcs, hc⟩ := bare_cons hbare
  have hbracket : c ≠ '[' := bareKeyChar_ne hc (by decide)
  unfold readStatement
  split
  · next heq =>
    rw [hcs] at heq
    exact absurd (List.cons.inj heq).1 hbracket
  · next heq =>
    rw [hcs] at heq
    exact absurd (List.cons.inj heq).1 hbracket
  · rw [hassign]
    rfl

/-- The header of a table. -/
theorem ReadsAs.header {name : String} {cs : List Char} {ss : List Statement} (h : ReadsAs cs ss)
    (hbare : Bare name) :
    ReadsAs ('[' :: name.toList ++ "]\n".toList ++ cs) (.table [] name :: ss) := by
  have hbytes : '[' :: name.toList ++ "]\n".toList ++ cs
      = ('[' :: (name.toList ++ [']'])) ++ '\n' :: cs := by
    simp
  rw [hbytes]
  refine h.line ⟨'[', _, rfl, by decide⟩ ?_
  have hkey : readKey (name.toList ++ ']' :: '\n' :: cs) = some ([], name, ']' :: '\n' :: cs) :=
    readKey_bare hbare (by decide) rfl (by decide)
  rw [List.cons_append, List.append_assoc]
  show readStatement ('[' :: (name.toList ++ ']' :: '\n' :: cs)) = _
  obtain ⟨c, key, hcs, hc⟩ := bare_cons hbare
  have hbracket : c ≠ '[' := bareKeyChar_ne hc (by decide)
  unfold readStatement
  split
  · next heq =>
    rw [hcs] at heq
    exact absurd (List.cons.inj (List.cons.inj heq).2).1 hbracket
  · next r _ heq =>
    obtain rfl := (List.cons.inj heq).2
    rw [hkey]
    rfl
  · next hne => exact absurd rfl (hne _)

/-! ## Texts -/

theorem writeFields_cons {f : Field} {fs : List Field} {lines : List Char}
    (h : writeFields (f :: fs) = some lines) :
    ∃ line rest, writeField f = some line ∧ writeFields fs = some rest ∧ lines = line ++ rest := by
  unfold writeFields at h
  obtain ⟨ls, hls, rfl⟩ := Option.map_eq_some_iff.1 h
  rw [List.mapM_cons] at hls
  simp only [Option.bind_eq_bind, Option.bind_eq_some_iff] at hls
  obtain ⟨line, hline, rest, hrest, heq⟩ := hls
  obtain rfl := Option.some.inj heq
  exact ⟨line, rest.flatten, hline, by rw [writeFields, hrest]; rfl, rfl⟩

theorem ReadsAs.fields {fs : List Field} {lines cs : List Char} {ss : List Statement}
    (h : ReadsAs cs ss) (hbare : ∀ f ∈ fs, Bare f.1) (hplain : ∀ f ∈ fs, f.2.Plain depthLimit)
    (hlines : writeFields fs = some lines) :
    ReadsAs (lines ++ cs) (fs.map Field.statement ++ ss) := by
  induction fs generalizing lines with
  | nil =>
    obtain rfl := Option.some.inj hlines
    exact h
  | cons f fs ih =>
    obtain ⟨line, rest, hline, hrest, rfl⟩ := writeFields_cons hlines
    rw [List.append_assoc]
    exact (ih (fun f hf => hbare f (List.mem_cons_of_mem _ hf))
      (fun f hf => hplain f (List.mem_cons_of_mem _ hf)) hrest).field (hbare f List.mem_cons_self)
      (hplain f List.mem_cons_self) hline

theorem readsAs_writeSections {opens : Bool} {sections : List Section} {text : List Char}
    (hok : ∀ s ∈ sections, s.isElement = false ∧ Bare s.name ∧ FieldsOk s.fields)
    (htext : writeSections opens sections = some text) :
    ReadsAs text (sections.flatMap Section.statements) := by
  induction sections generalizing opens text with
  | nil =>
    obtain rfl := Option.some.inj htext
    exact readsAs_nil
  | cons s sections ih =>
    obtain ⟨htable, hbare, hfields⟩ := hok s List.mem_cons_self
    rw [writeSections] at htext
    simp only [Option.bind_eq_bind, Option.bind_eq_some_iff] at htext
    obtain ⟨lines, hlines, rest, hrest, heq⟩ := htext
    obtain rfl := Option.some.inj heq
    have hreads := ((ih (fun s hs => hok s (List.mem_cons_of_mem _ hs)) hrest).fields hfields.bare
      hfields.plain hlines).header hbare
    rw [Section.header, htable, List.flatMap_cons, Section.statements]
    cases opens with
    | true => simpa using hreads
    | false => simpa using hreads.blank

/-- A written document is its fields and then its sections. -/
theorem exists_of_write {d : Document} {text : String} (htext : d.write = some text) :
    ∃ lines rest, writeFields d.fields = some lines ∧
      writeSections d.fields.isEmpty d.sections = some rest ∧
      text = String.ofList (lines ++ rest) := by
  unfold Document.write at htext
  simp only [Option.bind_eq_bind, Option.bind_eq_some_iff] at htext
  obtain ⟨lines, hlines, rest, hrest, heq⟩ := htext
  exact ⟨lines, rest, hlines, hrest, (Option.some.inj heq).symm⟩

/-- A written document starts with a key, with a header or not at all. -/
theorem write_head {d : Document} (hok : d.WellFormed) {text : String} (htext : d.write = some text)
    (r : List Char) : text.toList ≠ '\uFEFF' :: r := by
  intro hmark
  obtain ⟨lines, rest, hlines, hrest, rfl⟩ := exists_of_write htext
  rw [String.toList_ofList] at hmark
  cases hfields : d.fields with
  | cons f fs =>
    rw [hfields] at hlines
    obtain ⟨line, lines', hline, -, rfl⟩ := writeFields_cons hlines
    unfold writeField at hline
    obtain ⟨w, -, rfl⟩ := Option.map_eq_some_iff.1 hline
    have hmem : f ∈ d.fields := by
      rw [hfields]
      exact List.mem_cons_self
    obtain ⟨c, cs, hcs, hc⟩ := bare_cons (hok.fields.bare f hmem)
    rw [hcs] at hmark
    exact bareKeyChar_ne hc (by decide) (List.cons.inj hmark).1
  | nil =>
    rw [hfields] at hlines hrest
    obtain rfl := Option.some.inj hlines
    cases hsections : d.sections with
    | nil =>
      rw [hsections] at hrest
      obtain rfl := Option.some.inj hrest
      cases hmark
    | cons s ss =>
      rw [hsections, writeSections] at hrest
      simp only [Option.bind_eq_bind, Option.bind_eq_some_iff] at hrest
      obtain ⟨lines, -, rest, -, heq⟩ := hrest
      obtain rfl := Option.some.inj heq
      rw [Section.header, (hok.sections s (by rw [hsections]; exact List.mem_cons_self)).1] at hmark
      exact absurd (List.cons.inj hmark).1 (by decide)

theorem isSome_writeFields {fs : List Field} :
    (writeFields fs).isSome ↔ ∀ f ∈ fs, (writeValue f.2).isSome := by
  unfold writeFields
  rw [Option.isSome_map]
  induction fs with
  | nil => simp
  | cons f fs ih =>
    rw [List.mapM_cons, List.forall_mem_cons, ← ih, writeField]
    cases writeValue f.2 <;> cases fs.mapM writeField <;> simp

theorem isSome_writeSections {opens : Bool} {sections : List Section} :
    (writeSections opens sections).isSome ↔
      ∀ s ∈ sections, ∀ f ∈ s.fields, (writeValue f.2).isSome := by
  induction sections generalizing opens with
  | nil => simp [writeSections]
  | cons s sections ih =>
    rw [writeSections, List.forall_mem_cons, ← isSome_writeFields, ← @ih false]
    cases writeFields s.fields <;> cases writeSections false sections <;> simp

/-- A document can be written if each of its values can. -/
theorem isSome_write {d : Document} :
    d.write.isSome ↔ (∀ f ∈ d.fields, (writeValue f.2).isSome) ∧
      ∀ s ∈ d.sections, ∀ f ∈ s.fields, (writeValue f.2).isSome := by
  unfold Document.write
  rw [← isSome_writeFields, ← @isSome_writeSections d.fields.isEmpty]
  cases writeFields d.fields <;> cases writeSections d.fields.isEmpty d.sections <;> simp

/-! ## Tables -/

namespace Entries

/-- The entries of a table whose keys were given their values one by one. -/
def ofFields (fs : List Field) : Entries := fs.map fun f => (f.1, .value f.2)

theorem toTable_append (es es' : Entries) : toTable (es ++ es') = toTable es ++ toTable es' := by
  induction es with
  | nil => rfl
  | cons e es ih =>
    rw [List.cons_append, toTable, ih]
    rfl

theorem toTable_ofFields (fs : List Field) : toTable (ofFields fs) = fs := by
  induction fs with
  | nil => rfl
  | cons f fs ih =>
    show (f.1, Node.toValue (.value f.2)) :: toTable (ofFields fs) = _
    rw [ih]
    rfl

theorem lookup_eq_none {es : Entries} {key : String} (h : key ∉ es.map (·.1)) :
    es.lookup key = none := by
  induction es with
  | nil => rfl
  | cons e es ih =>
    rw [List.map_cons, List.mem_cons, not_or] at h
    rw [List.lookup_cons, beq_false_of_ne h.1]
    exact ih h.2

theorem assign_new {es : Entries} {f : Field} (h : f.1 ∉ es.map (·.1)) :
    es.assign ⟨[], f.1, f.2⟩ = some (es ++ [(f.1, .value f.2)]) := by
  show (if (es.lookup f.1).isSome then none else some (es ++ [(f.1, Node.value f.2)])) = _
  rw [lookup_eq_none h]
  rfl

theorem assignAll_fields (es : Entries) {fs : List Field}
    (h : (es.map (·.1) ++ fs.map (·.1)).Nodup) :
    es.assignAll (fs.map fun f => ⟨[], f.1, f.2⟩) = some (es ++ ofFields fs) := by
  induction fs generalizing es with
  | nil => exact congrArg some (List.append_nil es).symm
  | cons f fs ih =>
    have hnew : f.1 ∉ es.map (·.1) := fun hmem =>
      (List.nodup_append.1 h).2.2 _ hmem _ List.mem_cons_self rfl
    have hrest : ((es ++ [(f.1, Node.value f.2)]).map (·.1) ++ fs.map (·.1)).Nodup := by
      rw [List.map_append, List.append_assoc]
      exact h
    unfold assignAll at ih ⊢
    rw [List.map_cons, List.foldlM_cons, assign_new hnew]
    show List.foldlM assign (es ++ [(f.1, Node.value f.2)]) _ = _
    rw [ih _ hrest, List.append_assoc]
    rfl

theorem defineTable_new {es : Entries} {key : String} {fs : List Field} (h : key ∉ es.map (·.1))
    (hfs : (fs.map (·.1)).Nodup) :
    es.defineTable [] key (fs.map fun f => ⟨[], f.1, f.2⟩)
      = some (es ++ [(key, .table .header (ofFields fs))]) := by
  rw [defineTable, changeAt, lookup_eq_none h]
  simp only [assignAll_fields [] hfs, Option.bind_eq_bind, Option.bind_some]
  rfl

end Entries

theorem leadingAssignments_fields (fs : List Field) {ss : List Statement}
    (hss : leadingAssignments ss = ([], ss)) :
    leadingAssignments (fs.map Field.statement ++ ss)
      = (fs.map fun f => ⟨[], f.1, f.2⟩, ss) := by
  induction fs with
  | nil => exact hss
  | cons f fs ih =>
    rw [List.map_cons, List.cons_append]
    show ((⟨[], f.1, f.2⟩ : Assignment) :: (leadingAssignments (fs.map Field.statement ++ ss)).1,
      (leadingAssignments (fs.map Field.statement ++ ss)).2) = _
    rw [ih]
    rfl

theorem leadingAssignments_sections (sections : List Section) :
    leadingAssignments (sections.flatMap Section.statements)
      = ([], sections.flatMap Section.statements) := by
  cases sections with
  | nil => rfl
  | cons s sections => rfl

/-- Sections add a table each. -/
theorem addSections_sections {es : Entries} {sections : List Section}
    (hok : ∀ s ∈ sections, FieldsOk s.fields)
    (hdistinct : (es.map (·.1) ++ sections.map (·.name)).Nodup) :
    addSections es (sections.flatMap Section.statements) = some (es ++ sections.map fun s =>
      (s.name, .table .header (Entries.ofFields s.fields))) := by
  induction sections generalizing es with
  | nil =>
    show addSections es [] = _
    rw [addSections, List.map_nil, List.append_nil]
  | cons s sections ih =>
    have hnew : s.name ∉ es.map (·.1) := fun hmem =>
      (List.nodup_append.1 hdistinct).2.2 _ hmem _ List.mem_cons_self rfl
    have hrest : ((es ++ [(s.name, Node.table .header (Entries.ofFields s.fields))]).map (·.1) ++
        sections.map (·.name)).Nodup := by
      rw [List.map_append, List.append_assoc]
      exact hdistinct
    rw [List.flatMap_cons, Section.statements, List.cons_append, addSections,
      leadingAssignments_fields s.fields (leadingAssignments_sections sections),
      Entries.defineTable_new hnew (hok s List.mem_cons_self).distinct]
    show addSections (es ++ [(s.name, Node.table .header (Entries.ofFields s.fields))]) _ = _
    rw [ih (fun s hs => hok s (List.mem_cons_of_mem _ hs)) hrest, List.append_assoc]
    rfl

theorem toTable_sections (sections : List Section) :
    Entries.toTable (sections.map fun s => (s.name, .table .header (Entries.ofFields s.fields)))
      = sections.map fun s => (s.name, .table s.fields) := by
  induction sections with
  | nil => rfl
  | cons s sections ih =>
    rw [List.map_cons, Entries.toTable, ih, Node.toValue, Entries.toTable_ofFields]
    rfl

/-- A document without arrays of tables is its fields and then a table for each section. -/
theorem toTable_eq {d : Document} (h : ∀ s ∈ d.sections, s.isElement = false) :
    d.toTable = d.fields ++ d.sections.map fun s => (s.name, .table s.fields) := by
  obtain ⟨fields, sections⟩ := d
  unfold Document.toTable
  induction sections generalizing fields with
  | nil => exact (List.append_nil fields).symm
  | cons s sections ih =>
    have hs : Section.addTo fields s = fields ++ [(s.name, .table s.fields)] := by
      rw [Section.addTo, h s List.mem_cons_self]
      rfl
    rw [List.foldl_cons, hs, ih _ fun s hs => h s (List.mem_cons_of_mem _ hs), List.append_assoc]
    rfl

theorem define?_statements {d : Document} (hok : d.WellFormed) :
    define? (d.fields.map Field.statement ++ d.sections.flatMap Section.statements)
      = some d.toTable := by
  have hkeys : (Entries.ofFields d.fields).map (·.1) = d.fields.map (·.1) := by
    rw [Entries.ofFields, List.map_map]
    rfl
  have hdistinct : ((Entries.ofFields d.fields).map (·.1) ++ d.sections.map (·.name)).Nodup := by
    rw [hkeys]
    exact hok.distinct
  unfold define?
  rw [leadingAssignments_fields d.fields (leadingAssignments_sections d.sections),
    Entries.assignAll_fields [] hok.fields.distinct]
  show (addSections (Entries.ofFields d.fields) _ >>= fun es => some (Entries.toTable es)) = _
  rw [addSections_sections (fun s hs => (hok.sections s hs).2.2) hdistinct]
  show some (Entries.toTable (Entries.ofFields d.fields ++ _)) = _
  rw [Entries.toTable_append, Entries.toTable_ofFields, toTable_sections,
    toTable_eq fun s hs => (hok.sections s hs).1]

/-- A written document stands for the table that it was written from. -/
theorem readTable?_write {d : Document} (hok : d.WellFormed) {text : String}
    (htext : d.write = some text) : readTable? text = some d.toTable := by
  have hmark := write_head hok htext
  obtain ⟨lines, rest, hlines, hrest, rfl⟩ := exists_of_write htext
  have hreads : ReadsAs (lines ++ rest)
      (d.fields.map Field.statement ++ d.sections.flatMap Section.statements) :=
    (readsAs_writeSections hok.sections hrest).fields hok.fields.bare hok.fields.plain hlines
  rw [String.toList_ofList] at hmark
  unfold readTable?
  rw [String.toList_ofList]
  split
  · next r heq => exact absurd heq (hmark r)
  · show readStatements ((lines ++ rest).length + 1) (lines ++ rest) >>= define? = _
    rw [hreads _ (Nat.lt_succ_self _)]
    exact define?_statements hok

end AndroidBoot.Toml
