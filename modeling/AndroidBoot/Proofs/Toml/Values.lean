import AndroidBoot.Proofs.Toml.Integers
import AndroidBoot.Proofs.Toml.Strings
import AndroidBoot.Toml.Document
import AndroidBoot.Toml.Reader

/-!
# Written values can be read again

A value that nests no deeper than the reader goes is read back from its written form, in front of
whatever ends a value. The items of an array stand on lines of their own or, if there is one,
between the brackets; in both cases the reader skips to the next item or to the closing bracket.

    readValue depth (w ++ rest) = some (v, rest)                             (readValue_writeValue)
      if v.Plain depth and writeValue v = some w and rest ends a value
-/

namespace AndroidBoot.Toml

/-- A value that a document can hold behind a key: strings, integers, truth values, and arrays of
such values that nest at most `depth` deep. -/
def Value.Plain : Nat → Value → Prop
  | _, .string _ => True
  | _, .integer _ => True
  | _, .boolean _ => True
  | depth + 1, .array items => ∀ v ∈ items, Value.Plain depth v
  | _, _ => False

/-- A character at which the reader of an array or of a line finds a value. -/
def Starts (cs : List Char) : Prop :=
  ∃ c r, cs = c :: r ∧ isBlankChar c = false ∧ c ≠ '\n' ∧ c ≠ '\r' ∧ c ≠ '#' ∧ c ≠ ']'

/-! ## Lemmas -/

theorem noQuote_of_ends {rest : List Char} (h : Ends rest) : NoQuote rest := by
  obtain ⟨e, r, rfl, he⟩ := h
  intro r'
  refine ⟨fun heq => ?_, fun heq => ?_⟩
  · obtain ⟨rfl, -⟩ := List.cons.inj heq
    simp at he
  · obtain ⟨rfl, -⟩ := List.cons.inj heq
    simp at he

theorem Starts.append {cs : List Char} (h : Starts cs) (rest : List Char) :
    Starts (cs ++ rest) := by
  obtain ⟨c, r, rfl, hc⟩ := h
  exact ⟨c, r ++ rest, rfl, hc⟩

theorem skipFiller_of_starts {cs : List Char} (h : Starts cs) : skipFiller false cs = cs := by
  obtain ⟨c, r, rfl, hblank, hfeed, hreturn, hcomment, -⟩ := h
  rw [skipFiller, if_neg (by rw [hblank]; decide)]
  · exact hfeed
  · exact fun _ heq _ => hreturn heq
  · exact hcomment

theorem skipBlanks_of_starts {cs : List Char} (h : Starts cs) : skipBlanks cs = cs := by
  obtain ⟨c, r, rfl, hblank, -⟩ := h
  unfold skipBlanks
  rw [List.dropWhile_cons_of_neg (by rw [hblank]; decide)]

/-! ## Simple values -/

theorem readValue_cons (depth : Nat) (c : Char) (r : List Char) :
    readValue depth (c :: r) =
      if c = '"' ∨ c = '\'' then
        (readString (c :: r)).map fun (s, rest) => (.string (String.ofList s), rest)
      else if c = '[' then
        match depth with
        | 0 => none
        | depth + 1 =>
          (readItems (readValue depth) (r.length + 1) r).map fun (vs, rest) => (.array vs, rest)
      else if c = '\x7b' then
        match depth with
        | 0 => none
        | depth + 1 => readInlineTable (readValue depth) r
      else match c :: r with
        | 't' :: 'r' :: 'u' :: 'e' :: rest => some (.boolean true, rest)
        | 'f' :: 'a' :: 'l' :: 's' :: 'e' :: rest => some (.boolean false, rest)
        | cs => readNumeric cs := by
  cases depth <;> rfl

theorem writeString_head (cs : List Char) :
    ∃ r, writeString cs = '"' :: r ∨ writeString cs = '\'' :: r := by
  unfold writeString Form.write
  cases Form.choose cs with
  | basic => exact ⟨_, .inl rfl⟩
  | literal => exact ⟨_, .inr rfl⟩
  | multilineBasic => exact ⟨_, .inl rfl⟩
  | multilineLiteral => exact ⟨_, .inr rfl⟩

theorem readValue_string (depth : Nat) (s : String) {rest : List Char} (hrest : Ends rest) :
    readValue depth (writeString s.toList ++ rest) = some (.string s, rest) := by
  have hread := readString_writeString s.toList (noQuote_of_ends hrest)
  obtain ⟨r, hw | hw⟩ := writeString_head s.toList
  · rw [hw, List.cons_append] at hread ⊢
    rw [readValue_cons, if_pos (.inl rfl), hread, Option.map_some]
    simp only [String.ofList_toList]
  · rw [hw, List.cons_append] at hread ⊢
    rw [readValue_cons, if_pos (.inr rfl), hread, Option.map_some]
    simp only [String.ofList_toList]

theorem ne_of_sign_or_digit {c d : Char} (hc : c = '-' ∨ isDigit 10 c = true) (hsign : d ≠ '-')
    (hdigit : isDigit 10 d = false) : c ≠ d := by
  rintro rfl
  rcases hc with rfl | hc
  · exact hsign rfl
  · rw [hc] at hdigit
    cases hdigit

/-- A sign or a digit starts a number. -/
theorem readValue_numeric (depth : Nat) {c : Char} (hc : c = '-' ∨ isDigit 10 c = true)
    (r : List Char) : readValue depth (c :: r) = readNumeric (c :: r) := by
  have hne : ∀ d, d ≠ '-' → isDigit 10 d = false → c ≠ d := fun d => ne_of_sign_or_digit hc
  rw [readValue_cons,
    if_neg (not_or.2 ⟨hne _ (by decide) (by decide), hne _ (by decide) (by decide)⟩),
    if_neg (hne _ (by decide) (by decide)), if_neg (hne _ (by decide) (by decide))]
  split
  · next heq => exact absurd (List.cons.inj heq).1 (hne _ (by decide) (by decide))
  · next heq => exact absurd (List.cons.inj heq).1 (hne _ (by decide) (by decide))
  · rfl

theorem toString_head (n : Int) :
    ∃ c r, (toString n).toList = c :: r ∧ (c = '-' ∨ isDigit 10 c = true) := by
  rw [toList_toString]
  split
  · obtain ⟨c, r, hr, hc⟩ := toDigits_cons n.toNat
    exact ⟨c, r, hr, .inr hc⟩
  · exact ⟨'-', _, rfl, .inl rfl⟩

theorem readValue_integer (depth : Nat) {n : Int} (hn : integerMin ≤ n ∧ n ≤ integerMax)
    {rest : List Char} (hrest : Ends rest) :
    readValue depth ((toString n).toList ++ rest) = some (.integer n, rest) := by
  obtain ⟨c, r, hr, hc⟩ := toString_head n
  have hread := readNumeric_toString hn hrest
  rw [hr, List.cons_append] at hread ⊢
  rw [readValue_numeric depth hc, hread]

theorem readValue_boolean (depth : Nat) (b : Bool) (rest : List Char) :
    readValue depth ((if b then "true" else "false").toList ++ rest) = some (.boolean b, rest) := by
  cases b <;> cases depth <;> rfl

/-! ## Arrays -/

/-- What a reader makes of the written form of a value. -/
structure Reads (item : List Char → Option (Value × List Char)) (v : Value) (w : List Char) :
    Prop where
  starts : Starts w
  reads : ∀ rest, Ends rest → item (w ++ rest) = some (v, rest)

section
variable {item : List Char → Option (Value × List Char)}

/-- The first step at an item. -/
theorem readItems_item {v : Value} {w rest : List Char} (h : Reads item v w) (hrest : Ends rest)
    (fuel : Nat) :
    readItems item (fuel + 1) (w ++ rest) = (match skipFiller false rest with
      | ',' :: r => do
        let (vs, rest) ← readItems item fuel r
        return (v :: vs, rest)
      | ']' :: rest => return ([v], rest)
      | _ => none) := by
  have hskip := skipFiller_of_starts (h.starts.append rest)
  obtain ⟨c, r, hc, -, -, -, -, hbracket⟩ := h.starts.append rest
  rw [readItems, hskip]
  split
  · next heq =>
    rw [hc] at heq
    exact absurd (List.cons.inj heq).1 hbracket
  · rw [h.reads rest hrest]
    rfl

theorem readItems_comma {v : Value} {w r : List Char} (h : Reads item v w) (fuel : Nat) :
    readItems item (fuel + 1) (w ++ ',' :: r)
      = (readItems item fuel r).map fun (vs, rest) => (v :: vs, rest) := by
  rw [readItems_item h ⟨',', r, rfl, .inr (.inl rfl)⟩]
  show (readItems item fuel r >>= fun p => _) = _
  cases readItems item fuel r <;> rfl

theorem readItems_last {v : Value} {w r : List Char} (h : Reads item v w) (fuel : Nat) :
    readItems item (fuel + 1) (w ++ ']' :: r) = some ([v], r) :=
  readItems_item h ⟨']', r, rfl, .inr (.inr rfl)⟩ fuel

theorem readItems_indent (fuel : Nat) (cs : List Char) :
    readItems item fuel ("\n    ".toList ++ cs) = readItems item fuel cs := by
  have hskip : skipFiller false ("\n    ".toList ++ cs) = skipFiller false cs := rfl
  cases fuel with
  | zero => rfl
  | succ fuel => rw [readItems, readItems, hskip]

theorem writeItems_cons {v : Value} {vs : List Value} {ws : List (List Char)}
    (h : writeItems (v :: vs) = some ws) :
    ∃ w ws', writeValue v = some w ∧ writeItems vs = some ws' ∧ ws = w :: ws' := by
  rw [writeItems] at h
  simp only [Option.bind_eq_bind, Option.bind_eq_some_iff] at h
  obtain ⟨w, hw, ws', hws', hws⟩ := h
  exact ⟨w, ws', hw, hws', (Option.some.inj hws).symm⟩

/-- Items on lines of their own. -/
theorem readItems_lines {items : List Value} {ws : List (List Char)}
    (hws : writeItems items = some ws)
    (hitems : ∀ v ∈ items, ∀ w, writeValue v = some w → Reads item v w) {fuel : Nat}
    (hfuel : items.length < fuel) (rest : List Char) :
    readItems item fuel (ws.flatMap (fun w => "\n    ".toList ++ w ++ [',']) ++
      '\n' :: ']' :: rest) = some (items, rest) := by
  induction items generalizing ws fuel with
  | nil =>
    rw [writeItems] at hws
    obtain rfl := Option.some.inj hws
    match fuel, hfuel with
    | fuel + 1, _ => rfl
  | cons v items ih =>
    obtain ⟨w, ws', hw, hws', rfl⟩ := writeItems_cons hws
    match fuel, hfuel with
    | fuel + 1, hfuel =>
      have hread := hitems v List.mem_cons_self w hw
      have hfuel' : items.length < fuel := by
        rw [List.length_cons] at hfuel
        omega
      have hrest := ih hws' (fun v hv => hitems v (List.mem_cons_of_mem _ hv)) hfuel'
      rw [List.flatMap_cons, List.append_assoc, List.append_assoc, List.append_assoc,
        List.singleton_append, readItems_indent, readItems_comma hread, hrest]
      rfl

theorem length_writeItems {items : List Value} {ws : List (List Char)}
    (hws : writeItems items = some ws) : ws.length = items.length := by
  induction items generalizing ws with
  | nil =>
    rw [writeItems] at hws
    rw [← Option.some.inj hws]
    rfl
  | cons v items ih =>
    obtain ⟨w, ws', -, hws', rfl⟩ := writeItems_cons hws
    rw [List.length_cons, List.length_cons, ih hws']

/-- There are more characters than lines. -/
theorem length_le_lines (ws : List (List Char)) :
    ws.length ≤ (ws.flatMap fun w => "\n    ".toList ++ w ++ [',']).length := by
  induction ws with
  | nil => exact Nat.zero_le _
  | cons w ws ih =>
    rw [List.flatMap_cons, List.length_append, List.length_cons]
    simp only [List.length_append, List.length_cons] at ih ⊢
    omega

/-- An array is read back from what stands behind its opening bracket. -/
theorem readItems_writeArray {items : List Value} {ws : List (List Char)}
    (hws : writeItems items = some ws)
    (hitems : ∀ v ∈ items, ∀ w, writeValue v = some w → Reads item v w) (rest : List Char) :
    ∃ r, writeArray ws ++ rest = '[' :: r ∧
      readItems item (r.length + 1) r = some (items, rest) := by
  match items, ws, hws, hitems with
  | [], [], _, _ => exact ⟨']' :: rest, rfl, rfl⟩
  | [v], [w], hws, hitems =>
    obtain ⟨w', ws', hw, -, heq⟩ := writeItems_cons hws
    obtain rfl := (List.cons.inj heq).1
    refine ⟨w ++ ']' :: rest, by simp [writeArray], ?_⟩
    exact readItems_last (hitems v List.mem_cons_self w hw) _
  | v :: v' :: items, w :: w' :: ws, hws, hitems =>
    refine ⟨(w :: w' :: ws).flatMap (fun w => "\n    ".toList ++ w ++ [',']) ++
      '\n' :: ']' :: rest, by simp [writeArray], ?_⟩
    refine readItems_lines hws hitems ?_ rest
    have hlength := length_writeItems hws
    have hlong := length_le_lines (w :: w' :: ws)
    rw [← hlength, List.length_append]
    omega
  | [], _ :: _, hws, _ => cases length_writeItems hws
  | _ :: _, [], hws, _ => cases length_writeItems hws
  | [_], _ :: _ :: _, hws, _ => cases length_writeItems hws
  | _ :: _ :: _, [_], hws, _ => cases length_writeItems hws

end

/-! ## All values -/

theorem starts_of_sign_or_digit {c : Char} (hc : c = '-' ∨ isDigit 10 c = true) (r : List Char) :
    Starts (c :: r) := by
  have hne : ∀ d, d ≠ '-' → isDigit 10 d = false → c ≠ d := fun d => ne_of_sign_or_digit hc
  refine ⟨c, r, rfl, ?_, hne _ (by decide) (by decide), hne _ (by decide) (by decide),
    hne _ (by decide) (by decide), hne _ (by decide) (by decide)⟩
  simp only [isBlankChar, Bool.or_eq_false_iff, beq_eq_false_iff_ne]
  exact ⟨hne _ (by decide) (by decide), hne _ (by decide) (by decide)⟩

theorem starts_of_quote {c : Char} (hc : c = '"' ∨ c = '\'') (r : List Char) : Starts (c :: r) := by
  rcases hc with rfl | rfl
  · exact ⟨'"', r, rfl, by decide⟩
  · exact ⟨'\'', r, rfl, by decide⟩

/-- A string, an integer or a truth value is read back at any depth. -/
theorem reads_of_simple {depth : Nat} {v : Value} {w : List Char} (hv : v.Plain 0)
    (hw : writeValue v = some w) : Reads (readValue depth) v w := by
  cases v with
  | string s =>
    rw [writeValue] at hw
    obtain rfl := Option.some.inj hw
    refine ⟨?_, fun rest hrest => readValue_string depth s hrest⟩
    obtain ⟨r, hr | hr⟩ := writeString_head s.toList
    · rw [hr]
      exact starts_of_quote (.inl rfl) r
    · rw [hr]
      exact starts_of_quote (.inr rfl) r
  | integer n =>
    rw [writeValue] at hw
    split at hw
    · next hn =>
      obtain rfl := Option.some.inj hw
      refine ⟨?_, fun rest hrest => readValue_integer depth hn hrest⟩
      obtain ⟨c, r, hr, hc⟩ := toString_head n
      rw [hr]
      exact starts_of_sign_or_digit hc r
    · cases hw
  | boolean b =>
    rw [writeValue] at hw
    obtain rfl := Option.some.inj hw
    refine ⟨?_, fun rest _ => readValue_boolean depth b rest⟩
    cases b
    · exact ⟨'f', _, rfl, by decide⟩
    · exact ⟨'t', _, rfl, by decide⟩
  | float _ => exact hv.elim
  | moment _ => exact hv.elim
  | array _ => exact hv.elim
  | table _ => exact hv.elim

/-- A value is read back from its written form. -/
theorem reads_of_writeValue {depth : Nat} {v : Value} {w : List Char} (hv : v.Plain depth)
    (hw : writeValue v = some w) : Reads (readValue depth) v w := by
  induction depth generalizing v w with
  | zero => exact reads_of_simple hv hw
  | succ depth ih =>
    cases v with
    | array items =>
      rw [writeValue] at hw
      obtain ⟨ws, hws, rfl⟩ := Option.map_eq_some_iff.1 hw
      have hitems : ∀ v ∈ items, ∀ w, writeValue v = some w → Reads (readValue depth) v w :=
        fun v hmem w hw => ih (hv v hmem) hw
      refine ⟨?_, fun rest _ => ?_⟩
      · obtain ⟨r, hr, -⟩ := readItems_writeArray hws hitems []
        rw [List.append_nil] at hr
        rw [hr]
        exact ⟨'[', r, rfl, by decide⟩
      · obtain ⟨r, hr, hread⟩ := readItems_writeArray hws hitems rest
        rw [hr, readValue_cons, if_neg (by decide), if_pos rfl]
        simp only [hread, Option.map_some]
    | string s => exact reads_of_simple trivial hw
    | integer n => exact reads_of_simple trivial hw
    | boolean b => exact reads_of_simple trivial hw
    | float _ => exact hv.elim
    | moment _ => exact hv.elim
    | table _ => exact hv.elim

/-- A value in a document, in front of the end of its line. -/
theorem readValue_writeValue {v : Value} {w : List Char} (hv : v.Plain depthLimit)
    (hw : writeValue v = some w) (r : List Char) :
    readValue depthLimit (w ++ '\n' :: r) = some (v, '\n' :: r) :=
  (reads_of_writeValue hv hw).reads _ ⟨'\n', r, rfl, .inl rfl⟩

end AndroidBoot.Toml
