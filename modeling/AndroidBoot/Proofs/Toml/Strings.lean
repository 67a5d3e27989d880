import AndroidBoot.Toml.StringForm

/-!
# Written strings can be read again

Each form is read back by its reader, if what follows the string starts with no quote. Strings on
several lines end at the first three quotes in a row; up to two more in front of them belong to
the string, and the writers leave no three in a row before.

    readString (writeString cs ++ rest) = some (cs, rest)                   (readString_writeString)
-/

namespace AndroidBoot.Toml

/-- What follows a string does not start with a quote. -/
def NoQuote (rest : List Char) : Prop := ∀ r, rest ≠ '"' :: r ∧ rest ≠ '\'' :: r

namespace Form

/-- How a character that is no double quote is written in a basic string. -/
def basicChar (multiline : Bool) (c : Char) : List Char :=
  match c with
  | '\x08' => ['\\', 'b']
  | '\t' => ['\\', 't']
  | '\n' => if multiline then ['\n'] else ['\\', 'n']
  | '\x0c' => ['\\', 'f']
  | '\r' => ['\\', 'r']
  | '\\' => ['\\', '\\']
  | c => if isTextChar c then [c] else codeEscape c

/-! ## Characters -/

theorem writeBasic_cons {c : Char} (hc : c ≠ '"') (multiline : Bool) (run : Nat) (cs : List Char) :
    writeBasic multiline run (c :: cs) = basicChar multiline c ++ writeBasic multiline 0 cs := by
  show (if c = '"' then _ else basicChar multiline c ++ writeBasic multiline 0 cs) = _
  rw [if_neg hc]

theorem writeBasic_quote (multiline : Bool) (run : Nat) (cs : List Char) :
    writeBasic multiline run ('"' :: cs) =
      if multiline = true ∧ run < 2 then '"' :: writeBasic multiline (run + 1) cs
      else '\\' :: '"' :: writeBasic multiline 0 cs := rfl

/-- A character that has no text is below `0x80`. -/
theorem toNat_lt_of_not_isTextChar {c : Char} (hc : ¬ isTextChar c = true) : c.toNat < 128 := by
  unfold isTextChar at hc
  simp only [Bool.or_eq_true, Bool.and_eq_true, decide_eq_true_eq, beq_iff_eq, bne_iff_ne, ne_eq,
    not_or, not_and, Classical.not_not] at hc
  by_cases hspace : ' ' ≤ c
  · rw [hc.2 hspace]
    decide
  · have hlt : ¬ (' ').toNat ≤ c.toNat := hspace
    have : (' ').toNat = 32 := rfl
    omega

/-- A code escape is `\u` and four digits that stand for the character. -/
theorem codeEscape_eq {c : Char} (hc : ¬ isTextChar c = true) :
    ∃ ds, codeEscape c = '\\' :: 'u' :: ds ∧ ds.length = 4 ∧ codeChar? ds = some c := by
  have key : ∀ n < 128,
      let ds := (List.replicate (4 - (Nat.toDigits 16 n).length) '0' ++ Nat.toDigits 16 n).map
        Char.toUpper
      ds.length = 4 ∧ codeChar? ds = some (Char.ofNat n) := by decide
  obtain ⟨hlength, hcode⟩ := key c.toNat (toNat_lt_of_not_isTextChar hc)
  rw [Char.ofNat_toNat] at hcode
  refine ⟨_, ?_, hlength, hcode⟩
  simp [codeEscape, padLeft, hexDigits]

/-- A character is written as an escape that stands for it, or as itself. -/
theorem basicChar_cases (multiline : Bool) (c : Char) :
    (∃ e es, basicChar multiline c = '\\' :: e :: es ∧
      e ≠ ' ' ∧ e ≠ '\t' ∧ e ≠ '\n' ∧ e ≠ '\r' ∧
      ∀ rest, escape? (e :: (es ++ rest)) = some (c, es.length + 1)) ∨
    (basicChar multiline c = [c] ∧ c ≠ '\\' ∧ c ≠ '\r' ∧
      (isTextChar c = true ∨ multiline = true ∧ c = '\n')) := by
  unfold basicChar
  split
  · exact .inl ⟨'b', [], rfl, by decide, by decide, by decide, by decide, fun _ => rfl⟩
  · exact .inl ⟨'t', [], rfl, by decide, by decide, by decide, by decide, fun _ => rfl⟩
  · split
    · next h => exact .inr ⟨rfl, by decide, by decide, .inr ⟨h, rfl⟩⟩
    · exact .inl ⟨'n', [], rfl, by decide, by decide, by decide, by decide, fun _ => rfl⟩
  · exact .inl ⟨'f', [], rfl, by decide, by decide, by decide, by decide, fun _ => rfl⟩
  · exact .inl ⟨'r', [], rfl, by decide, by decide, by decide, by decide, fun _ => rfl⟩
  · exact .inl ⟨'\\', [], rfl, by decide, by decide, by decide, by decide, fun _ => rfl⟩
  · next hreturn hbackslash =>
    split
    · next htext => exact .inr ⟨rfl, hbackslash, hreturn, .inl htext⟩
    · next htext =>
      obtain ⟨ds, heq, hlength, hcode⟩ := codeEscape_eq htext
      refine .inl ⟨'u', ds, heq, by decide, by decide, by decide, by decide, fun rest => ?_⟩
      rw [escape?, if_neg (by simp; omega), List.take_left' hlength, hcode, hlength]
      rfl

end Form

/-! ## On one line -/

theorem readBasic_escape {e c : Char} {es rest : List Char}
    (h : escape? (e :: (es ++ rest)) = some (c, es.length + 1)) :
    readBasic ('\\' :: e :: (es ++ rest)) = (readBasic rest).map (pushFront c) := by
  rw [readBasic, if_neg (by decide), if_pos rfl, h]
  simp

theorem readBasic_writeBasic (cs rest : List Char) (run : Nat) :
    readBasic (Form.writeBasic false run cs ++ '"' :: rest) = some (cs, rest) := by
  induction cs generalizing run with
  | nil => rw [Form.writeBasic, List.nil_append, readBasic, if_pos rfl]
  | cons c cs ih =>
    by_cases hquote : c = '"'
    · subst hquote
      rw [Form.writeBasic_quote, if_neg (by simp)]
      have := @readBasic_escape '"' '"' [] (Form.writeBasic false 0 cs ++ '"' :: rest) rfl
      rw [List.nil_append] at this
      rw [List.cons_append, List.cons_append, this, ih]
      rfl
    · rw [Form.writeBasic_cons hquote]
      rcases Form.basicChar_cases false c with ⟨e, es, hchar, -, -, -, -, hescape⟩ |
        ⟨hchar, hbackslash, -, htext | ⟨⟨⟩, -⟩⟩
      · rw [hchar, List.cons_append, List.cons_append, List.cons_append, List.cons_append,
          List.append_assoc, readBasic_escape (hescape _), ih]
        rfl
      · rw [hchar, List.singleton_append, List.cons_append, readBasic, if_neg hquote,
          if_neg hbackslash, if_pos htext, ih]
        rfl

theorem readLiteral_append {cs : List Char} (hcs : ∀ c ∈ cs, isTextChar c = true ∧ c ≠ '\'')
    (rest : List Char) : readLiteral (cs ++ '\'' :: rest) = some (cs, rest) := by
  induction cs with
  | nil => rw [List.nil_append, readLiteral, if_pos rfl]
  | cons c cs ih =>
    obtain ⟨htext, hquote⟩ := hcs c List.mem_cons_self
    rw [List.cons_append, readLiteral, if_neg hquote, if_pos htext,
      ih fun c hc => hcs c (List.mem_cons_of_mem _ hc)]
    rfl

/-! ## On several lines -/

/-- The quotes in front of the last three belong to the string. -/
theorem closing_replicate {q : Char} {k : Nat} (hk : k ≤ 2) {rest : List Char}
    (hrest : ∀ r, rest ≠ q :: r) :
    closing q (List.replicate k q ++ rest) = (List.replicate k q, rest) := by
  have hend : closing q rest = ([], rest) := by
    match rest with
    | [] => rfl
    | [a] =>
      have ha : a ≠ q := fun h => hrest [] (by rw [h])
      rw [closing, if_neg ha]
    | a :: b :: r =>
      have ha : a ≠ q := fun h => hrest (b :: r) (by rw [h])
      rw [closing, if_neg ha]
  match k, hk with
  | 0, _ => exact hend
  | 1, _ =>
    match rest with
    | [] => simp [closing]
    | b :: r =>
      have hb : b ≠ q := fun h => hrest r (by rw [h])
      simp [closing, hb]
  | 2, _ =>
    show closing q (q :: q :: rest) = ([q, q], rest)
    rw [closing, if_pos rfl, if_pos rfl]

theorem closes_three (q : Char) (rest : List Char) : closes q (q :: q :: q :: rest) = true := by
  simp [closes]

theorem closes_of_first {q c : Char} (hc : c ≠ q) (r : List Char) : closes q (c :: r) = false := by
  unfold closes
  rw [beq_eq_false_iff_ne]
  intro h
  rw [List.take_succ_cons] at h
  exact hc (List.cons.inj h).1

theorem closes_of_second {q c : Char} (hc : c ≠ q) (r : List Char) :
    closes q (q :: c :: r) = false := by
  unfold closes
  rw [beq_eq_false_iff_ne]
  intro h
  rw [List.take_succ_cons, List.take_succ_cons] at h
  exact hc (List.cons.inj (List.cons.inj h).2).1

theorem closes_of_third {q c : Char} (hc : c ≠ q) (r : List Char) :
    closes q (q :: q :: c :: r) = false := by
  unfold closes
  rw [beq_eq_false_iff_ne]
  intro h
  rw [List.take_succ_cons, List.take_succ_cons, List.take_succ_cons] at h
  exact hc (List.cons.inj (List.cons.inj (List.cons.inj h).2).2).1

theorem newline?_of_ne {c : Char} (hfeed : c ≠ '\n') (hreturn : c ≠ '\r') (r : List Char) :
    newline? (c :: r) = none := by
  unfold newline?
  split
  · next h => exact absurd (List.cons.inj h).1 hfeed
  · next h => exact absurd (List.cons.inj h).1 hreturn
  · rfl

theorem isTextChar_ne {c : Char} (h : isTextChar c = true) : c ≠ '\n' ∧ c ≠ '\r' := by
  constructor
  · rintro rfl
    exact absurd h (by decide)
  · rintro rfl
    exact absurd h (by decide)

/-! ### Basic strings -/

theorem readMultilineBasic_text {c : Char} {r : List Char} (hcloses : closes '"' (c :: r) = false)
    (htext : isTextChar c = true) (hbackslash : c ≠ '\\') (fuel : Nat) :
    readMultilineBasic (fuel + 1) (c :: r) = (readMultilineBasic fuel r).map (pushFront c) := by
  obtain ⟨hfeed, hreturn⟩ := isTextChar_ne htext
  rw [readMultilineBasic, hcloses, newline?_of_ne hfeed hreturn]
  simp only [Bool.false_eq_true, if_false, if_neg hbackslash, if_pos htext]

theorem readMultilineBasic_feed (r : List Char) (fuel : Nat) :
    readMultilineBasic (fuel + 1) ('\n' :: r)
      = (readMultilineBasic fuel r).map (pushFront '\n') := by
  rw [readMultilineBasic, closes_of_first (by decide)]
  rfl

theorem readMultilineBasic_escape {e c : Char} {es rest : List Char}
    (hspace : e ≠ ' ' ∧ e ≠ '\t' ∧ e ≠ '\n' ∧ e ≠ '\r')
    (h : escape? (e :: (es ++ rest)) = some (c, es.length + 1)) (fuel : Nat) :
    readMultilineBasic (fuel + 1) ('\\' :: e :: (es ++ rest))
      = (readMultilineBasic fuel rest).map (pushFront c) := by
  have hcontinued : continued? (e :: (es ++ rest)) = none := by
    unfold continued?
    rw [List.dropWhile_cons_of_neg (by simp [hspace.1, hspace.2.1])]
    split
    · next heq => exact absurd (List.cons.inj heq).1 hspace.2.2.1
    · next heq => exact absurd (List.cons.inj heq).1 hspace.2.2.2
    · rfl
  rw [readMultilineBasic, closes_of_first (by decide), newline?_of_ne (by decide) (by decide)]
  simp only [Bool.false_eq_true, if_false, if_true, hcontinued, h]
  simp

/-- What is written of a string starts with a double quote only if the string does, and then only
where fewer than two stand before it. -/
theorem Form.writeBasic_head {d : Char} {run : Nat} (h : ¬ (d = '"' ∧ run < 2)) (ds : List Char) :
    ∃ x r, Form.writeBasic true run (d :: ds) = x :: r ∧ x ≠ '"' := by
  by_cases hd : d = '"'
  · subst hd
    rw [Form.writeBasic_quote, if_neg (by simpa using h)]
    exact ⟨_, _, rfl, by decide⟩
  · rw [Form.writeBasic_cons hd]
    rcases Form.basicChar_cases true d with ⟨e, es, hchar, -⟩ | ⟨hchar, -⟩
    · rw [hchar]
      exact ⟨_, _, rfl, by decide⟩
    · rw [hchar]
      exact ⟨_, _, rfl, hd⟩

/-- Where a double quote is written as itself, it is one of the last two of the string, or no third
one follows. -/
theorem Form.writeBasic_quotes {run : Nat} (hrun : run < 2) (cs rest : List Char) :
    (cs = [] ∨ cs = ['"'] ∧ run = 0) ∨
      closes '"' ('"' :: (Form.writeBasic true (run + 1) cs ++ rest)) = false := by
  cases cs with
  | nil => exact .inl (.inl rfl)
  | cons d ds =>
    by_cases hd : d = '"' ∧ run + 1 < 2
    · obtain ⟨rfl, hrun'⟩ := hd
      rw [Form.writeBasic_quote, if_pos ⟨rfl, hrun'⟩]
      cases ds with
      | nil => exact .inl (.inr ⟨rfl, by omega⟩)
      | cons e es =>
        obtain ⟨x, r, hx, hne⟩ := @Form.writeBasic_head e (run + 1 + 1) (fun h => by omega) es
        rw [hx]
        exact .inr (closes_of_third hne _)
    · obtain ⟨x, r, hx, hne⟩ := Form.writeBasic_head hd ds
      rw [hx]
      exact .inr (closes_of_second hne _)

theorem readMultilineBasic_writeBasic {cs rest : List Char} (hrest : ∀ r, rest ≠ '"' :: r)
    (run : Nat) {fuel : Nat} (hfuel : cs.length < fuel) :
    readMultilineBasic fuel (Form.writeBasic true run cs ++ '"' :: '"' :: '"' :: rest)
      = some (cs, rest) := by
  induction cs generalizing run fuel with
  | nil =>
    match fuel, hfuel with
    | fuel + 1, _ =>
      have hend := closing_replicate (k := 0) (by decide) hrest
      rw [Form.writeBasic, List.nil_append, readMultilineBasic, closes_three]
      exact congrArg some hend
  | cons c cs ih =>
    match fuel, hfuel with
    | fuel + 1, hfuel =>
      have hfuel' : cs.length < fuel := by
        rw [List.length_cons] at hfuel
        omega
      by_cases hquote : c = '"'
      · subst hquote
        rw [Form.writeBasic_quote]
        by_cases hrun : run < 2
        · rw [if_pos ⟨rfl, hrun⟩, List.cons_append]
          rcases Form.writeBasic_quotes hrun cs ('"' :: '"' :: '"' :: rest) with
            (rfl | ⟨rfl, rfl⟩) | hcloses
          · have hend := closing_replicate (k := 1) (by decide) hrest
            rw [Form.writeBasic, List.nil_append, readMultilineBasic, closes_three]
            exact congrArg some hend
          · have hend := closing_replicate (k := 2) (by decide) hrest
            rw [Form.writeBasic_quote, if_pos ⟨rfl, by decide⟩, Form.writeBasic, List.cons_append,
              List.nil_append, readMultilineBasic, closes_three]
            exact congrArg some hend
          · rw [readMultilineBasic_text hcloses (by decide) (by decide), ih _ hfuel']
            rfl
        · rw [if_neg (fun h => hrun h.2), List.cons_append, List.cons_append]
          have hescape := @readMultilineBasic_escape '"' '"' []
            (Form.writeBasic true 0 cs ++ '"' :: '"' :: '"' :: rest) (by decide) rfl fuel
          rw [List.nil_append] at hescape
          rw [hescape, ih _ hfuel']
          rfl
      · rw [Form.writeBasic_cons hquote]
        rcases Form.basicChar_cases true c with ⟨e, es, hchar, h1, h2, h3, h4, hescape⟩ |
          ⟨hchar, hbackslash, -, htext | ⟨-, rfl⟩⟩
        · rw [hchar, List.cons_append, List.cons_append, List.cons_append, List.cons_append,
            List.append_assoc, readMultilineBasic_escape ⟨h1, h2, h3, h4⟩ (hescape _), ih _ hfuel']
          rfl
        · rw [hchar, List.singleton_append, List.cons_append,
            readMultilineBasic_text (closes_of_first hquote _) htext hbackslash, ih _ hfuel']
          rfl
        · rw [hchar, List.singleton_append, List.cons_append, readMultilineBasic_feed, ih _ hfuel']
          rfl

/-! ### Literal strings -/

theorem readMultilineLiteral_text {c : Char} {r : List Char}
    (hcloses : closes '\'' (c :: r) = false) (htext : isTextChar c = true ∨ c = '\n') (fuel : Nat) :
    readMultilineLiteral (fuel + 1) (c :: r)
      = (readMultilineLiteral fuel r).map (pushFront c) := by
  rcases htext with htext | rfl
  · obtain ⟨hfeed, hreturn⟩ := isTextChar_ne htext
    rw [readMultilineLiteral, hcloses, newline?_of_ne hfeed hreturn]
    simp only [Bool.false_eq_true, if_false, if_pos htext]
  · rw [readMultilineLiteral, hcloses]
    rfl

theorem Form.le_longestRun (q : Char) (run : Nat) (cs : List Char) : run ≤ longestRun q run cs := by
  induction cs generalizing run with
  | nil => exact Nat.le_refl run
  | cons c cs ih =>
    rw [longestRun]
    split
    · exact Nat.le_of_succ_le (ih (run + 1))
    · exact Nat.le_max_left _ _

/-- A quote of a string without three in a row is one of the last two, or no third one follows. -/
theorem Form.quotes_of_longestRun {q : Char} {run : Nat} {cs : List Char}
    (h : longestRun q (run + 1) cs ≤ 2) (rest : List Char) :
    (cs = [] ∨ cs = [q]) ∨ closes q (q :: (cs ++ rest)) = false := by
  match cs, h with
  | [], _ => exact .inl (.inl rfl)
  | [d], _ =>
    by_cases hd : d = q
    · exact .inl (.inr (by rw [hd]))
    · exact .inr (closes_of_second hd _)
  | d :: e :: es, h =>
    by_cases hd : d = q
    · subst hd
      have he : e ≠ d := by
        rintro rfl
        have hle := le_longestRun e (run + 1 + 1 + 1) es
        rw [longestRun, if_pos rfl, longestRun, if_pos rfl] at h
        omega
      exact .inr (closes_of_third he _)
    · exact .inr (closes_of_second hd _)

theorem readMultilineLiteral_append {cs rest : List Char} (hrest : ∀ r, rest ≠ '\'' :: r)
    (htext : ∀ c ∈ cs, isTextChar c = true ∨ c = '\n') {run : Nat}
    (hrun : Form.longestRun '\'' run cs ≤ 2) {fuel : Nat} (hfuel : cs.length < fuel) :
    readMultilineLiteral fuel (cs ++ '\'' :: '\'' :: '\'' :: rest) = some (cs, rest) := by
  induction cs generalizing run fuel with
  | nil =>
    match fuel, hfuel with
    | fuel + 1, _ =>
      have hend := closing_replicate (k := 0) (by decide) hrest
      rw [List.nil_append, readMultilineLiteral, closes_three]
      exact congrArg some hend
  | cons c cs ih =>
    match fuel, hfuel with
    | fuel + 1, hfuel =>
      have hfuel' : cs.length < fuel := by
        rw [List.length_cons] at hfuel
        omega
      have hc := htext c List.mem_cons_self
      have htext' : ∀ c ∈ cs, isTextChar c = true ∨ c = '\n' :=
        fun d hd => htext d (List.mem_cons_of_mem _ hd)
      rw [Form.longestRun] at hrun
      rw [List.cons_append]
      by_cases hquote : c = '\''
      · subst hquote
        rw [if_pos rfl] at hrun
        rcases Form.quotes_of_longestRun hrun ('\'' :: '\'' :: '\'' :: rest) with
          (rfl | rfl) | hcloses
        · have hend := closing_replicate (k := 1) (by decide) hrest
          rw [List.nil_append, readMultilineLiteral, closes_three]
          exact congrArg some hend
        · have hend := closing_replicate (k := 2) (by decide) hrest
          rw [List.cons_append, List.nil_append, readMultilineLiteral, closes_three]
          exact congrArg some hend
        · rw [readMultilineLiteral_text hcloses hc, ih htext' hrun hfuel']
          rfl
      · rw [if_neg hquote] at hrun
        have hrun' : Form.longestRun '\'' 0 cs ≤ 2 :=
          Nat.le_trans (Nat.le_max_right _ _) hrun
        rw [readMultilineLiteral_text (closes_of_first hquote _) hc, ih htext' hrun' hfuel']
        rfl

/-! ## All forms -/

namespace Form

theorem isTextChar_of_any {cs : List Char} (h : cs.any isEscapeCode = false) :
    ∀ c ∈ cs, isTextChar c = true ∨ c = '\n' := by
  intro c hc
  have := List.any_eq_false.1 h c hc
  simp only [isEscapeCode, Bool.and_eq_true, Bool.not_eq_true', bne_iff_ne, ne_eq, not_and,
    Classical.not_not] at this
  cases htext : isTextChar c with
  | true => exact .inl rfl
  | false => exact .inr (this htext)

theorem notMem_of_longestRun {q : Char} {run : Nat} {cs : List Char}
    (h : longestRun q run cs = 0) : q ∉ cs := by
  induction cs generalizing run with
  | nil => simp
  | cons c cs ih =>
    rw [longestRun] at h
    split at h
    · have := le_longestRun q (run + 1) cs
      omega
    · next hc =>
      have hrest : longestRun q 0 cs = 0 := by omega
      rw [List.mem_cons, not_or]
      exact ⟨Ne.symm hc, ih hrest⟩

/-- What a string has to be for each form to hold it. -/
def Holds (cs : List Char) : Form → Prop
  | basic => True
  | literal => ∀ c ∈ cs, isTextChar c = true ∧ c ≠ '\''
  | multilineBasic => True
  | multilineLiteral =>
    (∀ c ∈ cs, isTextChar c = true ∨ c = '\n') ∧ longestRun '\'' 0 cs ≤ 2

theorem holds_choose (cs : List Char) : (choose cs).Holds cs := by
  unfold choose
  simp only []
  split
  · trivial
  · split
    · next h =>
      simp only [Bool.and_eq_true, Bool.not_eq_true', beq_iff_eq] at h
      obtain ⟨⟨hescapes, hnewline⟩, hquotes⟩ := h
      intro c hc
      refine ⟨?_, ?_⟩
      · refine (isTextChar_of_any hescapes c hc).resolve_right ?_
        rintro rfl
        simp [hc] at hnewline
      · rintro rfl
        exact notMem_of_longestRun hquotes hc
    · split
      · trivial
      · split
        · next h =>
          simp only [Bool.and_eq_true, Bool.not_eq_true', decide_eq_true_eq] at h
          exact ⟨isTextChar_of_any h.1, h.2⟩
        · split <;> trivial

theorem length_le_writeBasic (multiline : Bool) (run : Nat) (cs : List Char) :
    cs.length ≤ (writeBasic multiline run cs).length := by
  induction cs generalizing run with
  | nil => exact Nat.zero_le _
  | cons c cs ih =>
    by_cases hquote : c = '"'
    · subst hquote
      rw [writeBasic_quote]
      split
      · have := ih (run + 1)
        simp only [List.length_cons]
        omega
      · have := ih 0
        simp only [List.length_cons]
        omega
    · have := ih 0
      rw [writeBasic_cons hquote, List.length_append, List.length_cons]
      rcases basicChar_cases multiline c with ⟨e, es, hchar, -⟩ | ⟨hchar, -⟩ <;>
        rw [hchar] <;> simp only [List.length_cons] <;> omega

/-- The body of a string without a line break does not start with one. -/
theorem skipNewline_writeBody {form : Form} {cs : List Char} (h : form.Holds cs)
    (hform : form.isMultiline = true) (hnewline : '\n' ∉ cs) (rest : List Char) :
    skipNewline (form.writeBody cs ++ (form.delimiter ++ rest))
      = form.writeBody cs ++ (form.delimiter ++ rest) := by
  have hfirst : ∃ x r, form.writeBody cs ++ (form.delimiter ++ rest) = x :: r ∧
      x ≠ '\n' ∧ x ≠ '\r' := by
    cases cs with
    | nil =>
      cases form with
      | basic => cases hform
      | literal => cases hform
      | multilineBasic => exact ⟨'"', _, rfl, by decide, by decide⟩
      | multilineLiteral => exact ⟨'\'', _, rfl, by decide, by decide⟩
    | cons c cs =>
      have hfeed : c ≠ '\n' := fun hc => hnewline (hc ▸ List.mem_cons_self)
      cases form with
      | basic => cases hform
      | literal => cases hform
      | multilineBasic =>
        by_cases hquote : c = '"'
        · subst hquote
          exact ⟨'"', _, rfl, by decide, by decide⟩
        · rw [writeBody, writeBasic_cons hquote]
          rcases basicChar_cases true c with ⟨e, es, hchar, -⟩ | ⟨hchar, -, hreturn, -⟩
          · rw [hchar]
            exact ⟨_, _, rfl, by decide, by decide⟩
          · rw [hchar]
            exact ⟨_, _, rfl, hfeed, hreturn⟩
      | multilineLiteral =>
        have htext := (h.1 c List.mem_cons_self).resolve_right hfeed
        exact ⟨c, _, rfl, isTextChar_ne htext⟩
  obtain ⟨x, r, hx, hfeed, hreturn⟩ := hfirst
  rw [hx]
  unfold skipNewline
  split
  · next h => exact absurd (List.cons.inj h).1 hfeed
  · next h => exact absurd (List.cons.inj h).1 hreturn
  · rfl

end Form

theorem closes_quotes {q : Char} {rest : List Char} (hrest : ∀ r, rest ≠ q :: r) :
    closes q (q :: q :: rest) = false := by
  cases rest with
  | nil => simp [closes]
  | cons c r => exact closes_of_third (fun h => hrest r (by rw [h])) r

/-- A string on one line is not taken for one on several lines. -/
theorem readString_basic (cs : List Char) {rest : List Char} (hrest : NoQuote rest) :
    readString ('"' :: (Form.writeBasic false 0 cs ++ '"' :: rest)) = some (cs, rest) := by
  have hcloses : closes '"' ('"' :: (Form.writeBasic false 0 cs ++ '"' :: rest)) = false := by
    cases cs with
    | nil => exact closes_quotes fun r => (hrest r).1
    | cons c cs =>
      by_cases hquote : c = '"'
      · subst hquote
        exact closes_of_second (by decide) _
      · rw [Form.writeBasic_cons hquote]
        rcases Form.basicChar_cases false c with ⟨e, es, hchar, -⟩ | ⟨hchar, -⟩
        · rw [hchar]
          exact closes_of_second (by decide) _
        · rw [hchar]
          exact closes_of_second hquote _
  unfold readString
  rw [hcloses, closes_of_first (by decide)]
  exact readBasic_writeBasic cs rest 0

theorem readString_literal {cs : List Char} (hcs : ∀ c ∈ cs, isTextChar c = true ∧ c ≠ '\'')
    {rest : List Char} (hrest : NoQuote rest) :
    readString ('\'' :: (cs ++ '\'' :: rest)) = some (cs, rest) := by
  have hcloses : closes '\'' ('\'' :: (cs ++ '\'' :: rest)) = false := by
    cases cs with
    | nil => exact closes_quotes fun r => (hrest r).2
    | cons c cs => exact closes_of_second (hcs c List.mem_cons_self).2 _
  unfold readString
  rw [closes_of_first (by decide), hcloses]
  exact readLiteral_append hcs rest

/-- A string on several lines is read from behind its opening quotes and a line break there. -/
theorem skipNewline_write {form : Form} {cs : List Char} (h : form.Holds cs)
    (hform : form.isMultiline = true) (rest : List Char) :
    skipNewline ((if form.isMultiline && cs.contains '\n' then ['\n'] else []) ++
      (form.writeBody cs ++ (form.delimiter ++ rest)))
      = form.writeBody cs ++ (form.delimiter ++ rest) := by
  rw [hform, Bool.true_and]
  by_cases hnewline : '\n' ∈ cs
  · rw [if_pos (by simpa using hnewline)]
    rfl
  · rw [if_neg (by simpa using hnewline), List.nil_append,
      Form.skipNewline_writeBody h hform hnewline]

/-- A string is read back from its written form, whatever form it has. -/
theorem readString_write {form : Form} {cs : List Char} (h : form.Holds cs) {rest : List Char}
    (hrest : NoQuote rest) : readString (form.write cs ++ rest) = some (cs, rest) := by
  cases form with
  | basic =>
    have := readString_basic cs hrest
    simpa [Form.write, Form.delimiter, Form.isMultiline, Form.writeBody] using this
  | literal =>
    have := readString_literal h hrest
    simpa [Form.write, Form.delimiter, Form.isMultiline, Form.writeBody] using this
  | multilineBasic =>
    have hskip := skipNewline_write h rfl rest
    have hwrite : Form.write .multilineBasic cs ++ rest = '"' :: '"' :: '"' ::
        ((if Form.isMultiline .multilineBasic && cs.contains '\n' then ['\n'] else []) ++
          (Form.writeBody .multilineBasic cs ++ (Form.delimiter .multilineBasic ++ rest))) := by
      simp [Form.write, Form.delimiter]
    have hfuel : cs.length < (Form.write .multilineBasic cs ++ rest).length := by
      have := Form.length_le_writeBasic true 0 cs
      rw [hwrite]
      simp only [List.length_cons, List.length_append, Form.writeBody]
      omega
    unfold readString
    rw [hwrite] at hfuel ⊢
    rw [closes_three]
    simp only [if_true, List.drop_succ_cons, List.drop_zero, hskip]
    exact readMultilineBasic_writeBasic (fun r => (hrest r).1) 0 hfuel
  | multilineLiteral =>
    have hskip := skipNewline_write h rfl rest
    have hwrite : Form.write .multilineLiteral cs ++ rest = '\'' :: '\'' :: '\'' ::
        ((if Form.isMultiline .multilineLiteral && cs.contains '\n' then ['\n'] else []) ++
          (Form.writeBody .multilineLiteral cs ++ (Form.delimiter .multilineLiteral ++ rest))) := by
      simp [Form.write, Form.delimiter]
    have hfuel : cs.length < (Form.write .multilineLiteral cs ++ rest).length := by
      rw [hwrite]
      simp only [List.length_cons, List.length_append, Form.writeBody]
      omega
    unfold readString
    rw [hwrite] at hfuel ⊢
    rw [closes_of_first (by decide), closes_three]
    simp only [Bool.false_eq_true, if_false, if_true, List.drop_succ_cons, List.drop_zero, hskip]
    exact readMultilineLiteral_append (fun r => (hrest r).2) h.1 h.2 hfuel

/-- A string is read back from what is written of it. -/
theorem readString_writeString (cs : List Char) {rest : List Char} (hrest : NoQuote rest) :
    readString (writeString cs ++ rest) = some (cs, rest) :=
  readString_write (Form.holds_choose cs) hrest

end AndroidBoot.Toml
