import AndroidBoot.Proofs.Number.Digits
import AndroidBoot.Toml.Scalar

/-!
# Written integers can be read again

Decimal digits are read back as far as they go, and no moment or float is found in them: behind the
digits stands none of the marks that those go on with.

    readNumeric ((toString n).toList ++ rest) = some (.integer n, rest)      (readNumeric_toString)
      if n fits and rest ends a value
-/

namespace AndroidBoot.Toml

/-- What follows a value: the end of a line or what stands between the items of an array. -/
def Ends (rest : List Char) : Prop := ∃ c r, rest = c :: r ∧ (c = '\n' ∨ c = ',' ∨ c = ']')

/-! ## Digits -/

theorem isDigit_toDigits (n : Nat) : ∀ c ∈ Nat.toDigits 10 n, isDigit 10 c = true := by
  have hdigit : ∀ d < 10, isDigit 10 (Nat.digitChar d) = true := by
    intro d hd
    unfold isDigit
    rw [hexValue?_digitChar (by omega)]
    simpa using hd
  exact forall_mem_toDigits (by decide) hdigit n

/-- Only zero is written with a zero in front. -/
theorem toDigits_head (n : Nat) : ∀ r, Nat.toDigits 10 n = '0' :: r → n = 0 := by
  induction n using Nat.strongRecOn with
  | ind n ih =>
    intro r h
    rw [Nat.toDigits_eq_if (by decide)] at h
    split at h
    · next hn =>
      have hzero : Nat.digitChar n = '0' := (List.cons.inj h).1
      have key : ∀ n < 10, Nat.digitChar n = '0' → n = 0 := by decide
      exact key n hn hzero
    · next hn =>
      have hfront : ∃ r', Nat.toDigits 10 (n / 10) = '0' :: r' := by
        cases hds : Nat.toDigits 10 (n / 10) with
        | nil => exact absurd hds Nat.toDigits_ne_nil
        | cons c cs =>
          rw [hds, List.cons_append] at h
          exact ⟨cs, by rw [(List.cons.inj h).1]⟩
      obtain ⟨r', hr'⟩ := hfront
      have := ih (n / 10) (by omega) r' hr'
      omega

/-! ## Reading digits -/

theorem not_isDigit_of_ends {c : Char} (h : c = '\n' ∨ c = ',' ∨ c = ']') :
    isDigit 10 c = false ∧ c ≠ '_' := by
  rcases h with rfl | rfl | rfl <;> decide

theorem readDigits_append {ds : List Char} (hds : ∀ c ∈ ds, isDigit 10 c = true) (hne : ds ≠ [])
    {rest : List Char} (hrest : Ends rest) : readDigits 10 (ds ++ rest) = some (ds, rest) := by
  obtain ⟨e, r, rfl, he⟩ := hrest
  obtain ⟨hdigit, hunderscore⟩ := not_isDigit_of_ends he
  induction ds with
  | nil => exact absurd rfl hne
  | cons c ds ih =>
    have hc := hds c List.mem_cons_self
    cases ds with
    | nil =>
      rw [List.cons_append, List.nil_append, readDigits, if_pos hc,
        if_neg (by rw [hdigit]; decide)]
      exact hunderscore
    | cons d ds =>
      have hd := hds d (List.mem_cons_of_mem _ List.mem_cons_self)
      have hd' : d ≠ '_' := by
        rintro rfl
        exact absurd hd (by decide)
      have hrest := ih (fun c hc => hds c (List.mem_cons_of_mem _ hc)) (by simp)
      rw [List.cons_append] at hrest
      rw [List.cons_append, List.cons_append, readDigits, if_pos hc, if_pos hd, hrest]
      · rfl
      · exact hd'

theorem readDecimal_toDigits (n : Nat) {rest : List Char} (hrest : Ends rest) :
    readDecimal (Nat.toDigits 10 n ++ rest) = some (Nat.toDigits 10 n, rest) := by
  by_cases hn : n = 0
  · subst hn
    rfl
  · have hne := Nat.toDigits_ne_nil (b := 10) (n := n)
    have hdigits := readDigits_append (isDigit_toDigits n) hne hrest
    unfold readDecimal
    split
    · next r heq =>
      exfalso
      cases hds : Nat.toDigits 10 n with
      | nil => exact hne hds
      | cons c cs =>
        rw [hds, List.cons_append] at heq
        exact hn (toDigits_head n cs (by rw [hds, (List.cons.inj heq).1]))
    · exact hdigits

/-! ## No moments -/

/-- Whatever has a value is made of digits. -/
theorem isSome_of_digitsValue? {base n : Nat} {ds : List Char}
    (h : digitsValue? base ds = some n) : ∀ c ∈ ds, (hexValue? c).isSome = true := by
  have key : ∀ (ds : List Char) (m n : Nat), ds.foldlM (fun n c => do
      let d ← hexValue? c
      if d < base then some (n * base + d) else none) m = some n →
        ∀ c ∈ ds, (hexValue? c).isSome = true := by
    intro ds
    induction ds with
    | nil => intro m n _ c hc; simp at hc
    | cons d ds ih =>
      intro m n h c hc
      rw [List.foldlM_cons] at h
      cases hvalue : hexValue? d with
      | none => rw [hvalue] at h; cases h
      | some v =>
        rcases List.mem_cons.1 hc with rfl | hc
        · rw [hvalue]
          rfl
        · rw [hvalue] at h
          obtain ⟨k, -, hk⟩ := Option.bind_eq_some_iff.1 h
          exact ih k n hk c hc
  exact key ds 0 n h

theorem readFixed_eq_some {width n : Nat} {cs r : List Char}
    (h : readFixed width cs = some (n, r)) :
    r = cs.drop width ∧ ∀ c ∈ cs.take width, (hexValue? c).isSome = true := by
  unfold readFixed at h
  split at h
  · cases h
  · obtain ⟨m, hm, heq⟩ := Option.map_eq_some_iff.1 h
    obtain ⟨-, rfl⟩ := Prod.mk.inj heq
    exact ⟨rfl, isSome_of_digitsValue? hm⟩

theorem readFixed_of_sign {width : Nat} (hwidth : 0 < width) (r : List Char) :
    readFixed width ('-' :: r) = none := by
  cases h : readFixed width ('-' :: r) with
  | none => rfl
  | some p =>
    obtain ⟨n, r'⟩ := p
    have hmem : '-' ∈ ('-' :: r).take width := by
      obtain ⟨w, rfl⟩ : ∃ w, width = w + 1 := ⟨width - 1, by omega⟩
      exact List.mem_cons_self
    exact absurd ((readFixed_eq_some h).2 '-' hmem) (by decide)

/-- The mark of a moment does not follow digits of a number that ends a value. -/
theorem expect_of_readFixed {width n : Nat} {ds rest r : List Char} {mark : Char}
    (hds : ∀ c ∈ ds, isDigit 10 c = true) (hrest : Ends rest)
    (hmark : mark = '-' ∨ mark = ':') (h : readFixed width (ds ++ rest) = some (n, r)) :
    expect mark r = none := by
  obtain ⟨e, r', rfl, he⟩ := hrest
  obtain ⟨rfl, hhex⟩ := readFixed_eq_some h
  have hdigit : isDigit 10 mark = false := by rcases hmark with rfl | rfl <;> decide
  have hend : e ≠ mark := by
    rintro rfl
    rcases hmark with rfl | rfl <;> simp at he
  have hshort : width ≤ ds.length := by
    apply Nat.le_of_not_lt
    intro hlt
    have hmem : e ∈ (ds ++ e :: r').take width := by
      rw [List.take_append, List.mem_append]
      obtain ⟨k, hk⟩ : ∃ k, width - ds.length = k + 1 := ⟨width - ds.length - 1, by omega⟩
      exact .inr (by rw [hk]; exact List.mem_cons_self)
    exact absurd (hhex e hmem) (by rcases he with rfl | rfl | rfl <;> decide)
  rw [List.drop_append_of_le_length hshort]
  cases hdrop : ds.drop width with
  | nil => exact if_neg hend
  | cons d ds' =>
    have hd : isDigit 10 d = true := hds d (List.mem_of_mem_drop (by rw [hdrop]; simp))
    refine if_neg ?_
    rintro rfl
    rw [hdigit] at hd
    cases hd

theorem skipMoment?_of_digits {ds rest : List Char} (hds : ∀ c ∈ ds, isDigit 10 c = true)
    (hrest : Ends rest) : skipMoment? (ds ++ rest) = none := by
  have hdate : skipDate? (ds ++ rest) = none := by
    unfold skipDate?
    cases h : readFixed 4 (ds ++ rest) with
    | none => rfl
    | some p =>
      have := expect_of_readFixed hds hrest (.inl rfl) (h : _ = some (p.1, p.2))
      simp only [Option.bind_eq_bind, Option.bind_some, this, Option.bind_none]
  have htime : skipTime? (ds ++ rest) = none := by
    unfold skipTime? skipClock?
    cases h : readFixed 2 (ds ++ rest) with
    | none => rfl
    | some p =>
      have := expect_of_readFixed hds hrest (.inr rfl) (h : _ = some (p.1, p.2))
      simp only [Option.bind_eq_bind, Option.bind_some, this, Option.bind_none]
  unfold skipMoment?
  rw [hdate, htime]

theorem skipMoment?_of_sign (r : List Char) : skipMoment? ('-' :: r) = none := by
  have hdate : skipDate? ('-' :: r) = none := by
    unfold skipDate?
    rw [readFixed_of_sign (by decide)]
    rfl
  have htime : skipTime? ('-' :: r) = none := by
    unfold skipTime? skipClock?
    rw [readFixed_of_sign (by decide)]
    rfl
  unfold skipMoment?
  rw [hdate, htime]

/-! ## No floats -/

theorem readExponent_of_ends {rest : List Char} (hrest : Ends rest) : readExponent rest = none := by
  obtain ⟨e, r, rfl, he⟩ := hrest
  rcases he with rfl | rfl | rfl <;> rfl

/-- A digit is neither a sign nor a letter. -/
theorem toDigits_cons (n : Nat) : ∃ c cs, Nat.toDigits 10 n = c :: cs ∧ isDigit 10 c = true := by
  cases h : Nat.toDigits 10 n with
  | nil => exact absurd h Nat.toDigits_ne_nil
  | cons c cs => exact ⟨c, cs, rfl, isDigit_toDigits n c (by rw [h]; exact List.mem_cons_self)⟩

theorem isDigit_ne {c d : Char} (hc : isDigit 10 c = true) (hd : isDigit 10 d = false) : c ≠ d := by
  rintro rfl
  rw [hc] at hd
  cases hd

theorem readSign_of_digit {c : Char} (hc : isDigit 10 c = true) (r : List Char) :
    readSign (c :: r) = (false, c :: r) := by
  unfold readSign
  split
  · next heq => exact absurd (List.cons.inj heq).1 (isDigit_ne hc (by decide))
  · next heq => exact absurd (List.cons.inj heq).1 (isDigit_ne hc (by decide))
  · rfl

/-- Behind a decimal number that ends a value there is no float. -/
theorem skipFloat?_of_toDigits {cs rest : List Char} {negative : Bool} {n : Nat}
    (hcs : readSign cs = (negative, Nat.toDigits 10 n ++ rest)) (hrest : Ends rest) :
    skipFloat? cs = none := by
  have hdecimal := readDecimal_toDigits n hrest
  obtain ⟨c, ds, hds, hc⟩ := toDigits_cons n
  unfold skipFloat?
  rw [hcs]
  simp only []
  split
  · next heq =>
    rw [hds] at heq
    exact absurd (List.cons.inj heq).1 (isDigit_ne hc (by decide))
  · next heq =>
    rw [hds] at heq
    exact absurd (List.cons.inj heq).1 (isDigit_ne hc (by decide))
  · rw [hdecimal]
    simp only [Option.bind_eq_bind, Option.bind_some]
    have hexponent := readExponent_of_ends hrest
    obtain ⟨e, r, rfl, he⟩ := hrest
    split
    · next heq =>
      obtain ⟨rfl, -⟩ := List.cons.inj heq
      simp at he
    · rw [hexponent, Option.bind_none]

/-! ## Integers -/

/-- The mark of a base does not follow a zero that ends a value. -/
theorem readInteger_of_toDigits {cs rest : List Char} {negative : Bool} {n : Nat}
    (hcs : readSign cs = (negative, Nat.toDigits 10 n ++ rest))
    (hfront : cs = Nat.toDigits 10 n ++ rest ∨ ∃ r, cs = '-' :: r) (hrest : Ends rest)
    (hrange : integerMin ≤ signed negative n ∧ signed negative n ≤ integerMax) :
    readInteger cs = some (signed negative n, rest) := by
  have hmark : ∀ c r, cs = '0' :: c :: r → c ≠ 'x' ∧ c ≠ 'o' ∧ c ≠ 'b' := by
    rintro c r rfl
    rcases hfront with hfront | ⟨r', hfront⟩
    · obtain ⟨d, ds, hds, hd⟩ := toDigits_cons n
      rw [hds, List.cons_append] at hfront
      have hzero : n = 0 := toDigits_head n ds (by rw [hds, (List.cons.inj hfront).1])
      subst hzero
      obtain ⟨e, r'', rfl, he⟩ := hrest
      have hds' : ds = [] := (List.cons.inj hds).2.symm
      subst hds'
      obtain rfl := (List.cons.inj (List.cons.inj hfront).2).1
      rcases he with rfl | rfl | rfl <;> decide
    · exact absurd (List.cons.inj hfront).1 (by decide)
  unfold readInteger
  simp only []
  split
  · exact absurd rfl (hmark _ _ rfl).1
  · exact absurd rfl (hmark _ _ rfl).2.1
  · exact absurd rfl (hmark _ _ rfl).2.2
  · rw [hcs]
    simp only [readDecimal_toDigits n hrest, digitsValue?_toDigits (by decide : 1 < 10) (by decide),
      Option.bind_eq_bind, Option.bind_some, inRange?, if_pos hrange]
    rfl

theorem toList_toString (n : Int) :
    (toString n).toList =
      if 0 ≤ n then Nat.toDigits 10 n.toNat else '-' :: Nat.toDigits 10 (-n).toNat := by
  rw [Int.toString_eq_repr, Int.repr_eq_if]
  split
  · rw [Nat.toList_repr]
  · rw [String.toList_append, Nat.toList_repr]
    rfl

theorem readNumeric_toString {n : Int} (hn : integerMin ≤ n ∧ n ≤ integerMax) {rest : List Char}
    (hrest : Ends rest) : readNumeric ((toString n).toList ++ rest) = some (.integer n, rest) := by
  rw [toList_toString]
  split
  · next h =>
    have hsigned : signed false n.toNat = n := by
      show (n.toNat : Int) = n
      omega
    have hsign : readSign (Nat.toDigits 10 n.toNat ++ rest)
        = (false, Nat.toDigits 10 n.toNat ++ rest) := by
      obtain ⟨c, cs, hcs, hc⟩ := toDigits_cons n.toNat
      rw [hcs, List.cons_append, readSign_of_digit hc]
    have hinteger := readInteger_of_toDigits hsign (.inl rfl) hrest (by rw [hsigned]; exact hn)
    unfold readNumeric
    rw [skipMoment?_of_digits (isDigit_toDigits _) hrest, skipFloat?_of_toDigits hsign hrest,
      hinteger, hsigned]
    rfl
  · next h =>
    have hsigned : signed true (-n).toNat = n := by
      show -((-n).toNat : Int) = n
      omega
    have hsign : readSign ('-' :: (Nat.toDigits 10 (-n).toNat ++ rest))
        = (true, Nat.toDigits 10 (-n).toNat ++ rest) := rfl
    have hinteger := readInteger_of_toDigits hsign (.inr ⟨_, rfl⟩) hrest
      (by rw [hsigned]; exact hn)
    unfold readNumeric
    rw [List.cons_append, skipMoment?_of_sign, skipFloat?_of_toDigits hsign hrest, hinteger,
      hsigned]
    rfl

end AndroidBoot.Toml
