import AndroidBoot.Proofs.Text.Utf8
import AndroidBoot.Text.Escaped

/-!
# Escaped fields can be read again

Each piece of a byte string is read back from its escaped text, whatever follows it. The text has
only characters that can be seen.

    unescape (escape bs) = bs                                                (unescape_escape)
    unescapeField n (escapeField v) = .ok v                        (unescapeField_escapeField)
    unescapeField n s = .error e  if s stands for more than n bytes
                                                                  (unescapeField_eq_error_iff)
-/

namespace AndroidBoot

namespace Escaped

theorem hexValue?_upperDigit {n : Nat} (h : n < 16) : hexValue? (upperDigit n) = some n := by
  have : ∀ n < 16, hexValue? (upperDigit n) = some n := by decide
  exact this n h

theorem unescape_byteEscape (b : UInt8) (rest : List Char) :
    unescape (byteEscape b ++ rest) = b :: unescape rest := by
  have hb := b.toNat_lt
  have hhigh := hexValue?_upperDigit (n := b.toNat / 16) (by omega)
  have hlow := hexValue?_upperDigit (n := b.toNat % 16) (by omega)
  have hsum : b.toNat / 16 * 16 + b.toNat % 16 = b.toNat := by omega
  rw [byteEscape, List.cons_append, List.cons_append, List.cons_append, List.cons_append,
    List.nil_append, unescape, hhigh, hlow]
  simp only [hsum, UInt8.ofNat_toNat]

theorem unescape_cons {c : Char} (hc : c ≠ '\\') (rest : List Char) :
    unescape (c :: rest) = String.utf8EncodeChar c ++ unescape rest := by
  rw [unescape]
  all_goals
    intros
    simp_all

/-- A piece is read back from its escaped text. -/
theorem unescape_escapePiece (p : Utf8.Piece) (rest : List Char) :
    unescape (escapePiece p ++ rest) = p.bytes ++ unescape rest := by
  cases p with
  | stray b => exact unescape_byteEscape b rest
  | char c =>
    have hval : c.val.toNat = c.toNat := rfl
    rw [escapePiece]
    split
    · next h => subst h; rfl
    · split
      · next h => subst h; rfl
      · split
        · next h => subst h; rfl
        · split
          · next h => subst h; rfl
          · split
            · next h => subst h; rfl
            · next hbackslash =>
              split
              · next hcontrol =>
                rw [unescape_byteEscape, Utf8.Piece.bytes, String.utf8EncodeChar]
                simp only [hval]
                rw [if_pos (by omega)]
                rfl
              · exact unescape_cons hbackslash rest

theorem unescape_escape (bs : Bytes) : unescape (escape bs) = bs := by
  have hpieces : ∀ ps : List Utf8.Piece,
      unescape (ps.flatMap escapePiece) = ps.flatMap Utf8.Piece.bytes := by
    intro ps
    induction ps with
    | nil => rfl
    | cons p ps ih => rw [List.flatMap_cons, unescape_escapePiece, ih, List.flatMap_cons]
  rw [escape, hpieces, Utf8.flatMap_bytes_pieces]

/-! ## Characters of escaped texts -/

/-- Neither a blank nor a control character of ASCII. -/
def IsVisible (c : Char) : Prop := 0x20 < c.toNat ∧ c.toNat ≠ 0x7F

instance (c : Char) : Decidable (IsVisible c) := inferInstanceAs (Decidable (_ ∧ _))

theorem isVisible_upperDigit {n : Nat} (h : n < 16) : IsVisible (upperDigit n) := by
  have : ∀ n < 16, IsVisible (upperDigit n) := by decide
  exact this n h

theorem isVisible_of_mem_byteEscape {b : UInt8} : ∀ c ∈ byteEscape b, IsVisible c := by
  have hb := b.toNat_lt
  simp only [byteEscape, List.forall_mem_cons]
  exact ⟨by decide, by decide, isVisible_upperDigit (by omega), isVisible_upperDigit (by omega),
    List.forall_mem_nil _⟩

theorem isVisible_of_mem_letterEscape {letter : Char} (h : IsVisible letter) :
    ∀ c ∈ ['\\', letter], IsVisible c :=
  List.forall_mem_cons.2 ⟨by decide, List.forall_mem_singleton.2 h⟩

theorem isVisible_of_mem_escapePiece (p : Utf8.Piece) : ∀ c ∈ escapePiece p, IsVisible c := by
  cases p with
  | stray b => exact isVisible_of_mem_byteEscape
  | char c =>
    rw [escapePiece]
    -- The five characters that have a letter of their own.
    iterate 5
      split
      · exact isVisible_of_mem_letterEscape (by decide)
    split
    · exact isVisible_of_mem_byteEscape
    · next hvisible =>
      rw [List.forall_mem_singleton]
      exact ⟨by omega, by omega⟩

theorem isVisible_of_mem_escape (bs : Bytes) : ∀ c ∈ escape bs, IsVisible c := by
  intro c hc
  obtain ⟨p, -, hp⟩ := List.mem_flatMap.1 hc
  exact isVisible_of_mem_escapePiece p c hp

end Escaped

/-! ## Fields -/

theorem unescapeField_escapeField {n : Nat} (v : Vector UInt8 n) :
    unescapeField n (escapeField v) = .ok v := by
  unfold unescapeField escapeField
  rw [String.toList_ofList, Escaped.unescape_escape]
  simp only [Bytes.padTo?_trimZeros]

theorem escapeField_injective (n : Nat) : Function.Injective (escapeField (n := n)) := by
  intro v w heq
  have hread := unescapeField_escapeField w
  rw [← heq, unescapeField_escapeField] at hread
  exact Except.ok.inj hread

theorem isVisible_of_mem_escapeField {n : Nat} (v : Vector UInt8 n) :
    ∀ c ∈ (escapeField v).toList, Escaped.IsVisible c := by
  rw [escapeField, String.toList_ofList]
  exact Escaped.isVisible_of_mem_escape _

theorem unescapeField_of_lt {n : Nat} {s : String} (h : n < (Escaped.unescape s.toList).length) :
    unescapeField n s = .error ⟨(Escaped.unescape s.toList).length, n⟩ := by
  unfold unescapeField
  simp only [Bytes.padTo?_eq_none_iff.2 h]

theorem unescapeField_of_le {n : Nat} {s : String} (h : (Escaped.unescape s.toList).length ≤ n) :
    unescapeField n s = .ok (Bytes.field n (Escaped.unescape s.toList)) := by
  unfold unescapeField
  simp only [Bytes.padTo?, if_pos h]

theorem unescapeField_eq_error_iff {n : Nat} {s : String} {e : FieldTooLong} :
    unescapeField n s = .error e ↔ n < (Escaped.unescape s.toList).length ∧
      e = ⟨(Escaped.unescape s.toList).length, n⟩ := by
  by_cases hlong : n < (Escaped.unescape s.toList).length
  · rw [unescapeField_of_lt hlong, Except.error.injEq, eq_comm, and_iff_right hlong]
  · rw [unescapeField_of_le (Nat.le_of_not_lt hlong)]
    exact iff_of_false nofun fun h => hlong h.1

/-- **Escaped fields.** The text of a field is read back as this field, so that two fields never
share a text, and it can be seen in full: it has no blank and no control character of ASCII. A text
is refused exactly if it stands for more bytes than the field has, with the number of these bytes;
every other text is a field, filled up with zeros, that is itself read back from its own text. -/
theorem escapedFields_lossless :
    (∀ (n : Nat) (v : Vector UInt8 n), unescapeField n (escapeField v) = .ok v) ∧
    (∀ n : Nat, Function.Injective (escapeField (n := n))) ∧
    (∀ (n : Nat) (v : Vector UInt8 n), ∀ c ∈ (escapeField v).toList,
      0x20 < c.toNat ∧ c.toNat ≠ 0x7F) ∧
    (∀ (n : Nat) (s : String) (e : FieldTooLong), unescapeField n s = .error e ↔
      n < (Escaped.unescape s.toList).length ∧ e = ⟨(Escaped.unescape s.toList).length, n⟩) ∧
    ∀ (n : Nat) (s : String), (Escaped.unescape s.toList).length ≤ n →
      ∃ v : Vector UInt8 n, unescapeField n s = .ok v ∧
        v.toList = Escaped.unescape s.toList
          ++ Bytes.zeros (n - (Escaped.unescape s.toList).length) ∧
        unescapeField n (escapeField v) = .ok v := by
  refine ⟨fun n v => unescapeField_escapeField v, escapeField_injective,
    fun n v => isVisible_of_mem_escapeField v, fun n s e => unescapeField_eq_error_iff,
    fun n s hfits => ⟨Bytes.field n _, unescapeField_of_le hfits, ?_, unescapeField_escapeField _⟩⟩
  rw [Bytes.toList_field, Bytes.resize, List.take_of_length_le hfits]

end AndroidBoot
