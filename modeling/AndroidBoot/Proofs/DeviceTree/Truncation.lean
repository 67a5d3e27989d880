import Mathlib.Data.List.Infix
import AndroidBoot.Proofs.DeviceTree.Turns

/-!
# Trees that are cut short

A walk over the front of a block does what the walk over the whole block does, turn by turn, until
it needs a byte that is not there any more. Then it says so. It never takes a missing byte for
something else: neither for the end of the tree nor for a value.

    rest <+: rest' → readToken offset rest agrees with readToken offset rest'
    a turn over the front is the same turn or ends with `truncated`            (turn_of_cutOf)
    t.lookup path name = t'.lookup path name ∨ t.lookup path name = .error (.truncated _)
                                                                               (lookup_of_cut)
-/

namespace AndroidBoot.DeviceTree

/-- `r` is the same as `r'`, or the error for bytes that are missing. -/
def SameOrTruncated {α : Type} (r r' : Except DeviceTreeError α) : Prop :=
  r = r' ∨ ∃ part, r = .error (.truncated part)

namespace SameOrTruncated

variable {α β : Type}

theorem refl (r : Except DeviceTreeError α) : SameOrTruncated r r := .inl rfl

theorem truncated (part : String) (r' : Except DeviceTreeError α) :
    SameOrTruncated (.error (.truncated part)) r' := .inr ⟨part, rfl⟩

theorem bind {r r' : Except DeviceTreeError α} {f f' : α → Except DeviceTreeError β}
    (h : SameOrTruncated r r') (hf : ∀ a, SameOrTruncated (f a) (f' a)) :
    SameOrTruncated (r >>= f) (r' >>= f') := by
  rcases h with rfl | ⟨part, rfl⟩
  · cases r with
    | error e => exact refl _
    | ok a => exact hf a
  · exact truncated part _

end SameOrTruncated

/-! ## Reads -/

theorem readWord_of_front {rest rest' : Bytes} (h : rest <+: rest') (part : String) :
    SameOrTruncated (readWord rest part) (readWord rest' part) := by
  cases hread : Codec.wordBE.decode? rest with
  | none =>
    rw [readWord, hread]
    exact .truncated part _
  | some n =>
    -- the word takes four bytes, which are the first of both
    obtain ⟨more, rfl⟩ := h
    have hword : rest = Codec.wordBE.encode n ++ rest.drop 4 := by
      rw [Codec.wordBE.encode_of_decode? hread]
      exact (List.take_append_drop 4 rest).symm
    have hread' : Codec.wordBE.decode? (rest ++ more) = some n := by
      rw [hword, List.append_assoc, Codec.wordBE.decode?_encode_append]
    rw [readWord, readWord, hread, hread']
    exact .refl _

theorem readName_of_front {rest rest' : Bytes} (h : rest <+: rest') (part : String) :
    SameOrTruncated (readName rest part) (readName rest' part) := by
  by_cases hzero : 0 ∈ rest
  · obtain ⟨more, rfl⟩ := h
    obtain ⟨node, after, rfl, hnode⟩ := List.eq_append_cons_of_mem hzero
    rw [List.append_assoc, List.cons_append, readName_append hnode, readName_append hnode]
    exact .refl _
  · rw [readName, if_neg (by rwa [List.contains_iff_mem])]
    exact .truncated part _

theorem slice?_of_front {rest rest' bs : Bytes} {start stop : Nat} (h : rest <+: rest')
    (hslice : Bytes.slice? rest start stop = some bs) :
    Bytes.slice? rest' start stop = some bs := by
  obtain ⟨more, rfl⟩ := h
  have hstop := (Bytes.slice?_eq_some_iff.1 hslice).2.1
  have hle : rest.length ≤ (rest ++ more).length := by simp
  have htake := @Bytes.slice?_take (rest ++ more) start stop rest.length hstop hle
  rw [← htake, List.take_left]
  exact hslice

/-- A token is read as it is or, if the front ends within it, not at all. -/
theorem readToken_of_front {rest rest' : Bytes} (h : rest <+: rest') (offset : Nat) :
    SameOrTruncated (readToken offset rest) (readToken offset rest') := by
  unfold readToken
  refine .bind (readWord_of_front h "token") fun code => ?_
  generalize code.toNat = n
  split
  · exact .bind (readName_of_front (h.drop 4) "node name") fun _ => .refl _
  · exact .refl _
  · refine .bind (readWord_of_front (h.drop 4) "property length") fun size => ?_
    refine .bind (readWord_of_front (h.drop 8) "property name") fun nameOffset => ?_
    cases hslice : Bytes.slice? rest 12 (12 + size.toNat) with
    | none => exact .truncated "property value" _
    | some value =>
      rw [slice?_of_front h hslice]
      exact .refl _
  · exact .refl _
  · exact .refl _
  · exact .refl _

/-! ## Walks -/

namespace Walk

/-- `w` is the walk `w'` over a block that has been cut short. -/
structure CutOf (w w' : Walk) : Prop where
  offset_eq : w.offset = w'.offset
  rest_front : w.rest <+: w'.rest
  position_eq : w.position = w'.position

variable {names : Bytes} {parts : List Bytes} {name : Bytes}

theorem CutOf.past {w w' : Walk} (h : w.CutOf w') (size : Nat) (p : Position) :
    (w.past size p).CutOf (w'.past size p) :=
  ⟨congrArg (· + size) h.offset_eq, h.rest_front.drop size, rfl⟩

/-- With the same token both walks end with one result, or both go on. -/
theorem CutOf.take {w w' : Walk} (h : w.CutOf w') (size : Nat) (token : Token) :
    (∃ r, w.take names parts name size token = .ends r ∧
        w'.take names parts name size token = .ends r) ∨
      ∃ p, w.take names parts name size token = .goesOn (w.past size p) ∧
        w'.take names parts name size token = .goesOn (w'.past size p) := by
  cases token with
  | beginNode node =>
    refine .inr ⟨w.position.enter parts node, rfl, ?_⟩
    rw [Walk.take, h.position_eq]
  | endNode =>
    rw [Walk.take, Walk.take, ← h.position_eq, ← h.offset_eq]
    by_cases hdepth : w.position.depth = 0
    · rw [if_pos hdepth, if_pos hdepth]
      exact .inl ⟨_, rfl, rfl⟩
    · rw [if_neg hdepth, if_neg hdepth]
      exact .inr ⟨_, rfl, rfl⟩
  | property nameOffset value =>
    rw [Walk.take, Walk.take, ← h.position_eq]
    by_cases htarget : w.position.atTarget parts = true
    · rw [if_pos htarget, if_pos htarget]
      cases readName (names.drop nameOffset) "property name" with
      | error e => exact .inl ⟨_, rfl, rfl⟩
      | ok label =>
        by_cases hname : label = name
        · exact .inl ⟨_, if_pos hname, if_pos hname⟩
        · exact .inr ⟨_, if_neg hname, if_neg hname⟩
    · rw [if_neg htarget, if_neg htarget]
      exact .inr ⟨_, rfl, rfl⟩
  | nop =>
    refine .inr ⟨w.position, rfl, ?_⟩
    rw [Walk.take, h.position_eq]
  | stop => exact .inl ⟨_, rfl, rfl⟩

/-- A turn over the front is a turn over the whole block, unless bytes are missing. -/
theorem turn_of_cutOf {w w' : Walk} (h : w.CutOf w') :
    (∃ part, w.turn names parts name = .ends (.error (.truncated part))) ∨
      (∃ r, w.turn names parts name = .ends r ∧ w'.turn names parts name = .ends r) ∨
      ∃ v v', w.turn names parts name = .goesOn v ∧ w'.turn names parts name = .goesOn v' ∧
        v.CutOf v' := by
  have hread := readToken_of_front h.rest_front w.offset
  rcases hread with hsame | ⟨part, htruncated⟩
  · cases htoken : readToken w.offset w.rest with
    | error e =>
      refine .inr (.inl ⟨.error e, ?_, ?_⟩)
      · rw [turn, htoken]
      · rw [turn, ← h.offset_eq, ← hsame, htoken]
    | ok t =>
      obtain ⟨token, size⟩ := t
      rw [htoken, h.offset_eq] at hsame
      rw [turn_of_token htoken, turn_of_token hsame.symm]
      rcases h.take size token with hends | ⟨p, hgoes, hgoes'⟩
      · exact .inr (.inl hends)
      · exact .inr (.inr ⟨_, _, hgoes, hgoes', h.past size p⟩)
  · exact .inl ⟨part, by rw [turn, htruncated]⟩

/-- The same holds of all turns together. -/
theorem CutOf.result {w w' : Walk} (h : w.CutOf w') :
    SameOrTruncated (w.result names parts name) (w'.result names parts name) := by
  induction hlength : w.rest.length using Nat.strongRecOn generalizing w w' with
  | ind length ih =>
    rcases turn_of_cutOf h with ⟨part, hends⟩ | ⟨r, hends, hends'⟩ | ⟨v, v', hgoes, hgoes', hcut⟩
    · rw [result_of_ends hends]
      exact .truncated part _
    · rw [result_of_ends hends, result_of_ends hends']
      exact .refl r
    · have hshorter := length_of_goesOn hgoes
      rw [result_of_goesOn hgoes, result_of_goesOn hgoes']
      exact ih v.rest.length (by omega) hcut rfl

end Walk

/-- **Trees that are cut short.** Looking up in a tree whose tokens have been cut off anywhere gives
the same as in the whole tree, or says that bytes are missing. So a property that is there is
neither passed over nor read with another value. -/
theorem lookup_of_cut {t t' : DeviceTree} (hnames : t.names = t'.names)
    (htokens : t.tokens <+: t'.tokens) (path name : String) :
    (t.lookup path name = t'.lookup path name ∨
      ∃ part, t.lookup path name = .error (.truncated part)) ∧
    (∀ value, t'.lookup path name = .ok (some value) →
      t.lookup path name ≠ .ok none ∧
      ∀ value', t.lookup path name = .ok (some value') → value' = value) := by
  have hcut : (Walk.start t.tokens).CutOf (.start t'.tokens) := ⟨rfl, htokens, rfl⟩
  have hresult : SameOrTruncated (t.lookup path name) (t'.lookup path name) := by
    rw [lookup_eq_result, lookup_eq_result, hnames]
    exact hcut.result
  refine ⟨hresult, fun value hvalue => ?_⟩
  rcases hresult with hsame | ⟨part, htruncated⟩
  · rw [hsame, hvalue]
    refine ⟨nofun, ?_⟩
    rintro value' ⟨⟩
    rfl
  · rw [htruncated]
    exact ⟨nofun, nofun⟩

/-- A tree with the node `memory@0` in its root, which has the property `reg`. -/
def memoryTree : DeviceTree where
  tokens :=
    [0, 0, 0, 1, 0, 0, 0, 0,
      0, 0, 0, 1, 109, 101, 109, 111, 114, 121, 64, 48, 0, 0, 0, 0,
      0, 0, 0, 3, 0, 0, 0, 4, 0, 0, 0, 0, 1, 2, 3, 4,
      0, 0, 0, 2, 0, 0, 0, 2, 0, 0, 0, 9]
  names := [114, 101, 103, 0]
  version := 17

/-- The same tree, cut off within the value. -/
def cutTree : DeviceTree := { memoryTree with tokens := memoryTree.tokens.take 38 }

/-- A property that is cut off in its value is not taken for one that is not there. -/
theorem lookup_of_cut_value :
    cutTree.names = memoryTree.names ∧ cutTree.tokens <+: memoryTree.tokens ∧
    memoryTree.lookup "memory" "reg" = .ok (some [1, 2, 3, 4]) ∧
    cutTree.lookup "memory" "reg" ≠ .ok none ∧
    cutTree.lookup "memory" "reg" = .error (.truncated "property value") := by
  have hnames : cutTree.names = memoryTree.names := rfl
  have hcut : cutTree.tokens <+: memoryTree.tokens := List.take_prefix 38 _
  have hvalue : memoryTree.lookup "memory" "reg" = .ok (some [1, 2, 3, 4]) := by rfl
  obtain ⟨-, hpresent⟩ := lookup_of_cut hnames hcut "memory" "reg"
  exact ⟨hnames, hcut, hvalue, (hpresent _ hvalue).1, by rfl⟩

end AndroidBoot.DeviceTree
