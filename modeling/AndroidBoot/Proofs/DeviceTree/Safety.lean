import AndroidBoot.Proofs.DeviceTree.Turns

/-!
# Looking up in any bytes

A blob comes from outside, and so do the offsets and lengths in it. Reading it gives two blocks that
lie in the blob, whatever it says. A walk over any block takes a turn for every four bytes at most,
and one more. On the way it keeps its two numbers apart from each other and from the path, so that
it never takes one number from a smaller one and never looks for a part that the path does not have.

    DeviceTree.read data = .ok t → t.tokens and t.names lie in the first totalSize bytes
    Reaches tokens n w → w.position.Within parts                             (Reaches.within)
    p.enter? parts node = some (p.enter parts node), p.leave? = some p.leave if 0 < p.depth
    a walk that ends with a value is in front of the token that declares it (Reaches.declares)
-/

namespace AndroidBoot.DeviceTree

/-- The blocks lie in the part of the data that is the blob, where the header says. -/
structure LiesIn (t : DeviceTree) (h : Header) (data : Bytes) : Prop where
  total : h.totalSize.toNat ≤ data.length
  tokens : Bytes.slice? (data.take h.totalSize.toNat) h.tokensOffset.toNat
    (h.tokensOffset.toNat + h.tokensLength) = some t.tokens
  names : Bytes.slice? (data.take h.totalSize.toNat) h.namesOffset.toNat
    (h.namesOffset.toNat + h.namesSize.toNat) = some t.names

/-- The token of a property at an offset, with its value in one piece behind it. -/
structure Declares (tokens : Bytes) (offset : Nat) (value : Bytes) : Prop where
  code : Bytes.slice? tokens offset (offset + 4) = some (Bytes.ofWordBE 3)
  size : ∃ size : UInt32, size.toNat = value.length ∧
    Bytes.slice? tokens (offset + 4) (offset + 8) = some (Bytes.ofWordBE size)
  value : Bytes.slice? tokens (offset + 12) (offset + 12 + value.length) = some value

/-- Looking up comes to this walk after `n` tokens. -/
def Passes (t : DeviceTree) (path name : String) (n : Nat) (w : Walk) : Prop :=
  w.Reaches t.names (pathParts path) (Utf8.encode name) t.tokens n

/-- What looking up does with the token at the front of a walk. -/
def turn (t : DeviceTree) (path name : String) (w : Walk) : Turn :=
  w.turn t.names (pathParts path) (Utf8.encode name)

/-! ## Positions -/

/-- The difference of two numbers, if it is not below zero. -/
def minus? (a b : Nat) : Option Nat := if b ≤ a then some (a - b) else none

namespace Position

/-- No more parts match than there are, and no more than there are nodes below the root. -/
structure Within (p : Position) (parts : List Bytes) : Prop where
  le_length : p.matched ≤ parts.length
  outside : p.depth = 0 → p.matched = 0
  inside : p.depth ≠ 0 → p.matched ≤ p.depth - 1

/-- `enter` where a number below zero and a part that is not there are failures. -/
def enter? (p : Position) (parts : List Bytes) (node : Bytes) : Option Position :=
  if 2 ≤ p.depth + 1 then do
    let above ← minus? (p.depth + 1) 2
    if p.matched = above ∧ p.matched < parts.length then
      let part ← parts[p.matched]?
      return if isNamedBy node part then ⟨p.depth + 1, p.matched + 1⟩
        else ⟨p.depth + 1, p.matched⟩
    else return ⟨p.depth + 1, p.matched⟩
  else return ⟨p.depth + 1, p.matched⟩

/-- `leave` where a number below zero is a failure. -/
def leave? (p : Position) : Option Position := do
  let depth ← minus? p.depth 1
  if 2 ≤ p.depth ∧ p.matched = depth then return ⟨depth, ← minus? p.matched 1⟩
  else return ⟨depth, p.matched⟩

/-- Entering a node goes one part further only if there is one and the node lies right below. -/
theorem lt_length_of_enter {p : Position} {parts : List Bytes} {node : Bytes}
    (h : p.depth = p.matched + 1 ∧ (parts[p.matched]?).any (isNamedBy node) = true) :
    2 ≤ p.depth + 1 ∧ p.matched = p.depth - 1 ∧ p.matched < parts.length := by
  obtain ⟨hdepth, hany⟩ := h
  obtain ⟨part, hpart, -⟩ := (Option.any_eq_true _ _).1 hany
  obtain ⟨hlength, -⟩ := List.getElem?_eq_some_iff.1 hpart
  exact ⟨by omega, by omega, hlength⟩

theorem enter?_eq (p : Position) (parts : List Bytes) (node : Bytes) :
    p.enter? parts node = some (p.enter parts node) := by
  unfold enter? enter
  by_cases hinside : 2 ≤ p.depth + 1
  · have habove : minus? (p.depth + 1) 2 = some (p.depth - 1) := if_pos hinside
    rw [if_pos hinside, habove]
    show (if p.matched = p.depth - 1 ∧ p.matched < parts.length then _ else _) = _
    by_cases hnext : p.matched = p.depth - 1 ∧ p.matched < parts.length
    · have hdepth : p.depth = p.matched + 1 := by omega
      rw [if_pos hnext, List.getElem?_eq_getElem hnext.2, Option.any_some]
      show some (if isNamedBy node parts[p.matched] = true then _ else _) = _
      simp only [hdepth, true_and]
    · rw [if_neg hnext, if_neg fun h => hnext (lt_length_of_enter h).2]
      rfl
  · rw [if_neg hinside, if_neg fun h => hinside (lt_length_of_enter h).1]
    rfl

theorem leave?_eq {p : Position} (h : p.depth ≠ 0) : p.leave? = some p.leave := by
  have hdepth : minus? p.depth 1 = some (p.depth - 1) := if_pos (Nat.pos_of_ne_zero h)
  unfold leave? leave
  rw [hdepth]
  show (if 2 ≤ p.depth ∧ p.matched = p.depth - 1 then _ else _) = _
  by_cases hnode : 2 ≤ p.depth ∧ p.matched = p.depth - 1
  · have hmatched : minus? p.matched 1 = some (p.matched - 1) := if_pos (by omega)
    rw [if_pos hnode, if_pos hnode, hmatched]
    rfl
  · rw [if_neg hnode, if_neg hnode]
    rfl

variable {parts : List Bytes}

theorem within_start : start.Within parts := ⟨Nat.zero_le _, fun _ => rfl, fun _ => Nat.zero_le _⟩

theorem Within.enter {p : Position} (h : p.Within parts) (node : Bytes) :
    (p.enter parts node).Within parts := by
  have hbelow : p.matched ≤ p.depth := by
    by_cases hdepth : p.depth = 0
    · rw [h.outside hdepth]
      exact Nat.zero_le _
    · exact Nat.le_trans (h.inside hdepth) (Nat.sub_le _ _)
  unfold Position.enter
  split
  · next hnext =>
    obtain ⟨-, hdepth, hlength⟩ := lt_length_of_enter hnext
    exact ⟨hlength, nofun, fun _ => Nat.le_of_eq hnext.1.symm⟩
  · exact ⟨h.le_length, nofun, fun _ => hbelow⟩

theorem Within.leave {p : Position} (h : p.Within parts) (hdepth : p.depth ≠ 0) :
    p.leave.Within parts := by
  have hmatched := h.inside hdepth
  have hlength := h.le_length
  unfold Position.leave
  split
  · refine ⟨?_, ?_, ?_⟩ <;> dsimp only <;> omega
  · refine ⟨?_, ?_, ?_⟩ <;> dsimp only <;> omega

end Position

/-! ## Blocks -/

theorem block_eq_ok_iff {data bs : Bytes} {offset size : Nat} {name : String} :
    block data offset size name = .ok bs ↔ Bytes.slice? data offset (offset + size) = some bs := by
  unfold block
  cases Bytes.slice? data offset (offset + size) with
  | none => simp
  | some bs' => simp

/-- What is read are the blocks that the header names, in the part of the data that it counts. -/
theorem liesIn_of_read {data : Bytes} {t : DeviceTree} (h : DeviceTree.read data = .ok t) :
    ∃ header, Header.codec.decode? data = some header ∧ t.LiesIn header data := by
  unfold DeviceTree.read at h
  cases hheader : Header.codec.decode? data with
  | none =>
    rw [hheader] at h
    cases h
  | some header =>
    simp only [hheader] at h
    split at h
    · cases h
    split at h
    · cases h
    obtain ⟨blob, hblob, h⟩ := exists_of_bind_eq_ok h
    obtain ⟨tokens, htokens, h⟩ := exists_of_bind_eq_ok h
    obtain ⟨names, hnames, h⟩ := exists_of_bind_eq_ok h
    cases h
    obtain ⟨-, htotal, rfl⟩ := Bytes.slice?_eq_some_iff.1 (block_eq_ok_iff.1 hblob)
    rw [Nat.zero_add] at htotal
    rw [Nat.zero_add, Nat.sub_zero, List.drop_zero] at htokens hnames
    exact ⟨header, rfl, htotal, block_eq_ok_iff.1 htokens, block_eq_ok_iff.1 hnames⟩

/-! ## Values -/

theorem slice?_drop {data : Bytes} {offset : Nat} (h : offset ≤ data.length) (start stop : Nat) :
    Bytes.slice? (data.drop offset) start stop
      = Bytes.slice? data (offset + start) (offset + stop) := by
  have hinside : (start ≤ stop ∧ stop ≤ (data.drop offset).length) ↔
      (offset + start ≤ offset + stop ∧ offset + stop ≤ data.length) := by
    rw [List.length_drop]
    omega
  simp only [Bytes.slice?, hinside, List.drop_drop, Nat.add_sub_add_left]

theorem slice?_of_readWord {rest : Bytes} {n : UInt32} {offset : Nat} {part : String}
    (h : readWord (rest.drop offset) part = .ok n) :
    Bytes.slice? rest offset (offset + 4) = some (Bytes.ofWordBE n) := by
  cases hread : Codec.wordBE.decode? (rest.drop offset) with
  | none =>
    rw [readWord, hread] at h
    cases h
  | some m =>
    rw [readWord, hread] at h
    cases h
    have hencode : Bytes.ofWordBE n = (rest.drop offset).take 4 :=
      Codec.wordBE.encode_of_decode? hread
    have hlength : 4 ≤ (rest.drop offset).length := by
      have := congrArg List.length hencode
      rw [Bytes.length_ofWordBE, List.length_take] at this
      omega
    rw [List.length_drop] at hlength
    rw [Bytes.slice?_eq_some_iff]
    exact ⟨by omega, by omega, by rw [Nat.add_sub_cancel_left, hencode]⟩

/-- The value of a property has the length that its token states. -/
theorem declares_of_readToken {tokens : Bytes} {offset offset' nameOffset size : Nat}
    {value : Bytes}
    (h : readToken offset' (tokens.drop offset) = .ok (.property nameOffset value, size)) :
    Declares tokens offset value := by
  have hinside := length_of_readToken h
  rw [List.length_drop] at hinside
  have hdrop := fun start stop => @slice?_drop tokens offset (by omega) start stop
  unfold readToken at h
  obtain ⟨code, hcode, h⟩ := exists_of_bind_eq_ok h
  split at h
  · obtain ⟨name, -, h⟩ := exists_of_bind_eq_ok h
    cases h
  · cases h
  · next hthree =>
    obtain ⟨length, hlength, h⟩ := exists_of_bind_eq_ok h
    obtain ⟨nameOffset', -, h⟩ := exists_of_bind_eq_ok h
    split at h
    · next value' hvalue =>
      cases h
      have hcode3 : code = 3 := UInt32.toNat_inj.1 hthree
      have hsize : length.toNat = value.length := by
        obtain ⟨-, hstop, htake⟩ := Bytes.slice?_eq_some_iff.1 hvalue
        have := congrArg List.length htake
        rw [List.length_take, List.length_drop] at this
        omega
      subst hcode3
      refine ⟨?_, ⟨length, hsize, ?_⟩, ?_⟩
      · rw [← @slice?_of_readWord _ _ 0 _ hcode, hdrop]
        rfl
      · rw [← slice?_of_readWord hlength, hdrop]
      · rw [← hvalue, hdrop, hsize, Nat.add_assoc]
    · cases h
  · cases h
  · cases h
  · cases h

/-! ## Walks -/

namespace Walk

variable {names : Bytes} {parts : List Bytes} {name : Bytes}

theorem within_of_goesOn {w w' : Walk} (h : w.position.Within parts)
    (hturn : w.turn names parts name = .goesOn w') : w'.position.Within parts := by
  obtain ⟨token, size, p, -, rfl, rfl | ⟨node, rfl⟩ | ⟨hdepth, rfl⟩⟩ := goesOn_cases hturn
  · exact h
  · exact h.enter node
  · exact h.leave hdepth

theorem Reaches.within {tokens : Bytes} {n : Nat} {w : Walk}
    (h : Reaches names parts name tokens n w) : w.position.Within parts := by
  induction h with
  | start => exact Position.within_start
  | turn _ hturn ih => exact within_of_goesOn ih hturn

/-- Only the token of a property ends a walk with a value. -/
theorem readToken_of_ends {w : Walk} {value : Bytes}
    (h : w.turn names parts name = .ends (.ok (some value))) :
    ∃ nameOffset size, readToken w.offset w.rest = .ok (.property nameOffset value, size) := by
  cases htoken : readToken w.offset w.rest with
  | error e =>
    rw [turn, htoken] at h
    cases h
  | ok t =>
    obtain ⟨token, size⟩ := t
    rw [turn_of_token htoken] at h
    cases token with
    | beginNode node => cases h
    | endNode =>
      rw [take] at h
      split at h <;> cases h
    | property nameOffset value' =>
      rw [take] at h
      split at h
      · split at h
        · cases h
        · split at h
          · cases h
            exact ⟨nameOffset, size, rfl⟩
          · cases h
      · cases h
    | nop => cases h
    | stop => cases h

theorem Reaches.declares {tokens value : Bytes} {n : Nat} {w : Walk}
    (h : Reaches names parts name tokens n w)
    (hends : w.turn names parts name = .ends (.ok (some value))) :
    Declares tokens w.offset value := by
  obtain ⟨nameOffset, size, htoken⟩ := readToken_of_ends hends
  rw [h.rest_eq] at htoken
  exact declares_of_readToken htoken

end Walk

/-- **Looking up in any bytes.** What is read from any data are blocks that lie in it. Looking up in
any tree ends, after a token for every four bytes of the block and one more at most: each token but
the last takes at least four bytes. All the way the two numbers stay apart, and neither of them is
taken below zero nor used for a part that the path does not have. A value is a piece of the block,
as long as the token in front of it says. -/
theorem lookup_safe (data : Bytes) (path name : String) :
    (∀ t, DeviceTree.read data = .ok t →
      ∃ h, Header.codec.decode? data = some h ∧ t.LiesIn h data) ∧
    ∀ t : DeviceTree,
      (∃ n last, t.Passes path name n last ∧
        t.turn path name last = .ends (t.lookup path name) ∧
        ∀ value, t.lookup path name = .ok (some value) → Declares t.tokens last.offset value) ∧
      ∀ n w, t.Passes path name n w →
        n ≤ t.tokens.length / 4 ∧ w.rest = t.tokens.drop w.offset ∧
        w.position.Within (pathParts path) ∧
        (∀ node, w.position.enter? (pathParts path) node
          = some (w.position.enter (pathParts path) node)) ∧
        (w.position.depth ≠ 0 → w.position.leave? = some w.position.leave) ∧
        ∀ w', t.turn path name w = .goesOn w' →
          w.offset + 4 ≤ w'.offset ∧ t.Passes path name (n + 1) w' := by
  refine ⟨fun t => liesIn_of_read, fun t => ⟨?_, fun n w hpasses => ?_⟩⟩
  · have hstart : t.Passes path name 0 (.start t.tokens) := .start
    obtain ⟨n, last, hlast, hends⟩ := hstart.exists_end
    refine ⟨n, last, hlast, hends, fun value hvalue => ?_⟩
    rw [← lookup_eq_result, hvalue] at hends
    exact hlast.declares hends
  · have hlength := hpasses.le_length
    refine ⟨by omega, hpasses.rest_eq, hpasses.within, w.position.enter?_eq _,
      Position.leave?_eq, fun w' hturn => ⟨Walk.offset_of_goesOn hturn, hpasses.turn hturn⟩⟩

end AndroidBoot.DeviceTree
