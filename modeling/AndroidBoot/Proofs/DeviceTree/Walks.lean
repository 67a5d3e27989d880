import AndroidBoot.DeviceTree.Property

/-!
# Walks over tokens

`search` counts the tokens that may be left. The count never stops it: a block runs out of bytes
before it runs out of tokens, with the same error. So a walk is described by what is left of the
block alone, and one step of it by the token at the front.

    search names parts name count offset rest p = walk names parts name offset rest p
      for every count with rest.length < 4 * (count + 1)                     (search_eq_walk)

The tokens that a walk steps over are those of a tree: `walk_nop`, `walk_beginNode`, `walk_endNode`,
`walk_property` and `walk_stop` say what each of them does to the position.
-/

namespace AndroidBoot.DeviceTree

/-- A walk over what is left of a block. -/
def walk (names : Bytes) (parts : List Bytes) (name : Bytes) (offset : Nat) (rest : Bytes)
    (p : Position) : Except DeviceTreeError (Option Bytes) :=
  search names parts name (rest.length / 4) offset rest p

/-! ## Lemmas -/

theorem le_align (n : Nat) : n ≤ align n := Nat.le_add_right n _

theorem exists_of_bind_eq_ok {α β : Type} {x : Except DeviceTreeError α}
    {f : α → Except DeviceTreeError β} {b : β} (h : x >>= f = .ok b) :
    ∃ a, x = .ok a ∧ f a = .ok b := by
  cases x with
  | error e => cases h
  | ok a => exact ⟨a, rfl, h⟩

/-- A token takes at least the four bytes of its code. -/
theorem four_le_of_readToken {offset size : Nat} {rest : Bytes} {token : Token}
    (h : readToken offset rest = .ok (token, size)) : 4 ≤ size := by
  unfold readToken at h
  obtain ⟨code, -, h⟩ := exists_of_bind_eq_ok h
  split at h
  · obtain ⟨name, -, h⟩ := exists_of_bind_eq_ok h
    cases h
    exact Nat.le_trans (by omega) (le_align _)
  · cases h
    exact Nat.le_refl 4
  · obtain ⟨length, -, h⟩ := exists_of_bind_eq_ok h
    obtain ⟨nameOffset, -, h⟩ := exists_of_bind_eq_ok h
    split at h
    · cases h
      exact Nat.le_trans (by omega) (le_align _)
    · cases h
  · cases h
    exact Nat.le_refl 4
  · cases h
    exact Nat.le_refl 4
  · cases h

theorem readToken_of_short {offset : Nat} {rest : Bytes} (h : rest.length < 4) :
    readToken offset rest = .error (.truncated "token") := by
  have hdecode : Codec.wordBE.decode? rest = none := Codec.wordBE.decode?_eq_none_iff.2 h
  unfold readToken readWord
  rw [hdecode]
  rfl

theorem length_of_readToken {offset : Nat} {rest : Bytes} {t : Token × Nat}
    (h : readToken offset rest = .ok t) : 4 ≤ rest.length := by
  apply Nat.le_of_not_lt
  intro hshort
  rw [readToken_of_short hshort] at h
  cases h

section
variable {names : Bytes} {parts : List Bytes} {name : Bytes}

theorem search_of_short {rest : Bytes} (h : rest.length < 4) (count offset : Nat) (p : Position) :
    search names parts name count offset rest p = .error (.truncated "token") := by
  cases count with
  | zero => rfl
  | succ count => rw [search, readToken_of_short h]; rfl

/-- What is done with a token, where `next` goes on behind it. -/
def step (names : Bytes) (parts : List Bytes) (name : Bytes) (offset : Nat) (p : Position)
    (next : Position → Except DeviceTreeError (Option Bytes)) :
    Token → Except DeviceTreeError (Option Bytes)
  | .beginNode node => next (p.enter parts node)
  | .endNode => if p.depth = 0 then throw (.surplusEnd offset) else next p.leave
  | .property nameOffset value =>
    if p.atTarget parts then do
      if (← readName (names.drop nameOffset) "property name") = name then return some value
      else next p
    else next p
  | .nop => next p
  | .stop => return none

theorem search_succ (count offset : Nat) (rest : Bytes) (p : Position) :
    search names parts name (count + 1) offset rest p =
      (readToken offset rest >>= fun t => step names parts name offset p
        (search names parts name count (offset + t.2) (rest.drop t.2)) t.1) := by
  rw [search]
  cases readToken offset rest with
  | error e => rfl
  | ok t =>
    obtain ⟨token, size⟩ := t
    cases token <;> rfl

/-- The count of tokens that may be left has no influence. -/
theorem search_eq_search {count count' offset : Nat} {rest : Bytes} (p : Position)
    (h : rest.length < 4 * (count + 1)) (h' : rest.length < 4 * (count' + 1)) :
    search names parts name count offset rest p = search names parts name count' offset rest p := by
  induction count generalizing count' offset rest p with
  | zero => rw [search_of_short (by omega), search_of_short (by omega)]
  | succ count ih =>
    cases count' with
    | zero => rw [search_of_short (by omega), search_of_short (by omega)]
    | succ count' =>
      rw [search_succ, search_succ]
      cases htoken : readToken offset rest with
      | error e => rfl
      | ok t =>
        have hsize := four_le_of_readToken htoken
        have hnext : search names parts name count (offset + t.2) (rest.drop t.2)
            = search names parts name count' (offset + t.2) (rest.drop t.2) := by
          funext q
          refine ih q ?_ ?_ <;> rw [List.length_drop] <;> omega
        show step _ _ _ _ _ _ _ = step _ _ _ _ _ _ _
        rw [hnext]

theorem search_eq_walk {count offset : Nat} {rest : Bytes} (p : Position)
    (h : rest.length < 4 * (count + 1)) :
    search names parts name count offset rest p = walk names parts name offset rest p :=
  search_eq_search p h (by omega)

theorem walk_of_error {offset : Nat} {rest : Bytes} {e : DeviceTreeError} (p : Position)
    (h : readToken offset rest = .error e) : walk names parts name offset rest p = .error e := by
  by_cases hshort : rest.length < 4
  · rw [readToken_of_short hshort] at h
    cases h
    exact search_of_short hshort _ _ _
  · have hcount : rest.length / 4 = (rest.length / 4 - 1) + 1 := by omega
    rw [walk, hcount, search_succ, h]
    rfl

theorem walk_eq {offset size : Nat} {rest : Bytes} {token : Token} (p : Position)
    (h : readToken offset rest = .ok (token, size)) :
    walk names parts name offset rest p = step names parts name offset p
      (walk names parts name (offset + size) (rest.drop size)) token := by
  have hsize := four_le_of_readToken h
  have hlength := length_of_readToken h
  have hcount : rest.length / 4 = (rest.length / 4 - 1) + 1 := by omega
  have hnext : search names parts name (rest.length / 4 - 1) (offset + size) (rest.drop size)
      = walk names parts name (offset + size) (rest.drop size) := by
    funext q
    refine search_eq_walk q ?_
    rw [List.length_drop]
    omega
  rw [walk, hcount, search_succ, h]
  show step _ _ _ _ _ _ _ = _
  rw [hnext]

/-! ## The tokens of a tree -/

theorem readWord_append (n : UInt32) (rest : Bytes) (part : String) :
    readWord (Bytes.ofWordBE n ++ rest) part = .ok n := by
  unfold readWord
  rw [show Bytes.ofWordBE n = Codec.wordBE.encode n from rfl, Codec.wordBE.decode?_encode_append]

/-- A name is read up to the zero behind it. -/
theorem readName_append {node : Bytes} (hnode : 0 ∉ node) (rest : Bytes) (part : String) :
    readName (node ++ 0 :: rest) part = .ok node := by
  have htake : (node ++ 0 :: rest).takeWhile (· != 0) = node := by
    rw [List.takeWhile_append_of_pos, List.takeWhile_cons_of_neg (by simp), List.append_nil]
    intro b hb
    have : b ≠ 0 := fun h => hnode (h ▸ hb)
    simpa using this
  unfold readName
  rw [if_pos (by simp), htake]

theorem drop_four_ofWordBE (n : UInt32) (rest : Bytes) : (Bytes.ofWordBE n ++ rest).drop 4 = rest :=
  List.drop_left' (Bytes.length_ofWordBE n)

/-- Four bytes in front do not change how far it is to the next token. -/
theorem padding_four_add (n : Nat) : padding (4 + n) tokenAlignment = padding n tokenAlignment := by
  unfold padding tokenAlignment
  rw [Nat.add_mod_left]

theorem walk_nop (offset : Nat) (rest : Bytes) (p : Position) :
    walk names parts name offset (Bytes.ofWordBE 4 ++ rest) p
      = walk names parts name (offset + 4) rest p := by
  have htoken : readToken offset (Bytes.ofWordBE 4 ++ rest) = .ok (.nop, 4) := by
    unfold readToken
    rw [readWord_append]
    rfl
  rw [walk_eq p htoken, drop_four_ofWordBE]
  rfl

theorem walk_stop (offset : Nat) (rest : Bytes) (p : Position) :
    walk names parts name offset (Bytes.ofWordBE 9 ++ rest) p = .ok none := by
  have htoken : readToken offset (Bytes.ofWordBE 9 ++ rest) = .ok (.stop, 4) := by
    unfold readToken
    rw [readWord_append]
    rfl
  rw [walk_eq p htoken]
  rfl

theorem walk_endNode {p : Position} (hp : p.depth ≠ 0) (offset : Nat) (rest : Bytes) :
    walk names parts name offset (Bytes.ofWordBE 2 ++ rest) p
      = walk names parts name (offset + 4) rest p.leave := by
  have htoken : readToken offset (Bytes.ofWordBE 2 ++ rest) = .ok (.endNode, 4) := by
    unfold readToken
    rw [readWord_append]
    rfl
  rw [walk_eq p htoken, drop_four_ofWordBE]
  exact if_neg hp

theorem walk_beginNode {node pad : Bytes} (hnode : 0 ∉ node)
    (hpad : pad.length = padding (node.length + 1) tokenAlignment) (offset : Nat) (rest : Bytes)
    (p : Position) :
    ∃ size, walk names parts name offset (Bytes.ofWordBE 1 ++ (node ++ 0 :: (pad ++ rest))) p
      = walk names parts name (offset + size) rest (p.enter parts node) := by
  have htoken : readToken offset (Bytes.ofWordBE 1 ++ (node ++ 0 :: (pad ++ rest)))
      = .ok (.beginNode node, align (4 + (node.length + 1))) := by
    unfold readToken
    rw [readWord_append]
    show (readName (List.drop 4 _) "node name" >>= fun name => _) = _
    rw [drop_four_ofWordBE, readName_append hnode]
    rfl
  refine ⟨align (4 + (node.length + 1)), ?_⟩
  have hdrop : (Bytes.ofWordBE 1 ++ (node ++ 0 :: (pad ++ rest))).drop
      (align (4 + (node.length + 1))) = rest := by
    rw [show Bytes.ofWordBE 1 ++ (node ++ 0 :: (pad ++ rest))
      = (Bytes.ofWordBE 1 ++ (node ++ 0 :: pad)) ++ rest by simp]
    apply List.drop_left'
    rw [align, padding_four_add]
    simp [Bytes.length_ofWordBE, hpad]
    omega
  rw [walk_eq p htoken, hdrop]
  rfl

/-- A property ends the walk if it is the one that is looked for. -/
theorem walk_property {size nameOffset : UInt32} {value pad label after : Bytes}
    (hsize : size.toNat = value.length)
    (hpad : pad.length = padding value.length tokenAlignment) (hlabel : 0 ∉ label)
    (hnames : names.drop nameOffset.toNat = label ++ 0 :: after) (offset : Nat) (rest : Bytes)
    (p : Position) :
    ∃ width, walk names parts name offset
        (Bytes.ofWordBE 3 ++ (Bytes.ofWordBE size ++ (Bytes.ofWordBE nameOffset ++
          (value ++ (pad ++ rest))))) p
      = if p.atTarget parts ∧ label = name then .ok (some value)
        else walk names parts name (offset + width) rest p := by
  generalize hbody : value ++ (pad ++ rest) = body
  have hslice : Bytes.slice? (Bytes.ofWordBE 3 ++ (Bytes.ofWordBE size ++
      (Bytes.ofWordBE nameOffset ++ body))) 12 (12 + size.toNat) = some value := by
    rw [Bytes.slice?_eq_some_iff]
    refine ⟨by omega, by simp [Bytes.length_ofWordBE, ← hbody, hsize]; omega, ?_⟩
    rw [← List.append_assoc, ← List.append_assoc,
      List.drop_left' (by simp [Bytes.length_ofWordBE]), Nat.add_sub_cancel_left, hsize, ← hbody,
      List.take_left' rfl]
  have htoken : readToken offset (Bytes.ofWordBE 3 ++ (Bytes.ofWordBE size ++
      (Bytes.ofWordBE nameOffset ++ body)))
        = .ok (.property nameOffset.toNat value, align (12 + size.toNat)) := by
    have hdrop : (Bytes.ofWordBE 3 ++ (Bytes.ofWordBE size ++ (Bytes.ofWordBE nameOffset ++
        body))).drop 8 = Bytes.ofWordBE nameOffset ++ body := by
      rw [← List.append_assoc, List.drop_left' (by simp [Bytes.length_ofWordBE])]
    have hcode : (3 : UInt32).toNat = 3 := rfl
    unfold readToken
    simp only [readWord_append, drop_four_ofWordBE, hdrop, bind, Except.bind, hcode, hslice]
    rfl
  have hdrop : (Bytes.ofWordBE 3 ++ (Bytes.ofWordBE size ++ (Bytes.ofWordBE nameOffset ++
      body))).drop (align (12 + size.toNat)) = rest := by
    rw [← hbody, show Bytes.ofWordBE 3 ++ (Bytes.ofWordBE size ++ (Bytes.ofWordBE nameOffset ++
      (value ++ (pad ++ rest)))) = (Bytes.ofWordBE 3 ++ (Bytes.ofWordBE size ++
      (Bytes.ofWordBE nameOffset ++ (value ++ pad)))) ++ rest by simp]
    apply List.drop_left'
    rw [show 12 + size.toNat = 4 + (4 + (4 + value.length)) by omega, align, padding_four_add,
      padding_four_add, padding_four_add]
    simp [Bytes.length_ofWordBE, hpad]
    omega
  refine ⟨align (12 + size.toNat), ?_⟩
  rw [walk_eq p htoken, hdrop]
  unfold step
  simp only [hnames, readName_append hlabel]
  by_cases htarget : p.atTarget parts
  · by_cases hname : label = name
    · rw [if_pos htarget, if_pos ⟨htarget, hname⟩]
      exact if_pos hname
    · rw [if_pos htarget, if_neg fun h => hname h.2]
      exact if_neg hname
  · rw [if_neg htarget, if_neg fun h => htarget h.1]

end

end AndroidBoot.DeviceTree
