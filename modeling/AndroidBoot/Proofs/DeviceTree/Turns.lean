import AndroidBoot.Proofs.DeviceTree.Walks

/-!
# Turns of a walk

What a walk does with one token is a turn: it ends with a result, or goes on behind the token. The
count of turns that may be left has no part in it. Each turn takes at least the four bytes of a code
off the block, so that a walk ends.

    w.turn = .ends r      → w.result = r                                       (result_of_ends)
    w.turn = .goesOn w'   → w.result = w'.result                             (result_of_goesOn)
    w.turn = .goesOn w'   → w' is behind a token, in the same node, in a node or out of one
                                                                                (goesOn_cases)
    a walk reaches one that ends with its result                           (Reaches.exists_end)
-/

namespace AndroidBoot.DeviceTree

/-- A walk under way: what is left of the block from `offset` on, and the position. -/
structure Walk where
  offset : Nat
  rest : Bytes
  position : Position
deriving DecidableEq, Repr

/-- What a walk comes to with the token at its front. -/
inductive Turn where
  | ends (result : Except DeviceTreeError (Option Bytes))
  | goesOn (w : Walk)

namespace Walk

/-- A walk that has not begun. -/
def start (tokens : Bytes) : Walk := ⟨0, tokens, .start⟩

/-- The walk behind a token of this size. -/
def past (w : Walk) (size : Nat) (p : Position) : Walk := ⟨w.offset + size, w.rest.drop size, p⟩

section
variable (names : Bytes) (parts : List Bytes) (name : Bytes)

/-- What is done with a token of this size. -/
def take (w : Walk) (size : Nat) : Token → Turn
  | .beginNode node => .goesOn (w.past size (w.position.enter parts node))
  | .endNode =>
    if w.position.depth = 0 then .ends (.error (.surplusEnd w.offset))
    else .goesOn (w.past size w.position.leave)
  | .property nameOffset value =>
    if w.position.atTarget parts then
      match readName (names.drop nameOffset) "property name" with
      | .error e => .ends (.error e)
      | .ok label =>
        if label = name then .ends (.ok (some value)) else .goesOn (w.past size w.position)
    else .goesOn (w.past size w.position)
  | .nop => .goesOn (w.past size w.position)
  | .stop => .ends (.ok none)

def turn (w : Walk) : Turn :=
  match readToken w.offset w.rest with
  | .error e => .ends (.error e)
  | .ok (token, size) => w.take names parts name size token

/-- The result of a walk. -/
def result (w : Walk) : Except DeviceTreeError (Option Bytes) :=
  walk names parts name w.offset w.rest w.position

/-- The walk that has begun over a block reaches another one after some turns. -/
inductive Reaches (tokens : Bytes) : Nat → Walk → Prop where
  | start : Reaches tokens 0 (.start tokens)
  | turn {n : Nat} {w w' : Walk} (h : Reaches tokens n w)
      (hturn : w.turn names parts name = .goesOn w') : Reaches tokens (n + 1) w'

end

/-! ## One turn -/

section
variable {names : Bytes} {parts : List Bytes} {name : Bytes}

theorem turn_of_token {w : Walk} {token : Token} {size : Nat}
    (h : readToken w.offset w.rest = .ok (token, size)) :
    w.turn names parts name = w.take names parts name size token := by
  rw [turn, h]

theorem step_eq_take (w : Walk) (size : Nat) (token : Token) :
    step names parts name w.offset w.position
        (walk names parts name (w.offset + size) (w.rest.drop size)) token
      = match w.take names parts name size token with
        | .ends r => r
        | .goesOn w' => w'.result names parts name := by
  cases token with
  | beginNode node => rfl
  | endNode =>
    by_cases hdepth : w.position.depth = 0
    · simp only [step, take, if_pos hdepth]
      rfl
    · simp only [step, take, if_neg hdepth]
      rfl
  | property nameOffset value =>
    by_cases htarget : w.position.atTarget parts = true
    · simp only [step, take, if_pos htarget]
      cases readName (names.drop nameOffset) "property name" with
      | error e => rfl
      | ok label =>
        show (if label = name then _ else _) = _
        by_cases hname : label = name
        · simp only [if_pos hname]
          rfl
        · simp only [if_neg hname]
          rfl
    · simp only [step, take, if_neg htarget]
      rfl
  | nop => rfl
  | stop => rfl

/-- A turn is what the loop does with the token at the front. -/
theorem result_eq (w : Walk) :
    w.result names parts name = match w.turn names parts name with
      | .ends r => r
      | .goesOn w' => w'.result names parts name := by
  cases htoken : readToken w.offset w.rest with
  | error e =>
    rw [turn, htoken]
    exact walk_of_error w.position htoken
  | ok t => rw [turn_of_token htoken, ← step_eq_take, result, walk_eq w.position htoken]

theorem result_of_ends {w : Walk} {r : Except DeviceTreeError (Option Bytes)}
    (h : w.turn names parts name = .ends r) : w.result names parts name = r := by
  rw [result_eq, h]

theorem result_of_goesOn {w w' : Walk} (h : w.turn names parts name = .goesOn w') :
    w.result names parts name = w'.result names parts name := by
  rw [result_eq, h]

/-- A walk that goes on has read a token. It stays in its node, enters one or leaves it. -/
theorem goesOn_cases {w w' : Walk} (h : w.turn names parts name = .goesOn w') :
    ∃ token size p, readToken w.offset w.rest = .ok (token, size) ∧ w' = w.past size p ∧
      (p = w.position ∨ (∃ node, p = w.position.enter parts node) ∨
        (w.position.depth ≠ 0 ∧ p = w.position.leave)) := by
  cases htoken : readToken w.offset w.rest with
  | error e =>
    rw [turn, htoken] at h
    cases h
  | ok t =>
    obtain ⟨token, size⟩ := t
    rw [turn_of_token htoken] at h
    cases token with
    | beginNode node =>
      cases h
      exact ⟨_, size, _, rfl, rfl, .inr (.inl ⟨node, rfl⟩)⟩
    | endNode =>
      rw [take] at h
      split at h
      · cases h
      · next hdepth =>
        cases h
        exact ⟨_, size, _, rfl, rfl, .inr (.inr ⟨hdepth, rfl⟩)⟩
    | property nameOffset value =>
      refine ⟨_, size, w.position, rfl, ?_, .inl rfl⟩
      rw [take] at h
      split at h
      · split at h
        · cases h
        · split at h
          · cases h
          · exact (Turn.goesOn.inj h).symm
      · exact (Turn.goesOn.inj h).symm
    | nop =>
      cases h
      exact ⟨_, size, _, rfl, rfl, .inl rfl⟩
    | stop => cases h

/-- A walk that goes on leaves at least four bytes behind. -/
theorem offset_of_goesOn {w w' : Walk} (h : w.turn names parts name = .goesOn w') :
    w.offset + 4 ≤ w'.offset := by
  obtain ⟨token, size, p, htoken, rfl, -⟩ := goesOn_cases h
  exact Nat.add_le_add_left (four_le_of_readToken htoken) _

theorem length_of_goesOn {w w' : Walk} (h : w.turn names parts name = .goesOn w') :
    w'.rest.length + 4 ≤ w.rest.length := by
  obtain ⟨token, size, p, htoken, rfl, -⟩ := goesOn_cases h
  have hsize := four_le_of_readToken htoken
  have hlength := length_of_readToken htoken
  show (w.rest.drop size).length + 4 ≤ w.rest.length
  rw [List.length_drop]
  omega

/-! ## Many turns -/

theorem Reaches.rest_eq {tokens : Bytes} {n : Nat} {w : Walk}
    (h : Reaches names parts name tokens n w) : w.rest = tokens.drop w.offset := by
  induction h with
  | start => rfl
  | turn _ hturn ih =>
    obtain ⟨token, size, p, -, rfl, -⟩ := goesOn_cases hturn
    show List.drop size _ = List.drop (_ + size) _
    rw [ih, List.drop_drop]

/-- There is a token for each turn. -/
theorem Reaches.le_length {tokens : Bytes} {n : Nat} {w : Walk}
    (h : Reaches names parts name tokens n w) : 4 * n + w.rest.length ≤ tokens.length := by
  induction h with
  | start => exact Nat.le_of_eq (Nat.zero_add _)
  | turn _ hturn ih =>
    have := length_of_goesOn hturn
    omega

/-- Every walk ends, and its result is that of its last turn. -/
theorem Reaches.exists_end {tokens : Bytes} {n : Nat} {w : Walk}
    (h : Reaches names parts name tokens n w) :
    ∃ m last, Reaches names parts name tokens m last ∧
      last.turn names parts name = .ends (w.result names parts name) := by
  induction hlength : w.rest.length using Nat.strongRecOn generalizing n w with
  | ind length ih =>
    cases hturn : w.turn names parts name with
    | ends r => exact ⟨n, w, h, by rw [hturn, result_of_ends hturn]⟩
    | goesOn w' =>
      have hshorter := length_of_goesOn hturn
      rw [result_of_goesOn hturn]
      exact ih w'.rest.length (by omega) (h.turn hturn) rfl

end

end Walk

/-- Looking up is the walk from the root on. -/
theorem lookup_eq_result (t : DeviceTree) (path name : String) :
    t.lookup path name
      = (Walk.start t.tokens).result t.names (pathParts path) (Utf8.encode name) := rfl

end AndroidBoot.DeviceTree
