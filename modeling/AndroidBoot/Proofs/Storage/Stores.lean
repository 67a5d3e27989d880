import AndroidBoot.Storage.Store

/-!
# Reading and writing in stores

A name that is found in a store leads to a path. Writing puts a file at that path and nowhere else;
as every path that is walked through is one of a directory, names lead where they led before.

    s.write name data = .ok s' → s'.read name = .ok data                     (read_of_write)
    s.write name data = .ok s' → (s'.Finds other p ↔ s.Finds other p)        (finds_of_write)
-/

namespace AndroidBoot.Store

/-- The name is one of a file, and leads to the path. What is at the path is left open. -/
structure Finds (s : Store) (name : String) (p : Path) : Prop where
  name_ok : checkName name = .ok ()
  follows : s.follow (nameParts name) (s.startOf name) = .ok p

/-- The path at which a write would put a file. -/
def writePath (s : Store) (name : String) : Except Fault Path := do
  checkName name
  let parts := nameParts name
  if trimParts parts ≠ parts then
    let _ ← s.follow ((trimParts parts).dropLast ++ [""]) (s.startOf name)
    throw .isADirectory
  let p ← s.follow parts (s.startOf name)
  if s.node? p = some .directory then throw .isADirectory
  return p

/-! ## Lemmas -/

theorem lookup_cons_eq (p q : Path) (n : Node) (nodes : List (Path × Node)) :
    ((p, n) :: nodes).lookup q = if q = p then some n else nodes.lookup q := by
  rw [List.lookup_cons]
  split
  · next h => rw [if_pos (by simpa using h)]
  · next h => rw [if_neg (by simpa using h)]

theorem lookup_insertNode (p q : Path) (n : Node) (nodes : List (Path × Node)) :
    (insertNode p n nodes).lookup q = if q = p then some n else nodes.lookup q := by
  induction nodes with
  | nil => rw [insertNode, lookup_cons_eq]
  | cons entry nodes ih =>
    obtain ⟨r, m⟩ := entry
    rw [insertNode]
    split
    · next hr =>
      rw [hr, lookup_cons_eq, lookup_cons_eq]
      by_cases h : q = p
      · rw [if_pos h, if_pos h]
      · rw [if_neg h, if_neg h, if_neg h]
    · next hr =>
      rw [lookup_cons_eq, lookup_cons_eq, ih]
      by_cases h : q = r
      · rw [if_pos h, if_neg (h ▸ hr), if_pos h]
      · rw [if_neg h, if_neg h]

theorem node?_insert (s : Store) {p : Path} (hp : p ≠ []) (n : Node) (q : Path) :
    (s.insert p n).node? q = if q = p then some n else s.node? q := by
  unfold node?
  by_cases hq : q = []
  · subst hq
    rw [if_pos rfl, if_pos rfl, if_neg (Ne.symm hp)]
  · rw [if_neg hq, if_neg hq]
    exact lookup_insertNode p q n s.nodes

theorem ne_nil_of_node? {s : Store} {p : Path} (hp : s.node? p ≠ some .directory) : p ≠ [] := by
  rintro rfl
  exact hp rfl

/-- A walk goes through directories only, so a file more or another file does not change it. -/
theorem follow_insert_file {s : Store} {p : Path} (hp : s.node? p ≠ some .directory) (data : Bytes)
    (parts : List String) (start q : Path) :
    (s.insert p (.file data)).follow parts start = .ok q ↔ s.follow parts start = .ok q := by
  induction parts generalizing start with
  | nil => rfl
  | cons part parts ih =>
    have hnode := s.node?_insert (ne_nil_of_node? hp) (.file data) start
    rw [follow, follow, hnode]
    by_cases hstart : start = p
    · -- neither store has a directory here
      subst hstart
      rw [if_pos rfl]
      cases hn : s.node? start with
      | none => simp
      | some n =>
        cases n with
        | file _ => simp
        | directory => exact absurd hn hp
    · rw [if_neg hstart]
      cases s.node? start with
      | none => rfl
      | some n =>
        cases n with
        | file _ => rfl
        | directory =>
          simp only []
          split
          · rfl
          · exact ih _

theorem read_of_finds {s : Store} {name : String} {p : Path} (h : s.Finds name p) :
    s.read name = match s.node? p with
      | none => .error (.opening .notFound)
      | some .directory => .error (.reading .isADirectory)
      | some (.file data) => .ok data := by
  have hfollow : (checkName name >>= fun _ => s.follow (nameParts name) (s.startOf name))
      = .ok p := by
    rw [h.name_ok]
    exact h.follows
  cases hnode : s.node? p with
  | none => simp only [read, hfollow, hnode]
  | some n => cases n <;> simp only [read, hfollow, hnode]

/-- A name of nothing does not lead to where a file is. -/
theorem not_finds_of_notFound {s : Store} {name : String} {p : Path} {data : Bytes}
    (h : s.read name = .error (.opening .notFound)) (hnode : s.node? p = some (.file data)) :
    ¬ s.Finds name p := by
  intro hfinds
  rw [read_of_finds hfinds, hnode] at h
  cases h

theorem read_of_checkName {name : String} {fault : Fault} (h : checkName name = .error fault)
    (s : Store) : s.read name = .error (.opening fault) := by
  unfold read
  rw [h]
  rfl

theorem finds_of_read {s : Store} {name : String} {data : Bytes} (h : s.read name = .ok data) :
    ∃ p, s.Finds name p ∧ s.node? p = some (.file data) := by
  unfold read at h
  cases hname : checkName name with
  | error fault => rw [hname] at h; cases h
  | ok u =>
    have hwalk : (checkName name >>= fun _ => s.follow (nameParts name) (s.startOf name))
        = s.follow (nameParts name) (s.startOf name) := by
      rw [hname]
      rfl
    rw [hwalk] at h
    cases hfollow : s.follow (nameParts name) (s.startOf name) with
    | error fault => rw [hfollow] at h; cases h
    | ok p =>
      rw [hfollow] at h
      refine ⟨p, ⟨hname, hfollow⟩, ?_⟩
      cases hn : s.node? p with
      | none => simp [hn] at h
      | some n =>
        cases n with
        | directory => simp [hn] at h
        | file d => simpa [hn] using h

theorem write_eq (s : Store) (name : String) (data : Bytes) :
    s.write name data = (s.writePath name).map fun p => s.insert p (.file data) := by
  unfold write writePath
  cases checkName name with
  | error fault => rfl
  | ok u =>
    by_cases htrim : trimParts (nameParts name) ≠ nameParts name
    · simp only [if_pos htrim]
      cases s.follow ((trimParts (nameParts name)).dropLast ++ [""]) (s.startOf name) <;> rfl
    · simp only [if_neg htrim]
      cases s.follow (nameParts name) (s.startOf name) with
      | error fault => rfl
      | ok p =>
        show (if s.node? p = some .directory then _ else _)
          = Except.map _ (if s.node? p = some .directory then _ else _)
        split <;> rfl

/-- Where a file can be written does not depend on what is written. -/
theorem write_isOk {s s' : Store} {name : String} {data : Bytes} (h : s.write name data = .ok s')
    (data' : Bytes) : ∃ s'', s.write name data' = .ok s'' := by
  rw [write_eq] at h ⊢
  cases hpath : s.writePath name with
  | error fault => rw [hpath] at h; cases h
  | ok p => exact ⟨_, rfl⟩

/-- Nor does why it cannot be written. -/
theorem write_error {s : Store} {name : String} {data : Bytes} {fault : Fault}
    (h : s.write name data = .error fault) (data' : Bytes) : s.write name data' = .error fault := by
  rw [write_eq] at h ⊢
  cases hpath : s.writePath name with
  | error fault => rw [hpath] at h; exact h
  | ok p => rw [hpath] at h; cases h

theorem writePath_eq_ok_iff {s : Store} {name : String} {p : Path} :
    s.writePath name = .ok p ↔
      s.Finds name p ∧ trimParts (nameParts name) = nameParts name ∧
        s.node? p ≠ some .directory := by
  unfold writePath
  cases hname : checkName name with
  | error fault =>
    constructor
    · rintro ⟨⟩
    · rintro ⟨⟨hname', -⟩, -⟩
      cases hname.symm.trans hname'
  | ok u =>
    by_cases htrim : trimParts (nameParts name) = nameParts name
    · have hne : ¬ trimParts (nameParts name) ≠ nameParts name := fun h => h htrim
      simp only [if_neg hne]
      show (s.follow (nameParts name) (s.startOf name) >>= fun p => _) = _ ↔ _
      cases hfollow : s.follow (nameParts name) (s.startOf name) with
      | error fault =>
        constructor
        · rintro ⟨⟩
        · rintro ⟨⟨-, hfollow'⟩, -⟩
          cases hfollow.symm.trans hfollow'
      | ok q =>
        show (if s.node? q = some .directory then _ else _) = _ ↔ _
        constructor
        · intro h
          split at h
          · cases h
          · next hnode =>
            cases h
            exact ⟨⟨hname, hfollow⟩, htrim, hnode⟩
        · rintro ⟨⟨-, hfollow'⟩, -, hnode⟩
          cases hfollow.symm.trans hfollow'
          rw [if_neg hnode]
          rfl
    · simp only [if_pos (show trimParts (nameParts name) ≠ nameParts name from htrim)]
      constructor
      · intro h
        cases hfollow :
            s.follow ((trimParts (nameParts name)).dropLast ++ [""]) (s.startOf name) <;>
          rw [hfollow] at h <;> cases h
      · rintro ⟨-, htrim', -⟩
        exact absurd htrim' htrim

/-- What a write needs, and all it does. -/
theorem write_eq_ok_iff {s s' : Store} {name : String} {data : Bytes} :
    s.write name data = .ok s' ↔
      ∃ p, s.Finds name p ∧ trimParts (nameParts name) = nameParts name ∧
        s.node? p ≠ some .directory ∧ s' = s.insert p (.file data) := by
  rw [write_eq]
  constructor
  · intro h
    cases hpath : s.writePath name with
    | error fault => rw [hpath] at h; cases h
    | ok p =>
      obtain ⟨hfinds, htrim, hnode⟩ := writePath_eq_ok_iff.1 hpath
      rw [hpath] at h
      cases h
      exact ⟨p, hfinds, htrim, hnode, rfl⟩
  · rintro ⟨p, hfinds, htrim, hnode, rfl⟩
    rw [writePath_eq_ok_iff.2 ⟨hfinds, htrim, hnode⟩]
    rfl

/-- What can be written can still be written after something else was. -/
theorem write_isOk_of_write {s s' s'' : Store} {name other : String} {data data' : Bytes}
    (h : s.write name data = .ok s') (hother : s.write other data' = .ok s'') :
    ∃ t, s'.write other data' = .ok t := by
  obtain ⟨p, -, -, hnode, rfl⟩ := write_eq_ok_iff.1 h
  obtain ⟨q, ⟨hname, hfollow⟩, htrim, hnode', -⟩ := write_eq_ok_iff.1 hother
  have hfinds : (s.insert p (.file data)).Finds other q :=
    ⟨hname, (follow_insert_file hnode _ _ _ _).2 hfollow⟩
  refine ⟨_, write_eq_ok_iff.2 ⟨q, hfinds, htrim, ?_, rfl⟩⟩
  rw [node?_insert s (ne_nil_of_node? hnode)]
  split
  · exact nofun
  · exact hnode'

theorem finds_of_write {s s' : Store} {name other : String} {data : Bytes} {p : Path}
    (h : s.write name data = .ok s') : s'.Finds other p ↔ s.Finds other p := by
  obtain ⟨q, -, -, hnode, rfl⟩ := write_eq_ok_iff.1 h
  constructor
  · rintro ⟨hname, hfollow⟩
    exact ⟨hname, (follow_insert_file hnode _ _ _ _).1 hfollow⟩
  · rintro ⟨hname, hfollow⟩
    exact ⟨hname, (follow_insert_file hnode _ _ _ _).2 hfollow⟩

/-- What was written is read again. -/
theorem read_of_write {s s' : Store} {name : String} {data : Bytes}
    (h : s.write name data = .ok s') : s'.read name = .ok data := by
  obtain ⟨p, hfinds, -, hnode, hs'⟩ := write_eq_ok_iff.1 h
  rw [read_of_finds ((finds_of_write h).2 hfinds), hs',
    node?_insert s (ne_nil_of_node? hnode), if_pos rfl]

/-- A write leaves what a name that leads to another path has. -/
theorem read_of_write_ne {s s' : Store} {name other : String} {data : Bytes} {p q : Path}
    (h : s.write name data = .ok s') (hname : s.Finds name p) (hother : s.Finds other q)
    (hne : q ≠ p) : s'.read other = s.read other := by
  obtain ⟨r, hfinds, -, hnode, hs'⟩ := write_eq_ok_iff.1 h
  have hr : r = p := Except.ok.inj (hfinds.follows.symm.trans hname.follows)
  rw [read_of_finds ((finds_of_write h).2 hother), read_of_finds hother, hs',
    node?_insert s (ne_nil_of_node? hnode), if_neg (hr ▸ hne)]

end AndroidBoot.Store
