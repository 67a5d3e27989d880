import AndroidBoot.Proofs.Storage.Stores
import AndroidBoot.Proofs.Text.Words

/-!
# Files in a directory

A directory that a name leads to holds a file under each plain name. The name of such a file is the
name of the directory and the plain name behind it, whatever slashes the first one ends in, and
files with different plain names do not touch each other.

    s.Leads directory p → joinName directory a leads to p ++ [a]              (Leads.follow)
    a ≠ b → joinName directory a and joinName directory b lead to different paths
                                                                           (Leads.not_finds)
    s.makeDirectories directory = (.ok (), s') → s'.Leads directory p  (leads_of_makeDirectories)
-/

namespace AndroidBoot.Store

/-- A name of a single part, other than those that stay or go back. -/
structure PlainName (a : String) : Prop where
  noSlash : a.toList.all (· != '/') = true
  named : a ≠ "" ∧ a ≠ "." ∧ a ≠ ".."
  short : a.utf8ByteSize ≤ partLimit

/-- The name leads to a directory at the path. -/
structure Leads (s : Store) (directory : String) (p : Path) : Prop where
  follows : s.follow (nameParts directory) (s.startOf directory) = .ok p
  isDirectory : s.node? p = some .directory

/-! ## Parts of names -/

theorem PlainName.no_slash {a : String} (ha : PlainName a) :
    ∀ c ∈ a.toList, (c == '/') = false := by
  intro c hc
  have := List.all_eq_true.1 ha.noSlash c hc
  simpa using this

/-- The parts of the directory's name, without an empty one at its end, stand in front. -/
theorem nameParts_joinName {a : String} (ha : PlainName a) (directory : String) :
    ∃ front, nameParts (joinName directory a) = front ++ [a] ∧
      (nameParts directory = front ∨ nameParts directory = front ++ [""]) := by
  unfold joinName
  split
  · next hlast =>
    have hempty : directory.toList = [] := List.getLast?_eq_none_iff.1 hlast
    refine ⟨[], ?_, .inr ?_⟩
    · unfold nameParts
      rw [String.toList_append, hempty, List.nil_append, splitAtChars_of_none ha.no_slash,
        List.map_singleton, String.ofList_toList]
      rfl
    · unfold nameParts
      rw [hempty]
      rfl
  · next hlast =>
    obtain ⟨cs, hcs⟩ := List.getLast?_eq_some_iff.1 hlast
    refine ⟨(splitAtChars (· == '/') cs).map String.ofList, ?_, .inr ?_⟩
    · unfold nameParts
      rw [String.toList_append, hcs, List.append_assoc, List.singleton_append,
        splitAtChars_append (by decide), splitAtChars_of_none ha.no_slash, List.map_append,
        List.map_singleton, String.ofList_toList]
    · unfold nameParts
      rw [hcs, splitAtChars_append (by decide), List.map_append]
      rfl
  · refine ⟨nameParts directory, ?_, .inl rfl⟩
    unfold nameParts
    rw [String.toList_append, String.toList_append, List.append_assoc]
    show (splitAtChars _ (directory.toList ++ '/' :: a.toList)).map _ = _
    rw [splitAtChars_append (by decide), splitAtChars_of_none ha.no_slash, List.map_append,
      List.map_singleton, String.ofList_toList]

theorem head?_of_plainName {a : String} (ha : PlainName a) : a.toList.head? ≠ some '/' := by
  intro hhead
  have hmem : '/' ∈ a.toList := List.mem_of_mem_head? hhead
  have := ha.no_slash _ hmem
  simp at this

/-- A file in a directory is looked for from where the directory is. -/
theorem startOf_joinName {a : String} (ha : PlainName a) (s : Store) (directory : String) :
    s.startOf (joinName directory a) = s.startOf directory := by
  cases hchars : directory.toList with
  | nil =>
    unfold joinName startOf
    rw [hchars]
    show (if (directory ++ a).toList.head? = some '/' then _ else _) = _
    rw [String.toList_append, hchars, List.nil_append, if_neg (head?_of_plainName ha),
      if_neg (by simp)]
  | cons c cs =>
    have hhead : ∀ rest : List Char, (directory.toList ++ rest).head? = directory.toList.head? := by
      intro rest
      rw [hchars]
      rfl
    unfold joinName startOf
    split
    · rw [String.toList_append, hhead]
    · rw [String.toList_append, hhead]
    · rw [String.toList_append, String.toList_append, List.append_assoc, hhead]

theorem trimParts_concat {a : String} (ha : a ≠ "") (front : List String) :
    trimParts (front ++ [a]) = front ++ [a] := by
  unfold trimParts
  rw [List.reverse_append, List.reverse_singleton, List.singleton_append,
    List.dropWhile_cons_of_neg (by simpa using ha), List.reverse_cons, List.reverse_reverse]

/-- A name is the parts that count and then empty ones. -/
theorem trimParts_append (parts : List String) :
    ∃ n, parts = trimParts parts ++ List.replicate n "" := by
  have hsplit : parts = ((parts.reverse.takeWhile (· = "")) ++
      (parts.reverse.dropWhile (· = ""))).reverse := by
    rw [List.takeWhile_append_dropWhile, List.reverse_reverse]
  refine ⟨(parts.reverse.takeWhile (· = "")).length, ?_⟩
  have hblank : (parts.reverse.takeWhile (· = "")).reverse
      = List.replicate (parts.reverse.takeWhile (· = "")).length "" := by
    rw [List.eq_replicate_iff]
    refine ⟨List.length_reverse, fun part hpart => ?_⟩
    have := List.all_eq_true.1 List.all_takeWhile part (List.mem_reverse.1 hpart)
    simpa using this
  rw [List.reverse_append, hblank] at hsplit
  exact hsplit

/-! ## Walks -/

theorem follow_append (s : Store) (parts parts' : List String) (p : Path) :
    s.follow (parts ++ parts') p = s.follow parts p >>= s.follow parts' := by
  induction parts generalizing p with
  | nil => rfl
  | cons part parts ih =>
    rw [List.cons_append, follow, follow]
    cases s.node? p with
    | none => rfl
    | some n =>
      cases n with
      | file _ => rfl
      | directory =>
        simp only []
        split
        · rfl
        · exact ih _

/-- From a directory on. -/
theorem follow_of_directory {s : Store} {p : Path} (hp : s.node? p = some .directory)
    {part : String} (hpart : part.utf8ByteSize ≤ partLimit) (parts : List String) :
    s.follow (part :: parts) p = s.follow parts (if part = "" ∨ part = "." then p
      else if part = ".." then p.dropLast else p ++ [part]) := by
  rw [follow, hp]
  simp only []
  rw [if_neg (Nat.not_lt.2 hpart)]

theorem follow_blanks {s : Store} {p : Path} (hp : s.node? p = some .directory) (n : Nat) :
    s.follow (List.replicate n "") p = .ok p := by
  induction n with
  | zero => rfl
  | succ n ih =>
    rw [List.replicate_succ, follow_of_directory hp (by decide), if_pos (.inl rfl), ih]

/-- A walk can only stay where a directory is. -/
theorem eq_of_follow_concat_blank {s : Store} {parts : List String} {start p : Path}
    (h : s.follow (parts ++ [""]) start = .ok p) :
    s.follow parts start = .ok p ∧ s.node? p = some .directory := by
  rw [follow_append] at h
  cases hparts : s.follow parts start with
  | error fault =>
    rw [hparts] at h
    cases h
  | ok q =>
    rw [hparts] at h
    replace h : s.follow [""] q = .ok p := h
    cases hq : s.node? q with
    | none =>
      rw [follow, hq] at h
      cases h
    | some n =>
      cases n with
      | file _ =>
        rw [follow, hq] at h
        cases h
      | directory =>
        rw [@follow_of_directory s q hq "" (by decide) [], if_pos (.inl rfl)] at h
        cases h
        exact ⟨rfl, hq⟩

/-! ## Files -/

section
variable {s s' : Store} {directory a b : String} {p : Path} {data : Bytes}

/-- A file in a directory lies right below it. -/
theorem Leads.follow (h : s.Leads directory p) (ha : PlainName a) :
    s.follow (nameParts (joinName directory a)) (s.startOf (joinName directory a))
      = .ok (p ++ [a]) := by
  obtain ⟨front, hparts, hfront⟩ := nameParts_joinName ha directory
  have hwalk : s.follow front (s.startOf directory) = .ok p := by
    rcases hfront with hfront | hfront
    · rw [← hfront]
      exact h.follows
    · exact (eq_of_follow_concat_blank (hfront ▸ h.follows)).1
  rw [startOf_joinName ha, hparts, follow_append, hwalk]
  show s.follow [a] p = _
  rw [follow_of_directory h.isDirectory ha.short, if_neg (not_or.2 ⟨ha.named.1, ha.named.2.1⟩),
    if_neg ha.named.2.2]
  rfl

theorem Leads.finds (h : s.Leads directory p) (ha : PlainName a)
    (hname : checkName (joinName directory a) = .ok ()) :
    s.Finds (joinName directory a) (p ++ [a]) := ⟨hname, h.follow ha⟩

/-- Files with different plain names are different files. -/
theorem Leads.not_finds (h : s.Leads directory p) (ha : PlainName a) (hb : PlainName b)
    (hne : a ≠ b) {q : Path} (hfinds : s.Finds (joinName directory a) q) :
    ¬ s.Finds (joinName directory b) q := by
  intro hfinds'
  have hq : q = p ++ [a] := Except.ok.inj (hfinds.follows.symm.trans (h.follow ha))
  have hq' : q = p ++ [b] := Except.ok.inj (hfinds'.follows.symm.trans (h.follow hb))
  exact hne (by simpa using hq.symm.trans hq')

/-- Writing a file leaves directories where they are. -/
theorem Leads.of_write {name : String} (h : s.Leads directory p)
    (hwrite : s.write name data = .ok s') : s'.Leads directory p := by
  obtain ⟨q, -, -, hnode, rfl⟩ := write_eq_ok_iff.1 hwrite
  refine ⟨(follow_insert_file hnode _ _ _ _).2 h.follows, ?_⟩
  have hne : p ≠ q := by
    rintro rfl
    exact hnode h.isDirectory
  rw [node?_insert s (ne_nil_of_node? hnode), if_neg hne]
  exact h.isDirectory

theorem checkName_error {name : String} {fault : Fault} (h : checkName name = .error fault) :
    fault ≠ .notFound := by
  rintro rfl
  have hname : checkName name = if name.toList.contains '\x00' = true then .error .invalidInput
      else if nameLimit ≤ name.utf8ByteSize then .error .nameTooLong else .ok () := by
    unfold checkName
    by_cases hzero : name.toList.contains '\x00' = true
    · rw [if_pos hzero, if_pos hzero]
      rfl
    · rw [if_neg hzero, if_neg hzero]
      rfl
  rw [hname] at h
  split at h
  · cases h
  · split at h <;> cases h

theorem Leads.finds_of_notFound (h : s.Leads directory p) (ha : PlainName a)
    (hread : s.read (joinName directory a) = .error (.opening .notFound)) :
    s.Finds (joinName directory a) (p ++ [a]) ∧ s.node? (p ++ [a]) = none := by
  cases hname : checkName (joinName directory a) with
  | error fault =>
    unfold read at hread
    rw [hname] at hread
    have hfault : fault = .notFound := by
      replace hread : Except.error (ReadFault.opening fault) = Except.error (α := Bytes)
        (.opening .notFound) := hread
      simpa using hread
    exact absurd hfault (checkName_error hname)
  | ok u =>
    have hfinds := h.finds ha hname
    rw [read_of_finds hfinds] at hread
    refine ⟨hfinds, ?_⟩
    cases hnode : s.node? (p ++ [a]) with
    | none => rfl
    | some n =>
      rw [hnode] at hread
      cases n <;> cases hread

/-- Where a directory has no file, there is room for one. -/
theorem Leads.write_of_notFound (h : s.Leads directory p) (ha : PlainName a)
    (hread : s.read (joinName directory a) = .error (.opening .notFound)) (data : Bytes) :
    ∃ s', s.write (joinName directory a) data = .ok s' := by
  obtain ⟨hfinds, hnode⟩ := h.finds_of_notFound ha hread
  obtain ⟨front, hparts, -⟩ := nameParts_joinName ha directory
  refine ⟨_, write_eq_ok_iff.2 ⟨_, hfinds, ?_, ?_, rfl⟩⟩
  · rw [hparts, trimParts_concat ha.named.1]
  · rw [hnode]
    exact nofun

end

/-! ## Making directories -/

/-- A walk does not notice a directory where nothing was. -/
theorem follow_insert_directory {s : Store} {p : Path} (hp : s.node? p = none)
    {parts : List String} {start q : Path} (h : s.follow parts start = .ok q) :
    (s.insert p .directory).follow parts start = .ok q := by
  have hne : p ≠ [] := ne_nil_of_node? (by rw [hp]; exact nofun)
  induction parts generalizing start with
  | nil => exact h
  | cons part parts ih =>
    rw [Store.follow] at h ⊢
    rw [node?_insert s hne]
    by_cases hstart : start = p
    · subst hstart
      rw [hp] at h
      cases h
    · rw [if_neg hstart]
      cases hn : s.node? start with
      | none => rw [hn] at h; cases h
      | some n =>
        rw [hn] at h
        cases n with
        | file _ => cases h
        | directory =>
          simp only [] at h ⊢
          split at h
          · cases h
          · next hpart =>
            rw [if_neg hpart]
            exact ih h

theorem isDirectory_eq_true_iff {s : Store} {start : Path} {parts : List String} :
    s.isDirectory start parts = true ↔
      ∃ p, s.follow parts start = .ok p ∧ s.node? p = some .directory := by
  unfold isDirectory
  cases s.follow parts start with
  | error fault => simp
  | ok p => simp

/-- A directory is made where nothing was. -/
theorem makeDirectory_eq_ok {s s' : Store} {start : Path} {parts : List String}
    (h : s.makeDirectory start parts = .ok s') :
    ∃ p, s.follow (trimParts parts) start = .ok p ∧ s.node? p = none ∧
      s' = s.insert p .directory := by
  unfold makeDirectory at h
  cases hfollow : s.follow (trimParts parts) start with
  | error fault => rw [hfollow] at h; cases h
  | ok p =>
    rw [hfollow] at h
    replace h : (if (s.node? p).isSome = true
        then (throw .alreadyExists >>= fun _ => pure (s.insert p .directory))
        else pure (s.insert p .directory)) = (.ok s' : Except Fault Store) := h
    cases hnode : s.node? p with
    | some n => rw [hnode] at h; cases h
    | none =>
      rw [hnode] at h
      cases h
      exact ⟨p, rfl, hnode, rfl⟩

theorem isDirectory_of_makeDirectory {s s' : Store} {start : Path} {parts : List String}
    (h : s.makeDirectory start parts = .ok s') :
    s'.isDirectory start parts = true ∧ s'.current = s.current := by
  obtain ⟨p, hfollow, hnode, rfl⟩ := makeDirectory_eq_ok h
  have hne : p ≠ [] := ne_nil_of_node? (by rw [hnode]; exact nofun)
  have hmade : (s.insert p .directory).node? p = some .directory := by
    rw [node?_insert s hne, if_pos rfl]
  refine ⟨isDirectory_eq_true_iff.2 ⟨p, ?_, hmade⟩, rfl⟩
  obtain ⟨n, hparts⟩ := trimParts_append parts
  rw [hparts, follow_append, follow_insert_directory hnode hfollow]
  exact follow_blanks hmade n

theorem current_makeWithParents (s : Store) (start : Path) (parts : List String) :
    (s.makeWithParents start parts).2.current = s.current := by
  fun_induction makeWithParents s start parts with
  | case1 => rfl
  | case2 parts hparts s' hmade => exact (isDirectory_of_makeDirectory hmade).2
  | case3 parts hparts hmissing fault s' hparents ih =>
    rw [hparents] at ih
    exact ih
  | case4 parts hparts hmissing s' hparents s'' hmade ih =>
    rw [hparents] at ih
    rw [← ih]
    exact (isDirectory_of_makeDirectory hmade).2
  | case5 parts hparts hmissing s' hparents fault hfault ih =>
    rw [hparents] at ih
    exact ih
  | case6 => rfl

theorem isDirectory_of_makeWithParents {s s' : Store} {start : Path} {parts : List String}
    (hparts : parts ≠ []) (h : s.makeWithParents start parts = (.ok (), s')) :
    s'.isDirectory start parts = true := by
  rw [makeWithParents, dif_neg hparts] at h
  split at h
  · next hmade =>
    cases h
    exact (isDirectory_of_makeDirectory hmade).1
  · split at h
    · cases h
    · split at h
      · next hmade =>
        cases h
        exact (isDirectory_of_makeDirectory hmade).1
      · split at h
        · next hthere =>
          cases h
          exact hthere
        · cases h
  · split at h
    · next hthere =>
      cases h
      exact hthere
    · cases h

/-- Making directories leaves every file. -/
theorem read_of_makeDirectory {s s' : Store} {start : Path} {parts : List String} {name : String}
    {data : Bytes} (h : s.makeDirectory start parts = .ok s') (hread : s.read name = .ok data) :
    s'.read name = .ok data := by
  obtain ⟨p, -, hnode, rfl⟩ := makeDirectory_eq_ok h
  obtain ⟨q, hfinds, hfile⟩ := finds_of_read hread
  have hne : q ≠ p := by
    rintro rfl
    rw [hnode] at hfile
    cases hfile
  have hfinds' : (s.insert p .directory).Finds name q :=
    ⟨hfinds.name_ok, follow_insert_directory hnode hfinds.follows⟩
  rw [read_of_finds hfinds', node?_insert s (ne_nil_of_node? (by rw [hnode]; exact nofun)),
    if_neg hne, hfile]

theorem read_of_makeWithParents {s : Store} (start : Path) (parts : List String) {name : String}
    {data : Bytes} (hread : s.read name = .ok data) :
    (s.makeWithParents start parts).2.read name = .ok data := by
  fun_induction makeWithParents s start parts with
  | case1 => exact hread
  | case2 parts hparts s' hmade => exact read_of_makeDirectory hmade hread
  | case3 parts hparts hmissing fault s' hparents ih =>
    rw [hparents] at ih
    exact ih
  | case4 parts hparts hmissing s' hparents s'' hmade ih =>
    rw [hparents] at ih
    exact read_of_makeDirectory hmade ih
  | case5 parts hparts hmissing s' hparents fault hfault ih =>
    rw [hparents] at ih
    exact ih
  | case6 => exact hread

theorem read_of_makeDirectories {s s' : Store} {directory name : String} {data : Bytes}
    (h : s.makeDirectories directory = (.ok (), s')) (hread : s.read name = .ok data) :
    s'.read name = .ok data := by
  unfold makeDirectories at h
  cases hname : checkName directory with
  | error fault => rw [hname] at h; cases h
  | ok u =>
    rw [hname] at h
    replace h : s.makeWithParents (s.startOf directory) (nameParts directory) = (.ok (), s') := h
    have hkept := read_of_makeWithParents (s.startOf directory) (nameParts directory) hread
    rw [h] at hkept
    exact hkept

theorem nameParts_ne_nil (name : String) : nameParts name ≠ [] := by
  unfold nameParts
  rw [ne_eq, List.map_eq_nil_iff]
  exact splitAtChars_ne_nil _ _

/-- A directory that was made with its parents is there. -/
theorem leads_of_makeDirectories {s s' : Store} {directory : String}
    (h : s.makeDirectories directory = (.ok (), s')) : ∃ p, s'.Leads directory p := by
  unfold makeDirectories at h
  cases hname : checkName directory with
  | error fault => rw [hname] at h; cases h
  | ok u =>
    rw [hname] at h
    replace h : s.makeWithParents (s.startOf directory) (nameParts directory) = (.ok (), s') := h
    have hcurrent := s.current_makeWithParents (s.startOf directory) (nameParts directory)
    rw [h] at hcurrent
    obtain ⟨p, hfollow, hnode⟩ := isDirectory_eq_true_iff.1
      (isDirectory_of_makeWithParents (nameParts_ne_nil directory) h)
    refine ⟨p, ?_, hnode⟩
    unfold startOf at hfollow ⊢
    rw [hcurrent]
    exact hfollow

theorem follow_of_append_blanks {s : Store} {parts : List String} {start p : Path} (n : Nat)
    (h : s.follow (parts ++ List.replicate n "") start = .ok p) : s.follow parts start = .ok p := by
  induction n with
  | zero =>
    rw [List.replicate_zero, List.append_nil] at h
    exact h
  | succ n ih =>
    rw [List.replicate_succ', ← List.append_assoc] at h
    exact ih (eq_of_follow_concat_blank h).1

/-- A file that can be read can be written in place. -/
theorem write_of_read {s : Store} {name : String} {data : Bytes} (h : s.read name = .ok data)
    (data' : Bytes) : ∃ s', s.write name data' = .ok s' := by
  obtain ⟨p, hfinds, hnode⟩ := finds_of_read h
  refine ⟨_, write_eq_ok_iff.2 ⟨p, hfinds, ?_, ?_, rfl⟩⟩
  · obtain ⟨n, hparts⟩ := trimParts_append (nameParts name)
    cases n with
    | zero =>
      rw [List.replicate_zero, List.append_nil] at hparts
      exact hparts.symm
    | succ n =>
      -- a name that ends in a slash leads to a directory
      have hfollow := hfinds.follows
      rw [hparts, List.replicate_succ', ← List.append_assoc] at hfollow
      have hdirectory := (eq_of_follow_concat_blank hfollow).2
      rw [hnode] at hdirectory
      cases hdirectory
  · rw [hnode]
    exact nofun

/-- A directory that is there is left as it is. -/
theorem Leads.makeDirectories {s : Store} {directory : String} {p : Path}
    (h : s.Leads directory p) (hname : checkName directory = .ok ()) :
    s.makeDirectories directory = (.ok (), s) := by
  have hthere : s.isDirectory (s.startOf directory) (nameParts directory) = true :=
    isDirectory_eq_true_iff.2 ⟨p, h.follows, h.isDirectory⟩
  have hfollow : s.follow (trimParts (nameParts directory)) (s.startOf directory) = .ok p := by
    obtain ⟨n, hparts⟩ := trimParts_append (nameParts directory)
    exact follow_of_append_blanks n (hparts ▸ h.follows)
  have hexists : s.makeDirectory (s.startOf directory) (nameParts directory)
      = .error .alreadyExists := by
    unfold makeDirectory
    rw [hfollow]
    show (if (s.node? p).isSome = true then _ else _) = _
    rw [h.isDirectory]
    rfl
  unfold Store.makeDirectories
  rw [hname]
  show s.makeWithParents (s.startOf directory) (nameParts directory) = _
  rw [makeWithParents, dif_neg (nameParts_ne_nil directory), hexists]
  simp only []
  rw [if_pos hthere]

end AndroidBoot.Store
