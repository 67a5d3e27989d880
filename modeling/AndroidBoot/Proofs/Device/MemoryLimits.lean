import AndroidBoot.Device.Memory

/-!
# Memory limits

A table is searched from its end for a threshold that the memory reaches. The entry found is the
last one with a threshold within the memory; that no entry in front of it has a larger one is what
the ascending order is needed for.

    DecidingEntry ddrSize table entry ↔ entry is reached, and none behind it  (decidingEntry_iff)
    LeavesUnused ddrSize table amount ↔ amount = unusedAmount ddrSize table   (leavesUnused_iff)
-/

namespace AndroidBoot

/-- The entry has the largest threshold that is reached, and no entry behind it has the same. -/
structure DecidingEntry (ddrSize : UInt64) (table : List (UInt64 × UInt64))
    (entry : UInt64 × UInt64) : Prop where
  reached : entry.1 ≤ ddrSize
  largest : ∀ other ∈ table, other.1 ≤ ddrSize → other.1 ≤ entry.1
  last : ∃ before after, table = before ++ entry :: after ∧ ∀ other ∈ after, other.1 ≠ entry.1

/-- The amount that is left unused: that of the entry that decides, and nothing if no threshold is
reached. -/
inductive LeavesUnused (ddrSize : UInt64) (table : List (UInt64 × UInt64)) : UInt64 → Prop
  | ofEntry {entry : UInt64 × UInt64} (h : DecidingEntry ddrSize table entry) :
      LeavesUnused ddrSize table entry.2
  | nothing (h : ∀ entry ∈ table, ddrSize < entry.1) : LeavesUnused ddrSize table 0

section

variable {ddrSize minDdrSize : UInt64} {table : List (UInt64 × UInt64)}

theorem find?_reverse_eq_none_iff :
    (table.reverse.find? fun entry => entry.1 ≤ ddrSize) = none
      ↔ ∀ entry ∈ table, ddrSize < entry.1 := by
  simp [List.find?_eq_none, UInt64.not_le]

/-- The entry that is found is reached, and none behind it is. -/
theorem find?_reverse_eq_some_iff {entry : UInt64 × UInt64} :
    (table.reverse.find? fun entry => entry.1 ≤ ddrSize) = some entry ↔
      entry.1 ≤ ddrSize ∧ ∃ before after, table = before ++ entry :: after ∧
        ∀ other ∈ after, ddrSize < other.1 := by
  rw [List.find?_eq_some_iff_append, decide_eq_true_iff]
  refine and_congr_right fun _ => ⟨?_, ?_⟩
  · rintro ⟨after, before, hsplit, hafter⟩
    refine ⟨before.reverse, after.reverse, ?_, by simpa [UInt64.not_le] using hafter⟩
    rw [← table.reverse_reverse, hsplit, List.reverse_append, List.reverse_cons,
      List.append_assoc, List.singleton_append]
  · rintro ⟨before, after, rfl, hafter⟩
    refine ⟨after.reverse, before.reverse, ?_, by simpa [UInt64.not_le] using hafter⟩
    rw [List.reverse_append, List.reverse_cons, List.append_assoc, List.singleton_append]

theorem ascending_around {before after : List (UInt64 × UInt64)} {entry : UInt64 × UInt64}
    (hsorted : (before ++ entry :: after).Pairwise (·.1 ≤ ·.1)) :
    (∀ other ∈ before, other.1 ≤ entry.1) ∧ ∀ other ∈ after, entry.1 ≤ other.1 := by
  rw [List.pairwise_append, List.pairwise_cons] at hsorted
  exact ⟨fun other hother => hsorted.2.2 other hother entry List.mem_cons_self, hsorted.2.1.1⟩

/-- In ascending order the entry that decides is the last one that is reached. -/
theorem decidingEntry_iff (hsorted : table.Pairwise (·.1 ≤ ·.1)) {entry : UInt64 × UInt64} :
    DecidingEntry ddrSize table entry ↔
      entry.1 ≤ ddrSize ∧ ∃ before after, table = before ++ entry :: after ∧
        ∀ other ∈ after, ddrSize < other.1 := by
  constructor
  · rintro ⟨hreached, hlargest, before, after, rfl, hlast⟩
    refine ⟨hreached, before, after, rfl, fun other hother => UInt64.not_le.1 fun hle => ?_⟩
    -- An entry behind it that is reached would have the same threshold.
    have hmem : other ∈ before ++ entry :: after :=
      List.mem_append_right _ (List.mem_cons_of_mem _ hother)
    have hge := (ascending_around hsorted).2 other hother
    exact hlast other hother (UInt64.le_antisymm (hlargest other hmem hle) hge)
  · rintro ⟨hreached, before, after, rfl, hafter⟩
    refine ⟨hreached, fun other hother hle => ?_, before, after, rfl, fun other hother heq => ?_⟩
    · rcases List.mem_append.1 hother with hfront | hback
      · exact (ascending_around hsorted).1 other hfront
      · rcases List.mem_cons.1 hback with rfl | hback
        · exact UInt64.le_refl _
        · exact absurd hle (UInt64.not_le.2 (hafter other hback))
    · exact absurd (heq ▸ hafter other hother) (UInt64.not_lt.2 hreached)

theorem leavesUnused_iff (hsorted : table.Pairwise (·.1 ≤ ·.1)) {amount : UInt64} :
    LeavesUnused ddrSize table amount ↔ amount = unusedAmount ddrSize table := by
  unfold unusedAmount
  constructor
  · rintro (hentry | hnone)
    · rw [find?_reverse_eq_some_iff.2 ((decidingEntry_iff hsorted).1 hentry)]
    · rw [find?_reverse_eq_none_iff.2 hnone]
  · rintro rfl
    cases hfind : table.reverse.find? fun entry => entry.1 ≤ ddrSize with
    | some entry =>
      exact .ofEntry ((decidingEntry_iff hsorted).2 (find?_reverse_eq_some_iff.1 hfind))
    | none => exact .nothing (find?_reverse_eq_none_iff.1 hfind)

/-- Entries at the end that are not reached are passed over. -/
theorem unusedAmount_append {more : List (UInt64 × UInt64)}
    (h : ∀ entry ∈ more, ddrSize < entry.1) :
    unusedAmount ddrSize (table ++ more) = unusedAmount ddrSize table := by
  unfold unusedAmount
  rw [List.reverse_append, List.find?_append, find?_reverse_eq_none_iff.2 h, Option.none_or]

theorem usableMemory_of_none (h : ddrSize < minDdrSize ∨ table = []) :
    usableMemory ddrSize minDdrSize table = none :=
  if_pos (h.imp_right List.isEmpty_iff.2)

theorem usableMemory_of_some (h : ¬ (ddrSize < minDdrSize ∨ table = [])) :
    usableMemory ddrSize minDdrSize table
      = some (ddrSize.toNat - (unusedAmount ddrSize table).toNat) :=
  if_neg (mt (Or.imp_right List.isEmpty_iff.1) h)

theorem usableMemory_eq_none_iff :
    usableMemory ddrSize minDdrSize table = none ↔ ddrSize < minDdrSize ∨ table = [] := by
  by_cases hnone : ddrSize < minDdrSize ∨ table = []
  · exact iff_of_true (usableMemory_of_none hnone) hnone
  · rw [usableMemory_of_some hnone]
    exact iff_of_false nofun hnone

theorem usableMemory_eq_some_iff {limit : Nat} :
    usableMemory ddrSize minDdrSize table = some limit ↔ ¬ (ddrSize < minDdrSize ∨ table = []) ∧
      ddrSize.toNat - (unusedAmount ddrSize table).toNat = limit := by
  by_cases hnone : ddrSize < minDdrSize ∨ table = []
  · rw [usableMemory_of_none hnone]
    exact iff_of_false nofun fun h => h.1 hnone
  · rw [usableMemory_of_some hnone, Option.some_inj, and_iff_right hnone]

theorem usableMemory_append {more : List (UInt64 × UInt64)} (hne : table ≠ [])
    (h : ∀ entry ∈ more, ddrSize < entry.1) :
    usableMemory ddrSize minDdrSize (table ++ more) = usableMemory ddrSize minDdrSize table := by
  by_cases hsmall : ddrSize < minDdrSize
  · rw [usableMemory_of_none (.inl hsmall), usableMemory_of_none (.inl hsmall)]
  · have hmore : table ++ more ≠ [] := fun hnil => hne (List.append_eq_nil_iff.1 hnil).1
    rw [usableMemory_of_some (not_or.2 ⟨hsmall, hmore⟩), unusedAmount_append h,
      usableMemory_of_some (not_or.2 ⟨hsmall, hne⟩)]

end

/-- **Memory limits.** There is no limit exactly if the memory is too small or the table empty. In
ascending order the limit is the memory without the amount of the entry that decides, or all of it
if no threshold is reached, and never below zero. So it is within the memory, and entries that are
not reached may follow without a change to it. -/
theorem usableMemory_of_ascending (ddrSize minDdrSize : UInt64) {table : List (UInt64 × UInt64)}
    (hsorted : table.Pairwise (·.1 ≤ ·.1)) :
    (usableMemory ddrSize minDdrSize table = none ↔ ddrSize < minDdrSize ∨ table = []) ∧
    (∀ limit, usableMemory ddrSize minDdrSize table = some limit ↔
      ¬ (ddrSize < minDdrSize ∨ table = []) ∧
        ∃ amount, LeavesUnused ddrSize table amount ∧ ddrSize.toNat - amount.toNat = limit) ∧
    (∀ limit, usableMemory ddrSize minDdrSize table = some limit → limit ≤ ddrSize.toNat) ∧
    ∀ more, table ≠ [] → (∀ entry ∈ more, ddrSize < entry.1) →
      usableMemory ddrSize minDdrSize (table ++ more) = usableMemory ddrSize minDdrSize table := by
  refine ⟨usableMemory_eq_none_iff, fun limit => ?_, fun limit hlimit => ?_,
    fun more => usableMemory_append⟩
  · simp only [usableMemory_eq_some_iff, leavesUnused_iff hsorted, exists_eq_left]
  · obtain ⟨-, rfl⟩ := usableMemory_eq_some_iff.1 hlimit
    exact Nat.sub_le _ _

/-- The second of two entries with a threshold that is just reached decides. -/
theorem usableMemory_of_repeated :
    [((4 : UInt64), (1 : UInt64)), (8, 2), (8, 3), (9, 20)].Pairwise (·.1 ≤ ·.1) ∧
    usableMemory 8 4 [(4, 1), (8, 2), (8, 3), (9, 20)] = some 5 ∧
    ∃ amount, LeavesUnused 8 [(4, 1), (8, 2), (8, 3), (9, 20)] amount ∧
      (8 : UInt64).toNat - amount.toNat = 5 := by
  have hsorted : [((4 : UInt64), (1 : UInt64)), (8, 2), (8, 3), (9, 20)].Pairwise (·.1 ≤ ·.1) := by
    decide
  have hlimit : usableMemory 8 4 [(4, 1), (8, 2), (8, 3), (9, 20)] = some 5 := by decide
  obtain ⟨-, hiff, -⟩ := usableMemory_of_ascending 8 4 hsorted
  exact ⟨hsorted, hlimit, ((hiff 5).1 hlimit).2⟩

end AndroidBoot
