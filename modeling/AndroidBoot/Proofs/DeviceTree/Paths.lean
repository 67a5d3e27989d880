import AndroidBoot.DeviceTree.Property
import AndroidBoot.Proofs.Text.Words

/-!
# Components of paths

A path names a node below each slash. Slashes that stand side by side are as good as one, and those
at the ends of a path say nothing, so every text is a path and has its components in one way only.

    HasComponents path parts ↔ parts are the pieces of path that are not empty   (hasComponents_iff)
    HasComponents path.toList parts → pathParts path = parts.map Utf8.encodeChars
                                                                      (pathParts_of_hasComponents)
-/

namespace AndroidBoot.DeviceTree

/-- The components of a path, none of them empty or with a slash in it. Nothing else but slashes
stands in the path, at least one between two components. -/
inductive HasComponents : List Char → List (List Char) → Prop where
  | nil : HasComponents [] []
  | slash {path : List Char} {parts : List (List Char)} (hrest : HasComponents path parts) :
      HasComponents ('/' :: path) parts
  | last {part : List Char} (hne : part ≠ []) (hslash : '/' ∉ part) : HasComponents part [part]
  | front {part path : List Char} {parts : List (List Char)} (hne : part ≠ []) (hslash : '/' ∉ part)
      (hrest : HasComponents path parts) : HasComponents (part ++ '/' :: path) (part :: parts)

variable {path part : List Char} {parts : List (List Char)}

/-- A component is one piece. -/
theorem pieces_of_component (hne : part ≠ []) (hslash : '/' ∉ part) :
    (splitAtChars (· == '/') part).filter (!·.isEmpty) = [part] := by
  have hpiece : ∀ c ∈ part, (c == '/') = false := by
    intro c hc
    rw [beq_eq_false_iff_ne]
    rintro rfl
    exact hslash hc
  have hkept : (!part.isEmpty) = true := by rwa [Bool.not_eq_true', List.isEmpty_eq_false_iff]
  rw [splitAtChars_of_none hpiece]
  exact List.filter_cons_of_pos hkept

theorem pieces_of_hasComponents (h : HasComponents path parts) :
    (splitAtChars (· == '/') path).filter (!·.isEmpty) = parts := by
  induction h with
  | nil => rfl
  | @slash path parts _ ih =>
    rw [← List.nil_append ('/' :: path), splitAtChars_append rfl, List.filter_append, ih]
    rfl
  | last hne hslash => exact pieces_of_component hne hslash
  | front hne hslash _ ih =>
    rw [splitAtChars_append rfl, List.filter_append, pieces_of_component hne hslash, ih]
    rfl

/-- A character goes to the component behind it, or is one if a slash comes next. -/
theorem exists_hasComponents_cons {c : Char} (hc : c ≠ '/') (h : HasComponents path parts) :
    ∃ parts', HasComponents (c :: path) parts' := by
  have hone : '/' ∉ [c] := fun hmem => hc (List.mem_singleton.1 hmem).symm
  have hgrown : ∀ {part : List Char}, '/' ∉ part → '/' ∉ c :: part := fun hslash hmem =>
    (List.mem_cons.1 hmem).elim (fun heq => hc heq.symm) hslash
  cases h with
  | nil => exact ⟨_, .last (List.cons_ne_nil c []) hone⟩
  | slash hrest => exact ⟨_, .front (List.cons_ne_nil c []) hone hrest⟩
  | last _ hslash => exact ⟨_, .last (List.cons_ne_nil c _) (hgrown hslash)⟩
  | front _ hslash hrest => exact ⟨_, .front (List.cons_ne_nil c _) (hgrown hslash) hrest⟩

theorem exists_hasComponents (path : List Char) : ∃ parts, HasComponents path parts := by
  induction path with
  | nil => exact ⟨_, .nil⟩
  | cons c path ih =>
    obtain ⟨parts, h⟩ := ih
    by_cases hc : c = '/'
    · subst hc
      exact ⟨parts, .slash h⟩
    · exact exists_hasComponents_cons hc h

theorem hasComponents_iff : HasComponents path parts ↔
    parts = (splitAtChars (· == '/') path).filter (!·.isEmpty) := by
  constructor
  · exact fun h => (pieces_of_hasComponents h).symm
  · rintro rfl
    obtain ⟨parts, h⟩ := exists_hasComponents path
    rwa [pieces_of_hasComponents h]

theorem hasComponents_iff_eq (h : HasComponents path parts) {parts' : List (List Char)} :
    HasComponents path parts' ↔ parts' = parts := by
  rw [hasComponents_iff, pieces_of_hasComponents h]

/-- The parts that a lookup goes by are the components of its path. -/
theorem pathParts_of_hasComponents {path : String} (h : HasComponents path.toList parts) :
    pathParts path = parts.map Utf8.encodeChars := by
  rw [pathParts, pieces_of_hasComponents h]

end AndroidBoot.DeviceTree
