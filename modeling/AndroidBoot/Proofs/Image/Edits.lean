import AndroidBoot.Proofs.Image.Placement
import AndroidBoot.Proofs.Image.Resizing

/-!
# Sizes changed in a row

A header takes a size for a kind of region that it describes and refuses it for every other kind.
Behind any number of such calls each kind has the last size that it was given, and the rest of the
header is what it was; only the table of ramdisks also says how many entries its new size is for.
The offset of the recovery partition does not follow by itself: it is set anew from the layout.

    EditedBy h es g → EditedBy g es' k → EditedBy h (es ++ es') k              (EditedBy.trans)
    EditedBy h es (h.editAll es)                                            (editedBy_editAll)
    h.layout = .ok regions → h.withOffsets = .ok (h.placed regions)           (withOffsets_eq)
-/

namespace AndroidBoot

/-- The last size that a kind is given. -/
def lastSize? (es : List (RegionKind × UInt32)) (kind : RegionKind) : Option UInt32 :=
  es.reverse.lookup kind

namespace ImageHeader

/-- The header behind a call that may fail: a call that fails leaves it as it is. -/
def kept (h : ImageHeader) : Except ImageError ImageHeader → ImageHeader
  | .ok h' => h'
  | .error _ => h

/-- The header behind a call that gives a kind of region a size. -/
def edit (h : ImageHeader) (e : RegionKind × UInt32) : ImageHeader :=
  h.kept (h.resizeRegion e.1 e.2)

def editAll (h : ImageHeader) (es : List (RegionKind × UInt32)) : ImageHeader := es.foldl edit h

/-- The size of an entry of the ramdisk table and the number of entries. -/
def tableEntries? : ImageHeader → Option (UInt32 × UInt32)
  | vendor (.v4 _ e4) => some (e4.tableEntrySize, e4.tableEntryCount)
  | _ => none

def recoveryDtboOffset? : ImageHeader → Option UInt64
  | boot (.v1 _ e1) => some e1.recoveryDtboOffset
  | boot (.v2 _ e1 _) => some e1.recoveryDtboOffset
  | _ => none

/-- `g` is `h` with the last sizes that the edits give its kinds. -/
structure EditedBy (h : ImageHeader) (es : List (RegionKind × UInt32)) (g : ImageHeader) :
    Prop where
  sizes : g.regionSizes = h.regionSizes.map fun p => (p.1, (lastSize? es p.1).getD p.2)
  /-- With the same sizes for all regions, both are the same header. -/
  others : ∀ size, g.sized size = h.sized size
  /-- A table that is given a size holds entries of 108 bytes. -/
  tableEntries : g.tableEntries? = h.tableEntries?.map fun entries =>
    ((lastSize? es .vendorRamdiskTable).map fun size => (108, size / 108)).getD entries

/-! ## One edit -/

variable {h g : ImageHeader} {kind : RegionKind}

theorem version_sized (h : ImageHeader) (size : RegionKind → UInt32) :
    (h.sized size).version = h.version := by
  rcases h with (_ | _ | _ | _ | _) | (_ | _) <;> rfl

/-- A header takes a size for every kind that it describes. -/
theorem resizeRegion_of_mem (size : UInt32) (hkind : kind ∈ h.regionKinds) :
    ∃ g, h.resizeRegion kind size = .ok g ∧ EditedBy h [(kind, size)] g := by
  rcases h with (base | ⟨base, e1⟩ | ⟨base, e1, e2⟩ | base | ⟨base, e4⟩) | (base | ⟨base, e4⟩) <;>
    simp only [regionKinds, BootHeader.regionKinds, BootHeader.regionSizes,
      VendorHeader.regionKinds, VendorHeader.regionSizes, List.map_cons, List.map_nil,
      List.mem_cons, List.not_mem_nil, or_false] at hkind
  · rcases hkind with rfl | rfl | rfl <;> exact ⟨_, rfl, rfl, fun _ => rfl, rfl⟩
  · rcases hkind with rfl | rfl | rfl | rfl <;> exact ⟨_, rfl, rfl, fun _ => rfl, rfl⟩
  · rcases hkind with rfl | rfl | rfl | rfl | rfl <;> exact ⟨_, rfl, rfl, fun _ => rfl, rfl⟩
  · rcases hkind with rfl | rfl <;> exact ⟨_, rfl, rfl, fun _ => rfl, rfl⟩
  · rcases hkind with rfl | rfl | rfl <;> exact ⟨_, rfl, rfl, fun _ => rfl, rfl⟩
  · rcases hkind with rfl | rfl <;> exact ⟨_, rfl, rfl, fun _ => rfl, rfl⟩
  · rcases hkind with rfl | rfl | rfl | rfl <;> exact ⟨_, rfl, rfl, fun _ => rfl, rfl⟩

/-- What a header does not describe has no size. -/
theorem resizeRegion_of_not_mem (size : UInt32) (hkind : kind ∉ h.regionKinds) :
    h.resizeRegion kind size = .error (.noRegion kind h.version) := by
  rcases h with (base | ⟨base, e1⟩ | ⟨base, e1, e2⟩ | base | ⟨base, e4⟩) | (base | ⟨base, e4⟩) <;>
    cases kind <;>
    simp [regionKinds, BootHeader.regionKinds, BootHeader.regionSizes,
      VendorHeader.regionKinds, VendorHeader.regionSizes] at hkind <;>
    rfl

theorem tableEntries?_of_not_mem (hkind : .vendorRamdiskTable ∉ h.regionKinds) :
    h.tableEntries? = none := by
  rcases h with _ | (base | ⟨base, e4⟩)
  · rfl
  · rfl
  · exact absurd (by simp [regionKinds, VendorHeader.regionKinds, VendorHeader.regionSizes]) hkind

theorem lastSize?_append (es es' : List (RegionKind × UInt32)) (kind : RegionKind) :
    lastSize? (es ++ es') kind = (lastSize? es' kind).or (lastSize? es kind) := by
  rw [lastSize?, List.reverse_append, List.lookup_append]
  rfl

theorem lastSize?_singleton (kind kind' : RegionKind) (size : UInt32) :
    lastSize? [(kind, size)] kind' = if kind' = kind then some size else none := by
  rw [lastSize?, List.reverse_singleton, List.lookup_cons, List.lookup_nil]
  by_cases h : kind' = kind
  · rw [if_pos h, beq_iff_eq.2 h]
  · rw [if_neg h, beq_eq_false_iff_ne.2 h]

/-! ## Rows of edits -/

namespace EditedBy

variable {es : List (RegionKind × UInt32)}

theorem refl (h : ImageHeader) : EditedBy h [] h where
  sizes := (List.map_id' _).symm
  others _ := rfl
  tableEntries := Option.map_id'.symm

theorem regionKinds (hg : EditedBy h es g) : g.regionKinds = h.regionKinds := by
  rw [regionKinds_eq, regionKinds_eq, hg.sizes, List.map_map]
  rfl

theorem version (hg : EditedBy h es g) : g.version = h.version := by
  rw [← g.version_sized fun _ => 0, hg.others, version_sized]

theorem pageSize (hg : EditedBy h es g) : g.pageSize = h.pageSize := by
  rw [← g.pageSize_sized fun _ => 0, hg.others, pageSize_sized]

/-- Later edits go before earlier ones. -/
theorem trans {k : ImageHeader} {es' : List (RegionKind × UInt32)} (hg : EditedBy h es g)
    (hk : EditedBy g es' k) : EditedBy h (es ++ es') k where
  sizes := by
    rw [hk.sizes, hg.sizes, List.map_map]
    apply List.map_congr_left
    intro p _
    rw [lastSize?_append, Option.getD_or]
    rfl
  others size := (hk.others size).trans (hg.others size)
  tableEntries := by
    rw [hk.tableEntries, hg.tableEntries, Option.map_map, lastSize?_append]
    cases lastSize? es' .vendorRamdiskTable with
    | none => rfl
    | some size => rfl

end EditedBy

/-- A call that is refused gives no kind of the header a size. -/
theorem editedBy_of_not_mem (size : UInt32) (hkind : kind ∉ h.regionKinds) :
    EditedBy h [(kind, size)] h where
  sizes := by
    have hkeep : ∀ p ∈ h.regionSizes, (p.1, (lastSize? [(kind, size)] p.1).getD p.2) = p := by
      intro p hp
      have hne : p.1 ≠ kind := by
        rintro rfl
        apply hkind
        rw [regionKinds_eq]
        exact List.mem_map.2 ⟨p, hp, rfl⟩
      rw [lastSize?_singleton, if_neg hne]
      rfl
    rw [List.map_congr_left hkeep, List.map_id']
  others _ := rfl
  tableEntries := by
    rw [lastSize?_singleton]
    split
    · next htable =>
      rw [← htable] at hkind
      rw [tableEntries?_of_not_mem hkind]
      rfl
    · exact Option.map_id'.symm

theorem editedBy_edit (h : ImageHeader) (e : RegionKind × UInt32) : EditedBy h [e] (h.edit e) := by
  obtain ⟨kind, size⟩ := e
  unfold edit
  by_cases hkind : kind ∈ h.regionKinds
  · obtain ⟨g, hg, hedited⟩ := resizeRegion_of_mem size hkind
    rw [hg]
    exact hedited
  · rw [resizeRegion_of_not_mem size hkind]
    exact editedBy_of_not_mem size hkind

theorem editAll_concat (h : ImageHeader) (es : List (RegionKind × UInt32))
    (e : RegionKind × UInt32) : h.editAll (es ++ [e]) = (h.editAll es).edit e := by
  unfold editAll
  rw [List.foldl_append]
  rfl

theorem editedBy_editAll (h : ImageHeader) (es : List (RegionKind × UInt32)) :
    EditedBy h es (h.editAll es) := by
  induction es generalizing h with
  | nil => exact EditedBy.refl h
  | cons e es ih => exact (editedBy_edit h e).trans (ih (h.edit e))

/-! ## Offsets -/

theorem layout_placed (h : ImageHeader) (regions : List Region) :
    (h.placed regions).layout = h.layout := by
  rw [layout_eq, layout_eq, headerSize_placed, pageSize_placed, regionSizes_placed]

theorem placed_placed (h : ImageHeader) (regions regions' : List Region) :
    (h.placed regions).placed regions' = h.placed regions' := by
  rcases h with (_ | _ | _ | _ | _) | (_ | _) <;> rfl

theorem recoveryDtboOffset?_placed {regions : List Region} {offset : UInt64}
    (hoffset : (h.placed regions).recoveryDtboOffset? = some offset) :
    offset = UInt64.ofNat (BootHeader.regionOffset regions .recoveryDtbo) := by
  rcases h with (_ | _ | _ | _ | _) | (_ | _) <;> cases hoffset <;> rfl

/-- A layout lists the sizes of a header without those that are zero. -/
theorem map_size_of_layout {regions : List Region} (hlayout : h.layout = .ok regions)
    (hpage : h.pageSize ≠ 0) :
    regions.map (fun r => (r.kind, r.size))
      = (h.regionSizes.map fun p => (p.1, p.2.toNat)).filter (·.2 ≠ 0) := by
  rw [(Layout.placed_of_place ((layout_eq_place hpage).symm.trans hlayout)).map_size,
    List.filter_map]
  congr 1
  apply List.filter_congr
  rintro ⟨kind, size⟩ -
  have hzero : size = 0 ↔ size.toNat = 0 := UInt32.toNat_inj.symm
  simp [hzero]

theorem regionOffset_of_mem {regions : List Region} (hlayout : h.layout = .ok regions)
    (hpage : h.pageSize ≠ 0) {r : Region} (hr : r ∈ regions) :
    (UInt64.ofNat (BootHeader.regionOffset regions r.kind)).toNat = r.offset := by
  have hplaced := Layout.placed_of_place ((layout_eq_place hpage).symm.trans hlayout)
  obtain ⟨-, -, hfits⟩ := hplaced.paged r hr
  have hlt : r.offset < UInt64.size := Nat.lt_of_le_of_lt (Nat.le_add_right _ _) hfits
  unfold BootHeader.regionOffset
  rw [Layout.find?_kind (nodup_layout hlayout hpage) hr]
  exact UInt64.toNat_ofNat_of_lt' hlt

theorem regionOffset_of_not_mem {regions : List Region} {kind : RegionKind}
    (h : ∀ r ∈ regions, r.kind ≠ kind) : BootHeader.regionOffset regions kind = 0 := by
  unfold BootHeader.regionOffset
  rw [Layout.find?_kind_eq_none h]

/-- The offset is that of the region in the layout, or 0 without one. -/
theorem recoveryDtboOffset?_of_layout {regions : List Region} (hlayout : h.layout = .ok regions)
    (hpage : h.pageSize ≠ 0) {offset : UInt64}
    (hoffset : (g.placed regions).recoveryDtboOffset? = some offset) :
    (∀ r ∈ regions, r.kind = .recoveryDtbo → offset.toNat = r.offset) ∧
      ((∀ r ∈ regions, r.kind ≠ .recoveryDtbo) → offset = 0) := by
  rw [recoveryDtboOffset?_placed hoffset]
  constructor
  · intro r hr hkind
    rw [← hkind]
    exact regionOffset_of_mem hlayout hpage hr
  · intro hempty
    rw [regionOffset_of_not_mem hempty]
    rfl

/-- What setting the offset anew leaves: the rest of the header is as it was. -/
theorem exists_withOffsets {h : ImageHeader} (hpage : h.pageSize ≠ 0) :
    ∃ regions g, h.layout = .ok regions ∧ h.withOffsets = .ok g ∧ g.withOffsets = .ok g ∧
      (∀ regions, g.placed regions = h.placed regions) ∧
      ∀ offset, g.recoveryDtboOffset? = some offset →
        (∀ r ∈ regions, r.kind = .recoveryDtbo → offset.toNat = r.offset) ∧
        ((∀ r ∈ regions, r.kind ≠ .recoveryDtbo) → offset = 0) := by
  obtain ⟨regions, hlayout⟩ := layout_of_ne_zero hpage
  refine ⟨regions, h.placed regions, hlayout, withOffsets_eq hlayout, ?_, placed_placed h regions,
    fun offset => recoveryDtboOffset?_of_layout hlayout hpage⟩
  rw [withOffsets_eq ((layout_placed h regions).trans hlayout), placed_placed]

/-! ## Edits and offsets -/

/-- **Sizes and offsets.** In any row of calls a size is taken exactly for the kinds that the header
describes, and a call that is refused changes nothing. Behind it every kind has its last size, in
the header and in the layout, and nothing else has changed but the entries of a table that was given
a size. Then the offset can be set anew, unless there is no page size, and is that of the layout. -/
theorem edits_consistent (h : ImageHeader) (es : List (RegionKind × UInt32)) :
    let g := h.editAll es
    (∀ kind size,
      (kind ∈ h.regionKinds → ∃ g', g.resizeRegion kind size = .ok g' ∧
        h.editAll (es ++ [(kind, size)]) = g') ∧
      (kind ∉ h.regionKinds → g.resizeRegion kind size = .error (.noRegion kind h.version) ∧
        h.editAll (es ++ [(kind, size)]) = g)) ∧
    EditedBy h es g ∧ g.regionKinds = h.regionKinds ∧ g.version = h.version ∧
    g.pageSize = h.pageSize ∧
    (h.pageSize ≠ 0 → ∃ regions g', g.layout = .ok regions ∧
      regions.map (fun r => (r.kind, r.size)) = (h.regionSizes.map fun p =>
        (p.1, ((lastSize? es p.1).getD p.2).toNat)).filter (·.2 ≠ 0) ∧
      g.withOffsets = .ok g' ∧ g'.withOffsets = .ok g' ∧
      (∀ regions, g'.placed regions = g.placed regions) ∧
      ∀ offset, g'.recoveryDtboOffset? = some offset →
        (∀ r ∈ regions, r.kind = .recoveryDtbo → offset.toNat = r.offset) ∧
        ((∀ r ∈ regions, r.kind ≠ .recoveryDtbo) → offset = 0)) ∧
    (h.pageSize = 0 → ∀ b, g = boot b →
      g.withOffsets = .error .noPageSize ∧ g.kept g.withOffsets = g) := by
  intro g
  have hedited : EditedBy h es g := editedBy_editAll h es
  refine ⟨fun kind size => ⟨fun hkind => ?_, fun hkind => ?_⟩, hedited, hedited.regionKinds,
    hedited.version, hedited.pageSize, fun hpage => ?_, fun hpage b hb => ?_⟩
  · rw [← hedited.regionKinds] at hkind
    obtain ⟨g', hg', -⟩ := resizeRegion_of_mem size hkind
    refine ⟨g', hg', ?_⟩
    rw [editAll_concat]
    exact congrArg g.kept hg'
  · rw [← hedited.regionKinds] at hkind
    have hrefused := resizeRegion_of_not_mem size hkind
    refine ⟨hedited.version ▸ hrefused, ?_⟩
    rw [editAll_concat]
    exact congrArg g.kept hrefused
  · rw [← hedited.pageSize] at hpage
    obtain ⟨regions, g', hlayout, hg', hagain, hplaced, hoffset⟩ := exists_withOffsets hpage
    refine ⟨regions, g', hlayout, ?_, hg', hagain, hplaced, hoffset⟩
    rw [map_size_of_layout hlayout hpage, hedited.sizes, List.map_map]
    rfl
  · rw [← hedited.pageSize] at hpage
    have hlayout := layout_of_zero hpage
    rw [hb] at hlayout ⊢
    have hrefused : (boot b).withOffsets = .error .noPageSize := by
      rw [withOffsets, withOffsets_of_error hlayout]
      rfl
    exact ⟨hrefused, congrArg (boot b).kept hrefused⟩

end ImageHeader

end AndroidBoot
