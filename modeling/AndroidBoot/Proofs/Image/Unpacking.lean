import AndroidBoot.Proofs.Image.Documents
import AndroidBoot.Proofs.Image.Edits
import AndroidBoot.Proofs.Image.Packing

/-!
# Images taken apart and put together

The regions of an image have the sizes that its header states, so a header that takes its sizes from
them keeps them. Only what a header says about the place of its recovery partition and about the
entries of its ramdisk table is computed anew, and neither has a say in the layout: an image made of
the parts of another has the same regions, and the same parts again.

    the sizes of h are sizes → h.sized sizes = h.recounted                   (sized_of_sizes)
    (h.refreshed regions).layout = h.layout                                  (layout_refreshed)
    Unpackable h regions image
      → Unpackable (h.refreshed regions) regions (the image of its parts)    (Unpackable.again)
-/

namespace AndroidBoot

/-- The bytes that an image has for a region of this kind. -/
def regionData (image : Bytes) (regions : List Region) (kind : RegionKind) : Bytes :=
  match regions.find? (·.kind == kind) with
  | some r => (r.slice image).toOption.getD []
  | none => []

namespace ImageHeader

/-- The header with the numbers of the entries of its ramdisk table computed anew: an entry takes
108 bytes, and there are as many as its size has room for. -/
def recounted : ImageHeader → ImageHeader
  | vendor (.v4 base e4) =>
    vendor (.v4 base { e4 with tableEntrySize := 108, tableEntryCount := e4.tableSize / 108 })
  | h => h

/-- The header with what is computed anew for it: the offset of the recovery partition, and the
numbers of the entries of the ramdisk table. -/
def refreshed (h : ImageHeader) (regions : List Region) : ImageHeader := h.recounted.placed regions

/-- An image that can be taken apart into a document and files. -/
structure Unpackable (h : ImageHeader) (regions : List Region) (image : Bytes) : Prop where
  decodes : decode image = .ok h
  layout : h.layout = .ok regions
  slices : ∀ r ∈ regions, ∃ data, r.slice image = .ok data
  written : h.toDocument.write.isSome

end ImageHeader

/-! ## Regions -/

theorem regionData_of_slice {image data : Bytes} {regions : List Region} {r : Region}
    (hnodup : (regions.map (·.kind)).Nodup) (hr : r ∈ regions) (hslice : r.slice image = .ok data) :
    regionData image regions r.kind = data := by
  have hfind := Layout.find?_kind hnodup hr
  unfold regionData
  rw [hfind]
  show (r.slice image).toOption.getD [] = data
  rw [hslice]
  rfl

theorem regionData_of_not_mem {image : Bytes} {regions : List Region} {kind : RegionKind}
    (h : kind ∉ regions.map (·.kind)) : regionData image regions kind = [] := by
  have hfind : regions.find? (·.kind == kind) = none := by
    apply Layout.find?_kind_eq_none
    rintro r hr rfl
    exact h (List.mem_map.2 ⟨r, hr, rfl⟩)
  unfold regionData
  rw [hfind]

namespace Layout

/-- A size that is not zero has a region. -/
theorem exists_region_of_place {pageSize offset : Nat} {sizes : List (RegionKind × UInt32)}
    {regions : List Region} (h : place pageSize offset sizes = .ok regions) {kind : RegionKind}
    {size : UInt32} (hmem : (kind, size) ∈ sizes) (hsize : size ≠ 0) :
    ∃ r ∈ regions, r.kind = kind ∧ r.size = size.toNat := by
  have hlisted : (kind, size.toNat) ∈ regions.map fun r => (r.kind, r.size) := by
    rw [(placed_of_place h).map_size]
    exact List.mem_map.2 ⟨_, List.mem_filter.2 ⟨hmem, by simpa using hsize⟩, rfl⟩
  obtain ⟨r, hr, heq⟩ := List.mem_map.1 hlisted
  exact ⟨r, hr, Prod.mk.inj heq⟩

/-- No region starts further behind than the regions in front of it reach. -/
theorem offset_le_of_place {pageSize offset : Nat} (hpage : 0 < pageSize)
    (hlt : pageSize < 0x100000000) {sizes : List (RegionKind × UInt32)} {regions : List Region}
    (h : place pageSize offset sizes = .ok regions) {r : Region} (hr : r ∈ regions) :
    r.offset ≤ offset + sizes.length * 0x200000000 := by
  have hplaced := placed_of_place h
  clear h
  induction hplaced with
  | nil => cases hr
  | skip kind _ ih =>
    rw [List.length_cons, Nat.add_mul]
    exact Nat.le_trans (ih hr) (Nat.add_le_add_left (Nat.le_add_right _ _) _)
  | @cons offset sizes _ kind size hsize _ _ ih =>
    have hpaged := paged_size_lt size hpage hlt
    rw [List.length_cons, Nat.add_mul, Nat.one_mul]
    rcases List.mem_cons.1 hr with rfl | hr
    · exact Nat.le_add_right _ _
    · have hoffset := ih hr
      generalize sizes.length * 0x200000000 = reach at hoffset ⊢
      omega

end Layout

namespace ImageHeader

/-! ## Headers -/

theorem regionSizes_recounted (h : ImageHeader) : h.recounted.regionSizes = h.regionSizes := by
  rcases h with (_ | _ | _ | _ | _) | (_ | _) <;> rfl

theorem pageSize_recounted (h : ImageHeader) : h.recounted.pageSize = h.pageSize := by
  rcases h with (_ | _ | _ | _ | _) | (_ | _) <;> rfl

theorem headerSize_recounted (h : ImageHeader) : h.recounted.headerSize = h.headerSize := by
  rcases h with (_ | _ | _ | _ | _) | (_ | _) <;> rfl

theorem layout_recounted (h : ImageHeader) : h.recounted.layout = h.layout := by
  rw [layout_eq, layout_eq, headerSize_recounted, pageSize_recounted, regionSizes_recounted]

theorem regionSizes_refreshed (h : ImageHeader) (regions : List Region) :
    (h.refreshed regions).regionSizes = h.regionSizes := by
  rw [refreshed, regionSizes_placed, regionSizes_recounted]

theorem pageSize_refreshed (h : ImageHeader) (regions : List Region) :
    (h.refreshed regions).pageSize = h.pageSize := by
  rw [refreshed, pageSize_placed, pageSize_recounted]

/-- What is computed anew has no say in the layout. -/
theorem layout_refreshed (h : ImageHeader) (regions : List Region) :
    (h.refreshed regions).layout = h.layout := by
  rw [refreshed, layout_placed, layout_recounted]

theorem refreshed_refreshed (h : ImageHeader) (regions : List Region) :
    (h.refreshed regions).refreshed regions = h.refreshed regions := by
  rcases h with (_ | _ | _ | _ | _) | (_ | _) <;> rfl

/-- Sizes that a header already has only count the entries of its table anew. -/
theorem sized_of_sizes (h : ImageHeader) (size : RegionKind → UInt32)
    (hsize : ∀ p ∈ h.regionSizes, size p.1 = p.2) : h.sized size = h.recounted := by
  rcases h with (base | ⟨base, e1⟩ | ⟨base, e1, e2⟩ | base | ⟨base, e4⟩) | (base | ⟨base, e4⟩)
  all_goals
    simp only [regionSizes, BootHeader.regionSizes, VendorHeader.regionSizes, List.forall_mem_cons,
      List.not_mem_nil, false_implies, implies_true, and_true] at hsize
    simp only [sized, recounted, BootFieldsV0.sized, BootFieldsV3.sized, VendorFieldsV3.sized,
      VendorFieldsV4.ofSizes, hsize]
  -- The header with a table is left.
  rfl

theorem regionOffset_lt {h : ImageHeader} {regions : List Region}
    (hlayout : h.layout = .ok regions) (kind : RegionKind) :
    BootHeader.regionOffset regions kind < Toml.signedLimit := by
  have hpage := ne_zero_of_layout hlayout
  have hpadding := padding_lt (n := h.headerSize) (pageSize_pos hpage)
  have hlt := h.pageSize.toNat_lt
  have hheader := h.headerSize_lt
  have hcount := h.length_regionSizes_le
  unfold BootHeader.regionOffset
  split
  · next r hfind =>
    have hoffset := Layout.offset_le_of_place (pageSize_pos hpage) hlt
      ((layout_eq_place hpage).symm.trans hlayout) (List.mem_of_find?_eq_some hfind)
    unfold frontSize at hoffset
    unfold Toml.signedLimit
    omega
  · decide

/-- The offset is the only new number of 64 bits. -/
theorem mem_longs_refreshed {h : ImageHeader} {regions : List Region} {n : UInt64}
    (hn : n ∈ (h.refreshed regions).longs) :
    n ∈ h.longs ∨ n = UInt64.ofNat (BootHeader.regionOffset regions .recoveryDtbo) := by
  rcases h with (base | ⟨base, e1⟩ | ⟨base, e1, e2⟩ | base | ⟨base, e4⟩) | (base | ⟨base, e4⟩)
  · exact .inl hn
  · exact .inr (List.mem_singleton.1 hn)
  · rcases List.mem_cons.1 hn with rfl | hn
    · exact .inr rfl
    · exact .inl (List.mem_cons_of_mem _ hn)
  · exact .inl hn
  · exact .inl hn
  · exact .inl hn
  · exact .inl hn

/-- A header that can be written can be written with the offset computed anew. -/
theorem isSome_write_refreshed {h : ImageHeader} {regions : List Region}
    (hlayout : h.layout = .ok regions) (hwritten : h.toDocument.write.isSome) :
    (h.refreshed regions).toDocument.write.isSome := by
  have hoffset : (UInt64.ofNat (BootHeader.regionOffset regions .recoveryDtbo)).toNat
      < Toml.signedLimit := by
    have hlt := regionOffset_lt hlayout .recoveryDtbo
    rw [UInt64.toNat_ofNat_of_lt' (Nat.lt_trans hlt (by decide))]
    exact hlt
  rw [isSome_write_toDocument] at hwritten ⊢
  intro n hn
  rcases mem_longs_refreshed hn with hn | rfl
  · exact hwritten n hn
  · exact hoffset

/-! ## Images -/

section
variable {h : ImageHeader} {regions : List Region} {image : Bytes}

theorem Unpackable.slice_eq (hu : Unpackable h regions image) {r : Region} (hr : r ∈ regions) :
    r.slice image = .ok (regionData image regions r.kind) := by
  obtain ⟨data, hdata⟩ := hu.slices r hr
  rw [regionData_of_slice (nodup_layout hu.layout (ne_zero_of_layout hu.layout)) hr hdata, hdata]

theorem regionSizes_unique {kind : RegionKind} {a b : UInt32} (ha : (kind, a) ∈ h.regionSizes)
    (hb : (kind, b) ∈ h.regionSizes) : a = b := by
  have hnodup := h.nodup_regionKinds
  rw [regionKinds_eq] at hnodup
  generalize h.regionSizes = sizes at ha hb hnodup
  induction sizes with
  | nil => cases ha
  | cons p sizes ih =>
    rw [List.map_cons, List.nodup_cons] at hnodup
    rcases List.mem_cons.1 ha with rfl | ha' <;> rcases List.mem_cons.1 hb with heq | hb'
    · exact (Prod.mk.inj heq).2.symm
    · exact absurd (List.mem_map_of_mem hb') hnodup.1
    · subst heq
      exact absurd (List.mem_map_of_mem ha') hnodup.1
    · exact ih ha' hb' hnodup.2

/-- The bytes for a region have the size that the header states. -/
theorem Unpackable.length_regionData (hu : Unpackable h regions image) :
    ∀ p ∈ h.regionSizes, (regionData image regions p.1).length = p.2.toNat := by
  rintro ⟨kind, size⟩ hmem
  have hplace := (layout_eq_place (ne_zero_of_layout hu.layout)).symm.trans hu.layout
  by_cases hsize : size = 0
  · have hnone : kind ∉ regions.map (·.kind) := by
      rw [Layout.map_kind_of_place hplace, List.mem_map]
      rintro ⟨⟨_, size'⟩, hmem', rfl⟩
      obtain ⟨hmem', hne⟩ := List.mem_filter.1 hmem'
      rw [regionSizes_unique hmem' hmem, hsize] at hne
      simp at hne
    rw [regionData_of_not_mem hnone, hsize]
    rfl
  · obtain ⟨r, hr, rfl, hrsize⟩ := Layout.exists_region_of_place hplace hmem hsize
    rw [length_of_slice (hu.slice_eq hr), hrsize]

theorem Unpackable.length_regionData_lt (hu : Unpackable h regions image) {kind : RegionKind}
    (hkind : kind ∈ h.regionKinds) : (regionData image regions kind).length < UInt32.size := by
  rw [regionKinds_eq, List.mem_map] at hkind
  obtain ⟨p, hp, rfl⟩ := hkind
  rw [hu.length_regionData p hp]
  exact p.2.toNat_lt

/-- The image of the parts of another. -/
theorem Unpackable.packed (hu : Unpackable h regions image) :
    Packed (h.refreshed regions) (regionData image regions) regions
      ((h.refreshed regions).image (regionData image regions) regions) := by
  refine packed_image ?_ ?_ ?_
  · rw [pageSize_refreshed]
    exact ne_zero_of_layout hu.layout
  · rw [layout_refreshed]
    exact hu.layout
  · rw [regionSizes_refreshed]
    exact hu.length_regionData

/-- It can be taken apart in turn, and has the same parts. -/
theorem Unpackable.again (hu : Unpackable h regions image) :
    Unpackable (h.refreshed regions) regions
      ((h.refreshed regions).image (regionData image regions) regions) := by
  have hpacked := hu.packed
  exact ⟨hpacked.decodes, hpacked.layout, fun r hr => ⟨_, hpacked.slices r hr⟩,
    isSome_write_refreshed hu.layout hu.written⟩

theorem Unpackable.regionData_again (hu : Unpackable h regions image) :
    regionData ((h.refreshed regions).image (regionData image regions) regions) regions
      = regionData image regions := by
  funext kind
  by_cases hkind : kind ∈ regions.map (·.kind)
  · obtain ⟨r, hr, rfl⟩ := List.mem_map.1 hkind
    exact Except.ok.inj ((hu.again.slice_eq hr).symm.trans (hu.packed.slices r hr))
  · rw [regionData_of_not_mem hkind, regionData_of_not_mem hkind]

/-- Taken apart and put together once more, nothing changes. -/
theorem Unpackable.image_again (hu : Unpackable h regions image) :
    ((h.refreshed regions).refreshed regions).image (regionData
        ((h.refreshed regions).image (regionData image regions) regions) regions) regions
      = (h.refreshed regions).image (regionData image regions) regions := by
  rw [refreshed_refreshed, hu.regionData_again]

end

end ImageHeader

end AndroidBoot
