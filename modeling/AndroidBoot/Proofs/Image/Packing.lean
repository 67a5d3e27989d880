import AndroidBoot.Image.Pack
import AndroidBoot.Proofs.Image.Codecs
import AndroidBoot.Proofs.Image.Layouts
import AndroidBoot.Proofs.Storage.NewFiles

/-!
# Written images

What `writeImage` puts into a new file is the pages of the header and then those of the regions. It
only counts the bytes that it writes, while the layout multiplies page counts, but both find the
regions in the same places.

    h.writeImage regions data = .ok, with h.image regions data in the file   (writeImage_eq)
    Packed h data regions (h.image regions data), if h.layout = .ok regions  (packed_image)
-/

namespace AndroidBoot

namespace ImageHeader

/-- The pages of the header and then those of the regions. -/
def image (h : ImageHeader) (data : RegionKind → Bytes) (regions : List Region) : Bytes :=
  paged h.pageSize.toNat h.encode
    ++ regions.flatMap fun r => paged h.pageSize.toNat (data r.kind)

/-- An image that is what its header says: `regions` is the layout of the header, each region has
the data of its kind, and the other bytes are zero. -/
structure Packed (h : ImageHeader) (data : RegionKind → Bytes) (regions : List Region)
    (image : Bytes) : Prop where
  decodes : decode image = .ok h
  layout : h.layout = .ok regions
  slices : ∀ r ∈ regions, r.slice image = .ok (data r.kind)
  /-- Data that is not empty lies in one region. -/
  placed : ∀ kind ∈ h.regionKinds, data kind ≠ [] → regions.countP (·.kind == kind) = 1
  front : image.take h.headerSize = h.encode
  zeros : ∀ i, h.headerSize ≤ i → i < image.length →
    (∀ r ∈ regions, i < r.offset ∨ r.stop ≤ i) → image[i]? = some 0
  length : image.length = Layout.finish h.pageSize.toNat h.frontSize regions

end ImageHeader

/-! ## Lemmas -/

/-- At the start of a page the writer fills up what it wrote to whole pages. -/
theorem writePages_newFile {pageSize count : Nat} (failure : StreamError → PackError)
    (data : Bytes) {s : Counted NewFile} (hs : s.count = count * pageSize) :
    writePages pageSize failure data s = (.ok (), s.followedBy (paged pageSize data)) := by
  have hcount : (s.followedBy data).count = count * pageSize + data.length := by
    simp [Counted.followedBy, hs]
  unfold writePages
  rw [Counted.writeAll_newFile]
  simp only []
  rw [Counted.fillToMultiple_newFile]
  simp only []
  rw [hcount, padding_mul_add, Counted.followedBy_followedBy]
  rfl

/-- The writer is at the start of a page again behind what it wrote. -/
theorem count_followedBy_paged {pageSize count : Nat} (hpage : 0 < pageSize) (data : Bytes)
    {s : Counted NewFile} (hs : s.count = count * pageSize) :
    (s.followedBy (paged pageSize data)).count
      = (count + divCeil data.length pageSize) * pageSize := by
  rw [Nat.add_mul, ← length_paged hpage, ← hs]
  rfl

theorem writeRegionPages_newFile {pageSize count : Nat} (hpage : 0 < pageSize)
    {data : RegionKind → Bytes} {given : RegionKind → Option Bytes} {regions : List Region}
    (hgiven : ∀ r ∈ regions, given r.kind = some (data r.kind)) {s : Counted NewFile}
    (hs : s.count = count * pageSize) :
    writeRegionPages pageSize given regions s
      = (.ok (), s.followedBy (regions.flatMap fun r => paged pageSize (data r.kind))) := by
  induction regions generalizing count s with
  | nil => rw [List.flatMap_nil, Counted.followedBy_nil, writeRegionPages]
  | cons r regions ih =>
    have hrest : ∀ r ∈ regions, given r.kind = some (data r.kind) :=
      fun r hr => hgiven r (List.mem_cons_of_mem _ hr)
    rw [writeRegionPages, hgiven r List.mem_cons_self]
    simp only []
    rw [writePages_newFile _ _ hs]
    simp only []
    rw [ih hrest (count_followedBy_paged hpage _ hs), Counted.followedBy_followedBy,
      List.flatMap_cons]

namespace ImageHeader

theorem writeImage_eq {h : ImageHeader} (hpage : h.pageSize ≠ 0) {data : RegionKind → Bytes}
    {given : RegionKind → Option Bytes} {regions : List Region}
    (hgiven : ∀ r ∈ regions, given r.kind = some (data r.kind)) :
    h.writeImage regions given ⟨⟨[]⟩, 0⟩
      = (.ok (), Counted.followedBy ⟨⟨[]⟩, 0⟩ (h.image data regions)) := by
  have hpos := pageSize_pos hpage
  have hstart : (⟨⟨[]⟩, 0⟩ : Counted NewFile).count = 0 * h.pageSize.toNat := by simp
  unfold writeImage
  rw [writePages_newFile _ _ hstart]
  simp only []
  rw [writeRegionPages_newFile hpos hgiven (count_followedBy_paged hpos _ hstart),
    Counted.followedBy_followedBy]
  rfl

theorem length_paged_encode {h : ImageHeader} :
    (paged h.pageSize.toNat h.encode).length = h.frontSize := by
  simp [paged, frontSize, h.length_encode]

/-- The image of a header agrees with the header's layout. -/
theorem packed_image {h : ImageHeader} (hpage : h.pageSize ≠ 0) {data : RegionKind → Bytes}
    {regions : List Region} (hlayout : h.layout = .ok regions)
    (hdata : ∀ p ∈ h.regionSizes, (data p.1).length = p.2.toNat) :
    Packed h data regions (h.image data regions) := by
  have hfront := h.length_paged_encode
  have hplace := (layout_eq_place hpage).symm.trans hlayout
  rw [← hfront] at hplace
  have hagrees := Layout.agrees_of_place (pageSize_pos hpage) hdata hplace
  have himage : h.image data regions = h.encode ++ (Bytes.zeros (padding h.encode.length
      h.pageSize.toNat) ++ regions.flatMap fun r => paged h.pageSize.toNat (data r.kind)) := by
    rw [image, paged, List.append_assoc]
  have hencode := h.length_encode
  refine ⟨?_, hlayout, hagrees.slices, ?_, ?_, ?_, hfront ▸ hagrees.length⟩
  · rw [himage, h.decode_encode_append]
  · intro kind hkind hne
    rw [regionKinds_eq, List.mem_map] at hkind
    obtain ⟨⟨_, size⟩, hmem, rfl⟩ := hkind
    refine countP_layout hlayout hpage hmem ?_
    rintro rfl
    exact hne (List.eq_nil_of_length_eq_zero (hdata _ hmem))
  · rw [himage, List.take_left' hencode]
  · intro i hi hlt hout
    by_cases hpaged : h.frontSize ≤ i
    · exact hagrees.zeros i (hfront ▸ hpaged) hlt hout
    · -- behind the header, but still on its pages
      rw [frontSize] at hpaged
      rw [himage, List.getElem?_append_right (by omega),
        List.getElem?_append_left (by simp [hencode]; omega), Bytes.zeros,
        List.getElem?_replicate, if_pos (by rw [hencode]; omega)]

/-- There is no data of a kind that has no region. -/
theorem Packed.eq_nil {h : ImageHeader} {data : RegionKind → Bytes} {regions : List Region}
    {image : Bytes} (hpacked : Packed h data regions image) {kind : RegionKind}
    (hkind : kind ∈ h.regionKinds) (hmem : kind ∉ regions.map (·.kind)) : data kind = [] := by
  refine Classical.byContradiction fun hne => ?_
  have hcount := hpacked.placed kind hkind hne
  have hpos : 0 < regions.countP (·.kind == kind) := by omega
  obtain ⟨r, hr, hrkind⟩ := List.countP_pos_iff.1 hpos
  exact hmem (List.mem_map.2 ⟨r, hr, eq_of_beq hrkind⟩)

/-- An image has only one header and one content for each region. -/
theorem Packed.unique {h h' : ImageHeader} {data data' : RegionKind → Bytes}
    {regions regions' : List Region} {image : Bytes} (hpacked : Packed h data regions image)
    (hpacked' : Packed h' data' regions' image) :
    h = h' ∧ ∀ kind ∈ h.regionKinds, data kind = data' kind := by
  have hheader : h = h' := Except.ok.inj (hpacked.decodes.symm.trans hpacked'.decodes)
  subst hheader
  have hregions : regions = regions' :=
    Except.ok.inj (hpacked.layout.symm.trans hpacked'.layout)
  subst hregions
  refine ⟨rfl, fun kind hkind => ?_⟩
  by_cases hmem : kind ∈ regions.map (·.kind)
  · obtain ⟨r, hr, rfl⟩ := List.mem_map.1 hmem
    exact Except.ok.inj ((hpacked.slices r hr).symm.trans (hpacked'.slices r hr))
  · rw [hpacked.eq_nil hkind hmem, hpacked'.eq_nil hkind hmem]

end ImageHeader

end AndroidBoot
