import AndroidBoot.Proofs.Image.Chains
import AndroidBoot.Proofs.Image.Layouts

/-!
# Where the regions of an image lie

A layout lists the regions of a header that are not empty. They are a chain: the first starts on the
page behind the header, and each fills whole pages and starts where the pages of the one before it
end. So the regions start on pages and do not overlap, and an image that reaches to the end of the
last one has the bytes of them all.

    place pageSize offset sizes = .ok regions
      → Chained (·.offset) (·.pageCount * pageSize) offset regions             (Placed.chained)
    Laid headerSize pageSize sizes regions
      → image.length reaches to the last stop → every region has its bytes     (Laid.slice_eq)
-/

namespace AndroidBoot

namespace Layout

/-- Regions for `sizes`, on pages of their own behind a header of `headerSize` bytes. -/
structure Laid (headerSize pageSize : Nat) (sizes : List (RegionKind × UInt32))
    (regions : List Region) : Prop where
  listed : regions.map (fun r => (r.kind, r.size))
    = (sizes.filter (·.2 ≠ 0)).map fun p => (p.1, p.2.toNat)
  first : ∀ r ∈ regions.head?, headerSize ≤ r.offset ∧ r.offset < headerSize + pageSize
  aligned : ∀ r ∈ regions, pageSize ∣ r.offset
  pages : ∀ r ∈ regions, (r.pageCount - 1) * pageSize < r.size ∧ r.size ≤ r.pageCount * pageSize
  next : ∀ left r r' right, regions = left ++ r :: r' :: right →
    r'.offset = r.offset + r.pageCount * pageSize
  ordered : regions.Pairwise fun r r' => r.offset < r'.offset ∧ r.stop ≤ r'.offset
  fits : ∀ r ∈ regions, r.stop < UInt64.size

/-! ## From sizes to places -/

namespace Placed

variable {pageSize offset : Nat} {sizes : List (RegionKind × UInt32)} {regions : List Region}

theorem chained (h : Placed pageSize offset sizes regions) :
    Chained (·.offset) (·.pageCount * pageSize) offset regions := by
  induction h with
  | nil => trivial
  | skip kind _ ih => exact ih
  | cons kind hsize hfits _ ih => exact ⟨rfl, ih⟩

/-- A region has a size, and as many pages as hold it. -/
theorem paged (h : Placed pageSize offset sizes regions) :
    ∀ r ∈ regions, 0 < r.size ∧ r.pageCount = divCeil r.size pageSize ∧
      r.offset + r.pageCount * pageSize < UInt64.size := by
  induction h with
  | nil => nofun
  | skip kind _ ih => exact ih
  | cons kind hsize hfits _ ih =>
    rw [List.forall_mem_cons]
    refine ⟨⟨Nat.pos_of_ne_zero fun hzero => ?_, rfl, hfits⟩, ih⟩
    exact hsize (UInt32.toNat_inj.1 hzero)

theorem laid {headerSize : Nat} (hpage : 0 < pageSize)
    (h : Placed pageSize (headerSize + padding headerSize pageSize) sizes regions) :
    Laid headerSize pageSize sizes regions := by
  have hchain := h.chained
  -- the pages of a region reach to its end, but not further than they have to
  have hpages : ∀ r ∈ regions, 0 < r.size ∧ r.size ≤ r.pageCount * pageSize ∧
      r.pageCount * pageSize < r.size + pageSize ∧
      r.offset + r.pageCount * pageSize < UInt64.size := by
    intro r hr
    obtain ⟨hsize, hcount, hfits⟩ := h.paged r hr
    have hpadding := padding_lt (n := r.size) hpage
    have hmul := divCeil_mul (n := r.size) hpage
    rw [← hcount] at hmul
    omega
  refine ⟨h.map_size, ?_, ?_, ?_, ?_, ?_, ?_⟩
  · intro r hr
    obtain ⟨rest, rfl⟩ := List.head?_eq_some_iff.1 hr
    have hpadding := padding_lt (n := headerSize) hpage
    have hfirst : r.offset = _ := hchain.1
    omega
  · exact hchain.dvd (dvd_add_padding hpage) fun r _ => Nat.dvd_mul_left _ _
  · intro r hr
    obtain ⟨hsize, hle, hlt, -⟩ := hpages r hr
    rw [Nat.sub_mul, Nat.one_mul]
    omega
  · rintro left r r' right rfl
    exact hchain.next
  · refine hchain.pairwise.imp_of_mem fun {r r'} hr _ hbefore => ?_
    obtain ⟨hsize, hle, -⟩ := hpages r hr
    unfold Region.stop
    omega
  · intro r hr
    obtain ⟨-, hle, -, hfits⟩ := hpages r hr
    unfold Region.stop
    omega

end Placed

/-! ## Reading the regions -/

namespace Laid

variable {headerSize pageSize : Nat} {sizes : List (RegionKind × UInt32)} {regions : List Region}

theorem stop_le_last (h : Laid headerSize pageSize sizes regions) {last : Region}
    (hlast : regions.getLast? = some last) : ∀ r ∈ regions, r.stop ≤ last.stop := by
  obtain ⟨front, rfl⟩ := List.getLast?_eq_some_iff.1 hlast
  intro r hr
  rcases List.mem_append.1 hr with hr | hr
  · have hbefore := (List.pairwise_append.1 h.ordered).2.2 r hr last List.mem_cons_self
    exact Nat.le_trans hbefore.2 (Nat.le_add_right _ _)
  · exact Nat.le_of_eq (congrArg Region.stop (List.mem_singleton.1 hr))

/-- An image that reaches to the end of the last region has the bytes of every region. -/
theorem slice_eq (h : Laid headerSize pageSize sizes regions) {last : Region}
    (hlast : regions.getLast? = some last) {image : Bytes} (hlength : last.stop ≤ image.length) :
    ∀ r ∈ regions, r.slice image = .ok ((image.drop r.offset).take r.size) := by
  intro r hr
  rw [Region.slice_eq_ok_iff]
  exact ⟨h.fits r hr, Nat.le_trans (h.stop_le_last hlast r hr) hlength, rfl⟩

end Laid

end Layout

/-! ## Layouts -/

/-- **Layouts.** Only a header without a page size has none. The regions of a layout are the kinds
of the header that are not empty, on pages of their own, one behind the other. An image that reaches
to the end of the last region has the bytes of every region, and a shorter one lacks the last. -/
theorem ImageHeader.layout_laid (h : ImageHeader) :
    (h.layout = .error .noPageSize ↔ h.pageSize = 0) ∧
    h.regionKinds = h.regionSizes.map (·.1) ∧
    (h.pageSize ≠ 0 → ∃ regions, h.layout = .ok regions ∧
      Layout.Laid h.headerSize h.pageSize.toNat h.regionSizes regions ∧
      ∀ last, regions.getLast? = some last → ∀ image : Bytes,
        (last.stop ≤ image.length → ∀ r ∈ regions, ∃ data, r.slice image = .ok data ∧
          data = (image.drop r.offset).take r.size ∧ data.length = r.size) ∧
        (image.length < last.stop → ∃ e, last.slice image = .error e)) := by
  refine ⟨⟨?_, layout_of_zero⟩, h.regionKinds_eq, ?_⟩
  · intro hlayout
    apply Classical.byContradiction
    intro hpage
    obtain ⟨regions, hregions⟩ := layout_of_ne_zero hpage
    rw [hregions] at hlayout
    cases hlayout
  · intro hpage
    obtain ⟨regions, hregions⟩ := layout_of_ne_zero hpage
    have hlaid : Layout.Laid h.headerSize h.pageSize.toNat h.regionSizes regions :=
      (Layout.placed_of_place ((layout_eq_place hpage).symm.trans hregions)).laid
        (pageSize_pos hpage)
    refine ⟨regions, hregions, hlaid, fun last hlast image => ⟨?_, ?_⟩⟩
    · intro hlength r hr
      have hslice := hlaid.slice_eq hlast hlength r hr
      exact ⟨_, hslice, rfl, length_of_slice hslice⟩
    · intro hlength
      cases hslice : last.slice image with
      | error e => exact ⟨e, rfl⟩
      | ok data => exact absurd (Region.slice_eq_ok_iff.1 hslice).2.1 (Nat.not_le.2 hlength)

end AndroidBoot
