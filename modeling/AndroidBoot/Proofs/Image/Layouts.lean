import AndroidBoot.Image.Header

/-!
# What a layout says about an image

The pages of a part are its bytes and then zeros. Behind what fills the pages up to `offset`, the
pages of the regions that are not empty agree with the regions that `place` gives: each lies where
its region says, what is between them is zero, and the last one ends the image.

    place pageSize offset sizes = .ok regions
      → Agrees pageSize data offset regions (front ++ the pages of regions)   (agrees_of_place)

Sizes are below `2 ^ 32`, so the few regions of a header end far below `2 ^ 64` and nothing but a
page size of zero is refused.

    h.layout = .error .noPageSize                     if h.pageSize = 0       (layout_of_zero)
    h.layout = .ok regions for some regions           otherwise               (layout_of_ne_zero)
-/

namespace AndroidBoot

/-- A part of an image with the zeros that fill its last page. -/
def paged (pageSize : Nat) (data : Bytes) : Bytes :=
  data ++ Bytes.zeros (padding data.length pageSize)

/-- Where an image ends: behind its last region, or at `start` without one. -/
def Layout.finish (pageSize start : Nat) (regions : List Region) : Nat :=
  match regions.getLast? with
  | none => start
  | some r => r.offset + r.pageCount * pageSize

/-- The image has from `start` on nothing but the regions, with the data of their kinds. -/
structure Layout.Agrees (pageSize : Nat) (data : RegionKind → Bytes) (start : Nat)
    (regions : List Region) (image : Bytes) : Prop where
  slices : ∀ r ∈ regions, r.slice image = .ok (data r.kind)
  zeros : ∀ i, start ≤ i → i < image.length → (∀ r ∈ regions, i < r.offset ∨ r.stop ≤ i) →
    image[i]? = some 0
  length : image.length = finish pageSize start regions

/-! ## Lemmas -/

theorem length_paged {pageSize : Nat} (h : 0 < pageSize) (data : Bytes) :
    (paged pageSize data).length = divCeil data.length pageSize * pageSize := by
  rw [divCeil_mul h]
  simp [paged]

/-- Rounding does not see the pages in front. -/
theorem padding_mul_add (pageSize count n : Nat) :
    padding (count * pageSize + n) pageSize = padding n pageSize := by
  unfold padding
  rw [Nat.mul_comm, Nat.mul_add_mod]

/-- A region is read from the images that reach to its end. -/
theorem Region.slice_eq_ok_iff {r : Region} {image data : Bytes} :
    r.slice image = .ok data ↔
      r.stop < UInt64.size ∧ r.stop ≤ image.length ∧
      data = (image.drop r.offset).take r.size := by
  have hsize : r.stop - r.offset = r.size := Nat.add_sub_cancel_left r.offset r.size
  have hread (bs : Bytes) : Bytes.slice? image r.offset r.stop = some bs ↔
      r.stop ≤ image.length ∧ bs = (image.drop r.offset).take r.size := by
    rw [Bytes.slice?_eq_some_iff, hsize, eq_comm (a := bs)]
    exact and_iff_right (Nat.le_add_right _ _)
  unfold slice
  by_cases hfits : UInt64.size ≤ r.stop
  · simp only [if_pos hfits]
    constructor
    · nofun
    · rintro ⟨h, -⟩
      exact absurd h (Nat.not_lt.2 hfits)
  · simp only [if_neg hfits]
    rw [and_iff_right (Nat.lt_of_not_le hfits), ← hread]
    cases Bytes.slice? image r.offset r.stop with
    | none => constructor <;> nofun
    | some bs => rw [Except.ok.injEq, Option.some.injEq]

theorem length_of_slice {r : Region} {image data : Bytes} (h : r.slice image = .ok data) :
    data.length = r.size := by
  obtain ⟨-, hstop, rfl⟩ := Region.slice_eq_ok_iff.1 h
  unfold Region.stop at hstop
  rw [List.length_take, List.length_drop]
  omega

namespace Layout

theorem finish_cons (pageSize start next : Nat) (r : Region) (regions : List Region)
    (h : next = r.offset + r.pageCount * pageSize) :
    finish pageSize start (r :: regions) = finish pageSize next regions := by
  unfold finish
  cases regions with
  | nil => exact h.symm
  | cons r' rest => rw [List.getLast?_cons_cons, List.getLast?_cons]

/-- The region that `place` puts first, if it is not empty. -/
theorem place_cons_eq_ok_iff {pageSize offset : Nat} {kind : RegionKind} {size : UInt32}
    {rest : List (RegionKind × UInt32)} {regions : List Region} (hsize : size ≠ 0) :
    place pageSize offset ((kind, size) :: rest) = .ok regions ↔
      offset + divCeil size.toNat pageSize * pageSize < UInt64.size ∧
      ∃ others, place pageSize (offset + divCeil size.toNat pageSize * pageSize) rest = .ok others ∧
        regions = ⟨kind, offset, size.toNat, divCeil size.toNat pageSize⟩ :: others := by
  rw [place, if_neg hsize]
  simp only []
  split
  · next h => simp only [reduceCtorEq, false_iff]; rintro ⟨h', -⟩; omega
  · next h =>
    cases place pageSize (offset + divCeil size.toNat pageSize * pageSize) rest with
    | error e => simp [Except.map]
    | ok others =>
      simp only [Except.map, Except.ok.injEq]
      constructor
      · rintro rfl
        exact ⟨by omega, others, rfl, rfl⟩
      · rintro ⟨-, _, rfl, rfl⟩
        rfl

/-- How regions come from sizes: nothing for a size of zero, else a region that starts where the
one before it ends. -/
inductive Placed (pageSize : Nat) : Nat → List (RegionKind × UInt32) → List Region → Prop
  | nil (offset : Nat) : Placed pageSize offset [] []
  | skip {offset : Nat} {sizes : List (RegionKind × UInt32)} {regions : List Region}
      (kind : RegionKind) (h : Placed pageSize offset sizes regions) :
      Placed pageSize offset ((kind, 0) :: sizes) regions
  | cons {offset : Nat} {sizes : List (RegionKind × UInt32)} {regions : List Region}
      (kind : RegionKind) {size : UInt32} (hsize : size ≠ 0)
      (hfits : offset + divCeil size.toNat pageSize * pageSize < UInt64.size)
      (h : Placed pageSize (offset + divCeil size.toNat pageSize * pageSize) sizes regions) :
      Placed pageSize offset ((kind, size) :: sizes)
        (⟨kind, offset, size.toNat, divCeil size.toNat pageSize⟩ :: regions)

theorem placed_of_place {pageSize offset : Nat} {sizes : List (RegionKind × UInt32)}
    {regions : List Region} (h : place pageSize offset sizes = .ok regions) :
    Placed pageSize offset sizes regions := by
  induction sizes generalizing offset regions with
  | nil =>
    rw [place, Except.ok.injEq] at h
    rw [← h]
    exact .nil offset
  | cons p sizes ih =>
    obtain ⟨kind, size⟩ := p
    by_cases hsize : size = 0
    · rw [place, if_pos hsize] at h
      rw [hsize]
      exact .skip kind (ih h)
    · obtain ⟨hfits, others, hothers, rfl⟩ := (place_cons_eq_ok_iff hsize).1 h
      exact .cons kind hsize hfits (ih hothers)

/-- The regions have the kinds and sizes of a header in their order, without those of size zero. -/
theorem Placed.map_size {pageSize offset : Nat} {sizes : List (RegionKind × UInt32)}
    {regions : List Region} (h : Placed pageSize offset sizes regions) :
    regions.map (fun r => (r.kind, r.size))
      = (sizes.filter (·.2 ≠ 0)).map fun p => (p.1, p.2.toNat) := by
  induction h with
  | nil => rfl
  | skip kind _ ih => rw [ih, List.filter_cons_of_neg (by simp)]
  | cons kind hsize _ _ ih =>
    rw [List.map_cons, ih, List.filter_cons_of_pos (by simpa using hsize), List.map_cons]

theorem map_kind_of_place {pageSize offset : Nat} {sizes : List (RegionKind × UInt32)}
    {regions : List Region} (h : place pageSize offset sizes = .ok regions) :
    regions.map (·.kind) = (sizes.filter (·.2 ≠ 0)).map (·.1) := by
  have hmap := congrArg (List.map Prod.fst) (placed_of_place h).map_size
  rwa [List.map_map, List.map_map] at hmap

/-- Where no two regions are of the same kind, a region is found by its kind. -/
theorem find?_kind {regions : List Region} (hnodup : (regions.map (·.kind)).Nodup) {r : Region}
    (hr : r ∈ regions) : regions.find? (·.kind == r.kind) = some r := by
  induction regions with
  | nil => cases hr
  | cons q regions ih =>
    rw [List.map_cons, List.nodup_cons] at hnodup
    rcases List.mem_cons.1 hr with rfl | hr
    · rw [List.find?_cons_of_pos (by simp)]
    · have hne : ¬ (q.kind == r.kind) = true := by
        intro heq
        rw [eq_of_beq heq] at hnodup
        exact hnodup.1 (List.mem_map.2 ⟨r, hr, rfl⟩)
      rw [List.find?_cons_of_neg (by simpa using hne), ih hnodup.2 hr]

theorem find?_kind_eq_none {regions : List Region} {kind : RegionKind}
    (h : ∀ r ∈ regions, r.kind ≠ kind) : regions.find? (·.kind == kind) = none := by
  rw [List.find?_eq_none]
  intro r hr heq
  exact h r hr (eq_of_beq heq)

/-! ## Agreement -/

/-- The pages of a region in front of an image that agrees from behind them on. -/
theorem Agrees.cons {pageSize : Nat} {data : RegionKind → Bytes} {r : Region}
    {regions : List Region} {front rest : Bytes} (hpage : 0 < pageSize)
    (hoffset : r.offset = front.length) (hsize : (data r.kind).length = r.size)
    (hcount : r.pageCount = divCeil r.size pageSize)
    (hfits : r.offset + r.pageCount * pageSize < UInt64.size)
    (h : Agrees pageSize data (r.offset + r.pageCount * pageSize) regions
      (front ++ (paged pageSize (data r.kind) ++ rest))) :
    Agrees pageSize data r.offset (r :: regions)
      (front ++ (paged pageSize (data r.kind) ++ rest)) := by
  have hpaged : r.pageCount * pageSize = r.size + padding r.size pageSize := by
    rw [hcount, divCeil_mul hpage]
  refine ⟨?_, ?_, ?_⟩
  · intro q hq
    rcases List.mem_cons.1 hq with rfl | hq
    · have hstop : q.stop = front.length + (data q.kind).length := by
        rw [Region.stop, hoffset, hsize]
      rw [Region.slice_eq_ok_iff, hoffset, ← hsize, List.drop_left' rfl]
      refine ⟨?_, ?_, ?_⟩
      · rw [hstop]
        omega
      · rw [hstop, paged, List.length_append, List.length_append, List.length_append]
        omega
      · rw [paged, List.append_assoc, List.take_left' rfl]
    · exact h.slices q hq
  · intro i hi hlt hout
    by_cases hnext : r.offset + r.pageCount * pageSize ≤ i
    · exact h.zeros i hnext hlt fun q hq => hout q (List.mem_cons_of_mem _ hq)
    · -- behind the region, but still on its pages
      have hbehind : r.offset + r.size ≤ i := by
        rcases hout r List.mem_cons_self with hi' | hi'
        · omega
        · exact hi'
      unfold paged
      rw [List.getElem?_append_right (by omega), List.append_assoc,
        List.getElem?_append_right (by omega), hsize,
        List.getElem?_append_left (by simp; omega), Bytes.zeros,
        List.getElem?_replicate, if_pos (by omega)]
  · rw [h.length, finish_cons _ _ _ _ _ rfl]

/-- The pages of regions that are placed one after the other agree with where they are placed. -/
theorem agrees_of_place {pageSize : Nat} {data : RegionKind → Bytes} (hpage : 0 < pageSize)
    {sizes : List (RegionKind × UInt32)} (hdata : ∀ p ∈ sizes, (data p.1).length = p.2.toNat)
    {front : Bytes} {regions : List Region}
    (h : place pageSize front.length sizes = .ok regions) :
    Agrees pageSize data front.length regions
      (front ++ regions.flatMap fun r => paged pageSize (data r.kind)) := by
  induction sizes generalizing front regions with
  | nil =>
    rw [place, Except.ok.injEq] at h
    subst h
    refine ⟨by simp, ?_, by simp [finish]⟩
    intro i hi hlt
    simp at hlt
    omega
  | cons p sizes ih =>
    obtain ⟨kind, size⟩ := p
    have hrest : ∀ p ∈ sizes, (data p.1).length = p.2.toNat :=
      fun p hp => hdata p (List.mem_cons_of_mem _ hp)
    by_cases hsize : size = 0
    · rw [place, if_pos hsize] at h
      exact ih hrest h
    · obtain ⟨hfits, others, hothers, rfl⟩ := (place_cons_eq_ok_iff hsize).1 h
      have hlength : (data kind).length = size.toNat := hdata (kind, size) List.mem_cons_self
      -- the pages of this region stand in front of those of the others
      have hfront : (front ++ paged pageSize (data kind)).length
          = front.length + divCeil size.toNat pageSize * pageSize := by
        rw [List.length_append, length_paged hpage, hlength]
      rw [← hfront] at hothers
      have hagrees := ih hrest hothers
      rw [hfront, List.append_assoc] at hagrees
      rw [List.flatMap_cons]
      refine Agrees.cons (r := ⟨kind, _, size.toNat, _⟩) hpage rfl hlength rfl hfits hagrees

/-! ## Limits -/

theorem paged_size_lt {pageSize : Nat} (size : UInt32) (hpage : 0 < pageSize)
    (hlt : pageSize < 0x100000000) : divCeil size.toNat pageSize * pageSize < 0x200000000 := by
  have hsize := size.toNat_lt
  have hpadding := padding_lt (n := size.toNat) hpage
  rw [divCeil_mul hpage]
  omega

theorem place_isOk {pageSize offset : Nat} {sizes : List (RegionKind × UInt32)}
    (hpage : 0 < pageSize) (hlt : pageSize < 0x100000000)
    (hfits : offset + sizes.length * 0x200000000 < 0x10000000000000000) :
    ∃ regions, place pageSize offset sizes = .ok regions := by
  induction sizes generalizing offset with
  | nil => exact ⟨[], rfl⟩
  | cons p sizes ih =>
    obtain ⟨kind, size⟩ := p
    rw [List.length_cons, Nat.add_mul] at hfits
    have hskip : offset + sizes.length * 0x200000000 < 0x10000000000000000 :=
      Nat.lt_of_le_of_lt (Nat.add_le_add_left (Nat.le_add_right _ _) _) hfits
    by_cases hsize : size = 0
    · obtain ⟨regions, hregions⟩ := ih hskip
      exact ⟨regions, by rw [place, if_pos hsize, hregions]⟩
    · have hpaged := paged_size_lt size hpage hlt
      obtain ⟨others, hothers⟩ :=
        @ih (offset + divCeil size.toNat pageSize * pageSize) (by omega)
      have hnext : offset + divCeil size.toNat pageSize * pageSize < UInt64.size := by
        show _ < 0x10000000000000000
        omega
      exact ⟨_, (place_cons_eq_ok_iff hsize).2 ⟨hnext, others, hothers, rfl⟩⟩

/-- Where the first region starts if the page size is not zero. -/
theorem compute_of_ne_zero {headerSize : Nat} {pageSize : UInt32}
    {sizes : List (RegionKind × UInt32)} (hpage : pageSize ≠ 0)
    (hheader : headerSize < 0x200000000) :
    compute headerSize pageSize sizes
      = place pageSize.toNat (headerSize + padding headerSize pageSize.toNat) sizes := by
  have hpos : 0 < pageSize.toNat := Nat.pos_of_ne_zero fun h => hpage (UInt32.toNat_inj.1 h)
  have hlt := pageSize.toNat_lt
  have hpadding := padding_lt (n := headerSize) hpos
  have hround : roundUp? 64 headerSize pageSize.toNat
      = some (headerSize + padding headerSize pageSize.toNat) := by
    unfold roundUp?
    rw [if_pos]
    show _ < 0x10000000000000000
    omega
  rw [compute, if_neg hpage, hround]

end Layout

/-! ## Layouts of headers -/

namespace ImageHeader

theorem layout_eq (h : ImageHeader) :
    h.layout = Layout.compute h.headerSize h.pageSize h.regionSizes := by
  cases h <;> rfl

theorem headerSize_lt (h : ImageHeader) : h.headerSize < 0x200000000 := by
  rcases h with (_ | _ | _ | _ | _) | (_ | _) <;>
    simp only [headerSize, BootHeader.headerSize, VendorHeader.headerSize] <;> decide

theorem length_regionSizes_le (h : ImageHeader) : h.regionSizes.length ≤ 5 := by
  rcases h with (_ | _ | _ | _ | _) | (_ | _) <;> simp [regionSizes, BootHeader.regionSizes,
    VendorHeader.regionSizes]

theorem regionKinds_eq (h : ImageHeader) : h.regionKinds = h.regionSizes.map (·.1) := by
  cases h <;> rfl

theorem nodup_regionKinds (h : ImageHeader) : h.regionKinds.Nodup := by
  rcases h with (_ | _ | _ | _ | _) | (_ | _) <;> simp [regionKinds, BootHeader.regionKinds,
    VendorHeader.regionKinds, BootHeader.regionSizes, VendorHeader.regionSizes]

/-- Where the pages of the header end. -/
def frontSize (h : ImageHeader) : Nat := h.headerSize + padding h.headerSize h.pageSize.toNat

theorem pageSize_pos {h : ImageHeader} (hpage : h.pageSize ≠ 0) : 0 < h.pageSize.toNat :=
  Nat.pos_of_ne_zero fun h => hpage (UInt32.toNat_inj.1 h)

theorem layout_of_zero {h : ImageHeader} (hpage : h.pageSize = 0) :
    h.layout = .error .noPageSize := by
  rw [layout_eq, Layout.compute, if_pos hpage]

theorem ne_zero_of_layout {h : ImageHeader} {regions : List Region}
    (hlayout : h.layout = .ok regions) : h.pageSize ≠ 0 := by
  intro hpage
  rw [layout_of_zero hpage] at hlayout
  cases hlayout

theorem layout_eq_place {h : ImageHeader} (hpage : h.pageSize ≠ 0) :
    h.layout = Layout.place h.pageSize.toNat h.frontSize h.regionSizes := by
  rw [layout_eq, Layout.compute_of_ne_zero hpage h.headerSize_lt, frontSize]

/-- No layout runs over `2 ^ 64`. -/
theorem layout_of_ne_zero {h : ImageHeader} (hpage : h.pageSize ≠ 0) :
    ∃ regions, h.layout = .ok regions := by
  have hlt := h.pageSize.toNat_lt
  have hpadding := padding_lt (n := h.headerSize) (pageSize_pos hpage)
  have hheader := h.headerSize_lt
  have hcount := h.length_regionSizes_le
  rw [layout_eq_place hpage]
  refine Layout.place_isOk (pageSize_pos hpage) hlt ?_
  unfold frontSize
  omega

/-- No two regions have the same kind. -/
theorem nodup_layout {h : ImageHeader} {regions : List Region} (hlayout : h.layout = .ok regions)
    (hpage : h.pageSize ≠ 0) : (regions.map (·.kind)).Nodup := by
  have hnodup := h.nodup_regionKinds
  rw [regionKinds_eq] at hnodup
  rw [Layout.map_kind_of_place ((layout_eq_place hpage).symm.trans hlayout)]
  exact hnodup.sublist (List.filter_sublist.map _)

/-- A region that is not empty has one place. -/
theorem countP_layout {h : ImageHeader} {regions : List Region} (hlayout : h.layout = .ok regions)
    (hpage : h.pageSize ≠ 0) {kind : RegionKind} {size : UInt32}
    (hmem : (kind, size) ∈ h.regionSizes) (hsize : size ≠ 0) :
    regions.countP (·.kind == kind) = 1 := by
  have hkinds := Layout.map_kind_of_place ((layout_eq_place hpage).symm.trans hlayout)
  have hcount : (regions.map (·.kind)).count kind = 1 := by
    rw [(nodup_layout hlayout hpage).count, if_pos]
    rw [hkinds]
    exact List.mem_map.2 ⟨_, List.mem_filter.2 ⟨hmem, by simpa using hsize⟩, rfl⟩
  rwa [List.count, List.countP_map] at hcount

end ImageHeader

end AndroidBoot
