import AndroidBoot.Proofs.Cli.Sessions
import AndroidBoot.Proofs.Image.Documents
import AndroidBoot.Proofs.Image.Edits
import AndroidBoot.Proofs.Image.Packing
import AndroidBoot.Proofs.Text.Utf8
import Mathlib.Tactic.Choose

/-!
# Packing

`pack` makes the image of the header in a directory, with the sizes of the region files there. What
it writes is what the layout of that header says, and there are only three reasons to refuse.

    PackInput store directory h₀ data, a page size that is not zero, region files below 2 ^ 32
      → pack ends well, and Packed h data regions image for what is in the output (pack_agrees)
    pack fails → the store is as it was                                           (pack_agrees)
-/

namespace AndroidBoot.Cli

/-- The document in a directory describes the header. -/
def Describes (store : Store) (directory : String) (h : ImageHeader) : Prop :=
  ∃ bytes text, store.read (headerFile directory) = .ok bytes ∧
    Utf8.decode? bytes = some text ∧ ImageHeader.ofDocument? text = some h

/-- What is taken for the data of a region: what is in its file, and nothing if there is no file. -/
def Taken (store : Store) (file : String) (data : Bytes) : Prop :=
  store.read file = .ok data ∨ (store.read file = .error (.opening .notFound) ∧ data = [])

/-- A directory to pack: its document describes a header, and each region of that header has its
data in a file, or no data and no file. -/
structure PackInput (store : Store) (directory : String) (h : ImageHeader)
    (data : RegionKind → Bytes) : Prop where
  document : Describes store directory h
  regions : ∀ kind ∈ h.regionKinds, Taken store (regionFile directory kind) (data kind)

/-- A header after the sizes of all its regions and then its offsets were set. -/
def updated (h : ImageHeader) (data : RegionKind → Bytes) : Except ImageError ImageHeader := do
  let h ← h.regionKinds.foldlM
    (fun h kind => h.resizeRegion kind (UInt32.ofNat (data kind).length)) h
  h.withOffsets

/-- Why `pack` refuses a directory whose files can be read. -/
inductive PackRefused (store : Store) (output directory : String) (h : ImageHeader)
    (data : RegionKind → Bytes) : Failure → Prop where
  | tooLarge (kind : RegionKind) (hkind : kind ∈ h.regionKinds)
      (hlarge : UInt32.size ≤ (data kind).length) :
    PackRefused store output directory h data
      ((Failure.ofMessage "out of range integral type conversion attempted").within
        ("Region is too large: " ++ quoteText (regionFile directory kind)))
  | noOffsets (hpage : h.pageSize = 0) :
    PackRefused store output directory h data
      ((Failure.ofImage .noPageSize).within "Failed to update region offsets")
  | noLayout (hpage : h.pageSize = 0) :
    PackRefused store output directory h data (Failure.ofImage .noPageSize)
  | output (fault : Fault) (hfault : store.write output [] = .error fault) :
    PackRefused store output directory h data
      ((Failure.ofFault fault).within ("Failed to open for writing: " ++ quoteText output))

/-! ## Reading the directory -/

section
variable {s : Session} {directory : String} {h : ImageHeader} {data : RegionKind → Bytes}

theorem exec_readHeaderDocument (hdocument : Describes s.store directory h) :
    (readHeaderDocument (headerFile directory) : Action (StateM Session) ImageHeader).exec s
      = (.ok h, s) := by
  obtain ⟨bytes, text, hread, htext, hheader⟩ := hdocument
  unfold readHeaderDocument
  rw [Action.exec_bind_ok (exec_readFile _ hread), htext]
  simp only [hheader, Action.exec_pure]

theorem Taken.unique {store : Store} {file : String} {bs bs' : Bytes} (h : Taken store file bs)
    (h' : Taken store file bs') : bs = bs' := by
  rcases h with hread | ⟨hread, rfl⟩ <;> rcases h' with hread' | ⟨hread', rfl⟩
  · exact Except.ok.inj (hread.symm.trans hread')
  · cases hread.symm.trans hread'
  · cases hread.symm.trans hread'
  · rfl

theorem exec_readRegion_eq (file : String) (s : Session) :
    (readRegion file : Action (StateM Session) Bytes).exec s = (match s.store.read file with
      | .ok bs => .ok bs
      | .error (.opening .notFound) => .ok []
      | .error fault =>
        .error ((Failure.ofFault fault.fault).within ("Failed to read data: " ++ quoteText file)),
      s) := by
  unfold readRegion
  rw [Action.exec_attempt]
  have hrun : StateT.run (Files.read file : StateM Session (Except ReadFault Bytes)) s
      = (s.store.read file, s) := rfl
  rw [StateT.run_bind, hrun]
  cases s.store.read file with
  | ok bs => rfl
  | error fault => cases fault with
    | reading fault => rfl
    | opening fault => cases fault <;> rfl

theorem exec_readRegion {file : String} {bs : Bytes} (htaken : Taken s.store file bs) :
    (readRegion file : Action (StateM Session) Bytes).exec s = (.ok bs, s) := by
  rw [exec_readRegion_eq]
  rcases htaken with hread | ⟨hread, rfl⟩
  · rw [hread]
  · rw [hread]

theorem exec_readRegion_eq_ok {file : String} {bs : Bytes} {s' : Session}
    (h : (readRegion file : Action (StateM Session) Bytes).exec s = (.ok bs, s')) :
    Taken s.store file bs ∧ s' = s := by
  rw [exec_readRegion_eq] at h
  obtain ⟨hresult, rfl⟩ := Prod.mk.inj h
  refine ⟨?_, rfl⟩
  split at hresult
  · next hread => exact .inl (hread.trans (congrArg _ (Except.ok.inj hresult)))
  · next hread => exact .inr ⟨hread, (Except.ok.inj hresult).symm⟩
  · cases hresult

/-- Either every region file is read and its size set, or one is too large. -/
theorem exec_readRegions (kinds : List RegionKind) {h : ImageHeader}
    (hkinds : ∀ kind ∈ kinds, kind ∈ h.regionKinds)
    (htaken : ∀ kind ∈ kinds, Taken s.store (regionFile directory kind) (data kind)) :
    (∃ h', kinds.foldlM
        (fun h kind => h.resizeRegion kind (UInt32.ofNat (data kind).length)) h = .ok h' ∧
      (∀ kind ∈ kinds, (data kind).length < UInt32.size) ∧
      (readRegions directory h kinds : Action (StateM Session) _).exec s
        = (.ok (h', kinds.map fun kind => (kind, data kind)), s)) ∨
    (∃ kind ∈ kinds, UInt32.size ≤ (data kind).length ∧
      (readRegions directory h kinds : Action (StateM Session) _).exec s
        = (.error ((Failure.ofMessage "out of range integral type conversion attempted").within
            ("Region is too large: " ++ quoteText (regionFile directory kind))), s)) := by
  induction kinds generalizing h with
  | nil => exact .inl ⟨h, rfl, by simp, rfl⟩
  | cons kind kinds ih =>
    have hfile := exec_readRegion (htaken kind List.mem_cons_self)
    unfold readRegions
    rw [Action.exec_bind_ok hfile]
    by_cases hlarge : UInt32.size ≤ (data kind).length
    · refine .inr ⟨kind, List.mem_cons_self, hlarge, ?_⟩
      rw [if_pos hlarge]
      rfl
    · rw [if_neg hlarge]
      obtain ⟨h', hresize, hedited⟩ := ImageHeader.resizeRegion_of_mem
        (UInt32.ofNat (data kind).length) (hkinds kind List.mem_cons_self)
      have hrest := @ih h' (fun k hk => hedited.regionKinds ▸ hkinds k (List.mem_cons_of_mem _ hk))
        (fun k hk => htaken k (List.mem_cons_of_mem _ hk))
      rw [Action.exec_bind_ok (Action.exec_ofExcept_ok hresize s), List.foldlM_cons, hresize]
      rcases hrest with ⟨h'', hfold, hsmall, hexec⟩ | ⟨k, hk, hklarge, hexec⟩
      · rw [Action.exec_bind_ok hexec]
        refine .inl ⟨h'', hfold, ?_, rfl⟩
        intro k hk
        rcases List.mem_cons.1 hk with rfl | hk
        · omega
        · exact hsmall k hk
      · rw [Action.exec_bind_error hexec]
        exact .inr ⟨k, List.mem_cons_of_mem _ hk, hklarge, rfl⟩

/-- If the region files were read, each is there or missing, and none is too large. -/
theorem taken_of_exec_readRegions {kinds : List RegionKind} {h : ImageHeader} {s' : Session}
    {r : ImageHeader × List (RegionKind × Bytes)}
    (hexec : (readRegions directory h kinds : Action (StateM Session) _).exec s = (.ok r, s')) :
    ∀ kind ∈ kinds, ∃ bs, Taken s.store (regionFile directory kind) bs ∧
      bs.length < UInt32.size := by
  induction kinds generalizing h r s' with
  | nil => exact nofun
  | cons kind kinds ih =>
    unfold readRegions at hexec
    obtain ⟨bs, t, hfile, hrest⟩ := Action.exec_bind_eq_ok hexec
    obtain ⟨htaken, rfl⟩ := exec_readRegion_eq_ok hfile
    by_cases hlarge : UInt32.size ≤ bs.length
    · rw [if_pos hlarge] at hrest
      cases hrest
    · rw [if_neg hlarge] at hrest
      obtain ⟨h', t', hresize, hothers⟩ := Action.exec_bind_eq_ok hrest
      obtain ⟨-, rfl⟩ := Action.exec_ofExcept_eq_ok hresize
      obtain ⟨r', t'', hread, -⟩ := Action.exec_bind_eq_ok hothers
      exact List.forall_mem_cons.2 ⟨⟨bs, htaken, by omega⟩, ih hread⟩

end

/-! ## Writing the image -/

section
variable {s : Session} {output : String} {h : ImageHeader} {data : RegionKind → Bytes}
  {regions : List Region}

theorem lookup_map_kinds {kinds : List RegionKind} {kind : RegionKind} (hkind : kind ∈ kinds) :
    (kinds.map fun kind => (kind, data kind)).lookup kind = some (data kind) := by
  induction kinds with
  | nil => simp at hkind
  | cons k kinds ih =>
    rw [List.map_cons, List.lookup_cons]
    by_cases hk : kind = k
    · subst hk
      simp
    · have hne : (kind == k) = false := by simpa using hk
      rw [hne]
      exact ih ((List.mem_cons.1 hkind).resolve_left hk)

/-- The image is written as a whole, or the output cannot be written at all. -/
theorem exec_writeImage (hpage : h.pageSize ≠ 0) (hlayout : h.layout = .ok regions) :
    (writeImage output h regions (h.regionKinds.map fun kind => (kind, data kind)) :
        Action (StateM Session) Unit).exec s
      = match s.store.write output (h.image data regions) with
        | .ok store => (.ok (), { s with store })
        | .error fault =>
          (.error ((Failure.ofFault fault).within
            ("Failed to open for writing: " ++ quoteText output)), s) := by
  have hkinds : ∀ r ∈ regions,
      (h.regionKinds.map fun kind => (kind, data kind)).lookup r.kind = some (data r.kind) := by
    intro r hr
    have hplace := (ImageHeader.layout_eq_place hpage).symm.trans hlayout
    have hmem : r.kind ∈ regions.map (·.kind) := List.mem_map.2 ⟨r, hr, rfl⟩
    rw [Layout.map_kind_of_place hplace] at hmem
    apply lookup_map_kinds
    rw [ImageHeader.regionKinds_eq]
    exact (List.filter_sublist.map _).subset hmem
  have hwritten : h.writeImage regions
      (fun kind => (h.regionKinds.map fun kind => (kind, data kind)).lookup kind) ⟨⟨[]⟩, 0⟩
      = (.ok (), Counted.followedBy ⟨⟨[]⟩, 0⟩ (h.image data regions)) :=
    ImageHeader.writeImage_eq hpage hkinds
  have hdata : (Counted.followedBy ⟨⟨[]⟩, 0⟩ (h.image data regions)).buffer.data
      = h.image data regions := rfl
  unfold writeImage
  simp only [hwritten, hdata]
  cases hwrite : s.store.write output (h.image data regions) with
  | ok store =>
    rw [Action.exec_bind_ok (exec_writeFile _ hwrite)]
    rfl
  | error fault =>
    rw [Action.exec_bind_error (exec_writeFile_error _ hwrite)]

end

/-! ## Packing a directory -/

section
variable {s : Session} {directory : String} {h₀ : ImageHeader} {data : RegionKind → Bytes}

/-- What the sizes and the offsets make of a header that has a page size. -/
theorem updated_of_ne_zero (hpage : h₀.pageSize ≠ 0)
    (hsmall : ∀ kind ∈ h₀.regionKinds, (data kind).length < UInt32.size) :
    ∃ h regions, (h₀.sized fun kind => UInt32.ofNat (data kind).length).withOffsets = .ok h ∧
      updated h₀ data = .ok h ∧ h.layout = .ok regions ∧ h.pageSize ≠ 0 ∧
      h.regionKinds = h₀.regionKinds ∧ ∀ p ∈ h.regionSizes, (data p.1).length = p.2.toNat := by
  have hresized := h₀.resizeRegions_eq fun kind => UInt32.ofNat (data kind).length
  have hsizes := h₀.regionSizes_sized fun kind => UInt32.ofNat (data kind).length
  have hpage' : (h₀.sized fun kind => UInt32.ofNat (data kind).length).pageSize ≠ 0 := by
    rwa [ImageHeader.pageSize_sized]
  generalize (h₀.sized fun kind => UInt32.ofNat (data kind).length) = h₁ at *
  obtain ⟨regions, hlayout⟩ := ImageHeader.layout_of_ne_zero hpage'
  have hoffsets := ImageHeader.withOffsets_eq hlayout
  refine ⟨h₁.placed regions, regions, hoffsets, ?_, ?_, ?_, ?_, ?_⟩
  · rw [updated, hresized]
    exact hoffsets
  · rw [ImageHeader.layout_eq, ImageHeader.headerSize_placed, ImageHeader.pageSize_placed,
      ImageHeader.regionSizes_placed, ← ImageHeader.layout_eq, hlayout]
  · rwa [ImageHeader.pageSize_placed]
  · rw [ImageHeader.regionKinds_eq, ImageHeader.regionSizes_placed, hsizes, List.map_map]
    exact List.map_id _
  · rw [ImageHeader.regionSizes_placed, hsizes]
    intro p hp
    obtain ⟨kind, hkind, rfl⟩ := List.mem_map.1 hp
    exact (UInt32.toNat_ofNat_of_lt' (hsmall kind hkind)).symm

/-- A region file is too large, or the sizes of all of them are set. -/
theorem exec_pack_cases (v : HeaderView) (output : String)
    (hin : PackInput s.store directory h₀ data) :
    (∃ e, (∃ kind ∈ h₀.regionKinds, UInt32.size ≤ (data kind).length) ∧
      PackRefused s.store output directory h₀ data e ∧
      (pack v output directory : Action (StateM Session) Unit).exec s = (.error e, s)) ∨
    ((∀ kind ∈ h₀.regionKinds, (data kind).length < UInt32.size) ∧
      (pack v output directory : Action (StateM Session) Unit).exec s
        = Action.exec (do
            let h ← Action.ofExcept
              (fun e => (Failure.ofImage e).within "Failed to update region offsets")
              (h₀.sized fun kind => UInt32.ofNat (data kind).length).withOffsets
            v.show h
            let layout ← Action.ofExcept Failure.ofImage h.layout
            writeImage output h layout (h₀.regionKinds.map fun kind => (kind, data kind))) s) := by
  unfold pack
  rw [Action.exec_bind_ok (exec_readHeaderDocument hin.document)]
  rcases exec_readRegions h₀.regionKinds (fun _ hk => hk) hin.regions with
    ⟨h₁, hfold, hsmall, hexec⟩ | ⟨kind, hkind, hlarge, hexec⟩
  · refine .inr ⟨hsmall, ?_⟩
    have hsized := h₀.resizeRegions_eq fun kind => UInt32.ofNat (data kind).length
    rw [Action.exec_bind_ok hexec, Except.ok.inj (hfold.symm.trans hsized)]
  · refine .inl ⟨_, ⟨kind, hkind, hlarge⟩, .tooLarge kind hkind hlarge, ?_⟩
    rw [Action.exec_bind_error hexec]

/-- With a page size, what is left is to write the image. -/
theorem exec_pack_of_ne_zero (v : HeaderView) (output : String)
    (hin : PackInput s.store directory h₀ data) (hpage : h₀.pageSize ≠ 0)
    (hsmall : ∀ kind ∈ h₀.regionKinds, (data kind).length < UInt32.size) :
    ∃ h regions printed, updated h₀ data = .ok h ∧ h.regionKinds = h₀.regionKinds ∧
      h.Packed data regions (h.image data regions) ∧
      (pack v output directory : Action (StateM Session) Unit).exec s
        = match s.store.write output (h.image data regions) with
          | .ok store => (.ok (), ⟨store, printed⟩)
          | .error fault =>
            (.error ((Failure.ofFault fault).within
              ("Failed to open for writing: " ++ quoteText output)), ⟨s.store, printed⟩) := by
  obtain ⟨h, regions, hoffsets, hupdated, hlayout, hpage', hkinds, hdata⟩ :=
    updated_of_ne_zero hpage hsmall
  obtain ⟨printed, hshow⟩ := exec_show v h s
  refine ⟨h, regions, printed, hupdated, hkinds, ImageHeader.packed_image hpage' hlayout hdata, ?_⟩
  rcases exec_pack_cases (s := s) v output hin with ⟨e, ⟨kind, hkind, hlarge⟩, -⟩ | ⟨-, hexec⟩
  · exact absurd (hsmall kind hkind) (by omega)
  · rw [hexec, Action.exec_bind_ok (Action.exec_ofExcept_ok hoffsets s), Action.exec_bind_ok hshow,
      Action.exec_bind_ok (Action.exec_ofExcept_ok hlayout _), ← hkinds,
      exec_writeImage hpage' hlayout]

/-- With room for the output the image is written. -/
theorem exec_pack_isOk (v : HeaderView) {output : String}
    (hin : PackInput s.store directory h₀ data) (hpage : h₀.pageSize ≠ 0)
    (hsmall : ∀ kind ∈ h₀.regionKinds, (data kind).length < UInt32.size)
    (hroom : ∃ store, s.store.write output [] = .ok store) :
    ∃ h regions s', updated h₀ data = .ok h ∧ h.regionKinds = h₀.regionKinds ∧
      h.Packed data regions (h.image data regions) ∧
      (pack v output directory : Action (StateM Session) Unit).exec s = (.ok (), s') ∧
      s.store.write output (h.image data regions) = .ok s'.store := by
  obtain ⟨h, regions, printed, hupdated, hkinds, hpacked, hexec⟩ :=
    exec_pack_of_ne_zero (s := s) v output hin hpage hsmall
  obtain ⟨store₀, hroom⟩ := hroom
  obtain ⟨store, hwrite⟩ := Store.write_isOk hroom (h.image data regions)
  rw [hwrite] at hexec
  exact ⟨h, regions, ⟨store, printed⟩, hupdated, hkinds, hpacked, hexec, hwrite⟩

/-- A directory that was packed is one to pack: its files were there or missing, and not too
large. -/
theorem packInput_of_exec {v : HeaderView} {output : String} {s' : Session}
    (hdocument : Describes s.store directory h₀)
    (hexec : (pack v output directory : Action (StateM Session) Unit).exec s = (.ok (), s')) :
    ∃ data, PackInput s.store directory h₀ data ∧
      ∀ kind ∈ h₀.regionKinds, (data kind).length < UInt32.size := by
  unfold pack at hexec
  rw [Action.exec_bind_ok (exec_readHeaderDocument hdocument)] at hexec
  obtain ⟨r, t, hread, -⟩ := Action.exec_bind_eq_ok hexec
  choose! data htaken using taken_of_exec_readRegions hread
  exact ⟨data, ⟨hdocument, fun kind hkind => (htaken kind hkind).1⟩,
    fun kind hkind => (htaken kind hkind).2⟩

/-- Without a page size nothing is written. -/
theorem exec_pack_of_zero (v : HeaderView) (output : String)
    (hin : PackInput s.store directory h₀ data) (hpage : h₀.pageSize = 0) :
    ∃ e s', (pack v output directory : Action (StateM Session) Unit).exec s = (.error e, s') ∧
      s'.store = s.store ∧ PackRefused s.store output directory h₀ data e := by
  rcases exec_pack_cases (s := s) v output hin with ⟨e, -, hrefused, hexec⟩ | ⟨-, hexec⟩
  · exact ⟨e, s, hexec, rfl, hrefused⟩
  · have hpage' : (h₀.sized fun kind => UInt32.ofNat (data kind).length).pageSize = 0 := by
      rwa [ImageHeader.pageSize_sized]
    rw [hexec]
    generalize (h₀.sized fun kind => UInt32.ofNat (data kind).length) = h₁ at hpage'
    have hlayout := ImageHeader.layout_of_zero hpage'
    cases h₁ with
    | boot b =>
      have hoffsets : (ImageHeader.boot b).withOffsets = .error .noPageSize := by
        rw [ImageHeader.withOffsets, ImageHeader.withOffsets_of_error hlayout]
        rfl
      rw [Action.exec_bind_error (Action.exec_ofExcept_error hoffsets s)]
      exact ⟨_, s, rfl, rfl, .noOffsets hpage⟩
    | vendor b =>
      obtain ⟨printed, hshow⟩ := exec_show v (.vendor b) s
      have hoffsets : (ImageHeader.vendor b).withOffsets = .ok (.vendor b) := rfl
      rw [Action.exec_bind_ok (Action.exec_ofExcept_ok hoffsets s), Action.exec_bind_ok hshow,
        Action.exec_bind_error (Action.exec_ofExcept_error hlayout _)]
      exact ⟨_, _, rfl, rfl, .noLayout hpage⟩

/-- **What `pack` writes.** With a page size and region files below `2 ^ 32` the output is what the
layout of the updated header says; without a page size nothing is written; and no failure is one of
a region without data or of an offset that is too large. -/
theorem pack_agrees (v : HeaderView) (output : String)
    (hin : PackInput s.store directory h₀ data) :
    (h₀.pageSize ≠ 0 → (∀ kind ∈ h₀.regionKinds, (data kind).length < UInt32.size) →
      (∃ store, s.store.write output [] = .ok store) →
      ∃ h regions image s', updated h₀ data = .ok h ∧ h.regionKinds = h₀.regionKinds ∧
        h.Packed data regions image ∧
        (pack v output directory : Action (StateM Session) Unit).exec s = (.ok (), s') ∧
        s.store.write output image = .ok s'.store ∧ s'.store.read output = .ok image) ∧
    (h₀.pageSize = 0 → ∃ e s',
      (pack v output directory : Action (StateM Session) Unit).exec s = (.error e, s')) ∧
    (∀ e s', (pack v output directory : Action (StateM Session) Unit).exec s = (.error e, s') →
      s'.store = s.store ∧ PackRefused s.store output directory h₀ data e) := by
  refine ⟨?_, ?_, ?_⟩
  · intro hpage hsmall hroom
    obtain ⟨h, regions, s', hupdated, hkinds, hpacked, hexec, hwrite⟩ :=
      exec_pack_isOk v hin hpage hsmall hroom
    exact ⟨h, regions, _, s', hupdated, hkinds, hpacked, hexec, hwrite,
      Store.read_of_write hwrite⟩
  · intro hpage
    obtain ⟨e, s', hexec, -⟩ := exec_pack_of_zero (s := s) v output hin hpage
    exact ⟨e, s', hexec⟩
  · intro e s' herror
    by_cases hpage : h₀.pageSize = 0
    · obtain ⟨e', s'', hexec, hstore, hrefused⟩ := exec_pack_of_zero (s := s) v output hin hpage
      cases herror.symm.trans hexec
      exact ⟨hstore, hrefused⟩
    · rcases exec_pack_cases (s := s) v output hin with ⟨e', -, hrefused, hexec⟩ | ⟨hsmall, -⟩
      · cases herror.symm.trans hexec
        exact ⟨rfl, hrefused⟩
      · obtain ⟨h, regions, printed, -, -, -, hexec⟩ :=
          exec_pack_of_ne_zero (s := s) v output hin hpage hsmall
        cases hwrite : s.store.write output (h.image data regions) with
        | ok store =>
          rw [hwrite] at hexec
          cases herror.symm.trans hexec
        | error fault =>
          rw [hwrite] at hexec
          cases herror.symm.trans hexec
          exact ⟨rfl, .output fault (Store.write_error hwrite [])⟩

end

/-- A version 4 header that knows no region yet. -/
def bareHeader : ImageHeader := .boot (.v4 ⟨0, 0, 0, 0, .replicate 4 0, .replicate 1536 0⟩ ⟨0⟩)

/-- The current directory holds a document and a kernel of three bytes. -/
def kernelSession (text : String) : Session where
  store := ⟨["home"], [(["home"], .directory),
    (["home", "header.toml"], .file (Utf8.encode text)),
    (["home", "kernel.img"], .file [1, 2, 3])]⟩
  output := ""

def kernelData : RegionKind → Bytes
  | .kernel => [1, 2, 3]
  | _ => []

theorem pack_agrees_kernel : ∃ text, bareHeader.toDocument.write = some text ∧
    PackInput (kernelSession text).store "." bareHeader kernelData ∧
    ∃ h regions image s', updated bareHeader kernelData = .ok h ∧
      h.Packed kernelData regions image ∧
      (pack ⟨true, false⟩ "boot.img" "." : Action (StateM Session) Unit).exec (kernelSession text)
        = (.ok (), s') ∧
      s'.store.read "boot.img" = .ok image := by
  have hsome : bareHeader.toDocument.write.isSome :=
    bareHeader.isSome_write_toDocument.2 fun n hn => absurd hn List.not_mem_nil
  obtain ⟨text, htext⟩ := Option.isSome_iff_exists.1 hsome
  have hin : PackInput (kernelSession text).store "." bareHeader kernelData := by
    refine ⟨⟨Utf8.encode text, text, rfl, Utf8.decode?_encode text,
      ImageHeader.ofDocument?_write htext⟩, ?_⟩
    intro kind hkind
    have hkinds : kind = .kernel ∨ kind = .ramdisk ∨ kind = .signature := by
      simpa [bareHeader, ImageHeader.regionKinds, BootHeader.regionKinds, BootHeader.regionSizes]
        using hkind
    rcases hkinds with rfl | rfl | rfl
    · exact .inl rfl
    · exact .inr ⟨rfl, rfl⟩
    · exact .inr ⟨rfl, rfl⟩
  obtain ⟨hpacks, -⟩ := pack_agrees (s := kernelSession text) ⟨true, false⟩ "boot.img" hin
  have hsmall : ∀ kind ∈ bareHeader.regionKinds, (kernelData kind).length < UInt32.size := by
    intro kind _
    cases kind <;> decide
  obtain ⟨h, regions, image, s', hupdated, -, hpacked, hexec, -, hread⟩ :=
    hpacks (by decide) hsmall ⟨_, rfl⟩
  exact ⟨text, htext, hin, h, regions, image, s', hupdated, hpacked, hexec, hread⟩

end AndroidBoot.Cli
