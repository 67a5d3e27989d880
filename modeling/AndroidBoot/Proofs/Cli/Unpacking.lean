import AndroidBoot.Proofs.Cli.Packing
import AndroidBoot.Proofs.Image.Unpacking
import AndroidBoot.Proofs.Storage.Directories

/-!
# Unpacking

`unpack` puts the document of a header and the regions that are not empty into a directory. If there
was nothing of that kind in it, `pack` finds there just what was in the image: the header, and the
data of every region, with missing files for the empty ones.

    FreshDirectory store directory, Unpackable h regions image
      → unpack ends well, and PackInput store' directory h (regionData image regions) (exec_unpack)
    unpack ends well → Unpackable h regions image                       (unpackable_of_exec)

So unpacking and packing keep an image, and do so again and again.

    unpack image, then pack → image', with the same regions, and the same image' from then on
                                                                              (pack_of_unpack)
-/

namespace AndroidBoot.Cli

open Store

/-- A directory that can be made, or is there, and holds none of the files that an image is taken
apart into. Their names can be asked for, so none of them is too long. -/
structure FreshDirectory (store : Store) (directory : String) : Prop where
  made : (store.makeDirectories directory).1 = .ok ()
  noHeader : (store.makeDirectories directory).2.read (headerFile directory)
    = .error (.opening .notFound)
  noRegion : ∀ kind, (store.makeDirectories directory).2.read (regionFile directory kind)
    = .error (.opening .notFound)

/-! ## Names of the files -/

theorem plainName_header : PlainName "header.toml" := ⟨by decide, by decide, by decide⟩

theorem plainName_region (kind : RegionKind) : PlainName (kind.name ++ ".img") := by
  cases kind <;> exact ⟨by decide, by decide, by decide⟩

theorem region_ne_header (kind : RegionKind) : kind.name ++ ".img" ≠ "header.toml" := by
  cases kind <;> decide

theorem region_ne {kind kind' : RegionKind} (h : kind ≠ kind') :
    kind.name ++ ".img" ≠ kind'.name ++ ".img" := by
  intro heq
  have hchars := congrArg String.toList heq
  rw [String.toList_append, String.toList_append, List.append_cancel_right_eq,
    String.toList_inj] at hchars
  have hkind := RegionKind.ofName?_name kind
  rw [hchars, RegionKind.ofName?_name kind'] at hkind
  exact h (Option.some.inj hkind).symm

theorem region_ne_of_not_mem {regions : List Region} {kind : RegionKind}
    (h : kind ∉ regions.map (·.kind)) :
    ∀ r ∈ regions, kind.name ++ ".img" ≠ r.kind.name ++ ".img" := by
  intro r hr
  refine region_ne fun heq => h ?_
  rw [heq]
  exact List.mem_map.2 ⟨r, hr, rfl⟩

/-- A directory that is there and empty is one, if its files have names that are not too long. -/
theorem freshDirectory_of_empty {store : Store} {directory : String} {p : Path}
    (hleads : store.Leads directory p) (hempty : ∀ a, store.node? (p ++ [a]) = none)
    (hname : checkName directory = .ok ()) (hheader : checkName (headerFile directory) = .ok ())
    (hregion : ∀ kind, checkName (regionFile directory kind) = .ok ()) :
    FreshDirectory store directory := by
  have hmade := hleads.makeDirectories hname
  have habsent : ∀ a, PlainName a → checkName (joinName directory a) = .ok () →
      store.read (joinName directory a) = .error (.opening .notFound) := by
    intro a ha hname
    rw [read_of_finds (hleads.finds ha hname), hempty a]
  refine ⟨?_, ?_, ?_⟩
  · rw [hmade]
  · rw [hmade]
    exact habsent _ plainName_header hheader
  · intro kind
    rw [hmade]
    exact habsent _ (plainName_region kind) (hregion kind)

/-! ## Taking apart -/

section
variable {s s' : Session} {input directory : String} {p : Path} {image : Bytes}

theorem exec_makeDirectories_eq (failure : Fault → Failure) (directory : String) (s : Session) :
    (Action.attempt failure (Files.makeDirectories directory) : Action (StateM Session) Unit).exec s
      = ((s.store.makeDirectories directory).1.mapError failure,
        { s with store := (s.store.makeDirectories directory).2 }) := by
  rw [Action.exec_attempt]
  rfl

theorem exec_makeDirectories {failure : Fault → Failure} {store : Store}
    (h : s.store.makeDirectories directory = (.ok (), store)) :
    (Action.attempt failure (Files.makeDirectories directory) : Action (StateM Session) Unit).exec s
      = (.ok (), { s with store }) := by
  rw [exec_makeDirectories_eq, h]
  rfl

theorem exec_makeDirectories_eq_ok {failure : Fault → Failure}
    (h : (Action.attempt failure (Files.makeDirectories directory) :
      Action (StateM Session) Unit).exec s = (.ok (), s')) :
    ∃ store, s.store.makeDirectories directory = (.ok (), store) ∧ s' = { s with store } := by
  rw [exec_makeDirectories_eq] at h
  obtain ⟨hresult, hsession⟩ := Prod.mk.inj h
  refine ⟨_, ?_, hsession.symm⟩
  cases hmade : s.store.makeDirectories directory with
  | mk result store =>
    rw [hmade] at hresult
    cases result with
    | ok u => rfl
    | error fault => cases hresult

/-- A header that has a document is written as a file. -/
theorem exec_writeHeader_eq {h : ImageHeader} {text : String}
    (htext : h.toDocument.write = some text) (file : String) (s : Session) :
    (writeHeader file h : Action (StateM Session) Unit).exec s
      = (writeFile ("Failed to write header TOML: " ++ quoteText file) file (Utf8.encode text)
        : Action (StateM Session) Unit).exec s := by
  rw [writeHeader, htext]

/-- The first region was written, and the others after it. -/
theorem exec_writeRegions_cons {r : Region} {rest : List Region}
    (hexec : (writeRegions directory image (r :: rest) : Action (StateM Session) Unit).exec s
      = (.ok (), s')) :
    ∃ data store, r.slice image = .ok data ∧
      s.store.write (regionFile directory r.kind) data = .ok store ∧
      (writeRegions directory image rest : Action (StateM Session) Unit).exec { s with store }
        = (.ok (), s') := by
  unfold writeRegions at hexec
  obtain ⟨data, t, hcut, htail⟩ := Action.exec_bind_eq_ok hexec
  obtain ⟨hslice, rfl⟩ := Action.exec_ofExcept_eq_ok hcut
  obtain ⟨⟨⟩, t', hfile, hrest⟩ := Action.exec_bind_eq_ok htail
  obtain ⟨store, hwrite, rfl⟩ := exec_writeFile_eq_ok hfile
  exact ⟨data, store, hslice, hwrite, hrest⟩

/-- Regions can be written if they lie in the image and their files can be written. -/
theorem exec_writeRegions_isOk {regions : List Region}
    (hslices : ∀ r ∈ regions, ∃ data, r.slice image = .ok data)
    (hroom : ∀ r ∈ regions, ∃ store, s.store.write (regionFile directory r.kind) [] = .ok store) :
    ∃ s', (writeRegions directory image regions : Action (StateM Session) Unit).exec s
      = (.ok (), s') := by
  induction regions generalizing s with
  | nil => exact ⟨s, rfl⟩
  | cons r regions ih =>
    obtain ⟨data, hslice⟩ := hslices r List.mem_cons_self
    obtain ⟨_, hroom'⟩ := hroom r List.mem_cons_self
    obtain ⟨store, hwrite⟩ := write_isOk hroom' data
    obtain ⟨s', hexec⟩ := @ih { s with store } (fun q hq => hslices q (List.mem_cons_of_mem _ hq))
      fun q hq => by
        obtain ⟨_, hq⟩ := hroom q (List.mem_cons_of_mem _ hq)
        exact write_isOk_of_write hwrite hq
    refine ⟨s', ?_⟩
    unfold writeRegions
    rw [Action.exec_bind_ok (Action.exec_ofExcept_ok hslice s),
      Action.exec_bind_ok (exec_writeFile _ hwrite)]
    exact hexec

/-- A file that no region has for its own is left as it is. -/
theorem read_of_exec_writeRegions {regions : List Region} {name : String} {q : Path}
    (hexec : (writeRegions directory image regions : Action (StateM Session) Unit).exec s
      = (.ok (), s')) (hfinds : s.store.Finds name q)
    (hother : ∀ r ∈ regions, ¬ s.store.Finds (regionFile directory r.kind) q) :
    s'.store.read name = s.store.read name := by
  induction regions generalizing s with
  | nil =>
    cases hexec
    rfl
  | cons r regions ih =>
    obtain ⟨data, store, -, hwrite, hrest⟩ := exec_writeRegions_cons hexec
    obtain ⟨q', hfinds', -⟩ := write_eq_ok_iff.1 hwrite
    have hne : q ≠ q' := by
      rintro rfl
      exact hother r List.mem_cons_self hfinds'
    rw [ih hrest ((finds_of_write hwrite).2 hfinds) fun r' hr' hfound =>
      hother r' (List.mem_cons_of_mem _ hr') ((finds_of_write hwrite).1 hfound)]
    exact Store.read_of_write_ne hwrite hfinds' hfinds hne

/-- Every region has its data in its file. -/
theorem regions_of_exec_writeRegions {regions : List Region} (hleads : s.store.Leads directory p)
    (hnodup : (regions.map (·.kind)).Nodup)
    (hexec : (writeRegions directory image regions : Action (StateM Session) Unit).exec s
      = (.ok (), s')) :
    ∀ r ∈ regions, ∃ data, r.slice image = .ok data ∧
      s'.store.read (regionFile directory r.kind) = .ok data := by
  induction regions generalizing s with
  | nil => exact nofun
  | cons r regions ih =>
    rw [List.map_cons, List.nodup_cons] at hnodup
    obtain ⟨data, store, hslice, hwrite, hrest⟩ := exec_writeRegions_cons hexec
    have hleads' := hleads.of_write hwrite
    rw [List.forall_mem_cons]
    refine ⟨⟨data, hslice, ?_⟩, ih hleads' hnodup.2 hrest⟩
    obtain ⟨q, hfinds, -⟩ := write_eq_ok_iff.1 hwrite
    have hfinds' : store.Finds (regionFile directory r.kind) q := (finds_of_write hwrite).2 hfinds
    rw [read_of_exec_writeRegions hrest hfinds' fun r' hr' =>
      hleads'.not_finds (plainName_region _) (plainName_region _)
        (region_ne_of_not_mem hnodup.1 r' hr') hfinds']
    exact read_of_write hwrite

theorem slices_of_exec {regions : List Region}
    (h : (writeRegions directory image regions : Action (StateM Session) Unit).exec s
      = (.ok (), s')) :
    ∀ r ∈ regions, ∃ data, r.slice image = .ok data := by
  induction regions generalizing s with
  | nil => exact nofun
  | cons r regions ih =>
    obtain ⟨data, store, hslice, -, hrest⟩ := exec_writeRegions_cons h
    exact List.forall_mem_cons.2 ⟨⟨data, hslice⟩, ih hrest⟩

/-- What was taken apart could be. -/
theorem unpackable_of_exec {v : HeaderView} (hread : s.store.read input = .ok image)
    (h : (unpack v input directory : Action (StateM Session) Unit).exec s = (.ok (), s')) :
    ∃ header regions, ImageHeader.Unpackable header regions image := by
  unfold unpack at h
  rw [Action.exec_bind_ok (exec_readFile _ hread)] at h
  obtain ⟨header, t₁, hdecode, h⟩ := Action.exec_bind_eq_ok h
  obtain ⟨hdecode, -⟩ := Action.exec_ofExcept_eq_ok hdecode
  obtain ⟨⟨⟩, t₂, -, h⟩ := Action.exec_bind_eq_ok h
  obtain ⟨⟨⟩, t₃, -, h⟩ := Action.exec_bind_eq_ok h
  obtain ⟨⟨⟩, t₄, hheader, h⟩ := Action.exec_bind_eq_ok h
  obtain ⟨regions, t₅, hlayout, h⟩ := Action.exec_bind_eq_ok h
  obtain ⟨hlayout, -⟩ := Action.exec_ofExcept_eq_ok hlayout
  refine ⟨header, regions, hdecode, hlayout, slices_of_exec h, ?_⟩
  unfold writeHeader at hheader
  cases htext : header.toDocument.write with
  | none =>
    rw [htext] at hheader
    cases hheader
  | some text => rfl

/-- What `unpack` leaves behind where `before` is the store with the directory made: the document of
the header and the data of the regions. All other files are as they were. -/
structure Unpacked (before after : Store) (directory : String) (h : ImageHeader)
    (regions : List Region) (image : Bytes) : Prop where
  document : Describes after directory h
  files : ∀ r ∈ regions,
    after.read (regionFile directory r.kind) = .ok (regionData image regions r.kind)
  kept : ∀ name q, before.Finds name q → ¬ before.Finds (headerFile directory) q →
    (∀ r ∈ regions, ¬ before.Finds (regionFile directory r.kind) q) →
    after.read name = before.read name

/-- An image is unpacked if the directory can be made and its files can be written there. -/
theorem exec_unpack_isOk {h : ImageHeader} {regions : List Region} {made : Store} (v : HeaderView)
    (hread : s.store.read input = .ok image) (hu : ImageHeader.Unpackable h regions image)
    (hmade : s.store.makeDirectories directory = (.ok (), made))
    (hheader : ∃ store, made.write (headerFile directory) [] = .ok store)
    (hregions : ∀ r ∈ regions, ∃ store, made.write (regionFile directory r.kind) [] = .ok store) :
    ∃ s', (unpack v input directory : Action (StateM Session) Unit).exec s = (.ok (), s') := by
  obtain ⟨text, htext⟩ := Option.isSome_iff_exists.1 hu.written
  obtain ⟨printed, hshow⟩ := exec_show v h s
  obtain ⟨_, hheader⟩ := hheader
  obtain ⟨withHeader, hwrite⟩ := write_isOk hheader (Utf8.encode text)
  obtain ⟨s', hexec⟩ := @exec_writeRegions_isOk ⟨withHeader, printed⟩ directory image regions
    hu.slices fun r hr => by
      obtain ⟨_, hr⟩ := hregions r hr
      exact write_isOk_of_write hwrite hr
  refine ⟨s', ?_⟩
  unfold unpack
  rw [Action.exec_bind_ok (exec_readFile _ hread),
    Action.exec_bind_ok (Action.exec_ofExcept_ok hu.decodes s), Action.exec_bind_ok hshow,
    Action.exec_bind_ok (exec_makeDirectories (s := ⟨s.store, printed⟩) hmade),
    Action.exec_bind_ok ((exec_writeHeader_eq htext _ ⟨made, printed⟩).trans
      (exec_writeFile _ hwrite)),
    Action.exec_bind_ok (Action.exec_ofExcept_ok hu.layout _)]
  exact hexec

/-- An image that was unpacked left its parts, and nothing else changed. -/
theorem unpacked_of_exec {h : ImageHeader} {regions : List Region} {v : HeaderView}
    (hread : s.store.read input = .ok image) (hu : ImageHeader.Unpackable h regions image)
    (hexec : (unpack v input directory : Action (StateM Session) Unit).exec s = (.ok (), s')) :
    ∃ made p, s.store.makeDirectories directory = (.ok (), made) ∧ made.Leads directory p ∧
      Unpacked made s'.store directory h regions image := by
  obtain ⟨text, htext⟩ := Option.isSome_iff_exists.1 hu.written
  obtain ⟨printed, hshow⟩ := exec_show v h s
  unfold unpack at hexec
  rw [Action.exec_bind_ok (exec_readFile _ hread),
    Action.exec_bind_ok (Action.exec_ofExcept_ok hu.decodes s), Action.exec_bind_ok hshow] at hexec
  obtain ⟨⟨⟩, t, hmake, hrest⟩ := Action.exec_bind_eq_ok hexec
  obtain ⟨made, hmade, rfl⟩ := exec_makeDirectories_eq_ok hmake
  obtain ⟨⟨⟩, t', hheader, hregions⟩ := Action.exec_bind_eq_ok hrest
  rw [exec_writeHeader_eq htext] at hheader
  obtain ⟨withHeader, hwrite, rfl⟩ := exec_writeFile_eq_ok hheader
  rw [Action.exec_bind_ok (Action.exec_ofExcept_ok hu.layout _)] at hregions
  obtain ⟨p, hleads⟩ := leads_of_makeDirectories hmade
  obtain ⟨q, hfinds, -⟩ := write_eq_ok_iff.1 hwrite
  have hleads' := hleads.of_write hwrite
  have hnodup := ImageHeader.nodup_layout hu.layout (ImageHeader.ne_zero_of_layout hu.layout)
  refine ⟨made, p, hmade, hleads, ⟨Utf8.encode text, text, ?_, Utf8.decode?_encode text,
    ImageHeader.ofDocument?_write htext⟩, ?_, ?_⟩
  · have hfinds' : withHeader.Finds (headerFile directory) q := (finds_of_write hwrite).2 hfinds
    rw [read_of_exec_writeRegions hregions hfinds' fun r _ => hleads'.not_finds plainName_header
      (plainName_region _) (region_ne_header _).symm hfinds']
    exact read_of_write hwrite
  · intro r hr
    obtain ⟨data, hslice, hdata⟩ := regions_of_exec_writeRegions hleads' hnodup hregions r hr
    rw [hdata, regionData_of_slice hnodup hr hslice]
  · intro name q' hname hnotHeader hnotRegion
    rw [read_of_exec_writeRegions hregions ((finds_of_write hwrite).2 hname) fun r hr hfound =>
      hnotRegion r hr ((finds_of_write hwrite).1 hfound)]
    refine Store.read_of_write_ne hwrite hfinds hname ?_
    rintro rfl
    exact hnotHeader hfinds

/-- The file of a region that the image does not have is as it was. -/
theorem Unpacked.read_of_not_mem {before after : Store} {h : ImageHeader} {regions : List Region}
    (hun : Unpacked before after directory h regions image) (hleads : before.Leads directory p)
    {kind : RegionKind} (hkind : kind ∉ regions.map (·.kind)) :
    after.read (regionFile directory kind) = before.read (regionFile directory kind) := by
  cases hname : checkName (regionFile directory kind) with
  | error fault => rw [read_of_checkName hname, read_of_checkName hname]
  | ok u =>
    have hfinds := hleads.finds (plainName_region kind) hname
    exact hun.kept _ _ hfinds
      (hleads.not_finds (plainName_region kind) plainName_header (region_ne_header kind) hfinds)
      fun r hr => hleads.not_finds (plainName_region kind) (plainName_region r.kind)
        (region_ne_of_not_mem hkind r hr) hfinds

/-- For an empty region the same is taken as before. -/
theorem Unpacked.taken_iff {before after : Store} {h : ImageHeader} {regions : List Region}
    (hun : Unpacked before after directory h regions image) (hleads : before.Leads directory p)
    {kind : RegionKind} (hkind : kind ∉ regions.map (·.kind)) {data : Bytes} :
    Taken after (regionFile directory kind) data ↔
      Taken before (regionFile directory kind) data := by
  unfold Taken
  rw [hun.read_of_not_mem hleads hkind]

/-- An unpacked image can be packed, with what the files of its missing regions hold. -/
theorem Unpacked.packInput {before after : Store} {h : ImageHeader} {regions : List Region}
    (hun : Unpacked before after directory h regions image) (hleads : before.Leads directory p)
    {data : RegionKind → Bytes}
    (hregions : ∀ r ∈ regions, data r.kind = regionData image regions r.kind)
    (hmissing : ∀ kind ∈ h.regionKinds, kind ∉ regions.map (·.kind) →
      Taken before (regionFile directory kind) (data kind)) :
    PackInput after directory h data := by
  refine ⟨hun.document, fun kind hkind => ?_⟩
  by_cases hmem : kind ∈ regions.map (·.kind)
  · obtain ⟨r, hr, rfl⟩ := List.mem_map.1 hmem
    rw [hregions r hr]
    exact .inl (hun.files r hr)
  · exact (hun.taken_iff hleads hmem).2 (hmissing kind hkind hmem)

/-- Where nothing is in the way, an image that can be taken apart is, and every file that was there
before is as it was. -/
theorem exec_unpack_new {h : ImageHeader} {regions : List Region} {made : Store} (v : HeaderView)
    (hread : s.store.read input = .ok image) (hu : ImageHeader.Unpackable h regions image)
    (hmade : s.store.makeDirectories directory = (.ok (), made))
    (hheader : made.read (headerFile directory) = .error (.opening .notFound))
    (hregions : ∀ r ∈ regions,
      made.read (regionFile directory r.kind) = .error (.opening .notFound)) :
    ∃ s', (unpack v input directory : Action (StateM Session) Unit).exec s = (.ok (), s') ∧
      ∀ name bytes, s.store.read name = .ok bytes → s'.store.read name = .ok bytes := by
  obtain ⟨p, hleads⟩ := leads_of_makeDirectories hmade
  obtain ⟨s', hexec⟩ := exec_unpack_isOk v hread hu hmade
    (hleads.write_of_notFound plainName_header hheader [])
    fun r hr => hleads.write_of_notFound (plainName_region r.kind) (hregions r hr) []
  obtain ⟨made', -, hmade', -, hun⟩ := unpacked_of_exec hread hu hexec
  obtain rfl : made' = made := (Prod.mk.inj (hmade'.symm.trans hmade)).2
  refine ⟨s', hexec, fun name bytes hbytes => ?_⟩
  have hkept := read_of_makeDirectories hmade hbytes
  obtain ⟨q, hfinds, hnode⟩ := finds_of_read hkept
  rw [hun.kept name q hfinds (not_finds_of_notFound hheader hnode)
    fun r hr => not_finds_of_notFound (hregions r hr) hnode, hkept]

/-- An image that can be taken apart is. `pack` finds its header and its data in the directory, and
every file that was there before is as it was. -/
theorem exec_unpack {h : ImageHeader} {regions : List Region} (v : HeaderView)
    (hread : s.store.read input = .ok image) (hfresh : FreshDirectory s.store directory)
    (hu : ImageHeader.Unpackable h regions image) :
    ∃ s', (unpack v input directory : Action (StateM Session) Unit).exec s = (.ok (), s') ∧
      PackInput s'.store directory h (regionData image regions) ∧
      ∀ name bytes, s.store.read name = .ok bytes → s'.store.read name = .ok bytes := by
  obtain ⟨s', hexec, hkept⟩ := exec_unpack_new v hread hu (Prod.ext hfresh.made rfl)
    hfresh.noHeader fun r _ => hfresh.noRegion r.kind
  obtain ⟨made, p, hmade, hleads, hun⟩ := unpacked_of_exec hread hu hexec
  have hnoregion := hfresh.noRegion
  rw [hmade] at hnoregion
  exact ⟨s', hexec, hun.packInput hleads (fun r _ => rfl) fun kind _ hkind =>
    .inr ⟨hnoregion kind, regionData_of_not_mem hkind⟩, hkept⟩

end

/-! ## Putting together again -/

section
variable {s s₁ : Session} {input directory output : String} {image : Bytes} {h : ImageHeader}
  {regions : List Region}

/-- The parts of an image update its header to the refreshed one. -/
theorem updated_regionData (hu : ImageHeader.Unpackable h regions image) :
    updated h (regionData image regions) = .ok (h.refreshed regions) := by
  have hresized := h.resizeRegions_eq fun kind =>
    UInt32.ofNat (regionData image regions kind).length
  have hsized := h.sized_of_sizes (fun kind => UInt32.ofNat (regionData image regions kind).length)
    fun p hp => by rw [hu.length_regionData p hp, UInt32.ofNat_toNat]
  rw [updated, hresized, hsized]
  exact ImageHeader.withOffsets_eq (h.layout_recounted.trans hu.layout)

/-- Packing the parts of an image makes the image of the refreshed header. -/
theorem exec_pack_regionData (v : HeaderView) (hu : ImageHeader.Unpackable h regions image)
    (hin : PackInput s.store directory h (regionData image regions))
    (hroom : ∃ store, s.store.write output [] = .ok store) :
    ∃ s', (pack v output directory : Action (StateM Session) Unit).exec s = (.ok (), s') ∧
      s'.store.read output
        = .ok ((h.refreshed regions).image (regionData image regions) regions) := by
  obtain ⟨h', regions', s', hupdated, -, hpacked, hexec, hwrite⟩ :=
    exec_pack_isOk v hin (ImageHeader.ne_zero_of_layout hu.layout)
      (fun _ hkind => hu.length_regionData_lt hkind) hroom
  obtain rfl : h' = h.refreshed regions :=
    Except.ok.inj (hupdated.symm.trans (updated_regionData hu))
  obtain rfl : regions' = regions :=
    Except.ok.inj (hpacked.layout.symm.trans hu.again.layout)
  exact ⟨s', hexec, read_of_write hwrite⟩

/-- **Unpacking and packing keep an image.** The directory of an image that was unpacked can be
packed. The result has the header of the image, but for the numbers of the entries of a ramdisk
table and the offset of a recovery partition, which is where the layout has it. It has the same
regions and the same bytes in them; and it can be unpacked and packed again, which reproduces it. -/
theorem pack_of_unpack (v w : HeaderView) (hread : s.store.read input = .ok image)
    (hfresh : FreshDirectory s.store directory)
    (hunpack : (unpack v input directory : Action (StateM Session) Unit).exec s = (.ok (), s₁))
    (hroom : ∃ store, s₁.store.write output [] = .ok store) :
    ∃ h regions image' s₂,
      ImageHeader.decode image = .ok h ∧ h.layout = .ok regions ∧
      (pack w output directory : Action (StateM Session) Unit).exec s₁ = (.ok (), s₂) ∧
      s₂.store.read output = .ok image' ∧
      ImageHeader.decode image' = .ok (h.refreshed regions) ∧
      (∀ offset, (h.refreshed regions).recoveryDtboOffset? = some offset →
        (∀ r ∈ regions, r.kind = .recoveryDtbo → offset.toNat = r.offset) ∧
        ((∀ r ∈ regions, r.kind ≠ .recoveryDtbo) → offset = 0)) ∧
      (h.refreshed regions).layout = .ok regions ∧
      (∀ r ∈ regions, ∃ data, r.slice image = .ok data ∧ r.slice image' = .ok data) ∧
      ∀ (v' w' : HeaderView) (t : Session) (input' directory' output' : String),
        t.store.read input' = .ok image' → FreshDirectory t.store directory' →
        ∃ t₁, (unpack v' input' directory' : Action (StateM Session) Unit).exec t = (.ok (), t₁) ∧
          ((∃ store, t₁.store.write output' [] = .ok store) →
            ∃ t₂, (pack w' output' directory' : Action (StateM Session) Unit).exec t₁
                = (.ok (), t₂) ∧
              t₂.store.read output' = .ok image') := by
  obtain ⟨h, regions, hu⟩ := unpackable_of_exec hread hunpack
  obtain ⟨s', hexec, hin, -⟩ := exec_unpack v hread hfresh hu
  obtain rfl : s' = s₁ := (Prod.mk.inj (hexec.symm.trans hunpack)).2
  obtain ⟨s₂, hpack, hresult⟩ := exec_pack_regionData w hu hin hroom
  have hpage := ImageHeader.ne_zero_of_layout hu.layout
  refine ⟨h, regions, _, s₂, hu.decodes, hu.layout, hpack, hresult, hu.again.decodes,
    fun _ => ImageHeader.recoveryDtboOffset?_of_layout hu.layout hpage, hu.again.layout,
    fun r hr => ⟨_, hu.slice_eq hr, hu.packed.slices r hr⟩, ?_⟩
  intro v' w' t input' directory' output' hread' hfresh'
  obtain ⟨t₁, hunpack', hin', -⟩ := exec_unpack v' hread' hfresh' hu.again
  refine ⟨t₁, hunpack', fun hroom' => ?_⟩
  obtain ⟨t₂, hpack', hresult'⟩ := exec_pack_regionData w' hu.again hin' hroom'
  rw [hu.image_again] at hresult'
  exact ⟨t₂, hpack', hresult'⟩

end

/-- A version 1 header that states a wrong offset for its recovery partition. -/
def staleHeader : ImageHeader :=
  .boot (.v1 ⟨3, 0, 0, 0, 0, 0, 0, 2048, 0, .replicate 16 0, .replicate 512 0, .replicate 8 0,
    .replicate 1024 0⟩ ⟨2, 7, 0⟩)

def staleRegions : List Region := [⟨.kernel, 2048, 3, 1⟩, ⟨.recoveryDtbo, 4096, 2, 1⟩]

def staleData : RegionKind → Bytes
  | .kernel => [1, 2, 3]
  | .recoveryDtbo => [4, 5]
  | _ => []

def staleImage : Bytes := staleHeader.image staleData staleRegions

/-- The current directory holds the image and an empty directory. -/
def staleSession : Session where
  store := ⟨["home"], [(["home"], .directory), (["home", "boot.img"], .file staleImage),
    (["home", "out"], .directory)]⟩
  output := ""

theorem unpackable_staleImage : ImageHeader.Unpackable staleHeader staleRegions staleImage := by
  have hlayout : staleHeader.layout = .ok staleRegions := rfl
  have hdata : ∀ p ∈ staleHeader.regionSizes, (staleData p.1).length = p.2.toNat := by decide
  have hpacked := ImageHeader.packed_image (by decide) hlayout hdata
  exact ⟨hpacked.decodes, hlayout, fun r hr => ⟨_, hpacked.slices r hr⟩,
    staleHeader.isSome_write_toDocument.2 (List.forall_mem_singleton.2 (by decide))⟩

/-- The image that is packed states the right offset. -/
theorem pack_of_unpack_stale :
    FreshDirectory staleSession.store "out" ∧
    ∃ s₁ image' h' s₂,
      (unpack ⟨true, false⟩ "boot.img" "out" : Action (StateM Session) Unit).exec staleSession
        = (.ok (), s₁) ∧
      (pack ⟨true, false⟩ "boot.img" "out" : Action (StateM Session) Unit).exec s₁ = (.ok (), s₂) ∧
      s₂.store.read "boot.img" = .ok image' ∧ ImageHeader.decode image' = .ok h' ∧
      h'.layout = .ok staleRegions ∧ h'.recoveryDtboOffset? = some 4096 := by
  have hread : staleSession.store.read "boot.img" = .ok staleImage := rfl
  have hfresh : FreshDirectory staleSession.store "out" := by
    refine freshDirectory_of_empty (p := ["home", "out"]) ⟨rfl, rfl⟩ (fun a => rfl) rfl rfl ?_
    intro kind
    cases kind <;> rfl
  obtain ⟨s₁, hunpack, -, hkept⟩ := exec_unpack ⟨true, false⟩ hread hfresh unpackable_staleImage
  obtain ⟨h, regions, image', s₂, hdecode, hlayout, hpack, hresult, hdecode', hoffset, hlayout',
    -⟩ := pack_of_unpack ⟨true, false⟩ ⟨true, false⟩ hread hfresh hunpack
      (write_of_read (hkept _ _ hread) [])
  obtain rfl : h = staleHeader :=
    Except.ok.inj (hdecode.symm.trans unpackable_staleImage.decodes)
  obtain rfl : regions = staleRegions :=
    Except.ok.inj (hlayout.symm.trans unpackable_staleImage.layout)
  refine ⟨hfresh, s₁, image', _, s₂, hunpack, hpack, hresult, hdecode', hlayout', ?_⟩
  obtain ⟨hplace, -⟩ := hoffset _ rfl
  have hstated := hplace ⟨.recoveryDtbo, 4096, 2, 1⟩ (by decide) rfl
  exact congrArg some (UInt64.toNat_inj.1 hstated)

end AndroidBoot.Cli
