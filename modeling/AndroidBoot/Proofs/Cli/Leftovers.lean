import AndroidBoot.Proofs.Cli.Unpacking

/-!
# What a directory held before

`unpack` writes the document of the header and the regions that are not empty, and removes nothing.
For an empty region `pack` takes what its file holds, so what an older image left there gets into
the new one. Of all that a directory held before, nothing else does.

    unpack ends well → a region has a file iff the image has it or the directory had one before
    unpack and pack end well in two directories, with the same image
      ↔ both held the same for every empty region before                  (same_image_iff_leftovers)
-/

namespace AndroidBoot.Cli

open Store

/-- What a directory holds for a region before an image is unpacked into it: what is taken from it
once it is made, if it is not too large to be packed. -/
structure Leftover (store : Store) (directory : String) (kind : RegionKind) (data : Bytes) :
    Prop where
  taken : Taken (store.makeDirectories directory).2 (regionFile directory kind) data
  small : data.length < UInt32.size

/-- The directory can be packed, and the output is this image then. -/
def PacksTo (s : Session) (v : HeaderView) (output directory : String) (image : Bytes) : Prop :=
  ∃ s', (pack v output directory : Action (StateM Session) Unit).exec s = (.ok (), s') ∧
    s'.store.read output = .ok image

/-! ## Packing two directories -/

section
variable {s t : Session} {v w : HeaderView} {output output' directory directory' : String}
  {h : ImageHeader} {data : RegionKind → Bytes} {image : Bytes}

/-- The same header and the same data make the same image. -/
theorem packsTo_of_packInput (v w : HeaderView) (hin : PackInput s.store directory h data)
    (hin' : PackInput t.store directory' h data) (hpage : h.pageSize ≠ 0)
    (hsmall : ∀ kind ∈ h.regionKinds, (data kind).length < UInt32.size)
    (hroom : ∃ store, s.store.write output [] = .ok store)
    (hroom' : ∃ store, t.store.write output' [] = .ok store) :
    ∃ image, PacksTo s v output directory image ∧ PacksTo t w output' directory' image := by
  obtain ⟨h₁, regions, s', hupdated, -, hpacked, hexec, hwrite⟩ :=
    exec_pack_isOk v hin hpage hsmall hroom
  obtain ⟨h₂, regions', t', hupdated', -, hpacked', hexec', hwrite'⟩ :=
    exec_pack_isOk w hin' hpage hsmall hroom'
  obtain rfl : h₁ = h₂ := Except.ok.inj (hupdated.symm.trans hupdated')
  obtain rfl : regions = regions' := Except.ok.inj (hpacked.layout.symm.trans hpacked'.layout)
  exact ⟨_, ⟨s', hexec, read_of_write hwrite⟩, ⟨t', hexec', read_of_write hwrite'⟩⟩

/-- What was packed is in the image. -/
theorem packed_of_packsTo (hdocument : Describes s.store directory h)
    (hpage : h.pageSize ≠ 0) (hpacks : PacksTo s v output directory image) :
    ∃ h' data regions, h'.regionKinds = h.regionKinds ∧
      ImageHeader.Packed h' data regions image ∧
      ∀ kind ∈ h.regionKinds, Taken s.store (regionFile directory kind) (data kind) ∧
        (data kind).length < UInt32.size := by
  obtain ⟨s', hexec, hread⟩ := hpacks
  obtain ⟨data, hin, hsmall⟩ := packInput_of_exec hdocument hexec
  obtain ⟨h', regions, printed, -, hkinds, hpacked, hexec'⟩ :=
    exec_pack_of_ne_zero (s := s) v output hin hpage hsmall
  cases hwrite : s.store.write output (h'.image data regions) with
  | error fault =>
    rw [hwrite] at hexec'
    cases hexec.symm.trans hexec'
  | ok store =>
    rw [hwrite] at hexec'
    cases hexec.symm.trans hexec'
    rw [read_of_write hwrite] at hread
    cases hread
    exact ⟨h', data, regions, hkinds, hpacked,
      fun kind hkind => ⟨hin.regions kind hkind, hsmall kind hkind⟩⟩

/-- The same image has the same data from both directories. -/
theorem taken_of_packsTo (hdocument : Describes s.store directory h)
    (hdocument' : Describes t.store directory' h)
    (hpage : h.pageSize ≠ 0) (hpacks : PacksTo s v output directory image)
    (hpacks' : PacksTo t w output' directory' image) :
    ∀ kind ∈ h.regionKinds, ∃ data, Taken s.store (regionFile directory kind) data ∧
      Taken t.store (regionFile directory' kind) data ∧ data.length < UInt32.size := by
  obtain ⟨h₁, data, regions, hkinds, hpacked, htaken⟩ := packed_of_packsTo hdocument hpage hpacks
  obtain ⟨h₂, data', regions', -, hpacked', htaken'⟩ := packed_of_packsTo hdocument' hpage hpacks'
  obtain ⟨-, hsame⟩ := hpacked.unique hpacked'
  intro kind hkind
  obtain ⟨htaken, hsmall⟩ := htaken kind hkind
  have hdata := hsame kind (hkinds ▸ hkind)
  exact ⟨data kind, htaken, hdata ▸ (htaken' kind hkind).1, hsmall⟩

end

/-! ## Files of regions -/

section
variable {before after : Store} {directory : String} {p : Path} {h : ImageHeader}
  {regions : List Region} {image data : Bytes} {kind : RegionKind}

/-- A file of a region is one that was written, or one from before. -/
theorem Unpacked.exists_read_iff (hun : Unpacked before after directory h regions image)
    (hleads : before.Leads directory p) (kind : RegionKind) :
    (∃ data, after.read (regionFile directory kind) = .ok data) ↔
      kind ∈ regions.map (·.kind) ∨ ∃ data, before.read (regionFile directory kind) = .ok data := by
  by_cases hkind : kind ∈ regions.map (·.kind)
  · obtain ⟨r, hr, rfl⟩ := List.mem_map.1 hkind
    exact ⟨fun _ => .inl hkind, fun _ => ⟨_, hun.files r hr⟩⟩
  · rw [hun.read_of_not_mem hleads hkind]
    exact ⟨.inr, fun hold => hold.resolve_left hkind⟩

/-- With what was held before for the empty regions, the directory is one to pack. -/
theorem Unpacked.packInput_of_taken (hun : Unpacked before after directory h regions image)
    (hleads : before.Leads directory p) {data : RegionKind → Bytes}
    (htaken : ∀ kind ∈ h.regionKinds, kind ∉ regions.map (·.kind) →
      Taken before (regionFile directory kind) (data kind)) :
    PackInput after directory h fun kind =>
      if kind ∈ regions.map (·.kind) then regionData image regions kind else data kind := by
  refine hun.packInput hleads (fun r hr => ?_) fun kind hkind hmem => ?_
  · rw [if_pos (List.mem_map.2 ⟨r, hr, rfl⟩)]
  · rw [if_neg hmem]
    exact htaken kind hkind hmem

end

/-! ## Unpacking into two directories -/

section
variable {s t s₁ t₁ : Session} {input input' output output' directory directory' : String}
  {image : Bytes}

/-- **What a directory held before.** After an image was unpacked, a region has a file if the image
has data for it or there was a file before. Two directories that the same image was unpacked into
are packed to the same image exactly if they held the same for each region that is empty in it. -/
theorem same_image_iff_leftovers (v v' w w' : HeaderView)
    (hread : s.store.read input = .ok image) (hread' : t.store.read input' = .ok image)
    (hunpack : (unpack v input directory : Action (StateM Session) Unit).exec s = (.ok (), s₁))
    (hunpack' : (unpack v' input' directory' : Action (StateM Session) Unit).exec t
      = (.ok (), t₁))
    (hroom : ∃ store, s₁.store.write output [] = .ok store)
    (hroom' : ∃ store, t₁.store.write output' [] = .ok store) :
    ∃ h regions, ImageHeader.decode image = .ok h ∧ h.layout = .ok regions ∧
      (∀ kind, (∃ data, s₁.store.read (regionFile directory kind) = .ok data) ↔
        kind ∈ regions.map (·.kind) ∨
          ∃ data, (s.store.makeDirectories directory).2.read (regionFile directory kind)
            = .ok data) ∧
      ((∃ image', PacksTo s₁ w output directory image' ∧ PacksTo t₁ w' output' directory' image') ↔
        ∀ kind ∈ h.regionKinds, kind ∉ regions.map (·.kind) →
          ∃ data, Leftover s.store directory kind data ∧
            Leftover t.store directory' kind data) := by
  obtain ⟨h, regions, hu⟩ := unpackable_of_exec hread hunpack
  obtain ⟨made, p, hmade, hleads, hun⟩ := unpacked_of_exec hread hu hunpack
  obtain ⟨made', p', hmade', hleads', hun'⟩ := unpacked_of_exec hread' hu hunpack'
  have hpage := ImageHeader.ne_zero_of_layout hu.layout
  rw [hmade]
  refine ⟨h, regions, hu.decodes, hu.layout, hun.exists_read_iff hleads, ?_, ?_⟩
  · rintro ⟨image', hpacks, hpacks'⟩ kind hkind hmem
    obtain ⟨data, htaken, htaken', hsmall⟩ :=
      taken_of_packsTo hun.document hun'.document hpage hpacks hpacks' kind hkind
    refine ⟨data, ⟨?_, hsmall⟩, ⟨?_, hsmall⟩⟩
    · rw [hmade]
      exact (hun.taken_iff hleads hmem).1 htaken
    · rw [hmade']
      exact (hun'.taken_iff hleads' hmem).1 htaken'
  · intro hsame
    choose! data hleft hleft' using hsame
    have hin := hun.packInput_of_taken hleads fun kind hkind hmem => by
      simpa only [hmade] using (hleft kind hkind hmem).taken
    have hin' := hun'.packInput_of_taken hleads' fun kind hkind hmem => by
      simpa only [hmade'] using (hleft' kind hkind hmem).taken
    refine packsTo_of_packInput w w' hin hin' hpage (fun kind hkind => ?_) hroom hroom'
    split
    · exact hu.length_regionData_lt hkind
    · next hmem => exact (hleft kind hkind hmem).small

end

/-- The directory has a file for a second stage, which the image does not have. -/
def leftoverSession (old : Bytes) : Session where
  store := ⟨["home"], [(["home"], .directory), (["home", "boot.img"], .file staleImage),
    (["home", "out"], .directory), (["home", "out", "second.img"], .file old)]⟩
  output := ""

/-- The image can be unpacked if its files are new, and packed over itself. -/
theorem unpack_staleImage {s : Session} (hread : s.store.read "boot.img" = .ok staleImage)
    (hleads : s.store.Leads "out" ["home", "out"])
    (hheader : s.store.read (headerFile "out") = .error (.opening .notFound))
    (hkernel : s.store.read (regionFile "out" .kernel) = .error (.opening .notFound))
    (hdtbo : s.store.read (regionFile "out" .recoveryDtbo) = .error (.opening .notFound)) :
    ∃ s₁, (unpack ⟨true, false⟩ "boot.img" "out" : Action (StateM Session) Unit).exec s
        = (.ok (), s₁) ∧
      (∃ store, s₁.store.write "boot.img" [] = .ok store) ∧
      Unpacked s.store s₁.store "out" staleHeader staleRegions staleImage := by
  have hmade := hleads.makeDirectories rfl
  obtain ⟨s₁, hunpack, hkept⟩ := exec_unpack_new ⟨true, false⟩ hread unpackable_staleImage hmade
    hheader (List.forall_mem_cons.2 ⟨hkernel, List.forall_mem_singleton.2 hdtbo⟩)
  obtain ⟨made, p, hmade', -, hun⟩ := unpacked_of_exec hread unpackable_staleImage hunpack
  obtain rfl : made = s.store := (Prod.mk.inj (hmade'.symm.trans hmade)).2
  exact ⟨s₁, hunpack, write_of_read (hkept _ _ hread) [], hun⟩

theorem same_image_iff_leftovers_empty : ∃ s₁ t₁ image',
    (unpack ⟨true, false⟩ "boot.img" "out" : Action (StateM Session) Unit).exec staleSession
      = (.ok (), s₁) ∧
    (unpack ⟨true, false⟩ "boot.img" "out" : Action (StateM Session) Unit).exec (leftoverSession [])
      = (.ok (), t₁) ∧
    PacksTo s₁ ⟨true, false⟩ "boot.img" "out" image' ∧
    PacksTo t₁ ⟨true, false⟩ "boot.img" "out" image' := by
  have hleads : staleSession.store.Leads "out" ["home", "out"] := ⟨rfl, rfl⟩
  have hleads' : (leftoverSession []).store.Leads "out" ["home", "out"] := ⟨rfl, rfl⟩
  obtain ⟨s₁, hunpack, hroom, -⟩ := unpack_staleImage (s := staleSession) rfl hleads rfl rfl rfl
  obtain ⟨t₁, hunpack', hroom', -⟩ :=
    unpack_staleImage (s := leftoverSession []) rfl hleads' rfl rfl rfl
  have hread : staleSession.store.read "boot.img" = .ok staleImage := rfl
  obtain ⟨h, regions, -, -, -, hsame⟩ := same_image_iff_leftovers ⟨true, false⟩ ⟨true, false⟩
    ⟨true, false⟩ ⟨true, false⟩ hread rfl hunpack hunpack' hroom hroom'
  -- an empty file and a missing one are the same
  obtain ⟨image', hpacks, hpacks'⟩ := hsame.2 fun kind hkind hmem => by
    refine ⟨[], ⟨?_, by decide⟩, ⟨?_, by decide⟩⟩
    · rw [hleads.makeDirectories rfl]
      cases kind <;> exact .inr ⟨rfl, rfl⟩
    · rw [hleads'.makeDirectories rfl]
      cases kind <;> first | exact .inr ⟨rfl, rfl⟩ | exact .inl rfl
  exact ⟨s₁, t₁, image', hunpack, hunpack', hpacks, hpacks'⟩

/-- The second stage of an older image gets into the new one. -/
theorem not_same_image : ¬ ∀ (v w : HeaderView) (s t s₁ t₁ : Session)
    (input output directory : String) (image : Bytes),
    s.store.read input = .ok image → t.store.read input = .ok image →
    (unpack v input directory : Action (StateM Session) Unit).exec s = (.ok (), s₁) →
    (unpack v input directory : Action (StateM Session) Unit).exec t = (.ok (), t₁) →
    (∃ store, s₁.store.write output [] = .ok store) →
    (∃ store, t₁.store.write output [] = .ok store) →
    ∃ image', PacksTo s₁ w output directory image' ∧ PacksTo t₁ w output directory image' := by
  intro hall
  have hleads : staleSession.store.Leads "out" ["home", "out"] := ⟨rfl, rfl⟩
  have hleads' : (leftoverSession [9]).store.Leads "out" ["home", "out"] := ⟨rfl, rfl⟩
  obtain ⟨s₁, hunpack, hroom, hun⟩ := unpack_staleImage (s := staleSession) rfl hleads rfl rfl rfl
  obtain ⟨t₁, hunpack', hroom', hun'⟩ :=
    unpack_staleImage (s := leftoverSession [9]) rfl hleads' rfl rfl rfl
  obtain ⟨image', hpacks, hpacks'⟩ := hall ⟨true, false⟩ ⟨true, false⟩ staleSession
    (leftoverSession [9]) s₁ t₁ "boot.img" "boot.img" "out" staleImage rfl rfl hunpack hunpack'
    hroom hroom'
  obtain ⟨data, htaken, htaken', -⟩ := taken_of_packsTo hun.document hun'.document (by decide)
    hpacks hpacks' .second (by decide)
  have hmem : RegionKind.second ∉ staleRegions.map (·.kind) := by decide
  have hnothing : data = [] := ((hun.taken_iff hleads hmem).1 htaken).unique (.inr ⟨rfl, rfl⟩)
  have hold : data = [9] := ((hun'.taken_iff hleads' hmem).1 htaken').unique (.inl rfl)
  cases hnothing.symm.trans hold

end AndroidBoot.Cli
