import AndroidBoot.Proofs.Image.Inverses

/-!
# Which headers are accepted

A decoder looks at the front of the data first and then reads the record of the version that it
found there. What it asks for can be said of the bytes alone: a front that is long enough, the
magic, a version that has a layout, and all bytes of this layout. `refusal?` is the error for the
first of these that is missing, and there is no other. A header that is cut short anywhere lacks
bytes and nothing else.

    (∃ h, decode data = .ok h) ↔ format.Accepts data
    decode data = .error e     ↔ format.refusal? data = some e
    n < h.encode.length → decode (h.encode.take n) = .error (.read _ .unexpectedEof)
                                                                        (decoders_exact)
-/

namespace AndroidBoot

/-- What the headers of one kind have in common. -/
structure HeaderFormat where
  /-- The kind as a part of an image. -/
  name : String
  magic : Vector UInt8 8
  versionOffset : Nat
  /-- The versions that have a layout, each with the size of its header. -/
  sizes : List (Nat × Nat)

namespace HeaderFormat

def boot : HeaderFormat where
  name := "Boot"
  magic := BootHeader.magic
  versionOffset := 40
  sizes := [(0, 1632), (1, 1648), (2, 1660), (3, 1580), (4, 1584)]

def vendor : HeaderFormat where
  name := "Vendor"
  magic := VendorHeader.magic
  versionOffset := 8
  sizes := [(3, 2112), (4, 2128)]

variable (g : HeaderFormat)

/-- The size of the front, which ends with the version. -/
def frontSize : Nat := g.versionOffset + 4

/-- The version that `data` states. -/
def versionIn (data : Bytes) : UInt32 := Bytes.toWordLE ((data.drop g.versionOffset).take 4)

/-- The name of a header of some version as a part of an image. -/
def headerPart (version : Nat) : String := g.name ++ "::V" ++ toString version ++ "::header"

/-- `data` has a header of this kind at its front. -/
structure Accepts (data : Bytes) : Prop where
  front : g.frontSize ≤ data.length
  magic : Bytes.field 8 data = g.magic
  whole : ∃ size, g.sizes.lookup (g.versionIn data).toNat = some size ∧ size ≤ data.length

/-- Why `data` with this magic and this version is refused, if the front of it is there. -/
def refusalBehind? (magic : Vector UInt8 8) (version : UInt32) (data : Bytes) : Option ImageError :=
  if magic ≠ g.magic then some (.unknownMagic magic)
  else match g.sizes.lookup version.toNat with
    | none => some (.unknownHeaderVersion version)
    | some size =>
      if data.length < size then some (.read (g.headerPart version.toNat) .unexpectedEof) else none

/-- Why `data` is refused: the first thing that is wrong with it. -/
def refusal? (data : Bytes) : Option ImageError :=
  if data.length < g.frontSize then some (.read (g.name ++ "::prefix") .unexpectedEof)
  else g.refusalBehind? (Bytes.field 8 data) (g.versionIn data) data

/-- A decoder accepts what has a header of this kind, and says why it refuses anything else. -/
structure Decides {α : Type} (decode : Bytes → Except ImageError α) : Prop where
  isOk_iff : ∀ data, (∃ h, decode data = .ok h) ↔ g.Accepts data
  eq_error_iff : ∀ data e, decode data = .error e ↔ g.refusal? data = some e

/-- `bs` states this version, and is as long as a header of it. -/
structure States (bs : Bytes) (version : Nat) : Prop where
  magic : Bytes.field 8 bs = g.magic
  version_eq : (g.versionIn bs).toNat = version
  size_eq : g.sizes.lookup version = some bs.length

/-- `r` is this refusal, or a success if there is none. -/
def Answers {α : Type} (r : Except ImageError α) : Option ImageError → Prop
  | some e => r = .error e
  | none => ∃ h, r = .ok h

/-! ## Fronts -/

variable {g}

/-- Where the magic and the version stand, whatever lies between them and behind. -/
theorem front_eq {data middle tail : Bytes} {magic : Vector UInt8 8} {version : UInt32}
    (hdata : data = magic.toList ++ (middle ++ (Bytes.ofWordLE version ++ tail)))
    (hmiddle : 8 + middle.length = g.versionOffset) :
    Bytes.field 8 data = magic ∧ g.versionIn data = version := by
  constructor
  · apply Bytes.field_of_toList
    rw [hdata, List.take_left' (by simp)]
  · unfold versionIn
    rw [hdata, ← List.append_assoc, List.drop_left' (by simp [hmiddle]),
      List.take_left' (Bytes.length_ofWordLE version), Bytes.toWordLE_ofWordLE]

/-! ## Refusals -/

theorem refusal?_eq_none_iff {data : Bytes} : g.refusal? data = none ↔ g.Accepts data := by
  unfold refusal? refusalBehind?
  constructor
  · intro h
    split at h
    · cases h
    next hfront =>
      split at h
      · cases h
      next hmagic =>
        split at h
        · cases h
        next size hsize =>
          split at h
          · cases h
          next hwhole =>
            exact ⟨Nat.le_of_not_lt hfront, Classical.not_not.1 hmagic, size, hsize,
              Nat.le_of_not_lt hwhole⟩
  · rintro ⟨hfront, hmagic, size, hsize, hwhole⟩
    rw [if_neg (Nat.not_lt.2 hfront), if_neg (not_not_intro hmagic), hsize]
    exact if_neg (Nat.not_lt.2 hwhole)

theorem decides_of_answers {α : Type} {decode : Bytes → Except ImageError α}
    (h : ∀ data, Answers (decode data) (g.refusal? data)) : g.Decides decode := by
  constructor
  · intro data
    have hanswer := h data
    rw [← refusal?_eq_none_iff]
    cases hrefusal : g.refusal? data with
    | none =>
      rw [hrefusal] at hanswer
      exact iff_of_true hanswer rfl
    | some e =>
      rw [hrefusal] at hanswer
      refine iff_of_false ?_ nofun
      rintro ⟨a, ha⟩
      cases hanswer.symm.trans ha
  · intro data e
    have hanswer := h data
    cases hrefusal : g.refusal? data with
    | none =>
      rw [hrefusal] at hanswer
      obtain ⟨a, ha⟩ := hanswer
      refine iff_of_false ?_ nofun
      intro he
      cases ha.symm.trans he
    | some e' =>
      rw [hrefusal] at hanswer
      have hdecode : decode data = .error e' := hanswer
      rw [hdecode, Except.error.injEq, Option.some_inj]

/-- A check that comes first answers for itself, and leaves the rest to what comes behind it. -/
theorem answers_ite {α : Type} {c : Prop} [Decidable c] {e : ImageError} {r : Except ImageError α}
    {refusal : Option ImageError} (h : ¬ c → Answers r refusal) :
    Answers (if c then .error e else r) (if c then some e else refusal) := by
  by_cases hc : c
  · rw [if_pos hc, if_pos hc]
    rfl
  · rw [if_neg hc, if_neg hc]
    exact h hc

/-- A decoder that reads the front first has to say what is wrong behind it. -/
theorem decides_of_front {α : Type} {decode : Bytes → Except ImageError α}
    (hshort : ∀ data, data.length < g.frontSize →
      decode data = .error (.read (g.name ++ "::prefix") .unexpectedEof))
    (hlong : ∀ data, g.frontSize ≤ data.length →
      ∃ (magic : Vector UInt8 8) (middle : Bytes) (version : UInt32) (tail : Bytes),
        data = magic.toList ++ (middle ++ (Bytes.ofWordLE version ++ tail)) ∧
        8 + middle.length = g.versionOffset ∧
        Answers (decode data) (g.refusalBehind? magic version data)) :
    g.Decides decode := by
  apply decides_of_answers
  intro data
  unfold refusal?
  by_cases hfront : data.length < g.frontSize
  · rw [if_pos hfront]
    exact hshort data hfront
  · obtain ⟨magic, middle, version, tail, hdata, hmiddle, hanswers⟩ :=
      hlong data (Nat.le_of_not_lt hfront)
    obtain ⟨hmagic, hversion⟩ := front_eq hdata hmiddle
    rw [if_neg hfront, hmagic, hversion]
    exact hanswers

/-- A header that is cut short is refused for its length, in front of the version or behind it. -/
theorem Decides.decode_take {α : Type} {decode : Bytes → Except ImageError α}
    (hdecides : g.Decides decode) {bs : Bytes} {version : Nat} (hbs : g.States bs version)
    (hfront : 8 ≤ g.versionOffset) {n : Nat} (hn : n < bs.length) :
    ∃ part, decode (bs.take n) = .error (.read part .unexpectedEof) := by
  have hlength : (bs.take n).length = n := by
    rw [List.length_take, Nat.min_eq_left (Nat.le_of_lt hn)]
  simp only [hdecides.eq_error_iff]
  unfold refusal?
  rw [hlength]
  by_cases hshort : n < g.frontSize
  · exact ⟨_, if_pos hshort⟩
  · have hlong : g.versionOffset + 4 ≤ n := Nat.le_of_not_lt hshort
    have hmagic : Bytes.field 8 (bs.take n) = g.magic := by
      rw [Bytes.field_take (by omega) (Nat.le_of_lt hn), hbs.magic]
    have hversion : g.versionIn (bs.take n) = g.versionIn bs := by
      unfold versionIn
      rw [List.drop_take, List.take_take, Nat.min_eq_left (by omega)]
    rw [if_neg hshort, refusalBehind?, if_neg (not_not_intro hmagic), hversion,
      hbs.version_eq, hbs.size_eq, hlength]
    exact ⟨_, if_pos hn⟩

end HeaderFormat

open HeaderFormat

/-! ## Boot headers -/

namespace BootHeader

theorem readPart_of_short {α : Type} {c : Codec α} {data : Bytes} (part : String)
    (h : data.length < c.width) : readPart c part data = .error (.read part .unexpectedEof) := by
  rw [readPart, c.decode?_eq_none_iff.2 h]

theorem readPart_of_le {α : Type} {c : Codec α} {data : Bytes} (part : String)
    (h : c.width ≤ data.length) :
    ∃ a, readPart c part data = .ok a ∧ data = c.encode a ++ data.drop c.width := by
  cases hread : c.decode? data with
  | none => exact absurd h (Nat.not_le.2 (c.decode?_eq_none_iff.1 hread))
  | some a =>
    exact ⟨a, by rw [readPart, hread], by rw [c.encode_of_decode? hread, List.take_append_drop]⟩

/-- Of the record that is read last only bytes can be missing. -/
theorem answers_readPart {α β : Type} {c : Codec α} {size : Nat} (hsize : c.width = size)
    (part : String) (data : Bytes) (f : α → β) :
    Answers (readPart c part data >>= fun a => .ok (f a))
      (if data.length < size then some (.read part .unexpectedEof) else none) := by
  by_cases h : data.length < size
  · rw [if_pos h, readPart_of_short part (hsize ▸ h)]
    rfl
  · obtain ⟨a, ha, -⟩ := readPart_of_le part (hsize ▸ Nat.le_of_not_lt h)
    rw [if_neg h, ha]
    exact ⟨f a, rfl⟩

/-- What the decoder says behind the front. -/
theorem answers_decode {data : Bytes} {magic' : Vector UInt8 8} {skipped : Vector UInt8 32}
    {version : UInt32}
    (hread : readPart prefixCodec "Boot::prefix" data = .ok (magic', skipped, version)) :
    Answers (decode data) (HeaderFormat.boot.refusalBehind? magic' version data) := by
  rw [decode, hread]
  show Answers (if magic' ≠ magic then _ else _) (if magic' ≠ magic then _ else _)
  refine answers_ite fun _ => ?_
  generalize version.toNat = n
  split
  · exact answers_readPart (c := codecV0) rfl _ _ _
  · exact answers_readPart (c := codecV1) rfl _ _ _
  · exact answers_readPart (c := codecV2) rfl _ _ _
  · exact answers_readPart (c := codecV3) rfl _ _ _
  · exact answers_readPart (c := codecV4) rfl _ _ _
  · next h0 h1 h2 h3 h4 =>
    have hnot : n ≠ 0 ∧ n ≠ 1 ∧ n ≠ 2 ∧ n ≠ 3 ∧ n ≠ 4 := ⟨h0, h1, h2, h3, h4⟩
    have hnone : HeaderFormat.boot.sizes.lookup n = none := by
      simp [HeaderFormat.boot, List.lookup_eq_none_iff, hnot]
    rw [hnone]
    rfl

theorem decides : HeaderFormat.boot.Decides decode := by
  apply decides_of_front
  · intro data hshort
    rw [decode, readPart_of_short (c := prefixCodec) _ hshort]
    rfl
  · intro data hlong
    obtain ⟨⟨magic', skipped, version⟩, hread, hdata⟩ :=
      readPart_of_le (c := prefixCodec) "Boot::prefix" hlong
    refine ⟨magic', skipped.toList, version, data.drop prefixCodec.width, ?_,
      by simp [HeaderFormat.boot], answers_decode hread⟩
    rw [← List.append_assoc, ← List.append_assoc, List.append_assoc magic'.toList]
    exact hdata

theorem lookup_version (h : BootHeader) :
    HeaderFormat.boot.sizes.lookup h.version = some h.headerSize := by
  cases h <;> rfl

theorem states_encode (h : BootHeader) : HeaderFormat.boot.States h.encode h.version := by
  obtain ⟨middle, tail, hmiddle, hfront⟩ := h.encode_eq_front
  obtain ⟨hmagic, hversion⟩ := front_eq (g := HeaderFormat.boot) hfront
    (by simp [HeaderFormat.boot, hmiddle])
  refine ⟨hmagic, ?_, by rw [h.length_encode, h.lookup_version]⟩
  rw [hversion]
  cases h <;> rfl

end BootHeader

/-! ## Vendor headers -/

namespace VendorHeader

open BootHeader (readPart readPart_of_short readPart_of_le answers_readPart)

/-- What the decoder says behind the front. -/
theorem answers_decode {data : Bytes} {magic' : Vector UInt8 8} {version : UInt32}
    (hread : readPart prefixCodec "Vendor::prefix" data = .ok (magic', version)) :
    Answers (decode data) (HeaderFormat.vendor.refusalBehind? magic' version data) := by
  rw [decode, hread]
  show Answers (if magic' ≠ magic then _ else _) (if magic' ≠ magic then _ else _)
  refine answers_ite fun _ => ?_
  generalize version.toNat = n
  split
  · exact answers_readPart (c := codecV3) rfl _ _ _
  · exact answers_readPart (c := codecV4) rfl _ _ _
  · next h3 h4 =>
    have hnot : n ≠ 3 ∧ n ≠ 4 := ⟨h3, h4⟩
    have hnone : HeaderFormat.vendor.sizes.lookup n = none := by
      simp [HeaderFormat.vendor, List.lookup_eq_none_iff, hnot]
    rw [hnone]
    rfl

theorem decides : HeaderFormat.vendor.Decides decode := by
  apply decides_of_front
  · intro data hshort
    rw [decode, readPart_of_short (c := prefixCodec) _ hshort]
    rfl
  · intro data hlong
    obtain ⟨⟨magic', version⟩, hread, hdata⟩ :=
      readPart_of_le (c := prefixCodec) "Vendor::prefix" hlong
    refine ⟨magic', [], version, data.drop prefixCodec.width, ?_, rfl, answers_decode hread⟩
    rw [List.nil_append, ← List.append_assoc]
    exact hdata

theorem lookup_version (h : VendorHeader) :
    HeaderFormat.vendor.sizes.lookup h.version = some h.headerSize := by
  cases h <;> rfl

theorem states_encode (h : VendorHeader) : HeaderFormat.vendor.States h.encode h.version := by
  obtain ⟨tail, hfront⟩ := h.encode_eq_front
  have hparts : h.encode = magic.toList ++ ([] ++ (Bytes.ofWordLE (UInt32.ofNat h.version) ++
      tail)) := by
    rw [List.nil_append, ← List.append_assoc]
    exact hfront
  obtain ⟨hmagic, hversion⟩ := front_eq (g := HeaderFormat.vendor) hparts rfl
  refine ⟨hmagic, ?_, by rw [h.length_encode, h.lookup_version]⟩
  rw [hversion]
  cases h <;> rfl

end VendorHeader

/-! ## Headers of images -/

namespace ImageHeader

theorem decode_of_short {data : Bytes} (h : data.length < 8) :
    decode data = .error (.read "Image::magic" .unexpectedEof) := by
  rw [decode, BootHeader.readPart_of_short (c := Codec.bytes 8) _ h]
  rfl

/-- The magic chooses between the two decoders, and both read the data from its start. -/
theorem decode_of_le {data : Bytes} (h : 8 ≤ data.length) :
    decode data =
      if Bytes.field 8 data = BootHeader.magic then (BootHeader.decode data).map boot
      else if Bytes.field 8 data = VendorHeader.magic then (VendorHeader.decode data).map vendor
      else .error (.unknownMagic (Bytes.field 8 data)) := by
  obtain ⟨magic, hread, hdata⟩ := BootHeader.readPart_of_le (c := Codec.bytes 8) "Image::magic" h
  have hmagic : Bytes.field 8 data = magic := by
    apply Bytes.field_of_toList
    rw [hdata]
    exact (List.take_left' (by simp)).symm
  rw [decode, hread, hmagic]
  rfl

theorem decode_take {h : ImageHeader} {n : Nat} (hn : n < h.encode.length) :
    ∃ part, decode (h.encode.take n) = .error (.read part .unexpectedEof) := by
  have hlength : (h.encode.take n).length = n := by
    rw [List.length_take, Nat.min_eq_left (Nat.le_of_lt hn)]
  by_cases hshort : n < 8
  · exact ⟨_, decode_of_short (by rwa [hlength])⟩
  · have hlong : 8 ≤ n := Nat.le_of_not_lt hshort
    have hfield := Bytes.field_take hlong (Nat.le_of_lt hn)
    rw [decode_of_le (by rwa [hlength]), hfield]
    cases h with
    | boot h =>
      have hmagic : Bytes.field 8 (boot h).encode = BootHeader.magic := h.states_encode.magic
      obtain ⟨part, hdecode⟩ := BootHeader.decides.decode_take h.states_encode (by decide) hn
      rw [if_pos hmagic, encode, hdecode]
      exact ⟨part, rfl⟩
    | vendor h =>
      have hmagic : Bytes.field 8 (vendor h).encode = VendorHeader.magic := h.states_encode.magic
      have hother : VendorHeader.magic ≠ BootHeader.magic := by decide
      obtain ⟨part, hdecode⟩ := VendorHeader.decides.decode_take h.states_encode (by decide) hn
      rw [hmagic, if_neg hother, if_pos rfl, encode, hdecode]
      exact ⟨part, rfl⟩

end ImageHeader

/-- **Which headers are accepted.** The decoders of boot and of vendor headers accept exactly the
data with a front, the magic, a version that has a layout and all bytes of this layout, and say of
all other data what it lacks first. For the header of an image the magic chooses between the two. A
header that is cut short is always refused for its length. -/
theorem decoders_exact :
    HeaderFormat.boot.Decides BootHeader.decode ∧
    HeaderFormat.vendor.Decides VendorHeader.decode ∧
    (∀ h : BootHeader, HeaderFormat.boot.sizes.lookup h.version = some h.headerSize) ∧
    (∀ h : VendorHeader, HeaderFormat.vendor.sizes.lookup h.version = some h.headerSize) ∧
    (∀ data, data.length < 8 →
      ImageHeader.decode data = .error (.read "Image::magic" .unexpectedEof)) ∧
    (∀ data, 8 ≤ data.length → ImageHeader.decode data =
      if Bytes.field 8 data = BootHeader.magic then (BootHeader.decode data).map .boot
      else if Bytes.field 8 data = VendorHeader.magic then (VendorHeader.decode data).map .vendor
      else .error (.unknownMagic (Bytes.field 8 data))) ∧
    (∀ (h : BootHeader) (n : Nat), n < h.encode.length →
      ∃ part, BootHeader.decode (h.encode.take n) = .error (.read part .unexpectedEof)) ∧
    (∀ (h : VendorHeader) (n : Nat), n < h.encode.length →
      ∃ part, VendorHeader.decode (h.encode.take n) = .error (.read part .unexpectedEof)) ∧
    (∀ (h : ImageHeader) (n : Nat), n < h.encode.length →
      ∃ part, ImageHeader.decode (h.encode.take n) = .error (.read part .unexpectedEof)) :=
  ⟨BootHeader.decides, VendorHeader.decides, BootHeader.lookup_version, VendorHeader.lookup_version,
    fun _ => ImageHeader.decode_of_short, fun _ => ImageHeader.decode_of_le,
    fun h _ => BootHeader.decides.decode_take h.states_encode (by decide),
    fun h _ => VendorHeader.decides.decode_take h.states_encode (by decide),
    fun _ _ => ImageHeader.decode_take⟩

end AndroidBoot
