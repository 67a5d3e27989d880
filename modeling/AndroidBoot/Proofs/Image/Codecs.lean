import AndroidBoot.Image.Header

/-!
# Headers as bytes

The header at the front of an image is the one that was written there. Every header starts with
its magic and has its version where the first look at an image expects it, so that the record of
this version is read.

    decode (h.encode ++ rest) = .ok h                                  (decode_encode_append)
    h.encode.length = h.headerSize                                     (length_encode)
-/

namespace AndroidBoot

/-! ## The front of a header -/

namespace BootHeader

theorem readPart_encode_append {α : Type} (c : Codec α) (part : String) (a : α) (rest : Bytes) :
    readPart c part (c.encode a ++ rest) = .ok a := by
  rw [readPart, c.decode?_encode_append]

theorem prefixCodec_encode (magic : Vector UInt8 8) {middle : Bytes} (version : UInt32)
    (hmiddle : middle.length = 32) :
    prefixCodec.encode (magic, Bytes.field 32 middle, version)
      = magic.toList ++ (middle ++ Bytes.ofWordLE version) := by
  have hfield : (Bytes.field 32 middle).toList = middle := by
    rw [Bytes.toList_field, Bytes.resize_of_length hmiddle]
  show magic.toList ++ ((Bytes.field 32 middle).toList ++ Bytes.ofWordLE version) = _
  rw [hfield]

/-- The front of a header with any 32 bytes between its magic and its version. -/
theorem readPart_prefix {magic : Vector UInt8 8} {middle tail : Bytes} {version : UInt32}
    (part : String) (hmiddle : middle.length = 32) :
    readPart prefixCodec part (magic.toList ++ (middle ++ (Bytes.ofWordLE version ++ tail)))
      = .ok (magic, Bytes.field 32 middle, version) := by
  have h := readPart_encode_append prefixCodec part (magic, Bytes.field 32 middle, version) tail
  rwa [prefixCodec_encode magic version hmiddle, List.append_assoc, List.append_assoc] at h

end BootHeader

/-- The fields between the magic and the version of a header up to version 2. -/
def BootFieldsV0.middle (base : BootFieldsV0) : Bytes :=
  [base.kernelSize, base.kernelAddr, base.ramdiskSize, base.ramdiskAddr, base.secondSize,
    base.secondAddr, base.tagsAddr, base.pageSize].flatMap Bytes.ofWordLE

/-- The fields between the magic and the version of a header from version 3 on. -/
def BootFieldsV3.middle (base : BootFieldsV3) : Bytes :=
  ([base.kernelSize, base.ramdiskSize, base.osVersion, base.headerSize]
    ++ base.reserved.toList).flatMap Bytes.ofWordLE

theorem BootFieldsV0.length_middle (base : BootFieldsV0) : base.middle.length = 32 := by
  simp [middle, Bytes.length_ofWordLE]

theorem BootFieldsV3.length_middle (base : BootFieldsV3) : base.middle.length = 32 := by
  have h : (base.reserved.toList.flatMap Bytes.ofWordLE).length = 16 := by
    have := Codec.wordLE.length_flatMap_encode base.reserved.toList
    simpa [Codec.wordLE] using this
  simp only [middle, List.flatMap_append, List.length_append, h]
  simp [Bytes.length_ofWordLE]

theorem BootFieldsV0.encode_eq_front (stamp : Stamp) (base : BootFieldsV0) :
    ∃ tail, BootFieldsV0.codec.encode (stamp, base)
      = stamp.magic.toList ++ (base.middle ++ (Bytes.ofWordLE stamp.version ++ tail)) := by
  exact ⟨Bytes.ofWordLE base.osVersion ++ (base.name.toList ++ (base.cmdline.toList ++
    (base.id.toList.flatMap Bytes.ofWordLE ++ base.extraCmdline.toList))), by
      simp [BootFieldsV0.codec, middle, Codec.map, Codec.pair, Codec.wordLE, Codec.bytes,
        Codec.array]⟩

theorem BootFieldsV3.encode_eq_front (stamp : Stamp) (base : BootFieldsV3) :
    ∃ tail, BootFieldsV3.codec.encode (stamp, base)
      = stamp.magic.toList ++ (base.middle ++ (Bytes.ofWordLE stamp.version ++ tail)) := by
  exact ⟨base.cmdline.toList, by
    simp [BootFieldsV3.codec, middle, Codec.map, Codec.pair, Codec.wordLE, Codec.bytes,
      Codec.array]⟩

theorem VendorFieldsV3.encode_eq_front (stamp : Stamp) (base : VendorFieldsV3) :
    ∃ tail, VendorFieldsV3.codec.encode (stamp, base)
      = VendorHeader.prefixCodec.encode (stamp.magic, stamp.version) ++ tail := by
  exact ⟨[base.pageSize, base.kernelAddr, base.ramdiskAddr, base.vendorRamdiskSize].flatMap
    Bytes.ofWordLE ++ (base.cmdline.toList ++ (Bytes.ofWordLE base.tagsAddr ++ (base.name.toList ++
    (Bytes.ofWordLE base.headerSize ++ (Bytes.ofWordLE base.dtbSize ++
    Bytes.ofLongLE base.dtbAddr))))), by
      simp [VendorFieldsV3.codec, VendorHeader.prefixCodec, Codec.map, Codec.pair, Codec.wordLE,
        Codec.longLE, Codec.bytes]⟩

/-! ## Reading what was written -/

namespace BootHeader

theorem length_encode (h : BootHeader) : h.encode.length = h.headerSize := by
  cases h with
  | v0 base => exact codecV0.length_encode _
  | v1 base e1 => exact codecV1.length_encode _
  | v2 base e1 e2 => exact codecV2.length_encode _
  | v3 base => exact codecV3.length_encode _
  | v4 base e4 => exact codecV4.length_encode _

/-- Every header starts with the magic, 32 bytes and its version. -/
theorem encode_eq_front (h : BootHeader) :
    ∃ middle tail, middle.length = 32 ∧
      h.encode = magic.toList ++ (middle ++ (Bytes.ofWordLE (UInt32.ofNat h.version) ++ tail)) := by
  cases h with
  | v0 base =>
    obtain ⟨tail, htail⟩ := BootFieldsV0.encode_eq_front ⟨magic, 0⟩ base
    exact ⟨_, tail, base.length_middle, htail⟩
  | v1 base e1 =>
    obtain ⟨tail, htail⟩ := BootFieldsV0.encode_eq_front ⟨magic, 1⟩ base
    refine ⟨_, tail ++ BootFieldsV1.codec.encode e1, base.length_middle, ?_⟩
    show BootFieldsV0.codec.encode _ ++ BootFieldsV1.codec.encode e1 = _
    rw [htail, List.append_assoc, List.append_assoc, List.append_assoc]
    rfl
  | v2 base e1 e2 =>
    obtain ⟨tail, htail⟩ := BootFieldsV0.encode_eq_front ⟨magic, 2⟩ base
    refine ⟨_, tail ++ (BootFieldsV1.codec.encode e1 ++ BootFieldsV2.codec.encode e2),
      base.length_middle, ?_⟩
    show (BootFieldsV0.codec.encode _ ++ BootFieldsV1.codec.encode e1)
      ++ BootFieldsV2.codec.encode e2 = _
    rw [htail, List.append_assoc, List.append_assoc, List.append_assoc, List.append_assoc]
    rfl
  | v3 base =>
    obtain ⟨tail, htail⟩ := BootFieldsV3.encode_eq_front ⟨magic, 3⟩ base
    exact ⟨_, tail, base.length_middle, htail⟩
  | v4 base e4 =>
    obtain ⟨tail, htail⟩ := BootFieldsV3.encode_eq_front ⟨magic, 4⟩ base
    refine ⟨_, tail ++ BootFieldsV4.codec.encode e4, base.length_middle, ?_⟩
    show BootFieldsV3.codec.encode _ ++ BootFieldsV4.codec.encode e4 = _
    rw [htail, List.append_assoc, List.append_assoc, List.append_assoc]
    rfl

theorem decode_encode_append (h : BootHeader) (rest : Bytes) :
    decode (h.encode ++ rest) = .ok h := by
  obtain ⟨middle, tail, hmiddle, hfront⟩ := h.encode_eq_front
  have hprefix : readPart prefixCodec "Boot::prefix" (h.encode ++ rest)
      = .ok (magic, Bytes.field 32 middle, UInt32.ofNat h.version) := by
    rw [hfront, List.append_assoc, List.append_assoc, List.append_assoc]
    exact readPart_prefix "Boot::prefix" hmiddle
  rw [decode, hprefix]
  cases h with
  | v0 base =>
    show (readPart codecV0 _ _ >>= fun x => pure (v0 x.2)) = _
    rw [encode, readPart_encode_append]
    rfl
  | v1 base e1 =>
    show (readPart codecV1 _ _ >>= fun x => pure (v1 x.1.2 x.2)) = _
    rw [encode, readPart_encode_append]
    rfl
  | v2 base e1 e2 =>
    show (readPart codecV2 _ _ >>= fun x => pure (v2 x.1.1.2 x.1.2 x.2)) = _
    rw [encode, readPart_encode_append]
    rfl
  | v3 base =>
    show (readPart codecV3 _ _ >>= fun x => pure (v3 x.2)) = _
    rw [encode, readPart_encode_append]
    rfl
  | v4 base e4 =>
    show (readPart codecV4 _ _ >>= fun x => pure (v4 x.1.2 x.2)) = _
    rw [encode, readPart_encode_append]
    rfl

end BootHeader

namespace VendorHeader

theorem length_encode (h : VendorHeader) : h.encode.length = h.headerSize := by
  cases h with
  | v3 base => exact codecV3.length_encode _
  | v4 base e4 => exact codecV4.length_encode _

/-- Every header starts with the magic and its version. -/
theorem encode_eq_front (h : VendorHeader) :
    ∃ tail, h.encode = prefixCodec.encode (magic, UInt32.ofNat h.version) ++ tail := by
  cases h with
  | v3 base => exact VendorFieldsV3.encode_eq_front ⟨magic, 3⟩ base
  | v4 base e4 =>
    obtain ⟨tail, htail⟩ := VendorFieldsV3.encode_eq_front ⟨magic, 4⟩ base
    refine ⟨tail ++ VendorFieldsV4.codec.encode e4, ?_⟩
    show VendorFieldsV3.codec.encode _ ++ VendorFieldsV4.codec.encode e4 = _
    rw [htail, List.append_assoc]
    rfl

theorem decode_encode_append (h : VendorHeader) (rest : Bytes) :
    decode (h.encode ++ rest) = .ok h := by
  obtain ⟨tail, hfront⟩ := h.encode_eq_front
  have hprefix : BootHeader.readPart prefixCodec "Vendor::prefix" (h.encode ++ rest)
      = .ok (magic, UInt32.ofNat h.version) := by
    rw [hfront, List.append_assoc, BootHeader.readPart_encode_append]
  rw [decode, hprefix]
  cases h with
  | v3 base =>
    show (BootHeader.readPart codecV3 _ _ >>= fun x => pure (v3 x.2)) = _
    rw [encode, BootHeader.readPart_encode_append]
    rfl
  | v4 base e4 =>
    show (BootHeader.readPart codecV4 _ _ >>= fun x => pure (v4 x.1.2 x.2)) = _
    rw [encode, BootHeader.readPart_encode_append]
    rfl

end VendorHeader

namespace ImageHeader

theorem length_encode (h : ImageHeader) : h.encode.length = h.headerSize := by
  cases h with
  | boot h => exact h.length_encode
  | vendor h => exact h.length_encode

/-- The first eight bytes of an image are the magic of its header. -/
theorem readPart_magic (magic : Vector UInt8 8) (tail : Bytes) :
    BootHeader.readPart (Codec.bytes 8) "Image::magic" (magic.toList ++ tail) = .ok magic :=
  BootHeader.readPart_encode_append (Codec.bytes 8) "Image::magic" magic tail

/-- The header of an image is the one that was written at its front. -/
theorem decode_encode_append (h : ImageHeader) (rest : Bytes) :
    decode (h.encode ++ rest) = .ok h := by
  cases h with
  | boot h =>
    obtain ⟨middle, tail, -, hfront⟩ := h.encode_eq_front
    have hmagic : BootHeader.readPart (Codec.bytes 8) "Image::magic" (h.encode ++ rest)
        = .ok BootHeader.magic := by
      rw [hfront, List.append_assoc, readPart_magic]
    rw [decode, encode, hmagic]
    show (BootHeader.decode _).map boot = _
    rw [h.decode_encode_append]
    rfl
  | vendor h =>
    obtain ⟨tail, hfront⟩ := h.encode_eq_front
    have hmagic : BootHeader.readPart (Codec.bytes 8) "Image::magic" (h.encode ++ rest)
        = .ok VendorHeader.magic := by
      rw [hfront, List.append_assoc]
      exact (congrArg _ (List.append_assoc _ _ _)).trans (readPart_magic _ _)
    rw [decode, encode, hmagic]
    show (VendorHeader.decode _).map vendor = _
    rw [h.decode_encode_append]
    rfl

end ImageHeader

end AndroidBoot
