import AndroidBoot.Proofs.Image.Codecs

/-!
# Headers written as they were read

The records of a header have a bijective layout, but a header keeps neither the magic nor the
version that its first record has: they are written anew. What is written is still what was read,
since the reader has compared both with the front of the data, and they stand at one place for all
records that it may choose.

    decode data = .ok h → h.encode = data.take h.headerSize            (encode_of_decode)
    decode data = .ok (.boot h) ↔ BootHeader.decode data = .ok h       (decode_eq_ok_boot_iff)
-/

namespace AndroidBoot

/-- Writing and reading undo each other: a value takes as many bytes as its size says, is read back
whatever follows it, and is written as the bytes that it was read from. -/
structure Inverse {α : Type} (encode : α → Bytes) (size : α → Nat)
    (decode : Bytes → Except ImageError α) : Prop where
  length_encode : ∀ a, (encode a).length = size a
  decode_encode_append : ∀ a rest, decode (encode a ++ rest) = .ok a
  encode_of_decode : ∀ data a, decode data = .ok a → encode a = data.take (size a)

/-! ## Lemmas -/

/-- A record that starts as another record does is also read as that one. -/
theorem Codec.decode?_of_encode_eq {α β : Type} {c : Codec α} {d : Codec β} {data tail : Bytes}
    {a : α} {b : β} (ha : c.decode? data = some a) (hfront : c.encode a = d.encode b ++ tail) :
    d.decode? data = some b := by
  have hdata : data = d.encode b ++ (tail ++ data.drop c.width) := by
    rw [← List.append_assoc, ← hfront, c.encode_of_decode? ha, List.take_append_drop]
  rw [hdata, d.decode?_encode_append]

namespace BootHeader

theorem readPart_eq_ok_iff {α : Type} {c : Codec α} {part : String} {data : Bytes} {a : α} :
    readPart c part data = .ok a ↔ c.decode? data = some a := by
  unfold readPart
  cases c.decode? data with
  | some b => simp
  | none => simp

/-- What follows the reading of a record is reached with the record that was read. -/
theorem readPart_bind_eq_ok {α β : Type} {c : Codec α} {part : String} {data : Bytes}
    {f : α → Except ImageError β} {b : β} (h : readPart c part data >>= f = .ok b) :
    ∃ a, c.decode? data = some a ∧ f a = .ok b := by
  cases hread : readPart c part data with
  | error e =>
    rw [hread] at h
    cases h
  | ok a =>
    rw [hread] at h
    exact ⟨a, readPart_eq_ok_iff.1 hread, h⟩

/-- A record with 32 bytes between its magic and its version is read with those that the front of
the header has. -/
theorem stamp_eq {α : Type} {c : Codec α} {data middle : Bytes} {a : α} {stamp : Stamp}
    {magic : Vector UInt8 8} {skipped : Vector UInt8 32} {version : UInt32}
    (hstart : prefixCodec.decode? data = some (magic, skipped, version))
    (ha : c.decode? data = some a) (hmiddle : middle.length = 32)
    (hfront : ∃ tail, c.encode a
      = stamp.magic.toList ++ (middle ++ (Bytes.ofWordLE stamp.version ++ tail))) :
    stamp = ⟨magic, version⟩ := by
  obtain ⟨tail, hfront⟩ := hfront
  have hencode : c.encode a
      = prefixCodec.encode (stamp.magic, Bytes.field 32 middle, stamp.version) ++ tail := by
    rw [hfront, prefixCodec_encode _ _ hmiddle, List.append_assoc, List.append_assoc]
  have h := Codec.decode?_of_encode_eq ha hencode
  rw [hstart] at h
  cases h
  rfl

/-- The records of a header stand at the front of `data`, whatever stamp the first of them has. -/
def StandsIn (data : Bytes) (stamp : Stamp) : BootHeader → Prop
  | v0 base => codecV0.decode? data = some (stamp, base)
  | v1 base e1 => codecV1.decode? data = some ((stamp, base), e1)
  | v2 base e1 e2 => codecV2.decode? data = some (((stamp, base), e1), e2)
  | v3 base => codecV3.decode? data = some (stamp, base)
  | v4 base e4 => codecV4.decode? data = some ((stamp, base), e4)

/-- What was read is a front with the magic and the version of the header, and then its records. -/
theorem exists_of_decode {data : Bytes} {h : BootHeader} (hok : decode data = .ok h) :
    (∃ skipped, prefixCodec.decode? data = some (magic, skipped, UInt32.ofNat h.version)) ∧
      ∃ stamp, h.StandsIn data stamp := by
  obtain ⟨⟨magic', skipped, version⟩, hstart, hok⟩ := readPart_bind_eq_ok hok
  by_cases hmagic : magic' = magic
  · subst hmagic
    simp only [ne_eq, not_true_eq_false, if_false] at hok
    have hfront : ∀ n, version.toNat = n →
        ∃ skipped, prefixCodec.decode? data = some (magic, skipped, UInt32.ofNat n) := by
      rintro n rfl
      exact ⟨skipped, by rw [UInt32.ofNat_toNat, hstart]⟩
    split at hok
    · next hversion =>
      obtain ⟨⟨stamp, base⟩, hread, hh⟩ := readPart_bind_eq_ok hok
      cases hh
      exact ⟨hfront 0 hversion, stamp, hread⟩
    · next hversion =>
      obtain ⟨⟨⟨stamp, base⟩, e1⟩, hread, hh⟩ := readPart_bind_eq_ok hok
      cases hh
      exact ⟨hfront 1 hversion, stamp, hread⟩
    · next hversion =>
      obtain ⟨⟨⟨⟨stamp, base⟩, e1⟩, e2⟩, hread, hh⟩ := readPart_bind_eq_ok hok
      cases hh
      exact ⟨hfront 2 hversion, stamp, hread⟩
    · next hversion =>
      obtain ⟨⟨stamp, base⟩, hread, hh⟩ := readPart_bind_eq_ok hok
      cases hh
      exact ⟨hfront 3 hversion, stamp, hread⟩
    · next hversion =>
      obtain ⟨⟨⟨stamp, base⟩, e4⟩, hread, hh⟩ := readPart_bind_eq_ok hok
      cases hh
      exact ⟨hfront 4 hversion, stamp, hread⟩
    · cases hok
  · simp only [ne_eq, hmagic, not_false_eq_true, if_true] at hok
    cases hok

/-- What was read is written again as it was. -/
theorem encode_of_decode {data : Bytes} {h : BootHeader} (hok : decode data = .ok h) :
    h.encode = data.take h.headerSize := by
  obtain ⟨⟨skipped, hstart⟩, stamp, hrecords⟩ := exists_of_decode hok
  cases h with
  | v0 base =>
    obtain rfl := stamp_eq hstart hrecords base.length_middle (BootFieldsV0.encode_eq_front _ base)
    exact codecV0.encode_of_decode? hrecords
  | v1 base e1 =>
    have hbase : codecV0.decode? data = some (stamp, base) :=
      Codec.decode?_of_encode_eq hrecords rfl
    obtain rfl := stamp_eq hstart hbase base.length_middle (BootFieldsV0.encode_eq_front _ base)
    exact codecV1.encode_of_decode? hrecords
  | v2 base e1 e2 =>
    have hextended : codecV1.decode? data = some ((stamp, base), e1) :=
      Codec.decode?_of_encode_eq hrecords rfl
    have hbase : codecV0.decode? data = some (stamp, base) :=
      Codec.decode?_of_encode_eq hextended rfl
    obtain rfl := stamp_eq hstart hbase base.length_middle (BootFieldsV0.encode_eq_front _ base)
    exact codecV2.encode_of_decode? hrecords
  | v3 base =>
    obtain rfl := stamp_eq hstart hrecords base.length_middle (BootFieldsV3.encode_eq_front _ base)
    exact codecV3.encode_of_decode? hrecords
  | v4 base e4 =>
    have hbase : codecV3.decode? data = some (stamp, base) :=
      Codec.decode?_of_encode_eq hrecords rfl
    obtain rfl := stamp_eq hstart hbase base.length_middle (BootFieldsV3.encode_eq_front _ base)
    exact codecV4.encode_of_decode? hrecords

end BootHeader

namespace VendorHeader

/-- The records of a header stand at the front of `data`, whatever stamp the first of them has. -/
def StandsIn (data : Bytes) (stamp : Stamp) : VendorHeader → Prop
  | v3 base => codecV3.decode? data = some (stamp, base)
  | v4 base e4 => codecV4.decode? data = some ((stamp, base), e4)

/-- What was read is a front with the magic and the version of the header, and then its records. -/
theorem exists_of_decode {data : Bytes} {h : VendorHeader} (hok : decode data = .ok h) :
    prefixCodec.decode? data = some (magic, UInt32.ofNat h.version) ∧
      ∃ stamp, h.StandsIn data stamp := by
  obtain ⟨⟨magic', version⟩, hstart, hok⟩ := BootHeader.readPart_bind_eq_ok hok
  by_cases hmagic : magic' = magic
  · subst hmagic
    simp only [ne_eq, not_true_eq_false, if_false] at hok
    have hfront : ∀ n, version.toNat = n →
        prefixCodec.decode? data = some (magic, UInt32.ofNat n) := by
      rintro n rfl
      rw [UInt32.ofNat_toNat, hstart]
    split at hok
    · next hversion =>
      obtain ⟨⟨stamp, base⟩, hread, hh⟩ := BootHeader.readPart_bind_eq_ok hok
      cases hh
      exact ⟨hfront 3 hversion, stamp, hread⟩
    · next hversion =>
      obtain ⟨⟨⟨stamp, base⟩, e4⟩, hread, hh⟩ := BootHeader.readPart_bind_eq_ok hok
      cases hh
      exact ⟨hfront 4 hversion, stamp, hread⟩
    · cases hok
  · simp only [ne_eq, hmagic, not_false_eq_true, if_true] at hok
    cases hok

theorem stamp_eq {data : Bytes} {stamp : Stamp} {base : VendorFieldsV3} {magic : Vector UInt8 8}
    {version : UInt32} (hstart : prefixCodec.decode? data = some (magic, version))
    (hbase : codecV3.decode? data = some (stamp, base)) : stamp = ⟨magic, version⟩ := by
  obtain ⟨tail, hfront⟩ := VendorFieldsV3.encode_eq_front stamp base
  have h := Codec.decode?_of_encode_eq hbase hfront
  rw [hstart] at h
  cases h
  rfl

/-- What was read is written again as it was. -/
theorem encode_of_decode {data : Bytes} {h : VendorHeader} (hok : decode data = .ok h) :
    h.encode = data.take h.headerSize := by
  obtain ⟨hstart, stamp, hrecords⟩ := exists_of_decode hok
  cases h with
  | v3 base =>
    obtain rfl := stamp_eq hstart hrecords
    exact codecV3.encode_of_decode? hrecords
  | v4 base e4 =>
    obtain rfl := stamp_eq hstart (Codec.decode?_of_encode_eq hrecords rfl)
    exact codecV4.encode_of_decode? hrecords

end VendorHeader

namespace ImageHeader

/-- An image has a header if a boot header or a vendor header is read from it. -/
theorem cases_of_decode {data : Bytes} {h : ImageHeader} (hok : decode data = .ok h) :
    (∃ b, h = boot b ∧ BootHeader.decode data = .ok b) ∨
      ∃ v, h = vendor v ∧ VendorHeader.decode data = .ok v := by
  obtain ⟨magic, -, hok⟩ := BootHeader.readPart_bind_eq_ok hok
  split at hok
  · cases hd : BootHeader.decode data with
    | error e =>
      rw [hd] at hok
      cases hok
    | ok b =>
      rw [hd] at hok
      cases hok
      exact .inl ⟨b, rfl, rfl⟩
  split at hok
  · cases hd : VendorHeader.decode data with
    | error e =>
      rw [hd] at hok
      cases hok
    | ok v =>
      rw [hd] at hok
      cases hok
      exact .inr ⟨v, rfl, rfl⟩
  · cases hok

theorem encode_of_decode {data : Bytes} {h : ImageHeader} (hok : decode data = .ok h) :
    h.encode = data.take h.headerSize := by
  rcases cases_of_decode hok with ⟨b, rfl, hb⟩ | ⟨v, rfl, hv⟩
  · exact BootHeader.encode_of_decode hb
  · exact VendorHeader.encode_of_decode hv

theorem decode_eq_ok_boot_iff {data : Bytes} {h : BootHeader} :
    decode data = .ok (boot h) ↔ BootHeader.decode data = .ok h := by
  constructor
  · intro hok
    rcases cases_of_decode hok with ⟨b, heq, hb⟩ | ⟨v, heq, -⟩
    · cases heq
      exact hb
    · cases heq
  · intro hok
    have hdata : data = (boot h).encode ++ data.drop h.headerSize := by
      rw [encode, BootHeader.encode_of_decode hok, List.take_append_drop]
    rw [hdata, decode_encode_append]

theorem decode_eq_ok_vendor_iff {data : Bytes} {h : VendorHeader} :
    decode data = .ok (vendor h) ↔ VendorHeader.decode data = .ok h := by
  constructor
  · intro hok
    rcases cases_of_decode hok with ⟨b, heq, -⟩ | ⟨v, heq, hv⟩
    · cases heq
    · cases heq
      exact hv
  · intro hok
    have hdata : data = (vendor h).encode ++ data.drop h.headerSize := by
      rw [encode, VendorHeader.encode_of_decode hok, List.take_append_drop]
    rw [hdata, decode_encode_append]

end ImageHeader

/-- The sizes of the seven layouts. -/
theorem ImageHeader.headerSize_eq (h : ImageHeader) :
    h.headerSize = match h with
      | .boot (.v0 ..) => 1632
      | .boot (.v1 ..) => 1648
      | .boot (.v2 ..) => 1660
      | .boot (.v3 ..) => 1580
      | .boot (.v4 ..) => 1584
      | .vendor (.v3 ..) => 2112
      | .vendor (.v4 ..) => 2128 := by
  rcases h with (_ | _ | _ | _ | _) | (_ | _) <;> rfl

/-- **Headers.** For boot headers, for vendor headers and for the headers of images, which are one
or the other, reading and writing are inverse in both directions; an image has a boot header exactly
if a boot header is read from it, and a vendor header exactly if a vendor header is. -/
theorem headers_inverse :
    Inverse BootHeader.encode BootHeader.headerSize BootHeader.decode ∧
    Inverse VendorHeader.encode VendorHeader.headerSize VendorHeader.decode ∧
    Inverse ImageHeader.encode ImageHeader.headerSize ImageHeader.decode ∧
    (∀ data h, ImageHeader.decode data = .ok (.boot h) ↔ BootHeader.decode data = .ok h) ∧
    (∀ data h, ImageHeader.decode data = .ok (.vendor h) ↔ VendorHeader.decode data = .ok h) ∧
    (∀ data b v, BootHeader.decode data = .ok b → VendorHeader.decode data ≠ .ok v) := by
  refine ⟨⟨BootHeader.length_encode, BootHeader.decode_encode_append, fun _ _ =>
      BootHeader.encode_of_decode⟩,
    ⟨VendorHeader.length_encode, VendorHeader.decode_encode_append, fun _ _ =>
      VendorHeader.encode_of_decode⟩,
    ⟨ImageHeader.length_encode, ImageHeader.decode_encode_append, fun _ _ =>
      ImageHeader.encode_of_decode⟩,
    fun _ _ => ImageHeader.decode_eq_ok_boot_iff, fun _ _ => ImageHeader.decode_eq_ok_vendor_iff,
    fun data b v hboot hvendor => ?_⟩
  have hsame := (ImageHeader.decode_eq_ok_boot_iff.2 hboot).symm.trans
    (ImageHeader.decode_eq_ok_vendor_iff.2 hvendor)
  cases hsame

end AndroidBoot
