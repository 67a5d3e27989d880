import AndroidBoot.Text.Utf8

/-!
# UTF-8 loses nothing

`first?` reads what `String.utf8EncodeChar` writes and nothing else, so a text is found again in its
bytes, and the bytes of the pieces of any byte string are that string.

    (pieces bs).flatMap Piece.bytes = bs                                     (flatMap_bytes_pieces)
    decode? (encode s) = some s                                              (decode?_encode)
-/

namespace AndroidBoot.Utf8

/-! ## One character -/

theorem toNat_utf8Byte {n : Nat} (h : n < 256) : (UInt8.ofNat n).toNat = n := by
  rw [UInt8.toNat_ofNat', Nat.mod_eq_of_lt h]

theorem tail?_ofNat {n : Nat} (h : n < 64) : tail? (UInt8.ofNat (n + 0x80)) = some n := by
  unfold tail?
  rw [toNat_utf8Byte (by omega), if_pos (by omega), Nat.add_sub_cancel]

theorem tail?_eq_some {b : UInt8} {n : Nat} (h : tail? b = some n) :
    n < 64 ∧ b = UInt8.ofNat (n + 0x80) := by
  unfold tail? at h
  split at h
  · next hb =>
    obtain rfl := Option.some.inj h
    refine ⟨by omega, ?_⟩
    rw [Nat.sub_add_cancel hb.1, UInt8.ofNat_toNat]
  · cases h

theorem toNat_ofNat {n : Nat} (h : n.isValidChar) : (Char.ofNat n).toNat = n := by
  rw [Char.ofNat, dif_pos h]
  rfl

theorem scalar?_toNat {least : Nat} (c : Char) (h : least ≤ c.toNat) :
    scalar? least c.toNat = some c := by
  unfold scalar?
  rw [if_pos ⟨c.valid, h⟩, Char.ofNat_toNat]

theorem scalar?_eq_some {least n : Nat} {c : Char} (h : scalar? least n = some c) :
    c.toNat = n ∧ least ≤ n := by
  unfold scalar? at h
  split at h
  · next hn =>
    cases h
    exact ⟨toNat_ofNat hn.1, hn.2⟩
  · cases h

theorem toNat_le (c : Char) : c.toNat ≤ 0x10FFFF := by
  rcases c.valid with h | h
  · show c.val.toNat ≤ _
    omega
  · show c.val.toNat ≤ _
    omega

/-- A character is read from its bytes. -/
theorem first?_utf8EncodeChar (c : Char) :
    ∃ b t, String.utf8EncodeChar c = b :: t ∧
      ∀ rest, first? b (t ++ rest) = some (c, t.length) := by
  have hmax := toNat_le c
  have hval : c.val.toNat = c.toNat := rfl
  unfold String.utf8EncodeChar
  simp only [hval]
  split
  · next h =>
    refine ⟨_, _, rfl, fun rest => ?_⟩
    unfold first?
    rw [toNat_utf8Byte (by omega), if_pos (by omega), Char.ofNat_toNat]
    rfl
  · next h1 =>
    split
    · next h2 =>
      refine ⟨_, _, rfl, fun rest => ?_⟩
      have hb : (UInt8.ofNat (c.toNat / 64 % 32 + 0xC0)).toNat = c.toNat / 64 + 0xC0 := by
        rw [toNat_utf8Byte (by omega)]
        omega
      unfold first?
      rw [hb, if_neg (by omega), if_neg (by omega), if_pos (by omega)]
      have hn : (c.toNat / 64 + 0xC0 - 0xC0) * 64 + c.toNat % 64 = c.toNat := by omega
      simp only [List.cons_append, tail?_ofNat (Nat.mod_lt _ (by decide : 0 < 64)),
        Option.bind_eq_bind, Option.bind_some, hn, scalar?_toNat c (by omega : 0x80 ≤ c.toNat)]
      rfl
    · next h2 =>
      split
      · next h3 =>
        refine ⟨_, _, rfl, fun rest => ?_⟩
        have hb : (UInt8.ofNat (c.toNat / 4096 % 16 + 0xE0)).toNat = c.toNat / 4096 + 0xE0 := by
          rw [toNat_utf8Byte (by omega)]
          omega
        unfold first?
        rw [hb, if_neg (by omega), if_neg (by omega), if_neg (by omega), if_pos (by omega)]
        have hn : ((c.toNat / 4096 + 0xE0 - 0xE0) * 64 + c.toNat / 64 % 64) * 64 + c.toNat % 64
            = c.toNat := by omega
        simp only [List.cons_append, tail?_ofNat (Nat.mod_lt _ (by decide : 0 < 64)),
          Option.bind_eq_bind, Option.bind_some, hn, scalar?_toNat c (by omega : 0x800 ≤ c.toNat)]
        rfl
      · next h3 =>
        refine ⟨_, _, rfl, fun rest => ?_⟩
        have hb : (UInt8.ofNat (c.toNat / 262144 % 8 + 0xF0)).toNat
            = c.toNat / 262144 + 0xF0 := by
          rw [toNat_utf8Byte (by omega)]
          omega
        unfold first?
        rw [hb, if_neg (by omega), if_neg (by omega), if_neg (by omega), if_neg (by omega)]
        have hn : (((c.toNat / 262144 + 0xF0 - 0xF0) * 64 + c.toNat / 4096 % 64) * 64
            + c.toNat / 64 % 64) * 64 + c.toNat % 64 = c.toNat := by omega
        simp only [List.cons_append, tail?_ofNat (Nat.mod_lt _ (by decide : 0 < 64)),
          Option.bind_eq_bind, Option.bind_some, hn, scalar?_toNat c (by omega : 0x10000 ≤ c.toNat)]
        rfl

/-- What is read as a character is the bytes of that character. -/
theorem utf8EncodeChar_of_first? {b : UInt8} {r : Bytes} {c : Char} {n : Nat}
    (h : first? b r = some (c, n)) : String.utf8EncodeChar c = b :: r.take n := by
  have hb := b.toNat_lt
  have hmax := toNat_le c
  have hval : c.val.toNat = c.toNat := rfl
  unfold first? at h
  unfold String.utf8EncodeChar
  simp only [hval]
  split at h
  · next h1 =>
    obtain ⟨rfl, rfl⟩ := Prod.mk.inj (Option.some.inj h)
    have hvalid : b.toNat.isValidChar := .inl (by omega)
    rw [toNat_ofNat hvalid, if_pos (by omega), UInt8.ofNat_toNat]
    rfl
  · split at h
    · cases h
    · split at h
      · next h1 h2 h3 =>
        match r, h with
        | d :: r, h =>
          simp only [Option.bind_eq_bind, Option.bind_eq_some_iff] at h
          obtain ⟨m, hm, ch, hch, hc⟩ := h
          obtain ⟨rfl, rfl⟩ := Prod.mk.inj (Option.some.inj hc)
          obtain ⟨hlt, rfl⟩ := tail?_eq_some hm
          obtain ⟨htotal, hleast⟩ := scalar?_eq_some hch
          have hhead : ch.toNat / 64 % 32 + 0xC0 = b.toNat := by omega
          have htail : ch.toNat % 64 = m := by omega
          rw [if_neg (by omega), if_pos (by omega), hhead, htail, UInt8.ofNat_toNat]
          rfl
      · split at h
        · next h1 h2 h3 h4 =>
          match r, h with
          | d :: e :: r, h =>
            simp only [Option.bind_eq_bind, Option.bind_eq_some_iff] at h
            obtain ⟨m, hm, k, hk, ch, hch, hc⟩ := h
            obtain ⟨rfl, rfl⟩ := Prod.mk.inj (Option.some.inj hc)
            obtain ⟨hlt, rfl⟩ := tail?_eq_some hm
            obtain ⟨hlt', rfl⟩ := tail?_eq_some hk
            obtain ⟨htotal, hleast⟩ := scalar?_eq_some hch
            have hhead : ch.toNat / 4096 % 16 + 0xE0 = b.toNat := by omega
            have htail : ch.toNat / 64 % 64 = m := by omega
            have hlast : ch.toNat % 64 = k := by omega
            rw [if_neg (by omega), if_neg (by omega), if_pos (by omega), hhead, htail, hlast,
              UInt8.ofNat_toNat]
            rfl
        · next h1 h2 h3 h4 =>
          match r, h with
          | d :: e :: f :: r, h =>
            simp only [Option.bind_eq_bind, Option.bind_eq_some_iff] at h
            obtain ⟨m, hm, k, hk, l, hl, ch, hch, hc⟩ := h
            obtain ⟨rfl, rfl⟩ := Prod.mk.inj (Option.some.inj hc)
            obtain ⟨hlt, rfl⟩ := tail?_eq_some hm
            obtain ⟨hlt', rfl⟩ := tail?_eq_some hk
            obtain ⟨hlt'', rfl⟩ := tail?_eq_some hl
            obtain ⟨htotal, hleast⟩ := scalar?_eq_some hch
            have hhead : ch.toNat / 262144 % 8 + 0xF0 = b.toNat := by omega
            have htail : ch.toNat / 4096 % 64 = m := by omega
            have hthird : ch.toNat / 64 % 64 = k := by omega
            have hlast : ch.toNat % 64 = l := by omega
            rw [if_neg (by omega), if_neg (by omega), if_neg (by omega), hhead, htail, hthird,
              hlast, UInt8.ofNat_toNat]
            rfl

/-! ## Texts -/

/-- A character at the front of a byte string is its first piece. -/
theorem pieces_char_append (c : Char) (rest : Bytes) :
    pieces (String.utf8EncodeChar c ++ rest) = .char c :: pieces rest := by
  obtain ⟨b, t, hencode, hfirst⟩ := first?_utf8EncodeChar c
  rw [hencode, List.cons_append, pieces, hfirst rest]
  simp only [List.drop_left]

theorem pieces_encodeChars (cs : List Char) : pieces (encodeChars cs) = cs.map .char := by
  induction cs with
  | nil => rw [encodeChars, List.flatMap_nil, pieces, List.map_nil]
  | cons c cs ih =>
    rw [encodeChars, List.flatMap_cons, pieces_char_append, List.map_cons]
    exact congrArg _ ih

theorem chars?_map_char (cs : List Char) : chars? (cs.map .char) = some cs := by
  induction cs with
  | nil => rfl
  | cons c cs ih => rw [List.map_cons, chars?, ih, Option.map_some]

theorem decode?_encode (s : String) : decode? (encode s) = some s := by
  rw [decode?, encode, pieces_encodeChars, chars?_map_char, Option.map_some, String.ofList_toList]

/-- The pieces are the byte string. -/
theorem flatMap_bytes_pieces (bs : Bytes) : (pieces bs).flatMap Piece.bytes = bs := by
  fun_induction pieces bs with
  | case1 => rfl
  | case2 b r c n hfirst ih =>
    rw [List.flatMap_cons, ih, Piece.bytes, utf8EncodeChar_of_first? hfirst, List.cons_append,
      List.take_append_drop]
  | case3 b r hfirst ih =>
    rw [List.flatMap_cons, ih]
    rfl

end AndroidBoot.Utf8
