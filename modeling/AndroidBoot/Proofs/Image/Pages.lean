import AndroidBoot.Proofs.Image.Placement
import AndroidBoot.Proofs.Number.Multiples
import AndroidBoot.Proofs.Storage.NewFiles

/-!
# Pages of regions

A layout counts the pages of a region by a quotient, and where the writer ends a page follows from
the bytes it has counted. From the start of a page both find the same end, since both round to the
next multiple of the page size.

    h.layout = .ok regions → r.pageCount = divCeil r.size h.pageSize.toNat     (pageCount_of_layout)
    data, then zeros to a multiple of a → divCeil data.length a * a bytes        (divCeil_of_filled)
-/

namespace AndroidBoot

theorem ImageHeader.pageCount_of_layout {h : ImageHeader} {regions : List Region}
    (hlayout : h.layout = .ok regions) {r : Region} (hr : r ∈ regions) :
    r.pageCount = divCeil r.size h.pageSize.toNat := by
  have hplace := (layout_eq_place (ne_zero_of_layout hlayout)).symm.trans hlayout
  exact ((Layout.placed_of_place hplace).paged r hr).2.1

section

variable {σ : Type} [Sink σ] [LawfulSink σ] {s s₁ s₂ : Counted σ} {a zeros : Nat} {data : Bytes}

/-- Data written from the start of a page on, and filled up, takes whole pages. -/
theorem divCeil_of_filled (ha : 0 < a) (hstart : a ∣ s.count)
    (hdata : s.writeAll data = (.ok (), s₁)) (hfill : s₁.fillToMultiple a = (.ok zeros, s₂)) :
    divCeil data.length a * a = data.length + zeros := by
  obtain ⟨count, hcount⟩ := hstart
  obtain ⟨hzeros, -⟩ := Counted.fillToMultiple_eq_ok_iff.1 hfill
  rw [Counted.count_of_writeAll hdata, hcount, Nat.mul_comm, padding_mul_add] at hzeros
  rw [hzeros]
  exact divCeil_mul ha

end

/-- **Rounding.** The distance to the next multiple, the multiple itself and the quotient agree,
with any alignment: the multiple is refused exactly if it does not fit a word, and the quotient is
never above the number. In words of any width the same rules find the same, so that none of their
steps wraps around. So the pages of a region hold its bytes and the zeros that are written behind
them, on every stream that is at the start of a page; a new file takes them all. -/
theorem rounding_agrees :
    (∀ bits n a : Nat, 0 < a →
      padding n a < a ∧ NextMultiple n a (n + padding n a) ∧
      (∀ m, roundUp? bits n a = some m ↔ NextMultiple n a m ∧ m < 2 ^ bits) ∧
      (roundUp? bits n a = none ↔ 2 ^ bits ≤ n + padding n a) ∧
      divCeil n a ≤ n ∧ divCeil n a * a = n + padding n a ∧
      ∀ q, NextMultiple n a (q * a) ↔ q = divCeil n a) ∧
    (∀ (bits : Nat) (n a : BitVec bits), 0 < a.toNat →
      (Word.padding n a).toNat = padding n.toNat a.toNat ∧
      (Word.roundUp? n a).map BitVec.toNat = roundUp? bits n.toNat a.toNat ∧
      (Word.divCeil n a).toNat = divCeil n.toNat a.toNat) ∧
    ∀ (h : ImageHeader) (regions : List Region), h.layout = .ok regions → ∀ r ∈ regions,
      ∀ data : Bytes, data.length = r.size →
        (∀ (σ : Type) [Sink σ] [LawfulSink σ] (s s₁ s₂ : Counted σ) (zeros : Nat),
          h.pageSize.toNat ∣ s.count → s.writeAll data = (.ok (), s₁) →
          s₁.fillToMultiple h.pageSize.toNat = (.ok zeros, s₂) →
          r.pageCount * h.pageSize.toNat = r.size + zeros) ∧
        ∀ s : Counted NewFile, ∃ s₁ zeros s₂, s.writeAll data = (.ok (), s₁) ∧
          s₁.fillToMultiple h.pageSize.toNat = (.ok zeros, s₂) := by
  refine ⟨fun bits n a ha => ?_, fun bits n a ha => ?_,
    fun h regions hlayout r hr data hdata => ⟨?_, fun s => ?_⟩⟩
  · exact ⟨padding_lt ha, nextMultiple_add_padding ha, fun m => roundUp?_eq_some_iff ha,
      roundUp?_eq_none_iff, divCeil_le ha, divCeil_mul ha, fun q => nextMultiple_mul_iff ha⟩
  · exact ⟨Word.toNat_padding ha, Word.map_roundUp? ha, Word.toNat_divCeil ha⟩
  · intro σ _ _ s s₁ s₂ zeros hstart hwrite hfill
    have hpage := ImageHeader.pageSize_pos (ImageHeader.ne_zero_of_layout hlayout)
    rw [ImageHeader.pageCount_of_layout hlayout hr, ← hdata]
    exact divCeil_of_filled hpage hstart hwrite hfill
  · exact ⟨_, _, _, s.writeAll_newFile data, Counted.fillToMultiple_newFile _ _⟩

/-- A vendor header with pages of 3000 bytes and a ramdisk of 3001. -/
def unevenHeader : ImageHeader :=
  .vendor (.v3 ⟨3000, 0, 0, 3001, .replicate 2048 0, 0, .replicate 16 0, 0, 0, 0⟩)

/-- The ramdisk takes two pages, the second with one byte of it and 2999 zeros. -/
theorem rounding_agrees_uneven :
    unevenHeader.layout = .ok [⟨.vendorRamdisk, 3000, 3001, 2⟩] ∧
    ∃ s₁ zeros s₂,
      Counted.writeAll ⟨NewFile.mk (Bytes.zeros 3000), 3000⟩ (Bytes.zeros 3001) = (.ok (), s₁) ∧
      s₁.fillToMultiple unevenHeader.pageSize.toNat = (.ok zeros, s₂) ∧
      2 * unevenHeader.pageSize.toNat = 3001 + zeros := by
  have hlayout : unevenHeader.layout = .ok [⟨.vendorRamdisk, 3000, 3001, 2⟩] := rfl
  obtain ⟨hpages, hwritten⟩ := rounding_agrees.2.2 unevenHeader _ hlayout
    ⟨.vendorRamdisk, 3000, 3001, 2⟩ List.mem_cons_self (Bytes.zeros 3001) (Bytes.length_zeros 3001)
  obtain ⟨s₁, zeros, s₂, hdata, hfill⟩ := hwritten ⟨⟨Bytes.zeros 3000⟩, 3000⟩
  have hstart : unevenHeader.pageSize.toNat ∣ 3000 := by decide
  exact ⟨hlayout, s₁, zeros, s₂, hdata, hfill, hpages _ _ _ _ _ hstart hdata hfill⟩

end AndroidBoot
