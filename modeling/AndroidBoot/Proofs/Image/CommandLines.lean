import Mathlib.Data.List.DropRight
import AndroidBoot.Image.Header

/-!
# Command lines in headers

A field keeps a shorter string with zeros behind it, and trimming drops all zeros at the end, those
of the string too. Up to version 2 a command line goes on in a second field. Each field is trimmed
on its own, so a string without zeros is read back wherever it is cut.

    trimZeros data = t ↔ t does not end in a zero, and data is t and zeros      (trimZeros_eq_iff)
    padTo? n s = some v ↔ v.toList = s ++ zeros (n - s.length)               (padTo?_eq_some_iff)
    h.withCmdline? s = some h' → 0 ∉ s → h'.cmdline = s               (cmdline_of_withCmdline?)
-/

namespace AndroidBoot

namespace Bytes

variable {n : Nat} {data s t : Bytes} {v : Vector UInt8 n}

theorem trimZeros_eq_rdropWhile (data : Bytes) : trimZeros data = data.rdropWhile (· == 0) := rfl

theorem trimZeros_eq_self_iff : trimZeros data = data ↔ data.getLast? ≠ some 0 := by
  rw [trimZeros_eq_rdropWhile, List.rdropWhile_eq_self_iff]
  rcases List.eq_nil_or_concat data with rfl | ⟨front, b, rfl⟩
  · exact iff_of_true (fun hne => absurd rfl hne) nofun
  · simp

theorem getLast?_trimZeros (data : Bytes) : (trimZeros data).getLast? ≠ some 0 :=
  trimZeros_eq_self_iff.1 (List.rdropWhile_idempotent _ data)

theorem trimZeros_of_notMem (h : 0 ∉ data) : trimZeros data = data :=
  trimZeros_eq_self_iff.2 fun hlast => h (List.mem_of_getLast? hlast)

/-- Zeros at the end make no difference. -/
theorem trimZeros_filled (data : Bytes) (k : Nat) :
    trimZeros (data ++ zeros k) = trimZeros data := by
  induction k with
  | zero => rw [zeros_zero, List.append_nil]
  | succ k ih =>
    have hlast : zeros (k + 1) = zeros k ++ [0] := List.replicate_succ'
    rw [hlast, ← List.append_assoc, trimZeros_eq_rdropWhile, List.rdropWhile_concat_pos _ _ _ rfl]
    exact ih

theorem trimZeros_eq_iff :
    trimZeros data = t ↔ t.getLast? ≠ some 0 ∧ ∃ k, data = t ++ zeros k := by
  constructor
  · rintro rfl
    exact ⟨getLast?_trimZeros data, _, (trimZeros_append_zeros data).symm⟩
  · rintro ⟨hlast, k, rfl⟩
    rw [trimZeros_filled, trimZeros_eq_self_iff.2 hlast]

theorem padTo?_eq_some_iff : padTo? n s = some v ↔ v.toList = s ++ zeros (n - s.length) := by
  unfold padTo?
  split
  · next hfits =>
    rw [Option.some_inj, ← Vector.toList_inj, toList_field, resize, List.take_of_length_le hfits,
      eq_comm]
  · next hlong =>
    constructor
    · intro h
      cases h
    · intro h
      have hlength := congrArg List.length h
      rw [Vector.length_toList, List.length_append] at hlength
      omega

theorem isSome_padTo?_iff : (padTo? n s).isSome ↔ s.length ≤ n := by
  unfold padTo?
  split
  · next hfits => exact iff_of_true rfl hfits
  · next hlong => exact iff_of_false nofun hlong

theorem trimZeros_padTo? (h : padTo? n s = some v) : trimZeros v.toList = trimZeros s := by
  rw [padTo?_eq_some_iff.1 h, trimZeros_filled]

theorem getLast?_append_ne (hs : s.getLast? ≠ some 0) (ht : t.getLast? ≠ some 0) :
    (s ++ t).getLast? ≠ some 0 := by
  rw [List.getLast?_append]
  cases hlast : t.getLast? with
  | none => exact hs
  | some b =>
    rw [hlast] at ht
    exact ht

end Bytes

/-! ## Headers with a command line -/

/-- The fields with another command line, cut behind its first 512 bytes. -/
def BootFieldsV0.withCmdline? (base : BootFieldsV0) (s : Bytes) : Option BootFieldsV0 := do
  let cmdline ← Bytes.padTo? 512 (s.take 512)
  let extraCmdline ← Bytes.padTo? 1024 (s.drop 512)
  return { base with cmdline, extraCmdline }

namespace ImageHeader

/-- The header with another command line, if its fields hold it. -/
def withCmdline? (h : ImageHeader) (s : Bytes) : Option ImageHeader :=
  match h with
  | boot (.v0 base) => (base.withCmdline? s).map fun base => boot (.v0 base)
  | boot (.v1 base e1) => (base.withCmdline? s).map fun base => boot (.v1 base e1)
  | boot (.v2 base e1 e2) => (base.withCmdline? s).map fun base => boot (.v2 base e1 e2)
  | boot (.v3 base) =>
    (Bytes.padTo? 1536 s).map fun cmdline => boot (.v3 { base with cmdline })
  | boot (.v4 base e4) =>
    (Bytes.padTo? 1536 s).map fun cmdline => boot (.v4 { base with cmdline } e4)
  | vendor (.v3 base) =>
    (Bytes.padTo? 2048 s).map fun cmdline => vendor (.v3 { base with cmdline })
  | vendor (.v4 base e4) =>
    (Bytes.padTo? 2048 s).map fun cmdline => vendor (.v4 { base with cmdline } e4)

/-- How long a command line the fields hold. -/
def cmdlineCapacity : ImageHeader → Nat
  | boot _ => 1536
  | vendor _ => 2048

end ImageHeader

section

variable {s : Bytes}

theorem BootFieldsV0.withCmdline?_eq_some_iff {base base' : BootFieldsV0} :
    base.withCmdline? s = some base' ↔ ∃ cmdline extraCmdline,
      Bytes.padTo? 512 (s.take 512) = some cmdline ∧
      Bytes.padTo? 1024 (s.drop 512) = some extraCmdline ∧
      { base with cmdline, extraCmdline } = base' := by
  simp only [withCmdline?, Option.bind_eq_bind, Option.bind_eq_some_iff, Option.pure_def,
    Option.some_inj, exists_and_left]

theorem BootFieldsV0.isSome_withCmdline?_iff {base : BootFieldsV0} :
    (base.withCmdline? s).isSome ↔ s.length ≤ 1536 := by
  have hfirst : (Bytes.padTo? 512 (s.take 512)).isSome :=
    Bytes.isSome_padTo?_iff.2 (List.length_take_le 512 s)
  have hrest : (Bytes.padTo? 1024 (s.drop 512)).isSome ↔ s.length ≤ 1536 := by
    rw [Bytes.isSome_padTo?_iff, List.length_drop]
    omega
  rw [← hrest]
  simp only [Option.isSome_iff_exists, withCmdline?_eq_some_iff] at hfirst ⊢
  obtain ⟨cmdline, hcmdline⟩ := hfirst
  constructor
  · rintro ⟨_, _, extraCmdline, -, hextra, -⟩
    exact ⟨extraCmdline, hextra⟩
  · rintro ⟨extraCmdline, hextra⟩
    exact ⟨_, cmdline, extraCmdline, hcmdline, hextra, rfl⟩

/-- Neither part ends in a zero, so that nothing is lost where the string was cut. -/
theorem BootFieldsV0.trimZeros_withCmdline? {base base' : BootFieldsV0}
    (h : base.withCmdline? s = some base') (hs : 0 ∉ s) :
    Bytes.trimZeros base'.cmdline.toList ++ Bytes.trimZeros base'.extraCmdline.toList = s := by
  obtain ⟨cmdline, extraCmdline, hfirst, hextra, rfl⟩ := withCmdline?_eq_some_iff.1 h
  rw [Bytes.trimZeros_padTo? hfirst, Bytes.trimZeros_padTo? hextra,
    Bytes.trimZeros_of_notMem (mt List.mem_of_mem_take hs),
    Bytes.trimZeros_of_notMem (mt List.mem_of_mem_drop hs), List.take_append_drop]

end

namespace ImageHeader

variable {h h' : ImageHeader} {s : Bytes}

theorem isSome_withCmdline?_iff : (h.withCmdline? s).isSome ↔ s.length ≤ h.cmdlineCapacity := by
  rcases h with (_ | _ | _ | _ | _) | (_ | _) <;>
    simp only [withCmdline?, cmdlineCapacity, Option.isSome_map,
      BootFieldsV0.isSome_withCmdline?_iff, Bytes.isSome_padTo?_iff]

theorem cmdline_of_withCmdline? (hh : h.withCmdline? s = some h') (hs : 0 ∉ s) :
    h'.cmdline = s := by
  rcases h with (base | ⟨base, e1⟩ | ⟨base, e1, e2⟩ | base | ⟨base, e4⟩) | (base | ⟨base, e4⟩)
  -- Two fields up to version 2, and one from then on.
  iterate 3
    · obtain ⟨base', hbase, rfl⟩ := Option.map_eq_some_iff.1 hh
      exact BootFieldsV0.trimZeros_withCmdline? hbase hs
  all_goals
    obtain ⟨cmdline, hcmdline, rfl⟩ := Option.map_eq_some_iff.1 hh
    exact (Bytes.trimZeros_padTo? hcmdline).trans (Bytes.trimZeros_of_notMem hs)

theorem getLast?_cmdline (h : ImageHeader) : h.cmdline.getLast? ≠ some 0 := by
  rcases h with (base | ⟨base, e1⟩ | ⟨base, e1, e2⟩ | base | ⟨base, e4⟩) | (base | ⟨base, e4⟩)
  iterate 3
    · exact Bytes.getLast?_append_ne (Bytes.getLast?_trimZeros _) (Bytes.getLast?_trimZeros _)
  all_goals exact Bytes.getLast?_trimZeros _

/-- **Zero padding.** A field is filled up again from what is left when it is trimmed. A string is
refused exactly if it is too long for a field, and else the field is the string and zeros, and
trimming it drops these and the zeros at the end of the string. A command line without zeros that
the fields of a header hold is read back from them, over two fields as over one, and no command line
ends in a zero. -/
theorem cmdline_inverse :
    (∀ (n : Nat) (v : Vector UInt8 n), Bytes.padTo? n (Bytes.trimZeros v.toList) = some v) ∧
    (∀ (n : Nat) (s : Bytes), Bytes.padTo? n s = none ↔ n < s.length) ∧
    (∀ (n : Nat) (s : Bytes) (v : Vector UInt8 n), Bytes.padTo? n s = some v →
      v.toList = s ++ Bytes.zeros (n - s.length) ∧
      (Bytes.trimZeros v.toList).getLast? ≠ some 0 ∧
      ∃ k, s = Bytes.trimZeros v.toList ++ Bytes.zeros k) ∧
    (∀ (h : ImageHeader) (s : Bytes), 0 ∉ s → s.length ≤ h.cmdlineCapacity →
      ∃ h', h.withCmdline? s = some h' ∧ h'.cmdline = s) ∧
    ∀ h : ImageHeader, h.cmdline.getLast? ≠ some 0 := by
  refine ⟨fun n v => Bytes.padTo?_trimZeros v, fun n s => Bytes.padTo?_eq_none_iff,
    fun n s v hv => ?_, fun h s hs hlength => ?_, getLast?_cmdline⟩
  · have htrim := (Bytes.trimZeros_padTo? hv).symm
    exact ⟨Bytes.padTo?_eq_some_iff.1 hv, Bytes.trimZeros_eq_iff.1 htrim⟩
  · obtain ⟨h', hh⟩ := Option.isSome_iff_exists.1 (isSome_withCmdline?_iff.2 hlength)
    exact ⟨h', hh, cmdline_of_withCmdline? hh hs⟩

/-- A version 1 header with neither regions nor a command line. -/
def blankHeader : ImageHeader :=
  .boot (.v1 ⟨0, 0, 0, 0, 0, 0, 0, 2048, 0, .replicate 16 0, .replicate 512 0, .replicate 8 0,
    .replicate 1024 0⟩ ⟨0, 0, 1648⟩)

/-- A command line that goes on behind the first field by one byte. -/
theorem cmdline_inverse_seam :
    0 ∉ List.replicate 513 (0x61 : UInt8) ∧
    (List.replicate 513 (0x61 : UInt8)).length ≤ blankHeader.cmdlineCapacity ∧
    ∃ h', blankHeader.withCmdline? (List.replicate 513 0x61) = some h' ∧
      h'.cmdline = List.replicate 513 0x61 := by
  have hzero : 0 ∉ List.replicate 513 (0x61 : UInt8) := by
    rw [List.mem_replicate]
    decide
  have hlength : (List.replicate 513 (0x61 : UInt8)).length ≤ blankHeader.cmdlineCapacity := by
    rw [List.length_replicate]
    decide
  exact ⟨hzero, hlength, cmdline_inverse.2.2.2.1 blankHeader _ hzero hlength⟩

end ImageHeader

end AndroidBoot
