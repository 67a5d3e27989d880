import AndroidBoot.Proofs.Bootconfig.Appending

/-!
# The data of an appended region

An addition drops the trailer of the one before, but not the zeros in front of that trailer. So the
data of a region is its parameters, each filled up with zeros to the next multiple of four, and
parameters stand side by side exactly where the ones before end on such a multiple.

    b.take (appendPoint start ps stop) = buf.take start ++ filledUp start ps   (Appended.take_eq)
    filledUp start ps = ps.flatten ++ zeros k  ↔  every p of ps but the last ends aligned
                                                                    (filledUp_eq_flatten_iff)
-/

namespace AndroidBoot.Bootconfig

/-- Parameters one after the other from `start` on, each with the zeros up to the next multiple of
four. -/
def filledUp (start : Nat) : List Bytes → Bytes
  | [] => []
  | p :: ps =>
    p ++ Bytes.zeros (alignedEnd (start + p.length) - (start + p.length))
      ++ filledUp (alignedEnd (start + p.length)) ps

/-- Wherever parameters are followed by others, they end on a multiple of four. -/
def EndAligned (start : Nat) (ps : List Bytes) : Prop :=
  ∀ left right, ps = left ++ right → left ≠ [] → right ≠ [] → 4 ∣ start + left.flatten.length

/-! ## Lemmas -/

theorem alignedEnd_of_dvd {n : Nat} (h : 4 ∣ n) : alignedEnd n = n := by
  have hge := le_alignedEnd n
  have hlt := alignedEnd_lt n
  have hdvd := dvd_alignedEnd n
  omega

theorem length_filledUp_cons (start : Nat) (p : Bytes) (ps : List Bytes) :
    start + (filledUp start (p :: ps)).length
      = alignedEnd (start + p.length) + (filledUp (alignedEnd (start + p.length)) ps).length := by
  have hge := le_alignedEnd (start + p.length)
  simp only [filledUp, Bytes.length_zeros, List.length_append]
  omega

theorem filledUp_append (start : Nat) (ps qs : List Bytes) :
    filledUp start (ps ++ qs)
      = filledUp start ps ++ filledUp (start + (filledUp start ps).length) qs := by
  induction ps generalizing start with
  | nil => simp [filledUp]
  | cons p ps ih =>
    rw [length_filledUp_cons, List.cons_append, filledUp, ih, filledUp]
    simp only [List.append_assoc]

/-- At most three zeros follow the last parameters. -/
theorem filledUp_singleton (start : Nat) (p : Bytes) :
    ∃ k ≤ 3, filledUp start [p] = p ++ Bytes.zeros k := by
  have hlt := alignedEnd_lt (start + p.length)
  refine ⟨alignedEnd (start + p.length) - (start + p.length), by omega, ?_⟩
  rw [filledUp, filledUp, List.append_nil]

theorem EndAligned.tail {start : Nat} {p : Bytes} {ps : List Bytes}
    (h : EndAligned start (p :: ps)) : EndAligned (start + p.length) ps := by
  intro left right hps hleft hright
  have := h (p :: left) right (by rw [hps, List.cons_append]) (by simp) hright
  rwa [List.flatten_cons, List.length_append, ← Nat.add_assoc] at this

theorem endAligned_nil (start : Nat) : EndAligned start [] := by
  intro left right hnil hleft
  exact absurd (List.append_eq_nil_iff.1 hnil.symm).1 hleft

theorem EndAligned.cons {start : Nat} {p : Bytes} {ps : List Bytes}
    (hp : ps ≠ [] → 4 ∣ start + p.length) (h : EndAligned (start + p.length) ps) :
    EndAligned start (p :: ps) := by
  intro left right hps hleft hright
  cases left with
  | nil => exact absurd rfl hleft
  | cons q left =>
    rw [List.cons_append] at hps
    cases hps
    rw [List.flatten_cons, List.length_append, ← Nat.add_assoc]
    by_cases hleft : left = []
    · subst hleft
      exact hp hright
    · exact h left right rfl hleft hright

/-- Aligned parameters have zeros behind the last of them only. -/
theorem filledUp_of_endAligned {start : Nat} {ps : List Bytes} (hne : ps ≠ [])
    (h : EndAligned start ps) : ∃ k ≤ 3, filledUp start ps = ps.flatten ++ Bytes.zeros k := by
  induction ps generalizing start with
  | nil => exact absurd rfl hne
  | cons p ps ih =>
    by_cases hps : ps = []
    · subst hps
      obtain ⟨k, hk, heq⟩ := filledUp_singleton start p
      exact ⟨k, hk, by simpa using heq⟩
    · have hp : 4 ∣ start + p.length := by
        simpa using h [p] ps rfl (by simp) hps
      obtain ⟨k, hk, heq⟩ := ih hps h.tail
      refine ⟨k, hk, ?_⟩
      rw [filledUp, alignedEnd_of_dvd hp, heq, Nat.sub_self, Bytes.zeros_zero, List.append_nil,
        List.flatten_cons, List.append_assoc]

/-- Zeros in front of parameters that start with another byte belong to neither side. -/
theorem eq_zero_of_zeros_append {j : Nat} {p rest data : Bytes} (hp : p ≠ []) (hzero : 0 ∉ p)
    (h : Bytes.zeros j ++ rest = p ++ data) : j = 0 := by
  cases j with
  | zero => rfl
  | succ j =>
    obtain ⟨c, p, rfl⟩ := List.exists_cons_of_ne_nil hp
    rw [Bytes.zeros, List.replicate_succ, List.cons_append, List.cons_append] at h
    obtain ⟨rfl, -⟩ := List.cons.inj h
    exact absurd List.mem_cons_self hzero

theorem endAligned_of_filledUp {start k : Nat} {ps : List Bytes}
    (hps : ∀ p ∈ ps, p ≠ [] ∧ 0 ∉ p) (h : filledUp start ps = ps.flatten ++ Bytes.zeros k) :
    EndAligned start ps := by
  induction ps generalizing start with
  | nil => exact endAligned_nil start
  | cons p ps ih =>
    cases ps with
    | nil => exact .cons (fun hne => absurd rfl hne) (endAligned_nil _)
    | cons q qs =>
      obtain ⟨hq, hzero⟩ := hps q (by simp)
      have hge := le_alignedEnd (start + p.length)
      rw [filledUp, List.flatten_cons, List.append_assoc, List.append_assoc,
        List.append_cancel_left_eq] at h
      have hj : alignedEnd (start + p.length) - (start + p.length) = 0 :=
        eq_zero_of_zeros_append hq hzero (by rw [h, List.flatten_cons, List.append_assoc])
      have haligned : alignedEnd (start + p.length) = start + p.length := by omega
      rw [haligned, Nat.sub_self, Bytes.zeros_zero, List.nil_append] at h
      exact .cons (fun _ => haligned ▸ dvd_alignedEnd _)
        (ih (fun r hr => hps r (List.mem_cons_of_mem _ hr)) h)

/-- Parameters stand side by side exactly if none but the last needs zeros behind it. -/
theorem filledUp_eq_flatten_iff {start : Nat} {ps : List Bytes} (hne : ps ≠ [])
    (hps : ∀ p ∈ ps, p ≠ [] ∧ 0 ∉ p) :
    (∃ k ≤ 3, filledUp start ps = ps.flatten ++ Bytes.zeros k) ↔ EndAligned start ps := by
  constructor
  · rintro ⟨k, -, h⟩
    exact endAligned_of_filledUp hps h
  · exact filledUp_of_endAligned hne

/-! ## Runs -/

/-- What stands in front of the trailer once a region is closed. -/
theorem take_closed_eq {buf : Bytes} {start dataEnd trailerStart : Nat}
    (hdata : dataEnd ≤ trailerStart) (hfit : trailerStart + trailerSize ≤ buf.length) :
    (closed buf start dataEnd trailerStart).take trailerStart
      = buf.take dataEnd ++ Bytes.zeros (trailerStart - dataEnd) := by
  have hlen := length_filled hdata hfit
  rw [closed, Bytes.take_overwrite (by omega) (Nat.le_refl _), filled, Bytes.overwrite,
    ← List.append_assoc, List.take_left']
  simp only [Bytes.length_zeros, List.length_append, List.length_take]
  omega

theorem not_addParams_of_outside {b p b' : Bytes} {start size stop : Nat}
    (hout : b.length < start + size) : addParams b start size p ≠ (.ok stop, b') := by
  have herror : ∃ e, paramsPlace b start size p = .error e := by
    unfold paramsPlace
    rw [boundedEnd, if_neg (Nat.not_le.2 hout)]
    by_cases hp : p.isEmpty
    · exact ⟨.noParams, by rw [if_pos hp]; rfl⟩
    by_cases hb : b.isEmpty
    · exact ⟨.noBuffer, by rw [if_neg hp, if_pos hb]; rfl⟩
    · exact ⟨_, by rw [if_neg hp, if_neg hb]; rfl⟩
  obtain ⟨e, he⟩ := herror
  rw [addParams, he]
  intro hok
  cases hok

/-- What an addition that succeeds leaves is the region after it. -/
theorem Appended.next {buf : Bytes} {start : Nat} {ps : List Bytes} {stop stop' : Nat} {b p : Bytes}
    (h : Appended buf start ps stop b) (hok : (addParams b start (stop - start) p).1 = .ok stop') :
    Appended buf start (ps ++ [p]) stop' (addParams b start (stop - start) p).2 :=
  .add h (Prod.ext hok rfl)

theorem Appended.nil_eq {buf : Bytes} {start stop : Nat} {b : Bytes}
    (h : Appended buf start [] stop b) : stop = start ∧ b = buf := by
  generalize hps : [] = ps at h
  cases h with
  | none => exact ⟨rfl, rfl⟩
  | add hprev hok => simp at hps

/-- Something can be added only to a region that starts in the buffer. -/
theorem Appended.start_le {buf : Bytes} {start : Nat} {ps : List Bytes} {stop : Nat} {b : Bytes}
    (h : Appended buf start ps stop b) (hne : ps ≠ []) : start ≤ buf.length := by
  induction h with
  | none => exact absurd rfl hne
  | @add ps stop b p stop' b' hprev hok ih =>
    by_cases hps : ps = []
    · subst hps
      obtain ⟨rfl, rfl⟩ := hprev.nil_eq
      refine Nat.not_lt.1 fun hout => not_addParams_of_outside ?_ hok
      omega
    · exact ih hps

section

variable {buf : Bytes} {start : Nat} {ps : List Bytes} {stop : Nat} {b : Bytes}

/-- One addition puts the parameters and their zeros behind the data that was there. -/
theorem Ready.take_of_addParams {place stop' : Nat} {b' p : Bytes} (h : Ready b start stop place)
    (hp : p ≠ []) (hpmark : mark ∉ p) (hok : addParams b start (stop - start) p = (.ok stop', b')) :
    b'.take (stop' - trailerSize) = b.take place ++ filledUp place [p] := by
  obtain ⟨hfit, -, rfl, rfl⟩ := (h.addParams_eq_ok_iff hp hpmark).1 hok
  have hge := le_alignedEnd (place + p.length)
  have hroom : place + p.length ≤ b.length := by omega
  rw [Nat.add_sub_cancel, take_closed_eq hge (by rw [Bytes.length_overwrite hroom]; exact hfit),
    filledUp, filledUp, List.append_nil, ← List.append_assoc]
  congr 1
  have hlen : (b.take place ++ p).length = place + p.length := by
    rw [List.length_append, List.length_take, Nat.min_eq_left (by omega)]
  rw [Bytes.overwrite, ← List.append_assoc, List.take_left' hlen]

/-- The data that has been added stands behind what was in front of the region. -/
theorem Appended.take_eq (h : Appended buf start ps stop b) (hbuf : mark ∉ buf)
    (hstart : start ≤ buf.length) (hps : ∀ p ∈ ps, p ≠ [] ∧ mark ∉ p) :
    b.take (appendPoint start ps stop) = buf.take start ++ filledUp start ps := by
  induction h with
  | none => rw [appendPoint, if_pos rfl, filledUp, List.append_nil]
  | @add ps stop b p stop' b' hprev hok ih =>
    have hps' : ∀ q ∈ ps, q ≠ [] ∧ mark ∉ q := fun q hq => hps q (List.mem_append_left _ hq)
    obtain ⟨hp, hpmark⟩ := hps p (List.mem_append_right _ List.mem_cons_self)
    obtain ⟨-, hready⟩ := hprev.ready hbuf hstart hps'
    have htake := ih hps'
    have hplace : appendPoint start ps stop = start + (filledUp start ps).length := by
      have hlen := congrArg List.length htake
      have hle := hready.le_length
      rw [List.length_append, List.length_take, List.length_take] at hlen
      omega
    rw [appendPoint, if_neg (by simp), hready.take_of_addParams hp hpmark hok, htake,
      filledUp_append, hplace, List.append_assoc]

/-- The last addition leaves a trailer over everything from `start` on. -/
theorem Appended.verify_eq (h : Appended buf start ps stop b) (hne : ps ≠ []) (hbuf : mark ∉ buf)
    (hps : ∀ p ∈ ps, p ≠ [] ∧ mark ∉ p) :
    ∃ t, verify b stop = .ok t ∧ t.dataStart = start ∧
      t.size.toNat = appendPoint start ps stop - start := by
  have hstart := h.start_le hne
  cases h with
  | none => exact absurd rfl hne
  | @add ps stop b p stop' b' hprev hok =>
    obtain ⟨hp, hpmark⟩ := hps p (List.mem_append_right _ List.mem_cons_self)
    obtain ⟨-, hready⟩ :=
      hprev.ready hbuf hstart fun q hq => hps q (List.mem_append_left _ hq)
    obtain ⟨hfit, hsize, rfl, rfl⟩ := (hready.addParams_eq_ok_iff hp hpmark).1 hok
    have hge := le_alignedEnd (appendPoint start ps stop + p.length)
    have hle := hready.start_le
    have hroom : appendPoint start ps stop + p.length ≤ b.length := by omega
    have hplace : appendPoint start (ps ++ [p])
        (alignedEnd (appendPoint start ps stop + p.length) + trailerSize)
          = alignedEnd (appendPoint start ps stop + p.length) := if_neg (by simp)
    refine ⟨_, verify_closed hge (by rwa [Bytes.length_overwrite hroom]) (by omega) hsize, rfl, ?_⟩
    rw [hplace]
    exact UInt32.toNat_ofNat_of_lt' hsize

end

/-- **The data of a region.** After any number of additions the trailer covers the parameters in
order, each followed by the at most three zeros that bring its end to a multiple of four. So they
stand side by side, with zeros behind the last of them only, exactly if all but the last end there
by themselves. -/
theorem data_of_appended {buf : Bytes} {start : Nat} {ps : List Bytes} {stop : Nat} {b : Bytes}
    (hbuf : mark ∉ buf) (hne : ps ≠ []) (hps : ∀ p ∈ ps, p ≠ [] ∧ mark ∉ p ∧ 0 ∉ p)
    (h : Appended buf start ps stop b) :
    ∃ t, verify b stop = .ok t ∧ t.dataStart = start ∧
      Bytes.slice? b t.dataStart (t.dataStart + t.size.toNat) = some (filledUp start ps) ∧
      ((∃ k ≤ 3, filledUp start ps = ps.flatten ++ Bytes.zeros k) ↔ EndAligned start ps) := by
  have hmarks : ∀ p ∈ ps, p ≠ [] ∧ mark ∉ p := fun p hp => ⟨(hps p hp).1, (hps p hp).2.1⟩
  have hzeros : ∀ p ∈ ps, p ≠ [] ∧ 0 ∉ p := fun p hp => ⟨(hps p hp).1, (hps p hp).2.2⟩
  have hstart := h.start_le hne
  obtain ⟨-, hready⟩ := h.ready hbuf hstart hmarks
  obtain ⟨t, ht, hdata, hsize⟩ := h.verify_eq hne hbuf hmarks
  refine ⟨t, ht, hdata, ?_, filledUp_eq_flatten_iff hne hzeros⟩
  have hle := hready.start_le
  have hstop : start + t.size.toNat = appendPoint start ps stop := by omega
  rw [hdata, hstop, Bytes.slice?_eq_some_iff]
  refine ⟨hle, hready.le_length, ?_⟩
  rw [← List.drop_take, h.take_eq hbuf hstart hmarks, List.drop_left']
  rw [List.length_take, Nat.min_eq_left hstart]

/-- `b=2` behind `a=1` in a region at offset 1, where `a=1` ends on a multiple of four. -/
theorem data_of_appended_aligned :
    let b := (addParams (Bytes.zeros 64) 1 0 [0x61, 0x3D, 0x31]).2
    let b' := (addParams b 1 23 [0x62, 0x3D, 0x32]).2
    Appended (Bytes.zeros 64) 1 [[0x61, 0x3D, 0x31], [0x62, 0x3D, 0x32]] 28 b' ∧
    ∃ t, verify b' 28 = .ok t ∧ t.dataStart = 1 ∧
      Bytes.slice? b' t.dataStart (t.dataStart + t.size.toNat)
        = some [0x61, 0x3D, 0x31, 0x62, 0x3D, 0x32, 0] := by
  intro b b'
  have hfirst : (addParams (Bytes.zeros 64) 1 0 [0x61, 0x3D, 0x31]).1 = .ok 24 := by rfl
  have hsecond : (addParams (addParams (Bytes.zeros 64) 1 0 [0x61, 0x3D, 0x31]).2 1 23
      [0x62, 0x3D, 0x32]).1 = .ok 28 := by rfl
  have hrun : Appended (Bytes.zeros 64) 1 [[0x61, 0x3D, 0x31], [0x62, 0x3D, 0x32]] 28 b' :=
    (Appended.none.next hfirst).next hsecond
  refine ⟨hrun, ?_⟩
  obtain ⟨t, ht, hstart, hdata, -⟩ :=
    data_of_appended (by decide) (by decide) (by decide) hrun
  exact ⟨t, ht, hstart, hdata⟩

/-- `b` behind `a` at the start of a buffer: three zeros stand between the two. -/
theorem not_data_of_appended_eq_flatten :
    ¬ ∀ (buf : Bytes) (start : Nat) (ps : List Bytes) (stop : Nat) (b : Bytes),
        mark ∉ buf → ps ≠ [] → (∀ p ∈ ps, p ≠ [] ∧ mark ∉ p ∧ 0 ∉ p) →
        Appended buf start ps stop b →
        ∃ t, verify b stop = .ok t ∧ ∃ k ≤ 3,
          Bytes.slice? b t.dataStart (t.dataStart + t.size.toNat)
            = some (ps.flatten ++ Bytes.zeros k) := by
  intro hall
  have hfirst : (addParams (Bytes.zeros 64) 0 0 [0x61]).1 = .ok 24 := by rfl
  have hsecond : (addParams (addParams (Bytes.zeros 64) 0 0 [0x61]).2 0 24 [0x62]).1
      = .ok 28 := by rfl
  have hrun : Appended (Bytes.zeros 64) 0 [[0x61], [0x62]] 28
      (addParams (addParams (Bytes.zeros 64) 0 0 [0x61]).2 0 24 [0x62]).2 :=
    (Appended.none.next hfirst).next hsecond
  have hverify : verify (addParams (addParams (Bytes.zeros 64) 0 0 [0x61]).2 0 24 [0x62]).2 28
      = .ok ⟨0, 8, 0xc3⟩ := by rfl
  have hslice : Bytes.slice? (addParams (addParams (Bytes.zeros 64) 0 0 [0x61]).2 0 24 [0x62]).2
      0 8 = some [0x61, 0, 0, 0, 0x62, 0, 0, 0] := by rfl
  obtain ⟨t, ht, k, -, hdata⟩ := hall _ _ _ _ _ (by decide) (by decide) (by decide) hrun
  rw [hverify] at ht
  cases ht
  have hsame := hslice.symm.trans hdata
  simp at hsame

end AndroidBoot.Bootconfig
