import AndroidBoot.Proofs.Bootconfig.Additions

/-!
# Appending to a region again and again

`Appended buf start ps stop b` says that parameters `ps` were added one after the other to an
empty region at `start`, each time to the region that the time before left. As long as neither the
buffer nor the parameters hold a `#`, every later addition finds the trailer of the one before,
writes over all of it and leaves one trailer.

    every # of b lies in the first nine bytes of its trailer            (Appended.marks)
    room for the trailer → the next addition succeeds                   (addParams_of_appended)
-/

namespace AndroidBoot.Bootconfig

/-- `#`, the first byte of the magic. -/
def mark : UInt8 := 0x23

/-- The region from `start` to `stop` of `b` is what is left of `buf` when `ps` are added one
after the other. -/
inductive Appended (buf : Bytes) (start : Nat) : List Bytes → Nat → Bytes → Prop
  | none : Appended buf start [] start buf
  | add {ps stop b p stop' b'} : Appended buf start ps stop b →
      addParams b start (stop - start) p = (.ok stop', b') →
      Appended buf start (ps ++ [p]) stop' b'

/-- Where the next parameters go: in place of the trailer of those before. -/
def appendPoint (start : Nat) (ps : List Bytes) (stop : Nat) : Nat :=
  if ps = [] then start else stop - trailerSize

/-- Every `#` is one of the first nine bytes of a trailer at `place`, which is then aligned. -/
def MarksWithin (b : Bytes) (place : Nat) : Prop :=
  ∀ i, b[i]? = some mark → place ≤ i ∧ i ≤ place + 8 ∧ 4 ∣ place

/-! ## Lemmas -/

theorem getElem?_of_not_mem {bs : Bytes} (h : mark ∉ bs) (i : Nat) : bs[i]? ≠ some mark :=
  fun hi => h (List.mem_of_getElem? hi)

/-- The magic starts with a `#` and has no other. -/
theorem getElem?_magic_eq_mark_iff (i : Nat) : magic.toList[i]? = some mark ↔ i = 0 := by
  constructor
  · intro h
    have hi : i < 12 := by
      have := (List.getElem?_eq_some_iff.1 h).1
      rwa [magic.length_toList] at this
    revert h
    revert i
    decide
  · rintro rfl
    rfl

theorem mark_of_isClosedAt {b : Bytes} {stop : Nat} (h : isClosedAt b stop = true) :
    b[stop - 12]? = some mark := by
  rw [isClosedAt_iff] at h
  exact h.2.2 0 (by decide)

/-- Where the only marks are those of a trailer, the only magic is its own. -/
theorem MarksWithin.isClosedAt_iff {b : Bytes} {place : Nat} (h : MarksWithin b place)
    (hclosed : isClosedAt b (place + trailerSize) = true) (stop : Nat) :
    isClosedAt b stop = true ↔ stop = place + trailerSize := by
  have h20 : trailerSize = 20 := rfl
  constructor
  · intro hstop
    obtain ⟨hle, hge, -⟩ := h _ (mark_of_isClosedAt hstop)
    obtain ⟨h12, -, hbytes⟩ := Bootconfig.isClosedAt_iff.1 hstop
    by_cases heq : stop = place + trailerSize
    · exact heq
    -- the mark of the trailer would be a later byte of the other magic
    have hmark := mark_of_isClosedAt hclosed
    have hlater := hbytes (place + 20 - stop) (by omega)
    rw [show stop - 12 + (place + 20 - stop) = place + trailerSize - 12 by omega, hmark, eq_comm,
      getElem?_magic_eq_mark_iff] at hlater
    omega
  · rintro rfl
    exact hclosed

section

variable {b p : Bytes} {start place : Nat} (hmarks : MarksWithin b place)
  (hpmark : mark ∉ p) (hroom : place + p.length ≤ b.length)

include hmarks hpmark hroom

/-- Where the marks of the buffer are once the parameters are in place. -/
theorem marks_overwrite {i : Nat} (hi : (Bytes.overwrite b place p)[i]? = some mark) :
    place + p.length ≤ i ∧ i ≤ place + 8 ∧ 4 ∣ place := by
  rw [Bytes.getElem?_overwrite hroom] at hi
  split at hi
  · next hlt => have := hmarks i hi; omega
  split at hi
  · next hlt => exact absurd hi (getElem?_of_not_mem hpmark _)
  · next hge =>
    obtain ⟨-, hle, hdvd⟩ := hmarks i hi
    exact ⟨by omega, hle, hdvd⟩

/-- The remains of an old trailer are not taken for one. -/
theorem not_isClosedAt_overwrite (hp : p ≠ []) :
    isClosedAt (Bytes.overwrite b place p) (alignedEnd (place + p.length)) = false ∧
    isClosedAt (Bytes.overwrite b place p) (alignedEnd (place + p.length) + trailerSize)
      = false := by
  have hpos := List.length_pos_iff.2 hp
  have hge := le_alignedEnd (place + p.length)
  have hlt := alignedEnd_lt (place + p.length)
  have hdvd := dvd_alignedEnd (place + p.length)
  have h20 : trailerSize = 20 := rfl
  constructor
  · rw [← Bool.not_eq_true]
    intro h
    have h1 := marks_overwrite hmarks hpmark hroom (mark_of_isClosedAt h)
    omega
  · rw [← Bool.not_eq_true]
    intro h
    have h1 := marks_overwrite hmarks hpmark hroom (mark_of_isClosedAt h)
    omega

/-- Closing the region leaves the marks of the new trailer only: it reaches beyond the end of an
old one. -/
theorem marksWithin_closed (hp : p ≠ [])
    (hfit : alignedEnd (place + p.length) + trailerSize ≤ b.length) :
    MarksWithin (closed (Bytes.overwrite b place p) start (place + p.length)
      (alignedEnd (place + p.length))) (alignedEnd (place + p.length)) := by
  intro i hi
  have hpos := List.length_pos_iff.2 hp
  have hge := le_alignedEnd (place + p.length)
  have hdvd := dvd_alignedEnd (place + p.length)
  have h20 : trailerSize = 20 := rfl
  have hlen := Bytes.length_overwrite hroom
  rw [getElem?_closed hge (by omega)] at hi
  split at hi
  · next h1 => have := marks_overwrite hmarks hpmark hroom hi; omega
  split at hi
  · cases hi
  split at hi
  · next h1 h2 h3 =>
    refine ⟨by omega, ?_, hdvd⟩
    by_cases h4 : i - alignedEnd (place + p.length) < 8
    · omega
    rw [getElem?_trailerOf _ _ (by omega), getElem?_magic_eq_mark_iff] at hi
    omega
  · next h1 h2 h3 => have := marks_overwrite hmarks hpmark hroom hi; omega

end

/-! ## One addition -/

/-- What every addition starts from: an empty region at `start`, or one whose trailer starts at
`place` and ends at `stop`. -/
structure Ready (b : Bytes) (start stop place : Nat) : Prop where
  start_le : start ≤ place
  le_length : place ≤ b.length
  marks : MarksWithin b place
  ends : stop = start ∧ place = start ∨
    stop = place + trailerSize ∧ isClosedAt b stop = true

theorem Ready.stop_bounds {b : Bytes} {start stop place : Nat} (h : Ready b start stop place) :
    start ≤ stop ∧ stop ≤ b.length := by
  have := h.start_le
  have := h.le_length
  rcases h.ends with ⟨h1, h2⟩ | ⟨h1, h2⟩
  · omega
  · obtain ⟨-, hle, -⟩ := Bootconfig.isClosedAt_iff.1 h2
    omega

theorem Ready.sizeWithoutTrailer_eq {b : Bytes} {start stop place : Nat}
    (h : Ready b start stop place) :
    sizeWithoutTrailer b stop (stop - start) = place - start := by
  have hle := h.start_le
  rw [sizeWithoutTrailer]
  rcases h.ends with ⟨h1, h2⟩ | ⟨h1, h2⟩
  · rw [if_neg (by rintro ⟨h3, -⟩; simp only [trailerSize] at h3; omega)]
    omega
  · rw [if_pos ⟨by omega, h2⟩]
    omega

theorem Ready.paramsStart_eq {b : Bytes} {start stop place : Nat} (h : Ready b start stop place) :
    paramsStart b start (stop - start) = place := by
  obtain ⟨hstart, -⟩ := h.stop_bounds
  rw [paramsStart, Nat.add_sub_cancel' hstart, h.sizeWithoutTrailer_eq,
    Nat.add_sub_cancel' h.start_le]

section

variable {b p : Bytes} {start stop place : Nat} (h : Ready b start stop place) (hp : p ≠ [])

include h hp

theorem Ready.placeable (hroom : place + p.length ≤ b.length) :
    Placeable b start (stop - start) p := by
  obtain ⟨hstart, hstop⟩ := h.stop_bounds
  exact ⟨hp, by omega, by rwa [h.paramsStart_eq]⟩

variable (hpmark : mark ∉ p)

include hpmark

/-- No trailer is ever in the way of an addition. -/
theorem Ready.addParams_ne_alreadyClosed :
    (addParams b start (stop - start) p).1 ≠ .error .alreadyClosed := by
  intro heq
  obtain ⟨hplaceable, hclosed⟩ := isClosedAt_of_addParams_alreadyClosed heq
  have hroom := hplaceable.room
  rw [h.paramsStart_eq] at hroom hclosed
  obtain ⟨h1, h2⟩ := not_isClosedAt_overwrite h.marks hpmark hroom hp
  rw [h1, h2] at hclosed
  exact hclosed.elim nofun nofun

/-- An addition succeeds exactly if there is room for the trailer and the size fits it. -/
theorem Ready.addParams_eq_ok_iff {stop' : Nat} {b' : Bytes} :
    addParams b start (stop - start) p = (.ok stop', b') ↔
      alignedEnd (place + p.length) + trailerSize ≤ b.length ∧
      alignedEnd (place + p.length) - start < UInt32.size ∧
      stop' = alignedEnd (place + p.length) + trailerSize ∧
      b' = closed (Bytes.overwrite b place p) start (place + p.length)
        (alignedEnd (place + p.length)) := by
  have hge := le_alignedEnd (place + p.length)
  have hle := h.start_le
  have hpos := List.length_pos_iff.2 hp
  have hdata : start + (place - start + p.length) = place + p.length := by omega
  refine Bootconfig.addParams_eq_ok_iff.trans ?_
  rw [h.paramsStart_eq]
  constructor
  · rintro ⟨hplaceable, hclosable, hstop, hb⟩
    have hlen := Bytes.length_overwrite hplaceable.room
    rw [h.paramsStart_eq] at hlen
    have hfit := hclosable.room
    have hsize := hclosable.small
    rw [hdata] at hfit hsize
    exact ⟨hlen ▸ hfit, hsize, hstop, hb⟩
  · rintro ⟨hfit, hsize, hstop, hb⟩
    have hroom : place + p.length ≤ b.length := by omega
    have hlen := Bytes.length_overwrite hroom
    obtain ⟨h1, h2⟩ := not_isClosedAt_overwrite h.marks hpmark hroom hp
    rw [← hlen] at hfit
    refine ⟨h.placeable hp hroom, ?_, hstop, hb⟩
    exact
      { buffer := List.length_pos_iff.1 (by omega)
        data := by omega
        inside := by omega
        notBefore := hdata ▸ h1
        notBehind := hdata ▸ h2
        room := hdata ▸ hfit
        small := hdata ▸ hsize }

/-- An addition leaves a region to which more can be added. -/
theorem Ready.of_addParams {stop' : Nat} {b' : Bytes}
    (hok : addParams b start (stop - start) p = (.ok stop', b')) :
    b'.length = b.length ∧ Ready b' start stop' (stop' - trailerSize) := by
  obtain ⟨hfit, hsize, rfl, rfl⟩ := (h.addParams_eq_ok_iff hp hpmark).1 hok
  have hge := le_alignedEnd (place + p.length)
  have hroom : place + p.length ≤ b.length := by omega
  have hlen := Bytes.length_overwrite hroom
  have hlen' : (closed (Bytes.overwrite b place p) start (place + p.length)
      (alignedEnd (place + p.length))).length = b.length := by
    rw [length_closed hge (by omega), hlen]
  refine ⟨hlen', ?_⟩
  rw [Nat.add_sub_cancel]
  exact
    { start_le := by have := h.start_le; omega
      le_length := by omega
      marks := marksWithin_closed h.marks hpmark hroom hp hfit
      ends := .inr ⟨rfl, isClosedAt_closed hge (by omega)⟩ }

end

/-! ## Runs -/

/-- After any number of additions the region is one to which more can be added. -/
theorem Appended.ready {buf : Bytes} {start : Nat} {ps : List Bytes} {stop : Nat} {b : Bytes}
    (h : Appended buf start ps stop b) (hbuf : mark ∉ buf) (hstart : start ≤ buf.length)
    (hps : ∀ p ∈ ps, p ≠ [] ∧ mark ∉ p) :
    b.length = buf.length ∧ Ready b start stop (appendPoint start ps stop) := by
  induction h with
  | none =>
    refine ⟨rfl, ?_⟩
    rw [appendPoint, if_pos rfl]
    exact
      { start_le := Nat.le_refl _
        le_length := hstart
        marks := fun i hi => absurd hi (getElem?_of_not_mem hbuf i)
        ends := .inl ⟨rfl, rfl⟩ }
  | @add ps stop b p stop' b' _ hok ih =>
    obtain ⟨hlen, hready⟩ := ih fun q hq => hps q (List.mem_append_left _ hq)
    obtain ⟨hp, hpmark⟩ := hps p (List.mem_append_right _ List.mem_cons_self)
    obtain ⟨hlen', hready'⟩ := hready.of_addParams hp hpmark hok
    rw [appendPoint, if_neg (by simp)]
    exact ⟨hlen'.trans hlen, hready'⟩

/-- **Additions to one region.** Whatever was added before, no trailer is in the way of the next
addition, and where there is room for the new trailer it succeeds: the trailer covers all the data
from `start` on, the magic stands nowhere else, the parameters stand at the append point and
nothing else changes. -/
theorem addParams_of_appended {buf : Bytes} {start : Nat} {ps : List Bytes} {stop : Nat}
    {b p : Bytes} (hbuf : mark ∉ buf) (hstart : start ≤ buf.length)
    (hps : ∀ q ∈ ps, q ≠ [] ∧ mark ∉ q) (h : Appended buf start ps stop b) (hp : p ≠ [])
    (hpmark : mark ∉ p) :
    let place := appendPoint start ps stop
    let dataEnd := alignedEnd (place + p.length)
    let stop' := dataEnd + trailerSize
    (addParams b start (stop - start) p).1 ≠ .error .alreadyClosed ∧
    (stop' ≤ buf.length → dataEnd - start < UInt32.size →
      ∃ b', addParams b start (stop - start) p = (.ok stop', b') ∧
        (∃ t, verify b' stop' = .ok t ∧ t.dataStart = start ∧
          t.size.toNat = stop' - trailerSize - start) ∧
        stop < stop' ∧
        (∀ e, isClosedAt b' e = true ↔ e = stop') ∧
        Bytes.slice? b' place (place + p.length) = some p ∧
        b'.take place = b.take place ∧ b'.drop stop' = b.drop stop' ∧
        b'.length = b.length) := by
  intro place dataEnd stop'
  obtain ⟨hlen, hready⟩ := h.ready hbuf hstart hps
  refine ⟨hready.addParams_ne_alreadyClosed hp hpmark, fun hfit hsize => ?_⟩
  rw [← hlen] at hfit
  have h20 : trailerSize = 20 := rfl
  have hpos := List.length_pos_iff.2 hp
  have hle : start ≤ place := hready.start_le
  have hge : place + p.length ≤ dataEnd := le_alignedEnd _
  have hroom : place + p.length ≤ b.length := by omega
  have hlen1 := Bytes.length_overwrite hroom
  have hfit1 : dataEnd + trailerSize ≤ (Bytes.overwrite b place p).length := hlen1 ▸ hfit
  have hend : stop ≤ place + trailerSize := by
    rcases hready.ends with ⟨h1, -⟩ | ⟨h1, -⟩ <;> omega
  have hdvd : 4 ∣ dataEnd := dvd_alignedEnd _
  refine ⟨_, (hready.addParams_eq_ok_iff hp hpmark).2 ⟨hfit, hsize, rfl, rfl⟩,
    ⟨_, verify_closed hge hfit1 (by omega) hsize, rfl, ?_⟩, by omega,
    (marksWithin_closed hready.marks hpmark hroom hp hfit).isClosedAt_iff
      (isClosedAt_closed hge hfit1), ?_, ?_, ?_, ?_⟩
  · rw [Nat.add_sub_cancel]
    exact UInt32.toNat_ofNat_of_lt' hsize
  · rw [Bytes.slice?_of_take_eq (Nat.le_refl _) (take_closed hge hfit1 (Nat.le_refl _))
      (length_closed hge hfit1)]
    exact Bytes.slice?_overwrite hroom
  · rw [take_closed hge hfit1 (by omega), Bytes.take_overwrite (by omega) (Nat.le_refl _)]
  · rw [drop_closed hge hfit1 (Nat.le_refl _), Bytes.drop_overwrite hroom (by omega)]
  · rw [length_closed hge hfit1, hlen1]

/-- `b=2` behind `a=1`, in a region that starts at an odd offset: the second trailer covers the
first, of which it starts four bytes further. -/
theorem addParams_of_appended_odd :
    let buf := Bytes.zeros 64
    let b := (addParams buf 1 0 [0x61, 0x3D, 0x31]).2
    Appended buf 1 [[0x61, 0x3D, 0x31]] 24 b ∧
    ∃ b', addParams b 1 23 [0x62, 0x3D, 0x32] = (.ok 28, b') ∧
      (∃ t, verify b' 28 = .ok t ∧ t.dataStart = 1 ∧ t.size.toNat = 7) ∧
      (∀ e, isClosedAt b' e = true ↔ e = 28) ∧
      Bytes.slice? b' 4 7 = some [0x62, 0x3D, 0x32] := by
  intro buf b
  have hfirst : (addParams (Bytes.zeros 64) 1 0 [0x61, 0x3D, 0x31]).1 = .ok 24 := by rfl
  have hrun : Appended buf 1 [[0x61, 0x3D, 0x31]] 24 b := .add .none (Prod.ext hfirst rfl)
  refine ⟨hrun, ?_⟩
  obtain ⟨-, h⟩ := addParams_of_appended (p := [0x62, 0x3D, 0x32]) (by decide) (by decide)
    (by decide) hrun (by decide) (by decide)
  obtain ⟨b', hok, hverify, -, hmagic, hparams, -⟩ := h (by decide) (by decide)
  exact ⟨b', hok, hverify, hmagic, hparams⟩

end AndroidBoot.Bootconfig
