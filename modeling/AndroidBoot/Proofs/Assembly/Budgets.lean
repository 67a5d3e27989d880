import Mathlib.Algebra.Order.BigOperators.Group.List
import Mathlib.Algebra.Order.Group.Nat
import Mathlib.Data.List.Perm.Subperm
import AndroidBoot.Proofs.Assembly.Outputs

/-!
# Budgets

A writer may be offered fragments that were never measured, in any order, and again after it refused
one. Whatever it is offered, both outputs stay within the totals, for a fragment that would not fit
is refused; and of what was measured nothing is refused, whatever the order.

    w.write f = .ok (w.add f) if the total allows w.takenWith f, else an error     (write_eq)
    w.Within b → (w.offerAll fs).Within b                                          (Within.offerAll)
    fs.Subperm gs → b.Covers gs → b.Covers fs                                (Covers.of_subperm)
-/

namespace AndroidBoot

open Fragment

/-- What was measured for an output. -/
def OutputBudget.total (b : OutputBudget) : Destination → Nat
  | .cmdline => b.cmdline
  | .bootconfig => b.bootconfig

namespace OutputWriter

/-- What an output would take with a fragment more. -/
def takenWith (w : OutputWriter) (f : Fragment) : Nat :=
  match f.destination with
  | .cmdline => w.cmdline.utf8ByteSize + f.size
  | .bootconfig => w.entriesSize + f.entrySize

/-- The writer with a fragment more, whether the budget holds it or not. -/
def add (w : OutputWriter) (f : Fragment) : OutputWriter :=
  match f.destination with
  | .cmdline => { w with cmdline := w.cmdline ++ f.text }
  | .bootconfig => { w with
      entries := w.entries ++ [bootconfigEntry f.text]
      entriesSize := w.entriesSize + f.entrySize }

/-- The writer after it was offered a fragment, which it may have refused. -/
def offer (w : OutputWriter) (f : Fragment) : OutputWriter :=
  match w.write f with
  | .ok w' => w'
  | .error _ => w

/-- The writer after it was offered fragments, going on after those it refused. -/
def offerAll (w : OutputWriter) (fs : List Fragment) : OutputWriter := fs.foldl offer w

/-- Both outputs are within the budget, and the entries are counted. -/
structure Within (w : OutputWriter) (b : OutputBudget) : Prop where
  budget : w.budget = b
  counted : w.entriesSize = (w.entries.map fun entry => entry.utf8ByteSize + 1).sum
  cmdline : w.cmdline.utf8ByteSize ≤ b.cmdline
  bootconfig : w.entriesSize ≤ b.bootconfig

/-! ## One fragment -/

/-- All that a write does. -/
theorem write_eq (w : OutputWriter) (f : Fragment) :
    w.write f = if w.budget.total f.destination < w.takenWith f then
        .error (.budgetExceeded f.destination (w.takenWith f) (w.budget.total f.destination))
      else .ok (w.add f) := by
  obtain ⟨text, destination⟩ := f
  cases destination <;> rfl

theorem write_eq_error_iff {w : OutputWriter} {f : Fragment} {e : AssemblyError} :
    w.write f = .error e ↔ w.budget.total f.destination < w.takenWith f ∧
      e = .budgetExceeded f.destination (w.takenWith f) (w.budget.total f.destination) := by
  rw [write_eq]
  split
  · next h => simp [h, eq_comm]
  · next h => simp [h]

theorem offer_of_error {w : OutputWriter} {f : Fragment} {e : AssemblyError}
    (h : w.write f = .error e) : w.offer f = w := by
  rw [offer, h]

theorem offer_of_ok {w w' : OutputWriter} {f : Fragment} (h : w.write f = .ok w') :
    w.offer f = w' := by
  rw [offer, h]

theorem Within.add {w : OutputWriter} {b : OutputBudget} {f : Fragment} (h : w.Within b)
    (hfits : w.takenWith f ≤ b.total f.destination) : (w.add f).Within b := by
  obtain ⟨text, destination⟩ := f
  cases destination with
  | cmdline =>
    have hcmdline : (w.cmdline ++ text).utf8ByteSize ≤ b.cmdline := by
      rw [String.utf8ByteSize_append]
      exact hfits
    exact ⟨h.budget, h.counted, hcmdline, h.bootconfig⟩
  | bootconfig =>
    refine ⟨h.budget, ?_, h.cmdline, hfits⟩
    simp only [OutputWriter.add, List.map_append, List.map_singleton, List.sum_append,
      List.sum_singleton, h.counted]
    rfl

/-- Whether it takes the fragment or refuses it, the writer stays within its budget. -/
theorem Within.offer {w : OutputWriter} {b : OutputBudget} (h : w.Within b) (f : Fragment) :
    (w.offer f).Within b := by
  by_cases hfits : w.takenWith f ≤ b.total f.destination
  · have hwrite : w.write f = .ok (w.add f) := by
      rw [write_eq, h.budget, if_neg (Nat.not_lt.2 hfits)]
    rw [offer_of_ok hwrite]
    exact h.add hfits
  · have hwrite := write_eq_error_iff.2 ⟨h.budget ▸ Nat.not_le.1 hfits, rfl⟩
    rwa [offer_of_error hwrite]

/-! ## Any fragments -/

theorem within_ofBudget (b : OutputBudget) : (ofBudget b).Within b :=
  ⟨rfl, rfl, Nat.zero_le _, Nat.zero_le _⟩

theorem Within.offerAll {w : OutputWriter} {b : OutputBudget} (h : w.Within b)
    (fs : List Fragment) : (w.offerAll fs).Within b := by
  induction fs generalizing w with
  | nil => exact h
  | cons f fs ih => exact ih (h.offer f)

/-- Where nothing is refused, offering fragments is writing them. -/
theorem offerAll_of_foldlM {w w' : OutputWriter} {fs : List Fragment}
    (h : fs.foldlM write w = .ok w') : w.offerAll fs = w' := by
  induction fs generalizing w with
  | nil => exact Except.ok.inj h
  | cons f fs ih =>
    rw [List.foldlM_cons] at h
    cases hwrite : w.write f with
    | error e =>
      rw [hwrite] at h
      cases h
    | ok w₁ =>
      rw [hwrite] at h
      show (w.offer f).offerAll fs = w'
      rw [offer_of_ok hwrite]
      exact ih h

/-- A bootconfig takes one byte more than its entries, and has one to take. -/
theorem Within.bootconfig_finish {w : OutputWriter} {b : OutputBudget} (h : w.Within b)
    {text : String} (htext : w.finish.bootconfig = some text) :
    0 < b.bootconfig ∧ text.utf8ByteSize ≤ b.bootconfig + 1 := by
  have hbootconfig := h.bootconfig
  have hcounted := h.counted
  cases hentries : w.entries with
  | nil => simp [finish, hentries] at htext
  | cons entry entries =>
    have hlines : text = "\n" ++ String.join (w.entries.map (· ++ "\n")) := by
      simpa [finish, hentries] using htext.symm
    have hbreak : "\n".utf8ByteSize = 1 := by decide
    have hsize : text.utf8ByteSize = 1 + w.entriesSize := by
      rw [hlines, String.utf8ByteSize_append, utf8ByteSize_lines, hbreak, hcounted]
    have hpos : 0 < w.entriesSize := by
      rw [hcounted, hentries, List.map_cons, List.sum_cons]
      omega
    omega

end OutputWriter

/-! ## Some of what was measured -/

theorem sum_map_le_of_subperm {α : Type} {xs ys : List α} (h : xs.Subperm ys) (size : α → Nat) :
    (xs.map size).sum ≤ (ys.map size).sum := by
  obtain ⟨zs, hperm, hsub⟩ := h
  rw [← (hperm.map size).sum_eq]
  exact (hsub.map size).sum_le_sum fun _ _ => Nat.zero_le _

/-- A budget has room for fewer fragments too, in any order. -/
theorem OutputBudget.Covers.of_subperm {b : OutputBudget} {fs gs : List Fragment}
    (h : fs.Subperm gs) (hb : b.Covers gs) : b.Covers fs where
  cmdline := Nat.le_trans (sum_map_le_of_subperm (h.filter _) size) hb.cmdline
  bootconfig := Nat.le_trans (sum_map_le_of_subperm (h.filter _) entrySize) hb.bootconfig

/-- **The budget bounds any use of the writer.** Whatever fragments a writer was offered, going on
after those it refused, its outputs are within the totals, and the finished ones within what is
reserved for them; a refusal says by how much the total would be passed, and changes nothing. If
all that was offered had been measured, in any order, nothing is refused. -/
theorem OutputWriter.offered_within_budget (measured offered : List Fragment) :
    let b := OutputBudget.ofFragments measured
    let w := (ofBudget b).offerAll offered
    w.cmdline.utf8ByteSize ≤ b.cmdline ∧
    (w.entries.map fun entry => entry.utf8ByteSize + 1).sum ≤ b.bootconfig ∧
    (∀ f e, w.write f = .error e →
      e = .budgetExceeded f.destination (w.takenWith f) (b.total f.destination) ∧
      b.total f.destination < w.takenWith f ∧
      (w.offer f).cmdline = w.cmdline ∧ (w.offer f).entries = w.entries) ∧
    w.finish.cmdline.utf8ByteSize + 1 ≤ b.cmdline + 1 ∧
    (∀ text, w.finish.bootconfig = some text →
      0 < b.bootconfig ∧ text.utf8ByteSize + 1 ≤ b.bootconfig + 4) ∧
    (offered.Subperm measured → offered.foldlM OutputWriter.write (ofBudget b) = .ok w) := by
  intro b w
  have hwithin : w.Within b := (within_ofBudget b).offerAll offered
  refine ⟨hwithin.cmdline, hwithin.counted ▸ hwithin.bootconfig, ?_,
    Nat.succ_le_succ hwithin.cmdline, ?_, ?_⟩
  · intro f e hwrite
    obtain ⟨hpassed, he⟩ := write_eq_error_iff.1 hwrite
    rw [hwithin.budget] at hpassed he
    rw [offer_of_error hwrite]
    exact ⟨he, hpassed, rfl, rfl⟩
  · intro text htext
    obtain ⟨hpos, hsize⟩ := hwithin.bootconfig_finish htext
    exact ⟨hpos, by omega⟩
  · intro hmeasured
    have hcovers : b.Covers offered :=
      .of_subperm hmeasured (OutputBudget.covers_ofFragments measured)
    obtain ⟨w', hw', -⟩ := (holds_ofBudget b).foldlM_write hcovers
    rw [hw', ← offerAll_of_foldlM hw']

/-- A writer that refused ` quiet` still takes the fragment that was measured. -/
example : ((OutputWriter.ofBudget (.ofFragments [plain "ro"])).offerAll
    [plain " quiet", plain "ro"]).cmdline = "ro" := by decide

end AndroidBoot
