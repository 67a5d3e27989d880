import AndroidBoot.Proofs.Storage.Sinks

/-!
# Streams into new files

A new file takes every byte, so nothing that is written to it fails.

    s.fill n = (n, s followed by n zeros)                                (fill_newFile)
    s.fillToMultiple a = .ok, with padding s.count a zeros behind s      (fillToMultiple_newFile)
-/

namespace AndroidBoot

instance : LawfulSink NewFile where
  write_le _ _ := Nat.le_refl _
  write_nil f := by
    show (0, (⟨f.data ++ []⟩ : NewFile)) = (0, f)
    rw [List.append_nil]
  write_append f bs cs := by
    show ((bs ++ cs).length, (⟨f.data ++ (bs ++ cs)⟩ : NewFile))
      = if bs.length < bs.length then _ else (bs.length + cs.length, ⟨f.data ++ bs ++ cs⟩)
    rw [if_neg (Nat.lt_irrefl _), List.length_append, List.append_assoc]

namespace Counted

/-- The stream with more bytes behind what was written. -/
def followedBy (s : Counted NewFile) (bs : Bytes) : Counted NewFile :=
  ⟨⟨s.buffer.data ++ bs⟩, s.count + bs.length⟩

theorem followedBy_nil (s : Counted NewFile) : s.followedBy [] = s := by
  simp [followedBy]

theorem followedBy_followedBy (s : Counted NewFile) (bs cs : Bytes) :
    (s.followedBy bs).followedBy cs = s.followedBy (bs ++ cs) := by
  simp [followedBy, Nat.add_assoc]

theorem write_newFile (s : Counted NewFile) (bs : Bytes) :
    s.write bs = (bs.length, s.followedBy bs) := rfl

theorem writeAll_newFile (s : Counted NewFile) (bs : Bytes) :
    s.writeAll bs = (.ok (), s.followedBy bs) := by
  rw [writeAll, write_newFile]
  simp

theorem fill_newFile (s : Counted NewFile) (n : Nat) :
    s.fill n = (n, s.followedBy (Bytes.zeros n)) := by
  rw [fill_eq_write, write_newFile, Bytes.length_zeros]

theorem fillToMultiple_newFile (s : Counted NewFile) (a : Nat) :
    s.fillToMultiple a
      = (.ok (padding s.count a), s.followedBy (Bytes.zeros (padding s.count a))) := by
  simp [fillToMultiple, fillExactly, fill_newFile]

end Counted

end AndroidBoot
