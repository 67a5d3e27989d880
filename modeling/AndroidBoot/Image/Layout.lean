import AndroidBoot.Image.Error
import AndroidBoot.Number.Rounding

/-!
# Layout of an image

The header fills the first pages; every region of non-zero size follows on the next page. Offsets
are refused at `2 ^ 64`.
-/

namespace AndroidBoot.Layout

/-- Places the regions from `offset` on, one after the other, without the empty ones. -/
def place (pageSize : Nat) : Nat → List (RegionKind × UInt32) → Except ImageError (List Region)
  | _, [] => .ok []
  | offset, (kind, size) :: rest =>
    if size = 0 then place pageSize offset rest
    else
      let pageCount := divCeil size.toNat pageSize
      let next := offset + pageCount * pageSize
      if UInt64.size ≤ next then .error (.overflow kind.name)
      else (place pageSize next rest).map (⟨kind, offset, size.toNat, pageCount⟩ :: ·)

/-- The regions of an image with a header of `headerSize` bytes. -/
def compute (headerSize : Nat) (pageSize : UInt32) (sizes : List (RegionKind × UInt32)) :
    Except ImageError (List Region) :=
  if pageSize = 0 then .error .noPageSize
  else match roundUp? 64 headerSize pageSize.toNat with
    | none => .error (.overflow "Layout::header")
    | some start => place pageSize.toNat start sizes

end AndroidBoot.Layout
