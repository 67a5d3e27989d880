import AndroidBoot.Image.Header

/-!
# Writing images

An image is its header and then its regions, each filled up with zeros to a whole number of pages.
Where a page ends follows from the position of the stream, not from the layout.

    the region r of h.layout lies at r.offset in what h.writeImage writes
-/

namespace AndroidBoot

/-- Why an image cannot be written to its end. -/
inductive PackError where
  | header (part : String) (e : StreamError)
  | padding (e : StreamError)
  | region (kind : RegionKind) (e : StreamError)
  | noData (kind : RegionKind)
deriving DecidableEq, Repr

variable {σ : Type} [Sink σ]

/-- Writes a part of an image and zeros up to the next page. -/
def writePages (pageSize : Nat) (failure : StreamError → PackError) (data : Bytes)
    (s : Counted σ) : Except PackError Unit × Counted σ :=
  match s.writeAll data with
  | (.error e, s) => (.error (failure e), s)
  | (.ok (), s) =>
    match s.fillToMultiple pageSize with
    | (.error e, s) => (.error (.padding e), s)
    | (.ok _, s) => (.ok (), s)

/-- Writes regions, one after the other, until there is no data for one. -/
def writeRegionPages (pageSize : Nat) (data : RegionKind → Option Bytes) :
    List Region → Counted σ → Except PackError Unit × Counted σ
  | [], s => (.ok (), s)
  | r :: rest, s =>
    match data r.kind with
    | none => (.error (.noData r.kind), s)
    | some bs =>
      match writePages pageSize (.region r.kind) bs s with
      | (.error e, s) => (.error e, s)
      | (.ok (), s) => writeRegionPages pageSize data rest s

/-- Writes the image of a header and its regions. -/
def ImageHeader.writeImage (h : ImageHeader) (regions : List Region)
    (data : RegionKind → Option Bytes) (s : Counted σ) : Except PackError Unit × Counted σ :=
  match writePages h.pageSize.toNat (.header h.partName) h.encode s with
  | (.error e, s) => (.error e, s)
  | (.ok (), s) => writeRegionPages h.pageSize.toNat data regions s

end AndroidBoot
