import AndroidBoot.Cli.Failure
import AndroidBoot.Image.Document
import AndroidBoot.Image.Kernel
import AndroidBoot.Image.Pack
import AndroidBoot.Image.Summary

/-!
# Commands on boot images

`unpack` takes an image apart into a document for its header and a file for each region that is not
empty; `pack` puts them together again. The others show what an image holds.
-/

namespace AndroidBoot.Cli

inductive BootCommand where
  | unpack (input directory : String)
  | pack (output directory : String)
  | info (input : String)
  | layout (input : String)
  | probeKernel (input : String)
deriving DecidableEq, Repr

/-- How a header is shown: not at all, in short or in full. -/
structure HeaderView where
  quiet : Bool
  full : Bool
deriving DecidableEq, Repr

def headerFile (directory : String) : String := joinName directory "header.toml"

def regionFile (directory : String) (kind : RegionKind) : String :=
  joinName directory (kind.name ++ ".img")

variable {m : Type → Type} [Monad m] [Files m]

def HeaderView.show (v : HeaderView) (h : ImageHeader) : Action m Unit :=
  if v.quiet then pure ()
  else print ((if v.full then h.dump else h.summary) ++ "\n")

/-- The part of an image that its kind is found by. -/
def magicPart : String := "Image::magic"

/-- The header of an image in a file. -/
def readHeader (input : String) : Action m ImageHeader := do
  let context := "Failed to read boot image header: " ++ quoteText input
  let data ← Action.attempt
    (fun
      | .opening fault =>
        (Failure.ofFault fault).within ("Failed to open for reading: " ++ quoteText input)
      | .reading fault => (Failure.ofImage (.read magicPart fault)).within context)
    (Files.read input)
  Action.ofExcept (fun e => (Failure.ofImage e).within context) (ImageHeader.decode data)

/-! ## Taking apart -/

def writeHeader (file : String) (h : ImageHeader) : Action m Unit := do
  match h.toDocument.write with
  | none =>
    throw (Failure.ofDocument.within ("Failed to serialize header TOML: " ++ quoteText file))
  | some text =>
    writeFile ("Failed to write header TOML: " ++ quoteText file) file (Utf8.encode text)

/-- Writes the files of the regions, until one does not lie in the image. -/
def writeRegions (directory : String) (image : Bytes) : List Region → Action m Unit
  | [] => pure ()
  | r :: rest => do
    let data ← Action.ofExcept
      (fun e => (Failure.ofImage e).within ("Failed to extract " ++ r.kind.name ++ " region"))
      (r.slice image)
    let file := regionFile directory r.kind
    writeFile ("Failed to write data: " ++ quoteText file) file data
    writeRegions directory image rest

def unpack (v : HeaderView) (input directory : String) : Action m Unit := do
  let image ← readFile ("Failed to read image: " ++ quoteText input) input
  let h ← Action.ofExcept
    (fun e => (Failure.ofImage e).within
      ("Failed to read boot image header: " ++ quoteText input)) (ImageHeader.decode image)
  v.show h
  Action.attempt
    (fun fault => (Failure.ofFault fault).within
      ("Failed to create directory: " ++ quoteText directory)) (Files.makeDirectories directory)
  writeHeader (headerFile directory) h
  writeRegions directory image (← Action.ofExcept Failure.ofImage h.layout)

/-! ## Putting together -/

/-- The header that a document describes. -/
def readHeaderDocument (file : String) : Action m ImageHeader := do
  let context := "Failed to read header TOML: " ++ quoteText file
  match Utf8.decode? (← readFile context file) with
  | none => throw ((Failure.ofFault .invalidData).within context)
  | some text =>
    match ImageHeader.ofDocument? text with
    | none => throw (Failure.ofDocument.within ("Failed to parse header TOML: " ++ quoteText file))
    | some h => return h

/-- The content of the file of a region, which may be missing. -/
def readRegion (file : String) : Action m Bytes :=
  Action.attempt id do
    match ← Files.read file with
    | .ok data => return .ok data
    | .error (.opening .notFound) => return .ok []
    | .error fault =>
      return .error
        ((Failure.ofFault fault.fault).within ("Failed to read data: " ++ quoteText file))

/-- Reads the files of the regions, and sets the sizes in the header to theirs. -/
def readRegions (directory : String) :
    ImageHeader → List RegionKind → Action m (ImageHeader × List (RegionKind × Bytes))
  | h, [] => pure (h, [])
  | h, kind :: kinds => do
    let file := regionFile directory kind
    let data ← readRegion file
    if UInt32.size ≤ data.length then
      throw ((Failure.ofMessage "out of range integral type conversion attempted").within
        ("Region is too large: " ++ quoteText file))
    let h ← Action.ofExcept
      (fun e => (Failure.ofImage e).within ("Failed to set " ++ kind.name ++ " size"))
      (h.resizeRegion kind (UInt32.ofNat data.length))
    let (h, regions) ← readRegions directory h kinds
    return (h, (kind, data) :: regions)

/-- Why an image was not written to its end. -/
def packFailure (output : String) : PackError → Failure
  | .header part e => (Failure.ofImage (.write part e.fault)).within
      ("Failed to write header: " ++ quoteText output)
  | .padding e => Failure.ofFault e.fault
  | .region kind e => (Failure.ofFault e.fault).within
      ("Failed to write " ++ kind.name ++ " region")
  | .noData kind => Failure.ofMessage ("No data for " ++ kind.name ++ " region")

/-- Writes the image; what was written before an error stays in the file. -/
def writeImage (output : String) (h : ImageHeader) (layout : List Region)
    (regions : List (RegionKind × Bytes)) : Action m Unit := do
  let start : Counted NewFile := ⟨⟨[]⟩, 0⟩
  let (r, s) := h.writeImage layout (fun kind => regions.lookup kind) start
  writeFile ("Failed to open for writing: " ++ quoteText output) output s.buffer.data
  Action.ofExcept (packFailure output) r

def pack (v : HeaderView) (output directory : String) : Action m Unit := do
  let h ← readHeaderDocument (headerFile directory)
  let (h, regions) ← readRegions directory h h.regionKinds
  let h ← Action.ofExcept
    (fun e => (Failure.ofImage e).within "Failed to update region offsets") h.withOffsets
  v.show h
  let layout ← Action.ofExcept Failure.ofImage h.layout
  writeImage output h layout regions

/-! ## Showing -/

def info (v : HeaderView) (input : String) : Action m Unit := do v.show (← readHeader input)

/-- The line of a region. -/
def layoutLine (r : Region) : String :=
  r.kind.name ++ " offset=" ++ padRight ' ' 10 (toString r.offset) ++ " size="
    ++ padRight ' ' 10 (toString r.size) ++ " pages=" ++ toString r.pageCount ++ "\n"

def layout (input : String) : Action m Unit := do
  let h ← readHeader input
  print ("Page size: " ++ toString h.pageSize.toNat ++ "\n")
  let regions ← Action.ofExcept Failure.ofImage h.layout
  print (String.join (regions.map layoutLine))

def probeKernel (input : String) : Action m Unit := do
  let data ← readFile ("Failed to read kernel: " ++ quoteText input) input
  print ((KernelArch.ofKernel data).name ++ "\n")

def BootCommand.run (v : HeaderView) : BootCommand → Action m Unit
  | unpack input directory => Cli.unpack v input directory
  | pack output directory => Cli.pack v output directory
  | info input => Cli.info v input
  | layout input => Cli.layout input
  | probeKernel input => Cli.probeKernel input

end AndroidBoot.Cli
