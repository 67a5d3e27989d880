import AndroidBoot.Bytes.Basic
import AndroidBoot.Number.Rounding
import AndroidBoot.Storage.Fault

/-!
# Output streams

A `FixedBuffer` takes as many bytes as still fit behind its position, a `NewFile` takes every byte.
A `Counted` stream is such a sink with a count of the bytes written through it; the count is the
only position it reports. Zeros are written in chunks, so that filling never needs a string as long
as the gap.

    writing puts a prefix of the bytes at the position and moves it on    (FixedBuffer.write)
    (s.write bs).2.count = s.count + (s.write bs).1                       (count_write)
-/

namespace AndroidBoot

/-- A buffer of fixed size with a position from which on it is written. -/
structure FixedBuffer where
  data : Bytes
  position : Nat
deriving DecidableEq, Repr

namespace FixedBuffer

/-- A buffer of `size` bytes that all are `fill`, to be written from its start on. -/
def filled (size : Nat) (fill : UInt8) : FixedBuffer := ⟨List.replicate size fill, 0⟩

/-- Writes what fits and says how many bytes that were. -/
def write (b : FixedBuffer) (bs : Bytes) : Nat × FixedBuffer :=
  let fitting := bs.take (b.data.length - b.position)
  (fitting.length, ⟨Bytes.overwrite b.data b.position fitting, b.position + fitting.length⟩)

/-- Writes all of `bs`; a fault if not all fits, which leaves what did fit in the buffer. -/
def writeAll (b : FixedBuffer) (bs : Bytes) : Option Fault × FixedBuffer :=
  let (n, b') := b.write bs
  (if n < bs.length then some .writeZero else none, b')

end FixedBuffer

/-- A file that was just made and is written from its start on. -/
structure NewFile where
  data : Bytes
deriving DecidableEq, Repr

def NewFile.write (f : NewFile) (bs : Bytes) : Nat × NewFile := (bs.length, ⟨f.data ++ bs⟩)

/-- What bytes can be written to; `write` says how many of them were taken. -/
class Sink (σ : Type) where
  write : σ → Bytes → Nat × σ

instance : Sink FixedBuffer := ⟨FixedBuffer.write⟩

instance : Sink NewFile := ⟨NewFile.write⟩

/-- A stream that counts what is written through it. -/
structure Counted (σ : Type) where
  buffer : σ
  count : Nat
deriving DecidableEq, Repr

abbrev CountedStream := Counted FixedBuffer

/-- A place to move a stream to. -/
inductive Seek where
  | start (n : Nat)
  | current (n : Int)
  | fromEnd (n : Int)
deriving DecidableEq, Repr

inductive StreamError where
  | bufferFull
  | shortFill (wanted written : Nat)
  | onlyCurrentOffset
deriving DecidableEq, Repr

namespace StreamError

def fault : StreamError → Fault
  | bufferFull => .writeZero
  | shortFill _ _ => .unexpectedEof
  | onlyCurrentOffset => .invalidInput

def message : StreamError → String
  | bufferFull => "failed to write whole buffer"
  | shortFill wanted written =>
    "Expected to write " ++ toString wanted ++ " bytes, but reached EOF after " ++ toString written
      ++ " bytes"
  | onlyCurrentOffset => "Can only report current offset"

end StreamError

def CountedStream.ofBuffer (b : FixedBuffer) : CountedStream := ⟨b, 0⟩

namespace Counted

variable {σ : Type} [Sink σ]

def write (s : Counted σ) (bs : Bytes) : Nat × Counted σ :=
  let (n, b) := Sink.write s.buffer bs
  (n, ⟨b, s.count + n⟩)

def writeAll (s : Counted σ) (bs : Bytes) : Except StreamError Unit × Counted σ :=
  let (n, s') := s.write bs
  (if n < bs.length then .error .bufferFull else .ok (), s')

/-- The current offset; no other place can be asked for. -/
def seek (s : Counted σ) : Seek → Except StreamError Nat
  | .current 0 => .ok s.count
  | _ => .error .onlyCurrentOffset

/-- The length of the zero strings that a gap is filled with. -/
def chunkSize : Nat := 16384

/-- Writes `size` zeros, or as many as fit, and says how many. -/
def fill (s : Counted σ) (size : Nat) : Nat × Counted σ :=
  if _h : size = 0 then (0, s)
  else
    let chunk := min size chunkSize
    let (n, s') := s.write (Bytes.zeros chunk)
    if n < chunk then (n, s')
    else
      let (m, s'') := fill s' (size - chunk)
      (n + m, s'')
termination_by size
decreasing_by simp only [chunkSize]; omega

/-- Writes `size` zeros; an error if not all fit. -/
def fillExactly (s : Counted σ) (size : Nat) : Except StreamError Unit × Counted σ :=
  let (n, s') := s.fill size
  (if n ≠ size then .error (.shortFill size n) else .ok (), s')

/-- Writes zeros up to the next multiple of `pageSize` and says how many. -/
def fillToMultiple (s : Counted σ) (pageSize : Nat) : Except StreamError Nat × Counted σ :=
  let gap := padding s.count pageSize
  match s.fillExactly gap with
  | (.ok (), s') => (.ok gap, s')
  | (.error e, s') => (.error e, s')

theorem count_write (s : Counted σ) (bs : Bytes) :
    (s.write bs).2.count = s.count + (s.write bs).1 := rfl

end Counted

end AndroidBoot
