import AndroidBoot.Image.Error
import AndroidBoot.Storage.Files

/-!
# Failures of commands

A failed command says what it was about to do, from the outside in, and then what lies below. An
`Action` is a command that may fail; what it wrote and printed before stays.
-/

namespace AndroidBoot.Cli

structure Failure where
  /-- The outermost first. -/
  contexts : List String
  cause : Option Cause
deriving DecidableEq, Repr

namespace Failure

def ofMessage (message : String) : Failure := ⟨[message], none⟩

def ofFault (fault : Fault) : Failure := ⟨[], some (.storage fault)⟩

def ofDocument : Failure := ⟨[], some .document⟩

def ofImage (e : ImageError) : Failure := ⟨[e.message], e.cause?⟩

/-- What went wrong, on one line. -/
def text (e : Failure) : String :=
  ": ".intercalate (e.contexts ++ match e.cause with
    | none => []
    | some (.reason text) => [text]
    | some .document => ["not a valid document"]
    | some (.storage fault) => [fault.message])

/-- The failure with what was being done around it. -/
def within (context : String) (e : Failure) : Failure :=
  { e with contexts := context :: e.contexts }

end Failure

abbrev Action (m : Type → Type) := ExceptT Failure m

variable {m : Type → Type} [Monad m]

/-- Goes on with a result, or fails with an error seen as a failure. -/
def Action.ofExcept {ε α : Type} (failure : ε → Failure) (r : Except ε α) : Action m α :=
  ExceptT.mk (pure (r.mapError failure))

/-- Runs an operation that may fail. -/
def Action.attempt {ε α : Type} (failure : ε → Failure) (x : m (Except ε α)) : Action m α := do
  Action.ofExcept failure (← (x : m (Except ε α)))

/-- The content of a file that has to be there. -/
def readFile [Files m] (context name : String) : Action m Bytes :=
  Action.attempt (fun fault => (Failure.ofFault fault.fault).within context) (Files.read name)

/-- Writes a file. -/
def writeFile [Files m] (context name : String) (data : Bytes) : Action m Unit :=
  Action.attempt (fun fault => (Failure.ofFault fault).within context) (Files.write name data)

/-- Prints a text. -/
def print [Files m] (text : String) : Action m Unit := ExceptT.lift (Files.print text)

end AndroidBoot.Cli
