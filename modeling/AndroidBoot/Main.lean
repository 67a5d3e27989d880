import AndroidBoot.Cli.Invocation

/-!
# The program

The commands on the files of the system. Failures are described on the error stream.
-/

open AndroidBoot

/-- The cause of an error of the system. -/
def systemFault : IO.Error → Fault
  | .noFileOrDirectory .. => .notFound
  | .alreadyExists .. => .alreadyExists
  | .inappropriateType .. => .isADirectory
  | .invalidArgument .. => .invalidInput
  | e => .other (toString e)

/-- Runs an operation of the system and keeps its fault. -/
def catchFault {α : Type} (x : IO α) : IO (Except Fault α) := do
  match ← x.toBaseIO with
  | .ok a => return .ok a
  | .error e => return .error (systemFault e)

instance : Files IO where
  read name := do
    match ← catchFault (IO.FS.readBinFile name) with
    | .ok data => return .ok data.toList
    | .error .isADirectory => return .error (.reading .isADirectory)
    | .error fault => return .error (.opening fault)
  write name data := catchFault (IO.FS.writeBinFile name (ByteArray.mk data.toArray))
  makeDirectories name := catchFault (IO.FS.createDirAll name)
  print text := IO.print text

def main (words : List String) : IO UInt32 := do
  match Cli.Invocation.ofWords words with
  | .error .helpRequested | .error .versionRequested => return 0
  | .error e =>
    IO.eprintln ("error: " ++ e.message)
    return 2
  | .ok invocation =>
    match ← invocation.run.run with
    | .ok () => return 0
    | .error e =>
      IO.eprintln ("error: " ++ e.text)
      return 1
