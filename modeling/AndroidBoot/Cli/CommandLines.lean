import AndroidBoot.Cli.Failure
import AndroidBoot.Device.Facts

/-!
# Commands on kernel command lines

`assemble` prints the command line and the bootconfig that follow from a file of device facts.
-/

namespace AndroidBoot.Cli

structure AssembleCommand where
  facts : String
  headerVersion : Nat
  rawCmdline : String
  verifiedBootCmdline : Option String
  factoryMode : Option String
  recovery : Bool
  alarmBoot : Bool
  deviceTree : Option String
  bootconfigOutput : Option String
deriving DecidableEq, Repr

variable {m : Type → Type} [Monad m] [Files m]

/-- The facts in a file. -/
def loadFacts (file : String) : Action m DeviceFacts := do
  let failure (e : DeviceFactsError) : Failure :=
    ⟨["Failed to load device facts: " ++ quoteText file, e.message], some e.cause⟩
  let data ← Action.attempt (fun fault => failure (.read file fault.fault)) (Files.read file)
  match Utf8.decode? data with
  | none => throw (failure (.read file .invalidData))
  | some text => Action.ofExcept failure (DeviceFacts.ofDocument text)

/-- What is printed for the finished outputs. -/
def assembledText (a : BootOutputs) : String :=
  "cmdline: " ++ a.cmdline ++ "\n" ++ match a.bootconfig with
    | some b => "bootconfig (" ++ toString a.bootconfigSize ++ " bytes):\n"
      ++ String.ofList (b.toList.dropWhile (· == '\n'))
    | none => ""

def assemble (c : AssembleCommand) : Action m Unit := do
  let facts ← loadFacts c.facts
  let tree ← match c.deviceTree with
    | none => pure none
    | some file => some <$> readFile ("Failed to read device tree: " ++ quoteText file) file
  let a ← Action.ofExcept
    (fun e => (Failure.ofMessage e.message).within "Failed to assemble command line")
    (Assembly.assemble {
      rawCmdline := c.rawCmdline
      factoryMode := c.factoryMode
      recovery := c.recovery
      alarmBoot := c.alarmBoot
      verifiedBootCmdline := c.verifiedBootCmdline
      headerVersion := c.headerVersion
      deviceTree := tree } facts.toView)
  print (assembledText a)
  match c.bootconfigOutput with
  | none => pure ()
  | some file =>
    writeFile ("Failed to open for writing: " ++ quoteText file) file a.bootconfigBytes

end AndroidBoot.Cli
