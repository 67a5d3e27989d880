import AndroidBoot.Cli.BootImages
import AndroidBoot.Cli.Bootconfigs
import AndroidBoot.Cli.CommandLines
import AndroidBoot.Cli.Grammar

/-!
# Invocations

The grammar of the program's command line, and what a list of words asks for.
-/

namespace AndroidBoot.Cli

inductive Invocation where
  | boot (view : HeaderView) (c : BootCommand)
  | bootconfig (c : BootconfigCommand)
  | assemble (c : AssembleCommand)
  /-- Asks for a script that completes words in a shell. There is none, and nothing is printed. -/
  | completion (shell : String)
deriving DecidableEq, Repr

/-! ## The grammar -/

def helpOption : OptionSpec := ⟨"help", some 'h', .help, false⟩

/-- A command that takes options and nothing else. -/
def leaf (name : String) (options : List OptionSpec) : Command :=
  .mk name (helpOption :: options) [] false []

/-- A command that one of others has to follow. -/
def group (name : String) (options globals : List OptionSpec) (subcommands : List Command) :
    Command :=
  .mk name (helpOption :: options) globals false subcommands

def inputOption : OptionSpec := ⟨"input", some 'i', .file, true⟩

def bootGrammar : Command :=
  group "boot" []
    [⟨"quiet", some 'q', .nothing, false⟩, ⟨"debug", some 'd', .nothing, false⟩]
    [leaf "unpack" [inputOption, ⟨"output-dir", some 'o', .file, false⟩],
      leaf "pack" [⟨"output", some 'o', .file, true⟩, ⟨"input-dir", some 'i', .file, false⟩],
      leaf "info" [inputOption],
      leaf "layout" [inputOption],
      leaf "probe-kernel" [inputOption]]

/-- The options that say where a region lies and where the result goes. -/
def spotOptions : List OptionSpec :=
  [inputOption, ⟨"output", some 'o', .file, false⟩, ⟨"start", none, .number UInt64.size, false⟩,
    ⟨"size", none, .number UInt64.size, true⟩]

def bootconfigGrammar : Command :=
  group "bootconfig" [] []
    [.mk "append" (helpOption :: spotOptions) [] true [],
      leaf "trailer" spotOptions,
      leaf "check" [inputOption, ⟨"end", none, .number UInt64.size, false⟩]]

def cmdlineGrammar : Command :=
  group "cmdline" [] []
    [leaf "assemble" [⟨"facts", some 'f', .file, true⟩,
      ⟨"header-version", none, .signedNumber UInt32.size, true⟩,
      ⟨"raw-cmdline", none, .text, false⟩,
      ⟨"vb-cmdline", none, .text, false⟩,
      ⟨"ffbm", none, .text, false⟩,
      ⟨"recovery", none, .nothing, false⟩,
      ⟨"alarm-boot", none, .nothing, false⟩,
      ⟨"device-tree", none, .file, false⟩,
      ⟨"output-bootconfig", none, .file, false⟩]]

def completionGrammar : Command :=
  leaf "completion"
    [⟨"shell", some 's', .choice ["bash", "elvish", "fish", "powershell", "zsh"], true⟩]

/-- The levels and the formats of the log, which this program does not write. -/
def logOptions : List OptionSpec :=
  [⟨"log-level", none, .choice ["trace", "debug", "info", "warn", "error"], false⟩,
    ⟨"log-format", none, .choice ["short", "medium", "long"], false⟩]

def grammar : Command :=
  group "androidboot" [⟨"version", some 'V', .version, false⟩] logOptions
    [bootGrammar, bootconfigGrammar, cmdlineGrammar, completionGrammar]

/-! ## Reading -/

namespace Parsed

/-- The value of an option that is required or has a default. -/
def text (p : Parsed) (name : String) (default : String := "") : String :=
  (p.value? name).getD default

def number? (p : Parsed) (name : String) : Option Nat :=
  (p.value? name).bind fun value => readNat? 10 UInt64.size value.toList

def number (p : Parsed) (name : String) : Nat := (p.number? name).getD 0

def signedNumber (p : Parsed) (name : String) : Nat :=
  ((p.value? name).bind fun value => readSignedNat? UInt32.size value.toList).getD 0

end Parsed

def RegionSpot.ofParsed (p : Parsed) : RegionSpot where
  input := p.text "input"
  output := p.value? "output"
  start := p.number "start"
  size := p.number "size"

def AssembleCommand.ofParsed (p : Parsed) : AssembleCommand where
  facts := p.text "facts"
  headerVersion := p.signedNumber "header-version"
  rawCmdline := p.text "raw-cmdline"
  verifiedBootCmdline := p.value? "vb-cmdline"
  factoryMode := p.value? "ffbm"
  recovery := p.has "recovery"
  alarmBoot := p.has "alarm-boot"
  deviceTree := p.value? "device-tree"
  bootconfigOutput := p.value? "output-bootconfig"

namespace Invocation

/-- What a list of words asks for, once the grammar has taken it apart. -/
def ofParsed (p : Parsed) : Except UsageError Invocation :=
  let view : HeaderView := ⟨p.has "quiet", p.has "debug"⟩
  match p.command with
  | ["boot", "unpack"] => .ok (.boot view (.unpack (p.text "input") (p.text "output-dir" ".")))
  | ["boot", "pack"] => .ok (.boot view (.pack (p.text "output") (p.text "input-dir" ".")))
  | ["boot", "info"] => .ok (.boot view (.info (p.text "input")))
  | ["boot", "layout"] => .ok (.boot view (.layout (p.text "input")))
  | ["boot", "probe-kernel"] => .ok (.boot view (.probeKernel (p.text "input")))
  | ["bootconfig", "append"] => .ok (.bootconfig (.append (.ofParsed p) p.operands))
  | ["bootconfig", "trailer"] => .ok (.bootconfig (.trailer (.ofParsed p)))
  | ["bootconfig", "check"] => .ok (.bootconfig (.check (p.text "input") (p.number? "end")))
  | ["cmdline", "assemble"] => .ok (.assemble (.ofParsed p))
  | ["completion"] => .ok (.completion (p.text "shell"))
  | _ => .error .missingSubcommand

def ofWords (words : List String) : Except UsageError Invocation := do
  ofParsed (← grammar.parse words)

def run {m : Type → Type} [Monad m] [Files m] : Invocation → Action m Unit
  | boot view c => c.run view
  | bootconfig c => c.run
  | assemble c => Cli.assemble c
  | completion _ => pure ()

end Invocation

end AndroidBoot.Cli
