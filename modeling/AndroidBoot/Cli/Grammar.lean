import AndroidBoot.Number.Text

/-!
# Command line grammars

A `Command` has options, perhaps operands, and perhaps subcommands. `Command.parse` reads a list of
words by it: options start with one dash and a letter or with two dashes and a name, a value stands
in the same word or in the next, and what stands behind a word `--` is no option.

Each command checks its own options. Those of a parent command that are global may stand behind any
of its subcommands.
-/

namespace AndroidBoot.Cli

inductive UsageError where
  /-- A command that cannot run alone was given nothing. -/
  | nothingGiven
  | missingSubcommand
  | invalidSubcommand
  | missingArgument
  | unknownArgument
  /-- A value is missing, empty or none of the possible ones. -/
  | invalidValue
  /-- A value that is not a number of its type. -/
  | invalidNumber
  /-- A value for an option that takes none. -/
  | unexpectedValue
  /-- An option was given twice. -/
  | repeated
  | helpRequested
  | versionRequested
deriving DecidableEq, Repr

def UsageError.message : UsageError → String
  | nothingGiven | missingSubcommand => "a subcommand is required"
  | invalidSubcommand => "there is no such subcommand"
  | missingArgument => "a required argument is missing"
  | unknownArgument => "there is no such argument"
  | invalidValue => "a value is missing or not possible"
  | invalidNumber => "a value is not a number in its range"
  | unexpectedValue => "an option has a value that it does not take"
  | repeated => "an option is given twice"
  | helpRequested | versionRequested => ""

/-- What an option takes. -/
inductive Taking where
  | nothing
  | text
  /-- A name of a file, which is not empty. -/
  | file
  /-- A natural number below a limit. -/
  | number (limit : Nat)
  /-- A natural number below a limit that may have a sign, as in `-0`. -/
  | signedNumber (limit : Nat)
  | choice (names : List String)
  | help
  | version
deriving DecidableEq, Repr

structure OptionSpec where
  name : String
  letter : Option Char
  taking : Taking
  required : Bool
deriving DecidableEq, Repr

/-- Refuses a value that an option does not take. -/
def Taking.check (taking : Taking) (value : String) : Except UsageError Unit :=
  match taking with
  | file => if value = "" then .error .invalidValue else .ok ()
  | number limit =>
    if (readNat? 10 limit value.toList).isSome then .ok () else .error .invalidNumber
  | signedNumber limit =>
    if (readSignedNat? limit value.toList).isSome then .ok () else .error .invalidNumber
  | choice names => if names.contains value then .ok () else .error .invalidValue
  | nothing | text | help | version => .ok ()

inductive Command where
  | mk (name : String) (options : List OptionSpec) (globals : List OptionSpec) (operands : Bool)
      (subcommands : List Command)

namespace Command

def name : Command → String
  | mk name .. => name

/-- The options of the command itself. -/
def options : Command → List OptionSpec
  | mk _ options .. => options

/-- The options of the command that its subcommands have too. -/
def globals : Command → List OptionSpec
  | mk _ _ globals .. => globals

/-- Whether the command takes operands, of which there has to be one. -/
def operands : Command → Bool
  | mk _ _ _ operands _ => operands

def subcommands : Command → List Command
  | mk _ _ _ _ subcommands => subcommands

/-- The name of the subcommand that every command with subcommands has besides. -/
def helpName : String := "help"

/-- Whether a word names a subcommand. -/
def knows (c : Command) (word : String) : Bool :=
  !c.subcommands.isEmpty && (word == helpName || c.subcommands.any (·.name == word))

/-- What asking for help on the subcommand that a list of words leads to ends in. -/
def help : Command → List String → UsageError
  | _, [] => .helpRequested
  | c, word :: words =>
    match c.subcommands.find? (·.name == word) with
    | some sub => sub.help words
    | none => if c.knows word && words.isEmpty then .helpRequested else .invalidSubcommand

end Command

/-- What a list of words says. Of values with one name the first counts. -/
structure Parsed where
  command : List String
  values : List (String × String)
  operands : List String
deriving DecidableEq, Repr

def Parsed.value? (p : Parsed) (name : String) : Option String := p.values.lookup name

def Parsed.has (p : Parsed) (name : String) : Bool := (p.value? name).isSome

/-- What has been read at one command. -/
structure Level where
  values : List (String × String)
  operands : List String
  /-- The option whose value is the next word. -/
  pending : Option OptionSpec
  /-- The last option whose value has not been checked yet. -/
  unchecked : Option (OptionSpec × String)
  /-- Whether a word `--` was read. -/
  operandsOnly : Bool
deriving DecidableEq, Repr

namespace Level

def start : Level := ⟨[], [], none, none, false⟩

/-- Ends the option before the next one: its value has to be there and to be right. -/
def settle (l : Level) : Except UsageError Level := do
  if l.pending.isSome then throw .invalidValue
  match l.unchecked with
  | none => return l
  | some (o, value) =>
    if (l.values.lookup o.name).isSome then throw .repeated
    o.taking.check value
    return { l with values := (o.name, value) :: l.values, unchecked := none }

/-- Adds an option with its value. -/
def give (l : Level) (o : OptionSpec) (value : String) : Except UsageError Level := do
  let l ← l.settle
  match o.taking with
  | .help => throw .helpRequested
  | .version => throw .versionRequested
  | _ => Level.settle { l with unchecked := some (o, value) }

/-- Adds an option whose value is the next word. -/
def await (l : Level) (o : OptionSpec) : Except UsageError Level := do
  let l ← l.settle
  return { l with pending := some o }

def giveOperand (l : Level) (word : String) : Except UsageError Level := do
  let l ← l.settle
  return { l with operands := l.operands ++ [word] }

end Level

def OptionSpec.takesValue (o : OptionSpec) : Bool :=
  match o.taking with
  | .nothing | .help | .version => false
  | _ => true

/-- A word with two dashes: a name and, behind an equals sign, a value. -/
def readLong (options : List OptionSpec) (l : Level) (word : List Char) :
    Except UsageError Level := do
  let name := String.ofList (word.takeWhile (· != '='))
  let some o := options.find? (·.name == name) | throw .unknownArgument
  match word.dropWhile (· != '='), o.takesValue with
  | [], true => l.await o
  | [], false => l.give o ""
  | _ :: value, true => l.give o (String.ofList value)
  | _ :: _, false => throw .unexpectedValue

/-- A word with one dash: letters of options, and behind the first that takes one a value. -/
def readShort (options : List OptionSpec) (l : Level) : List Char → Except UsageError Level
  | [] => return l
  | c :: rest => do
    let some o := options.find? (·.letter == some c) | throw .unknownArgument
    if o.takesValue then
      match rest with
      | [] => l.await o
      | '=' :: value => l.give o (String.ofList value)
      | value => l.give o (String.ofList value)
    else readShort options (← l.give o "") rest

/-- What a finished level says about a command that has no subcommand behind it. -/
def Level.finish (l : Level) (c : Command) (path : List String) : Except UsageError Parsed := do
  let l ← l.settle
  unless c.subcommands.isEmpty do
    throw (if l.values.isEmpty then .nothingGiven else .missingSubcommand)
  for o in c.options do
    if o.required && (l.values.lookup o.name).isNone then throw .missingArgument
  if c.operands && l.operands.isEmpty then throw .missingArgument
  return ⟨path, l.values, l.operands⟩

/-- Reads the words behind a command, whose parents have the options `inherited`. -/
def Command.read (c : Command) (inherited : List OptionSpec) (path : List String) (l : Level) :
    List String → Except UsageError Parsed
  | [] => l.finish c path
  | word :: words => do
    let options := c.options ++ c.globals ++ inherited
    let operand (l : Level) : Except UsageError Parsed := do
      if !c.operands then
        throw (if c.subcommands.isEmpty || (l.operandsOnly && c.knows word) then .unknownArgument
          else .invalidSubcommand)
      c.read inherited path (← l.giveOperand word) words
    if l.operandsOnly then operand l
    else match word.toList with
      | ['-', '-'] => c.read inherited path { l with operandsOnly := true } words
      | '-' :: '-' :: rest => c.read inherited path (← readLong options l rest) words
      | '-' :: d :: rest => c.read inherited path (← readShort options l (d :: rest)) words
      | _ =>
        match l.pending with
        | some o =>
          c.read inherited path { l with pending := none, unchecked := some (o, word) } words
        | none =>
          match c.subcommands.find? (·.name == word) with
          | some sub => do
            let inner ← sub.read (c.globals ++ inherited) (path ++ [word]) .start words
            let l ← l.settle
            return { inner with values := inner.values ++ l.values }
          | none =>
            if c.knows word then throw (c.help words)
            operand l

/-- What the words behind the name of a program say. -/
def Command.parse (c : Command) (words : List String) : Except UsageError Parsed :=
  c.read [] [] .start words

end AndroidBoot.Cli
