/-
The command line: which command is to be run, and how.

Arguments are read from left to right.  An argument that begins with two hyphens is a long option,
one that begins with a hyphen is one or more short options in a row, and everything else is a word;
after two hyphens alone all arguments are words.  An option that takes a value finds it in the same
argument or in the next one.  The first thing that is wrong, or that asks for help, decides.
-/
import PermissionLint.Path
import PermissionLint.Report.Format

namespace PermissionLint.Command

/-- The commands. -/
inductive Topic where
  | check
  | listRules
  | init
  /-- Shows help. -/
  | help
  deriving DecidableEq, Repr

/-- The command with a name. -/
def Topic.ofName? : String → Option Topic
  | "check" => some check
  | "list-rules" => some listRules
  | "init" => some init
  | "help" => some help
  | _ => none

/-- The options. -/
inductive Flag where
  | verbose
  | config
  | format
  | rules
  | exclude
  | force
  /-- Asks for help, in short. -/
  | shortHelp
  /-- Asks for help at length. -/
  | longHelp
  | version
  deriving DecidableEq, Repr

namespace Flag

/-- The letter of an option. -/
def letter? : Flag → Option Char
  | verbose => some 'v'
  | config => some 'c'
  | format => some 'f'
  | exclude => some 'e'
  | shortHelp => some 'h'
  | version => some 'V'
  | rules | force | longHelp => none

/-- The long name of an option. -/
def word? : Flag → Option String
  | verbose => some "verbose"
  | config => some "config"
  | format => some "format"
  | rules => some "rules"
  | exclude => some "exclude"
  | force => some "force"
  | longHelp => some "help"
  | version => some "version"
  | shortHelp => none

/-- The option takes a value. -/
def takesValue : Flag → Bool
  | config | format | rules | exclude => true
  | verbose | force | shortHelp | longHelp | version => false

/-- The options before the command. -/
def general : List Flag := [verbose, config, shortHelp, longHelp, version]

/-- The options of a command. -/
def ofTopic : Topic → List Flag
  | .check => [format, verbose, config, rules, exclude, shortHelp, longHelp]
  | .listRules => [verbose, config, shortHelp, longHelp]
  | .init => [force, verbose, config, shortHelp, longHelp]
  | .help => []

end Flag

/-! ## From arguments to tokens -/

/-- What an argument is. -/
inductive Token where
  /-- An option, with its value if it takes one. -/
  | flag (f : Flag) (value : Option String)
  /-- A word; a word after two hyphens is never a command. -/
  | word (text : String) (isBare : Bool)
  /-- Something that is not understood. -/
  | wrong
  deriving DecidableEq, Repr

/-- The value that is written behind an option in the same argument. -/
def attachedValue : List Char → Option String
  | [] => none
  | '=' :: cs => some (String.ofList cs)
  | cs => some (String.ofList cs)

/-- The tokens of short options in a row, and the option that still needs a value. -/
def shortTokens (flags : List Flag) : List Char → List Token × Option Flag
  | [] => ([], none)
  | c :: cs =>
    match flags.find? fun f => f.letter? == some c with
    | none => ([.wrong], none)
    | some f =>
      if f.takesValue then
        match attachedValue cs with
        | some value => ([.flag f (some value)], none)
        | none => ([], some f)
      else
        let (rest, pending) := shortTokens flags cs
        (.flag f none :: rest, pending)

/-- The tokens of a long option without its hyphens, and the option that still needs a value. -/
def longTokens (flags : List Flag) (text : List Char) : List Token × Option Flag :=
  let word := String.ofList (text.takeWhile (· != '='))
  let value := match text.dropWhile (· != '=') with
    | [] => none
    | _ :: cs => some (String.ofList cs)
  match flags.find? fun f => f.word? == some word with
  | none => ([.wrong], none)
  | some f =>
    if f.takesValue then
      match value with
      | some v => ([.flag f (some v)], none)
      | none => ([], some f)
    else if value.isSome then ([.wrong], none)
    else ([.flag f none], none)

/-- The argument can be a word or a value: it is a hyphen alone or does not begin with one. -/
def isPlain (argument : String) : Bool := argument == "-" || argument.toList.head? != some '-'

/-- The tokens of arguments.  An option that still needs a value takes it from the first of them. -/
def tokens (flags : List Flag) : (pending : Option Flag) → List String → List Token
  | none, [] => []
  | some _, [] => [.wrong]
  | some f, argument :: rest =>
    if isPlain argument then .flag f (some argument) :: tokens flags none rest else [.wrong]
  | none, argument :: rest =>
    if argument == "--" then rest.map (.word · false)
    else if isPlain argument then .word argument true :: tokens flags none rest
    else
      let (found, pending) := match argument.toList with
        | '-' :: '-' :: text => longTokens flags text
        | text => shortTokens flags text.tail
      found ++ tokens flags pending rest

/-- The tokens up to the first word that can be a command, and that word with the arguments behind
it. -/
def splitCommand (flags : List Flag) :
    (pending : Option Flag) → List String → List Token × Option (String × List String)
  | none, [] => ([], none)
  | some _, [] => ([.wrong], none)
  | some f, argument :: rest =>
    if isPlain argument then
      let (found, command) := splitCommand flags none rest
      (.flag f (some argument) :: found, command)
    else ([.wrong], none)
  | none, argument :: rest =>
    if argument == "--" then ([.wrong], none)
    else if isPlain argument then ([], some (argument, rest))
    else
      let (first, pending) := match argument.toList with
        | '-' :: '-' :: text => longTokens flags text
        | text => shortTokens flags text.tail
      let (found, command) := splitCommand flags pending rest
      (first ++ found, command)

/-! ## From tokens to settings -/

/-- What has been set. -/
structure Settings where
  verbose : Bool := false
  config : Option Path := none
  format : Option Format := none
  rules : Option String := none
  exclude : List String := []
  force : Bool := false
  path : Option Path := none
  deriving DecidableEq, Repr

/-- Why nothing is run. -/
inductive Refusal where
  /-- Help on a command, or on all of them, is asked for. -/
  | help (topic : Option Topic) (isLong : Bool)
  /-- The version is asked for. -/
  | version
  /-- The arguments are not understood. -/
  | usage
  deriving DecidableEq, Repr

namespace Settings

/-- The settings after an option that takes no value.  No option may be set twice. -/
def setFlag (s : Settings) (topic : Option Topic) : Flag → Except Refusal Settings
  | .verbose => if s.verbose then .error .usage else .ok { s with verbose := true }
  | .force => if s.force then .error .usage else .ok { s with force := true }
  | .shortHelp => .error (.help topic false)
  | .longHelp => .error (.help topic true)
  | .version => .error .version
  | _ => .error .usage

/-- The settings after an option with its value.  Only patterns may be set more than once. -/
def setValue (s : Settings) (value : String) : Flag → Except Refusal Settings
  | .config =>
    if s.config.isSome || value.isEmpty then .error .usage
    else .ok { s with config := some value.toList }
  | .format =>
    match s.format, Format.ofName? value with
    | none, some f => .ok { s with format := some f }
    | _, _ => .error .usage
  | .rules => if s.rules.isSome then .error .usage else .ok { s with rules := some value }
  | .exclude => .ok { s with exclude := s.exclude ++ [value] }
  | _ => .error .usage

/-- The settings after a token. -/
def apply (topic : Option Topic) (s : Settings) : Token → Except Refusal Settings
  | .flag f none => s.setFlag topic f
  | .flag f (some value) => s.setValue value f
  | .word text _ =>
    if topic == some .check && s.path.isNone && !text.isEmpty then
      .ok { s with path := some text.toList }
    else .error .usage
  | .wrong => .error .usage

/-- The settings after tokens. -/
def ofTokens (topic : Option Topic) (ts : List Token) : Except Refusal Settings :=
  ts.foldlM (apply topic) {}

end Settings

/-! ## The command -/

/-- How files are checked. -/
structure CheckOptions where
  /-- What is checked. -/
  path : Path := ['.']
  format : Format := .text
  /-- The names or codes of the rules to run, with commas between them. -/
  rules : Option String := none
  /-- Patterns for files to leave out. -/
  exclude : List String := []
  deriving DecidableEq, Repr

/-- What is to be done. -/
inductive Action where
  | check (options : CheckOptions)
  | listRules
  | init (force : Bool)
  deriving DecidableEq, Repr

/-- A command line that is understood. -/
structure Invocation where
  verbose : Bool := false
  /-- The file with the configuration. -/
  config : Option Path := none
  action : Action
  deriving DecidableEq, Repr

/-- The help that is asked for by the arguments behind the command for help. -/
def helpFor : List String → Refusal
  | [] => .help none true
  | [name] =>
    match Topic.ofName? name with
    | some topic => .help (some topic) true
    | none => .usage
  | _ => .usage

/-- What the settings of a command ask for. -/
def actionOf (topic : Topic) (s : Settings) : Except Refusal Action :=
  match topic with
  | .check =>
    .ok (.check {
      path := s.path.getD ['.']
      format := s.format.getD .text
      rules := s.rules
      exclude := s.exclude })
  | .listRules => .ok .listRules
  | .init => .ok (.init s.force)
  | .help => .error (.help none true)

/-- Reads a command line. -/
def parse (arguments : List String) : Except Refusal Invocation := do
  let (before, command) := splitCommand Flag.general none arguments
  let general ← Settings.ofTokens none before
  match command with
  | none => .error .usage
  | some (name, rest) =>
    match Topic.ofName? name with
    | none => .error .usage
    | some .help => .error (helpFor rest)
    | some topic =>
      let own ← Settings.ofTokens (some topic) (tokens (Flag.ofTopic topic) none rest)
      return {
        verbose := general.verbose || own.verbose
        config := own.config <|> general.config
        action := ← actionOf topic own }

end PermissionLint.Command
