import BracketLint.Arguments
import BracketLint.CommandLine.Similarity
import BracketLint.Text.PlainText

/-! Reading the command line, and the texts for one that cannot be read. -/

namespace BracketLint.CommandLine

/-- Options that have a long name. -/
inductive Flag where
  | config
  | logLevel
  | help
  | version
  deriving DecidableEq

namespace Flag

def all : List Flag := [config, logLevel, help, version]

def name : Flag → String
  | config => "config"
  | logLevel => "log-level"
  | help => "help"
  | version => "version"

def letter? : Flag → Option Char
  | config => some 'c'
  | logLevel => none
  | help => some 'h'
  | version => some 'V'

def takesValue : Flag → Bool
  | config | logLevel => true
  | help | version => false

/-- The option as it stands in usage lines. -/
def text : Flag → String
  | config => "--config <CONFIG>"
  | logLevel => "--log-level <LOG_LEVEL>"
  | help => "--help"
  | version => "--version"

def ofName? (s : String) : Option Flag := all.find? (·.name == s)

def ofLetter? (c : Char) : Option Flag := all.find? (·.letter? == some c)

end Flag

/-- What is wrong with a command line. -/
inductive Fault where
  /-- An argument with nowhere to go. It could still be given as a value after two dashes, or
  be a slip for another one. The options and the input before it show in the usage line. -/
  | unexpected (argument : String) (asValue : Bool) (similar : Option Flag) (options : List Flag)
      (hasInput : Bool)
  | repeated (option : Flag)
  | missingValue (option : Flag)
  /-- A value for an option that takes none. The usage line depends on whether anything else
  was given before it. -/
  | uselessValue (value : String) (option : Flag) (isFirst : Bool)
  | missingInput (options : List Flag)
  deriving DecidableEq

/-- What a command line asks for. -/
inductive Request where
  | run (arguments : Arguments)
  | help
  | version
  | invalid (fault : Fault)

/-- What is not settled yet: an option, with its value if it has come, or the input. -/
inductive Pending where
  | option (f : Flag) (value : Option String)
  | input (value : String)

/-- What has been read so far. -/
structure Progress where
  input : Option String := none
  config : Option String := none
  logLevel : Option String := none
  /-- Options that were given, in order. -/
  options : List Flag := []
  /-- What was read last, if it has to be settled. -/
  pending : Option Pending := none

namespace Progress

def value? (p : Progress) : Flag → Option String
  | .config => p.config
  | .logLevel => p.logLevel
  | .help | .version => none

def give (p : Progress) (f : Flag) (value : String) : Progress :=
  let p := { p with options := p.options ++ [f], pending := none }
  match f with
  | .config => { p with config := some value }
  | .logLevel => { p with logLevel := some value }
  | .help | .version => p

/-- Settle what is pending. An option needs a value, and may be given only once. -/
def settle (p : Progress) : Except Fault Progress :=
  match p.pending with
  | none => .ok p
  | some (.input value) => .ok { p with input := some value, pending := none }
  | some (.option f none) => .error (.missingValue f)
  | some (.option f (some value)) =>
    match p.value? f with
    | some _ => .error (.repeated f)
    | none => .ok (p.give f value)

def forget (p : Progress) (f : Flag) : Progress :=
  let p := { p with options := p.options.filter (· != f), pending := none }
  match f with
  | .config => { p with config := none }
  | .logLevel => { p with logLevel := none }
  | .help | .version => p

/-- Progress with what is pending settled if it can be. An option that was given before then
counts as not given. -/
def settled (p : Progress) : Progress :=
  match p.settle with
  | .ok q => q
  | .error (.repeated f) => p.forget f
  | .error _ => p

/-- Whether nothing is settled. -/
def isEmpty (p : Progress) : Bool := p.options.isEmpty && p.input.isNone

/-- Whether the input has come, settled or not. -/
def hasInput (p : Progress) : Bool :=
  match p.pending with
  | some (.input _) => true
  | _ => p.input.isSome

/-- Start an option, whose value may be attached. -/
def start (p : Progress) (f : Flag) (attached : Option String) : Except Fault Progress := do
  let p ← p.settle
  let p := { p with pending := some (.option f attached) }
  if attached.isSome then p.settle else return p

end Progress

/-- Whether an argument looks like an option. One dash alone does not. -/
def isDashed (s : String) : Bool := s != "-" && "-".isPrefixOf s

/-- A step either goes on or ends the reading. -/
abbrev Step := Except Request Progress

def orFault : Except Fault Progress → Step
  | .ok p => .ok p
  | .error e => .error (.invalid e)

/-- An option that acts at once, after what is pending is settled. -/
def act (p : Progress) (r : Request) : Step := do
  let _ ← orFault p.settle
  throw r

/-- An option with two dashes, whose value may follow an equals sign. -/
def long (p : Progress) (body : List Char) : Step :=
  let name := String.ofList (body.takeWhile (· != '='))
  let attached := (body.drop name.length).tail?.map String.ofList
  match Flag.ofName? name with
  | none =>
    let q := p.settled
    let similar := (Similarity.closest? name (Flag.all.map Flag.name)).bind Flag.ofName?
    throw (.invalid (.unexpected ("--" ++ name) similar.isNone similar q.options q.input.isSome))
  | some f =>
    if f.takesValue then orFault (p.start f attached)
    else match attached with
      | some value => throw (.invalid (.uselessValue value f p.isEmpty))
      | none => act p (if f = .help then .help else .version)

/-- Options of one letter after one dash. Letters after one that takes a value are its value,
and an equals sign before it does not count. -/
def letters (p : Progress) : List Char → Step
  | [] => .ok p
  | c :: rest =>
    match Flag.ofLetter? c with
    | none => throw (.invalid (.unexpected (String.ofList ['-', c]) true none [] false))
    | some f =>
      if f.takesValue then
        let attached := match rest with
          | [] => none
          | '=' :: value => some (String.ofList value)
          | value => some (String.ofList value)
        orFault (p.start f attached)
      else act p (if f = .help then .help else .version)

/-- A value for the input. There is only one. -/
def positional (p : Progress) (trailing : Bool) (s : String) : Step :=
  if p.hasInput then throw (.invalid (.unexpected s (!trailing && isDashed s) none [] false))
  else do
    let p ← orFault p.settle
    return { p with pending := some (.input s) }

/-- One argument before two dashes alone. -/
def argument (p : Progress) (s : String) : Step :=
  match s.toList, p.pending with
  | '-' :: '-' :: body, _ => long p body
  | '-' :: c :: rest, _ => letters p (c :: rest)
  | _, some (.option f none) => .ok { p with pending := some (.option f (some s)) }
  | _, _ => positional p false s

def finish (p : Progress) : Request :=
  match p.settle with
  | .error e => .invalid e
  | .ok q =>
    match q.input with
    | none => .invalid (.missingInput q.options)
    | some input => .run ⟨input, q.config, q.logLevel.getD "info"⟩

/-- Read the arguments that are left. After two dashes alone, all are values. -/
def readFrom (trailing : Bool) (p : Progress) : List String → Request
  | [] => finish p
  | s :: rest =>
    if !trailing && s == "--" then readFrom true p rest
    else
      match if trailing then positional p true s else argument p s with
      | .ok q => readFrom trailing q rest
      | .error r => r

def read (arguments : List String) : Request := readFrom false {} arguments

namespace Fault

/-- A piece of the command line between quotes. A control sequence in it ends with it. -/
def quote (s : String) : String := "'" ++ PlainText.strip s ++ "'"

/-- The usage line when nothing was given yet, or else with what was given. -/
def usage (options : List Flag) (hasInput : Bool) : String :=
  if options.isEmpty && !hasInput then "Usage: quire [OPTIONS] <INPUT>"
  else "Usage: quire " ++ String.join (options.map fun f => f.text ++ " ") ++ "<INPUT>"

/-- The usage line for an option that takes no value, alone or beside everything else. -/
def plainUsage (f : Flag) (isAlone : Bool) : String :=
  let others := "INPUT" :: ([Flag.config, Flag.logLevel].map Flag.text)
  "Usage: quire " ++ f.text ++ " <" ++ (if isAlone then "INPUT" else "|".intercalate others) ++ ">"

def what : Fault → String
  | unexpected argument .. => "unexpected argument " ++ quote argument ++ " found"
  | repeated f => "the argument " ++ quote f.text ++ " cannot be used multiple times"
  | missingValue f => "a value is required for " ++ quote f.text ++ " but none was supplied"
  | uselessValue value f .. =>
    "unexpected value " ++ quote value ++ " for " ++ quote f.text ++
      " found; no more were expected"
  | missingInput _ => "the following required arguments were not provided:\n  <INPUT>"

/-- The paragraphs between what is wrong and the last line. -/
def hints : Fault → List String
  | unexpected argument asValue similar options hasInput =>
    (match similar with
      | some f => ["  tip: a similar argument exists: " ++ quote ("--" ++ f.name)]
      | none => []) ++
    (if asValue then
      ["  tip: to pass " ++ quote argument ++ " as a value, use " ++ quote ("-- " ++ argument)]
    else []) ++
    [usage (match similar with
      | some f => if options.contains f then options else options ++ [f]
      | none => options) hasInput]
  | repeated _ => [usage [] false]
  | missingValue _ => []
  | uselessValue _ f isFirst => [plainUsage f isFirst]
  | missingInput options => [usage options true]

def message (e : Fault) : String :=
  "error: " ++ e.what ++ "\n\n" ++ String.join (e.hints.map (· ++ "\n\n")) ++
    "For more information, try '--help'.\n"

end Fault

def helpText : String :=
  "Command-line interface for Quire\n\nUsage: quire [OPTIONS] <INPUT>\n\n" ++
  "Arguments:\n  <INPUT>  Path to the input file\n\nOptions:\n" ++
  "  -c, --config <CONFIG>        Path to configuration file (TOML)\n" ++
  "      --log-level <LOG_LEVEL>  Log level (off, error, warn, info, debug, trace) " ++
  "[default: info]\n" ++
  "  -h, --help                   Print help\n  -V, --version                Print version\n"

def versionText : String := "quire-cli 0.1.0\n"

end BracketLint.CommandLine
