import Fleet.Config.Build
import Fleet.Config.Document

/-!
# The command line

Two commands: `run` starts the daemon and `check-config` validates a configuration.  The
words after a command are options, taken from left to right; the first that is wrong, or that
asks for help, ends the reading.
-/

namespace Fleet

namespace CommandLine

/-- What the daemon is run with besides its configuration. -/
structure RunOptions where
  config : String
  port : Option Nat
  dataDir : Option String
  logJson : Bool
  deriving DecidableEq

inductive Command where
  | run (options : RunOptions)
  | checkConfig (config : String)
  deriving DecidableEq

/-- What the words ask for. -/
inductive Invocation where
  | help
  | misuse
  | command (c : Command)
  deriving DecidableEq

/-! ## Options -/

/-- The options that a command has been given so far. -/
structure Given where
  config : Option String
  port : Option Nat
  dataDir : Option String
  logJson : Bool

def Given.none : Given := ⟨.none, .none, .none, false⟩

/-- An option of a command that takes a value: reading it fails if it is given again. -/
abbrev ValueReader := String → Given → Option Given

/-- A path is never empty. -/
def path? (value : String) : Option String := if value = "" then .none else some value

/-- A port, with a sign if it must be. -/
def port? (value : String) : Option Nat :=
  match value.toList with
  | '-' :: rest => (Text.digits? rest).filter (· == 0)
  | cs => Text.unsigned? (Nat.pow 2 16) cs

def readConfig : ValueReader := fun value g =>
  if g.config.isSome then .none else (path? value).map fun v => { g with config := some v }

def readPort : ValueReader := fun value g =>
  if g.port.isSome then .none else (port? value).map fun v => { g with port := some v }

def readDataDir : ValueReader := fun value g =>
  if g.dataDir.isSome then .none else (path? value).map fun v => { g with dataDir := some v }

/-- The options of a command: those with a value by name, and whether logs may be JSON. -/
structure Options where
  valued : List (String × ValueReader)
  logs : Bool

def runOptions : Options :=
  ⟨[("--config", readConfig), ("--port", readPort), ("--data-dir", readDataDir)], true⟩

def checkOptions : Options := ⟨[("--config", readConfig)], false⟩

def Options.reading? (o : Options) (name : String) : Option ValueReader :=
  (o.valued.find? fun v => v.1 == name).map (·.2)

/-- A word with its value after an equals sign. -/
def splitValue? (word : String) : Option (String × String) :=
  let cs := word.toList
  match cs.dropWhile (· != '=') with
  | '=' :: value => some (String.ofList (cs.takeWhile (· != '=')), String.ofList value)
  | _ => .none

/-- A word that looks like an option is no value. -/
def isFlag (word : String) : Bool := word.toList.head? == some '-' && word != "-"

def isHelp (word : String) : Bool := word == "--help" || "-h".toList.isPrefixOf word.toList

/-- Read the options of a command. -/
def readOptions (o : Options) (build : Given → Command) : Given → List String → Invocation
  | g, [] => .command (build g)
  | g, word :: rest =>
    if isHelp word then .help
    else if word = "--" then (if rest.isEmpty then .command (build g) else .misuse)
    else if word = "--log-json" && o.logs then
      if g.logJson then .misuse else readOptions o build { g with logJson := true } rest
    else
      match o.reading? word, rest with
      | some read, value :: rest =>
        if isFlag value then .misuse
        else
          match read value g with
          | some g => readOptions o build g rest
          | .none => .misuse
      | some _, [] => .misuse
      | .none, rest =>
        match splitValue? word with
        | .none => .misuse
        | some (name, value) =>
          match o.reading? name with
          | .none => .misuse
          | some read =>
            match read value g with
            | some g => readOptions o build g rest
            | .none => .misuse

def defaultConfig : String := "flotilla.toml"

def runCommand (g : Given) : Command :=
  .run ⟨g.config.getD defaultConfig, g.port, g.dataDir, g.logJson⟩

def checkCommand (g : Given) : Command := .checkConfig (g.config.getD defaultConfig)

/-- What the words of the command line ask for. -/
def read : List String → Invocation
  | [] => .misuse
  | "run" :: rest => readOptions runOptions runCommand .none rest
  | "check-config" :: rest => readOptions checkOptions checkCommand .none rest
  | ["help"] => .help
  | ["help", command] =>
    if ["run", "check-config", "help"].contains command then .help else .misuse
  | word :: _ => if isHelp word then .help else .misuse

/-! ## Outcomes -/

/-- The file that a command reads. -/
def Command.file : Command → String
  | run options => options.config
  | checkConfig config => config

/-- The exit code and what is printed. -/
structure Outcome where
  code : Nat
  output : Option String
  deriving DecidableEq

def Outcome.failure : Outcome := ⟨1, none⟩

/-- The program ends in a panic. -/
def Outcome.panic : Outcome := ⟨101, none⟩

/-- What a command finds where it runs. -/
structure Surroundings where
  /-- The text of a file, if it can be read. -/
  text : String → Option String
  /-- What a data directory holds. -/
  database : String → DatabaseFile
  /-- The number of events that there is memory for. -/
  room : Nat
  /-- Which ports can be opened. -/
  listens : Nat → Bool

/-- How a daemon ends that is run with a configuration; one that serves ends well when it is
stopped. -/
def RunOptions.outcome (here : Surroundings) (config : Config) (options : RunOptions) : Outcome :=
  match (here.database (options.dataDir.getD config.daemon.dataDir)).openStore with
  | .error _ => .failure
  | .ok store =>
    match config.build here.room store 1 with
    | .error (.noRoom _) => .panic
    | .error _ => .failure
    | .ok _ =>
      if here.listens (options.port.getD config.daemon.port) then ⟨0, none⟩ else .failure

def Command.outcome (here : Surroundings) (c : Command) : Outcome :=
  match here.text c.file with
  | none => .failure
  | some text =>
    match Config.parse text with
    | .error _ => .failure
    | .ok config =>
      match c with
      | checkConfig path =>
        ⟨0, some (path ++ ": ok (" ++ Text.numeral config.sources.length ++ " sources)\n")⟩
      | run options => options.outcome here config

/-- How the words of the command line end. -/
def Invocation.outcome (here : Surroundings) : Invocation → Outcome
  | help => ⟨0, none⟩
  | misuse => ⟨2, none⟩
  | command c => c.outcome here

/-! ## Directories -/

/-- The segments of a path that lead somewhere else. -/
def steps (path : String) : List (List Char) :=
  (path.toList.splitOn '/').filter fun segment => segment != [] && segment != ['.']

/-- Whether a path starts from the root. -/
def isAbsolute (path : String) : Bool := path.toList.head? == some '/'

/-- Whether a path can only lead to a directory. -/
def endsInDirectory (path : String) : Bool :=
  match (path.toList.splitOn '/').getLast? with
  | some segment => segment == [] || segment == ['.'] || segment == ['.', '.']
  | none => true

/-- The text of a file in a directory that holds the files. -/
def fileAt? (files : List (String × String)) (path : String) : Option String :=
  if isAbsolute path || endsInDirectory path then none
  else (files.find? fun f => steps f.1 == steps path).map (·.2)

end CommandLine

end Fleet
