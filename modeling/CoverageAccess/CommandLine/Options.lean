import CoverageAccess.CommandLine.Environment
/-!
# Options

The arguments of the command line. Exactly one of four options says what to do. An option is given
at most once; its value stands in the next argument, which must not begin with a minus, or behind an
equals sign, or directly behind a short name.
-/

namespace CoverageAccess

namespace CommandLine

/-- The options with a value. -/
inductive Key where
  | config
  | logLevel
  | request
  | document
  | describe
  | series
  deriving DecidableEq, Repr

/-- The options without a value. -/
inductive Switch where
  | json
  | logJson
  | help
  deriving DecidableEq, Repr

/-- An option, with or without a value. -/
inductive Name where
  | key (k : Key)
  | switch (s : Switch)
  deriving DecidableEq, Repr

/-- The option of a long name. -/
def longName? (s : String) : Option Name :=
  match s with
  | "config" => some (.key .config)
  | "log-level" => some (.key .logLevel)
  | "request" => some (.key .request)
  | "xml" => some (.key .document)
  | "describe" => some (.key .describe)
  | "series" => some (.key .series)
  | "json" => some (.switch .json)
  | "log-json" => some (.switch .logJson)
  | "help" => some (.switch .help)
  | _ => none

/-- The option of a short name. -/
def shortName? (c : Char) : Option Name :=
  match c with
  | 'c' => some (.key .config)
  | 'r' => some (.key .request)
  | 'x' => some (.key .document)
  | 'h' => some (.switch .help)
  | _ => none

/-- The options that have been given so far. -/
structure Given where
  values : List (Key × String)
  switches : List Switch
  deriving DecidableEq, Repr

namespace Given

def nothing : Given := ⟨[], []⟩

def value? (g : Given) (k : Key) : Option String :=
  (g.values.find? fun e => e.1 == k).map Prod.snd

/-- One more option with a value. Paths must not be empty. -/
def addValue (g : Given) (k : Key) (v : String) : Option Given :=
  if (g.value? k).isSome ∨ ((k = .config ∨ k = .document) ∧ v = "") then none
  else some { g with values := g.values ++ [(k, v)] }

def addSwitch (g : Given) (s : Switch) : Option Given :=
  if s ∈ g.switches then none else some { g with switches := g.switches ++ [s] }

end Given

/-- The name in an argument, with the value that stands in the same argument. What stands behind a
short call for help does not count. -/
def split? (argument : List Char) : Option (Name × Option String) :=
  match argument with
  | '-' :: '-' :: s =>
    match Text.cut? (· == '=') s with
    | some (name, value) =>
      (longName? (String.ofList name)).map fun n => (n, some (String.ofList value))
    | none => (longName? (String.ofList s)).map fun n => (n, none)
  | '-' :: c :: s =>
    let value := match s with
      | [] => none
      | '=' :: r => some (String.ofList r)
      | r => some (String.ofList r)
    (shortName? c).map fun n => (n, if n = .switch .help then none else value)
  | _ => none

def isValue (argument : String) : Bool :=
  argument == "-" || !Text.startsWith "-" argument

/-- The options of some arguments, after those that have been given; nothing if the arguments are
wrong. The call for help ends the reading. -/
def given? (g : Given) : List String → Option Given
  | [] => some g
  | ["--"] => some g
  | argument :: r =>
    match split? argument.toList with
    | some (.switch .help, none) => some ⟨g.values, .help :: g.switches⟩
    | some (.switch s, none) => (g.addSwitch s).bind fun g => given? g r
    | some (.key k, some v) => (g.addValue k v).bind fun g => given? g r
    | some (.key k, none) =>
      match r with
      | v :: r => if isValue v then (g.addValue k v).bind fun g => given? g r else none
      | [] => none
    | _ => none

/-- What to do. -/
inductive Task where
  | query (s : String)
  | document (path : String)
  | describe (id : String)
  | series (id : String)
  deriving DecidableEq, Repr

/-- What the command line asks for. -/
structure Options where
  config : String
  task : Task
  json : Bool
  deriving DecidableEq, Repr

/-- The tasks that have been given. -/
def Given.tasks (g : Given) : List Task :=
  g.values.filterMap fun e =>
    match e.1 with
    | .request => some (.query e.2)
    | .document => some (.document e.2)
    | .describe => some (.describe e.2)
    | .series => some (.series e.2)
    | .config | .logLevel => none

/-- The path of the settings: given, or from the environment, or the one there always is. -/
def Given.config? (g : Given) (e : Environment) : Option String :=
  match g.value? .config, e.get? "WCS_CONFIG" with
  | some path, _ => some path
  | none, some path => if path = "" then none else some path
  | none, none => some "config/gateway.yaml"

/-- The environment says nothing wrong about the form of the log. -/
def Given.logFits (g : Given) (e : Environment) : Bool :=
  match e.get? "WCS_LOG_JSON" with
  | none | some "true" | some "false" => true
  | some _ => g.switches.contains .logJson

/-- What the given options and the environment ask for; nothing if that is wrong. -/
def Given.options? (g : Given) (e : Environment) : Option Options :=
  match g.tasks, g.config? e, g.logFits e with
  | [task], some config, true => some { config, task, json := g.switches.contains .json }
  | _, _, _ => none

end CommandLine

end CoverageAccess
