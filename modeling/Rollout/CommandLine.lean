import Rollout.Config.File
import Rollout.Install

/-!
The command line.

Arguments are read from left to right. Options may stand anywhere before `--`, each at most once,
and take their value from behind an equals sign or from the next argument, which then must not look
like an option itself. Four arguments that are no options have to remain. Settings given as options
stand above those of a file, and the file is checked on its own first.
-/
namespace Rollout

/-- The options with a value. -/
inductive Setting where
  | config | name | user | script | launchInterval | stallTimeout
  deriving DecidableEq, Repr

namespace Setting

def all : List Setting := [.config, .name, .user, .script, .launchInterval, .stallTimeout]

/-- The name of an option behind its two dashes. -/
def flag : Setting → String
  | .config => "config"
  | .name => "name"
  | .user => "user"
  | .script => "script"
  | .launchInterval => "launch-interval"
  | .stallTimeout => "stall-timeout"

def ofFlag? (s : String) : Option Setting := all.find? fun t => t.flag == s

end Setting

/-- Why the arguments are not carried out. -/
inductive Dismissal where
  /-- They ask for help. -/
  | help
  | misuse
  deriving DecidableEq, Repr

/-- The exit code of a program that does not carry out its arguments. -/
def Dismissal.exitCode : Dismissal → Nat
  | .help => 0
  | .misuse => 2

namespace CommandLine

/-- What is known from the arguments so far. -/
structure Reading where
  given : List (Setting × String)
  logJson : Bool
  /-- The arguments that are no options. -/
  places : List String
  /-- The option whose value is due. -/
  pending : Option Setting
  /-- Everything from here on is no option. -/
  ended : Bool
  deriving DecidableEq, Repr

def Reading.initial : Reading := ⟨[], false, [], none, false⟩

/-- The count of arguments that are no options. -/
def placeCount : Nat := 4

/-- No value may be due. -/
def settle (r : Reading) : Except Dismissal Unit :=
  if r.pending.isSome then .error .misuse else .ok ()

/-- An option with its value; a path must not be empty. -/
def give (r : Reading) (s : Setting) (value : String) : Except Dismissal Reading :=
  if (r.given.lookup s).isSome || (s = .config && value.isEmpty) then .error .misuse
  else .ok { r with given := r.given ++ [(s, value)], pending := none }

/-- An argument that is no option. -/
def place (r : Reading) (arg : String) : Except Dismissal Reading := do
  settle r
  if r.places.length < placeCount then .ok { r with places := r.places ++ [arg] }
  else .error .misuse

/-- An option behind its two dashes, perhaps with a value. -/
def option (r : Reading) (name : String) (value : Option String) : Except Dismissal Reading := do
  settle r
  match Setting.ofFlag? name, value with
  | some s, some v => give r s v
  | some s, none => return { r with pending := some s }
  | none, none =>
    if name = "help" then throw .help
    else if name = "log-json" && !r.logJson then return { r with logJson := true }
    else throw .misuse
  | none, some _ => throw .misuse

/-- Letters behind a single dash, of which only the one for help is known. -/
def letters (r : Reading) (cs : List Char) : Except Dismissal Reading := do
  settle r
  if cs.head? = some 'h' then throw .help else throw .misuse

/-- One argument. -/
def step (r : Reading) (arg : String) : Except Dismissal Reading :=
  if r.ended then place r arg
  else
    match arg.toList with
    | ['-', '-'] => .ok { r with ended := true }
    | '-' :: '-' :: cs =>
      let name := String.ofList (cs.takeWhile (· != '='))
      match cs.dropWhile (· != '=') with
      | [] => option r name none
      | _ :: value => option r name (some (String.ofList value))
    | '-' :: c :: cs => letters r (c :: cs)
    | _ =>
      match r.pending with
      | some s => give r s arg
      | none => place r arg

end CommandLine

/-- What the arguments ask for. -/
structure Invocation where
  master : String
  payloadUrl : String
  first : String
  second : String
  given : List (Setting × String)
  /-- Logs are wanted as JSON. -/
  logJson : Bool
  deriving DecidableEq, Repr

/-- Settings that were given as options, put in the place of others. -/
def Config.override (c : Config) (given : List (Setting × String)) : Config :=
  let choose (s : Setting) (other : String) : String := (given.lookup s).getD other
  { framework := ⟨choose .name c.framework.name, choose .user c.framework.user⟩
    launch := ⟨choose .launchInterval c.launch.interval, choose .script c.launch.script,
      c.launch.interpreter⟩
    offers := c.offers
    watchdog := ⟨choose .stallTimeout c.watchdog.stallTimeout⟩ }

namespace Invocation

/-- Reads the arguments. -/
def ofArguments (args : List String) : Except Dismissal Invocation := do
  let r ← args.foldlM CommandLine.step .initial
  CommandLine.settle r
  match r.places with
  | [master, url, first, second] => return ⟨master, url, first, second, r.given, r.logJson⟩
  | _ => throw .misuse

/-- The configuration file that was named, if one was. -/
def configPath (i : Invocation) : Option String := i.given.lookup .config

/-- The configuration without the options, with a way to read the text of a file. -/
def base (i : Invocation) (readText : String → Except FileError (List Char)) :
    Except ConfigError Config :=
  match i.configPath with
  | some path => Config.ofFile path (readText path)
  | none => .ok .default

/-- The configuration that the arguments ask for. -/
def config (i : Invocation) (readText : String → Except FileError (List Char)) :
    Except ConfigError Config := do
  ((← i.base readText).override i.given).validated

/-- The payload. -/
def payload (i : Invocation) (c : Config) : Payload :=
  ⟨i.payloadUrl, c.launch.script, c.launch.interpreter, i.first, i.second⟩

end Invocation

/-- How a program ends: its exit code, and what it says if it failed. -/
structure Exit where
  code : Nat
  message : Option String
  deriving DecidableEq, Repr

namespace Exit

def success : Exit := ⟨0, none⟩

/-- A failure; only the first line of what is said counts. -/
def failure (text : String) : Exit :=
  ⟨1, some ("Error: " ++ String.ofList (text.toList.takeWhile (· != '\n')))⟩

def incomplete (p : Progress) : Exit :=
  failure s!"installation incomplete: {p.completed}/{p.known} hosts finished"

/-- The program came down; what is said then is not its own. -/
def broken : Exit := ⟨101, none⟩

/-- How the program ends after an installation. -/
def ofResult : Option (Except InstallError Outcome) → Exit
  | some (.ok (.completed _)) => success
  | some (.ok (.disconnected p)) => incomplete p
  | some (.error e) => failure e.message
  | none => broken

end Exit

/-- Carries out the arguments of the program; also gives the requests to the master. -/
def Invocation.perform (i : Invocation) (readText : String → Except FileError (List Char))
    (taskId : Nat → TaskId) (other : Counterpart) : Exit × List Master.Request :=
  match i.config readText with
  | .error e => (.failure e.message, [])
  | .ok c =>
    let done := Installation.ofConfig i.master c (.ofPayload (i.payload c) taskId) other
    (.ofResult done.result, done.requests)

end Rollout
