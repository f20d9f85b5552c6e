import Fleet.Files.ReadError
import Fleet.Scenario.File

/-!
The command line: simulating a settings file, checking one before a fleet is run, and writing the
standard settings.
-/
namespace Fleet

inductive Command where
  /-- Take a deployment through its scenario, for a number of ticks or for all of them. -/
  | simulate (file : String) (ticks : Option Nat)
  /-- Run a deployment; its settings are checked first. -/
  | run (file : String)
  | config
  deriving DecidableEq

namespace Command

inductive Verb where
  | simulate
  | run
  | config
  deriving DecidableEq

def Verb.ofName? : String → Option Verb
  | "simulate" => some simulate
  | "run" => some run
  | "config" => some config
  | _ => none

/-- An option with its value, or a switch. -/
inductive Part where
  | json
  | config (file : String)
  | ticks (n : Nat)
  deriving DecidableEq

/-- A 32-bit word, with a sign in front or without. -/
def word? (s : String) : Option Nat :=
  let (negative, digits) := match s.toList with
    | '+' :: rest => (false, rest)
    | '-' :: rest => (true, rest)
    | rest => (false, rest)
  if digits = [] || digits.any (fun c => !c.isDigit) then none
  else
    let n := Decimal.natOfDigits digits
    if negative && n ≠ 0 then none
    else if n < Word.shortLimit then some n
    else none

def file? (s : String) : Option String := if s = "" then none else some s

/-- A word that stands alone can be a value unless it looks like an option. -/
def isValue (s : String) : Bool := s = "-" || s.toList.head? != some '-'

def split (s : String) : String × Option String :=
  let name := s.toList.takeWhile (· != '=')
  match s.toList.dropWhile (· != '=') with
  | _ :: value => (String.ofList name, some (String.ofList value))
  | [] => (s, none)

def option? (verb : Verb) (name value : String) : Option Part :=
  match verb, name with
  | .simulate, "--config" => (file? value).map .config
  | .run, "--config" => (file? value).map .config
  | .simulate, "--ticks" => (word? value).map .ticks
  | _, _ => none

def parts? (verb : Verb) : List String → Option (List Part)
  | [] => some []
  | "--" :: rest => if rest = [] then some [] else none
  | "--json" :: rest => (parts? verb rest).map (.json :: ·)
  | word :: rest =>
    match split word with
    | (name, some value) => do return (← option? verb name value) :: (← parts? verb rest)
    | (name, none) =>
      match rest with
      | value :: rest =>
        if isValue value then do return (← option? verb name value) :: (← parts? verb rest)
        else none
      | [] => none

def isJson (p : Part) : Bool := p == .json

/-- The file that the parts name; they may name one only. -/
def fileOf? (parts : List Part) : Option (Option String) :=
  match parts.filterMap fun p => match p with | .config file => some file | _ => none with
  | [] => some none
  | [file] => some (some file)
  | _ => none

/-- The number of ticks that the parts give; they may give one only. -/
def ticksOf? (parts : List Part) : Option (Option Nat) :=
  match parts.filterMap fun p => match p with | .ticks n => some n | _ => none with
  | [] => some none
  | [n] => some (some n)
  | _ => none

/-- The command that a subcommand and its parts make. Nothing may be given twice. -/
def ofParts? (verb : Verb) (parts : List Part) : Option Command := do
  if 1 < parts.countP isJson then none
  let file ← fileOf? parts
  let ticks ← ticksOf? parts
  match verb with
  | .simulate => return .simulate (← file) ticks
  | .run => return .run (← file)
  | .config => return .config

/-- Reads a command from the words of a command line. The switch for the form of the log may also
stand before the subcommand. -/
def ofWords? : List String → Option Command
  | "--json" :: verb :: rest => do
    let verb ← Verb.ofName? verb
    ofParts? verb (← parts? verb rest)
  | verb :: rest => do
    let verb ← Verb.ofName? verb
    ofParts? verb (← parts? verb rest)
  | [] => none

def source? : Command → Option String
  | simulate file _ => some file
  | run file => some file
  | config => none

end Command

/-- What the program shows in the end. -/
inductive Response where
  /-- The words make no command. -/
  | usage
  | text (s : String)
  | history (events : List Recommendation)
  /-- The deployment can be run. -/
  | ready (d : Deployment)
  | failed (message : String)
  | fault (f : Fault)

namespace Response

def code : Response → Nat
  | usage => 2
  | failed _ => 1
  | fault _ => 101
  | _ => 0

def ofFailure (e : Simulation.Failure) : Response :=
  match e with
  | .fault f => fault f
  | .settings e => failed ("invalid configuration: " ++ e.message)
  | .remote e => failed e.message

end Response

namespace Command

/-- Does something with the deployment that a file holds. -/
def withDeployment (content : Except ReadError String) (act : Deployment → Response) : Response :=
  match content with
  | .error e => .failed e.message
  | .ok text =>
    match Deployment.ofFile? text with
    | none => .failed "TOML parse error"
    | some d => act d

/-- Carries a command out. `content` is what reading its file gave, or why it could not be read. -/
def execute (content : Except ReadError String) : Command → Response
  | simulate _ ticks => withDeployment content fun d =>
    match Simulation.run d ticks with
    | .ok report => .history report.history.events
    | .error e => .ofFailure e
  | run _ => withDeployment content fun d =>
    match Scaler.ofSettings d.settings with
    | .ok _ => .ready d
    | .error e => .ofFailure (.settings e)
  | config =>
    match Deployment.standard.file with
    | .ok text => .text text
    | .error .noText => .failed "settings have no text"
    | .error (.fault f) => .fault f

end Command

end Fleet
