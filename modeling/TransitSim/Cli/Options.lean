import TransitSim.Decimal.Reading

/-!
# Options of the command line

A command line has options for the whole program, a command, and options for the command. Options
have long names, some also a letter; letters may be joined, and a value may be joined to its
option. The options for the whole program may also stand behind the command.
-/

namespace TransitSim
namespace Cli

/-!
# What can be given
-/

inductive Kind where
  | switch
  | path
  | text
  | number (limit : Nat) (minusZero : Bool)
  | help
  | version

structure Spec where
  name : String
  letter : Option Char
  kind : Kind

def Spec.hasValue (s : Spec) : Bool :=
  match s.kind with
  | .path | .text | .number .. => true
  | _ => false

def generalSpecs : List Spec :=
  [⟨"verbose", some 'v', .switch⟩, ⟨"config", some 'c', .path⟩, ⟨"help", some 'h', .help⟩,
   ⟨"version", some 'V', .version⟩]

def runSpecs : List Spec :=
  [⟨"etas", some 'e', .path⟩, ⟨"output", some 'o', .path⟩,
   ⟨"speed-multiplier", some 's', .number (Nat.pow 2 32) true⟩,
   ⟨"ticks", some 't', .number (Nat.pow 2 64) false⟩,
   ⟨"vehicle-id", none, .text⟩, ⟨"route-code", none, .text⟩]

def commands : List (String × List Spec) :=
  [("route", ⟨"geojson", some 'g', .path⟩ :: ⟨"hold", none, .switch⟩ :: runSpecs),
   ("playback", ⟨"csv", none, .path⟩ :: runSpecs), ("init-config", [])]

/-!
# What has been asked for
-/

structure RunOptions where
  etas : Option String
  output : Option String
  multiplier : Option Nat
  ticks : Option Nat
  vehicleId : Option String
  routeCode : Option String
  deriving DecidableEq, Repr

inductive Command where
  | route (geojson : String) (hold : Bool) (run : RunOptions)
  | playback (csv : String) (run : RunOptions)
  | initConfig
  deriving DecidableEq, Repr

structure Options where
  verbose : Bool
  config : Option String
  command : Command
  deriving DecidableEq, Repr

inductive Usage where
  | unknown (argument : String)
  | repeated (name : String)
  | noValue (name : String)
  | unwantedValue (name : String)
  | noNumber (name value : String)
  | missing (name : String)
  | noCommand
  deriving DecidableEq, Repr

def Usage.message : Usage → String
  | unknown argument => "unexpected argument '" ++ argument ++ "'"
  | repeated name => "the argument '--" ++ name ++ "' cannot be used multiple times"
  | noValue name => "a value is required for '--" ++ name ++ "'"
  | unwantedValue name => "unexpected value for '--" ++ name ++ "'"
  | noNumber name value => "invalid value '" ++ value ++ "' for '--" ++ name ++ "'"
  | missing name => "the argument '--" ++ name ++ "' is required"
  | noCommand => "a command is required"

inductive Halt where
  | usage (fault : Usage)
  | help
  | version (command : Option String)
  deriving DecidableEq, Repr

/-!
# Reading options
-/

abbrev Given := List (String × String)

def isOption (argument : String) : Bool :=
  match argument.toList with
  | '-' :: _ :: _ => true
  | _ => false

def number? (limit : Nat) (minusZero : Bool) (value : String) : Option Nat :=
  let (negative, digits) := Decimal.splitSign value.toList
  if digits.isEmpty || !digits.all Char.isDigit then none
  else
    let n := Decimal.digitsValue digits
    if negative && !(minusZero && n == 0) then none
    else if n < limit then some n else none

def checkValue (s : Spec) (value : String) : Except Halt Unit :=
  match s.kind with
  | .path => if value.isEmpty then .error (.usage (.noValue s.name)) else .ok ()
  | .number limit minusZero =>
      if (number? limit minusZero value).isSome then .ok ()
      else .error (.usage (.noNumber s.name value))
  | _ => .ok ()

def add (given : Given) (s : Spec) (value : String) : Except Halt Given := do
  checkValue s value
  if (given.lookup s.name).isSome then .error (.usage (.repeated s.name))
  else .ok (given ++ [(s.name, value)])

def addSwitch (command : Option String) (given : Given) (s : Spec) : Except Halt Given :=
  match s.kind with
  | .help => .error .help
  | .version => .error (.version command)
  | _ => add given s ""

abbrev Progress := Given × Option Spec

def letters (specs : List Spec) (command : Option String) (given : Given) :
    List Char → Except Halt Progress
  | [] => .ok (given, none)
  | c :: rest =>
      match specs.find? fun s => s.letter = some c with
      | none => .error (.usage (.unknown ("-" ++ String.singleton c)))
      | some s =>
          if s.hasValue then
            match rest with
            | [] => .ok (given, some s)
            | '=' :: value => (add given s (String.ofList value)).map fun given => (given, none)
            | value => (add given s (String.ofList value)).map fun given => (given, none)
          else do letters specs command (← addSwitch command given s) rest

def longName (specs : List Spec) (command : Option String) (given : Given) (cs : List Char) :
    Except Halt Progress :=
  let name := String.ofList (cs.takeWhile (· ≠ '='))
  match specs.find? (·.name = name) with
  | none => .error (.usage (.unknown ("--" ++ name)))
  | some s =>
      match cs.dropWhile (· ≠ '='), s.hasValue with
      | _ :: value, true => (add given s (String.ofList value)).map fun given => (given, none)
      | _ :: _, false => .error (.usage (.unwantedValue s.name))
      | [], true => .ok (given, some s)
      | [], false => (addSwitch command given s).map fun given => (given, none)

/-- Takes options up to the first argument that is none, and gives it with what follows. -/
def options (specs : List Spec) (command : Option String) (given : Given) :
    Option Spec → List String → Except Halt (Given × Option (String × List String))
  | some s, [] => .error (.usage (.noValue s.name))
  | some s, value :: rest =>
      if isOption value then .error (.usage (.noValue s.name))
      else do options specs command (← add given s value) none rest
  | none, [] => .ok (given, none)
  | none, argument :: rest =>
      match argument.toList with
      | ['-', '-'] =>
          match rest with
          | [] => .ok (given, none)
          | word :: _ => .error (.usage (.unknown word))
      | '-' :: '-' :: name => do
          let (given, pending) ← longName specs command given name
          options specs command given pending rest
      | '-' :: c :: cs => do
          let (given, pending) ← letters specs command given (c :: cs)
          options specs command given pending rest
      | _ => .ok (given, some (argument, rest))

/-!
# Reading commands
-/

def required (given : Given) (name : String) : Except Halt String :=
  match given.lookup name with
  | some value => .ok value
  | none => .error (.usage (.missing name))

def runOptions (given : Given) : RunOptions where
  etas := given.lookup "etas"
  output := given.lookup "output"
  multiplier := (given.lookup "speed-multiplier").bind (number? (Nat.pow 2 32) true)
  ticks := (given.lookup "ticks").bind (number? (Nat.pow 2 64) false)
  vehicleId := given.lookup "vehicle-id"
  routeCode := given.lookup "route-code"

def command (word : String) (given : Given) : Except Halt Command :=
  if word = "route" then do
    .ok (.route (← required given "geojson") (given.lookup "hold").isSome (runOptions given))
  else if word = "playback" then do
    .ok (.playback (← required given "csv") (runOptions given))
  else .ok .initConfig

def helpOn : List String → Halt
  | [] => .help
  | word :: rest =>
      if (commands.lookup word).isSome ∨ word = "help" then
        match rest with
        | [] => .help
        | below :: _ => .usage (.unknown below)
      else .usage (.unknown word)

/-- What a command line asks for. Behind the command, the options for the whole program count
more than in front of it. -/
def Options.ofArguments (arguments : List String) : Except Halt Options := do
  let (general, rest) ← options generalSpecs none [] none arguments
  match rest with
  | none => .error (.usage .noCommand)
  | some (word, rest) =>
      if word = "help" then .error (helpOn rest)
      else match commands.lookup word with
        | none => .error (.usage (.unknown word))
        | some specs =>
            let (given, rest) ← options (specs ++ generalSpecs) (some word) [] none rest
            match rest with
            | some (word, _) => .error (.usage (.unknown word))
            | none =>
                let command ← Cli.command word given
                .ok
                  { verbose := ((given ++ general).lookup "verbose").isSome
                    config := (given ++ general).lookup "config"
                    command }

end Cli
end TransitSim
