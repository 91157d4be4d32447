import TransitSim.Cli.Options
import TransitSim.Config.Record
import TransitSim.Route.Document
import TransitSim.Session.Run
import TransitSim.Session.Summary

/-!
# The program

What a command line leads to: the exit code, what is printed and written down, and the files that
are written. The parts before and after a run stand alone, so that a run may also keep to the
clock on the wall.
-/

namespace TransitSim
namespace Cli

/-!
# Surroundings and results
-/

structure Surroundings where
  read : String → Option (List UInt8)
  canCreate : String → Bool
  same : String → String → Bool
  userPath : Option String
  userFile : Option (Option (List UInt8))
  epoch : Calendar.Instant

structure Result where
  exit : Nat
  printed : String
  complaint : String
  journal : Journal
  files : List (String × String)

namespace Result

def failed (e : Error) (journal : Journal) (files : List (String × String)) : Result :=
  ⟨1, "", "", journal ++ Journal.error e.message, files⟩

def broken (journal : Journal) (files : List (String × String)) : Result :=
  ⟨101, "", "", journal, files⟩

end Result

def programName : String := "eta-simulator"

def programVersion : String := "0.0.1"

def usageText : String :=
  "Usage: " ++ programName ++ " [OPTIONS] <COMMAND>\n\nCommands: route, playback, init-config\n"

def Halt.result : Halt → Result
  | usage fault => ⟨2, "", "error: " ++ fault.message ++ "\n\n" ++ usageText, [], []⟩
  | help => ⟨0, usageText, "", [], []⟩
  | version none => ⟨0, programName ++ " " ++ programVersion ++ "\n", "", [], []⟩
  | version (some command) =>
      ⟨0, programName ++ "-" ++ command ++ " " ++ programVersion ++ "\n", "", [], []⟩

/-!
# Configuration
-/

def loadConfig (around : Surroundings) (config : Option String) : Except Error Config :=
  match config with
  | some path => Config.ofFile (around.read path)
  | none => match around.userFile with
      | some file => Config.ofFile file
      | none => .ok .standard

def RunOptions.override (o : RunOptions) (c : Config) : Config :=
  { c with
    multiplier := o.multiplier.getD c.multiplier
    vehicleId := o.vehicleId.getD c.vehicleId
    routeCode := o.routeCode.getD c.routeCode }

/-!
# Before a run
-/

structure Assignment where
  config : Config
  source : Source
  stops : List Stop
  options : RunOptions
  journal : Journal

inductive Plan where
  | done (r : Result)
  | save (c : Config)
  | simulate (a : Assignment)

def replaying (p : Player) : String :=
  "Replaying ride " ++ p.ride ++ " (" ++ toString p.length ++ " samples)"

def Options.inputs (o : Options) : List String :=
  let run (r : RunOptions) : List String := r.etas.toList
  o.config.toList ++ match o.command with
    | .route geojson _ r => geojson :: run r
    | .playback csv r => csv :: run r
    | .initConfig => []

def Options.outputs (o : Options) : List String :=
  match o.command with
  | .route _ _ r | .playback _ r => r.output.toList
  | .initConfig => []

def plan (around : Surroundings) (config : Config) : Command → Plan
  | .route geojson hold options =>
      let config := options.override config
      let config := if hold then { config with wrap := .hold } else config
      match Route.ofFile (around.read geojson) with
      | (journal, .ok (route, stops)) =>
          .simulate ⟨config, .configured route config, stops, options, journal⟩
      | (journal, .error e) => .done (.failed e journal [])
  | .playback csv options =>
      let config := options.override config
      match Player.ofFile (around.read csv) with
      | .ok player =>
          .simulate ⟨config, .playback player, [], options, Journal.info (replaying player)⟩
      | .error e => .done (.failed e [] [])
  | .initConfig => .save config

def planOf (around : Surroundings) (arguments : List String) : Plan :=
  match Options.ofArguments arguments with
  | .error halt => .done halt.result
  | .ok options =>
      match loadConfig around options.config with
      | .error _ => .done (.broken [] [])
      | .ok config => plan around config options.command

def save (around : Surroundings) (c : Config) : Result :=
  match around.userPath with
  | none => .failed .noConfigFolder [] []
  | some path =>
      if around.canCreate path then
        ⟨0, "Config written to " ++ path ++ "\n", "", [], [(path, c.fileText)]⟩
      else .failed .configInaccessible [] []

/-- The octets of a file once the report file has been created, which empties it. -/
def readBeside (around : Surroundings) (output : Option String) (path : String) :
    Option (List UInt8) :=
  match output with
  | some created => if around.same created path then some [] else around.read path
  | none => around.read path

def feed (around : Surroundings) (options : RunOptions) (vehicle : String) : Except Error Feed :=
  match options.etas with
  | none => .ok .silent
  | some path =>
      (Recording.ofFile (readBeside around options.output path) vehicle).map .recorded

def Assignment.canReport (around : Surroundings) (a : Assignment) : Bool :=
  match a.options.output with
  | some path => around.canCreate path
  | none => true

def Assignment.simulation (around : Surroundings) (a : Assignment) : Except Error Simulation := do
  let sink := match a.options.output with
    | some _ => .file .create
    | none => .ofConfig a.config
  let feed ← feed around a.options a.config.vehicleId
  let session ← Session.new a.config a.source
  .ok ⟨session.withStops a.stops, ⟨around.epoch, 0⟩, sink, feed, a.journal⟩

/-!
# After a run
-/

def outcomeText : Outcome → String
  | .playbackComplete => "Reached the end of the recording"
  | .tickLimit => "Tick limit reached"
  | .interrupted => "Interrupted"

def summaryLine (offset : Calendar.Offset) (s : StopSummary) : String :=
  let eta := match s.last with
    | some time => Calendar.clockTime offset time
    | none => "-"
  s.name ++ ": ETA " ++ eta ++ ", " ++ toString s.summary.total ++ " changes ("
    ++ toString s.summary.delays ++ " later, " ++ toString s.summary.earlier ++ " earlier)\n"

def summaryLines (s : Session) : String :=
  if s.summaries.isEmpty then "No ETAs received\n"
  else String.join (s.summaries.map (summaryLine s.tracker.offset))

def summaryText (s : Session) : String :=
  let next := match s.next? with
    | some e => "Next stop: " ++ (e.line?.getD e.name) ++ "\n"
    | none => ""
  toString s.ticks ++ " ticks\n" ++ next ++ summaryLines s

def reportFile (output : Option String) (sink : Sink) : List (String × String) :=
  match output, sink.file? with
  | some path, some f => [(path, f.written)]
  | _, _ => []

/-- The end of a run. Everything left is settled before the result is looked at. -/
def conclude (output : Option String) (result : Except Error Outcome) (m : Simulation) : Result :=
  match m.settle, result with
  | none, _ => .broken m.journal (reportFile output m.sink.close)
  | some m, .error e => .failed e m.journal (reportFile output m.sink.close)
  | some m, .ok outcome =>
      ⟨0, summaryText m.session, "", m.journal ++ Journal.info (outcomeText outcome),
        reportFile output m.sink.close⟩

/-!
# The whole program
-/

def Assignment.run? (around : Surroundings) (a : Assignment) : Option Result :=
  if !a.canReport around then some (.failed .reportFileUnwritable a.journal [])
  else
    let files := a.options.output.toList.map fun path => (path, "")
    match a.simulation around with
    | .error e => some (.failed e a.journal files)
    | .ok m =>
        match m.run a.options.ticks none with
        | .ended result m => some (conclude a.options.output result m)
        | .failed => some (.broken a.journal files)
        | .endless => none

def execute? (around : Surroundings) (arguments : List String) : Option Result :=
  match planOf around arguments with
  | .done r => some r
  | .save c => some (save around c)
  | .simulate a => a.run? around

end Cli
end TransitSim
