import Std.Time.DateTime.Timestamp
import TransitSim.Cli.Program

/-!
# The program at work

Reads the files that a command line names, keeps a run to the clock on the wall, and writes what
comes of it. Everything else is decided by `Cli.plan` and `Run.advance`.
-/

namespace TransitSim
namespace Cli

def readOctets (path : String) : IO (Option (List UInt8)) := do
  try
    return some (← IO.FS.readBinFile path).toList
  catch _ => return none

def readAll : List String → IO (List (String × List UInt8))
  | [] => return []
  | path :: rest => do
      let others ← readAll rest
      match ← readOctets path with
      | some octets => return (path, octets) :: others
      | none => return others

def isThere (path : String) : IO Bool := do
  try
    let _ ← IO.FS.realPath path
    return true
  catch _ => return false

def realPaths (paths : List String) : IO (List (String × String)) :=
  paths.mapM fun (path : String) => do
    try
      let real ← IO.FS.realPath path
      return (path, real.toString)
    catch _ => return (path, path)

def userFolder : IO (Option String) := do
  match ← IO.getEnv "XDG_CONFIG_HOME" with
  | some folder => if folder.startsWith "/" then return some folder
  | none => pure ()
  return (← IO.getEnv "HOME").map (· ++ "/.config")

def lookAround (arguments : List String) : IO Surroundings := do
  let (inputs, outputs) := match Options.ofArguments arguments with
    | .ok options => (options.inputs, options.outputs)
    | .error _ => ([], [])
  let files ← readAll inputs
  let paths ← realPaths (inputs ++ outputs)
  let userPath := (← userFolder).map (· ++ "/" ++ programName ++ "/config.json")
  let userFile ← match userPath with
    | some path => if ← isThere path then pure (some (← readOctets path)) else pure none
    | none => pure none
  let now := (← Std.Time.Timestamp.now).toNanosecondsSinceUnixEpoch.val
  let epoch : Calendar.Instant := ⟨now / 1000000000, (now % 1000000000).toNat⟩
  let real (path : String) : String := (paths.lookup path).getD path
  let around : Surroundings :=
    { read := fun path => files.lookup path
      canCreate := fun _ => true
      same := fun a b => real a == real b
      userPath
      userFile
      epoch }
  return around

def levelName : Level → String
  | .info => "INFO"
  | .warn => "WARN"
  | .error => "ERROR"

def tell (journal : Journal) : IO Unit := do
  for entry in journal do
    IO.eprintln ("[" ++ levelName entry.level ++ "] " ++ entry.text)

def report (r : Result) : IO UInt32 := do
  tell r.journal
  IO.eprint r.complaint
  IO.print r.printed
  return UInt32.ofNat r.exit

def writeFiles (folder : Option String) (r : Result) : IO UInt32 := do
  try
    if let some folder := folder then IO.FS.createDirAll (folder ++ "/" ++ programName)
    for (path, content) in r.files do
      IO.FS.writeFile path content
    report r
  catch _ => report (.failed .configInaccessible [] [])

def release (file : Option IO.FS.Handle) (m : Simulation) : IO Simulation := do
  tell m.journal
  let m := { m with journal := [] }
  match file, m.sink.file? with
  | some handle, some f =>
      let f := f.drain
      handle.putStr f.written
      handle.flush
      return { m with sink := .file { f with written := "" } }
  | _, _ => return m

def sleepUntil (start time : Nat) : IO Unit := do
  let passed := (← IO.monoNanosNow) - start
  IO.sleep (UInt32.ofNat ((time - passed + 999999) / 1000000))

partial def keepTime (file : Option IO.FS.Handle) (output : Option String) (start : Nat) (r : Run) :
    IO Result := do
  match r.advance with
  | .turn (.goes r) =>
      let m ← release file r.simulation
      keepTime file output start { r with simulation := m }
  | .turn (.ends result m) => return conclude output result m.stop
  | .turn .fails => return .broken [] []
  | .wait time =>
      sleepUntil start time
      keepTime file output start (r.onPass time)
  | .stuck => return .broken [] []

def runSimulation (file : Option IO.FS.Handle) (options : RunOptions) (m : Simulation) :
    IO UInt32 := do
  let start ← IO.monoNanosNow
  match m.beginRun options.ticks none with
  | (.error e, r) => report (conclude options.output (.error e) r.simulation)
  | (.ok (), r) =>
      let result ← keepTime file options.output start r
      if let some handle := file then
        for (_, content) in result.files do
          handle.putStr content
        handle.flush
      report result

def doAssignment (around : Surroundings) (a : Assignment) : IO UInt32 := do
  let opened : Except Error (Option IO.FS.Handle) ← match a.options.output with
    | none => pure (.ok none)
    | some path =>
        try
          pure (.ok (some (← IO.FS.Handle.mk path .write)))
        catch _ => pure (.error .reportFileUnwritable)
  match opened with
  | .error e => report (.failed e a.journal [])
  | .ok file =>
      match a.simulation around with
      | .error e => report (.failed e a.journal [])
      | .ok m => runSimulation file a.options m

end Cli
end TransitSim

open TransitSim in
def main (arguments : List String) : IO UInt32 := do
  let around ← Cli.lookAround arguments
  match Cli.planOf around arguments with
  | .done r => Cli.report r
  | .save c => Cli.writeFiles (← Cli.userFolder) (Cli.save around c)
  | .simulate a => Cli.doAssignment around a
