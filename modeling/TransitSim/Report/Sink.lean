import TransitSim.Journal
import TransitSim.Report.LineFile

/-!
# Where reports go
-/

namespace TransitSim

inductive Sink where
  | memory (kept : List Report)
  | failing
  | journal (driver merchant : String)
  | file (f : LineFile)

namespace Sink

def ofConfig (c : Config) : Sink :=
  .journal c.driverId c.merchantId

def report (s : Sink) (r : Report) : Except Error (Sink × Journal) :=
  match s with
  | memory kept => .ok (memory (kept ++ [r]), [])
  | failing => .error (.report .offline)
  | journal driver merchant => .ok (s, Journal.info (r.describe driver merchant))
  | file f => (f.report r).map fun f => (file f, [])

def close : Sink → Sink
  | file f => .file f.close
  | s => s

def file? : Sink → Option LineFile
  | file f => some f
  | _ => none

end Sink
end TransitSim
