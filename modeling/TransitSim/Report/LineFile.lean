import TransitSim.Interchange.Position

/-!
# Report files

A report file gets one line for each report. Reports are queued; a writer takes them from the
queue, collects their lines in a buffer, and moves the buffer to the file whenever it likes.
Closing the file ends the queue and lets the writer finish.
-/

namespace TransitSim

structure LineFile where
  written : String
  buffer : String
  queue : List Report
  isOpen : Bool

namespace LineFile

def create : LineFile := ⟨"", "", [], true⟩

def truncate (f : LineFile) : LineFile :=
  { f with written := "" }

def overwrite (content : String) : LineFile :=
  truncate ⟨content, "", [], true⟩

def report (f : LineFile) (r : Report) : Except Error LineFile :=
  if f.isOpen then .ok { f with queue := f.queue ++ [r] } else .error (.report .closed)

def receive (f : LineFile) : LineFile :=
  match f.queue with
  | [] => f
  | r :: rest => { f with buffer := f.buffer ++ r.line, queue := rest }

def spill (f : LineFile) (n : Nat) : LineFile :=
  { f with
    written := f.written ++ String.ofList (f.buffer.toList.take n)
    buffer := String.ofList (f.buffer.toList.drop n) }

def flush (f : LineFile) : LineFile :=
  { f with written := f.written ++ f.buffer, buffer := "" }

def drain (f : LineFile) : LineFile :=
  flush { f with buffer := f.queue.foldl (fun text r => text ++ r.line) f.buffer, queue := [] }

/-- Takes no further reports. The writer may still be at work. -/
def shut (f : LineFile) : LineFile :=
  { f with isOpen := false }

def close (f : LineFile) : LineFile :=
  { f.drain with isOpen := false }

end LineFile
end TransitSim
