import TransitSim.Proofs.Json.OneLine
import TransitSim.Report.LineFile

/-!
# Writing a report file

Reports are made by callers, and written by a writer that may be as slow as it likes: it takes a
report from the queue, puts its line in the buffer, and moves any part of the buffer to the file, at
any time. A call that closes the file shuts it, and returns after the writer has found the queue
empty, moved the rest of its buffer and ended.

The invariant is that the file, the buffer and the lines of the queue, one behind the other, are the
lines of all reports that were accepted.
-/

namespace TransitSim
namespace LineFile

/-- What callers and the writer may do, in any order. -/
inductive Act where
  | report (r : Report)
  | close
  | receive
  | spill (n : Nat)
  | finish
  | join

def Act.report? : Act → Option Report
  | report r => some r
  | close | receive | spill _ | finish | join => none

inductive Stage where
  | accepting
  | closing
  | finished
  | closed
  deriving DecidableEq

inductive Answer where
  | report (r : Report) (result : Except Error Unit)
  | close (first : Bool) (result : Except Error Unit)

def Answer.accepted? : Answer → Option Report
  | report r (.ok _) => some r
  | report _ (.error _) => none
  | close _ _ => none

/-- A file with its callers. -/
structure Writing where
  file : LineFile
  stage : Stage
  answers : List Answer

namespace Writing

def start (content : String) : Writing :=
  ⟨.overwrite content, .accepting, []⟩

def answer (w : Writing) (a : Answer) : Writing :=
  { w with answers := w.answers ++ [a] }

def step (w : Writing) : Act → Writing
  | .report r =>
      match w.file.report r with
      | .ok f => { w with file := f }.answer (.report r (.ok ()))
      | .error e => w.answer (.report r (.error e))
  | .close =>
      match w.stage with
      | .accepting => { w with file := w.file.shut, stage := .closing }
      | _ => w.answer (.close false (.ok ()))
  | .receive => { w with file := w.file.receive }
  | .spill n => { w with file := w.file.spill n }
  | .finish =>
      if w.stage = .closing ∧ w.file.queue.isEmpty then
        { w with file := w.file.flush, stage := .finished }
      else w
  | .join =>
      if w.stage = .finished then { w with stage := .closed }.answer (.close true (.ok ()))
      else w

def run (w : Writing) (acts : List Act) : Writing :=
  acts.foldl step w

def accepted (w : Writing) : List Report :=
  w.answers.filterMap Answer.accepted?

end Writing

def reportsBeforeClose : List Act → List Report
  | .report r :: rest => r :: reportsBeforeClose rest
  | .close :: _ => []
  | _ :: rest => reportsBeforeClose rest
  | [] => []

theorem reportsBeforeClose_cons {a : Act} (h : a ≠ .close) (rest : List Act) :
    reportsBeforeClose (a :: rest) = a.report?.toList ++ reportsBeforeClose rest := by
  cases a with
  | close => contradiction
  | _ => rfl

def lines (rs : List Report) : String :=
  String.join (rs.map Report.line)

theorem lines_append (rs ss : List Report) : lines (rs ++ ss) = lines rs ++ lines ss := by
  rw [lines, List.map_append, String.join_append]
  rfl

theorem lines_cons (r : Report) (rs : List Report) : lines (r :: rs) = r.line ++ lines rs := by
  rw [lines, List.map_cons, String.join_cons]
  rfl

@[simp]
theorem lines_nil : lines [] = "" := rfl

namespace Writing

/-!
# The invariant
-/

/-- What has been accepted is in the file, in the buffer or in the queue. -/
structure Sound (w : Writing) : Prop where
  content : w.file.written ++ w.file.buffer ++ lines w.file.queue = lines w.accepted
  isOpen_iff : w.file.isOpen = true ↔ w.stage = .accepting
  ended : w.stage = .finished ∨ w.stage = .closed → w.file.buffer = "" ∧ w.file.queue = []
  returned_iff : .close true (.ok ()) ∈ w.answers ↔ w.stage = .closed

theorem Sound.isOpen_eq_false {w : Writing} (h : w.Sound) (hne : w.stage ≠ .accepting) :
    w.file.isOpen = false := by
  rw [← Bool.not_eq_true, h.isOpen_iff]
  exact hne

theorem Sound.stage_ne {w : Writing} (h : w.Sound) (hshut : w.file.isOpen = false) :
    w.stage ≠ .accepting := by
  intro haccepting
  rw [h.isOpen_iff.mpr haccepting] at hshut
  cases hshut

theorem Sound.not_returned {w : Writing} (h : w.Sound) (hne : w.stage ≠ .closed) :
    .close true (.ok ()) ∉ w.answers := by
  rw [h.returned_iff]
  exact hne

theorem sound_start (content : String) : (start content).Sound := by
  constructor
  case content => rfl
  case isOpen_iff => exact iff_of_true rfl rfl
  case ended =>
    intro h
    rcases h with h | h <;> cases h
  case returned_iff =>
    apply iff_of_false
    · intro hmem
      cases hmem
    · intro hclosed
      cases hclosed

theorem accepted_answer (w : Writing) (a : Answer) :
    (w.answer a).accepted = w.accepted ++ a.accepted?.toList := by
  rw [accepted, answer, List.filterMap_append]
  cases h : a.accepted? <;> simp [accepted, h]

variable {w : Writing}

theorem step_report_of_open (h : w.file.isOpen = true) (r : Report) :
    w.step (.report r) =
      { w with file := { w.file with queue := w.file.queue ++ [r] } }.answer
        (.report r (.ok ())) := by
  simp only [step, LineFile.report, if_pos h]

theorem step_report_of_shut (h : w.file.isOpen = false) (r : Report) :
    w.step (.report r) = w.answer (.report r (.error (.report .closed))) := by
  simp only [step, LineFile.report, h]
  rfl

theorem step_close_of_ne (h : w.stage ≠ .accepting) :
    w.step .close = w.answer (.close false (.ok ())) := by
  rw [step]
  split
  · contradiction
  · rfl

theorem mem_answer (w : Writing) {a b : Answer} (h : b ≠ a) :
    b ∈ (w.answer a).answers ↔ b ∈ w.answers := by
  show b ∈ w.answers ++ [a] ↔ b ∈ w.answers
  rw [List.mem_append, List.mem_singleton, or_iff_left h]

theorem Sound.answer (h : w.Sound) {a : Answer} (ha : a.accepted? = none)
    (hlater : .close true (.ok ()) ≠ a) : (w.answer a).Sound := by
  constructor
  case content =>
    rw [accepted_answer, ha, Option.toList_none, List.append_nil]
    exact h.content
  case isOpen_iff => exact h.isOpen_iff
  case ended => exact h.ended
  case returned_iff =>
    rw [mem_answer w hlater]
    exact h.returned_iff

theorem Sound.report (h : w.Sound) (r : Report) : (w.step (.report r)).Sound := by
  cases hopen : w.file.isOpen with
  | false =>
      rw [step_report_of_shut hopen]
      exact h.answer rfl (by simp)
  | true =>
      rw [step_report_of_open hopen]
      have haccepting := h.isOpen_iff.mp hopen
      constructor
      case content =>
        rw [accepted_answer]
        show w.file.written ++ w.file.buffer ++ lines (w.file.queue ++ [r]) =
          lines (w.accepted ++ [r])
        rw [lines_append, lines_append, ← h.content]
        simp only [String.append_assoc]
      case isOpen_iff => exact h.isOpen_iff
      case ended =>
        intro hended
        have hstage : w.stage = .finished ∨ w.stage = .closed := hended
        rw [haccepting] at hstage
        rcases hstage with hstage | hstage <;> cases hstage
      case returned_iff =>
        rw [mem_answer _ (by simp)]
        exact h.returned_iff

theorem Sound.close (h : w.Sound) : (w.step .close).Sound := by
  by_cases hstage : w.stage = .accepting
  · have hstep : w.step .close = { w with file := w.file.shut, stage := .closing } := by
      simp only [step, hstage]
    rw [hstep]
    constructor
    case content => exact h.content
    case isOpen_iff =>
      apply iff_of_false
      · intro hopen
        cases hopen
      · intro haccepting
        cases haccepting
    case ended =>
      intro hended
      rcases hended with hended | hended <;> cases hended
    case returned_iff =>
      apply iff_of_false
      · exact h.not_returned (by simp [hstage])
      · intro hclosed
        cases hclosed
  · rw [step_close_of_ne hstage]
    exact h.answer rfl (by simp)

theorem Sound.receive (h : w.Sound) : (w.step .receive).Sound := by
  cases hqueue : w.file.queue with
  | nil =>
      have hstep : w.step .receive = w := by simp only [step, LineFile.receive, hqueue]
      rw [hstep]
      exact h
  | cons r rest =>
      have hstep : w.step .receive =
          { w with file := { w.file with buffer := w.file.buffer ++ r.line, queue := rest } } := by
        simp only [step, LineFile.receive, hqueue]
      rw [hstep]
      constructor
      case content =>
        show w.file.written ++ (w.file.buffer ++ r.line) ++ lines rest = lines w.accepted
        rw [← h.content, hqueue, lines_cons]
        simp only [String.append_assoc]
      case isOpen_iff => exact h.isOpen_iff
      case ended =>
        intro hended
        have hnone := (h.ended hended).2
        rw [hqueue] at hnone
        cases hnone
      case returned_iff => exact h.returned_iff

theorem Sound.spill (h : w.Sound) (n : Nat) : (w.step (.spill n)).Sound := by
  have hsplit : String.ofList (w.file.buffer.toList.take n) ++
      String.ofList (w.file.buffer.toList.drop n) = w.file.buffer := by
    rw [← String.ofList_append, List.take_append_drop, String.ofList_toList]
  constructor
  case content =>
    show w.file.written ++ String.ofList (w.file.buffer.toList.take n) ++
      String.ofList (w.file.buffer.toList.drop n) ++ lines w.file.queue = lines w.accepted
    rw [← h.content, @String.append_assoc w.file.written, hsplit]
  case isOpen_iff => exact h.isOpen_iff
  case ended =>
    intro hended
    rcases h.ended hended with ⟨hbuffer, hqueue⟩
    constructor
    · show String.ofList (w.file.buffer.toList.drop n) = ""
      rw [hbuffer]
      simp
    · exact hqueue
  case returned_iff => exact h.returned_iff

theorem Sound.finish (h : w.Sound) : (w.step .finish).Sound := by
  rw [step]
  split
  case isTrue hend =>
    rcases hend with ⟨hstage, hqueue⟩
    rw [List.isEmpty_iff] at hqueue
    constructor
    case content =>
      show w.file.written ++ w.file.buffer ++ "" ++ lines w.file.queue = lines w.accepted
      rw [String.append_empty]
      exact h.content
    case isOpen_iff =>
      apply iff_of_false
      · intro hopen
        rw [h.isOpen_iff.mp hopen] at hstage
        cases hstage
      · intro haccepting
        cases haccepting
    case ended =>
      intro _
      exact ⟨rfl, hqueue⟩
    case returned_iff =>
      apply iff_of_false
      · exact h.not_returned (by simp [hstage])
      · intro hclosed
        cases hclosed
  case isFalse => exact h

theorem Sound.join (h : w.Sound) : (w.step .join).Sound := by
  rw [step]
  split
  case isTrue hend =>
    constructor
    case content =>
      rw [accepted_answer]
      exact h.content.trans (congrArg lines (List.append_nil _).symm)
    case isOpen_iff =>
      apply iff_of_false
      · intro hopen
        have haccepting := h.isOpen_iff.mp hopen
        rw [hend] at haccepting
        cases haccepting
      · intro haccepting
        cases haccepting
    case ended =>
      intro _
      exact h.ended (Or.inl hend)
    case returned_iff =>
      apply iff_of_true
      · exact List.mem_append_right _ (List.mem_singleton_self _)
      · rfl
  case isFalse => exact h

theorem Sound.step (h : w.Sound) (a : Act) : (w.step a).Sound := by
  cases a with
  | report r => exact h.report r
  | close => exact h.close
  | receive => exact h.receive
  | spill n => exact h.spill n
  | finish => exact h.finish
  | join => exact h.join

theorem Sound.run (h : w.Sound) (acts : List Act) : (w.run acts).Sound := by
  induction acts generalizing w with
  | nil => exact h
  | cons a rest ih => exact ih (h.step a)

/-!
# What calls return
-/

theorem accepted_of_answers_eq {w w' : Writing} (h : w'.answers = w.answers) :
    w'.accepted = w.accepted := by
  rw [accepted, accepted, h]

theorem step_of_writer {a : Act} (ha : a = .receive ∨ (exists n, a = .spill n) ∨ a = .finish) :
    (w.step a).answers = w.answers ∧ (w.step a).file.isOpen = w.file.isOpen := by
  rcases ha with rfl | ⟨n, rfl⟩ | rfl
  · constructor
    · rfl
    · show w.file.receive.isOpen = _
      rw [LineFile.receive]
      split <;> rfl
  · exact ⟨rfl, rfl⟩
  · rw [step]
    split <;> exact ⟨rfl, rfl⟩

theorem step_join : (w.step .join).accepted = w.accepted ∧ (w.step .join).file = w.file := by
  rw [step]
  split
  · constructor
    · exact (accepted_answer _ _).trans (List.append_nil _)
    · rfl
  · exact ⟨rfl, rfl⟩

theorem Sound.step_of_shut (h : w.Sound) (hshut : w.file.isOpen = false) (a : Act) :
    (w.step a).file.isOpen = false ∧ (w.step a).accepted = w.accepted := by
  have hwriter : a = .receive ∨ (exists n, a = .spill n) ∨ a = .finish →
      (w.step a).file.isOpen = false ∧ (w.step a).accepted = w.accepted := by
    intro ha
    rcases step_of_writer (w := w) ha with ⟨hanswers, hopen⟩
    exact ⟨hopen.trans hshut, accepted_of_answers_eq hanswers⟩
  cases a with
  | report r =>
      rw [step_report_of_shut hshut, accepted_answer]
      exact ⟨hshut, List.append_nil _⟩
  | close =>
      rw [step_close_of_ne (h.stage_ne hshut), accepted_answer]
      exact ⟨hshut, List.append_nil _⟩
  | receive => exact hwriter (Or.inl rfl)
  | spill n => exact hwriter (Or.inr (Or.inl ⟨n, rfl⟩))
  | finish => exact hwriter (Or.inr (Or.inr rfl))
  | join =>
      rcases step_join (w := w) with ⟨haccepted, hfile⟩
      rw [hfile]
      exact ⟨hshut, haccepted⟩

theorem Sound.run_of_shut (h : w.Sound) (hshut : w.file.isOpen = false) (acts : List Act) :
    (w.run acts).file.isOpen = false ∧ (w.run acts).accepted = w.accepted := by
  induction acts generalizing w with
  | nil => exact ⟨hshut, rfl⟩
  | cons a rest ih =>
      rcases h.step_of_shut hshut a with ⟨hshut', haccepted⟩
      rw [← haccepted]
      exact ih (h.step a) hshut'

theorem step_of_open (hopen : w.file.isOpen = true) {a : Act} (ha : a ≠ .close) :
    (w.step a).file.isOpen = true ∧ (w.step a).accepted = w.accepted ++ a.report?.toList := by
  have hwriter : a = .receive ∨ (exists n, a = .spill n) ∨ a = .finish → a.report? = none →
      (w.step a).file.isOpen = true ∧ (w.step a).accepted = w.accepted ++ a.report?.toList := by
    intro hwrites hnone
    rcases step_of_writer (w := w) hwrites with ⟨hanswers, hsame⟩
    rw [hnone, accepted_of_answers_eq hanswers]
    exact ⟨hsame.trans hopen, (List.append_nil _).symm⟩
  cases a with
  | report r =>
      rw [step_report_of_open hopen, accepted_answer]
      exact ⟨hopen, rfl⟩
  | close => contradiction
  | receive => exact hwriter (Or.inl rfl) rfl
  | spill n => exact hwriter (Or.inr (Or.inl ⟨n, rfl⟩)) rfl
  | finish => exact hwriter (Or.inr (Or.inr rfl)) rfl
  | join =>
      rcases step_join (w := w) with ⟨haccepted, hfile⟩
      rw [hfile, haccepted]
      exact ⟨hopen, (List.append_nil _).symm⟩

theorem Sound.step_close_of_open (h : w.Sound) (hopen : w.file.isOpen = true) :
    w.step .close = { w with file := w.file.shut, stage := .closing } := by
  simp only [Writing.step, h.isOpen_iff.mp hopen]

theorem Sound.accepted_run (h : w.Sound) (hopen : w.file.isOpen = true) (acts : List Act) :
    (w.run acts).accepted = w.accepted ++ reportsBeforeClose acts ∧
      (.close ∈ acts → (w.run acts).file.isOpen = false) := by
  induction acts generalizing w with
  | nil =>
      constructor
      · exact (List.append_nil _).symm
      · intro hmem
        cases hmem
  | cons a rest ih =>
      by_cases ha : a = .close
      · subst ha
        have hshut : (w.step .close).file.isOpen = false := by
          rw [h.step_close_of_open hopen]
          rfl
        have haccepted : (w.step .close).accepted = w.accepted := by
          rw [h.step_close_of_open hopen]
          rfl
        rcases (h.step .close).run_of_shut hshut rest with ⟨hstays, hnone⟩
        constructor
        · show ((w.step .close).run rest).accepted = w.accepted ++ []
          rw [hnone, haccepted, List.append_nil]
        · intro _
          exact hstays
      · rcases step_of_open hopen ha with ⟨hopen', haccepted⟩
        rcases ih (h.step a) hopen' with ⟨hrest, hcloses⟩
        constructor
        · show ((w.step a).run rest).accepted = _
          rw [hrest, haccepted, reportsBeforeClose_cons ha, List.append_assoc]
        · intro hmem
          rcases List.mem_cons.mp hmem with heq | hmem
          · exact absurd heq.symm ha
          · exact hcloses hmem

/-!
# The way to the end
-/

theorem step_receive_queue (w : Writing) :
    (w.step .receive).file.queue = w.file.queue.tail ∧ (w.step .receive).stage = w.stage := by
  constructor
  · show w.file.receive.queue = _
    rw [LineFile.receive]
    split
    case h_1 hqueue => rw [hqueue, List.tail_nil]
    case h_2 r rest hqueue => rw [hqueue, List.tail_cons]
  · rfl

theorem run_receive (w : Writing) (n : Nat) :
    (w.run (List.replicate n .receive)).file.queue = w.file.queue.drop n ∧
      (w.run (List.replicate n .receive)).stage = w.stage := by
  induction n generalizing w with
  | zero => exact ⟨rfl, rfl⟩
  | succ n ih =>
      rcases step_receive_queue w with ⟨hqueue, hstage⟩
      rcases ih (w.step .receive) with ⟨hqueues, hstages⟩
      constructor
      · show ((w.step .receive).run (List.replicate n .receive)).file.queue = _
        rw [hqueues, hqueue, List.drop_tail]
      · exact hstages.trans hstage

theorem stage_of_drained (hclosing : w.stage ≠ .accepting) :
    (w.run (List.replicate w.file.queue.length .receive ++ [.finish, .join])).stage = .closed := by
  rcases run_receive w w.file.queue.length with ⟨hqueue, hstage⟩
  rw [List.drop_length] at hqueue
  rw [run, List.foldl_append]
  show (((w.run (List.replicate w.file.queue.length .receive)).step .finish).step .join).stage = _
  cases hw : w.stage with
  | accepting => contradiction
  | closing => simp [step, Writing.answer, hqueue, hstage, hw]
  | finished => simp [step, Writing.answer, hstage, hw]
  | closed => simp [step, hstage, hw]

theorem spill_of_empty {f : LineFile} (h : f.buffer = "") (n : Nat) : f.spill n = f := by
  rcases f with ⟨written, buffer, queue, isOpen⟩
  cases h
  simp [LineFile.spill]

theorem Sound.step_of_closed (h : w.Sound) (hclosed : w.stage = .closed) (a : Act) :
    (w.step a).file = w.file ∧ (w.step a).stage = .closed := by
  rcases h.ended (Or.inr hclosed) with ⟨hbuffer, hqueue⟩
  have hne : w.stage ≠ .accepting := by
    rw [hclosed]
    decide
  cases a with
  | report r =>
      rw [step_report_of_shut (h.isOpen_eq_false hne)]
      exact ⟨rfl, hclosed⟩
  | close =>
      rw [step_close_of_ne hne]
      exact ⟨rfl, hclosed⟩
  | receive =>
      constructor
      · simp only [Writing.step, LineFile.receive, hqueue]
      · exact hclosed
  | spill n =>
      constructor
      · show w.file.spill n = w.file
        exact spill_of_empty hbuffer n
      · exact hclosed
  | finish =>
      rw [Writing.step, if_neg (by simp [hclosed])]
      exact ⟨rfl, hclosed⟩
  | join =>
      rw [Writing.step, if_neg (by simp [hclosed])]
      exact ⟨rfl, hclosed⟩

theorem Sound.file_of_closed (h : w.Sound) (hclosed : w.stage = .closed) :
    w.file = ⟨lines w.accepted, "", [], false⟩ := by
  rcases h.ended (Or.inr hclosed) with ⟨hbuffer, hqueue⟩
  have hshut := h.isOpen_eq_false (by simp [hclosed])
  have hcontent := h.content
  rw [hbuffer, hqueue, lines_nil, String.append_empty, String.append_empty] at hcontent
  rcases hw : w.file with ⟨written, buffer, queue, isOpen⟩
  rw [hw] at hbuffer hqueue hshut hcontent
  rw [← hcontent]
  cases hbuffer
  cases hqueue
  cases hshut
  rfl

theorem Sound.run_of_closed (h : w.Sound) (hclosed : w.stage = .closed) (acts : List Act) :
    (w.run acts).file = w.file ∧ (w.run acts).stage = .closed := by
  induction acts generalizing w with
  | nil => exact ⟨rfl, hclosed⟩
  | cons a rest ih =>
      rcases h.step_of_closed hclosed a with ⟨hfile, hstage⟩
      rw [← hfile]
      exact ih (h.step a) hstage

end Writing

/-!
# All at once
-/

theorem foldlM_report {f : LineFile} (h : f.isOpen = true) (rs : List Report) :
    rs.foldlM LineFile.report f = .ok { f with queue := f.queue ++ rs } := by
  induction rs generalizing f with
  | nil => simp [pure, Except.pure]
  | cons r rest ih =>
      have hreport : f.report r = .ok { f with queue := f.queue ++ [r] } := by
        rw [LineFile.report, if_pos h]
      rw [List.foldlM_cons, hreport]
      show rest.foldlM LineFile.report { f with queue := f.queue ++ [r] } = _
      have hopen : { f with queue := f.queue ++ [r] }.isOpen = true := h
      rw [ih hopen]
      simp

theorem close_eq (f : LineFile) :
    f.close = ⟨f.written ++ f.buffer ++ lines f.queue, "", [], false⟩ := by
  have hfold : ∀ (rs : List Report) (text : String),
      rs.foldl (fun text r => text ++ r.line) text = text ++ lines rs := by
    intro rs
    induction rs with
    | nil => simp
    | cons r rest ih =>
        intro text
        rw [List.foldl_cons, ih, lines_cons, String.append_assoc]
  simp only [close, drain, flush, hfold, String.append_assoc]

/-!
# Lines
-/

theorem splitOn_lines (rs : List Report) :
    (lines rs).toList.splitOn '\n' = rs.map (fun r => r.toJson.compactText.toList) ++ [[]] := by
  induction rs with
  | nil => simp
  | cons r rest ih =>
      have hline : '\n' ∉ r.toJson.compactText.toList := by
        rw [Json.compactText, String.toList_ofList]
        exact Json.newline_not_mem_chars r.toJson 0
      have hcons : (lines (r :: rest)).toList =
          r.toJson.compactText.toList ++ '\n' :: (lines rest).toList := by
        rw [lines_cons, Report.line]
        simp
      rw [hcons, List.splitOn_append_cons_self_of_not_mem hline, ih]
      rfl

/-!
# Closing
-/

/-- What holds of a file and of its calls after some acts. -/
structure Writing.Keeps (w : Writing) (acts : List Act) : Prop where
  accepted_eq : w.accepted = reportsBeforeClose acts
  written_prefix : w.file.written.toList <+: (lines w.accepted).toList
  refuses : .close ∈ acts → ∀ r,
    w.step (.report r) = w.answer (.report r (.error (.report .closed)))
  closes_again : .close ∈ acts → w.step .close = w.answer (.close false (.ok ()))
  returned_iff : .close true (.ok ()) ∈ w.answers ↔ w.stage = .closed
  returns : .close ∈ acts → exists more,
    (∀ a ∈ more, a = .receive ∨ a = .finish ∨ a = .join) ∧ (w.run more).stage = .closed
  file_eq : w.stage = .closed → w.file = ⟨lines w.accepted, "", [], false⟩
  lines_eq : w.stage = .closed → w.file.written.toList.splitOn '\n' =
    w.accepted.map (fun r => r.toJson.compactText.toList) ++ [[]]
  reads : ∀ r ∈ w.accepted, Json.Raw.ofText? r.toJson.compactText = some r.toJson.raw
  close_eq : w.stage = .closed → exists f,
    w.accepted.foldlM LineFile.report create = .ok f ∧ w.file = f.close
  unchanged : w.stage = .closed → ∀ more,
    (w.run more).file = w.file ∧ (w.run more).stage = .closed

end LineFile
end TransitSim
