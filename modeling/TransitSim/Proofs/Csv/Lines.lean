import Mathlib.Data.List.TakeWhile
import TransitSim.Csv.Record

/-!
# How records are written

The octets of a file, described without a reader: fields with or without quotes, commas between
them, line breaks behind them. Every file is written so in exactly one way, and the records that a
reader cuts off are the ones that are written.
-/

namespace TransitSim
namespace Csv

def doubled (value : List UInt8) : List UInt8 :=
  value.flatMap fun b => if b = quote then [b, b] else [b]

def endsField (b : UInt8) : Bool :=
  b == comma || isBreak b

structure IsPlain (octets : List UInt8) : Prop where
  none_ends : ∀ b ∈ octets, endsField b = false
  head_ne : octets.head? ≠ some quote

/-- The octets and the value of a field that is followed by a comma, a line break or the end. -/
inductive Field : List UInt8 → List UInt8 → Prop where
  | plain {value : List UInt8} (h : IsPlain value) : Field value value
  | quoted (body : List UInt8) {tail : List UInt8} (h : IsPlain tail) :
      Field (quote :: (doubled body ++ quote :: tail)) (body ++ tail)

/-- The octets and the fields of a record, and whether only the end of the file ends it. -/
inductive Line : List UInt8 → List (List UInt8) → Bool → Prop where
  | comma {octets value line : List UInt8} {fields : List (List UInt8)} {last : Bool}
      (hfield : Field octets value) (hline : Line line fields last) :
      Line (octets ++ comma :: line) (value :: fields) last
  | broken {octets value : List UInt8} {b : UInt8} (hfield : Field octets value)
      (hbreak : isBreak b = true) : Line (octets ++ [b]) [value] false
  | ended {octets value : List UInt8} (hfield : Field octets value) : Line octets [value] true
  | unclosed (body : List UInt8) : Line (quote :: doubled body) [body] true

/-- The octets and the records of a file. Line breaks in front of a record are passed over. -/
inductive Lines : List UInt8 → List (List (List UInt8)) → Prop where
  | nil {breaks : List UInt8} (hbreaks : ∀ b ∈ breaks, isBreak b = true) : Lines breaks []
  | cons {breaks line rest : List UInt8} {first : UInt8} {fields : List (List UInt8)} {last : Bool}
      {records : List (List (List UInt8))} (hbreaks : ∀ b ∈ breaks, isBreak b = true)
      (hfirst : isBreak first = false) (hline : Line (first :: line) fields last)
      (hlast : last = true → rest = []) (hrest : Lines rest records) :
      Lines (breaks ++ (first :: line ++ rest)) (fields :: records)

def byteOrderMark : List UInt8 :=
  [0xEF, 0xBB, 0xBF]

/-- The octets and the records of a file that may begin with a byte order mark. -/
inductive File : List UInt8 → List (List (List UInt8)) → Prop where
  | marked {octets : List UInt8} {records : List (List (List UInt8))} (h : Lines octets records) :
      File (byteOrderMark ++ octets) records
  | bare {octets : List UInt8} {records : List (List (List UInt8))}
      (hbare : ¬ byteOrderMark <+: octets) (h : Lines octets records) : File octets records

variable {mode : Mode} {done octets taken rest : List UInt8} {fields : List (List UInt8)}

theorem before_ne_quoted : Mode.before ≠ .quoted := by decide

theorem plain_ne_quoted : Mode.plain ≠ .quoted := by decide

theorem closing_ne_quoted : Mode.closing ≠ .quoted := by decide

theorem doubled_quote (value : List UInt8) :
    doubled (quote :: value) = quote :: quote :: doubled value := by
  simp [doubled]

theorem doubled_cons {b : UInt8} (h : b ≠ quote) (value : List UInt8) :
    doubled (b :: value) = b :: doubled value := by
  simp [doubled, h]

/-!
# One octet after the other
-/

theorem cut_quoted_quote (done octets : List UInt8) :
    cut .quoted done (quote :: octets) = (cut .closing done octets).take quote := by
  simp [cut]

theorem cut_quoted_other {b : UInt8} (h : b ≠ quote) (done octets : List UInt8) :
    cut .quoted done (b :: octets) = (cut .quoted (b :: done) octets).take b := by
  simp [cut, h]

theorem cut_closing_quote (done octets : List UInt8) :
    cut .closing done (quote :: octets) = (cut .quoted (quote :: done) octets).take quote := by
  simp [cut]

theorem cut_before_quote (done octets : List UInt8) :
    cut .before done (quote :: octets) = (cut .quoted done octets).take quote := by
  simp [cut]

theorem cut_comma (h : mode ≠ .quoted) (done octets : List UInt8) :
    cut mode done (comma :: octets) = ((cut .before [] octets).field done.reverse).take comma := by
  have hne : comma ≠ quote := by decide
  simp [cut, h, hne]

theorem cut_break (h : mode ≠ .quoted) {b : UInt8} (hb : isBreak b = true) (done : List UInt8)
    (octets : List UInt8) : cut mode done (b :: octets) = ⟨[done.reverse], [b], octets⟩ := by
  have hquote : b ≠ quote := by
    rintro rfl
    cases hb
  have hcomma : b ≠ comma := by
    rintro rfl
    cases hb
  simp [cut, h, hquote, hcomma, hb]

theorem cut_plain (h : mode ≠ .quoted) {b : UInt8} (hb : endsField b = false)
    (hquote : mode = .plain ∨ b ≠ quote) (done octets : List UInt8) :
    cut mode done (b :: octets) = (cut .plain (b :: done) octets).take b := by
  rcases Bool.or_eq_false_iff.mp hb with ⟨hcomma, hbreak⟩
  have hcomma : b ≠ comma := ne_of_beq_false hcomma
  rcases hquote with rfl | hquote
  · simp [cut, hcomma, hbreak]
  · simp [cut, h, hquote, hcomma, hbreak]

/-!
# Fields
-/

theorem cut_doubled {body : List UInt8}
    (h : cut .quoted (body.reverse ++ done) octets = ⟨fields, taken, rest⟩) :
    cut .quoted done (doubled body ++ octets) = ⟨fields, doubled body ++ taken, rest⟩ := by
  induction body generalizing done with
  | nil => exact h
  | cons b body ih =>
      rw [List.reverse_cons, List.append_assoc, List.singleton_append] at h
      by_cases hb : b = quote
      · rw [hb] at h ⊢
        rw [doubled_quote, List.cons_append, List.cons_append, cut_quoted_quote, cut_closing_quote,
          ih h]
        rfl
      · rw [doubled_cons hb, List.cons_append, cut_quoted_other hb, ih h]
        rfl

theorem cut_none_ends {octets' : List UInt8} (hplain : ∀ b ∈ octets, endsField b = false)
    (h : cut .plain (octets.reverse ++ done) octets' = ⟨fields, taken, rest⟩) :
    cut .plain done (octets ++ octets') = ⟨fields, octets ++ taken, rest⟩ := by
  induction octets generalizing done with
  | nil => exact h
  | cons b octets ih =>
      rw [List.reverse_cons, List.append_assoc, List.singleton_append] at h
      rcases List.forall_mem_cons.mp hplain with ⟨hb, hrest⟩
      rw [List.cons_append, cut_plain plain_ne_quoted hb (.inl rfl), ih hrest h]
      rfl

theorem cut_end (hmode : mode ≠ .quoted) (hend : octets.head?.all endsField = true) :
    cut mode done octets = cut .plain done octets := by
  cases octets with
  | nil => rfl
  | cons b octets =>
      rcases Bool.or_eq_true_iff.mp hend with hcomma | hbreak
      · rw [eq_of_beq hcomma, cut_comma hmode, cut_comma plain_ne_quoted]
      · rw [cut_break hmode hbreak, cut_break plain_ne_quoted hbreak]

theorem cut_isPlain {octets' : List UInt8} (hmode : mode ≠ .quoted) (hplain : IsPlain octets)
    (h : cut .plain (octets.reverse ++ done) octets' = ⟨fields, taken, rest⟩)
    (hend : octets'.head?.all endsField = true) :
    cut mode done (octets ++ octets') = ⟨fields, octets ++ taken, rest⟩ := by
  cases octets with
  | nil =>
      rw [List.nil_append, cut_end hmode hend]
      exact h
  | cons b octets =>
      have hb : endsField b = false := hplain.none_ends b List.mem_cons_self
      have hne : b ≠ quote := fun heq => hplain.head_ne (congrArg some heq)
      have hall := cut_none_ends hplain.none_ends h
      rw [List.cons_append, cut_plain plain_ne_quoted hb (.inl rfl)] at hall
      rw [List.cons_append, cut_plain hmode hb (.inr hne), hall]

theorem cut_field {octets' value : List UInt8} (hfield : Field octets value)
    (h : cut .plain value.reverse octets' = ⟨fields, taken, rest⟩)
    (hend : octets'.head?.all endsField = true) :
    cut .before [] (octets ++ octets') = ⟨fields, octets ++ taken, rest⟩ := by
  cases hfield with
  | plain hplain =>
      rw [← List.append_nil octets.reverse] at h
      exact cut_isPlain before_ne_quoted hplain h hend
  | quoted body htail =>
      rename_i tail
      rw [List.reverse_append] at h
      have hclosed := cut_isPlain closing_ne_quoted htail h hend
      have hquoted : cut .quoted (body.reverse ++ []) (quote :: (tail ++ octets')) =
          ⟨fields, quote :: (tail ++ taken), rest⟩ := by
        rw [List.append_nil, cut_quoted_quote, hclosed]
        rfl
      have hall := cut_doubled hquoted
      rw [List.cons_append, List.append_assoc, List.cons_append, cut_before_quote, hall]
      simp [Cut.take]

/-!
# Records
-/

theorem cut_line {line : List UInt8} {last : Bool} (hline : Line line fields last)
    (hlast : last = true → rest = []) : cut .before [] (line ++ rest) = ⟨fields, line, rest⟩ := by
  induction hline with
  | comma hfield hline ih =>
      rename_i octets value line fields last
      have hcut : cut .plain value.reverse (comma :: (line ++ rest)) =
          ⟨value :: fields, comma :: line, rest⟩ := by
        rw [cut_comma plain_ne_quoted, ih hlast, List.reverse_reverse]
        rfl
      have hall := cut_field hfield hcut rfl
      rw [List.append_assoc, List.cons_append, hall]
  | broken hfield hbreak =>
      rename_i octets value b
      have hends : endsField b = true := Bool.or_eq_true_iff.mpr (.inr hbreak)
      have hcut : cut .plain value.reverse (b :: rest) = ⟨[value], [b], rest⟩ := by
        rw [cut_break plain_ne_quoted hbreak, List.reverse_reverse]
      have hall := cut_field hfield hcut hends
      rw [List.append_assoc, List.singleton_append, hall]
  | ended hfield =>
      rename_i octets value
      have hcut : cut .plain value.reverse [] = ⟨[value], [], []⟩ := by
        rw [cut, List.reverse_reverse]
      have hall := cut_field hfield hcut rfl
      rw [hlast rfl, hall, List.append_nil]
  | unclosed body =>
      have hcut : cut .quoted (body.reverse ++ []) [] = ⟨[body], [], []⟩ := by
        rw [cut, List.append_nil, List.reverse_reverse]
      have hall := cut_doubled hcut
      rw [hlast rfl, List.append_nil, cut_before_quote]
      rw [List.append_nil] at hall
      rw [hall]
      rfl

theorem recordsFrom_nil (p : Place) (h : octets.dropWhile isBreak = []) :
    recordsFrom p octets = [] := by
  rw [recordsFrom]
  split
  · rfl
  · rename_i hcons
    rw [h] at hcons
    cases hcons

theorem recordsFrom_cons (p : Place) {b : UInt8} {rest : List UInt8}
    (h : octets.dropWhile isBreak = b :: rest) :
    recordsFrom p octets =
      ⟨p, (cut .before [] (b :: rest)).fields⟩ ::
        recordsFrom (p.after (octets.takeWhile isBreak ++ (cut .before [] (b :: rest)).taken))
          (cut .before [] (b :: rest)).rest := by
  rw [recordsFrom]
  split
  · rename_i hnil
    rw [h] at hnil
    cases hnil
  · rename_i hcons
    rw [h] at hcons
    cases hcons
    rfl

theorem recordsFrom_line (p : Place) {breaks line rest : List UInt8} {first : UInt8} {last : Bool}
    (hbreaks : ∀ b ∈ breaks, isBreak b = true) (hfirst : isBreak first = false)
    (hline : Line (first :: line) fields last) (hlast : last = true → rest = []) :
    recordsFrom p (breaks ++ (first :: line ++ rest)) =
      ⟨p, fields⟩ :: recordsFrom (p.after (breaks ++ first :: line)) rest := by
  have hne : ¬isBreak first = true := by
    rw [hfirst]
    exact Bool.false_ne_true
  have hdrop : (breaks ++ (first :: line ++ rest)).dropWhile isBreak =
      first :: (line ++ rest) := by
    rw [List.dropWhile_append_of_pos hbreaks, List.cons_append, List.dropWhile_cons_of_neg hne]
  have htake : (breaks ++ (first :: line ++ rest)).takeWhile isBreak = breaks := by
    rw [List.takeWhile_append_of_pos hbreaks, List.cons_append, List.takeWhile_cons_of_neg hne,
      List.append_nil]
  have hcut := cut_line hline hlast
  rw [List.cons_append] at hcut
  rw [recordsFrom_cons p hdrop, hcut, htake]

theorem recordsFrom_of_lines {records : List (List (List UInt8))} (h : Lines octets records)
    (p : Place) : (recordsFrom p octets).map (·.fields) = records := by
  induction h generalizing p with
  | nil hbreaks =>
      rw [recordsFrom_nil p (List.dropWhile_eq_nil_iff.mpr hbreaks)]
      rfl
  | cons hbreaks hfirst hline hlast hrest ih =>
      rw [recordsFrom_line p hbreaks hfirst hline hlast, List.map_cons, ih]

/-!
# Every file is written in this way
-/

theorem exists_isPlain (h : octets.head? ≠ some quote) :
    exists plain rest, octets = plain ++ rest ∧ IsPlain plain ∧
      rest.head?.all endsField = true := by
  refine ⟨octets.takeWhile (!endsField ·), octets.dropWhile (!endsField ·),
    List.takeWhile_append_dropWhile.symm, ?_, ?_⟩
  · constructor
    case none_ends =>
      intro b hb
      simpa using List.mem_takeWhile_imp hb
    case head_ne =>
      intro hhead
      rw [List.head?_takeWhile] at hhead
      exact h (Option.eq_some_of_filter_eq_some hhead)
  · cases hrest : octets.dropWhile (!endsField ·) with
    | nil => rfl
    | cons b rest =>
        have hne : octets.dropWhile (!endsField ·) ≠ [] := by
          rw [hrest]
          exact List.cons_ne_nil b rest
        have hb := List.head_dropWhile_not (!endsField ·) hne
        simpa [hrest] using hb

theorem exists_doubled (octets : List UInt8) :
    exists body, octets = doubled body ∨
      exists tail, octets = doubled body ++ quote :: tail ∧ tail.head? ≠ some quote := by
  generalize hlength : octets.length = n
  induction n using Nat.strongRecOn generalizing octets with
  | ind n ih =>
      cases octets with
      | nil => exact ⟨[], .inl rfl⟩
      | cons b rest =>
          by_cases hb : b = quote
          · rw [hb] at hlength ⊢
            cases rest with
            | nil => exact ⟨[], .inr ⟨[], rfl, by simp⟩⟩
            | cons c rest =>
                by_cases hc : c = quote
                · rw [hc] at hlength ⊢
                  have hlt : rest.length < n := by
                    rw [← hlength]
                    exact Nat.lt_succ_of_lt (Nat.lt_succ_self _)
                  rcases ih _ hlt rest rfl with ⟨body, hbody | ⟨tail, hbody, htail⟩⟩
                  · exact ⟨quote :: body, .inl (by rw [doubled_quote, hbody])⟩
                  · exact ⟨quote :: body, .inr ⟨tail, by rw [doubled_quote, hbody]; rfl, htail⟩⟩
                · exact ⟨[], .inr ⟨c :: rest, rfl, fun h => hc (Option.some.inj h)⟩⟩
          · have hlt : rest.length < n := by
              rw [← hlength]
              exact Nat.lt_succ_self _
            rcases ih _ hlt rest rfl with ⟨body, hbody | ⟨tail, hbody, htail⟩⟩
            · exact ⟨b :: body, .inl (by rw [doubled_cons hb, hbody])⟩
            · exact ⟨b :: body, .inr ⟨tail, by rw [doubled_cons hb, hbody]; rfl, htail⟩⟩

theorem exists_field (octets : List UInt8) :
    (exists body, octets = quote :: doubled body) ∨
      exists field value rest, octets = field ++ rest ∧ Field field value ∧
        rest.head?.all endsField = true := by
  by_cases hquote : octets.head? = some quote
  · cases octets with
    | nil => cases hquote
    | cons b octets =>
        cases hquote
        rcases exists_doubled octets with ⟨body, hbody | ⟨tail, hbody, htail⟩⟩
        · exact .inl ⟨body, by rw [hbody]⟩
        · rcases exists_isPlain htail with ⟨plain, rest, htail, hplain, hrest⟩
          refine .inr ⟨_, _, rest, ?_, .quoted body hplain, hrest⟩
          rw [hbody, htail]
          simp
  · rcases exists_isPlain hquote with ⟨plain, rest, hoctets, hplain, hrest⟩
    exact .inr ⟨plain, plain, rest, hoctets, .plain hplain, hrest⟩

theorem exists_line (octets : List UInt8) :
    exists line fields last rest, octets = line ++ rest ∧ Line line fields last ∧
      (last = true → rest = []) := by
  generalize hlength : octets.length = n
  induction n using Nat.strongRecOn generalizing octets with
  | ind n ih =>
      rcases exists_field octets with ⟨body, hbody⟩ | ⟨field, value, rest, hoctets, hfield, hrest⟩
      · refine ⟨octets, [body], true, [], (List.append_nil _).symm, ?_, fun _ => rfl⟩
        rw [hbody]
        exact .unclosed body
      · cases rest with
        | nil => exact ⟨field, [value], true, [], hoctets, .ended hfield, fun _ => rfl⟩
        | cons b rest =>
            rcases Bool.or_eq_true_iff.mp hrest with hcomma | hbreak
            · have hlt : rest.length < n := by
                rw [← hlength, hoctets, List.length_append, List.length_cons]
                omega
              rcases ih _ hlt rest rfl with ⟨line, fields, last, rest', hrest, hline, hlast⟩
              refine ⟨_, _, last, rest', ?_, .comma hfield hline, hlast⟩
              rw [hoctets, hrest, eq_of_beq hcomma, List.append_assoc, List.cons_append]
            · refine ⟨_, _, false, rest, ?_, .broken hfield hbreak, Bool.noConfusion⟩
              rw [hoctets, List.append_assoc, List.singleton_append]

theorem Line.ne_nil_or_last {line : List UInt8} {last : Bool} (h : Line line fields last) :
    line ≠ [] ∨ last = true := by
  cases h with
  | comma hfield hline => exact .inl (List.append_ne_nil_of_right_ne_nil _ (List.cons_ne_nil _ _))
  | broken hfield hbreak =>
      exact .inl (List.append_ne_nil_of_right_ne_nil _ (List.cons_ne_nil _ _))
  | ended hfield => exact .inr rfl
  | unclosed body => exact .inr rfl

theorem exists_lines (octets : List UInt8) : exists records, Lines octets records := by
  generalize hlength : octets.length = n
  induction n using Nat.strongRecOn generalizing octets with
  | ind n ih =>
      have hsplit : octets = octets.takeWhile isBreak ++ octets.dropWhile isBreak :=
        List.takeWhile_append_dropWhile.symm
      have hbreaks : ∀ b ∈ octets.takeWhile isBreak, isBreak b = true :=
        fun b hb => List.mem_takeWhile_imp hb
      rw [hsplit] at hlength ⊢
      cases hrest : octets.dropWhile isBreak with
      | nil =>
          rw [List.append_nil]
          exact ⟨[], .nil hbreaks⟩
      | cons first tail =>
          have hfirst : isBreak first = false := by
            have hne : octets.dropWhile isBreak ≠ [] := by
              rw [hrest]
              exact List.cons_ne_nil first tail
            have hhead := List.head_dropWhile_not isBreak hne
            simpa [hrest] using hhead
          rcases exists_line (first :: tail) with ⟨line, fields, last, rest, hline, hwritten, hlast⟩
          cases line with
          | nil =>
              rcases hwritten.ne_nil_or_last with hne | hend
              · exact absurd rfl hne
              · rw [hlast hend] at hline
                cases hline
          | cons b line =>
              have hlt : rest.length < n := by
                rw [← hlength, hrest, hline, List.length_append, List.length_append,
                  List.length_cons]
                omega
              rcases ih _ hlt rest rfl with ⟨records, hrecords⟩
              rw [hline]
              cases hline
              exact ⟨fields :: records, .cons hbreaks hfirst hwritten hlast hrecords⟩

/-!
# Files
-/

theorem records_of_file {records' : List (List (List UInt8))} (h : File octets records') :
    (records octets).map (·.fields) = records' := by
  cases h with
  | marked h => exact recordsFrom_of_lines h _
  | bare hbare h =>
      unfold records
      split
      · rename_i rest
        exact absurd (List.prefix_append byteOrderMark rest) hbare
      · exact recordsFrom_of_lines h _

theorem exists_file (octets : List UInt8) : exists records, File octets records := by
  by_cases hmark : byteOrderMark <+: octets
  · rcases hmark with ⟨rest, rfl⟩
    rcases exists_lines rest with ⟨records, h⟩
    exact ⟨records, .marked h⟩
  · rcases exists_lines octets with ⟨records, h⟩
    exact ⟨records, .bare hmark h⟩

/-- Each file is written in one way, and its records are those that a reader cuts off. -/
theorem file_iff (octets : List UInt8) (records' : List (List (List UInt8))) :
    File octets records' ↔ (records octets).map (·.fields) = records' := by
  constructor
  · exact records_of_file
  · intro h
    rcases exists_file octets with ⟨found, hfound⟩
    rw [← h, records_of_file hfound]
    exact hfound

end Csv
end TransitSim
