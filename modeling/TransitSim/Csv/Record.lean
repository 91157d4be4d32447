import TransitSim.Csv.Fault
import TransitSim.Text.Blank
import TransitSim.Text.Utf8

/-!
# Comma separated values

Octets are cut into records and fields. A field that starts with a quote ends at the next single
quote, and two quotes in it stand for one; what follows the closing quote still belongs to the
field. Line breaks end records, and empty lines are skipped.
-/

namespace TransitSim
namespace Csv

def quote : UInt8 := 0x22

def comma : UInt8 := 0x2C

def lineFeed : UInt8 := 0x0A

def isBreak (b : UInt8) : Bool :=
  b == lineFeed || b == 0x0D

inductive Mode where
  | before
  | plain
  | quoted
  | closing
  deriving DecidableEq, Repr

/-- What has been cut off: the fields of a record, the octets taken and the octets left. -/
structure Cut where
  fields : List (List UInt8)
  taken : List UInt8
  rest : List UInt8

namespace Cut

def take (b : UInt8) (c : Cut) : Cut :=
  { c with taken := b :: c.taken }

def field (f : List UInt8) (c : Cut) : Cut :=
  { c with fields := f :: c.fields }

end Cut

def cut (mode : Mode) (done : List UInt8) : List UInt8 → Cut
  | [] => ⟨[done.reverse], [], []⟩
  | b :: rest =>
      if mode = .quoted then
        if b = quote then (cut .closing done rest).take b
        else (cut .quoted (b :: done) rest).take b
      else if mode = .closing ∧ b = quote then (cut .quoted (b :: done) rest).take b
      else if mode = .before ∧ b = quote then (cut .quoted done rest).take b
      else if b = comma then ((cut .before [] rest).field done.reverse).take b
      else if isBreak b then ⟨[done.reverse], [b], rest⟩
      else (cut .plain (b :: done) rest).take b

theorem cut_rest_length (mode : Mode) (done bs : List UInt8) :
    (cut mode done bs).rest.length ≤ bs.length - 1 := by
  induction bs generalizing mode done with
  | nil => simp [cut]
  | cons b rest ih =>
      have step (m : Mode) (d : List UInt8) :
          (cut m d rest).rest.length ≤ (b :: rest).length - 1 := by
        have := ih m d
        simp only [List.length_cons]
        omega
      rw [cut]
      repeat' split
      all_goals simp only [Cut.take, Cut.field, step]
      simp

structure Record where
  place : Place
  fields : List (List UInt8)

def Place.after (p : Place) (taken : List UInt8) : Place :=
  ⟨p.record + 1, p.line + taken.count lineFeed, p.octet + taken.length⟩

/-- The records of a text that begins at a place. A record begins right behind the line break of
the one before it, so that skipped lines count as its own. -/
def recordsFrom (p : Place) (bs : List UInt8) : List Record :=
  match _lines : bs.dropWhile isBreak with
  | [] => []
  | b :: rest =>
      let c := cut .before [] (b :: rest)
      ⟨p, c.fields⟩ :: recordsFrom (p.after (bs.takeWhile isBreak ++ c.taken)) c.rest
termination_by bs.length
decreasing_by
  have h₁ := cut_rest_length .before [] (b :: rest)
  have h₂ := (List.dropWhile_sublist (l := bs) isBreak).length_le
  rw [_lines] at h₂
  simp only [List.length_cons] at h₁ h₂
  omega

/-- The records of a file; a byte order mark in front is no part of them. -/
def records : List UInt8 → List Record
  | 0xEF :: 0xBB :: 0xBF :: rest => recordsFrom ⟨0, 1, 3⟩ rest
  | bs => recordsFrom ⟨0, 1, 0⟩ bs

/-!
# Fields as text
-/

def isBlankOctet (b : UInt8) : Bool :=
  b == 0x20 || b == 0x09 || b == lineFeed || b == 0x0C || b == 0x0D

def trimOctets (bs : List UInt8) : List UInt8 :=
  ((bs.dropWhile isBlankOctet).reverse.dropWhile isBlankOctet).reverse

/-- A field as text, without blanks at both ends, or how many octets of it are UTF-8. -/
def fieldText (bs : List UInt8) : Except Nat String :=
  (Utf8.decode (trimOctets bs)).map fun cs => String.ofList (Text.trim cs)

def textsFrom (p : Place) (index : Nat) : List (List UInt8) → Except Fault (List String)
  | [] => .ok []
  | field :: rest =>
      match fieldText field with
      | .error valid => .error (.noText p index valid)
      | .ok s => (textsFrom p (index + 1) rest).map (s :: ·)

def Record.texts (r : Record) (columns : Nat) : Except Fault (List String) :=
  if r.fields.length = columns then textsFrom r.place 0 r.fields
  else .error (.fieldCount r.place r.fields.length columns)

end Csv
end TransitSim
