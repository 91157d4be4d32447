import TransitSim.Calendar.Instant
import TransitSim.Text.Blank

/-!
# Time stamps

Instants as text. Written stamps follow RFC 3339. Three grammars are read: the strict one with an
offset, the bare one of a date and a time without an offset (taken as universal time), and a
relaxed one that allows blanks and other signs where the strict one does not.
-/

namespace TransitSim
namespace Calendar

open Text

/-!
# Writing
-/

def padded (width n : Nat) : String :=
  let ds := Nat.toDigits 10 n
  String.ofList (List.replicate (width - ds.length) '0' ++ ds)

def yearText (year : Int) : String :=
  if 0 ≤ year ∧ year ≤ 9999 then padded 4 year.toNat
  else (if year < 0 then "-" else "+") ++ padded 4 year.natAbs

def fractionText (nanos : Nat) : String :=
  if nanos = 0 then ""
  else if nanos % 1000000 = 0 then "." ++ padded 3 (nanos / 1000000)
  else if nanos % 1000 = 0 then "." ++ padded 6 (nanos / 1000)
  else "." ++ padded 9 nanos

/-- Date, `T` and time of day in universal time, without an offset. A leap second has the
number 60. -/
def civilText (i : Instant) : String :=
  let date := Date.ofDays (i.seconds / secondsPerDay)
  let second := (i.seconds % secondsPerDay).toNat
  let leap := nanosPerSecond ≤ i.nanos
  let shown := if leap then second % 60 + 1 else second % 60
  let nanos := if leap then i.nanos - nanosPerSecond else i.nanos
  yearText date.year ++ "-" ++ padded 2 date.month ++ "-" ++ padded 2 date.day ++ "T"
    ++ padded 2 (second / 3600) ++ ":" ++ padded 2 (second / 60 % 60) ++ ":" ++ padded 2 shown
    ++ fractionText nanos

def stampText (i : Instant) : String :=
  civilText i ++ "Z"

def stampTextWithOffset (i : Instant) : String :=
  civilText i ++ "+00:00"

/-!
# Pieces of a stamp
-/

abbrev Rest := List Char

def expect? (c : Char) : List Char → Option Rest
  | d :: rest => if d = c then some rest else none
  | [] => none

def number? (least most : Nat) (cs : List Char) : Option (Nat × Rest) :=
  let ds := (cs.take most).takeWhile Char.isDigit
  if ds.length < least then none
  else some (ds.foldl (fun n c => 10 * n + (c.toNat - '0'.toNat)) 0, cs.drop ds.length)

def spacedNumber? (most : Nat) (cs : List Char) : Option (Nat × Rest) :=
  number? 1 most (trimStart cs)

def spacedYear? (cs : List Char) : Option (Int × Rest) :=
  match trimStart cs with
  | '-' :: rest => (number? 1 rest.length rest).map fun (n, rest) => (-(n : Int), rest)
  | '+' :: rest => (number? 1 rest.length rest).map fun (n, rest) => ((n : Int), rest)
  | rest => (number? 1 4 rest).map fun (n, rest) => ((n : Int), rest)

/-- An optional fraction of a second, in nanoseconds; digits after the ninth are dropped. -/
def fraction? : List Char → Option (Nat × Rest)
  | '.' :: cs =>
      let ds := cs.takeWhile Char.isDigit
      if ds.isEmpty then none
      else
        let kept := ds.take 9
        let value := kept.foldl (fun n c => 10 * n + (c.toNat - '0'.toNat)) 0
        some (value * Nat.pow 10 (9 - kept.length), cs.dropWhile Char.isDigit)
  | cs => some (0, cs)

def offset? (skip : List Char → Option Rest) : List Char → Option (Int × Rest)
  | c :: cs =>
      if c = 'Z' ∨ c = 'z' then some (0, cs)
      else if c = '+' ∨ c = '-' ∨ c = '−' then do
        let (hours, cs) ← number? 2 2 cs
        let cs ← skip cs
        let (minutes, cs) ← number? 2 2 cs
        if 59 < minutes then none
        else
          let size : Int := hours * 3600 + minutes * 60
          some (if c = '+' then size else -size, cs)
      else none
  | [] => none

def instant? (date : Date) (hour minute second nanos : Nat) (offset : Int) : Option Instant :=
  if date.exists ∧ hour ≤ 23 ∧ minute ≤ 59 ∧ second ≤ 60 then
    let (second, nanos) := if second = 60 then (59, nanos + nanosPerSecond) else (second, nanos)
    Instant.inRange?
      ⟨date.toDays * secondsPerDay + (hour * 3600 + minute * 60 + second : Nat) - offset, nanos⟩
  else none

def separator? : List Char → Option Rest
  | c :: rest => if c = 'T' ∨ c = 't' ∨ c = ' ' then some rest else none
  | [] => none

/-!
# Reading
-/

/-- The strict grammar: fixed widths, an offset below a day, and nothing else. -/
def readStrict? (cs : List Char) : Option Instant := do
  let (year, cs) ← number? 4 4 cs
  let cs ← expect? '-' cs
  let (month, cs) ← number? 2 2 cs
  let cs ← expect? '-' cs
  let (day, cs) ← number? 2 2 cs
  let cs ← separator? cs
  let (hour, cs) ← number? 2 2 cs
  let cs ← expect? ':' cs
  let (minute, cs) ← number? 2 2 cs
  let cs ← expect? ':' cs
  let (second, cs) ← number? 2 2 cs
  let (nanos, cs) ← fraction? cs
  let (offset, cs) ← offset? (expect? ':') cs
  if cs.isEmpty ∧ offset.natAbs < 86400 then
    instant? ⟨year, month, day⟩ hour minute second nanos offset
  else none

/-- The bare grammar, with `between` from date to time: blanks may stand in front of each number,
numbers need no leading zeros, and a year may have a sign. -/
def readBare? (between : List Char → Option Rest) (cs : List Char) : Option Instant := do
  let (year, cs) ← spacedYear? cs
  let cs ← expect? '-' cs
  let (month, cs) ← spacedNumber? 2 cs
  let cs ← expect? '-' cs
  let (day, cs) ← spacedNumber? 2 cs
  let cs ← between cs
  let (hour, cs) ← spacedNumber? 2 cs
  let cs ← expect? ':' cs
  let (minute, cs) ← spacedNumber? 2 cs
  let cs ← expect? ':' cs
  let (second, cs) ← spacedNumber? 2 cs
  let (nanos, cs) ← fraction? cs
  if cs.isEmpty then instant? ⟨year, month, day⟩ hour minute second nanos 0 else none

/-- The relaxed grammar: as the bare one, with blanks also in front of marks, and with an offset,
which may be the word `UTC`. -/
def readRelaxed? (cs : List Char) : Option Instant := do
  let (year, cs) ← spacedYear? cs
  let cs ← expect? '-' (trimStart cs)
  let (month, cs) ← spacedNumber? 2 cs
  let cs ← expect? '-' (trimStart cs)
  let (day, cs) ← spacedNumber? 2 cs
  let cs ← separator? cs
  let (hour, cs) ← spacedNumber? 2 cs
  let cs ← expect? ':' (trimStart cs)
  let (minute, cs) ← spacedNumber? 2 cs
  let cs ← expect? ':' (trimStart cs)
  let (second, cs) ← spacedNumber? 2 cs
  let (nanos, cs) ← fraction? cs
  let cs := trimStart cs
  let (offset, cs) ←
    if (cs.take 3).map Char.toUpper = ['U', 'T', 'C'] then some ((0 : Int), cs.drop 3)
    else offset? (fun cs => some (cs.dropWhile fun c => c = ':' || isBlank c)) cs
  if (trimStart cs).isEmpty ∧ offset.natAbs < 86400 then
    instant? ⟨year, month, day⟩ hour minute second nanos offset
  else none

/-- A stamp in the strict grammar, or else a bare one with a blank or a `T` between date and
time. -/
def readStamp? (s : String) : Option Instant :=
  let cs := s.toList
  match readStrict? cs with
  | some i => some i
  | none =>
      match readBare? (fun cs => some (trimStart cs)) cs with
      | some i => some i
      | none => readBare? (expect? 'T') cs

end Calendar
end TransitSim
