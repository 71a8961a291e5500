import Mathlib.Data.List.Basic
import Mathlib.Data.Int.Notation

/-! # Instants

The civil date of a number of milliseconds since 1970, and the strict reading of an ISO-8601 instant: the
offset has to be written, and the fields have to name a day of the calendar. -/

namespace CastleWall.IsoInstant

structure CivilTime where
  (year month day hour minute second millisecond : Int)
deriving DecidableEq

/-- The fields a UTC clock shows; years are counted from the first of March of year 0. -/
def civilOf (ms : Int) : CivilTime :=
  let days := ms / 86400000+719468
  let inDay := ms % 86400000
  let era := days / 146097
  let dayOfEra := days % 146097
  let yearOfEra := (dayOfEra - dayOfEra / 1460+dayOfEra / 36524 - dayOfEra / 146096) / 365
  let dayOfYear := dayOfEra - (365 * yearOfEra+yearOfEra / 4 - yearOfEra / 100)
  let shifted := (5 * dayOfYear+2) / 153
  let month := if shifted < 10 then shifted+3 else shifted - 9
  { year := yearOfEra+era * 400+(if month ≤ 2 then 1 else 0)
    month
    day := dayOfYear - (153 * shifted+2) / 5+1
    hour := inDay / 3600000
    minute := inDay / 60000 % 60
    second := inDay / 1000 % 60
    millisecond := inDay % 1000 }

example : civilOf 1709210096789=⟨2024,2,29,12,34,56,789⟩ := by decide

def digit (c : Char) : Option Nat := if '0' ≤ c ∧ c ≤ '9' then some (c.toNat - '0'.toNat) else none

/-- The number written by the next `count` characters, all digits, and what follows. -/
def digits : Nat → Nat → List Char → Option (Nat × List Char)
  | 0, value, cs => some (value,cs)
  | count+1, value, c::cs => (digit c).bind fun d => digits count (10 * value+d) cs
  | _+1, _, [] => none

def literal (c : Char) : List Char → Option (List Char)
  | d::cs => if c=d then some cs else none
  | [] => none

/-- `.`, one to nine digits; the first three are the milliseconds. -/
def fraction : List Char → Option (Nat × List Char)
  | '.' :: cs =>
    let written := cs.takeWhile fun c => (digit c).isSome
    if 1 ≤ written.length ∧ written.length ≤ 9 then
      (digits 3 0 ((written++['0','0']).take 3)).map fun ms => (ms.1,cs.drop written.length)
    else none
  | cs => some (0,cs)

def offset : List Char → Option Int
  | ['Z'] => some 0
  | sign::cs => do
    let (hours,cs) ← digits 2 0 cs
    let cs ← literal ':' cs
    let (minutes,cs) ← digits 2 0 cs
    if cs≠[] then none
    else if sign = '+' then some ((hours * 60+minutes : Nat) * 60000)
    else if sign = '-' then some (-((hours * 60+minutes : Nat) * 60000))
    else none
  | [] => none

def writtenFields (cs : List Char) : Option (CivilTime × Int) := do
  let (year,cs) ← digits 4 0 cs
  let cs ← literal '-' cs
  let (month,cs) ← digits 2 0 cs
  let cs ← literal '-' cs
  let (day,cs) ← digits 2 0 cs
  let cs ← literal 'T' cs
  let (hour,cs) ← digits 2 0 cs
  let cs ← literal ':' cs
  let (minute,cs) ← digits 2 0 cs
  let cs ← literal ':' cs
  let (second,cs) ← digits 2 0 cs
  let (millisecond,cs) ← fraction cs
  let offsetMs ← offset cs
  return (⟨year,month,day,hour,minute,second,millisecond⟩,offsetMs)

/-- `dateParse` may normalise a date that is not in the calendar; on the clock of the written offset the
instant it gives has to show the fields that were written. -/
def parseIsoInstantWithOffset (dateParse : String → Option Int) (value : String) : Option Int := do
  let (written,offsetMs) ← writtenFields value.toList
  let ms ← dateParse value
  if civilOf (ms+offsetMs)=written then some ms else none

example : parseIsoInstantWithOffset (fun _ => some 0) "1970-01-01T05:30:00+05:30" = some 0 := by decide

example : parseIsoInstantWithOffset (fun _ => some 0) "1969-12-32T00:00:00.000Z" = none := by decide

end CastleWall.IsoInstant
