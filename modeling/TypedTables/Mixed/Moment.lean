/-!
Moments: a date with a time of day, and possibly an offset from universal time. A moment is read
from its text and written back in one fixed form. Moments with an offset are the same if they
denote one instant; a moment without an offset is never the same as one with an offset.
-/

namespace TypedTables

structure TimeOfDay where
  hour : Nat
  minute : Nat
  second : Nat
  microsecond : Nat
  deriving DecidableEq, Repr

/-- A date and a time of day; the offset is counted in microseconds. -/
structure Moment where
  year : Nat
  month : Nat
  day : Nat
  time : TimeOfDay
  offset? : Option Int
  deriving DecidableEq, Repr

namespace TimeOfDay

def midnight : TimeOfDay := ⟨0, 0, 0, 0⟩

def microseconds (t : TimeOfDay) : Nat :=
  ((t.hour * 60 + t.minute) * 60 + t.second) * 1000000 + t.microsecond

def ofMicroseconds (n : Nat) : TimeOfDay :=
  let seconds := n / 1000000
  ⟨seconds / 3600, seconds / 60 % 60, seconds % 60, n % 1000000⟩

def readDigits? (count : Nat) (cs : List Char) : Option (Nat × List Char) :=
  let digits := cs.take count
  if digits.length = count && digits.all Char.isDigit then
    some (digits.foldl (fun n c => n * 10 + (c.toNat - 48)) 0, cs.drop count)
  else none

/-- The first six digits of a fraction of a second; further digits do not count. -/
def readFraction (cs : List Char) : Nat × List Char :=
  let digits := cs.takeWhile Char.isDigit
  let six := (digits ++ List.replicate 6 '0').take 6
  (six.foldl (fun n c => n * 10 + (c.toNat - 48)) 0, cs.dropWhile Char.isDigit)

def readSeconds? : List Char → Option (Nat × Nat × List Char)
  | ':' :: cs => do
      let (second, cs) ← readDigits? 2 cs
      match cs with
      | '.' :: cs =>
          let (micro, cs) := readFraction cs
          some (second, micro, cs)
      | cs => some (second, 0, cs)
  | cs => some (0, 0, cs)

def read? (cs : List Char) : Option (TimeOfDay × List Char) := do
  let (hour, cs) ← readDigits? 2 cs
  match cs with
  | ':' :: cs =>
      let (minute, cs) ← readDigits? 2 cs
      let (second, micro, cs) ← readSeconds? cs
      some (⟨hour, minute, second, micro⟩, cs)
  | cs => some (⟨hour, 0, 0, 0⟩, cs)

def padded (width n : Nat) : List Char :=
  let digits := Nat.toDigits 10 n
  List.replicate (width - digits.length) '0' ++ digits

def fraction (t : TimeOfDay) : List Char :=
  if t.microsecond = 0 then [] else '.' :: padded 6 t.microsecond

def hourAndMinute (t : TimeOfDay) : List Char :=
  padded 2 t.hour ++ ':' :: padded 2 t.minute

def written (t : TimeOfDay) : List Char :=
  t.hourAndMinute ++ ':' :: padded 2 t.second ++ t.fraction

def isValid (t : TimeOfDay) : Bool :=
  t.hour < 24 && t.minute < 60 && t.second < 60

end TimeOfDay

namespace Moment

open TimeOfDay

def isLeapYear (year : Nat) : Bool :=
  year % 4 = 0 && (year % 100 ≠ 0 || year % 400 = 0)

def monthLengths (year : Nat) : List Nat :=
  [31, if isLeapYear year then 29 else 28, 31, 30, 31, 30, 31, 31, 30, 31, 30, 31]

def dayNumber (m : Moment) : Nat :=
  let years := m.year - 1
  years * 365 + years / 4 - years / 100 + years / 400 +
    ((monthLengths m.year).take (m.month - 1)).foldl (· + ·) 0 + (m.day - 1)

def clock (m : Moment) : Int :=
  (m.dayNumber * 86400000000 + m.time.microseconds : Nat)

/-- Whether two moments are the same: with offsets the instants count, without them the clocks. -/
def same (a b : Moment) : Bool :=
  match a.offset?, b.offset? with
  | none, none => a.clock = b.clock
  | some x, some y => a.clock - x = b.clock - y
  | _, _ => false

def isValid (m : Moment) : Bool :=
  1 ≤ m.year && 1 ≤ m.month && 1 ≤ m.day &&
    m.day ≤ ((monthLengths m.year)[m.month - 1]?).getD 0 && m.time.isValid

def offsetOf? : List Char → Option (Option Int)
  | [] => some none
  | ['Z'] => some (some 0)
  | sign :: cs =>
      match read? cs with
      | some (t, []) =>
          if !t.isValid then none
          else if sign = '+' then some (some t.microseconds)
          else if sign = '-' then some (some (-t.microseconds))
          else none
      | _ => none

def timeOf? : List Char → Option (TimeOfDay × Option Int)
  | [] => some (midnight, none)
  | _ :: cs => do
      let (time, cs) ← read? cs
      let offset ← offsetOf? cs
      some (time, offset)

def ofText? (text : String) : Option Moment := do
  let (year, cs) ← readDigits? 4 text.toList
  let (month, cs) ← readDigits? 2 (cs.drop 1)
  let (day, cs) ← readDigits? 2 (cs.drop 1)
  let (time, offset) ← timeOf? cs
  let moment : Moment := ⟨year, month, day, time, offset⟩
  if moment.isValid then some moment else none

def writtenOffset (offset : Int) : List Char :=
  let t := ofMicroseconds offset.natAbs
  let sign := if offset < 0 then '-' else '+'
  sign :: (if t.second = 0 && t.microsecond = 0 then t.hourAndMinute else t.written)

def text (m : Moment) : String :=
  let date := padded 4 m.year ++ '-' :: padded 2 m.month ++ '-' :: padded 2 m.day
  let offset := match m.offset? with
    | none => []
    | some x => writtenOffset x
  String.ofList (date ++ 'T' :: m.time.written ++ offset)

end Moment

end TypedTables
