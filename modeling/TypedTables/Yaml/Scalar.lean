import TypedTables.Data
import TypedTables.Text.Split

namespace TypedTables.Yaml

open Text

def nullWords : List String := ["", "~", "null", "Null", "NULL"]

def trueWords : List String :=
  ["yes", "Yes", "YES", "true", "True", "TRUE", "on", "On", "ON"]

def falseWords : List String :=
  ["no", "No", "NO", "false", "False", "FALSE", "off", "Off", "OFF"]

def isDigit (c : Char) : Bool := '0' ≤ c && c ≤ '9'

def digitValue (c : Char) : Nat :=
  if isDigit c then c.toNat - '0'.toNat else c.toLower.toNat - 'a'.toNat + 10

/-- The value of digits, where underscores do not count. -/
def digitsValue (base : Nat) (cs : List Char) : Nat :=
  (cs.filter (· ≠ '_')).foldl (fun n c => n * base + digitValue c) 0

/-- Digits of a base, with underscores among them, and at least one character. -/
def areDigits (base : Nat) (cs : List Char) : Bool :=
  !cs.isEmpty && cs.all (fun c =>
    c = '_' || ((isDigit c || ('a' ≤ c.toLower && c.toLower ≤ 'f')) && digitValue c < base))

def cutSign : List Char → Int × List Char
  | '-' :: cs => (-1, cs)
  | '+' :: cs => (1, cs)
  | cs => (1, cs)

/-- Digits of which the first is one from a lower bound on. -/
def startsAt (low : Char) (cs : List Char) : Bool :=
  cs.head?.any (fun c => low ≤ c && isDigit c)

def isSixtieth : List Char → Bool
  | [c] => isDigit c
  | [c, d] => '0' ≤ c && c ≤ '5' && isDigit d
  | _ => false

/-- The value of numbers each of which counts sixty times the next. -/
def sixtiethsValue (parts : List (List Char)) : Nat :=
  parts.foldl (fun n part => n * 60 + digitsValue 10 part) 0

def natural? (cs : List Char) : Option Nat :=
  match cs with
  | '0' :: 'b' :: ds => if areDigits 2 ds then some (digitsValue 2 ds) else none
  | '0' :: 'x' :: ds => if areDigits 16 ds then some (digitsValue 16 ds) else none
  | ['0'] => some 0
  | '0' :: ds => if areDigits 8 ds then some (digitsValue 8 ds) else none
  | _ =>
      match splitOn ':' cs with
      | [] => none
      | first :: more =>
          if startsAt '1' first && areDigits 10 first && more.all isSixtieth then
            some (sixtiethsValue (first :: more))
          else none

def integer? (cs : List Char) : Option Int :=
  let (sign, cs) := cutSign cs
  (natural? cs).map (fun n => sign * n)

def exponent? : List Char → Option Int
  | [] => some 0
  | mark :: sign :: ds =>
      if (mark = 'e' || mark = 'E') && (sign = '-' || sign = '+') && !ds.isEmpty &&
          ds.all isDigit then
        some ((if sign = '-' then -1 else 1) * (digitsValue 10 ds : Int))
      else none
  | _ => none

def scaled (digits : Nat) (exponent : Int) : Float :=
  Float.ofScientific digits (exponent < 0) exponent.natAbs

def fraction? (cs : List Char) : Option Float :=
  let whole := cs.takeWhile (· ≠ '.')
  match cs.dropWhile (· ≠ '.') with
  | [] => none
  | _ :: after =>
      let places := after.takeWhile (fun c => isDigit c || c = '_')
      let tail := after.drop places.length
      let count := (places.filter (· ≠ '_')).length
      match splitOn ':' whole with
      | [single] =>
          let starts :=
            if single.isEmpty then startsAt '0' places
            else startsAt '0' single && areDigits 10 single
          if starts then
            (exponent? tail).map (fun e =>
              scaled (digitsValue 10 (single ++ places)) (e - count))
          else none
      | first :: more =>
          if startsAt '0' first && areDigits 10 first && more.all isSixtieth && tail.isEmpty then
            some (scaled (sixtiethsValue (first :: more)) 0 +
              scaled (digitsValue 10 places) (-count))
          else none
      | [] => none

def infinityWords : List String := [".inf", ".Inf", ".INF"]

def nanWords : List String := [".nan", ".NaN", ".NAN"]

def float? (cs : List Char) : Option Float :=
  let (sign, digits) := cutSign cs
  if String.ofList digits ∈ infinityWords then
    some (if sign < 0 then -(1.0 / 0.0) else 1.0 / 0.0)
  else if String.ofList cs ∈ nanWords then some (0.0 / 0.0)
  else if digits.head? = some '.' && digits ≠ cs then none
  else (fraction? digits).map (fun x => if sign < 0 then -x else x)

def isDigits (least most : Nat) (cs : List Char) : Bool :=
  least ≤ cs.length && cs.length ≤ most && cs.all isDigit

def isZone (cs : List Char) : Bool :=
  match cs.dropWhile (fun c => c = ' ' || c = '\t') with
  | [] => cs.isEmpty
  | ['Z'] => true
  | sign :: rest =>
      (sign = '-' || sign = '+') &&
        match splitOn ':' rest with
        | [hours] => isDigits 1 2 hours
        | [hours, minutes] => isDigits 1 2 hours && isDigits 2 2 minutes
        | _ => false

def isTimeOfDay (cs : List Char) : Bool :=
  match splitOn ':' (cs.takeWhile (fun c => isDigit c || c = ':')) with
  | [hours, minutes, seconds] =>
      let after := cs.dropWhile (fun c => isDigit c || c = ':')
      let after := match after with
        | '.' :: rest => rest.dropWhile isDigit
        | _ => after
      isDigits 1 2 hours && isDigits 2 2 minutes && isDigits 2 2 seconds && isZone after
  | _ => false

def isMoment (cs : List Char) : Bool :=
  let date := cs.takeWhile (fun c => isDigit c || c = '-')
  let after := cs.dropWhile (fun c => isDigit c || c = '-')
  match splitOn '-' date with
  | [year, month, day] =>
      isDigits 4 4 year &&
        match after with
        | [] => isDigits 2 2 month && isDigits 2 2 day
        | 'T' :: time | 't' :: time =>
            isDigits 1 2 month && isDigits 1 2 day && isTimeOfDay time
        | c :: _ =>
            (c = ' ' || c = '\t') && isDigits 1 2 month && isDigits 1 2 day &&
              isTimeOfDay (after.dropWhile (fun c => c = ' ' || c = '\t'))
  | _ => false

def plainValue (cs : List Char) : Data :=
  let word := String.ofList cs
  if word ∈ nullWords then .null
  else if word ∈ trueWords then .bool true
  else if word ∈ falseWords then .bool false
  else match integer? cs, float? cs with
    | some n, _ => .int n
    | none, some x => .float x
    | none, none => if isMoment cs then .moment word else .text word

end TypedTables.Yaml
