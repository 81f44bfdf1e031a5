import TypedTables.Log
import TypedTables.Text.Decimal
import TypedTables.Text.WordChar

/-!
Formats of log lines: text with fields such as `%(message)s`, which may be given a width. A format
has to hold at least one field; the empty format stands for the message alone.
-/

namespace TypedTables

open Text

structure FormatField where
  name : String
  alignLeft : Bool
  width : Nat
  limit? : Option Nat
  deriving DecidableEq, Repr

inductive FormatPart where
  | char (c : Char)
  | field (f : FormatField)
  deriving DecidableEq, Repr

def FormatField.number (digits : List Char) : Nat :=
  digits.foldl (fun n c => n * 10 + (digitValue? c).getD 0) 0

def FormatField.takeNumber : List Char → List Char × List Char
  | '*' :: cs => ([], cs)
  | cs =>
      let isDigit := fun c => (digitValue? c).isSome
      (cs.takeWhile isDigit, cs.dropWhile isDigit)

def FormatField.conversions : List Char := "diouxefgcrsa%DIOUXEFGCRSA".toList

def FormatField.read? : List Char → Option (FormatField × List Char)
  | '(' :: cs =>
      let name := cs.takeWhile isWord
      match name, cs.dropWhile isWord with
      | _ :: _, ')' :: cs =>
          let isFlag := fun c => c ∈ ['#', '0', '+', ' ', '-']
          let flags := cs.takeWhile isFlag
          let (width, cs) := takeNumber (cs.dropWhile isFlag)
          let (limit?, cs) := match cs with
            | '.' :: cs =>
                let (limit, cs) := takeNumber cs
                (some (number limit), cs)
            | cs => (none, cs)
          match cs with
          | c :: cs =>
              if c ∈ conversions then
                some (⟨String.ofList name, flags.contains '-', number width, limit?⟩, cs)
              else none
          | [] => none
      | _, _ => none
  | _ => none

structure LogFormat where
  parts : List FormatPart
  deriving DecidableEq, Repr

namespace LogFormat

/-- The parts of a text, which is read as often as it has characters; two percent signs stand for
one. -/
def partsOf : Nat → List Char → List FormatPart
  | 0, _ => []
  | _ + 1, [] => []
  | n + 1, '%' :: cs =>
      match FormatField.read? cs, cs with
      | some (f, rest), _ => .field f :: partsOf n rest
      | none, '%' :: rest => .char '%' :: partsOf n rest
      | none, _ => .char '%' :: partsOf n cs
  | n + 1, c :: cs => .char c :: partsOf n cs

def holdsField : List Char → Bool
  | [] => false
  | c :: cs => (c = '%' && (FormatField.read? cs).isSome) || holdsField cs

def ofText? (text : String) : Option LogFormat :=
  let cs := if text.isEmpty then "%(message)s".toList else text.toList
  if holdsField cs then some ⟨partsOf cs.length cs⟩ else none

def complaint (text : String) : String :=
  s!"Invalid format '{text}' for '%' style"

def fieldText (time : String) (r : LogRecord) (name : String) : String :=
  if name = "levelname" then r.level.label
  else if name = "name" then r.source.label
  else if name = "message" then r.message
  else if name = "asctime" then time
  else ""

def fitted (f : FormatField) (cs : List Char) : List Char :=
  let cs := match f.limit? with
    | some limit => cs.take limit
    | none => cs
  let blanks := List.replicate (f.width - cs.length) ' '
  if f.alignLeft then cs ++ blanks else blanks ++ cs

def line (format : LogFormat) (time : String) (r : LogRecord) : String :=
  String.ofList (format.parts.flatMap (fun
    | .char c => [c]
    | .field f => fitted f (fieldText time r f.name).toList))

end LogFormat

end TypedTables
