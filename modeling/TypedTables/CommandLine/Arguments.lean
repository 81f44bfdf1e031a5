import TypedTables.Text.Blank
import TypedTables.Text.Decimal
import TypedTables.Text.Quoted
import TypedTables.Text.Split

/-!
Command-line arguments: options and words. An option may be shortened as long as it stays
unambiguous, and its value is the next argument or follows an equals sign; options of one letter
can be bundled. The first words in a row belong to the command, any later ones are left over, as
are options that nobody knows. After two dashes everything is a word.
-/

namespace TypedTables.CommandLine

open Text

inductive OptionKind where
  | help
  | flag
  | text
  | number
  deriving DecidableEq, Repr

structure OptionSpec where
  key : String
  names : List String
  kind : OptionKind
  deriving DecidableEq, Repr

namespace OptionSpec

def takesValue (spec : OptionSpec) : Bool :=
  spec.kind = .text || spec.kind = .number

def label (spec : OptionSpec) : String := String.intercalate "/" spec.names

end OptionSpec

/-- Why arguments are not accepted; `helpAsked` stands for the wish to see the help instead. -/
inductive ArgumentError where
  | helpAsked
  | ambiguous (text : String) (candidates : List String)
  | needlessValue (option value : String)
  | missingValue (option : String)
  | notANumber (option value : String)
  | unknownCommand (name : String) (known : List String)
  | missingCommand
  | unrecognized (texts : List String)
  deriving DecidableEq, Repr

def ArgumentError.message : ArgumentError → String
  | .helpAsked => ""
  | .ambiguous text candidates =>
      "ambiguous option: " ++ text ++ " could match " ++ String.intercalate ", " candidates
  | .needlessValue option value =>
      s!"argument {option}: ignored explicit argument {quoted value}"
  | .missingValue option => s!"argument {option}: expected one argument"
  | .notANumber option value => s!"argument {option}: invalid int value: {quoted value}"
  | .unknownCommand name known =>
      let choices := String.intercalate ", " (known.map quoted)
      s!"argument cmd: invalid choice: {quoted name} (choose from {choices})"
  | .missingCommand => "the following arguments are required: cmd"
  | .unrecognized texts => "unrecognized arguments: " ++ String.intercalate " " texts

/-- An option as it is used: the name that stands for it, and what is attached to the name, either
behind an equals sign or directly. -/
structure OptionUse where
  spec : OptionSpec
  name : String
  attached? : Option (Bool × List Char)
  deriving DecidableEq, Repr

inductive Piece where
  | word (text : String)
  | separator
  | option (text : String) (use? : Option OptionUse)
  deriving DecidableEq, Repr

def Piece.text : Piece → String
  | .word text => text
  | .separator => "--"
  | .option text _ => text

def namedOptions (specs : List OptionSpec) : List (String × OptionSpec) :=
  specs.flatMap (fun spec => spec.names.map (·, spec))

def findOption? (specs : List OptionSpec) (name : String) : Option OptionSpec :=
  (namedOptions specs).lookup name

def cutAtEquals (cs : List Char) : String × Option (Bool × List Char) :=
  let (name, value) := cutAtFirst '=' cs
  (String.ofList name, if cs.contains '=' then some (true, value) else none)

/-- The options that a text may be short for. A text with one dash may also be an option of one
letter with something attached. -/
def candidates (specs : List OptionSpec) (cs : List Char) : List OptionUse :=
  match cs with
  | '-' :: '-' :: _ =>
      let (start, attached?) := cutAtEquals cs
      (namedOptions specs).filterMap (fun (name, spec) =>
        if start.toList.isPrefixOf name.toList then some ⟨spec, name, attached?⟩ else none)
  | cs =>
      (namedOptions specs).filterMap (fun (name, spec) =>
        if name.toList = cs.take 2 then some ⟨spec, name, some (false, cs.drop 2)⟩
        else if cs.isPrefixOf name.toList then some ⟨spec, name, none⟩
        else none)

def isNegativeNumber (cs : List Char) : Bool :=
  let isDigit := fun c => (digitValue? c).isSome
  match cs with
  | '-' :: cs =>
      let cs := if cs.getLast? = some '\n' then cs.dropLast else cs
      match cs.dropWhile isDigit with
      | [] => !cs.isEmpty
      | '.' :: fraction => !fraction.isEmpty && fraction.all isDigit
      | _ => false
  | _ => false

/-- A text that starts with a dash and is the exact name of no option. -/
def Piece.ofDashed (specs : List OptionSpec) (text : String) : Except ArgumentError Piece :=
  let cs := text.toList
  let (name, attached?) := cutAtEquals cs
  match findOption? specs name with
  | some spec => .ok (.option text (some ⟨spec, name, attached?⟩))
  | none =>
      match candidates specs cs with
      | [use] => .ok (.option text (some use))
      | [] =>
          .ok (if isNegativeNumber cs || cs.contains ' ' then .word text else .option text none)
      | uses => .error (.ambiguous text (uses.map OptionUse.name))

def Piece.ofText (specs : List OptionSpec) (text : String) : Except ArgumentError Piece :=
  match findOption? specs text with
  | some spec => .ok (.option text (some ⟨spec, text, none⟩))
  | none =>
      match text.toList with
      | '-' :: _ :: _ => Piece.ofDashed specs text
      | _ => .ok (.word text)

def pieces (specs : List OptionSpec) : List String → Except ArgumentError (List Piece)
  | [] => .ok []
  | text :: rest =>
      if text = "--" then .ok (.separator :: rest.map .word)
      else do
        let piece ← Piece.ofText specs text
        let more ← pieces specs rest
        .ok (piece :: more)

/-- What a use of options comes to: flags bundled in front of the last option, that option, and
letters that name no option. -/
structure Unbundled where
  flags : List OptionSpec
  last? : Option (OptionSpec × Option String)
  unknown : List String
  deriving DecidableEq, Repr

/-- Takes bundled flags apart; what is attached to a flag names further options. -/
def unbundle (specs : List OptionSpec) (spec : OptionSpec) (name : String) :
    Option (Bool × List Char) → Except ArgumentError Unbundled
  | none => .ok ⟨[], some (spec, none), []⟩
  | some (behindEquals, value) =>
      if spec.takesValue then .ok ⟨[], some (spec, some (String.ofList value)), []⟩
      else
        let needless := ArgumentError.needlessValue spec.label (String.ofList value)
        match value with
        | [] => .error needless
        | c :: cs =>
            if behindEquals || c = '-' || "--".toList.isPrefixOf name.toList then .error needless
            else
              let letter := String.ofList ['-', c]
              match findOption? specs letter, cs with
              | none, _ => .ok ⟨[spec], none, [String.ofList ('-' :: c :: cs)]⟩
              | some next, [] => .ok ⟨[spec], some (next, none), []⟩
              | some next, d :: ds => do
                  let attached := if d = '=' then (true, ds) else (false, d :: ds)
                  let u ← unbundle specs next letter (some attached)
                  .ok { u with flags := spec :: u.flags }
termination_by attached? => (attached?.map (fun a => a.2.length)).getD 0
decreasing_by
  simp only [Option.map_some, Option.getD_some, List.length_cons]
  split <;> simp only [List.length_cons] <;> omega

inductive Phase where
  | before
  | within
  | after
  deriving DecidableEq, Repr

structure Parsed where
  settings : List (String × String) := []
  words : List String := []
  extras : List String := []
  phase : Phase := .before
  deriving DecidableEq, Repr

namespace Parsed

def endWords (p : Parsed) : Parsed :=
  { p with phase := if p.phase = .within then .after else p.phase }

def addWord (p : Parsed) (text : String) : Parsed :=
  if p.phase = .after then { p with extras := p.extras ++ [text] }
  else { p with words := p.words ++ [text], phase := .within }

/-- Two dashes are no word themselves. -/
def addSeparator (p : Parsed) : Parsed :=
  if p.phase = .after then { p with extras := p.extras ++ ["--"] }
  else { p with phase := .within }

def set (p : Parsed) (spec : OptionSpec) (value : String) : Except ArgumentError Parsed :=
  let done := { p with settings := p.settings ++ [(spec.key, value)] }
  match spec.kind with
  | .help => .error .helpAsked
  | .number =>
      if (intOfDigits? (trim value.toList)).isSome then .ok done
      else .error (.notANumber spec.label value)
  | _ => .ok done

def setAll (p : Parsed) : List (OptionSpec × String) → Except ArgumentError Parsed
  | [] => .ok p
  | (spec, value) :: rest => do
      let p ← p.set spec value
      p.setAll rest

def get? (p : Parsed) (key : String) : Option String :=
  p.settings.reverse.lookup key

/-- Reads arguments one by one. If the first word is a command, it ends the reading; the pieces
from it on are given back. -/
def read (specs : List OptionSpec) (wordEnds : Bool) (p : Parsed) :
    List Piece → Except ArgumentError (Parsed × List Piece)
  | [] => .ok (p, [])
  | .word text :: rest =>
      if wordEnds then .ok (p, .word text :: rest) else read specs wordEnds (p.addWord text) rest
  | .separator :: rest =>
      if wordEnds then .ok (p, .separator :: rest) else read specs wordEnds p.addSeparator rest
  | .option text none :: rest =>
      let p := p.endWords
      read specs wordEnds { p with extras := p.extras ++ [text] } rest
  | .option _ (some use) :: rest => do
      let u ← unbundle specs use.spec use.name use.attached?
      let flags := u.flags.map (·, "")
      let p := p.endWords
      let p := { p with extras := p.extras ++ u.unknown }
      match u.last? with
      | none => read specs wordEnds (← p.setAll flags) rest
      | some (spec, some value) =>
          read specs wordEnds (← p.setAll (flags ++ [(spec, value)])) rest
      | some (spec, none) =>
          if spec.takesValue then
            match rest with
            | .word value :: rest =>
                read specs wordEnds (← p.setAll (flags ++ [(spec, value)])) rest
            | _ => .error (.missingValue spec.label)
          else read specs wordEnds (← p.setAll (flags ++ [(spec, "")])) rest

end Parsed

end TypedTables.CommandLine
