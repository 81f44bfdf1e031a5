import TypedTables.Ignore.Glob
import TypedTables.Text.Blank
import TypedTables.Text.Lines
import TypedTables.Text.Quoted
import TypedTables.Text.Split

/-!
Ignore files. Each line is a pattern for paths relative to the directory of the file, and the
last pattern that matches a path decides whether the path is ignored.
-/

namespace TypedTables.Ignore

open Text

inductive Segment where
  | dirs
  | name (chars : List Char)
  deriving DecidableEq, Repr

inductive Selection where
  | all
  | belowTop
  | glob (items : List GlobItem)
  deriving DecidableEq, Repr

structure Rule where
  ignores : Bool
  selection : Selection
  deriving DecidableEq, Repr

structure PatternError where
  line : String
  deriving DecidableEq, Repr

def PatternError.message (e : PatternError) : String :=
  s!"Invalid git pattern: {quoted e.line}"

def Segment.ofChars (cs : List Char) : Segment :=
  if cs = ['*', '*'] then .dirs else .name cs

def mergeDirs : List Segment → List Segment
  | .dirs :: rest =>
      match mergeDirs rest with
      | .dirs :: rest => .dirs :: rest
      | rest => .dirs :: rest
  | s :: rest => s :: mergeDirs rest
  | [] => []

/-- The segments between the slashes of a pattern. A slash at the start ties the pattern to the
top; a pattern of one segment without it matches at every depth. -/
def anchorSegments : List (List Char) → List (List Char)
  | [] :: rest => rest
  | [single] => if single = ['*', '*'] then [single] else [['*', '*'], single]
  | [single, []] => if single = ['*', '*'] then [single, []] else [['*', '*'], single, []]
  | segments => segments

/-- A slash at the end stands for everything below. -/
def closeSegments (segments : List (List Char)) : List (List Char) :=
  if segments.getLast? = some [] then segments.dropLast ++ [['*', '*']] else segments

def nameItems (chars : List Char) : Except GlobFault (List GlobItem) :=
  if chars = ['*'] then .ok [.name] else nameGlob chars

/-- The items of the segments after the first. `slash` tells whether a slash has to come before
the next name. -/
def segmentItems (slash : Bool) : List Segment → Except GlobFault (List GlobItem)
  | [] => .ok []
  | [.dirs] => .ok [.slash]
  | .dirs :: rest => (segmentItems true rest).map (.innerDirs :: ·)
  | .name chars :: rest => do
      let items ← nameItems chars
      let more ← segmentItems true rest
      let close := if rest.isEmpty then [.nameEnd] else []
      .ok ((if slash then [.slash] else []) ++ items ++ close ++ more)

def patternItems : List Segment → Except GlobFault (List GlobItem)
  | .dirs :: rest => (segmentItems false rest).map (.leadingDirs :: ·)
  | segments => segmentItems false segments

def selectionOf (endsInSlash : Bool) (segments : List Segment) : Except GlobFault Selection :=
  match segments with
  | [.dirs] => .ok (if endsInSlash then .belowTop else .all)
  | [.dirs, .name ['*']] => .ok .all
  | [.dirs, .name ['*'], .dirs] => .ok .belowTop
  | segments => (patternItems segments).map .glob

/-- Blanks at the end of a pattern do not count, unless the last is escaped. -/
def trimPattern (cs : List Char) : List Char :=
  if ['\\', ' '].isSuffixOf cs then cs else trimEnd cs

/-- Reads one line of an ignore file; comments and empty lines give no rule, and neither does a
pattern with a set that is not closed. -/
def Rule.ofLine (line : List Char) : Except PatternError (Option Rule) :=
  let pattern := trimPattern line
  if pattern.isEmpty || pattern.head? = some '#' || pattern = ['/'] then .ok none
  else
    let keeps := pattern.head? = some '!'
    let parts := splitOn '/' (if keeps then pattern.drop 1 else pattern)
    let segments := mergeDirs ((closeSegments (anchorSegments parts)).map Segment.ofChars)
    if segments.isEmpty then .error ⟨String.ofList line⟩
    else match selectionOf (parts.getLast? = some []) segments with
      | .ok selection => .ok (some ⟨!keeps, selection⟩)
      | .error .openSet => .ok none
      | .error .loneEscape => .error ⟨String.ofList line⟩

def rulesOfText (text : String) : Except PatternError (List Rule) :=
  ((lines text.toList).mapM Rule.ofLine).map (fun rules => rules.filterMap id)

def Selection.selects (selection : Selection) (path : List Char) : Bool :=
  match selection with
  | .all => true
  | .belowTop => path.contains '/'
  | .glob items => globMatches items path

/-- Whether a path is ignored: the last rule that selects it decides. -/
def ignores (rules : List Rule) (path : String) : Bool :=
  match rules.reverse.find? (fun r => r.selection.selects path.toList) with
  | some rule => rule.ignores
  | none => false

end TypedTables.Ignore
