import TypedTables.Text.Quoted
import TypedTables.Text.Split

/-!
A place in a YAML text, and the scalars that can be read from there. Functions that read over
lines count down a budget, which the length of the text bounds.
-/

namespace TypedTables.Yaml

inductive YamlError where
  | unprintable (c : Char)
  | unexpected (c : Char)
  | indentation
  | unfinished
  | badEscape
  | severalDocuments
  deriving DecidableEq, Repr

def YamlError.message : YamlError → String
  | .unprintable _ => "special characters are not allowed"
  | .unexpected c => s!"found unexpected character {Text.quoted (String.singleton c)}"
  | .indentation => "found bad indentation"
  | .unfinished => "found unexpected end of stream"
  | .badEscape => "found unknown escape character"
  | .severalDocuments => "expected a single document in the stream"

/-- What is left of the text, the column, and whether only blanks stand before on the line. -/
structure Cursor where
  rest : List Char
  column : Nat
  fresh : Bool

structure Scanned where
  text : List Char
  cursor : Cursor
  oneLine : Bool

def isBlankOrEnd (cs : List Char) : Bool :=
  cs.head?.all (fun c => c = ' ' || c = '\t' || c = '\n')

namespace Cursor

def advance (c : Cursor) (count : Nat) : Cursor :=
  ⟨c.rest.drop count, c.column + count, false⟩

def skipFrom (comment : Bool) (column : Nat) (fresh : Bool) : List Char → Cursor
  | [] => ⟨[], column, fresh⟩
  | '\n' :: cs => skipFrom false 0 true cs
  | c :: cs =>
      if comment || c = ' ' then skipFrom comment (column + 1) fresh cs
      else if c = '#' then skipFrom true (column + 1) fresh cs
      else ⟨c :: cs, column, fresh⟩

def skip (c : Cursor) : Cursor :=
  skipFrom false c.column c.fresh c.rest

def isMarker (mark : Char) (column : Nat) (cs : List Char) : Bool :=
  column = 0 && cs.take 3 == [mark, mark, mark] && isBlankOrEnd (cs.drop 3)

def isAnyMarker (column : Nat) (cs : List Char) : Bool :=
  isMarker '-' column cs || isMarker '.' column cs

def isOver (c : Cursor) : Bool :=
  c.rest.isEmpty || isAnyMarker c.column c.rest

def isIndicator (c : Cursor) (mark : Char) : Bool :=
  match c.rest with
  | d :: cs => d = mark && isBlankOrEnd cs
  | [] => false

def colon? (c : Cursor) : Option Cursor :=
  let spaces := (c.rest.takeWhile (· = ' ')).length
  let next := c.advance spaces
  if next.isIndicator ':' then some next else none

end Cursor

/-- The number of line ends before the next character that is not blank, what follows them, and
its column. -/
def cutBreaks (blank : Char → Bool) (column : Nat) : List Char → Nat × List Char × Nat
  | '\n' :: cs =>
      let (count, rest, column) := cutBreaks blank 0 cs
      (count + 1, rest, column)
  | c :: cs => if blank c then cutBreaks blank (column + 1) cs else (0, c :: cs, column)
  | [] => (0, [], column)

def foldedBreaks (further : Nat) : List Char :=
  if further = 0 then [' '] else List.replicate further '\n'

def plainWord (flow : Bool) : List Char → List Char × List Char
  | [] => ([], [])
  | c :: cs =>
      let stops :=
        c = ' ' || c = '\t' || c = '\n' || (flow && c ∈ [',', '?', '[', ']', '\x7b', '\x7d']) ||
          (c = ':' && (isBlankOrEnd cs ||
            (flow && cs.head?.any (fun d => d ∈ [',', '[', ']', '\x7b', '\x7d']))))
      if stops then ([], c :: cs)
      else
        let (word, rest) := plainWord flow cs
        (c :: word, rest)

/-- The rest of a plain scalar after some of it. In a block its further lines are indented deeper
than the block. -/
def plainMore (flow : Bool) (indent : Int) (oneLine : Bool) (text : List Char) (c : Cursor) :
    Nat → Scanned
  | 0 => ⟨text, c, oneLine⟩
  | fuel + 1 =>
      let blanks := c.rest.takeWhile (· = ' ')
      match c.rest.drop blanks.length with
      | '\n' :: cs =>
          let (further, rest, column) := cutBreaks (· = ' ') 0 cs
          let (word, after) := plainWord flow rest
          if Cursor.isAnyMarker column rest || rest.head? = some '#' ||
              (!flow && (column : Int) ≤ indent) || word.isEmpty then ⟨text, c, oneLine⟩
          else
            plainMore flow indent false (text ++ foldedBreaks further ++ word)
              ⟨after, column + word.length, false⟩ fuel
      | cs =>
          let (word, after) := plainWord flow cs
          if blanks.isEmpty || cs.head? = some '#' || word.isEmpty then ⟨text, c, oneLine⟩
          else
            plainMore flow indent oneLine (text ++ blanks ++ word)
              ⟨after, c.column + blanks.length + word.length, false⟩ fuel

def indicators : List Char := [
  '-', '?', ':', ',', '[', ']', '\x7b', '\x7d', '#', '&', '*', '!', '|', '>', '\'', '"', '%', '@',
  '\x60']

def startsPlain (flow : Bool) : List Char → Bool
  | [] => false
  | c :: cs =>
      if c ∈ indicators then
        !isBlankOrEnd cs && (c = '-' || (!flow && (c = '?' || c = ':')))
      else c ≠ '\t' && c ≠ ' ' && c ≠ '\n'

def scanPlain (flow : Bool) (indent : Int) (c : Cursor) : Except YamlError Scanned :=
  if startsPlain flow c.rest then
    let (word, after) := plainWord flow c.rest
    .ok (plainMore flow indent true word ⟨after, c.column + word.length, false⟩ c.rest.length)
  else .error (match c.rest with
    | d :: _ => .unexpected d
    | [] => .unfinished)

def escapes : List (Char × Char) := [
  ('0', '\x00'), ('a', '\x07'), ('b', '\x08'), ('t', '\t'), ('\t', '\t'), ('n', '\n'),
  ('v', '\x0b'), ('f', '\x0c'), ('r', '\r'), ('e', '\x1b'), (' ', ' '), ('"', '"'), ('\\', '\\'),
  ('/', '/'), ('N', '\x85'), ('_', '\xa0'), ('L', '\u2028'), ('P', '\u2029')]

def escapeWidths : List (Char × Nat) := [('x', 2), ('u', 4), ('U', 8)]

def isHexDigit (c : Char) : Bool :=
  ('0' ≤ c && c ≤ '9') || ('a' ≤ c.toLower && c.toLower ≤ 'f')

def hexValue (cs : List Char) : Nat :=
  cs.foldl (fun n c =>
    n * 16 + (if c.isDigit then c.toNat - 48 else c.toLower.toNat - 87)) 0

/-- What an escape in double quotes stands for, and how many characters it takes after the
backslash. -/
def escape? (c : Char) (cs : List Char) : Option (Char × Nat) :=
  match escapes.lookup c, escapeWidths.lookup c with
  | some d, _ => some (d, 1)
  | none, some width =>
      let digits := cs.take width
      if digits.length = width && digits.all isHexDigit then
        some (Char.ofNat (hexValue digits), width + 1)
      else none
  | none, none => none

def isQuotedBlank (c : Char) : Bool := c = ' ' || c = '\t'

def quotedMore (quote : Char) (oneLine : Bool) (text : List Char) (c : Cursor) :
    Nat → Except YamlError Scanned
  | 0 => .error .unfinished
  | fuel + 1 =>
      let blanks := c.rest.takeWhile isQuotedBlank
      match c.rest.drop blanks.length with
      | [] => .error .unfinished
      | '\n' :: cs =>
          let (further, rest, column) := cutBreaks isQuotedBlank 0 cs
          if Cursor.isAnyMarker column rest then .error .unfinished
          else quotedMore quote false (text ++ foldedBreaks further) ⟨rest, column, false⟩ fuel
      | d :: cs =>
          let text := text ++ blanks
          let place := c.advance blanks.length
          if d = quote then
            if quote = '\'' && cs.head? = some '\'' then
              quotedMore quote oneLine (text ++ ['\'']) (place.advance 2) fuel
            else .ok ⟨text, place.advance 1, oneLine⟩
          else if d = '\\' && quote = '"' then
            match cs with
            | [] => .error .unfinished
            | '\n' :: rest =>
                let (further, rest, column) := cutBreaks isQuotedBlank 0 rest
                quotedMore quote false (text ++ List.replicate further '\n')
                  ⟨rest, column, false⟩ fuel
            | e :: rest =>
                match escape? e rest with
                | none => .error .badEscape
                | some (x, count) =>
                    quotedMore quote oneLine (text ++ [x]) (place.advance (1 + count)) fuel
          else quotedMore quote oneLine (text ++ [d]) (place.advance 1) fuel

def scanQuoted (quote : Char) (c : Cursor) : Except YamlError Scanned :=
  quotedMore quote true [] (c.advance 1) c.rest.length

inductive Chomp where
  | strip
  | clip
  | keep
  deriving DecidableEq, Repr

/-- The header of a block scalar: chomping, and the indentation if it is given. -/
def blockHeader (chomp : Chomp) (given : Option Nat) :
    List Char → Except YamlError (Chomp × Option Nat)
  | [] => .ok (chomp, given)
  | c :: cs =>
      if c = '-' then blockHeader .strip given cs
      else if c = '+' then blockHeader .keep given cs
      else if '1' ≤ c && c ≤ '9' then blockHeader chomp (some (c.toNat - '0'.toNat)) cs
      else if c = ' ' then
        match cs.dropWhile (· = ' ') with
        | [] => .ok (chomp, given)
        | '#' :: _ => .ok (chomp, given)
        | d :: _ => .error (.unexpected d)
      else .error (.unexpected c)

def indentOf (line : List Char) : Nat := (line.takeWhile (· = ' ')).length

def isEmptyLine (line : List Char) : Bool := line.all (· = ' ')

/-- The indentation of a block scalar: that of its first line with text or of a longer empty line
before it. -/
def blockIndent (least : Nat) : List (List Char) → Nat
  | [] => least
  | line :: lines =>
      if isEmptyLine line then blockIndent (max least (indentOf line)) lines
      else max least (indentOf line)

def cutBlock (indent : Nat) : List (List Char) → List (List Char) × List (List Char)
  | [] => ([], [])
  | [last] =>
      if isEmptyLine last || indentOf last < indent then ([], [last])
      else ([last.drop indent], [])
  | line :: lines =>
      if isEmptyLine line || indent ≤ indentOf line then
        let (block, after) := cutBlock indent lines
        (line.drop indent :: block, after)
      else ([], line :: lines)

/-- Joins the lines of a block scalar; in a folded one a line end between two lines of text
becomes a space. `pending` counts empty lines since `previous`. -/
def joinBlock (folded : Bool) (previous : Option (List Char)) (pending : Nat) :
    List (List Char) → List Char
  | [] => []
  | line :: lines =>
      if line.isEmpty then joinBlock folded previous (pending + 1) lines
      else
        let isText := fun (l : List Char) => l.head?.all (fun c => c ≠ ' ' && c ≠ '\t')
        let between := match previous with
          | none => List.replicate pending '\n'
          | some before =>
              if folded && isText before && isText line then foldedBreaks pending
              else List.replicate (pending + 1) '\n'
        between ++ line ++ joinBlock folded (some line) 0 lines

def trailingEmpty (lines : List (List Char)) : Nat :=
  (lines.reverse.takeWhile List.isEmpty).length

def blockEnd (chomp : Chomp) (lines : List (List Char)) (ended : Bool) : List Char :=
  let hasText := lines.any (fun l => !l.isEmpty)
  let first := if hasText && ended then ['\n'] else []
  match chomp with
  | .strip => []
  | .clip => first
  | .keep => first ++ List.replicate (trailingEmpty lines) '\n'

def scanBlock (folded : Bool) (indent : Int) (c : Cursor) : Except YamlError Scanned := do
  let header := (c.rest.drop 1).takeWhile (· ≠ '\n')
  let (chomp, given) ← blockHeader .clip none header
  let lines := Text.splitOn '\n' ((c.rest.drop (1 + header.length)).drop 1)
  let least := (max (indent + 1) 1).toNat
  let indent := match given with
    | some n => least + n - 1
    | none => blockIndent least lines
  let (block, after) := cutBlock indent lines
  let text := joinBlock folded none 0 block ++ blockEnd chomp block (!after.isEmpty)
  .ok ⟨text, ⟨Text.joinWith '\n' after, 0, true⟩, false⟩

end TypedTables.Yaml
