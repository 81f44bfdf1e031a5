import TypedTables.Text.Utf8
import TypedTables.Text.Blank
import TypedTables.Text.WordChar

/-!
Tokens of a source file. A token knows its byte offset, the characters skipped between it and the
token before it, and, if it opens a logical line, the indentation of that line.
-/

namespace TypedTables.Source

open Text Utf8

inductive TokenKind where
  | word
  | number
  | string
  | mark
  deriving DecidableEq, Repr

structure Token where
  kind : TokenKind
  chars : List Char
  gap : List Char
  offset : Nat
  opensLine : Option Nat
  deriving DecidableEq, Repr

inductive Lexeme where
  | blank
  | comment
  | lineEnd
  | joinedLines
  | token (kind : TokenKind)
  deriving DecidableEq, Repr

/-- A character of names: all characters beyond ASCII count, for outside of strings and comments a
source holds no others. -/
def isNameChar (c : Char) : Bool :=
  isWord c || (128 ≤ c.toNat && c.toNat ≠ 0xFEFF)

def isDigit (c : Char) : Bool := '0' ≤ c && c ≤ '9'

def isQuoteMark (c : Char) : Bool := c == '"' || c == '\''

def isStringLead (cs : List Char) : Bool :=
  cs.map Char.toLower ∈
    [['r'], ['b'], ['u'], ['f'], ['t'], ['b', 'r'], ['r', 'b'], ['f', 'r'], ['r', 'f'],
      ['t', 'r'], ['r', 't']]

def hasPlaces (lead : List Char) : Bool :=
  isStringLead lead && lead.any (fun c => c.toLower ∈ ['f', 't'])

/-- What is open inside a string: text up to a quote or up to three, a place for a value with its
brackets and the word just before, the format of a value, or a comment beside a value. -/
inductive Opened where
  | text (quote : Char) (long places : Bool)
  | place (depth : Nat) (word : List Char)
  | format
  | comment
  deriving DecidableEq, Repr

/-- What is open behind a character, and how many characters follow that are not looked at. Strings
inside a place may use the quotes of the string around it. -/
def Opened.next (c : Char) (cs : List Char) : List Opened → List Opened × Nat
  | [] => ([], 0)
  | .text quote long places :: outer =>
      let same := .text quote long places :: outer
      if c == '\\' then (same, if places && cs.head? == some '\x7b' then 0 else 1)
      else if c == quote then
        if !long then (outer, 0)
        else if cs.take 2 == [quote, quote] then (.text quote false places :: outer, 1)
        else (same, 0)
      else if places && c == '\x7b' then
        if cs.head? == some '\x7b' then (same, 1) else (.place 0 [] :: same, 0)
      else (same, 0)
  | .place depth word :: outer =>
      if isQuoteMark c then
        let long := cs.take 2 == [c, c]
        (.text c long (hasPlaces word) :: .place depth [] :: outer, if long then 2 else 0)
      else if c == '#' then (.comment :: .place depth [] :: outer, 0)
      else if c ∈ ['(', '[', '\x7b'] then (.place (depth + 1) [] :: outer, 0)
      else if c == '\x7d' && depth = 0 then (outer, 0)
      else if c ∈ [')', ']', '\x7d'] then (.place (depth - 1) [] :: outer, 0)
      else if c == ':' && depth = 0 then (.format :: outer, 0)
      else (.place depth (if isNameChar c then word ++ [c] else []) :: outer, 0)
  | .format :: outer =>
      if c == '\x7d' then (outer, 0)
      else if c == '\x7b' then (.place 0 [] :: .format :: outer, 0)
      else (.format :: outer, 0)
  | .comment :: outer => (if c == '\n' then outer else .comment :: outer, 0)

/-- The length of what remains of a string, up to the quote that leaves nothing open. The first
characters of it may not be looked at. -/
def stringRest : Nat → List Opened → List Char → Nat
  | _, _, [] => 0
  | skip + 1, opened, _ :: cs => 1 + stringRest skip opened cs
  | 0, [], _ :: _ => 0
  | 0, o :: outer, c :: cs =>
      let (opened, skip) := Opened.next c cs (o :: outer)
      1 + stringRest skip opened cs

def stringLength (places : Bool) : List Char → Nat
  | [] => 0
  | quote :: cs =>
      if cs.take 2 == [quote, quote] then 3 + stringRest 0 [.text quote true places] (cs.drop 2)
      else 1 + stringRest 0 [.text quote false places] cs

def joinsEquals (c : Char) : Bool :=
  c ∈ ['=', '!', '<', '>', '+', '-', '*', '/', '%', '&', '|', '^', '@', ':']

def lexeme (cs : List Char) : Lexeme × Nat :=
  match cs with
  | [] => (.blank, 0)
  | '\n' :: _ => (.lineEnd, 1)
  | '\\' :: '\n' :: _ => (.joinedLines, 2)
  | '\\' :: '\r' :: '\n' :: _ => (.joinedLines, 3)
  | c :: rest =>
      if c == ' ' || c == '\t' || c == '\r' || c == '\x0c' || c == '\ufeff' then (.blank, 1)
      else if c == '#' then (.comment, 1 + (rest.takeWhile (· ≠ '\n')).length)
      else if isQuoteMark c then (.token .string, stringLength false cs)
      else if isDigit c then
        (.token .number, 1 + (rest.takeWhile (fun d => isNameChar d || d == '.')).length)
      else if isNameChar c then
        let word := c :: rest.takeWhile isNameChar
        let after := rest.dropWhile isNameChar
        if isStringLead word && after.head?.any isQuoteMark then
          (.token .string, word.length + stringLength (hasPlaces word) after)
        else (.token .word, word.length)
      else if joinsEquals c && rest.head? == some '=' then (.token .mark, 2)
      else (.token .mark, 1)

/-- Where a tokenizer stands: inside how many brackets, on a line that holds no token yet or one
that does, at which indentation, and after which skipped characters. -/
structure Cursor where
  depth : Nat
  fresh : Bool
  indent : Nat
  gap : List Char

def Cursor.start : Cursor := ⟨0, true, 0, []⟩

def depthAfter (depth : Nat) (chars : List Char) : Nat :=
  if chars ∈ [['('], ['['], ['\x7b']] then depth + 1
  else if chars ∈ [[')'], [']'], ['\x7d']] then depth - 1
  else depth

/-- The indentation after a blank: a tab counts eight, a carriage return or form feed resets. -/
def indentAfter (indent : Nat) (blank : List Char) : Nat :=
  match blank with
  | [' '] => indent + 1
  | ['\t'] => indent + 8
  | ['\ufeff'] => indent
  | _ => 0

def Cursor.skip (cur : Cursor) (lexeme : Lexeme) (chars : List Char) : Cursor :=
  match lexeme with
  | .lineEnd =>
      if cur.depth = 0 then .start else { cur with gap := cur.gap ++ chars }
  | .blank =>
      { cur with
        indent := if cur.fresh then indentAfter cur.indent chars else cur.indent
        gap := cur.gap ++ chars }
  | _ => { cur with gap := cur.gap ++ chars }

def Cursor.pass (cur : Cursor) (chars : List Char) : Cursor :=
  { cur with depth := depthAfter cur.depth chars, fresh := false, gap := [] }

/-- The tokens of a source from a byte offset on; the second list holds the size of each
character. -/
def tokensFrom (cur : Cursor) (offset : Nat) (cs : List Char) (widths : List Nat) : List Token :=
  match cs with
  | [] => []
  | c :: rest =>
      let (kind, length) := lexeme (c :: rest)
      let chars := c :: rest.take (length - 1)
      let next := offset + (widths.take chars.length).foldl (· + ·) 0
      let after := rest.drop (length - 1)
      let widthsAfter := widths.drop chars.length
      match kind with
      | .token k =>
          let opensLine := if cur.fresh then some cur.indent else none
          ⟨k, chars, cur.gap, offset, opensLine⟩ ::
            tokensFrom (cur.pass chars) next after widthsAfter
      | other => tokensFrom (cur.skip other chars) next after widthsAfter
termination_by cs.length
decreasing_by all_goals simp only [List.length_drop, List.length_cons]; omega

def tokens (bytes : List UInt8) : List Token :=
  let gs := glyphs bytes
  tokensFrom .start 0 (gs.map Glyph.char) (gs.map Glyph.width)

namespace Token

def text (t : Token) : String := String.ofList t.chars

/-- The source text from the first to the last of some tokens that follow each other. -/
def slice : List Token → String
  | [] => ""
  | t :: ts => String.ofList (t.chars ++ ts.flatMap (fun t => t.gap ++ t.chars))

def isMark (t : Token) (c : Char) : Bool := t.kind = .mark && t.chars == [c]

def isWord (t : Token) (word : String) : Bool := t.kind = .word && t.text == word

end Token

end TypedTables.Source
