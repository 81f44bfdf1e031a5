import TypedTables.Keyed
import TypedTables.Yaml.Cursor
import TypedTables.Yaml.Scalar

/-!
Reading YAML 1.1 as plain data: mappings, lists and scalars in block and in flow style. Anchors,
tags and keys that are no scalars are not understood.
-/

namespace TypedTables.Yaml

def keyText : Data → String
  | .text s => s
  | .moment s => s
  | .null => "null"
  | .bool b => if b then "true" else "false"
  | .int n => toString n
  | _ => ""

def scanScalar (flow : Bool) (indent : Int) (c : Cursor) : Except YamlError (Data × Scanned) :=
  match c.rest with
  | '\'' :: _ => (scanQuoted '\'' c).map (fun s => (.text (String.ofList s.text), s))
  | '"' :: _ => (scanQuoted '"' c).map (fun s => (.text (String.ofList s.text), s))
  | _ => (scanPlain flow indent c).map (fun s => (plainValue s.text, s))

def unexpectedAt {α : Type} (c : Cursor) : Except YamlError α :=
  .error (match c.rest with
    | d :: _ => .unexpected d
    | [] => .unfinished)

mutual

/-- A value in flow style, where an end of the collection around it is no value. -/
def flowValue : Nat → Cursor → Except YamlError (Data × Cursor)
  | 0, _ => .error .unfinished
  | fuel + 1, c =>
      let c := c.skip
      match c.rest with
      | '[' :: _ => flowList fuel [] (c.advance 1)
      | '\x7b' :: _ => flowMap fuel [] (c.advance 1)
      | _ => (scanScalar true (-1) c).map (fun (d, s) => (d, s.cursor))

/-- The items of a list in flow style after some of them. An item with a colon behind it is a
mapping of one key. -/
def flowList : Nat → List Data → Cursor → Except YamlError (Data × Cursor)
  | 0, _, _ => .error .unfinished
  | fuel + 1, items, c => do
      let c := c.skip
      match c.rest with
      | ']' :: _ => .ok (.list items, c.advance 1)
      | _ =>
          let (item, c) ← flowValue fuel c
          let c := c.skip
          let (item, c) ← match c.rest with
            | ':' :: _ => do
                let (value, c) ← flowEntryValue fuel (c.advance 1)
                .ok (Data.map [(keyText item, value)], c)
            | _ => .ok (item, c)
          let c := c.skip
          match c.rest with
          | ',' :: _ => flowList fuel (items ++ [item]) (c.advance 1)
          | ']' :: _ => .ok (.list (items ++ [item]), c.advance 1)
          | _ => unexpectedAt c

def flowMap : Nat → List (String × Data) → Cursor → Except YamlError (Data × Cursor)
  | 0, _, _ => .error .unfinished
  | fuel + 1, entries, c => do
      let c := c.skip
      match c.rest with
      | '\x7d' :: _ => .ok (.map entries, c.advance 1)
      | _ =>
          let (key, s) ← scanScalar true (-1) c
          let c := s.cursor.skip
          let (value, c) ← match c.rest with
            | ':' :: _ => flowEntryValue fuel (c.advance 1)
            | _ => .ok (Data.null, c)
          let entries := Keyed.insert (keyText key) value entries
          let c := c.skip
          match c.rest with
          | ',' :: _ => flowMap fuel entries (c.advance 1)
          | '\x7d' :: _ => .ok (.map entries, c.advance 1)
          | _ => unexpectedAt c

def flowEntryValue : Nat → Cursor → Except YamlError (Data × Cursor)
  | 0, _ => .error .unfinished
  | fuel + 1, c =>
      let c := c.skip
      match c.rest with
      | ',' :: _ | ']' :: _ | '\x7d' :: _ => .ok (.null, c)
      | _ => flowValue fuel c

end

mutual

/-- A value inside a block. Keys may stand only at the start of a line or behind a dash. A list
that is the value of a key may be indented like the key. -/
def blockValue (indent : Int) (keys besideKey : Bool) :
    Nat → Cursor → Except YamlError (Data × Cursor)
  | 0, _ => .error .unfinished
  | fuel + 1, c =>
      let c := c.skip
      let keys := keys || c.fresh
      let isItem := c.isIndicator '-'
      if c.isOver then .ok (.null, c)
      else if c.fresh && (c.column : Int) ≤ indent &&
          !(besideKey && isItem && (c.column : Int) = indent) then .ok (.null, c)
      else if isItem then
        if keys then blockList c.column besideKey [] fuel c else unexpectedAt c
      else match c.rest with
        | '[' :: _ => flowValue (fuel + 1) c
        | '\x7b' :: _ => flowValue (fuel + 1) c
        | '|' :: _ =>
            (scanBlock false indent c).map (fun s => (.text (String.ofList s.text), s.cursor))
        | '>' :: _ =>
            (scanBlock true indent c).map (fun s => (.text (String.ofList s.text), s.cursor))
        | _ => do
            let (value, s) ← scanScalar false indent c
            match s.cursor.colon? with
            | none => .ok (value, s.cursor)
            | some colon =>
                if keys && s.oneLine then blockMap c.column [] (keyText value) fuel colon
                else unexpectedAt colon

/-- The entries of a mapping in a column after some of them, from the colon behind a key on. -/
def blockMap (column : Nat) (entries : List (String × Data)) (key : String) :
    Nat → Cursor → Except YamlError (Data × Cursor)
  | 0, _ => .error .unfinished
  | fuel + 1, colon => do
      let (value, c) ← blockValue column false true fuel (colon.advance 1)
      let entries := Keyed.insert key value entries
      let c := c.skip
      if c.isOver then .ok (.map entries, c)
      else if !c.fresh then unexpectedAt c
      else if c.column < column then .ok (.map entries, c)
      else if column < c.column then .error .indentation
      else
        let (key, s) ← scanScalar false column c
        match s.cursor.colon? with
        | none => unexpectedAt s.cursor
        | some colon =>
            if s.oneLine then blockMap column entries (keyText key) fuel colon
            else unexpectedAt colon

def blockList (column : Nat) (besideKey : Bool) (items : List Data) :
    Nat → Cursor → Except YamlError (Data × Cursor)
  | 0, _ => .error .unfinished
  | fuel + 1, c => do
      let (item, c) ← blockValue column true false fuel (c.advance 1)
      let items := items ++ [item]
      let c := c.skip
      if c.isOver then .ok (.list items, c)
      else if !c.fresh then unexpectedAt c
      else if c.column < column then .ok (.list items, c)
      else if column < c.column then .error .indentation
      else if c.isIndicator '-' then blockList column besideKey items fuel c
      else if besideKey then .ok (.list items, c)
      else unexpectedAt c

end

def isAllowed (c : Char) : Bool :=
  let n := c.toNat
  n = 9 || n = 10 || n = 13 || (0x20 ≤ n && n ≤ 0x7E) || n = 0x85 || (0xA0 ≤ n && n ≤ 0xFFFD) ||
    0x10000 ≤ n

def dropDirectives : List (List Char) → List (List Char)
  | [] => []
  | line :: lines => if line.head? = some '%' then dropDirectives lines else line :: lines

/-- What follows the document has to be the end of the text or of the document. -/
def finish (value : Data) (c : Cursor) : Except YamlError Data :=
  let c := c.skip
  if c.rest.isEmpty then .ok value
  else if Cursor.isMarker '.' c.column c.rest then
    if (c.advance 3).skip.rest.isEmpty then .ok value else .error .severalDocuments
  else if Cursor.isMarker '-' c.column c.rest then .error .severalDocuments
  else unexpectedAt c

def read (cs : List Char) : Except YamlError Data := do
  match cs.find? (fun c => !isAllowed c) with
  | some c => .error (.unprintable c)
  | none => pure ()
  let cs := match cs with
    | '\ufeff' :: rest => rest
    | _ => cs
  let start := (Cursor.mk cs 0 true).skip
  let directives := start.column = 0 && start.rest.head? = some '%'
  let start :=
    if directives then
      (Cursor.mk (Text.joinWith '\n' (dropDirectives (Text.splitOn '\n' start.rest))) 0 true).skip
    else start
  let fuel := 2 * cs.length + 2
  if Cursor.isMarker '-' start.column start.rest then
    let (value, c) ← blockValue (-1) false false fuel (start.advance 3)
    finish value c
  else if directives then unexpectedAt start
  else
    let (value, c) ← blockValue (-1) true false fuel start
    finish value c

end TypedTables.Yaml
