import TypedTables.Data.Written

/-!
Plain data as JSON text: one item a line, two blanks for each level, and no character beyond ASCII.
-/

namespace TypedTables.Data

open Text

def unitEscape (n : Nat) : List Char :=
  '\\' :: 'u' :: hexDigits 4 n

/-- A character in a JSON string. A character beyond sixteen bits takes two escapes. -/
def jsonEscaped (c : Char) : List Char :=
  if c = '"' || c = '\\' then ['\\', c]
  else if c = '\n' then ['\\', 'n']
  else if c = '\r' then ['\\', 'r']
  else if c = '\t' then ['\\', 't']
  else if c = '\x08' then ['\\', 'b']
  else if c = '\x0c' then ['\\', 'f']
  else if ' ' ≤ c && c ≤ '~' then [c]
  else if c.toNat < 0x10000 then unitEscape c.toNat
  else
    let n := c.toNat - 0x10000
    unitEscape (0xD800 + n / 0x400) ++ unitEscape (0xDC00 + n % 0x400)

def jsonString (s : String) : String :=
  String.ofList ('"' :: s.toList.flatMap jsonEscaped ++ ['"'])

def lineStart (level : Nat) : String :=
  String.ofList ('\n' :: List.replicate (2 * level) ' ')

def jsonBlock (level : Nat) (first last : String) (items : List String) : String :=
  if items.isEmpty then first ++ last
  else first ++ String.intercalate "," (items.map (lineStart (level + 1) ++ ·)) ++
    lineStart level ++ last

mutual

def jsonAt (level : Nat) : Data → String
  | .null => "null"
  | .bool b => if b then "true" else "false"
  | .int n => toString n
  | .float x => floatText x
  | .text s => jsonString s
  | .moment s => jsonString s
  | .list items => jsonBlock level "[" "]" (jsonItems (level + 1) items)
  | .map entries => jsonBlock level "\x7b" "\x7d" (jsonEntries (level + 1) entries)

def jsonItems (level : Nat) : List Data → List String
  | [] => []
  | d :: ds => d.jsonAt level :: jsonItems level ds

def jsonEntries (level : Nat) : List (String × Data) → List String
  | [] => []
  | (key, d) :: rest => (jsonString key ++ ": " ++ d.jsonAt level) :: jsonEntries level rest

end

def json (d : Data) : String := d.jsonAt 0

end TypedTables.Data
