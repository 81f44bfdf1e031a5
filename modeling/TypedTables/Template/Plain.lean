import TypedTables.Template.Source
import TypedTables.Text.Blank
import TypedTables.Text.Lines

/-!
The plain language of overrides, which the program runs with: names between double braces stand for
their values, and nothing else is looked at.
-/

namespace TypedTables

namespace Template

open Text

/-- Reads the text between two places for values, or the name of a value. Both lists gather what
has been read, last character first. -/
def partsOfChars (text : List Char) (name : Option (List Char)) : List Char → Template
  | [] =>
      let unread := match name with
        | some name => '\x7b' :: '\x7b' :: name.reverse
        | none => []
      [.text (String.ofList (text.reverse ++ unread))]
  | '\x7b' :: '\x7b' :: cs =>
      match name with
      | none => partsOfChars text (some []) cs
      | some name => partsOfChars text (some ('\x7b' :: '\x7b' :: name)) cs
  | '\x7d' :: '\x7d' :: cs =>
      match name with
      | none => partsOfChars ('\x7d' :: '\x7d' :: text) none cs
      | some name =>
          .text (String.ofList text.reverse) ::
            .value (String.ofList (trim name.reverse)) :: partsOfChars [] none cs
  | c :: cs =>
      match name with
      | none => partsOfChars (c :: text) none cs
      | some name => partsOfChars text (some (c :: name)) cs

def ofText (text : String) : Template :=
  partsOfChars [] none (unifyLineEnds text.toList)

end Template

instance plainOverrides : OverrideLanguage where
  fill _ text := (Template.ofText text).render

end TypedTables
