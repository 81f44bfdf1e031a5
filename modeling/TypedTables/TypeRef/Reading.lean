import TypedTables.Entity
import TypedTables.Text.Blank
import TypedTables.Text.WordChar

/-!
Reading a declared type from its text. A type is a dotted name, possibly with an argument text in
square brackets and possibly quoted; a bar outside all brackets makes it a union; anything else
is kept as it stands.
-/

namespace TypedTables.TypeRef

open Text

def isQuote (c : Char) : Bool :=
  c == '"' || c == '\''

/-- A text in quotes of one kind without them and without the blanks inside them; any other text
as it is. -/
def unquote (cs : List Char) : List Char :=
  match cs with
  | first :: second :: rest =>
      if isQuote first && (second :: rest).getLast? == some first then
        trim (second :: rest).dropLast
      else cs
  | _ => cs

/-- Whether a bar stands outside round and square brackets, counted from a depth on. -/
def hasBarAt (depth : Int) : List Char → Bool
  | [] => false
  | c :: cs =>
      if c == '[' || c == '(' then hasBarAt (depth + 1) cs
      else if c == ']' || c == ')' then hasBarAt (depth - 1) cs
      else (c == '|' && depth == 0) || hasBarAt depth cs

def hasOuterBar (cs : List Char) : Bool :=
  hasBarAt 0 cs

def takeComponent? : List Char → Option (List Char × List Char)
  | [] => none
  | c :: cs =>
      if isNameStart c then some (c :: cs.takeWhile isWord, cs.dropWhile isWord) else none

theorem takeComponent?_length {cs component rest : List Char}
    (h : takeComponent? cs = some (component, rest)) : rest.length < cs.length := by
  cases cs with
  | nil => simp [takeComponent?] at h
  | cons c cs =>
      simp only [takeComponent?] at h
      split at h
      · simp only [Option.some.injEq, Prod.mk.injEq] at h
        rw [← h.2, List.length_cons]
        exact Nat.lt_succ_of_le (List.dropWhile_sublist _).length_le
      · simp at h

def nextComponent? (cs : List Char) : Option (List Char × List Char) :=
  match trimStart cs with
  | '.' :: rest => takeComponent? (trimStart rest)
  | _ => none

theorem nextComponent?_length {cs component rest : List Char}
    (h : nextComponent? cs = some (component, rest)) : rest.length < cs.length := by
  have hcs : (trimStart cs).length ≤ cs.length := (List.dropWhile_sublist _).length_le
  unfold nextComponent? at h
  split at h
  · rename_i after hs
    have hafter : (trimStart after).length ≤ after.length := (List.dropWhile_sublist _).length_le
    have hrest := takeComponent?_length h
    rw [hs, List.length_cons] at hcs
    omega
  · simp at h

def takeMore (cs : List Char) : List (List Char) × List Char :=
  match _h : nextComponent? cs with
  | some (component, rest) =>
      let (more, final) := takeMore rest
      (component :: more, final)
  | none => ([], cs)
termination_by cs.length
decreasing_by exact nextComponent?_length _h

/-- An argument text: empty, or one that starts with an opening and ends with a closing square
bracket. -/
def isArguments : List Char → Bool
  | [] => true
  | c :: rest => c == '[' && rest.getLast? == some ']'

def nameAndArguments? (cs : List Char) : Option (List (List Char) × List Char) :=
  match takeComponent? cs with
  | none => none
  | some (first, rest) =>
      let (more, rest) := takeMore rest
      let arguments := trimStart rest
      if isArguments arguments then some (first :: more, arguments) else none

def unionTypes : List String := ["typing.Optional", "typing.Union"]

/-- Reads a declared type; `resolve` maps a dotted name to its qualified name. -/
def ofText (text : String) (resolve : String → String) : TypeRef :=
  let written := trim text.toList
  let bare := unquote written
  if hasOuterBar bare then ⟨String.ofList written, String.ofList bare, "", .union⟩
  else match nameAndArguments? bare with
    | none => ⟨String.ofList written, String.ofList bare, "", .other⟩
    | some (parts, arguments) =>
        let qualified := resolve (String.ofList (joinWith '.' parts))
        let kind : TypeKind :=
          if qualified ∈ unionTypes then .union
          else if arguments.isEmpty then .name
          else .generic
        ⟨String.ofList written, qualified, String.ofList arguments, kind⟩

def isClassVar (t : TypeRef) : Bool :=
  t.qualified = "typing.ClassVar"

end TypedTables.TypeRef
