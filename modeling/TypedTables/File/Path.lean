import TypedTables.Text.Split
import TypedTables.Text.Quoted

/-!
Paths as text: components joined by slashes. Empty components and single dots are dropped when a
path is read, so two spellings that differ only in them are one path; a double dot is kept until
the path is resolved.
-/

namespace TypedTables

open Text

/-- Where a path starts. Two leading slashes are kept apart from one. -/
inductive Anchor where
  | relative
  | root
  | doubleRoot
  deriving DecidableEq, Repr

def Anchor.text : Anchor → String
  | .relative => ""
  | .root => "/"
  | .doubleRoot => "//"

structure Path where
  anchor : Anchor
  components : List String
  deriving DecidableEq, Repr

inductive PathError where
  | emptyName (path : String)
  | notBelow (path root : String)
  deriving DecidableEq, Repr

def PathError.message : PathError → String
  | .emptyName path => s!"PosixPath({quoted path}) has an empty name"
  | .notBelow path root =>
      s!"{quoted path} is not in the subpath of {quoted root} OR one path is relative and the " ++
        "other is absolute."

namespace Path

def anchorOf : List Char → Anchor
  | ['/', '/'] => .doubleRoot
  | '/' :: '/' :: c :: _ => if c = '/' then .root else .doubleRoot
  | '/' :: _ => .root
  | _ => .relative

def ofText (text : String) : Path :=
  let parts := (splitOn '/' text.toList).filter (fun part => part ≠ [] ∧ part ≠ ['.'])
  ⟨anchorOf text.toList, parts.map String.ofList⟩

def bareText (p : Path) : String :=
  p.anchor.text ++ String.ofList (joinWith '/' (p.components.map String.toList))

/-- Writes a path; the empty one is a single dot. -/
def text (p : Path) : String :=
  if p.anchor = .relative && p.components.isEmpty then "." else p.bareText

def isAbsolute (p : Path) : Bool := p.anchor ≠ .relative

/-- A path below another one; an absolute path stands for itself. -/
def join (p q : Path) : Path :=
  if q.isAbsolute then q else ⟨p.anchor, p.components ++ q.components⟩

def joinAll (p : Path) (parts : List String) : Path :=
  parts.foldl (fun path part => path.join (ofText part)) p

def parent (p : Path) : Path := ⟨p.anchor, p.components.dropLast⟩

def name (p : Path) : String := p.components.getLast?.getD ""

/-- The text of a name from its last dot on, if that dot is neither its first nor its last
character, and the text before it. -/
def splitSuffix (name : String) : String × String :=
  match beforeLast? '.' name.toList with
  | none => (name, "")
  | some [] => (name, "")
  | some (c :: stem) =>
      let after := afterLast '.' name.toList
      if after.isEmpty then (name, "")
      else (String.ofList (c :: stem), String.ofList ('.' :: after))

def suffix (p : Path) : String := (splitSuffix p.name).2

def withoutSuffix (p : Path) : Except PathError Path :=
  if p.components.isEmpty then .error (.emptyName p.text)
  else .ok ⟨p.anchor, p.components.dropLast ++ [(splitSuffix p.name).1]⟩

def dropLeading? : List String → List String → Option (List String)
  | [], rest => some rest
  | _ :: _, [] => none
  | x :: xs, y :: ys => if x = y then dropLeading? xs ys else none

def below? (p root : Path) : Option (List String) :=
  if p.anchor = root.anchor then dropLeading? root.components p.components else none

/-- The path relative to a root that lies above it. In the error the empty root shows as nothing. -/
def relativeTo (p root : Path) : Except PathError Path :=
  match p.below? root with
  | some parts => .ok ⟨.relative, parts⟩
  | none => .error (.notBelow p.text root.bareText)

/-- Follows components from a location, where a double dot leads to the location above. -/
def resolveFrom (location : List String) : List String → List String
  | [] => location
  | c :: cs => resolveFrom (if c = ".." then location.dropLast else location ++ [c]) cs

def resolve (p : Path) (cwd : List String) : Path :=
  ⟨.root, resolveFrom (if p.isAbsolute then [] else cwd) p.components⟩

end Path

end TypedTables
