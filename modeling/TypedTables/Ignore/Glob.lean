/-!
Globs over paths written as text. A glob is a list of items; it matches a path if its items can be
read off the path one after the other from the start.
-/

namespace TypedTables.Ignore

inductive SetMember where
  | one (c : Char)
  | range (first last : Char)
  deriving DecidableEq, Repr

def SetMember.holds : SetMember → Char → Bool
  | .one c, x => x == c
  | .range first last, x => first ≤ x && x ≤ last

inductive GlobItem where
  /-- Nothing, or any text and a slash. -/
  | leadingDirs
  /-- Nothing, or a slash and any text. -/
  | innerDirs
  | slash
  /-- Any part of a name. -/
  | run
  /-- Any name. -/
  | name
  /-- Any character of a name. -/
  | single
  | char (c : Char)
  | set (negated : Bool) (members : List SetMember)
  /-- The end of a name. -/
  | nameEnd
  deriving DecidableEq, Repr

def restsAfterSome (p : Char → Bool) : List Char → List (List Char)
  | [] => []
  | c :: cs => if p c then cs :: restsAfterSome p cs else []

def restsAfterAny (p : Char → Bool) (cs : List Char) : List (List Char) :=
  cs :: restsAfterSome p cs

def restAfterSlash : List Char → List (List Char)
  | '/' :: cs => [cs]
  | _ => []

/-- The end of a text, where one last line feed does not count. -/
def isTextEnd : List Char → Bool
  | [] => true
  | ['\n'] => true
  | _ => false

namespace GlobItem

def rests : GlobItem → List Char → List (List Char)
  | leadingDirs, cs => cs :: (restsAfterSome (· ≠ '\n') cs).flatMap restAfterSlash
  | innerDirs, cs => cs :: (restAfterSlash cs).flatMap (restsAfterSome (· ≠ '\n'))
  | slash, cs => restAfterSlash cs
  | run, cs => restsAfterAny (· ≠ '/') cs
  | name, cs => restsAfterSome (· ≠ '/') cs
  | single, cs => match cs with
      | [] => []
      | c :: cs => if c = '/' then [] else [cs]
  | char d, cs => match cs with
      | [] => []
      | c :: cs => if c = d then [cs] else []
  | set negated members, cs => match cs with
      | [] => []
      | c :: cs => if members.any (fun m => m.holds c) != negated then [cs] else []
  | nameEnd, cs => if isTextEnd cs then [cs] else restAfterSlash cs

end GlobItem

def globMatches : List GlobItem → List Char → Bool
  | [], _ => true
  | item :: items, cs => (item.rests cs).any (globMatches items)

inductive GlobFault where
  | openSet
  | loneEscape
  deriving DecidableEq, Repr

def setMembers : List Char → List SetMember
  | first :: '-' :: last :: cs => .range first last :: setMembers cs
  | c :: cs => .one c :: setMembers cs
  | [] => []

/-- The text of a set up to its closing bracket, and the text after it. A closing bracket that
comes first belongs to the set. -/
def cutSet? : List Char → Option (List Char × List Char)
  | ']' :: cs =>
      match cs.dropWhile (· ≠ ']') with
      | [] => none
      | _ :: rest => some (']' :: cs.takeWhile (· ≠ ']'), rest)
  | cs =>
      match cs.dropWhile (· ≠ ']') with
      | [] => none
      | _ :: rest => some (cs.takeWhile (· ≠ ']'), rest)

def readSet? (cs : List Char) : Option (GlobItem × List Char) :=
  match cs with
  | [] => none
  | c :: rest =>
      let negated := c = '!' || c = '^'
      (cutSet? (if negated then rest else cs)).map
        (fun (members, after) => (.set negated (setMembers members), after))

theorem cutSet?_length {cs members rest : List Char} (h : cutSet? cs = some (members, rest)) :
    rest.length < cs.length := by
  have key : ∀ l : List Char, ∀ c r, l.dropWhile (· ≠ ']') = c :: r → r.length < l.length := by
    intro l c r hr
    have := (List.dropWhile_sublist (l := l) (· ≠ ']')).length_le
    rw [hr, List.length_cons] at this
    omega
  unfold cutSet? at h
  split at h
  · split at h
    · simp at h
    · rename_i hr
      simp only [Option.some.injEq, Prod.mk.injEq] at h
      have := key _ _ _ hr
      rw [← h.2, List.length_cons]
      omega
  · split at h
    · simp at h
    · rename_i hr
      simp only [Option.some.injEq, Prod.mk.injEq] at h
      rw [← h.2]
      exact key _ _ _ hr

theorem readSet?_length {cs rest : List Char} {item : GlobItem}
    (h : readSet? cs = some (item, rest)) : rest.length < cs.length := by
  unfold readSet? at h
  split at h
  · simp at h
  · rename_i c after
    simp only [Option.map_eq_some_iff] at h
    obtain ⟨⟨members, tail⟩, hcut, heq⟩ := h
    simp only [Prod.mk.injEq] at heq
    have := cutSet?_length hcut
    rw [← heq.2]
    split at this
    · rw [List.length_cons]; omega
    · exact this

def nameGlob (cs : List Char) : Except GlobFault (List GlobItem) :=
  match cs with
  | [] => .ok []
  | '\\' :: rest =>
      match rest with
      | [] => .error .loneEscape
      | c :: rest => (nameGlob rest).map (.char c :: ·)
  | '*' :: rest => (nameGlob rest).map (.run :: ·)
  | '?' :: rest => (nameGlob rest).map (.single :: ·)
  | '[' :: rest =>
      match _h : readSet? rest with
      | none => .error .openSet
      | some (item, after) => (nameGlob after).map (item :: ·)
  | c :: rest => (nameGlob rest).map (.char c :: ·)
termination_by cs.length
decreasing_by
  all_goals simp only [List.length_cons]
  all_goals try omega
  have := readSet?_length _h
  omega

end TypedTables.Ignore
