namespace TypedTables.Text

def splitOn (sep : Char) : List Char → List (List Char)
  | [] => [[]]
  | c :: cs =>
      if c = sep then [] :: splitOn sep cs
      else match splitOn sep cs with
        | [] => [[c]]
        | part :: parts => (c :: part) :: parts

def joinWith (sep : Char) : List (List Char) → List Char
  | [] => []
  | [part] => part
  | part :: next :: parts => part ++ sep :: joinWith sep (next :: parts)

theorem splitOn_ne_nil (sep : Char) (cs : List Char) : splitOn sep cs ≠ [] := by
  cases cs with
  | nil => simp [splitOn]
  | cons c cs => simp only [splitOn]; split <;> (try split) <;> simp

theorem joinWith_splitOn (sep : Char) (cs : List Char) : joinWith sep (splitOn sep cs) = cs := by
  induction cs with
  | nil => rfl
  | cons c cs ih =>
      simp only [splitOn]
      split
      · rename_i h
        cases hs : splitOn sep cs with
        | nil => exact absurd hs (splitOn_ne_nil sep cs)
        | cons part parts => rw [hs] at ih; simp [joinWith, ih, h]
      · cases hs : splitOn sep cs with
        | nil => exact absurd hs (splitOn_ne_nil sep cs)
        | cons part parts =>
            rw [hs] at ih
            cases parts with
            | nil => simpa [joinWith] using ih
            | cons next parts => simpa [joinWith] using ih

def components (name : String) : List String :=
  (splitOn '.' name.toList).map String.ofList

theorem components_ne_nil (name : String) : components name ≠ [] := by
  simp [components, splitOn_ne_nil]

def dotted (parts : List String) : String :=
  String.ofList (joinWith '.' (parts.map String.toList))

theorem dotted_components (name : String) : dotted (components name) = name := by
  simp [dotted, components, Function.comp_def, joinWith_splitOn]

/-- The text before the first separator and the text after it; without one, all and nothing. -/
def cutAtFirst (sep : Char) (cs : List Char) : List Char × List Char :=
  (cs.takeWhile (· ≠ sep), (cs.dropWhile (· ≠ sep)).drop 1)

def headComponent (name : String) : String × String :=
  let (head, rest) := cutAtFirst '.' name.toList
  (String.ofList head, String.ofList rest)

/-- The text after the last separator, all of it if there is none. -/
def afterLast (sep : Char) (cs : List Char) : List Char :=
  (cs.reverse.takeWhile (· ≠ sep)).reverse

def beforeLast? (sep : Char) (cs : List Char) : Option (List Char) :=
  match cs.reverse.dropWhile (· ≠ sep) with
  | [] => none
  | _ :: before => some before.reverse

def lastComponent (name : String) : String :=
  String.ofList (afterLast '.' name.toList)

/-- A dotted name without its last component, empty for a single component. -/
def parentName (name : String) : String :=
  String.ofList ((beforeLast? '.' name.toList).getD [])

end TypedTables.Text
