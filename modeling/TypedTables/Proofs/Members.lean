import TypedTables.Entity
import TypedTables.Proofs.DottedName
import TypedTables.Proofs.Template.Told

/-!
The members of a generated class, as its text defines them: methods and properties, each at its
`def` line. A property with a setter is defined at two of these lines and counts once.
-/

namespace TypedTables

open Text

theorem Text.splitOn_append (sep : Char) (xs ys : List Char) :
    splitOn sep (xs ++ sep :: ys) = splitOn sep xs ++ splitOn sep ys := by
  induction xs with
  | nil => simp [splitOn]
  | cons x xs ih =>
      rw [List.cons_append, splitOn, splitOn]
      split
      · rw [ih, List.cons_append]
      · obtain ⟨part, parts, hsplit⟩ := List.exists_cons_of_ne_nil (splitOn_ne_nil sep xs)
        rw [ih, hsplit]
        rfl

theorem Text.takeWhile_append_of_mem {sep : Char} {xs : List Char} (h : sep ∈ xs)
    (rest : List Char) : (xs ++ rest).takeWhile (· ≠ sep) = xs.takeWhile (· ≠ sep) := by
  have hstop : ∀ before after : List Char,
      (before ++ sep :: after).takeWhile (· ≠ sep) = before.takeWhile (· ≠ sep) :=
    takeWhile_append_stop (decide_eq_false (not_not.mpr rfl))
  obtain ⟨before, after, rfl⟩ := List.append_of_mem h
  rw [List.append_assoc, List.cons_append, hstop, hstop]

inductive Mark where
  | setter (name : List Char)
  | definition (name : List Char)
  deriving DecidableEq, Repr

namespace Mark

def definitionStart : List Char := [' ', ' ', ' ', ' ', 'd', 'e', 'f', ' ']

def decoratorStart : List Char := [' ', ' ', ' ', ' ', '@']

def setterEnd : List Char := ['.', 's', 'e', 't', 't', 'e', 'r']

def ofLine? (line : List Char) : Option Mark :=
  if definitionStart <+: line then
    some (.definition ((line.drop definitionStart.length).takeWhile (· ≠ '(')))
  else if decoratorStart <+: line ∧ line.dropWhile (· ≠ '.') = setterEnd then
    some (.setter ((line.drop decoratorStart.length).takeWhile (· ≠ '.')))
  else none

def ofText (text : List Char) : List Mark := (splitOn '\n' text).filterMap ofLine?

/-- The names that are defined, where a definition right behind its setter counts no more. -/
def names : List Mark → List (List Char)
  | [] => []
  | .setter name :: .definition name' :: rest =>
      if name = name' then names rest else name' :: names rest
  | .setter _ :: rest => names rest
  | .definition name :: rest => name :: names rest

end Mark

def membersOf (text : String) : List String :=
  (Mark.names (Mark.ofText text.toList)).map String.ofList

namespace Mark

theorem ofText_of_not_mem {line : List Char} (h : '\n' ∉ line) :
    ofText line = (ofLine? line).toList := by
  rw [ofText, splitOn_of_not_mem h]
  cases hline : ofLine? line <;> simp [hline]

theorem ofText_unlines (lines : List (List Char)) :
    ofText (unlines lines) = lines.flatMap ofText := by
  induction lines with
  | nil => rfl
  | cons line lines ih =>
      have hsplit : unlines (line :: lines) = line ++ '\n' :: unlines lines := by simp [unlines]
      rw [ofText, hsplit, splitOn_append, List.filterMap_append, ← ofText, ← ofText, ih,
        List.flatMap_cons]

@[simp]
theorem names_definition (name : List Char) (rest : List Mark) :
    names (.definition name :: rest) = name :: names rest := rfl

@[simp]
theorem names_property (name : List Char) (rest : List Mark) :
    names (.setter name :: .definition name :: rest) = names rest := by
  rw [names, if_pos rfl]

def apart (xs ys : List Char) : Bool := !xs.isPrefixOf ys && !ys.isPrefixOf xs

theorem not_prefix_append {xs ys : List Char} (h : apart xs ys = true) (rest : List Char) :
    ¬ ys <+: xs ++ rest := by
  simp only [apart, Bool.and_eq_true, Bool.not_eq_true', Bool.eq_false_iff, ne_eq,
    List.isPrefixOf_iff_prefix] at h
  intro hprefix
  rcases List.prefix_or_prefix_of_prefix hprefix (List.prefix_append xs rest) with hys | hxs
  · exact h.2 hys
  · exact h.1 hxs

def isPlain (text : List Char) : Bool :=
  '\n' ∉ text && apart text definitionStart && apart text decoratorStart

def opensDefinition (text : List Char) : Bool :=
  '\n' ∉ text && '(' ∉ text && definitionStart.isPrefixOf text

def closesName (text : List Char) : Bool :=
  '\n' ∉ text && '(' ∈ text

def opensParameters (text : List Char) : Bool :=
  text.takeWhile (· ≠ '(') = [] && closesName text

theorem opensParameters_iff {text : List Char} :
    opensParameters text = true ↔ text.takeWhile (· ≠ '(') = [] ∧ closesName text = true := by
  rw [opensParameters, Bool.and_eq_true, decide_eq_true_eq]

def isDefinition (text : List Char) : Bool :=
  definitionStart.isPrefixOf text && closesName text

variable {text more name rest : List Char}

theorem ofText_plain (h : isPlain text = true) (hrest : '\n' ∉ rest) :
    ofText (text ++ rest) = [] := by
  simp only [isPlain, Bool.and_eq_true, decide_eq_true_eq] at h
  obtain ⟨⟨hflat, hdefinition⟩, hdecorator⟩ := h
  rw [ofText_of_not_mem (by simp [hflat, hrest]), ofLine?,
    if_neg (not_prefix_append hdefinition rest),
    if_neg (fun hline => not_prefix_append hdecorator rest hline.1)]
  rfl

theorem ofLine?_definition (rest : List Char) :
    ofLine? (definitionStart ++ rest) = some (.definition (rest.takeWhile (· ≠ '('))) := by
  rw [ofLine?, if_pos (List.prefix_append _ _), List.drop_left]

theorem eq_definitionStart_append (h : definitionStart.isPrefixOf text = true) :
    text = definitionStart ++ text.drop 8 :=
  (List.prefix_iff_eq_append.mp (List.isPrefixOf_iff_prefix.mp h)).symm

theorem ofText_definition (h : isDefinition text = true) (hrest : '\n' ∉ rest) :
    ofText (text ++ rest) = [.definition ((text.drop 8).takeWhile (· ≠ '('))] := by
  simp only [isDefinition, closesName, Bool.and_eq_true, decide_eq_true_eq] at h
  obtain ⟨hstart, hflat, hparen⟩ := h
  have hsplit := eq_definitionStart_append hstart
  have hdrop : '(' ∈ text.drop 8 := by
    rw [hsplit, List.mem_append] at hparen
    exact hparen.resolve_left (by decide)
  rw [ofText_of_not_mem (by simp [hflat, hrest]), hsplit, List.append_assoc, ofLine?_definition,
    List.drop_left' (by rfl), takeWhile_append_of_mem hdrop]
  rfl

theorem ofText_named (h : opensDefinition text = true) (hname : '(' ∉ name) (hline : '\n' ∉ name)
    (hmore : closesName more = true) (hrest : '\n' ∉ rest) :
    ofText (text ++ (name ++ (more ++ rest))) =
      [.definition (text.drop 8 ++ (name ++ more.takeWhile (· ≠ '(')))] := by
  simp only [opensDefinition, closesName, Bool.and_eq_true, decide_eq_true_eq] at h hmore
  obtain ⟨⟨hflat, hparen⟩, hstart⟩ := h
  have hdrop : '(' ∉ text.drop 8 := mt List.mem_of_mem_drop hparen
  rw [ofText_of_not_mem (by simp [hflat, hline, hmore.1, hrest]),
    eq_definitionStart_append hstart, List.append_assoc, ofLine?_definition,
    List.drop_left' (by rfl), List.takeWhile_append_of_pos (all_ne_of_not_mem hdrop),
    List.takeWhile_append_of_pos (all_ne_of_not_mem hname), takeWhile_append_of_mem hmore.2]
  rfl

theorem ofText_own (h : opensDefinition text = true) (hname : '(' ∉ name) (hline : '\n' ∉ name)
    (hmore : opensParameters more = true) (hrest : '\n' ∉ rest) :
    ofText (text ++ (name ++ (more ++ rest))) = [.definition (text.drop 8 ++ name)] := by
  obtain ⟨hopen, hcloses⟩ := opensParameters_iff.mp hmore
  rw [ofText_named h hname hline hcloses hrest, hopen, List.append_nil]

theorem ofText_own_end (h : opensDefinition text = true) (hname : '(' ∉ name) (hline : '\n' ∉ name)
    (hmore : opensParameters more = true) :
    ofText (text ++ (name ++ more)) = [.definition (text.drop 8 ++ name)] := by
  have howned := ofText_own h hname hline hmore List.not_mem_nil
  rwa [List.append_nil] at howned

theorem ofText_setter (h : text = decoratorStart) (hname : '.' ∉ name) (hline : '\n' ∉ name)
    (hmore : more = setterEnd) : ofText (text ++ (name ++ more)) = [.setter name] := by
  subst h hmore
  have hdrop : (decoratorStart ++ (name ++ setterEnd)).dropWhile (· ≠ '.') = setterEnd := by
    rw [List.dropWhile_append_of_pos (all_ne_of_not_mem (by decide)),
      List.dropWhile_append_of_pos (all_ne_of_not_mem hname)]
    rfl
  have htake : (name ++ setterEnd).takeWhile (· ≠ '.') = name := by
    rw [List.takeWhile_append_of_pos (all_ne_of_not_mem hname)]
    exact List.append_nil name
  have hflat : '\n' ∉ decoratorStart ++ (name ++ setterEnd) := by
    simp [decoratorStart, setterEnd, hline]
  rw [ofText_of_not_mem hflat, ofLine?, if_neg (not_prefix_append (by decide) _),
    if_pos ⟨List.prefix_append _ _, hdrop⟩, List.drop_left, htake]
  rfl

theorem ofText_of_render {template : Template} {context : List (String × Data)} {text : String}
    (hlines : areLines template = true) (h : template.render context = .ok text) :
    ofText text.toList = toldLines ofText ⟨context, .null⟩ template := by
  rw [Template.toList_of_render hlines h, ofText_unlines]
  rfl

end Mark

theorem membersOf_of_render {template : Template} {context : List (String × Data)} {text : String}
    (hlines : areLines template = true) (h : template.render context = .ok text) :
    membersOf text = (Mark.names (toldLines Mark.ofText ⟨context, .null⟩ template)).map
      String.ofList := by
  rw [membersOf, Mark.ofText_of_render hlines h]

end TypedTables
