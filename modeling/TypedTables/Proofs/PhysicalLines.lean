import TypedTables.Text.Blank

/-!
Physical lines, as a compiler or a terminal sees them: a text is cut at every line feed and at
every carriage return. A line without code is blank or a comment.
-/

namespace TypedTables.Text

def isBreak (c : Char) : Bool := c == '\n' || c == '\r'

/-- The physical lines of a text; behind a break at its end stands an empty one. -/
def physicalLines : List Char → List (List Char)
  | [] => [[]]
  | c :: cs =>
      if isBreak c then [] :: physicalLines cs
      else match physicalLines cs with
        | [] => [[c]]
        | line :: lines => (c :: line) :: lines

def SingleLine (cs : List Char) : Prop := ∀ c ∈ cs, isBreak c = false

instance (cs : List Char) : Decidable (SingleLine cs) := List.decidableBAll _ cs

/-- A line that is blank or a comment: its first character that is no blank is a `#`. -/
def Inert (line : List Char) : Prop := ∀ c ∈ (trimStart line).head?, c = '#'

instance (line : List Char) : Decidable (Inert line) :=
  decidable_of_iff ((trimStart line).head?.all (· = '#') = true) (by
    cases h : (trimStart line).head? <;> simp [Inert, h])

section

variable {cs ds : List Char}

theorem singleLine_append : SingleLine (cs ++ ds) ↔ SingleLine cs ∧ SingleLine ds :=
  List.forall_mem_append

theorem SingleLine.append (h : SingleLine cs) (hrest : SingleLine ds) : SingleLine (cs ++ ds) :=
  singleLine_append.mpr ⟨h, hrest⟩

theorem SingleLine.of_subset (h : SingleLine cs) (hsubset : ds ⊆ cs) : SingleLine ds :=
  fun c hc => h c (hsubset hc)

theorem physicalLines_ne_nil (cs : List Char) : physicalLines cs ≠ [] := by
  cases cs with
  | nil => simp [physicalLines]
  | cons c cs =>
      rw [physicalLines]
      split
      · simp
      · split <;> simp

theorem physicalLines_break {c : Char} (h : isBreak c = true) (cs : List Char) :
    physicalLines (c :: cs) = [] :: physicalLines cs := by
  rw [physicalLines, if_pos h]

theorem exists_physicalLines (cs : List Char) :
    ∃ line lines, physicalLines cs = line :: lines :=
  List.exists_cons_of_ne_nil (physicalLines_ne_nil cs)

theorem physicalLines_append (h : SingleLine cs) {line : List Char} {lines : List (List Char)}
    (hlines : physicalLines ds = line :: lines) :
    physicalLines (cs ++ ds) = (cs ++ line) :: lines := by
  induction cs with
  | nil => exact hlines
  | cons c cs ih =>
      obtain ⟨hc, hcs⟩ := List.forall_mem_cons.mp h
      rw [List.cons_append, physicalLines, hc, ih hcs]
      rfl

theorem physicalLines_append_break {c : Char} (h : isBreak c = true) (cs ds : List Char) :
    physicalLines (cs ++ c :: ds) = physicalLines cs ++ physicalLines ds := by
  induction cs with
  | nil => rw [List.nil_append, physicalLines_break h]; rfl
  | cons d cs ih =>
      obtain ⟨line, lines, hcs⟩ := exists_physicalLines cs
      rw [hcs, List.cons_append] at ih
      rw [List.cons_append, physicalLines, physicalLines, hcs, ih]
      split <;> rfl

theorem physicalLines_of_singleLine (h : SingleLine cs) : physicalLines cs = [cs] := by
  rw [← List.append_nil cs, physicalLines_append h rfl]

theorem inert_nil : Inert [] := by decide

theorem inert_comment {blanks : List Char} (h : ∀ c ∈ blanks, isBlank c = true) (cs : List Char) :
    Inert (blanks ++ '#' :: cs) := by
  have hhash : isBlank '#' = false := by decide
  rw [Inert, trimStart_blanks_append _ h, trimStart, List.dropWhile_cons_of_neg (by simp [hhash])]
  simp

end

end TypedTables.Text
