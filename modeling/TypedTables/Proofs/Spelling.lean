import TypedTables.Proofs.DottedName
import TypedTables.TypeRef.Reading

namespace TypedTables

open Text

/-- A name of word characters, the first one an ASCII letter or the underscore. -/
structure IsIdentifier (name : String) : Prop where
  starts : name.toList.head?.any isNameStart = true
  continues : ∀ c ∈ name.toList, isWord c = true

theorem isIdentifier_iff (name : String) :
    name.toList.head?.any isNameStart = true ∧ name.toList.all isWord = true ↔
      IsIdentifier name := by
  rw [List.all_eq_true]
  exact ⟨fun ⟨hstart, hword⟩ => ⟨hstart, hword⟩, fun ⟨hstart, hword⟩ => ⟨hstart, hword⟩⟩

instance (name : String) : Decidable (IsIdentifier name) :=
  decidable_of_iff _ (isIdentifier_iff name)

theorem IsIdentifier.exists_cons {name : String} (h : IsIdentifier name) :
    ∃ c cs, name.toList = c :: cs ∧ isNameStart c = true ∧ ∀ d ∈ cs, isWord d = true := by
  obtain ⟨hstart, hword⟩ := h
  cases hcs : name.toList with
  | nil => simp [hcs] at hstart
  | cons c cs =>
      rw [hcs] at hstart hword
      exact ⟨c, cs, rfl, by simpa using hstart, (List.forall_mem_cons.mp hword).2⟩

theorem IsIdentifier.isComponent {name : String} (h : IsIdentifier name) : IsComponent name where
  nonempty := by
    rintro rfl
    exact absurd h.starts (by decide)
  noDot hdot := absurd (h.continues '.' hdot) (by decide)

namespace Text

def blankCodes : List Nat :=
  List.range' 9 5 ++ List.range' 28 5 ++ [0x85, 0xA0, 0x1680] ++ List.range' 0x2000 11 ++
    [0x2028, 0x2029, 0x202F, 0x205F, 0x3000]

theorem isWord_blankCodes : ∀ n ∈ blankCodes, isWord (Char.ofNat n) = false := by
  decide +kernel

theorem mem_blankCodes {c : Char} (h : isBlank c = true) : c.toNat ∈ blankCodes := by
  simp only [isBlank, Bool.or_eq_true, Bool.and_eq_true, decide_eq_true_eq, beq_iff_eq] at h
  simp only [blankCodes, List.mem_append, List.mem_range'_1, List.mem_cons, List.not_mem_nil]
  omega

theorem isBlank_of_isWord {c : Char} (h : isWord c = true) : isBlank c = false := by
  rw [Bool.eq_false_iff]
  intro hblank
  have hword := isWord_blankCodes c.toNat (mem_blankCodes hblank)
  rw [Char.ofNat_toNat, h] at hword
  cases hword

theorem trimStart_of_head {c : Char} (h : isBlank c = false) (cs : List Char) :
    trimStart (c :: cs) = c :: cs := by
  rw [trimStart, List.dropWhile_cons_of_neg (by simp [h])]

theorem joinWith_cons (sep : Char) (part : List Char) (parts : List (List Char)) :
    joinWith sep (part :: parts) = part ++ parts.flatMap (sep :: ·) := by
  induction parts generalizing part with
  | nil => simp [joinWith]
  | cons next parts ih => rw [joinWith, ih next, List.flatMap_cons, List.cons_append]

end Text

namespace TypeRef

theorem takeComponent?_append {name : String} (h : IsIdentifier name) {rest : List Char}
    (hrest : rest.head?.any isWord = false) :
    takeComponent? (name.toList ++ rest) = some (name.toList, rest) := by
  obtain ⟨c, cs, hname, hstart, hword⟩ := h.exists_cons
  have hstop : rest.takeWhile isWord = [] ∧ rest.dropWhile isWord = rest := by
    cases rest with
    | nil => exact ⟨rfl, rfl⟩
    | cons d rest =>
        have hd : isWord d = false := by simpa using hrest
        exact ⟨List.takeWhile_cons_of_neg (by simp [hd]), List.dropWhile_cons_of_neg (by simp [hd])⟩
  rw [hname, List.cons_append, takeComponent?, if_pos hstart, List.takeWhile_append_of_pos hword,
    List.dropWhile_append_of_pos hword, hstop.1, hstop.2, List.append_nil]

inductive Spells (parts : List String) : String → Prop
  | bare : Spells parts (dotted parts)
  | quoted {quote : Char} (h : isQuote quote = true) :
      Spells parts (String.ofList (quote :: (dotted parts).toList ++ [quote]))

theorem isQuote_cases {quote : Char} (h : isQuote quote = true) : quote = '"' ∨ quote = '\'' := by
  simpa [isQuote] using h

theorem unquote_quoted {quote : Char} (h : isQuote quote = true) {cs : List Char} (hne : cs ≠ []) :
    unquote (quote :: cs ++ [quote]) = trim cs := by
  obtain ⟨c, cs, rfl⟩ := List.exists_cons_of_ne_nil hne
  have hlast : (c :: cs ++ [quote]).getLast? = some quote := List.getLast?_concat
  have hdrop : (c :: cs ++ [quote]).dropLast = c :: cs := List.dropLast_concat
  rw [List.cons_append] at hlast hdrop
  simp [unquote, h, hlast, hdrop]

end TypeRef

end TypedTables
