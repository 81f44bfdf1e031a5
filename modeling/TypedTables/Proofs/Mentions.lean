import Mathlib.Data.List.TakeWhile
import TypedTables.Proofs.Members
import TypedTables.Proofs.SourceName

namespace TypedTables

open Text Source

/-- A run of name characters is a name unless it starts with a digit or is an attribute. -/
def finished (behindDot : Bool) (word : List Char) : List (List Char) :=
  if behindDot = false ∧ word.head?.any isNameLead = true then [word] else []

/-- The names in a line, behind a run of name characters. What follows a dot is an attribute. -/
def namesAfter (behindDot : Bool) (word : List Char) : List Char → List (List Char)
  | [] => finished behindDot word
  | c :: cs =>
      if isNameChar c = true then namesAfter behindDot (word ++ [c]) cs
      else finished behindDot word ++ namesAfter (c = '.') [] cs

def namesIn (line : List Char) : List (List Char) := namesAfter false [] line

def docstringStart : List Char := [' ', ' ', ' ', ' ', ' ', ' ', ' ', ' ', '"', '"', '"']

def lineNames (line : List Char) : List (List Char) :=
  if docstringStart <+: line then [] else namesIn line

def bodyNames (text : List Char) : List (List Char) := (splitOn '\n' text).flatMap lineNames

def namesRead (method : String) : List String :=
  ((bodyNames (method.toList.dropWhile (· ≠ '\n'))).map String.ofList).filter (· ∉ keywords)

def parameterName (parameter : List Char) : List Char :=
  (parameter.dropWhile (· = ' ')).takeWhile isNameChar

def parametersOf (method : String) : List String :=
  (splitOn ',' (((method.toList.dropWhile (· ≠ '(')).drop 1).takeWhile (· ≠ ')'))).map
    (fun parameter => String.ofList (parameterName parameter))

section

variable {behindDot : Bool} {word text name more rest : List Char}

theorem namesAfter_append_break {c : Char} (hc : isNameChar c = false) (text rest : List Char) :
    namesAfter behindDot word (text ++ c :: rest) =
      namesAfter behindDot word text ++ namesAfter (c = '.') [] rest := by
  induction text generalizing behindDot word with
  | nil => simp [namesAfter, hc]
  | cons d text ih =>
      rw [List.cons_append, namesAfter, namesAfter]
      split
      · exact ih
      · rw [ih, List.append_assoc]

theorem namesAfter_word (h : ∀ c ∈ text, isNameChar c = true) :
    namesAfter behindDot word text = finished behindDot (word ++ text) := by
  induction text generalizing word with
  | nil => rw [namesAfter, List.append_nil]
  | cons c text ih =>
      obtain ⟨hc, htext⟩ := List.forall_mem_cons.mp h
      rw [namesAfter, if_pos hc, ih htext, List.append_assoc]
      rfl

def endsApart (text : List Char) : Bool :=
  text.getLast?.any (fun c => !isNameChar c && c ≠ '.')

def startsApart (text : List Char) : Bool := text.head?.any (fun c => !isNameChar c)

def endsInAttribute (text : List Char) : Bool :=
  (text.reverse.dropWhile isNameChar).head? = some '.'

theorem namesIn_append_of_end (h : endsApart text = true) :
    namesIn (text ++ rest) = namesIn text ++ namesIn rest := by
  -- only the last character decides, and it starts a word of its own
  rcases List.eq_nil_or_concat text with rfl | ⟨text, c, rfl⟩
  · cases h
  · obtain ⟨hc, hdot⟩ : isNameChar c = false ∧ c ≠ '.' := by simpa [endsApart] using h
    rw [List.concat_eq_append, List.append_assoc, List.singleton_append, namesIn,
      namesAfter_append_break hc, namesIn, namesAfter_append_break hc, decide_eq_false hdot,
      namesAfter, List.append_assoc]
    rfl

theorem namesAfter_append_of_start (h : startsApart more = true) :
    namesAfter behindDot word (text ++ more) = namesAfter behindDot word text ++ namesIn more := by
  cases more with
  | nil => cases h
  | cons c more =>
      have hc : isNameChar c = false := by simpa [startsApart] using h
      have hmore : namesIn (c :: more) = namesAfter (c = '.') [] more :=
        namesAfter_append_break hc [] more
      rw [hmore, namesAfter_append_break hc]

theorem namesIn_append_of_start (h : startsApart more = true) :
    namesIn (text ++ more) = namesIn text ++ namesIn more :=
  namesAfter_append_of_start h

theorem startsApart_append (h : startsApart more = true) : startsApart (more ++ rest) = true := by
  cases more with
  | nil => cases h
  | cons c more => exact h

theorem namesIn_name (hlead : name.head?.any isNameLead = true)
    (hchars : ∀ c ∈ name, isNameChar c = true) : namesIn name = [name] := by
  rw [namesIn, namesAfter_word hchars, List.nil_append, finished, if_pos ⟨rfl, hlead⟩]

theorem namesIn_of_not_lead (hchars : ∀ c ∈ name, isNameChar c = true)
    (hlead : ∀ c ∈ name, isNameLead c = false) : namesIn name = [] := by
  rw [namesIn, namesAfter_word hchars, List.nil_append, finished, if_neg]
  rintro ⟨-, hhead⟩
  cases name with
  | nil => cases hhead
  | cons c name =>
      have hc : isNameLead c = true := by simpa using hhead
      rw [hlead c List.mem_cons_self] at hc
      cases hc

theorem namesIn_attribute (h : endsInAttribute text = true)
    (hword : ∀ c ∈ word, isNameChar c = true) (hmore : startsApart more = true) :
    namesIn (text ++ (word ++ more)) = namesIn text ++ namesIn more := by
  rw [endsInAttribute, decide_eq_true_eq] at h
  -- the text is cut at its last dot; what stands behind that is continued by the word
  have hpart : ∀ c ∈ (text.reverse.takeWhile isNameChar).reverse, isNameChar c = true := by
    intro c hc
    exact List.mem_takeWhile_imp (List.mem_reverse.mp hc)
  have hsplit : (text.reverse.takeWhile isNameChar ++ text.reverse.dropWhile isNameChar).reverse =
      text.reverse.reverse := congrArg List.reverse List.takeWhile_append_dropWhile
  rw [List.reverse_reverse, List.reverse_append] at hsplit
  cases hdrop : text.reverse.dropWhile isNameChar with
  | nil => simp [hdrop] at h
  | cons c before =>
      obtain rfl : c = '.' := by simpa [hdrop] using h
      rw [hdrop, List.reverse_cons, List.append_assoc, List.singleton_append] at hsplit
      generalize (text.reverse.takeWhile isNameChar).reverse = part at hpart hsplit
      have hnone : ∀ xs : List Char, (∀ c ∈ xs, isNameChar c = true) →
          namesAfter true [] xs = [] := by
        intro xs hxs
        rw [namesAfter_word hxs]
        rfl
      rw [← hsplit, List.append_assoc, List.cons_append, ← List.append_assoc part, namesIn,
        namesAfter_append_break (by decide), namesIn, namesAfter_append_break (by decide),
        namesAfter_append_of_start hmore]
      change _ ++ (namesAfter true [] (part ++ word) ++ _) = _ ++ namesAfter true [] part ++ _
      rw [hnone _ (List.forall_mem_append.mpr ⟨hpart, hword⟩), hnone part hpart, List.append_nil]
      rfl

end

theorem namesIn_toDigits (n : Nat) : namesIn (Nat.toDigits 10 n) = [] :=
  namesIn_of_not_lead (fun _ hc => (toDigits_not_lead hc).1) (fun _ hc => (toDigits_not_lead hc).2)

theorem namesIn_of_isName {name : String} (h : IsName name) : namesIn name.toList = [name.toList] :=
  namesIn_name h.lead h.chars

theorem bodyNames_of_not_mem {line : List Char} (h : '\n' ∉ line) :
    bodyNames line = lineNames line := by
  rw [bodyNames, splitOn_of_not_mem h, List.flatMap_singleton]

theorem bodyNames_newline (text : List Char) : bodyNames ('\n' :: text) = bodyNames text := by
  rw [bodyNames, splitOn, if_pos rfl, List.flatMap_cons]
  rfl

theorem bodyNames_unlines (lines : List (List Char)) :
    bodyNames (unlines lines) = lines.flatMap bodyNames := by
  induction lines with
  | nil => rfl
  | cons line lines ih =>
      have hsplit : unlines (line :: lines) = line ++ '\n' :: unlines lines := by simp [unlines]
      rw [bodyNames, hsplit, splitOn_append, List.flatMap_append, ← bodyNames, ← bodyNames, ih,
        List.flatMap_cons]

def isCode (text : List Char) : Bool := '\n' ∉ text && Mark.apart text docstringStart

theorem bodyNames_code {text rest : List Char} (h : isCode text = true) (hrest : '\n' ∉ rest) :
    bodyNames (text ++ rest) = namesIn (text ++ rest) := by
  simp only [isCode, Bool.and_eq_true, decide_eq_true_eq] at h
  rw [bodyNames_of_not_mem (by simp [h.1, hrest]), lineNames,
    if_neg (Mark.not_prefix_append h.2 rest)]

theorem namesRead_of_render {parts body : List TemplatePart} {context : List (String × Data)}
    {method : String} (hlines : areLines body = true)
    (hflat : '\n' ∉ filledAll ⟨context, .null⟩ parts)
    (h : Template.render (.line parts :: body) context = .ok method) :
    namesRead method = ((toldLines bodyNames ⟨context, .null⟩ body).map String.ofList).filter
      (· ∉ keywords) := by
  have hall : areLines (.line parts :: body) = true := hlines
  have htext := Template.toList_of_render hall h
  have hsplit : unlines (linesOfAll ⟨context, .null⟩ (.line parts :: body)) =
      filledAll ⟨context, .null⟩ parts ++ '\n' :: unlines (linesOfAll ⟨context, .null⟩ body) := by
    simp [unlines, linesOfAll, TemplatePart.filledLines]
  rw [namesRead, htext, hsplit, List.dropWhile_append_of_pos (all_ne_of_not_mem hflat),
    List.dropWhile_cons_of_neg (by simp), bodyNames_newline, bodyNames_unlines]
  rfl

theorem parametersOf_eq {method : String} {opening inner rest : List Char}
    (hopening : '(' ∉ opening) (hinner : ')' ∉ inner)
    (h : method.toList = opening ++ '(' :: (inner ++ ')' :: rest)) :
    parametersOf method =
      (splitOn ',' inner).map (fun parameter => String.ofList (parameterName parameter)) := by
  rw [parametersOf, h, List.dropWhile_append_of_pos (all_ne_of_not_mem hopening),
    List.dropWhile_cons_of_neg (by simp), List.drop_one, List.tail_cons,
    List.takeWhile_append_of_pos (all_ne_of_not_mem hinner), List.takeWhile_cons_of_neg (by simp),
    List.append_nil]

theorem parameterName_of_isName {name : String} (h : IsName name) {more : List Char}
    (hmore : startsApart more = true) :
    parameterName (' ' :: (name.toList ++ more)) = name.toList := by
  obtain ⟨c, cs, hname, hc, -⟩ := h.exists_cons
  have hspace : c ≠ ' ' := by
    rintro rfl
    exact absurd hc (by decide)
  obtain ⟨d, ds, rfl⟩ := List.exists_cons_of_ne_nil
    (show more ≠ [] by rintro rfl; cases hmore)
  have hstop : isNameChar d = false := by simpa [startsApart] using hmore
  have hdrop : (' ' :: (name.toList ++ d :: ds)).dropWhile (· = ' ') = name.toList ++ d :: ds := by
    rw [List.dropWhile_cons_of_pos (by simp), hname, List.cons_append,
      List.dropWhile_cons_of_neg (by simpa using hspace)]
  rw [parameterName, hdrop, List.takeWhile_append_of_pos h.chars,
    List.takeWhile_cons_of_neg (by simp [hstop]), List.append_nil]

end TypedTables
