import Mathlib.Data.List.TakeWhile
import TypedTables.Proofs.Brackets
import TypedTables.Proofs.Spelling

/-!
How a declared type may be laid out: a dotted name with blanks around its dots, arguments behind
it, quotes around both, and blanks everywhere between. Reading finds exactly these texts, and what
it reads does not depend on the layout.
-/

namespace TypedTables.TypeRef

open Text

abbrev Blanks := { cs : List Char // ∀ c ∈ cs, isBlank c = true }

def Blanks.none : Blanks := ⟨[], by simp⟩

def Blanks.single (c : Char) (h : isBlank c = true) : Blanks := ⟨[c], by simpa using h⟩

@[simp] theorem Blanks.val_none : Blanks.none.val = [] := rfl

abbrev Identifier := { name : String // IsIdentifier name }

structure DotPart where
  before : Blanks
  after : Blanks
  part : Identifier

def DotPart.chars (d : DotPart) : List Char :=
  d.before.val ++ '.' :: (d.after.val ++ d.part.val.toList)

structure SpacedName where
  first : Identifier
  more : List DotPart

namespace SpacedName

def chars (n : SpacedName) : List Char :=
  n.first.val.toList ++ n.more.flatMap DotPart.chars

def parts (n : SpacedName) : List String :=
  n.first.val :: n.more.map (fun d => d.part.val)

def name (n : SpacedName) : String := dotted n.parts

end SpacedName

/-- Arguments in square brackets, as far as the two ends of the text tell. -/
def IsSubscript (cs : List Char) : Prop :=
  ∃ inner, cs = '[' :: inner ++ [']']

/-- Blanks and quotes around a text. Without quotes the inner blanks are further outer ones. -/
structure Wrapping where
  outerStart : Blanks
  innerStart : Blanks
  innerEnd : Blanks
  outerEnd : Blanks
  quote : Option { c : Char // isQuote c = true }

def Wrapping.around (w : Wrapping) (cs : List Char) : List Char :=
  let quote := w.quote.toList.map Subtype.val
  w.outerStart.val ++ (quote ++ (w.innerStart.val ++ cs ++ w.innerEnd.val) ++ quote) ++
    w.outerEnd.val

def unwrapped : Wrapping :=
  ⟨.none, .none, .none, .none, none⟩

def bare (text : String) : List Char :=
  unquote (trim text.toList)

theorem isSubscript_iff {cs : List Char} (hne : cs ≠ []) :
    isArguments cs = true ↔ IsSubscript cs := by
  obtain ⟨c, rest, rfl⟩ := List.exists_cons_of_ne_nil hne
  rw [isArguments, Bool.and_eq_true, beq_iff_eq, beq_iff_eq, List.getLast?_eq_some_iff]
  constructor
  · rintro ⟨rfl, inner, rfl⟩
    exact ⟨inner, rfl⟩
  · rintro ⟨inner, hcs⟩
    obtain ⟨rfl, rfl⟩ := List.cons.inj hcs
    exact ⟨rfl, inner, rfl⟩

theorem isArguments_iff {cs : List Char} : isArguments cs = true ↔ cs = [] ∨ IsSubscript cs := by
  by_cases hne : cs = []
  · simp [hne, isArguments]
  · rw [isSubscript_iff hne, or_iff_right hne]

theorem not_isWord_of_isBlank {c : Char} (h : isBlank c = true) : isWord c = false := by
  rw [Bool.eq_false_iff]
  intro hword
  rw [isBlank_of_isWord hword] at h
  cases h

theorem blanks_append_trimStart (cs : List Char) :
    ∃ blanks : Blanks, cs = blanks.val ++ trimStart cs :=
  ⟨⟨cs.takeWhile isBlank, fun _ hc => List.mem_takeWhile_imp hc⟩,
    List.takeWhile_append_dropWhile.symm⟩

/-- A text that is not in the middle of a word. -/
def BreaksWord (cs : List Char) : Prop := cs.head?.any isWord = false

theorem breaksWord_blanks_append (blanks : Blanks) {cs : List Char} (h : BreaksWord cs) :
    BreaksWord (blanks.val ++ cs) := by
  obtain ⟨blanks, hblanks⟩ := blanks
  cases blanks with
  | nil => exact h
  | cons c blanks => exact not_isWord_of_isBlank (hblanks c List.mem_cons_self)

theorem DotPart.breaksWord (d : DotPart) (cs : List Char) : BreaksWord (d.chars ++ cs) := by
  rw [DotPart.chars, List.append_assoc]
  exact breaksWord_blanks_append d.before rfl

theorem takeComponent?_eq_some {cs component rest : List Char} :
    takeComponent? cs = some (component, rest) ↔
      ∃ name : Identifier, component = name.val.toList ∧ cs = component ++ rest ∧
        BreaksWord rest := by
  constructor
  · intro h
    cases cs with
    | nil => cases h
    | cons c cs =>
        rw [takeComponent?] at h
        split at h
        · rename_i hstart
          obtain ⟨rfl, rfl⟩ := Prod.mk.inj (Option.some.inj h)
          have hname : IsIdentifier (String.ofList (c :: cs.takeWhile isWord)) := by
            refine ⟨by simpa using hstart, ?_⟩
            rw [String.toList_ofList]
            intro d hd
            rcases List.mem_cons.mp hd with rfl | hd
            · exact isWord_of_isNameStart hstart
            · exact List.mem_takeWhile_imp hd
          refine ⟨⟨_, hname⟩, String.toList_ofList.symm, ?_, ?_⟩
          · rw [List.cons_append, List.takeWhile_append_dropWhile]
          · rw [BreaksWord]
            have hstop := List.head?_dropWhile_not isWord cs
            cases hhead : (cs.dropWhile isWord).head? with
            | none => rfl
            | some d => simpa [hhead] using hstop
        · cases h
  · rintro ⟨name, rfl, rfl, hrest⟩
    exact takeComponent?_append name.property hrest

theorem nextComponent?_chars (d : DotPart) {rest : List Char} (h : BreaksWord rest) :
    nextComponent? (d.chars ++ rest) = some (d.part.val.toList, rest) := by
  obtain ⟨⟨before, hbefore⟩, ⟨after, hafter⟩, part, hpart⟩ := d
  obtain ⟨c, cs, hname, hstart, -⟩ := hpart.exists_cons
  have hblank : isBlank c = false := isBlank_of_isWord (isWord_of_isNameStart hstart)
  have htake := takeComponent?_append hpart h
  simp only [DotPart.chars, List.append_assoc, List.cons_append]
  rw [nextComponent?, trimStart_blanks_append _ hbefore, trimStart_of_head (by decide)]
  simp only
  rwa [trimStart_blanks_append _ hafter, hname, List.cons_append, trimStart_of_head hblank,
    ← List.cons_append, ← hname]

theorem nextComponent?_eq_some {cs component rest : List Char} :
    nextComponent? cs = some (component, rest) ↔
      ∃ d : DotPart, component = d.part.val.toList ∧ cs = d.chars ++ rest ∧ BreaksWord rest := by
  constructor
  · intro h
    rw [nextComponent?] at h
    split at h
    · rename_i after hafter
      obtain ⟨name, rfl, htrim, hrest⟩ := takeComponent?_eq_some.mp h
      obtain ⟨blanks, hcs⟩ := blanks_append_trimStart cs
      obtain ⟨blanks', hafter'⟩ := blanks_append_trimStart after
      refine ⟨⟨blanks, blanks', name⟩, rfl, ?_, hrest⟩
      rw [hcs, hafter, hafter', htrim]
      simp [DotPart.chars]
    · cases h
  · rintro ⟨d, rfl, rfl, hrest⟩
    exact nextComponent?_chars d hrest

/-- A text behind a name that does not go on with the name. -/
structure EndsName (rest : List Char) : Prop where
  word : BreaksWord rest
  dot : ∀ d : DotPart, ¬ d.chars <+: rest

theorem EndsName.nextComponent? {rest : List Char} (h : EndsName rest) :
    TypeRef.nextComponent? rest = none := by
  rw [Option.eq_none_iff_forall_ne_some]
  rintro ⟨component, final⟩ hnext
  obtain ⟨d, -, rfl, -⟩ := nextComponent?_eq_some.mp hnext
  exact h.dot d (List.prefix_append _ _)

theorem SpacedName.breaksWord (more : List DotPart) {rest : List Char} (h : BreaksWord rest) :
    BreaksWord (more.flatMap DotPart.chars ++ rest) := by
  cases more with
  | nil => exact h
  | cons d more =>
      rw [List.flatMap_cons, List.append_assoc]
      exact d.breaksWord _

theorem takeMore_chars (more : List DotPart) {rest : List Char} (h : EndsName rest) :
    takeMore (more.flatMap DotPart.chars ++ rest) =
      (more.map (fun d => d.part.val.toList), rest) := by
  induction more with
  | nil =>
      rw [List.flatMap_nil, List.nil_append, takeMore]
      split
      · rename_i hnext
        rw [h.nextComponent?] at hnext
        cases hnext
      · rfl
  | cons d more ih =>
      have hnext := nextComponent?_chars d (SpacedName.breaksWord more h.word)
      rw [List.flatMap_cons, List.append_assoc, takeMore]
      split
      · rename_i component final hfound
        rw [hnext] at hfound
        obtain ⟨rfl, rfl⟩ := Prod.mk.inj (Option.some.inj hfound)
        rw [ih]
        rfl
      · rename_i hfound
        rw [hnext] at hfound
        cases hfound

theorem exists_of_takeMore (cs : List Char) :
    ∃ more : List DotPart, (takeMore cs).1 = more.map (fun d => d.part.val.toList) ∧
      cs = more.flatMap DotPart.chars ++ (takeMore cs).2 := by
  fun_induction takeMore cs with
  | case1 cs component rest hnext more final htake ih =>
      obtain ⟨d, rfl, rfl, -⟩ := nextComponent?_eq_some.mp hnext
      obtain ⟨parts, hmore, hrest⟩ := ih
      rw [htake] at hmore hrest
      refine ⟨d :: parts, ?_, ?_⟩
      · rw [List.map_cons, ← hmore]
      · rw [List.flatMap_cons, List.append_assoc, ← hrest]
  | case2 cs hnext => exact ⟨[], rfl, rfl⟩

theorem IsSubscript.head? {cs : List Char} (h : IsSubscript cs) : cs.head? = some '[' := by
  obtain ⟨inner, rfl⟩ := h
  rfl

theorem endsName_of_bracket (gap : Blanks) {cs : List Char} (h : cs = [] ∨ cs.head? = some '[') :
    EndsName (gap.val ++ cs) := by
  have hword : BreaksWord cs := by
    rcases h with rfl | h
    · rfl
    · rw [BreaksWord, h]
      decide
  refine ⟨breaksWord_blanks_append gap hword, ?_⟩
  rintro d ⟨rest, hrest⟩
  have hdot : (trimStart (gap.val ++ cs)).head? = some '.' := by
    rw [← hrest, DotPart.chars, List.append_assoc, trimStart_blanks_append _ d.before.property]
    rfl
  rw [trimStart_blanks_append _ gap.property] at hdot
  rcases h with rfl | h
  · cases hdot
  · obtain ⟨inner, rfl⟩ := List.head?_eq_some_iff.mp h
    rw [trimStart_of_head (by decide)] at hdot
    cases hdot

theorem endsName_of_arguments (gap : Blanks) {cs : List Char} (h : cs = [] ∨ IsSubscript cs) :
    EndsName (gap.val ++ cs) :=
  endsName_of_bracket gap (h.imp_right IsSubscript.head?)

theorem name_unique {n n' : SpacedName} {rest rest' : List Char}
    (htext : n.chars ++ rest = n'.chars ++ rest') (h : EndsName rest) (h' : EndsName rest') :
    n.name = n'.name ∧ rest = rest' := by
  have hread : takeComponent? (n.chars ++ rest) =
      some (n.first.val.toList, n.more.flatMap DotPart.chars ++ rest) := by
    rw [SpacedName.chars, List.append_assoc]
    exact takeComponent?_append n.first.property (SpacedName.breaksWord n.more h.word)
  rw [htext, SpacedName.chars, List.append_assoc,
    takeComponent?_append n'.first.property (SpacedName.breaksWord n'.more h'.word)] at hread
  obtain ⟨hfirst, hrest⟩ := Prod.mk.inj (Option.some.inj hread)
  have hmore := congrArg takeMore hrest
  rw [takeMore_chars n'.more h', takeMore_chars n.more h] at hmore
  obtain ⟨hparts, rfl⟩ := Prod.mk.inj hmore
  refine ⟨?_, rfl⟩
  have hsame : n.parts.map String.toList = n'.parts.map String.toList := by
    simp [SpacedName.parts, hfirst, hparts, Function.comp_def]
  rw [SpacedName.name, SpacedName.name, dotted, dotted, hsame]

theorem nameAndArguments?_eq_some {cs : List Char} {parts : List (List Char)}
    {arguments : List Char} :
    nameAndArguments? cs = some (parts, arguments) ↔
      ∃ (n : SpacedName) (gap : Blanks), cs = n.chars ++ (gap.val ++ arguments) ∧
        parts = n.parts.map String.toList ∧ (arguments = [] ∨ IsSubscript arguments) := by
  constructor
  · intro h
    rw [nameAndArguments?] at h
    split at h
    · cases h
    · rename_i first rest hfirst
      obtain ⟨name, rfl, rfl, -⟩ := takeComponent?_eq_some.mp hfirst
      obtain ⟨more, hmore, hrest⟩ := exists_of_takeMore rest
      obtain ⟨gap, hgap⟩ := blanks_append_trimStart (takeMore rest).2
      simp only at h
      split at h
      · rename_i harguments
        obtain ⟨rfl, rfl⟩ := Prod.mk.inj (Option.some.inj h)
        refine ⟨⟨name, more⟩, gap, ?_, ?_, isArguments_iff.mp harguments⟩
        · rw [SpacedName.chars, List.append_assoc, ← hgap, ← hrest]
        · simp [SpacedName.parts, hmore]
      · cases h
  · rintro ⟨n, gap, rfl, rfl, harguments⟩
    have hends := endsName_of_arguments gap harguments
    have htrim : trimStart arguments = arguments := by
      rcases harguments with rfl | ⟨inner, rfl⟩
      · rfl
      · exact trimStart_of_head (by decide) _
    rw [SpacedName.chars, List.append_assoc, nameAndArguments?,
      takeComponent?_append n.first.property (SpacedName.breaksWord n.more hends.word)]
    simp only [takeMore_chars n.more hends, trimStart_blanks_append _ gap.property, htrim,
      isArguments_iff.mpr harguments, if_true]
    simp [SpacedName.parts]

section Trimming

theorem trim_between_blanks (before after : Blanks) (cs : List Char) :
    trim (before.val ++ cs ++ after.val) = trim cs := by
  rw [trim, List.append_assoc, trimStart_blanks_append _ before.property, trim]
  by_cases hblank : trimStart cs = []
  · have hall : ∀ c ∈ cs ++ after.val, isBlank c = true := by
      intro c hc
      rcases List.mem_append.mp hc with hc | hc
      · exact List.dropWhile_eq_nil_iff.mp hblank c hc
      · exact after.property c hc
    rw [hblank, trimStart, List.dropWhile_eq_nil_iff.mpr hall]
  · have hstart : trimStart (cs ++ after.val) = trimStart cs ++ after.val := by
      rw [trimStart, List.dropWhile_append, if_neg (by simpa [trimStart] using hblank)]
      rfl
    rw [hstart, trimEnd_append_blanks _ after.property]

theorem trim_of_ends {cs : List Char} (hhead : cs.head?.all (fun c => !isBlank c) = true)
    (hlast : cs.getLast?.all (fun c => !isBlank c) = true) : trim cs = cs := by
  have hstart : ∀ ds : List Char, ds.head?.all (fun c => !isBlank c) = true →
      trimStart ds = ds := by
    intro ds hds
    cases ds with
    | nil => rfl
    | cons d ds => exact trimStart_of_head (by simpa using hds) ds
  rw [trim, hstart cs hhead, trimEnd, ← trimStart, hstart _ (by rwa [List.head?_reverse]),
    List.reverse_reverse]

theorem unquote_of_head {c : Char} (h : isQuote c = false) (cs : List Char) :
    unquote (c :: cs) = c :: cs := by
  cases cs with
  | nil => rfl
  | cons d cs => simp [unquote, h]

end Trimming

theorem exists_last_of_identifier {name : String} (h : IsIdentifier name) :
    ∃ front c, name.toList = front ++ [c] ∧ isWord c = true := by
  obtain ⟨c, cs, hname, -, -⟩ := h.exists_cons
  have hne : name.toList ≠ [] := by simp [hname]
  exact ⟨_, _, (List.dropLast_append_getLast hne).symm, h.continues _ (List.getLast_mem hne)⟩

namespace SpacedName

theorem exists_head (n : SpacedName) : ∃ c cs, n.chars = c :: cs ∧ isNameStart c = true := by
  obtain ⟨c, cs, hname, hstart, -⟩ := n.first.property.exists_cons
  exact ⟨c, cs ++ n.more.flatMap DotPart.chars, by rw [chars, hname, List.cons_append], hstart⟩

theorem exists_last (n : SpacedName) : ∃ front c, n.chars = front ++ [c] ∧ isWord c = true := by
  obtain ⟨first, more⟩ := n
  rcases List.eq_nil_or_concat more with rfl | ⟨more, d, rfl⟩
  · obtain ⟨front, c, hname, hword⟩ := exists_last_of_identifier first.property
    exact ⟨front, c, by simp [chars, hname], hword⟩
  · obtain ⟨front, c, hname, hword⟩ := exists_last_of_identifier d.part.property
    refine ⟨first.val.toList ++ more.flatMap DotPart.chars ++ d.before.val ++ '.' :: d.after.val ++
      front, c, ?_, hword⟩
    simp [chars, DotPart.chars, hname]

theorem exists_of_parts {parts : List String} (hne : parts ≠ [])
    (h : ∀ part ∈ parts, IsIdentifier part) :
    ∃ n : SpacedName, n.parts = parts ∧ n.chars = (dotted parts).toList := by
  obtain ⟨first, more, rfl⟩ := List.exists_cons_of_ne_nil hne
  obtain ⟨hfirst, hmore⟩ := List.forall_mem_cons.mp h
  refine ⟨⟨⟨first, hfirst⟩, more.attach.map (fun part =>
    ⟨.none, .none, ⟨part.val, hmore part.val part.property⟩⟩)⟩, ?_, ?_⟩
  · simp [parts, Function.comp_def]
  · rw [dotted, String.toList_ofList, List.map_cons, joinWith_cons]
    simp [chars, DotPart.chars, List.flatMap_map]

theorem plain_of_mem {n : SpacedName} {c : Char} (hc : c ∈ n.chars) :
    isWord c = true ∨ c = '.' ∨ isBlank c = true := by
  rcases List.mem_append.mp hc with hc | hc
  · exact .inl (n.first.property.continues c hc)
  · obtain ⟨d, -, hc⟩ := List.mem_flatMap.mp hc
    simp only [DotPart.chars, List.mem_append, List.mem_cons] at hc
    rcases hc with hc | rfl | hc | hc
    · exact .inr (.inr (d.before.property c hc))
    · exact .inr (.inl rfl)
    · exact .inr (.inr (d.after.property c hc))
    · exact .inl (d.part.property.continues c hc)

theorem not_mark_of_mem (n : SpacedName) (gap : Blanks) {c : Char} (hc : c ∈ n.chars ++ gap.val) :
    c ∉ ['[', '(', ']', ')', '|'] := by
  intro hmark
  have hmarks : ['[', '(', ']', ')', '|'].all
      (fun c => !isWord c && c != '.' && !isBlank c) = true := by decide
  obtain ⟨⟨hword, hdot⟩, hblank⟩ : (isWord c = false ∧ c ≠ '.') ∧ isBlank c = false := by
    simpa using List.all_eq_true.mp hmarks c hmark
  rcases List.mem_append.mp hc with hc | hc
  · rcases plain_of_mem hc with hc | hc | hc
    · simp [hword] at hc
    · exact hdot hc
    · simp [hblank] at hc
  · simp [gap.property c hc] at hblank

theorem hasLevelBar_iff (n : SpacedName) (gap : Blanks) (cs : List Char) :
    HasLevelBar (n.chars ++ (gap.val ++ cs)) ↔ HasLevelBar cs := by
  have hmarks : ∀ c ∈ ['[', '(', ']', ')', '|'], c ∉ n.chars ++ gap.val :=
    fun c hc hmem => not_mark_of_mem n gap hmem hc
  have hbalance : balance (n.chars ++ gap.val) = 0 :=
    balance_of_not_mem (fun c hc => hmarks c (by simp at hc ⊢; tauto))
  rw [← List.append_assoc, HasLevelBar, hasBarBehind_append (hmarks '|' (by simp))]
  simp only [balance_append (n.chars ++ gap.val), hbalance, Int.zero_add]

end SpacedName

theorem trim_named (n : SpacedName) (gap : Blanks) {arguments : List Char}
    (h : arguments = [] ∨ IsSubscript arguments) :
    ∃ gap' : Blanks,
      trim (n.chars ++ (gap.val ++ arguments)) = n.chars ++ (gap'.val ++ arguments) := by
  obtain ⟨c, cs, hhead, hstart⟩ := n.exists_head
  have hblank : isBlank c = false := isBlank_of_isWord (isWord_of_isNameStart hstart)
  rcases h with rfl | ⟨inner, rfl⟩
  · obtain ⟨front, d, hlast, hword⟩ := n.exists_last
    have htrim : trim n.chars = n.chars :=
      trim_of_ends (by simp [hhead, hblank]) (by simp [hlast, isBlank_of_isWord hword])
    refine ⟨.none, ?_⟩
    have hblanks := trim_between_blanks .none gap n.chars
    simpa [htrim] using hblanks
  · refine ⟨gap, trim_of_ends (by simp [hhead, hblank]) ?_⟩
    rw [← List.append_assoc, ← List.append_assoc, List.getLast?_concat]
    decide

theorem bare_around (w : Wrapping) (n : SpacedName) (gap : Blanks) {arguments : List Char}
    (h : arguments = [] ∨ IsSubscript arguments) :
    ∃ gap' : Blanks, bare (String.ofList (w.around (n.chars ++ (gap.val ++ arguments)))) =
      n.chars ++ (gap'.val ++ arguments) := by
  obtain ⟨gap', htrim⟩ := trim_named n gap h
  obtain ⟨c, cs, hhead, hstart⟩ := n.exists_head
  refine ⟨gap', ?_⟩
  rw [bare, String.toList_ofList]
  obtain ⟨outerStart, innerStart, innerEnd, outerEnd, quote⟩ := w
  rw [Wrapping.around, trim_between_blanks]
  cases quote with
  | none =>
      have hquote : isQuote c = false := by
        rw [Bool.eq_false_iff]
        intro hq
        rcases isQuote_cases hq with rfl | rfl <;> exact absurd hstart (by decide)
      simp only [Option.toList_none, List.map_nil, List.nil_append, List.append_nil]
      rw [trim_between_blanks, htrim, hhead, List.cons_append, unquote_of_head hquote]
  | some quote =>
      obtain ⟨quote, hq⟩ := quote
      have hmark : isBlank quote = false := by
        rcases isQuote_cases hq with rfl | rfl <;> decide
      simp only [Option.toList_some, List.map_cons, List.map_nil, List.singleton_append]
      rw [trim_of_ends (by simp [hmark]) (by rw [List.getLast?_concat]; simp [hmark]),
        unquote_quoted hq (by simp [hhead]), trim_between_blanks, htrim]

section Reading

variable {text : String}

theorem ofText_of_levelBar (h : HasLevelBar (bare text)) (resolve : String → String) :
    ofText text resolve =
      ⟨String.ofList (trim text.toList), String.ofList (bare text), "", .union⟩ := by
  rw [ofText, ← bare, if_pos (hasOuterBar_iff.mpr h)]

theorem ofText_of_named {n : SpacedName} {gap : Blanks} {arguments : List Char}
    (htext : bare text = n.chars ++ (gap.val ++ arguments))
    (h : arguments = [] ∨ IsSubscript arguments) (hbar : ¬ HasLevelBar arguments)
    (resolve : String → String) :
    ofText text resolve =
      ⟨String.ofList (trim text.toList), resolve n.name, String.ofList arguments,
        if resolve n.name ∈ unionTypes then .union
        else if arguments = [] then .name
        else .generic⟩ := by
  have hlevel : ¬ hasOuterBar (bare text) = true := by
    rwa [hasOuterBar_iff, htext, n.hasLevelBar_iff]
  have hread := nameAndArguments?_eq_some.mpr ⟨n, gap, htext, rfl, h⟩
  rw [ofText, ← bare, if_neg hlevel, hread]
  simp only [List.isEmpty_iff]
  rfl

def Unnamed (cs : List Char) : Prop :=
  ∀ (n : SpacedName) (gap : Blanks) (arguments : List Char),
    cs = n.chars ++ (gap.val ++ arguments) → ¬ (arguments = [] ∨ IsSubscript arguments)

theorem ofText_of_unnamed (hbar : ¬ HasLevelBar (bare text)) (h : Unnamed (bare text))
    (resolve : String → String) :
    ofText text resolve =
      ⟨String.ofList (trim text.toList), String.ofList (bare text), "", .other⟩ := by
  have hread : nameAndArguments? (bare text) = none := by
    rw [Option.eq_none_iff_forall_ne_some]
    rintro ⟨parts, arguments⟩ hsome
    obtain ⟨n, gap, htext, -, harguments⟩ := nameAndArguments?_eq_some.mp hsome
    exact h n gap arguments htext harguments
  rw [ofText, ← bare, if_neg (mt hasOuterBar_iff.mp hbar), hread]

theorem bare_cases (text : String) :
    HasLevelBar (bare text) ∨
    (∃ (n : SpacedName) (gap : Blanks) (arguments : List Char),
      bare text = n.chars ++ (gap.val ++ arguments) ∧ (arguments = [] ∨ IsSubscript arguments) ∧
        ¬ HasLevelBar arguments) ∨
    (¬ HasLevelBar (bare text) ∧ Unnamed (bare text)) := by
  by_cases hbar : HasLevelBar (bare text)
  · exact .inl hbar
  · by_cases hnamed : Unnamed (bare text)
    · exact .inr (.inr ⟨hbar, hnamed⟩)
    · simp only [Unnamed, not_forall, not_not] at hnamed
      obtain ⟨n, gap, arguments, htext, harguments⟩ := hnamed
      rw [htext, n.hasLevelBar_iff] at hbar
      exact .inr (.inl ⟨n, gap, arguments, htext, harguments, hbar⟩)

structure IsGeneric (resolve : String → String) (n : SpacedName) (arguments : List Char) :
    Prop where
  subscript : IsSubscript arguments
  noLevelBar : ¬ HasLevelBar arguments
  noUnion : resolve n.name ∉ unionTypes

theorem kind_of_isGeneric {resolve : String → String} {n : SpacedName} {gap : Blanks}
    {arguments : List Char} (htext : bare text = n.chars ++ (gap.val ++ arguments))
    (h : IsGeneric resolve n arguments) :
    (ofText text resolve).kind = .generic ∧
      (ofText text resolve).qualified = resolve n.name ∧
      (ofText text resolve).arguments = String.ofList arguments := by
  obtain ⟨inner, rfl⟩ := h.subscript
  rw [ofText_of_named htext (.inr h.subscript) h.noLevelBar]
  exact ⟨by simp [h.noUnion], rfl, rfl⟩

theorem exists_of_kind_eq_generic {resolve : String → String}
    (h : (ofText text resolve).kind = .generic) :
    ∃ (n : SpacedName) (gap : Blanks) (arguments : List Char),
      bare text = n.chars ++ (gap.val ++ arguments) ∧ IsGeneric resolve n arguments := by
  rcases bare_cases text with hbar | ⟨n, gap, arguments, htext, harguments, hbar⟩ | ⟨hbar, hnamed⟩
  · rw [ofText_of_levelBar hbar] at h
    cases h
  · rw [ofText_of_named htext harguments hbar] at h
    simp only at h
    split at h
    · cases h
    · rename_i hunion
      rcases harguments with rfl | hsubscript
      · cases h
      · exact ⟨n, gap, arguments, htext, hsubscript, hbar, hunion⟩
  · rw [ofText_of_unnamed hbar hnamed] at h
    cases h

end Reading

theorem exists_wrapping_of_spells {parts : List String} {text : String} (hs : Spells parts text) :
    ∃ w : Wrapping, text = String.ofList (w.around (dotted parts).toList) := by
  cases hs with
  | bare => exact ⟨unwrapped, by simp [unwrapped, Wrapping.around]⟩
  | quoted hquote =>
      exact ⟨{ unwrapped with quote := some ⟨_, hquote⟩ }, by simp [unwrapped, Wrapping.around]⟩

theorem qualified_of_spells {parts : List String} (hne : parts ≠ [])
    (h : ∀ part ∈ parts, IsIdentifier part) {text : String} (hs : Spells parts text)
    (resolve : String → String) : (ofText text resolve).qualified = resolve (dotted parts) := by
  obtain ⟨n, rfl, hchars⟩ := SpacedName.exists_of_parts hne h
  obtain ⟨w, rfl⟩ := exists_wrapping_of_spells hs
  have hplain : (dotted n.parts).toList = n.chars ++ (Blanks.none.val ++ []) := by simp [hchars]
  obtain ⟨gap, htext⟩ := bare_around w n .none (.inl rfl)
  rw [hplain, ofText_of_named htext (.inl rfl) (not_hasBarBehind_nil _)]
  rfl

structure ReadAs (t : TypeRef) (base : String) (given : List Char) : Prop where
  qualified : t.qualified = base
  arguments : t.arguments = String.ofList given
  kind : t.kind = if base ∈ unionTypes then .union else if given = [] then .name else .generic

/-- Whatever its layout, a type is read as its name and its arguments, unless the scan finds a bar
in these. As long as they close their own brackets only, the scan finds just the bars outside. -/
theorem readAs_iff (w : Wrapping) (n : SpacedName) (gap : Blanks) {arguments : List Char}
    (h : arguments = [] ∨ IsSubscript arguments) (resolve : String → String) :
    (ReadAs (ofText (String.ofList (w.around (n.chars ++ (gap.val ++ arguments)))) resolve)
        (resolve n.name) arguments ↔ ¬ HasLevelBar arguments) ∧
    (ClosesOwn arguments →
      (ReadAs (ofText (String.ofList (w.around (n.chars ++ (gap.val ++ arguments)))) resolve)
        (resolve n.name) arguments ↔ ¬ HasFreeBar arguments)) := by
  obtain ⟨gap', htext⟩ := bare_around w n gap h
  have hlevel : ReadAs (ofText (String.ofList (w.around (n.chars ++ (gap.val ++ arguments))))
      resolve) (resolve n.name) arguments ↔ ¬ HasLevelBar arguments := by
    constructor
    · -- a union is read without arguments, but these hold the bar
      intro hread hbar
      rw [← n.hasLevelBar_iff gap', ← htext] at hbar
      have hnil := congrArg String.toList hread.arguments
      rw [ofText_of_levelBar hbar, String.toList_ofList, String.toList_ofList] at hnil
      rw [htext, ← hnil, n.hasLevelBar_iff] at hbar
      exact not_hasBarBehind_nil _ hbar
    · intro hbar
      rw [ofText_of_named htext h hbar]
      exact ⟨rfl, rfl, rfl⟩
  exact ⟨hlevel, fun hown => hlevel.trans (not_congr (hasLevelBar_iff hown))⟩

def typingList : SpacedName :=
  ⟨⟨"typing", by decide⟩, [⟨.single ' ' rfl, .single '\n' rfl, ⟨"List", by decide⟩⟩]⟩

def looseQuotes : Wrapping :=
  ⟨.single ' ' rfl, .single '\t' rfl, .single '\u00a0' rfl, .single '\n' rfl,
    some ⟨'\'', by decide⟩⟩

theorem readAs_iff_typingList :
    IsSubscript "[int | None]".toList ∧ ClosesOwn "[int | None]".toList ∧
      ¬ HasFreeBar "[int | None]".toList ∧
      ReadAs (ofText " '\ttyping .\nList [int | None]\u00a0'\n" id) "typing.List"
        "[int | None]".toList := by
  have hsubscript : IsSubscript "[int | None]".toList := ⟨"int | None".toList, by decide⟩
  have hown : ClosesOwn "[int | None]".toList := by decide
  have hbar : ¬ HasFreeBar "[int | None]".toList := by decide
  have hread := ((readAs_iff looseQuotes typingList (.single ' ' rfl) (.inr hsubscript)
    id).2 hown).mpr hbar
  exact ⟨hsubscript, hown, hbar, hread⟩

def literal : SpacedName := ⟨⟨"Literal", by decide⟩, []⟩

/-- A parenthesis in a text among the arguments makes the scan take a bar inside the brackets for
one outside. -/
theorem literal_read_as_union :
    ¬ ∀ (w : Wrapping) (n : SpacedName) (gap : Blanks) (arguments : List Char)
      (resolve : String → String), arguments = [] ∨ IsSubscript arguments →
      ¬ HasFreeBar arguments →
      ReadAs (ofText (String.ofList (w.around (n.chars ++ (gap.val ++ arguments)))) resolve)
        (resolve n.name) arguments := by
  intro h
  have hread := h unwrapped literal .none "[\":)\", \":|\"]".toList id
    (.inr ⟨"\":)\", \":|\"".toList, by decide⟩) (by decide)
  exact absurd hread.kind (by decide +kernel)

end TypedTables.TypeRef
