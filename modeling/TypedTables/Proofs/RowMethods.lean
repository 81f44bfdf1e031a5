import TypedTables.Proofs.Mentions
import TypedTables.Proofs.ModuleScope
import TypedTables.Proofs.Round.StandardTemplates

/-!
The methods of a table that set whole rows. Each takes a parameter per column that can be set, and
its body reads some names of its own. A parameter that has one of these names captures it.
-/

namespace TypedTables

open Text Source

def Column.setterNames (c : Column) : List String :=
  match c.type with
  | .binary => ["self", "_row", bufferType, c.name]
  | .variant => ["self", "_row", "tablegen", c.name]
  | _ => ["self", "_row", c.name]

theorem Column.mem_setterNames {c : Column} {n : String} : n ∈ c.setterNames ↔
    n = "self" ∨ n = "_row" ∨ n = c.name ∨ (n = bufferType ∧ c.type = .binary) ∨
      n = "tablegen" ∧ c.type = .variant := by
  rw [setterNames]
  cases c.type <;> simp
  all_goals tauto

namespace EntityModel

def parameters (m : EntityModel) : List String := m.settable.map Column.name

/-- The names that a method which sets a row reads besides the values of the columns. -/
def ownNames (m : EntityModel) : List String :=
  ["self", "_row", m.entity] ++
    (if ∃ c ∈ m.columns, c.type = .binary then [bufferType] else []) ++
    if ∃ c ∈ m.columns, c.type = .variant then ["tablegen"] else []

def rowNames (m : EntityModel) (first : List String) : List String :=
  (first ++ m.settable.flatMap Column.setterNames ++ ["return", m.entity, "self", "_row"]).filter
    (· ∉ keywords)

theorem mem_ownNames {m : EntityModel} {n : String} :
    n ∈ m.ownNames ↔ n = "self" ∨ n = "_row" ∨ n = m.entity ∨
      (n = bufferType ∧ ∃ c ∈ m.columns, c.type = .binary) ∨
        n = "tablegen" ∧ ∃ c ∈ m.columns, c.type = .variant := by
  rw [ownNames]
  split_ifs with hbinary hvariant hvariant <;> simp [hbinary, hvariant]

end EntityModel

theorem splitOn_append_flatMap {α : Type} {sep : Char} {part : α → List Char} {xs : List α}
    (h : ∀ x ∈ xs, sep ∉ part x) (text : List Char) :
    splitOn sep (text ++ xs.flatMap (fun x => sep :: part x)) =
      splitOn sep text ++ xs.map part := by
  induction xs generalizing text with
  | nil => simp
  | cons x xs ih =>
      obtain ⟨hx, hxs⟩ := List.forall_mem_cons.mp h
      rw [List.flatMap_cons, List.cons_append, splitOn_append, ih hxs, splitOn_of_not_mem hx,
        List.map_cons]
      rfl

theorem accessorTypes_plain : ∀ type ∈ accessorTypes, ',' ∉ type.toList ∧ ')' ∉ type.toList := by
  decide

namespace EntityModel.Regular

variable {m : EntityModel}

theorem nodup_parameters (h : m.Regular) : m.parameters.Nodup :=
  (List.filter_sublist.map Column.name).nodup h.distinct

theorem not_reserved (h : m.Regular) {p : String} (hp : p ∈ m.parameters) :
    p ∉ reservedFieldNames ∧ p ∉ keywords := by
  obtain ⟨c, hc, rfl⟩ := List.mem_map.mp hp
  obtain ⟨hregular, -⟩ := h.type_of_settable hc
  exact ⟨hregular.free, hregular.name.2⟩

/-- The check of names leaves one name to capture. -/
theorem captures_iff (h : m.Regular) {p : String} (hp : p ∈ m.parameters) :
    p ∈ m.ownNames ↔ p = m.entity := by
  have hfree := (h.not_reserved hp).1
  rw [mem_ownNames]
  constructor
  · rintro (rfl | rfl | hentity | ⟨rfl, -⟩ | ⟨rfl, -⟩)
    · exact absurd (by decide) hfree
    · exact absurd (by decide) hfree
    · exact hentity
    · exact absurd (by decide) hfree
    · exact absurd (by decide) hfree
  · intro hentity
    exact .inr (.inr (.inl hentity))

theorem parametersOf_of_row (h : m.Regular) (opening first : List Char) (names : List String)
    {start method : String} {lines : List String}
    (hstart : start.toList = opening ++ '(' :: first) (hopening : '(' ∉ opening)
    (hfirst : ')' ∉ first)
    (hnames : (splitOn ',' first).map (fun p => String.ofList (parameterName p)) = names)
    (hrender : (rowTemplate start lines).render (methodContext m.entity m.columns) = .ok method) :
    parametersOf method = names ++ m.parameters := by
  have hparen : ')' ∉ Template.parameters.filled m.methodScope :=
    h.not_mem_parameters (by decide) (fun type htype => (accessorTypes_plain type htype).2)
      (by decide)
  have hmethod : ∃ rest, method.toList =
      opening ++ '(' :: (first ++ Template.parameters.filled m.methodScope ++ ')' :: rest) := by
    rw [Template.toList_of_render rfl hrender, ← methodScope, rowTemplate, linesOfAll,
      TemplatePart.filledLines, unlines_append]
    simp only [parametersLine, filledAll, TemplatePart.filled, hstart, unlines, List.flatMap_cons,
      List.append_assoc, List.cons_append]
    exact ⟨_, rfl⟩
  obtain ⟨rest, hmethod⟩ := hmethod
  rw [parametersOf_eq hopening (by simp [hfirst, hparen]) hmethod, filled_parameters,
    splitOn_append_flatMap, List.map_append, List.map_map, parameters, hnames]
  · congr 1
    refine List.map_congr_left ?_
    intro c hc
    obtain ⟨hregular, -⟩ := h.type_of_settable hc
    rw [Function.comp_apply, parameterName_of_isName hregular.name.1 rfl, String.ofList_toList]
  · intro c hc
    obtain ⟨hregular, -, hparam⟩ := h.type_of_settable hc
    have hcomma := hregular.name.1.not_mem (c := ',') (by decide)
    simp [hcomma, (accessorTypes_plain _ hparam).1]

theorem names_setters (h : m.Regular) (rest : List TemplatePart) :
    toldLines bodyNames m.methodScope (Template.setters :: rest) =
      m.settable.flatMap (fun c => c.setterNames.map String.toList) ++
        toldLines bodyNames m.methodScope rest := by
  rw [Template.setters, toldLines_eachColumn _ _ _ _ _ _ (columnList_methodScope m)]
  simp only [passes_settable]
  rw [flatMap_ite, ← EntityModel.settable, List.append_left_inj]
  refine List.flatMap_congr ?_
  intro c hc
  obtain ⟨hregular, hfield, -⟩ := h.type_of_settable hc
  obtain ⟨hflat, -⟩ := hregular.not_mem_name
  have hindex := toDigits_flat c.index
  have hname := namesIn_of_isName hregular.name.1
  have hdigits := namesIn_toDigits c.index
  rw [Column.setterNames]
  cases htype : c.type with
  | link | unsupported =>
      have hsettable := (List.mem_filter.mp hc).2
      rw [Column.isSettable, htype] at hsettable
      cases hsettable
  | binary =>
      simp +decide only [toldLines_whenColumn, passes_typeIn, htype, ↓reduceIte]
      simp only [toldLines_nil, toldLines_line, filledAll, TemplatePart.filled, List.append_nil,
        shownColumn_name, shownColumn_index, List.map_cons, List.map_nil, bufferType]
      repeat rw [String.toList_ofList]
      simp (disch := first | decide | (apply startsApart_append; decide) |
        simp [hflat, hindex]) only [bodyNames_code, namesIn_append_of_end,
        namesIn_append_of_start, hname, hdigits]
      rfl
  | variant =>
      simp +decide only [toldLines_whenColumn, passes_typeIn, htype, ↓reduceIte]
      simp only [toldLines_nil, toldLines_line, filledAll, TemplatePart.filled, List.append_nil,
        shownColumn_name, shownColumn_fieldType, shownColumn_index, List.map_cons, List.map_nil,
        hregular.wrapped htype, variantWrapperType]
      repeat rw [String.toList_ofList]
      simp (disch := first | decide | (apply startsApart_append; decide) |
        simp [hflat, hindex]) only [bodyNames_code, namesIn_append_of_end,
        namesIn_append_of_start, hname, hdigits]
      rfl
  | _ =>
      -- the accessor continues an attribute and is no name of its own
      have haccessor := accessor_isNameChar c.type
      have haccessorFlat := accessor_flat c.type
      rw [htype] at haccessor haccessorFlat
      simp +decide only [toldLines_whenColumn, passes_typeIn, htype, ↓reduceIte]
      simp only [toldLines_nil, toldLines_line, filledAll, TemplatePart.filled, List.append_nil,
        shownColumn_name, accessorName_column, htype, shownColumn_index, List.map_cons,
        List.map_nil]
      repeat rw [String.toList_ofList]
      simp (disch := first | exact haccessor | decide | (apply startsApart_append; decide) |
        simp [hflat, hindex, haccessorFlat]) only [bodyNames_code, namesIn_append_of_end,
        namesIn_append_of_start, namesIn_attribute, hname, hdigits]
      rfl

theorem names_return (h : m.Regular) :
    toldLines bodyNames m.methodScope
      [.line ["        return ", .value "entity", "(self._backend, _row)"]] =
        ["return", m.entity, "self", "_row"].map String.toList := by
  have hflat := h.entity_flat
  have hname := namesIn_of_isName h.entity
  simp only [toldLines_nil, toldLines_line, filledAll, TemplatePart.filled, List.append_nil,
    shown_methodEntity, List.map_cons, List.map_nil]
  repeat rw [String.toList_ofList]
  simp (disch := first | decide | simp [hflat]) only [bodyNames_code, namesIn_append_of_end,
    namesIn_append_of_start, hname]
  rfl

theorem namesRead_of_row (h : m.Regular) (first : List String) {start method : String}
    {lines : List String} (hstart : '\n' ∉ start.toList)
    (hlines : lines.flatMap (fun line => bodyNames line.toList) = first.map String.toList)
    (hrender : (rowTemplate start lines).render (methodContext m.entity m.columns) = .ok method) :
    namesRead method = m.rowNames first := by
  have hflat : '\n' ∉ filledAll m.methodScope (.text start :: parametersLine) := by
    rw [filledAll, TemplatePart.filled]
    simp [hstart, h.parametersLine_flat]
  rw [namesRead_of_render rfl hflat hrender, ← methodScope,
    toldLines_lines, hlines, h.names_setters, h.names_return, ← List.map_flatMap,
    ← List.map_append, ← List.map_append, List.map_map, ← List.append_assoc]
  simp [rowNames, Function.comp_def]

theorem namesRead_of_methods (h : m.Regular) (hm : Round.StandardMethods m) :
    ∀ method ∈ [m.addMethod, m.insertMethod], ∃ first : List String,
      (∀ n ∈ first, n = "self" ∨ n = "_row") ∧ namesRead method = m.rowNames first := by
  intro method hmethod
  rcases List.mem_pair.mp hmethod with rfl | rfl
  · exact ⟨["_row", "self"], by simp, h.namesRead_of_row _ (by decide) (by decide) hm.add⟩
  · exact ⟨["self", "_row"], by simp,
      h.namesRead_of_row _ (by decide) (by decide) hm.insert⟩

theorem mem_rowNames {first : List String} (hfirst : ∀ n ∈ first, n = "self" ∨ n = "_row")
    (n : String) :
    n ∈ m.rowNames first ↔ n ∉ keywords ∧ (n ∈ m.parameters ∨ n ∈ m.ownNames) := by
  -- what the own names ask of all columns is found among those that are set
  have hsettable : ∀ c ∈ m.columns, c.type = .binary ∨ c.type = .variant → c ∈ m.settable := by
    intro c hc htype
    refine List.mem_filter.mpr ⟨hc, ?_⟩
    rcases htype with htype | htype <;> simp [Column.isSettable, htype]
  rw [rowNames, List.mem_filter, decide_eq_true_eq, and_comm, and_congr_right_iff]
  intro hkeyword
  rw [mem_ownNames, List.mem_append, List.mem_append, List.mem_flatMap, parameters, List.mem_map]
  constructor
  · rintro ((hn | ⟨c, hc, hn⟩) | hn)
    · rcases hfirst n hn with rfl | rfl <;> simp
    · have hcolumn := (List.mem_filter.mp hc).1
      rcases Column.mem_setterNames.mp hn with rfl | rfl | rfl | ⟨rfl, htype⟩ | ⟨rfl, htype⟩
      · simp
      · simp
      · exact .inl ⟨c, hc, rfl⟩
      · exact .inr (.inr (.inr (.inr (.inl ⟨rfl, c, hcolumn, htype⟩))))
      · exact .inr (.inr (.inr (.inr (.inr ⟨rfl, c, hcolumn, htype⟩))))
    · simp only [List.mem_cons, List.not_mem_nil, or_false] at hn
      rcases hn with rfl | rfl | rfl | rfl
      · exact absurd (by decide) hkeyword
      · simp
      · simp
      · simp
  · rintro (⟨c, hc, rfl⟩ | rfl | rfl | rfl | ⟨rfl, c, hc, htype⟩ | ⟨rfl, c, hc, htype⟩)
    · exact .inl (.inr ⟨c, hc, Column.mem_setterNames.mpr (.inr (.inr (.inl rfl)))⟩)
    · simp
    · simp
    · simp
    · exact .inl (.inr ⟨c, hsettable c hc (.inl htype),
        Column.mem_setterNames.mpr (.inr (.inr (.inr (.inl ⟨rfl, htype⟩))))⟩)
    · exact .inl (.inr ⟨c, hsettable c hc (.inr htype),
        Column.mem_setterNames.mpr (.inr (.inr (.inr (.inr ⟨rfl, htype⟩))))⟩)

theorem count_rowNames (h : m.Regular) {first : List String}
    (hfirst : ∀ n ∈ first, n = "self" ∨ n = "_row") {p : String} (hp : p ∈ m.parameters) :
    (m.rowNames first).count p = if p = m.entity then 2 else 1 := by
  obtain ⟨hfree, hkeyword⟩ := h.not_reserved hp
  have hother : ∀ n ∈ reservedFieldNames, n ≠ p := by
    rintro n hn rfl
    exact hfree hn
  have hself := hother "self" (by decide)
  have hrow := hother "_row" (by decide)
  have hbuffer := hother bufferType (by decide)
  have htablegen := hother "tablegen" (by decide)
  have hreturn : "return" ≠ p := by
    rintro rfl
    exact hkeyword (by decide)
  have hstart : first.count p = 0 := by
    rw [List.count_eq_zero]
    intro hmem
    rcases hfirst p hmem with rfl | rfl
    · exact hself rfl
    · exact hrow rfl
  -- the line of a column mentions no parameter but its own
  have hsetters : (m.settable.flatMap Column.setterNames).count p = 1 := by
    have hcolumn : ∀ c ∈ m.settable, c.setterNames.count p = [c.name].count p := by
      intro c _
      rw [Column.setterNames]
      cases c.type <;> simp [List.count_cons, hself, hrow, hbuffer, htablegen]
    calc (m.settable.flatMap Column.setterNames).count p
        = (m.settable.flatMap (fun c => [c.name])).count p := by
          rw [List.count_flatMap, List.count_flatMap]
          exact congrArg List.sum (List.map_congr_left hcolumn)
      _ = m.parameters.count p := by rw [parameters, List.map_eq_flatMap]
      _ = 1 := List.count_eq_one_of_mem h.nodup_parameters hp
  rw [rowNames, List.count_filter (by simpa using hkeyword), List.count_append, List.count_append,
    hstart, hsetters]
  by_cases hentity : m.entity = p
  · simp [hentity, hself, hrow, hreturn]
  · simp [hentity, Ne.symm hentity, hself, hrow, hreturn]

end EntityModel.Regular

structure EntityModel.RowMethods (m : EntityModel) : Prop where
  add : parametersOf m.addMethod = "self" :: m.parameters
  insert : parametersOf m.insertMethod = "self" :: "_row" :: m.parameters
  distinct : ∀ method ∈ [m.addMethod, m.insertMethod], (parametersOf method).Nodup
  reads : ∀ method ∈ [m.addMethod, m.insertMethod], ∀ n,
    n ∈ namesRead method ↔ n ∉ keywords ∧ (n ∈ m.parameters ∨ n ∈ m.ownNames)
  captured : ∀ p ∈ m.parameters, p ∈ m.ownNames ↔ p = m.entity
  mentions : ∀ method ∈ [m.addMethod, m.insertMethod], ∀ p ∈ m.parameters,
    (namesRead method).count p = if p = m.entity then 2 else 1

theorem EntityModel.Regular.rowMethods {m : EntityModel} (h : m.Regular)
    (hm : Round.StandardMethods m) : m.RowMethods := by
  have hadd : parametersOf m.addMethod = "self" :: m.parameters :=
    h.parametersOf_of_row "    def add".toList "self".toList ["self"] (by decide)
      (by decide) (by decide) (by decide) hm.add
  have hinsert : parametersOf m.insertMethod = "self" :: "_row" :: m.parameters :=
    h.parametersOf_of_row "    def insert".toList "self, _row: int".toList ["self", "_row"]
      (by decide) (by decide) (by decide) (by decide) hm.insert
  have hfree : ∀ n ∈ reservedFieldNames, n ∉ m.parameters := by
    intro n hn hp
    exact (h.not_reserved hp).1 hn
  have hdistinct := h.nodup_parameters
  constructor
  case add => exact hadd
  case insert => exact hinsert
  case captured =>
    intro p hp
    exact h.captures_iff hp
  case distinct =>
    intro method hmethod
    have hself := hfree "self" (by decide)
    have hrow := hfree "_row" (by decide)
    rcases List.mem_pair.mp hmethod with rfl | rfl
    · simp [hadd, hself, hdistinct]
    · simp [hinsert, hself, hrow, hdistinct]
  case reads =>
    intro method hmethod n
    obtain ⟨first, hfirst, hnames⟩ := h.namesRead_of_methods hm method hmethod
    rw [hnames, mem_rowNames hfirst]
  case mentions =>
    intro method hmethod p hp
    obtain ⟨first, hfirst, hnames⟩ := h.namesRead_of_methods hm method hmethod
    rw [hnames, h.count_rowNames hfirst hp]

end TypedTables
