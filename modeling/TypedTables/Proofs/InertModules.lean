import Mathlib.Data.List.Infix
import TypedTables.Proofs.Round.StandardTemplates
import TypedTables.Proofs.Template.Searched

/-!
Generated modules in the search for a decorated class. The class of a module stands before its first
decorator, and no value that a standard template is filled in with is the word `class`. So there is
no marked class in a generated module.
-/

namespace TypedTables

open Text Source

namespace Source.Search

def behindName : Search → Option (List Search)
  | .noSign => some [.noSign]
  | .otherName => some [.otherName]
  | .lacking rest =>
      if rest = classWord then
        some [.lacking ['l', 'a', 's', 's'], .lacking ['a', 's', 's'], .lacking ['s', 's'],
          .lacking ['s'], .otherName]
      else none

def nameEnds (states : List Search) : Option (List Search) :=
  (states.mapM behindName).map List.flatten

def textsEnds (texts : List String) (states : List Search) : Option (List Search) :=
  (texts.mapM (readFixed states)).map List.flatten

def keptEnds (kept states : List Search) : Option (List Search) :=
  if states ⊆ kept then some states else none

section

variable {text : List Char} {states ends : List Search}

theorem read_otherName (h : ∀ c ∈ text, isNameChar c = true) :
    otherName.read text = some otherName := by
  induction text with
  | nil => rfl
  | cons c text ih =>
      obtain ⟨hc, htext⟩ := List.forall_mem_cons.mp h
      rw [read, step, if_pos hc, Option.bind_some, ih htext]

theorem read_lacking (h : ∀ c ∈ text, isNameChar c = true) (rest : List Char) :
    (lacking rest).read text =
      some (if text <+: rest then lacking (rest.drop text.length) else otherName) := by
  induction text generalizing rest with
  | nil => simp [read]
  | cons c text ih =>
      obtain ⟨hc, htext⟩ := List.forall_mem_cons.mp h
      cases rest with
      | nil => simp [read, step, hc, read_otherName htext]
      | cons d rest =>
          by_cases hd : c = d
          · subst hd
            simp [read, step, hc, ih htext, List.cons_prefix_cons]
          · simp [read, step, hc, hd, read_otherName htext, List.cons_prefix_cons]

theorem exists_behindName (hne : text ≠ []) (hchars : ∀ c ∈ text, isNameChar c = true)
    (hword : text ≠ classWord) {s : Search} {after : List Search}
    (h : behindName s = some after) : ∃ s' ∈ after, s.read text = some s' := by
  cases s with
  | noSign =>
      obtain rfl := Option.some.inj h
      refine ⟨.noSign, List.mem_cons_self, read_noSign ?_⟩
      intro hsign
      exact absurd (hchars '@' hsign) (by decide)
  | otherName =>
      obtain rfl := Option.some.inj h
      exact ⟨.otherName, List.mem_cons_self, read_otherName hchars⟩
  | lacking rest =>
      rw [behindName] at h
      split at h
      · rename_i hrest
        subst hrest
        obtain rfl := Option.some.inj h
        refine ⟨_, ?_, read_lacking hchars classWord⟩
        split
        · rename_i hprefix
          have hmem : text ∈ [[], ['c'], ['c', 'l'], ['c', 'l', 'a'], ['c', 'l', 'a', 's'],
            classWord] := (List.mem_inits text classWord).mpr hprefix
          simp only [List.mem_cons, List.not_mem_nil, or_false] at hmem
          rcases hmem with rfl | rfl | rfl | rfl | rfl | rfl
          · exact absurd rfl hne
          · simp [classWord]
          · simp [classWord]
          · simp [classWord]
          · simp [classWord]
          · exact absurd rfl hword
        · simp
      · cases h

theorem leads_of_mapM {α : Type} {f : α → Option (List Search)} {xs : List α}
    (h : (xs.mapM f).map List.flatten = some ends) :
    ∀ x ∈ xs, ∃ after, f x = some after ∧ after ⊆ ends := by
  obtain ⟨lists, hlists, rfl⟩ := Option.map_eq_some_iff.mp h
  intro x hx
  obtain ⟨after, hafter, hfx⟩ := exists_of_mapM_eq_some hlists x hx
  exact ⟨after, hfx, fun s hs => List.mem_flatten.mpr ⟨after, hafter, hs⟩⟩

theorem leads_name (hne : text ≠ []) (hchars : ∀ c ∈ text, isNameChar c = true)
    (hword : text ≠ classWord) (h : nameEnds states = some ends) : Leads text states ends := by
  intro s hs
  obtain ⟨after, hafter, hsub⟩ := leads_of_mapM h s hs
  obtain ⟨s', hs', hread⟩ := exists_behindName hne hchars hword hafter
  exact ⟨s', hsub hs', hread⟩

theorem leads_texts {texts : List String} {text : String} (htext : text ∈ texts)
    (h : textsEnds texts states = some ends) : Leads text.toList states ends := by
  obtain ⟨after, hafter, hsub⟩ := leads_of_mapM h text htext
  exact (leads_of_readFixed hafter).mono hsub

theorem leads_kept {kept : List Search} (hkept : ∀ s ∈ kept, s.read text = some s)
    (h : keptEnds kept states = some ends) : Leads text states ends := by
  rw [keptEnds] at h
  split at h
  · rename_i hsub
    obtain rfl := Option.some.inj h
    exact fun s hs => ⟨s, hs, hkept s (hsub hs)⟩
  · cases h

end

end Source.Search

open Source.Search

def columnEnds (type : ColumnType) : String → List Search → Option (List Search)
  | "name" | "index" | "link_target" => nameEnds
  | "type" => textsEnds [type.label]
  | "field_type" | "param_type" => if type = .link then fun _ => none else textsEnds accessorTypes
  | _ => fun _ => none

def methodEnds : ValueEnds where
  value
    | "entity" => nameEnds
    | _ => fun _ => none
  column := columnEnds

/-- The values that modules are filled in with. The imports stand before the first decorator. -/
def moduleEnds : ValueEnds where
  value
    | "entity" | "name" => nameEnds
    | "header" => textsEnds [generatedHeader]
    | "is_nested" => textsEnds ["True", "False"]
    | "module" => keptEnds [.noSign]
    | "add" | "insert" => keptEnds [.noSign, atBreak]
    | _ => fun _ => none
  column := columnEnds

theorem ends_methods : ∀ template ∈ [Template.addTemplate, Template.insertTemplate],
    ∀ s ∈ [.noSign, atBreak], endsOfAll methodEnds none [s] template = some [s] := by
  decide +kernel

theorem ends_modules : ∀ a ∈ artifacts, ∀ template ∈ Template.standardAt? [a.template],
    (endsOfAll moduleEnds none [.noSign] template).any (fun ends => lacking [] ∉ ends) = true := by
  decide +kernel

theorem accessorTypes_unsigned : ∀ type ∈ accessorTypes, ∀ module ∈ moduleOf? (.text type),
    '@' ∉ module.toList := by
  decide

structure Column.Named (c : Column) : Prop where
  regular : c.Regular
  target : ∀ target ∈ c.link, target.name ≠ "class"

structure EntityModel.Named (m : EntityModel) : Prop where
  entity : IsName m.entity
  entity_ne : m.entity ≠ "class"
  columns : ∀ c ∈ m.columns, c.Named

theorem leads_isName {name : String} (h : IsName name) (hne : name ≠ "class")
    {states ends : List Search} (hends : nameEnds states = some ends) :
    Leads name.toList states ends := by
  obtain ⟨c, cs, hcs, -, -⟩ := h.exists_cons
  refine leads_name (by simp [hcs]) h.chars ?_ hends
  exact fun hword => hne (String.toList_inj.mp hword)

namespace Column.Named

variable {c : Column}

theorem type_mem (h : c.Named) : c.type ∈ codeTypes := by
  have hsupported := h.regular.supported
  cases htype : c.type with
  | unsupported => exact absurd htype hsupported
  | _ => decide

theorem leads_digits (n : Nat) {states ends : List Search} (h : nameEnds states = some ends) :
    Leads (Nat.toDigits 10 n) states ends := by
  refine leads_name Nat.toDigits_ne_nil (fun _ hc => (toDigits_not_lead hc).1) ?_ h
  intro hword
  have hmem : 'c' ∈ Nat.toDigits 10 n := by simp [hword, classWord]
  have hfirst := (toDigits_not_lead hmem).2
  exact absurd hfirst (by decide)

theorem columnEnds (h : c.Named) (s : TemplateScope) (key : String) (states ends : List Search)
    (hends : columnEnds c.type key states = some ends) :
    Leads ((s.withColumn c.toData).shownColumn key) states ends := by
  revert hends
  fun_cases TypedTables.columnEnds c.type key with
  | case1 =>
      intro hends
      rw [shownColumn_name]
      exact leads_isName h.regular.name.1 (fun heq => h.regular.name.2 (heq ▸ by decide)) hends
  | case2 =>
      intro hends
      rw [shownColumn_index]
      exact leads_digits c.index hends
  | case3 =>
      intro hends
      rw [shownColumn_target]
      cases hlink : c.link with
      | none => exact leads_isName (by decide) (by decide) hends
      | some target =>
          exact leads_isName (h.regular.target target hlink) (h.target target hlink) hends
  | case4 =>
      intro hends
      rw [shownColumn_type]
      exact leads_texts List.mem_cons_self hends
  | case5 => nofun
  | case6 hlink =>
      intro hends
      rw [shownColumn_fieldType]
      exact leads_texts (h.regular.types hlink).1 hends
  | case7 => nofun
  | case8 hlink =>
      intro hends
      rw [shownColumn_paramType]
      exact leads_texts (h.regular.types hlink).2 hends
  | case9 => nofun

theorem valueEnds (h : c.Named) {v : ValueEnds} (hv : v.column = TypedTables.columnEnds)
    (s : TemplateScope) : v.Column (s.withColumn c.toData) c.type where
  values key states ends hends := h.columnEnds s key states ends (hv ▸ hends)
  accessor := accessorName_column s c
  tests := passes_eq_admits s c

end Column.Named

namespace EntityModel.Named

variable {m : EntityModel}

theorem columnScopes (h : m.Named) {v : ValueEnds} (hv : v.column = columnEnds) {s : TemplateScope}
    (hs : s.columnList = m.columns.map Column.toData) :
    ∀ d ∈ s.columnList, ∃ type ∈ codeTypes, v.Column (s.withColumn d) type := by
  rw [hs]
  intro d hd
  obtain ⟨c, hc, rfl⟩ := List.mem_map.mp hd
  have hnamed := h.columns c hc
  exact ⟨c.type, hnamed.type_mem, hnamed.valueEnds hv s⟩

theorem methodScope (h : m.Named) : methodEnds.Scope m.methodScope where
  values name states ends hends := by
    simp only [methodEnds] at hends
    split at hends
    · exact leads_isName h.entity h.entity_ne hends
    · cases hends
  modules := nofun
  columns := h.columnScopes rfl (columnList_methodScope m)

theorem read_of_render (h : m.Named) {template : Template}
    (htemplate : template ∈ [Template.addTemplate, Template.insertTemplate]) {method : String}
    (hrender : template.render (methodContext m.entity m.columns) = .ok method) :
    ∀ s ∈ [.noSign, atBreak], s.read method.toList = some s := by
  intro s hs
  have hends := ends_methods template htemplate s hs
  have hleads := @ValueEnds.leads_filledAll _ _ none h.methodScope nofun template [s] [s] hends
  obtain ⟨s', hs', hread⟩ := hleads s List.mem_cons_self
  obtain rfl := List.mem_singleton.mp hs'
  rwa [filledAll_of_render _ template method hrender]

theorem moduleScope (h : m.Named) (hm : Round.StandardMethods m) {name : String}
    (hname : IsName name) (hne : name ≠ "class") : moduleEnds.Scope (m.scope name) where
  values value states ends hends := by
    simp only [moduleEnds] at hends
    split at hends
    case h_1 =>
      rw [shown_entity]
      exact leads_isName h.entity h.entity_ne hends
    case h_2 =>
      rw [shown_name]
      exact leads_isName hname hne hends
    case h_3 =>
      rw [shown_header]
      exact leads_texts List.mem_cons_self hends
    case h_4 =>
      rw [shown_isNested]
      refine leads_texts ?_ hends
      cases m.isNested <;> decide
    case h_5 =>
      exact leads_kept (fun s hs => by rw [List.mem_singleton.mp hs]; rfl) hends
    case h_6 =>
      rw [shown_add]
      exact leads_kept (h.read_of_render List.mem_cons_self hm.add) hends
    case h_7 =>
      rw [shown_insert]
      exact leads_kept (h.read_of_render (by simp) hm.insert) hends
    case h_8 => cases hends
  modules module hmodule states ends hends := by
    obtain ⟨type, htype, hmodule⟩ :=
      exists_type_of_moduleList (fun c hc => (h.columns c hc).regular) name module hmodule
    refine leads_kept (fun s hs => ?_) hends
    rw [List.mem_singleton.mp hs]
    exact read_noSign (accessorTypes_unsigned type htype module hmodule)
  columns := h.columnScopes rfl (columnList_scope m name)

end EntityModel.Named

theorem suffix_chars : ∀ a ∈ artifacts, a.suffix.toList.all isNameChar = true ∧
    (a.suffix = "" ∨ ¬ a.suffix.toList <:+ classWord) := by
  decide

theorem EntityModel.Named.className {m : EntityModel} (h : m.Named) {a : Artifact}
    (ha : a ∈ artifacts) : IsName (m.entity ++ a.suffix) ∧ m.entity ++ a.suffix ≠ "class" := by
  obtain ⟨hchars, hsuffix⟩ := suffix_chars a ha
  refine ⟨h.entity.append (List.all_eq_true.mp hchars), ?_⟩
  intro hclass
  rcases hsuffix with hempty | hsuffix
  · rw [hempty, String.append_empty] at hclass
    exact h.entity_ne hclass
  · refine hsuffix ⟨m.entity.toList, ?_⟩
    rw [← String.toList_append, hclass]
    rfl

/-- The search finds no decorated class in a module of a standard template. -/
theorem Round.Standard.passes {config : Config} {m : EntityModel} {a : Artifact}
    {f : GeneratedFile} (h : Round.Standard config m a f) (hm : m.Named)
    (hmethods : Round.StandardMethods m) (ha : a ∈ artifacts) :
    noSign.Passes f.content.toList := by
  obtain ⟨hname, hne⟩ := hm.className ha
  obtain ⟨template, htemplate, hrender⟩ := h.content
  have hends := ends_modules a ha template htemplate
  obtain ⟨ends, hends, hlacking⟩ := (Option.any_eq_true _ _).mp hends
  have hscope := hm.moduleScope hmethods hname hne
  have hleads := @ValueEnds.leads_filledAll _ _ none hscope nofun template [.noSign] ends hends
  obtain ⟨s, hs, hread⟩ := hleads .noSign List.mem_cons_self
  refine ⟨s, ?_, ?_⟩
  · rwa [filledAll_of_render _ template f.content hrender]
  · rintro rfl
    exact absurd hs (of_decide_eq_true hlacking)

end TypedTables
