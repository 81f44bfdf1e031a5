import TypedTables.Proofs.FieldNames
import TypedTables.Proofs.Names
import TypedTables.Proofs.Walk

namespace TypedTables

open Text

namespace Text

theorem singleLine_joinWith {sep : Char} (hsep : isBreak sep = false) {parts : List (List Char)} :
    SingleLine (joinWith sep parts) ↔ ∀ part ∈ parts, SingleLine part := by
  fun_induction joinWith sep parts with
  | case1 => simp [SingleLine]
  | case2 part => simp
  | case3 part next parts ih =>
      have hcons : SingleLine (sep :: joinWith sep (next :: parts)) ↔
          SingleLine (joinWith sep (next :: parts)) := by
        rw [SingleLine, List.forall_mem_cons, and_iff_right hsep]
        rfl
      rw [singleLine_append, hcons, ih, List.forall_mem_cons (a := part)]

theorem singleLine_dotted {parts : List String} :
    SingleLine (dotted parts).toList ↔ ∀ part ∈ parts, SingleLine part.toList := by
  rw [dotted, String.toList_ofList, singleLine_joinWith (by decide), List.forall_mem_map]

theorem beforeLast?_subset {sep : Char} {cs before : List Char}
    (h : beforeLast? sep cs = some before) : before ⊆ cs := by
  rw [beforeLast?] at h
  split at h
  · cases h
  · rename_i c rest hrest
    obtain rfl := Option.some.inj h
    intro d hd
    have hdrop : d ∈ cs.reverse.dropWhile (· ≠ sep) := by
      rw [hrest]
      exact List.mem_cons_of_mem c (List.mem_reverse.mp hd)
    exact List.mem_reverse.mp ((List.dropWhile_sublist _).subset hdrop)

end Text

namespace Path

theorem singleLine_components {p : Path} (h : SingleLine p.text.toList) :
    ∀ part ∈ p.components, SingleLine part.toList := by
  rw [text] at h
  split at h
  · rename_i hempty
    rw [Bool.and_eq_true, List.isEmpty_iff] at hempty
    rw [hempty.2]
    nofun
  · rw [bareText, String.toList_append, singleLine_append, String.toList_ofList,
      singleLine_joinWith (by decide), List.forall_mem_map] at h
    exact h.2

theorem singleLine_splitSuffix {name : String} (h : SingleLine name.toList) :
    SingleLine (splitSuffix name).1.toList := by
  rw [splitSuffix]
  split
  · exact h
  · exact h
  · rename_i c stem hstem
    dsimp only
    split
    · exact h
    · rw [String.toList_ofList]
      exact h.of_subset (beforeLast?_subset hstem)

end Path

namespace Source

theorem ModuleName.singleLine_ofComponents {parts : List String}
    (h : ∀ part ∈ parts, SingleLine part.toList) :
    SingleLine (ofComponents parts).module.toList ∧
      ∀ package ∈ (ofComponents parts).package, SingleLine package.toList := by
  have habove : SingleLine (dotted parts.dropLast).toList :=
    singleLine_dotted.mpr (fun part hpart => h part (List.dropLast_subset _ hpart))
  have hpackage : ∀ package ∈ nonempty? (dotted parts.dropLast), SingleLine package.toList := by
    intro package hmem
    rw [nonempty?] at hmem
    split at hmem
    · cases hmem
    · obtain rfl := Option.some.inj hmem
      exact habove
  rw [ofComponents]
  split
  · exact ⟨habove, hpackage⟩
  · exact ⟨singleLine_dotted.mpr h, hpackage⟩

theorem ModuleName.singleLine_ofPath {path root : Path} {name : ModuleName}
    (h : ofPath path root = .ok name) (hpath : SingleLine path.text.toList) :
    SingleLine name.module.toList ∧ ∀ package ∈ name.package, SingleLine package.toList := by
  have hcomponents := Path.singleLine_components hpath
  rw [ofPath, Path.relativeTo] at h
  cases hbelow : path.below? root with
  | none => simp [hbelow, bind, Except.bind] at h
  | some parts =>
      obtain ⟨-, hparts⟩ := Path.below?_eq_some.mp hbelow
      have hown : ∀ part ∈ parts, SingleLine part.toList := by
        intro part hpart
        exact hcomponents part (hparts ▸ List.mem_append_right _ hpart)
      simp only [hbelow, bind, Except.bind, Path.withoutSuffix] at h
      split at h
      · cases h
      · rename_i stem hstem
        split at hstem
        · cases hstem
        · obtain rfl := Except.ok.inj hstem
          obtain rfl := Except.ok.inj h
          refine singleLine_ofComponents ?_
          intro part hpart
          rcases List.mem_append.mp hpart with hpart | hpart
          · exact hown part (List.dropLast_subset _ hpart)
          · obtain rfl := List.mem_singleton.mp hpart
            refine Path.singleLine_splitSuffix ?_
            rw [Path.name]
            cases hlast : parts.getLast? with
            | none => decide
            | some last => exact hown last (List.mem_of_getLast? hlast)

end Source

structure Entity.InOneLine (e : Entity) : Prop where
  simpleName : SingleLine e.simpleName.toList
  qualifiedName : SingleLine e.qualifiedName.toList
  package : ∀ package ∈ e.package?, SingleLine package.toList
  fields : ∀ f ∈ e.fields, SingleLine f.name.toList

namespace Source

theorem package?_entityAt {ctx : ModuleContext} {file : Option String} {path : List String}
    {body : List Statement} : ∀ package ∈ (entityAt ctx file path body).package?,
      package ∈ ctx.package := by
  intro package hpackage
  obtain ⟨s, hs, rfl⟩ := Option.map_eq_some_iff.mp hpackage
  have hkind : s.kind = .packageScope := by simpa using List.find?_some hs
  have hmem := List.mem_of_find?_eq_some hs
  simp only [entityAt, scopesOf] at hmem
  rcases List.mem_append.mp hmem with hmem | hmem
  · obtain ⟨depth, -, rfl⟩ := List.mem_map.mp hmem
    cases hkind
  · rcases List.mem_cons.mp hmem with rfl | hmem
    · cases hkind
    · cases hctx : ctx.package with
      | none => simp [hctx] at hmem
      | some name =>
          rw [hctx] at hmem
          dsimp only at hmem
          split at hmem
          · cases hmem
          · obtain rfl := List.mem_singleton.mp hmem
            rfl

theorem inOneLine_of_mem_marked {bytes : List UInt8} {name : ModuleName} {namespaceName : String}
    {file : Option String} {m : Marked}
    (hm : m ∈ marked (parse bytes) name.module name.package namespaceName file)
    (hmodule : SingleLine name.module.toList)
    (hpackage : ∀ package ∈ name.package, SingleLine package.toList) : m.entity.InOneLine := by
  have hfields := isFieldName_of_mem_marked hm
  obtain ⟨path, ds, body, hclass, -, hentity⟩ := mem_marked.mp hm
  have hpath : ∀ part ∈ path, SingleLine part.toList :=
    fun part hpart => (hclass.forall_names isName_of_mem_classScopes part hpart).singleLine
  constructor
  case simpleName =>
    have hname : m.entity.simpleName = path.getLast?.getD "" := by
      rw [hentity]
      rfl
    rw [hname]
    cases hlast : path.getLast? with
    | none => decide
    | some last => exact hpath last (List.mem_of_getLast? hlast)
  case qualifiedName =>
    rw [hentity, entityAt]
    exact singleLine_dotted.mpr (List.forall_mem_cons.mpr ⟨hmodule, hpath⟩)
  case package =>
    rw [hentity]
    exact fun package hmem => hpackage package (package?_entityAt package hmem)
  case fields => exact fun f hf => (hfields f hf).1.singleLine

end Source

end TypedTables
