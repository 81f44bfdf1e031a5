import Mathlib.Data.List.Nodup
import TypedTables.Schema
import TypedTables.Proofs.Keyed

/-!
What the schema of a candidate list says about a name: it is known if some candidate bears it, and
nested if besides some field of some candidate refers to it. `classifies_build` says that nothing
else counts, and that tables and sub-tables list each known name once.
-/

namespace TypedTables

def candidateNames (entities : List Entity) : List String :=
  entities.map Entity.qualifiedName

theorem TypeRef.isDeclared_iff (t : TypeRef) :
    t.isDeclared = true ↔ t.kind = .name ∨ t.kind = .generic := by
  simp [isDeclared]

def IsReferenced (entities : List Entity) (name : String) : Prop :=
  ∃ e ∈ entities, ∃ f ∈ e.fields,
    (f.type.kind = .name ∨ f.type.kind = .generic) ∧ f.type.identity = name

def InOrderOf (all names : List String) : Prop :=
  names.Pairwise (fun a b => all.idxOf a < all.idxOf b)

theorem InOrderOf.nodup {all names : List String} (h : InOrderOf all names) : names.Nodup := by
  refine List.Pairwise.imp ?_ h
  rintro a _ hlt rfl
  exact Nat.lt_irrefl _ hlt

namespace Schema

theorem mem_referencedIdentities {entities : List Entity} {name : String} :
    name ∈ referencedIdentities entities ↔
      ∃ e ∈ entities, ∃ f ∈ e.fields, f.type.isDeclared = true ∧ f.type.identity = name := by
  simp only [referencedIdentities, List.mem_flatMap, List.mem_filterMap]
  constructor
  · rintro ⟨e, he, f, hf, h⟩
    by_cases hd : f.type.isDeclared = true
    · rw [if_pos hd] at h
      exact ⟨e, he, f, hf, hd, Option.some.inj h⟩
    · rw [if_neg hd] at h
      exact absurd h (by simp)
  · rintro ⟨e, he, f, hf, hd, hname⟩
    exact ⟨e, he, f, hf, by rw [if_pos hd, hname]⟩

theorem classify_build (entities : List Entity) (name : String) :
    (build entities).classify name =
      if name ∈ candidateNames entities then
        some (if name ∈ referencedIdentities entities then .nested else .topLevel)
      else none := by
  have hgraph : entities.map
      (fun e => (e.qualifiedName, verdictOn (referencedIdentities entities) e)) =
        (candidateNames entities).map (fun name =>
          (name, if name ∈ referencedIdentities entities then .nested else .topLevel)) := by
    rw [candidateNames, List.map_map]
    rfl
  simp only [build, ofList, classify, hgraph]
  exact Keyed.lookup_ofList_graph _ _ _

theorem classify_build_eq_nested {entities : List Entity} {name : String} :
    (build entities).classify name = some .nested ↔
      name ∈ candidateNames entities ∧ name ∈ referencedIdentities entities := by
  rw [classify_build]
  by_cases hname : name ∈ candidateNames entities
  · by_cases href : name ∈ referencedIdentities entities <;> simp [hname, href]
  · simp [hname]

theorem isNested_build {entities : List Entity} {name : String} :
    (build entities).isNested name = true ↔
      name ∈ candidateNames entities ∧ name ∈ referencedIdentities entities := by
  rw [isNested, decide_eq_true_iff, classify_build_eq_nested]

theorem isNested_identity {entities : List Entity} {e : Entity} {f : Field} (he : e ∈ entities)
    (hf : f ∈ e.fields) (hd : f.type.isDeclared = true) :
    (build entities).isNested f.type.identity = true ↔
      f.type.identity ∈ candidateNames entities := by
  have href : f.type.identity ∈ referencedIdentities entities :=
    mem_referencedIdentities.mpr ⟨e, he, f, hf, hd, rfl⟩
  rw [isNested_build]
  exact ⟨And.left, fun hname => ⟨hname, href⟩⟩

theorem mem_referencedIdentities_iff {entities : List Entity} {name : String} :
    name ∈ referencedIdentities entities ↔ IsReferenced entities name := by
  simp only [mem_referencedIdentities, TypeRef.isDeclared_iff, IsReferenced]

theorem namesWith_sublist (s : Schema) (c : Classification) :
    (s.namesWith c).Sublist (s.verdicts.map Prod.fst) := by
  obtain ⟨verdicts⟩ := s
  simp only [namesWith]
  induction verdicts with
  | nil => exact .slnil
  | cons v verdicts ih =>
      rw [List.filterMap_cons, List.map_cons]
      by_cases hv : v.2 = c
      · rw [if_pos hv]
        exact ih.cons_cons _
      · rw [if_neg hv]
        exact ih.cons _

theorem length_tables_add_length_subtables (s : Schema) :
    s.tables.length + s.subtables.length = s.size := by
  obtain ⟨verdicts⟩ := s
  simp only [tables, subtables, namesWith, size]
  induction verdicts with
  | nil => rfl
  | cons v verdicts ih =>
      obtain ⟨name, verdict⟩ := v
      cases verdict <;> simp [← ih] <;> omega

theorem mem_namesWith {s : Schema} (h : (s.verdicts.map Prod.fst).Nodup) {c : Classification}
    {name : String} : name ∈ s.namesWith c ↔ s.classify name = some c := by
  rw [classify, Keyed.lookup_eq_some_iff_mem h, namesWith, List.mem_filterMap]
  constructor
  · rintro ⟨⟨name', c'⟩, hmem, hname⟩
    by_cases hc : c' = c
    · rw [if_pos hc] at hname
      rwa [← hc, ← Option.some.inj hname]
    · rw [if_neg hc] at hname
      cases hname
  · intro hmem
    exact ⟨_, hmem, by simp⟩

theorem inOrderOf_build (entities : List Entity) :
    InOrderOf (candidateNames entities) ((build entities).verdicts.map Prod.fst) := by
  have horder := (Keyed.keys_ofList (entities.map (fun e =>
    (e.qualifiedName, verdictOn (referencedIdentities entities) e)))).2
  rw [List.map_map] at horder
  exact horder

structure Classifies (s : Schema) (entities : List Entity) : Prop where
  nested : ∀ name, s.classify name = some .nested ↔
    name ∈ candidateNames entities ∧ IsReferenced entities name
  topLevel : ∀ name, s.classify name = some .topLevel ↔
    name ∈ candidateNames entities ∧ ¬ IsReferenced entities name
  unknown : ∀ name, s.classify name = none ↔ name ∉ candidateNames entities
  disjoint : s.tables.Disjoint s.subtables
  tables_nodup : s.tables.Nodup
  subtables_nodup : s.subtables.Nodup
  tables_inOrder : InOrderOf (candidateNames entities) s.tables
  subtables_inOrder : InOrderOf (candidateNames entities) s.subtables
  once : ∀ name, (s.tables ++ s.subtables).count name =
    if name ∈ candidateNames entities then 1 else 0
  size : s.tables.length + s.subtables.length = s.size

/-- A schema tells the candidates by references alone, and lists each name of theirs once. -/
theorem classifies_build (entities : List Entity) : (build entities).Classifies entities := by
  have horder := inOrderOf_build entities
  have hmem : ∀ c name, name ∈ (build entities).namesWith c ↔
      (build entities).classify name = some c := fun _ _ => mem_namesWith horder.nodup
  have hnames : ∀ name, name ∈ (build entities).tables ++ (build entities).subtables ↔
      name ∈ candidateNames entities := by
    intro name
    rw [List.mem_append, tables, subtables, hmem, hmem, classify_build]
    by_cases hname : name ∈ candidateNames entities
    · by_cases href : name ∈ referencedIdentities entities <;> simp [hname, href]
    · simp [hname]
  have hdisjoint : (build entities).tables.Disjoint (build entities).subtables := by
    intro name htable hsubtable
    rw [tables, hmem] at htable
    rw [subtables, hmem, htable] at hsubtable
    cases hsubtable
  have htables : InOrderOf (candidateNames entities) (build entities).tables :=
    horder.sublist (namesWith_sublist _ .topLevel)
  have hsubtables : InOrderOf (candidateNames entities) (build entities).subtables :=
    horder.sublist (namesWith_sublist _ .nested)
  have hnodup : ((build entities).tables ++ (build entities).subtables).Nodup :=
    List.Nodup.append htables.nodup hsubtables.nodup hdisjoint
  refine ⟨?_, ?_, ?_, hdisjoint, htables.nodup, hsubtables.nodup, htables, hsubtables, ?_,
    length_tables_add_length_subtables _⟩
  · intro name
    rw [classify_build_eq_nested, mem_referencedIdentities_iff]
  · intro name
    rw [classify_build, ← mem_referencedIdentities_iff]
    by_cases hname : name ∈ candidateNames entities
    · by_cases href : name ∈ referencedIdentities entities <;> simp [hname, href]
    · simp [hname]
  · intro name
    rw [classify_build]
    simp
  · intro name
    rw [hnodup.count]
    simp only [hnames]

end Schema

end TypedTables
