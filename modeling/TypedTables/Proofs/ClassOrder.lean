import Mathlib.Data.List.Basic
import TypedTables.Proofs.DottedName
import TypedTables.Source.Marked

namespace TypedTables.Source

open Text

/-- A class, the names on the way to it, and its place: which statement of the module it stands in,
then which one of that class body, and so on. -/
structure ClassSite where
  place : List Nat
  path : List String
  decorators : List Decorator
  body : List Statement

namespace ClassSite

def within (i : Nat) (name : String) (site : ClassSite) : ClassSite :=
  { site with place := i :: site.place, path := name :: site.path }

inductive StandsIn : List Statement → ClassSite → Prop where
  | here {ss body : List Statement} {i : Nat} {ds : List Decorator} {name : String}
      (h : ss[i]? = some (.classDef ds name body)) : StandsIn ss ⟨[i], [name], ds, body⟩
  | inside {ss body : List Statement} {i : Nat} {ds : List Decorator} {name : String}
      {site : ClassSite} (h : ss[i]? = some (.classDef ds name body))
      (inner : StandsIn body site) : StandsIn ss (site.within i name)

/-- A class opens before those inside of it and before all that stand further down. -/
def Precedes (a b : ClassSite) : Prop := List.Lex (· < ·) a.place b.place

end ClassSite

mutual

def sitesIn (i : Nat) : Statement → List ClassSite
  | .classDef ds name body =>
      ⟨[i], [name], ds, body⟩ :: (sitesAmong 0 body).map (ClassSite.within i name)
  | _ => []

def sitesAmong (i : Nat) : List Statement → List ClassSite
  | [] => []
  | s :: ss => sitesIn i s ++ sitesAmong (i + 1) ss

end

section

variable {site : ClassSite}

theorem mem_sitesAmong {k : Nat} {ss : List Statement} :
    site ∈ sitesAmong k ss ↔ ∃ i s, ss[i]? = some s ∧ site ∈ sitesIn (k + i) s := by
  induction ss generalizing k with
  | nil => simp [sitesAmong]
  | cons s ss ih =>
      rw [sitesAmong, List.mem_append, ih]
      constructor
      · rintro (hsite | ⟨i, t, ht, hsite⟩)
        · exact ⟨0, s, rfl, hsite⟩
        · exact ⟨i + 1, t, ht, by rwa [← Nat.add_assoc, Nat.add_right_comm]⟩
      · rintro ⟨i, t, ht, hsite⟩
        cases i with
        | zero =>
            obtain rfl : s = t := Option.some.inj ht
            exact .inl hsite
        | succ i => exact .inr ⟨i, t, ht, by rwa [Nat.add_right_comm, Nat.add_assoc]⟩

theorem exists_place_of_mem_sitesIn {i : Nat} {s : Statement} (h : site ∈ sitesIn i s) :
    ∃ rest, site.place = i :: rest := by
  cases s with
  | classDef ds name body =>
      rw [sitesIn] at h
      rcases List.mem_cons.mp h with rfl | h
      · exact ⟨[], rfl⟩
      · obtain ⟨inner, -, rfl⟩ := List.mem_map.mp h
        exact ⟨inner.place, rfl⟩
  | _ => simp [sitesIn] at h

theorem exists_place_of_mem_sitesAmong {k : Nat} {ss : List Statement}
    (h : site ∈ sitesAmong k ss) : ∃ i rest, k ≤ i ∧ site.place = i :: rest := by
  obtain ⟨i, s, -, hsite⟩ := mem_sitesAmong.mp h
  obtain ⟨rest, hplace⟩ := exists_place_of_mem_sitesIn hsite
  exact ⟨k + i, rest, Nat.le_add_right k i, hplace⟩

end

mutual

theorem standsIn_of_mem_sitesIn : (s : Statement) → ∀ {ss : List Statement} {i : Nat}
    {site : ClassSite}, ss[i]? = some s → site ∈ sitesIn i s → site.StandsIn ss
  | .classDef ds name body, ss, i, site, hs, hsite => by
      rw [sitesIn] at hsite
      rcases List.mem_cons.mp hsite with rfl | hsite
      · exact .here hs
      · obtain ⟨inner, hinner, rfl⟩ := List.mem_map.mp hsite
        obtain ⟨j, t, ht, hinner⟩ := mem_sitesAmong.mp hinner
        rw [Nat.zero_add] at hinner
        exact .inside hs (standsIn_of_mem_sitesAmong body t (List.mem_of_getElem? ht) ht hinner)
  | .functionDef, _, _, _, _, hsite => by simp [sitesIn] at hsite
  | .importModules _, _, _, _, _, hsite => by simp [sitesIn] at hsite
  | .importFrom _ _, _, _, _, _, hsite => by simp [sitesIn] at hsite
  | .annotated _ _ _, _, _, _, _, hsite => by simp [sitesIn] at hsite
  | .block _, _, _, _, _, hsite => by simp [sitesIn] at hsite
  | .other, _, _, _, _, hsite => by simp [sitesIn] at hsite

theorem standsIn_of_mem_sitesAmong : (members : List Statement) → ∀ s ∈ members,
    ∀ {ss : List Statement} {i : Nat} {site : ClassSite},
      ss[i]? = some s → site ∈ sitesIn i s → site.StandsIn ss
  | [], s, hmem, _, _, _, _, _ => by cases hmem
  | first :: rest, s, hmem, _, _, _, hs, hsite => by
      rcases List.mem_cons.mp hmem with heq | hmem
      · rw [heq] at hs hsite
        exact standsIn_of_mem_sitesIn first hs hsite
      · exact standsIn_of_mem_sitesAmong rest s hmem hs hsite

end

theorem mem_sites {ss : List Statement} {site : ClassSite} :
    site ∈ sitesAmong 0 ss ↔ site.StandsIn ss := by
  constructor
  · intro hsite
    obtain ⟨i, s, hs, hsite⟩ := mem_sitesAmong.mp hsite
    rw [Nat.zero_add] at hsite
    exact standsIn_of_mem_sitesIn s hs hsite
  · intro h
    induction h with
    | here h => exact mem_sitesAmong.mpr ⟨_, _, h, by simp [sitesIn]⟩
    | inside h _ ih =>
        refine mem_sitesAmong.mpr ⟨_, _, h, ?_⟩
        rw [sitesIn, Nat.zero_add]
        exact List.mem_cons_of_mem _ (List.mem_map_of_mem ih)

mutual

theorem pairwise_sitesIn (i : Nat) : (s : Statement) →
    (sitesIn i s).Pairwise ClassSite.Precedes
  | .classDef ds name body => by
      have hbody := pairwise_sitesAmong 0 body
      rw [sitesIn, List.pairwise_cons, List.pairwise_map]
      refine ⟨?_, hbody.imp fun h => .cons h⟩
      intro site hsite
      obtain ⟨inner, hinner, rfl⟩ := List.mem_map.mp hsite
      obtain ⟨j, rest, -, hplace⟩ := exists_place_of_mem_sitesAmong hinner
      rw [ClassSite.Precedes, ClassSite.within, hplace]
      exact .cons .nil
  | .functionDef => by simp [sitesIn]
  | .importModules _ => by simp [sitesIn]
  | .importFrom _ _ => by simp [sitesIn]
  | .annotated _ _ _ => by simp [sitesIn]
  | .block _ => by simp [sitesIn]
  | .other => by simp [sitesIn]

theorem pairwise_sitesAmong (i : Nat) : (ss : List Statement) →
    (sitesAmong i ss).Pairwise ClassSite.Precedes
  | [] => by simp [sitesAmong]
  | s :: ss => by
      rw [sitesAmong]
      refine List.pairwise_append.mpr ⟨pairwise_sitesIn i s, pairwise_sitesAmong (i + 1) ss, ?_⟩
      intro a ha b hb
      obtain ⟨rest, hplace⟩ := exists_place_of_mem_sitesIn ha
      obtain ⟨j, other, hij, hplace'⟩ := exists_place_of_mem_sitesAmong hb
      rw [ClassSite.Precedes, hplace, hplace']
      exact .rel hij

end

/-- The name of a decorator: its target without the blanks between its parts. -/
def Decorator.name (d : Decorator) : String :=
  String.ofList (d.target.toList.filter (· ≠ ' '))

def Decorator.IsMarker (ctx : ModuleContext) (namespaceName : String) (d : Decorator) : Prop :=
  (namespaceName ++ ".").toList <+: (ctx.resolve d.name).toList

instance (ctx : ModuleContext) (namespaceName : String) (d : Decorator) :
    Decidable (d.IsMarker ctx namespaceName) :=
  inferInstanceAs (Decidable (_ <+: _))

theorem markersOf_eq (ctx : ModuleContext) (namespaceName : String) (ds : List Decorator) :
    markersOf ctx namespaceName ds =
      (ds.filter (fun d => d.IsMarker ctx namespaceName)).map (fun d => ctx.resolve d.name) := by
  rw [← List.filterMap_eq_map, List.filterMap_filter, markersOf]
  refine List.filterMap_congr fun d _ => ?_
  have hprefix : (namespaceName ++ ".").toList.isPrefixOf (ctx.resolve d.name).toList =
      decide (d.IsMarker ctx namespaceName) :=
    Bool.eq_iff_iff.mpr (List.isPrefixOf_iff_prefix.trans decide_eq_true_iff.symm)
  rw [← hprefix]
  rfl

def ClassSite.marked (ctx : ModuleContext) (namespaceName : String) (file : Option String)
    (parents : List String) (site : ClassSite) : List Marked :=
  (site.decorators.filter (fun d => d.IsMarker ctx namespaceName)).map (fun d =>
    ⟨ctx.resolve d.name, entityAt ctx file (parents ++ site.path) site.body⟩)

mutual

theorem markedIn_eq (ctx : ModuleContext) (namespaceName : String) (file : Option String)
    (parents : List String) (i : Nat) : (s : Statement) →
    markedIn ctx namespaceName file parents s =
      (sitesIn i s).flatMap (ClassSite.marked ctx namespaceName file parents)
  | .classDef ds name body => by
      have hbody := markedAmong_eq ctx namespaceName file (parents ++ [name]) 0 body
      rw [markedIn, sitesIn, List.flatMap_cons, List.flatMap_map, hbody, markersOf_eq, List.map_map]
      refine congrArg₂ _ rfl (List.flatMap_congr fun site _ => ?_)
      simp [ClassSite.marked, ClassSite.within]
  | .functionDef => by simp [markedIn, sitesIn]
  | .importModules _ => by simp [markedIn, sitesIn]
  | .importFrom _ _ => by simp [markedIn, sitesIn]
  | .annotated _ _ _ => by simp [markedIn, sitesIn]
  | .block _ => by simp [markedIn, sitesIn]
  | .other => by simp [markedIn, sitesIn]

theorem markedAmong_eq (ctx : ModuleContext) (namespaceName : String) (file : Option String)
    (parents : List String) (i : Nat) : (ss : List Statement) →
    markedAmong ctx namespaceName file parents ss =
      (sitesAmong i ss).flatMap (ClassSite.marked ctx namespaceName file parents)
  | [] => by simp [markedAmong, sitesAmong]
  | s :: ss => by
      rw [markedAmong, sitesAmong, List.flatMap_append,
        markedIn_eq ctx namespaceName file parents i s,
        markedAmong_eq ctx namespaceName file parents (i + 1) ss]

end

theorem ClassSite.StandsIn.path_ne_nil {ss : List Statement} {site : ClassSite}
    (h : site.StandsIn ss) : site.path ≠ [] := by
  cases h with
  | here h => exact List.cons_ne_nil _ _
  | inside h inner => exact List.cons_ne_nil _ _

theorem qualifiedName_entityAt (ctx : ModuleContext) (file : Option String) {path : List String}
    (hpath : path ≠ []) (body : List Statement) :
    (entityAt ctx file path body).qualifiedName = ctx.module ++ "." ++ dotted path :=
  dotted_cons ctx.module hpath

def opensFunction : List Token → Bool
  | [] => false
  | first :: rest =>
      first.isWord "def" || (first.isWord "async" && rest.head?.any (fun t => t.isWord "def"))

mutual

/-- A line with the lines below it, but with nothing below functions. -/
def LineTree.outline : LineTree → LineTree
  | .node ts below => .node ts (if opensFunction ts then [] else outlines below)

def outlines : List LineTree → List LineTree
  | [] => []
  | tree :: trees => tree.outline :: outlines trees

end

theorem not_class_of_opensFunction {first : Token} {rest : List Token}
    (h : opensFunction (first :: rest) = true) : first.isWord "class" = false := by
  rw [opensFunction, Bool.or_eq_true, Bool.and_eq_true] at h
  simp only [Token.isWord, Bool.and_eq_true, decide_eq_true_eq, beq_iff_eq] at h
  rcases h with ⟨-, htext⟩ | ⟨⟨-, htext⟩, -⟩ <;> simp [Token.isWord, htext]

mutual

theorem LineTree.statements_outline (ds : List Decorator) (inMatch : Bool) : (tree : LineTree) →
    tree.outline.statements ds inMatch = tree.statements ds inMatch
  | .node [] below => by simp [LineTree.outline, LineTree.statements]
  | .node (first :: rest) below => by
      have hbelow := fun inMatch => statementsOf_outlines [] inMatch below
      rw [LineTree.outline, LineTree.statements, LineTree.statements]
      by_cases hfunction : opensFunction (first :: rest) = true
      · have hclass := not_class_of_opensFunction hfunction
        rw [opensFunction] at hfunction
        simp [hclass, hfunction]
      · have hempty : (outlines below).isEmpty = below.isEmpty := by
          cases below <;> rfl
        rw [if_neg hfunction, hempty]
        simp only [hbelow]

theorem statementsOf_outlines (ds : List Decorator) (inMatch : Bool) : (trees : List LineTree) →
    statementsOf ds inMatch (outlines trees) = statementsOf ds inMatch trees
  | [] => rfl
  | .node [] below :: trees => by
      rw [outlines, LineTree.outline, statementsOf, statementsOf,
        statementsOf_outlines [] inMatch trees]
  | .node (first :: rest) below :: trees => by
      have htree := LineTree.statements_outline ds inMatch (.node (first :: rest) below)
      rw [LineTree.outline] at htree
      rw [outlines, LineTree.outline, statementsOf, statementsOf, htree,
        statementsOf_outlines [] inMatch trees,
        statementsOf_outlines (ds ++ [Decorator.ofTokens rest]) inMatch trees]

end

/-- Extraction gives one item for each decorator that is a marker of a class that is reached through
class bodies, in the order of the classes and of their decorators. What stands below functions is
of no account. -/
theorem marked_inOrder (statements : List Statement) (module : String) (package : Option String)
    (namespaceName : String) (file : Option String) :
    let ctx : ModuleContext := .ofStatements module package statements
    (∃ sites : List ClassSite, (∀ site, site ∈ sites ↔ site.StandsIn statements) ∧
      sites.Pairwise ClassSite.Precedes ∧
      (∀ site ∈ sites, (entityAt ctx file site.path site.body).qualifiedName =
        module ++ "." ++ dotted site.path) ∧
      marked statements module package namespaceName file = sites.flatMap (fun site =>
        (site.decorators.filter (fun d => d.IsMarker ctx namespaceName)).map (fun d =>
          ⟨ctx.resolve d.name, entityAt ctx file site.path site.body⟩))) ∧
    ∀ trees trees' : List LineTree, outlines trees = outlines trees' →
      marked (statementsOf [] false trees) module package namespaceName file =
        marked (statementsOf [] false trees') module package namespaceName file := by
  intro ctx
  refine ⟨⟨sitesAmong 0 statements, fun _ => mem_sites, pairwise_sitesAmong 0 statements, ?_, ?_⟩,
    ?_⟩
  · intro site hsite
    exact qualifiedName_entityAt ctx file (mem_sites.mp hsite).path_ne_nil site.body
  · exact markedAmong_eq ctx namespaceName file [] 0 statements
  · intro trees trees' h
    rw [← statementsOf_outlines, h, statementsOf_outlines]

end TypedTables.Source
