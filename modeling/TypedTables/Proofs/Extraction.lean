import Mathlib.Data.List.Basic
import TypedTables.Source.Marked

namespace TypedTables.Source

/-- A class that some statements define, or the body of such a class, and so on: its path of names,
its decorators and its body. -/
inductive ClassIn : List Statement → List String → List Decorator → List Statement → Prop where
  | here {ss : List Statement} {ds : List Decorator} {name : String} {body : List Statement}
      (h : .classDef ds name body ∈ ss) : ClassIn ss [name] ds body
  | inside {ss : List Statement} {ds ds' : List Decorator} {name : String}
      {body body' : List Statement} {path : List String} (h : .classDef ds name body ∈ ss)
      (inner : ClassIn body path ds' body') : ClassIn ss (name :: path) ds' body'

theorem ClassIn.path_ne_nil {ss : List Statement} {path : List String} {ds : List Decorator}
    {body : List Statement} (h : ClassIn ss path ds body) : path ≠ [] := by
  cases h with
  | here _ => exact List.cons_ne_nil _ _
  | inside _ _ => exact List.cons_ne_nil _ _

theorem ClassIn.exists_mem {ss : List Statement} {path : List String} {ds : List Decorator}
    {body : List Statement} (h : ClassIn ss path ds body) :
    ∃ ds' name body', .classDef ds' name body' ∈ ss := by
  cases h with
  | here h => exact ⟨_, _, _, h⟩
  | inside h _ => exact ⟨_, _, _, h⟩

theorem ClassIn.not_nil {path : List String} {ds : List Decorator} {body : List Statement} :
    ¬ ClassIn [] path ds body := by
  intro h
  obtain ⟨ds', name, body', hmem⟩ := h.exists_mem
  simp at hmem

theorem ClassIn.cons_iff {s : Statement} {ss : List Statement} {path : List String}
    {ds : List Decorator} {body : List Statement} :
    ClassIn (s :: ss) path ds body ↔ ClassIn [s] path ds body ∨ ClassIn ss path ds body := by
  constructor
  · intro h
    cases h with
    | here h =>
        rcases List.mem_cons.mp h with rfl | h
        · exact .inl (.here List.mem_cons_self)
        · exact .inr (.here h)
    | inside h inner =>
        rcases List.mem_cons.mp h with rfl | h
        · exact .inl (.inside List.mem_cons_self inner)
        · exact .inr (.inside h inner)
  · rintro (h | h)
    · cases h with
      | here h => exact .here (List.mem_cons.mpr (.inl (by simpa using h)))
      | inside h inner => exact .inside (List.mem_cons.mpr (.inl (by simpa using h))) inner
    · cases h with
      | here h => exact .here (List.mem_cons_of_mem s h)
      | inside h inner => exact .inside (List.mem_cons_of_mem s h) inner

theorem ClassIn.classDef_iff {ds ds' : List Decorator} {name : String}
    {body body' : List Statement} {path : List String} :
    ClassIn [.classDef ds name body] path ds' body' ↔
      (path = [name] ∧ ds' = ds ∧ body' = body) ∨
        ∃ rest, path = name :: rest ∧ ClassIn body rest ds' body' := by
  constructor
  · intro h
    cases h with
    | here h =>
        obtain ⟨rfl, rfl, rfl⟩ : _ ∧ _ ∧ _ := by simpa using h
        exact .inl ⟨rfl, rfl, rfl⟩
    | inside h inner =>
        obtain ⟨rfl, rfl, rfl⟩ : _ ∧ _ ∧ _ := by simpa using h
        exact .inr ⟨_, rfl, inner⟩
  · rintro (⟨rfl, rfl, rfl⟩ | ⟨rest, rfl, inner⟩)
    · exact .here List.mem_cons_self
    · exact .inside List.mem_cons_self inner

def IsMarked (ctx : ModuleContext) (namespaceName : String) (file : Option String)
    (parents : List String) (ss : List Statement) (m : Marked) : Prop :=
  ∃ path ds body, ClassIn ss path ds body ∧ m.marker ∈ markersOf ctx namespaceName ds ∧
    m.entity = entityAt ctx file (parents ++ path) body

theorem not_isMarked_of_not_class {ctx : ModuleContext} {namespaceName : String}
    {file : Option String} {parents : List String} {s : Statement} {m : Marked}
    (h : ∀ ds name body, s ≠ .classDef ds name body) :
    ¬ IsMarked ctx namespaceName file parents [s] m := by
  rintro ⟨path, ds, body, hclass, -⟩
  obtain ⟨ds', name, body', hmem⟩ := hclass.exists_mem
  exact h ds' name body' (List.mem_singleton.mp hmem).symm

mutual

theorem mem_markedIn (ctx : ModuleContext) (namespaceName : String) (file : Option String)
    (parents : List String) (m : Marked) : (s : Statement) →
    (m ∈ markedIn ctx namespaceName file parents s ↔
      IsMarked ctx namespaceName file parents [s] m)
  | .classDef ds name body => by
      have hbody := mem_markedAmong ctx namespaceName file (parents ++ [name]) m body
      rw [markedIn, List.mem_append, hbody, List.mem_map]
      constructor
      · rintro (⟨marker, hmarker, rfl⟩ | ⟨path, ds', body', hclass, hmarker, hentity⟩)
        · exact ⟨[name], ds, body, .here List.mem_cons_self, hmarker, rfl⟩
        · refine ⟨name :: path, ds', body', .inside List.mem_cons_self hclass, hmarker, ?_⟩
          rw [hentity, List.append_assoc, List.singleton_append]
      · rintro ⟨path, ds', body', hclass, hmarker, hentity⟩
        rcases ClassIn.classDef_iff.mp hclass with ⟨rfl, rfl, rfl⟩ | ⟨rest, rfl, inner⟩
        · left
          exact ⟨m.marker, hmarker, by rw [← hentity]⟩
        · right
          refine ⟨rest, ds', body', inner, hmarker, ?_⟩
          rw [hentity, List.append_assoc, List.singleton_append]
  | .functionDef => iff_of_false (by simp [markedIn]) (not_isMarked_of_not_class (by simp))
  | .importModules _ => iff_of_false (by simp [markedIn]) (not_isMarked_of_not_class (by simp))
  | .importFrom _ _ => iff_of_false (by simp [markedIn]) (not_isMarked_of_not_class (by simp))
  | .annotated _ _ _ => iff_of_false (by simp [markedIn]) (not_isMarked_of_not_class (by simp))
  | .block _ => iff_of_false (by simp [markedIn]) (not_isMarked_of_not_class (by simp))
  | .other => iff_of_false (by simp [markedIn]) (not_isMarked_of_not_class (by simp))

theorem mem_markedAmong (ctx : ModuleContext) (namespaceName : String) (file : Option String)
    (parents : List String) (m : Marked) : (ss : List Statement) →
    (m ∈ markedAmong ctx namespaceName file parents ss ↔
      IsMarked ctx namespaceName file parents ss m)
  | [] => by
      refine iff_of_false (by simp [markedAmong]) ?_
      rintro ⟨path, ds, body, hclass, -⟩
      exact absurd hclass ClassIn.not_nil
  | s :: ss => by
      have hhead := mem_markedIn ctx namespaceName file parents m s
      have htail := mem_markedAmong ctx namespaceName file parents m ss
      rw [markedAmong, List.mem_append, hhead, htail]
      constructor
      · rintro (⟨path, ds, body, hclass, hrest⟩ | ⟨path, ds, body, hclass, hrest⟩)
        · exact ⟨path, ds, body, ClassIn.cons_iff.mpr (.inl hclass), hrest⟩
        · exact ⟨path, ds, body, ClassIn.cons_iff.mpr (.inr hclass), hrest⟩
      · rintro ⟨path, ds, body, hclass, hrest⟩
        rcases ClassIn.cons_iff.mp hclass with hclass | hclass
        · exact .inl ⟨path, ds, body, hclass, hrest⟩
        · exact .inr ⟨path, ds, body, hclass, hrest⟩

end

/-- The marked classes of a module are its classes that carry a marker. -/
theorem mem_marked {statements : List Statement} {module : String} {package : Option String}
    {namespaceName : String} {file : Option String} {m : Marked} :
    m ∈ marked statements module package namespaceName file ↔
      IsMarked (.ofStatements module package statements) namespaceName file [] statements m :=
  mem_markedAmong _ namespaceName file [] m statements

end TypedTables.Source
