import TypedTables.Proofs.DottedName
import TypedTables.Proofs.Extraction

/-!
Class paths of extracted entities: the path that is read off the qualified name of an entity leads
to the class that the entity was made from, as long as no class name holds a dot.
-/

namespace TypedTables

open Text

theorem Entity.restAfter?_append (before rest : List Char) :
    restAfter? before (before ++ rest) = some rest := by
  induction before with
  | nil => rfl
  | cons c before ih => rw [List.cons_append, restAfter?, if_pos rfl, ih]

namespace Entity

variable {e : Entity} {module : String}

/-- Only classes are nested inside a module, so the module is the first scope of its kind. -/
theorem module?_of_scope {classes packages : List Scope}
    (hclasses : ∀ s ∈ classes, s.kind = .classScope)
    (h : e.scope = classes ++ ⟨.moduleScope, module⟩ :: packages) : e.module? = some module := by
  have hnone : classes.find? (fun s => s.kind = .moduleScope) = none := by
    rw [List.find?_eq_none]
    intro s hs
    simp [hclasses s hs]
  rw [module?, enclosing?, h, List.find?_append, hnone]
  simp

theorem classPath_below {path : String} (hmodule : e.module? = some module) (hne : module ≠ "")
    (hname : e.qualifiedName = module ++ "." ++ path) : e.classPath = components path := by
  have hchars : e.qualifiedName.toList = module.toList ++ ['.'] ++ path.toList := by
    rw [hname]
    simp
  rw [classPath, hmodule]
  simp only
  rw [if_neg (by simpa using hne), hchars, restAfter?_append]
  simp only [String.ofList_toList]

theorem classPath_of_unnamed (hmodule : e.module? = some "") : e.classPath = [e.simpleName] := by
  rw [classPath, hmodule]
  simp

theorem classPath_ne_nil (e : Entity) : e.classPath ≠ [] := by
  fun_cases classPath e with
  | case3 _ _ _ rest => exact components_ne_nil (String.ofList rest)
  | _ => exact List.cons_ne_nil e.simpleName []

end Entity

namespace Source

/-- Every entity names a class, so its fields can be looked for in any source. -/
theorem fieldPositions_classPath (ss : List Statement) (e : Entity) :
    fieldPositions ss e.classPath = .ok (fieldPositions? ss e.classPath) := by
  rw [fieldPositions, if_neg (by simpa using e.classPath_ne_nil)]

theorem module?_entityAt (ctx : ModuleContext) (file : Option String) (path : List String)
    (body : List Statement) : (entityAt ctx file path body).module? = some ctx.module := by
  refine Entity.module?_of_scope ?_ rfl
  simp

theorem classPath_entityAt {ctx : ModuleContext} {path : List String} (file : Option String)
    (body : List Statement) (hmodule : ctx.module ≠ "") (hne : path ≠ [])
    (h : ∀ name ∈ path, IsComponent name) : (entityAt ctx file path body).classPath = path :=
  calc (entityAt ctx file path body).classPath
      = components (dotted path) :=
        Entity.classPath_below (module?_entityAt ctx file path body) hmodule
          (dotted_cons ctx.module hne)
    _ = path := components_dotted hne h

mutual

def bodiesIn : Statement → List (List Statement)
  | .classDef _ _ body => body :: bodiesAmong body
  | _ => []

def bodiesAmong : List Statement → List (List Statement)
  | [] => []
  | s :: ss => bodiesIn s ++ bodiesAmong ss

end

/-- The places where classes are looked for: the module level and the bodies of classes. -/
def classScopes (ss : List Statement) : List (List Statement) := ss :: bodiesAmong ss

/-- Statements whose class names are free of dots, as those of every source are. -/
def WellNamed (ss : List Statement) : Prop :=
  ∀ scope ∈ classScopes ss, ∀ name ∈ ModuleContext.classNames scope, IsComponent name

theorem classScopes_subset {ss body : List Statement} {ds : List Decorator} {name : String}
    (h : .classDef ds name body ∈ ss) : classScopes body ⊆ bodiesAmong ss := by
  induction ss with
  | nil => cases h
  | cons s ss ih =>
      rw [bodiesAmong]
      rcases List.mem_cons.mp h with rfl | h
      · exact List.subset_append_left _ _
      · exact List.subset_append_of_subset_right _ (ih h)

theorem ClassIn.mem_bodiesAmong {ss body : List Statement} {path : List String}
    {ds : List Decorator} (h : ClassIn ss path ds body) : body ∈ bodiesAmong ss := by
  induction h with
  | here h => exact classScopes_subset h List.mem_cons_self
  | inside h _ ih => exact classScopes_subset h (List.mem_cons_of_mem _ ih)

theorem mem_classNames {ss body : List Statement} {ds : List Decorator} {name : String}
    (h : .classDef ds name body ∈ ss) : name ∈ ModuleContext.classNames ss :=
  List.mem_filterMap.mpr ⟨_, h, rfl⟩

theorem ClassIn.head_mem {ss body : List Statement} {path : List String} {ds : List Decorator}
    (h : ClassIn ss path ds body) :
    ∃ first rest, path = first :: rest ∧ first ∈ ModuleContext.classNames ss := by
  cases h with
  | here h => exact ⟨_, _, rfl, mem_classNames h⟩
  | inside h _ => exact ⟨_, _, rfl, mem_classNames h⟩

theorem ClassIn.forall_names {ss body : List Statement} {path : List String}
    {ds : List Decorator} {P : String → Prop} (h : ClassIn ss path ds body)
    (hnames : ∀ scope ∈ classScopes ss, ∀ name ∈ ModuleContext.classNames scope, P name) :
    ∀ name ∈ path, P name := by
  induction h with
  | here h =>
      exact List.forall_mem_singleton.mpr (hnames _ List.mem_cons_self _ (mem_classNames h))
  | inside h _ ih =>
      refine List.forall_mem_cons.mpr ⟨hnames _ List.mem_cons_self _ (mem_classNames h), ih ?_⟩
      exact fun scope hscope => hnames scope (List.mem_cons_of_mem _ (classScopes_subset h hscope))

/-- The class that an extracted entity was made from stands at the class path of the entity. -/
theorem exists_class_of_marked {ss : List Statement} {module : String} {package : Option String}
    {namespaceName : String} {file : Option String} {m : Marked}
    (hm : m ∈ marked ss module package namespaceName file) (hmodule : module ≠ "")
    (hnames : WellNamed ss) :
    ∃ ds body, ClassIn ss m.entity.classPath ds body ∧
      m.entity = entityAt (.ofStatements module package ss) file m.entity.classPath body := by
  obtain ⟨path, ds, body, hclass, -, hentity⟩ := mem_marked.mp hm
  rw [List.nil_append] at hentity
  obtain ⟨first, rest, hpath, -⟩ := hclass.head_mem
  have hclassPath : m.entity.classPath = path := by
    rw [hentity]
    exact classPath_entityAt file body hmodule (hpath ▸ List.cons_ne_nil first rest)
      (hclass.forall_names hnames)
  rw [hclassPath]
  exact ⟨ds, body, hclass, hentity⟩

end Source

end TypedTables
