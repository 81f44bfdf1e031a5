import TypedTables.Proofs.ClassPath
import TypedTables.Proofs.LiveClass

/-!
Class paths read back from qualified names, for entities of source files and of live classes. A
file directly in a source root that stands for a package has a module without a name; an entity
of such a module is taken for a class at module level.
-/

namespace TypedTables

open Text Source Live

namespace Source

theorem splitSuffix_ne_empty {name : String} (h : name ≠ "") : (Path.splitSuffix name).1 ≠ "" := by
  rw [Path.splitSuffix]
  split
  · exact h
  · exact h
  · dsimp only
    split
    · exact h
    · simp

theorem dotted_eq_empty_iff {parts : List String} (h : ∀ part ∈ parts, part ≠ "") :
    dotted parts = "" ↔ parts = [] := by
  cases parts with
  | nil => exact iff_of_true rfl rfl
  | cons part parts =>
      refine iff_of_false ?_ (List.cons_ne_nil part parts)
      by_cases hparts : parts = []
      · rw [hparts, dotted_singleton]
        exact h part List.mem_cons_self
      · rw [dotted_cons part hparts]
        simp

theorem ofPath_eq_ok {path root : Path} {n : ModuleName} (h : ModuleName.ofPath path root = .ok n) :
    ∃ dirs file, path.below? root = some (dirs ++ [file]) ∧
      n = .ofComponents (dirs ++ [(Path.splitSuffix file).1]) := by
  rw [ModuleName.ofPath, Path.relativeTo] at h
  cases hbelow : path.below? root with
  | none =>
      rw [hbelow] at h
      cases h
  | some parts =>
      rw [hbelow] at h
      obtain rfl | ⟨dirs, file, rfl⟩ := List.eq_nil_or_concat parts
      · cases h
      · refine ⟨dirs, file, by rw [List.concat_eq_append], ?_⟩
        simpa [Path.withoutSuffix, Path.name, bind, Except.bind] using h.symm

/-- Among the files below a root only one directly in it, named as a package, has a module
without a name. -/
theorem module_eq_empty_iff {path root : Path} {n : ModuleName}
    (hn : ModuleName.ofPath path root = .ok n) (hpath : ∀ name ∈ path.components, name ≠ "") :
    n.module = "" ↔
      ∃ file, path.below? root = some [file] ∧ (Path.splitSuffix file).1 = packageStem := by
  obtain ⟨dirs, file, hbelow, rfl⟩ := ofPath_eq_ok hn
  have hnames : ∀ name ∈ dirs ++ [file], name ≠ "" := by
    intro name hname
    apply hpath
    rw [(Path.below?_eq_some.mp hbelow).2]
    exact List.mem_append_right _ hname
  have hdirs : dotted dirs = "" ↔ dirs = [] :=
    dotted_eq_empty_iff (fun name hname => hnames name (List.mem_append_left _ hname))
  have hstem : (Path.splitSuffix file).1 ≠ "" := splitSuffix_ne_empty (hnames file (by simp))
  rw [hbelow, ModuleName.ofComponents, List.getLast?_concat, List.dropLast_concat]
  by_cases hpackage : (Path.splitSuffix file).1 = packageStem
  · rw [if_pos (congrArg some hpackage), hdirs]
    constructor
    · rintro rfl
      exact ⟨file, rfl, hpackage⟩
    · rintro ⟨other, hother, -⟩
      simpa using congrArg List.length (Option.some.inj hother)
  · rw [if_neg (mt Option.some.inj hpackage)]
    have hparts : dotted (dirs ++ [(Path.splitSuffix file).1]) ≠ "" := by
      rw [ne_eq, dotted_eq_empty_iff]
      · simp
      · intro name hname
        rcases List.mem_append.mp hname with hdir | hlast
        · exact hnames name (List.mem_append_left _ hdir)
        · exact List.mem_singleton.mp hlast ▸ hstem
    refine iff_of_false hparts ?_
    rintro ⟨other, hother, hstemOther⟩
    have hfile : file = other := by
      simpa using congrArg List.getLast? (Option.some.inj hother)
    exact hpackage (hfile ▸ hstemOther)

theorem classPath_unnamed {ctx : ModuleContext} (hmodule : ctx.module = "") (file : Option String)
    (path : List String) (body : List Statement) :
    (entityAt ctx file path body).classPath = [path.getLast?.getD ""] := by
  have hnone : (entityAt ctx file path body).module? = some "" := by
    rw [module?_entityAt, hmodule]
  rw [Entity.classPath_of_unnamed hnone]
  rfl

theorem classPath_eq_iff {ctx : ModuleContext} {path : List String} (file : Option String)
    (body : List Statement) (hne : path ≠ []) (h : ∀ name ∈ path, IsComponent name) :
    (entityAt ctx file path body).classPath = path ↔ ctx.module ≠ "" ∨ path.length = 1 := by
  by_cases hmodule : ctx.module = ""
  · rw [classPath_unnamed hmodule]
    constructor
    · intro hpath
      exact .inr (hpath ▸ rfl)
    · intro hlength
      have hone := hlength.resolve_left (by simpa using hmodule)
      obtain ⟨name, rfl⟩ := List.length_eq_one_iff.mp hone
      rfl
  · exact iff_of_true (classPath_entityAt file body hmodule hne h) (.inl hmodule)

end Source

namespace Live

theorem noDot_of_mem_classParts {path part : String} (h : part ∈ Session.classParts path) :
    '.' ∉ part.toList := by
  obtain ⟨cs, hcs, rfl⟩ := List.mem_map.mp (List.mem_of_mem_filter h)
  rw [String.toList_ofList]
  exact not_mem_of_mem_splitOn hcs

theorem module?_entityIn (s : Session) (module : String) (c : LoadedClass) :
    (s.entityIn module c).module? = some module := by
  have hscope : (s.entityIn module c).scope =
      (Session.enclosing module (Session.classParts c.name.path)).map (⟨.classScope, ·⟩) ++
        ⟨.moduleScope, module⟩ :: if (s.package module).isEmpty then []
          else [⟨.packageScope, s.package module⟩] := by
    simp [Session.entityIn, Session.scope]
  refine Entity.module?_of_scope ?_ hscope
  simp

theorem classPath_entityIn (s : Session) {module : String} (c : LoadedClass)
    (hmodule : module ≠ "") :
    (s.entityIn module c).classPath = Session.classParts c.name.path ↔
      Session.classParts c.name.path ≠ [] := by
  have hbelow : (s.entityIn module c).classPath =
      components (dotted (Session.classParts c.name.path)) :=
    Entity.classPath_below (module?_entityIn s module c) hmodule rfl
  rw [hbelow]
  constructor
  · intro hparts hnil
    rw [hnil] at hparts
    exact absurd hparts (by decide)
  · intro hne
    exact components_dotted_of_noDot hne (fun part hpart => noDot_of_mem_classParts hpart)

end Live

/-- The class path of an entity is read back from its qualified name. For a class of a source file
it is the path of the class, unless the class lies in another class and the file stands for a
package directly in the root. For a class loaded from a named module it is its dotted name without
the marks of enclosing functions, unless nothing else is in that name. -/
theorem class_path_read_back (path root : Path) (classes : List String)
    (statements body : List Statement) (file : Option String) (s : Session) (c : LoadedClass) :
    (∀ n : ModuleName, ModuleName.ofPath path root = .ok n →
      (∀ name ∈ path.components, name ≠ "") →
      classes ≠ [] → (∀ name ∈ classes, IsComponent name) →
        ((entityAt (.ofStatements n.module n.package statements) file classes body).classPath =
            classes ↔
          classes.length = 1 ∨
            ¬ ∃ name, path.below? root = some [name] ∧
              (Path.splitSuffix name).1 = packageStem)) ∧
    ∀ module : String, c.name.module? = some module → module ≠ "" →
      ∃ e, s.entity c = .ok e ∧
        (e.classPath = Session.classParts c.name.path ↔ Session.classParts c.name.path ≠ []) := by
  constructor
  · intro n hn hpath hne hclasses
    rw [classPath_eq_iff file body hne hclasses, ← module_eq_empty_iff hn hpath, or_comm]
    rfl
  · intro module hc hmodule
    refine ⟨s.entityIn module c, by rw [Session.entity, hc], ?_⟩
    exact classPath_entityIn s c hmodule

theorem class_path_read_back_tail :
    (entityAt (.ofStatements "zoo.cats" (some "zoo.cats") []) none ["Cat", "Tail"] []).classPath =
        ["Cat", "Tail"] ∧
      ∃ e, cattery.entity tail = .ok e ∧ e.classPath = ["Cat", "Tail"] := by
  have hn : ModuleName.ofPath ⟨.root, ["src", "zoo", "cats", "__init__.py"]⟩ ⟨.root, ["src"]⟩ =
      .ok ⟨"zoo.cats", some "zoo.cats"⟩ := by
    decide +kernel
  have hdeep : ¬ ∃ name, Path.below? ⟨.root, ["src", "zoo", "cats", "__init__.py"]⟩
      ⟨.root, ["src"]⟩ = some [name] ∧ (Path.splitSuffix name).1 = packageStem := by
    have hbelow : Path.below? ⟨.root, ["src", "zoo", "cats", "__init__.py"]⟩ ⟨.root, ["src"]⟩ =
        some ["zoo", "cats", "__init__.py"] := rfl
    rintro ⟨name, hname, -⟩
    simp [hbelow] at hname
  have hparts : Session.classParts tail.name.path = ["Cat", "Tail"] := by decide +kernel
  obtain ⟨hscanned, hloaded⟩ :=
    class_path_read_back ⟨.root, ["src", "zoo", "cats", "__init__.py"]⟩ ⟨.root, ["src"]⟩
      ["Cat", "Tail"] [] [] none cattery tail
  obtain ⟨e, he, hpath⟩ := hloaded "zoo.cats" rfl (by decide)
  refine ⟨(hscanned _ hn (by decide) (by decide) (by decide)).mpr (.inr hdeep), e, he, ?_⟩
  rw [hparts] at hpath
  exact hpath.mpr (by decide)

/-- In a package directly in the root the path of a class in a class loses the outer class. -/
theorem class_path_unnamed_package :
    ∃ n, ModuleName.ofPath ⟨.root, ["src", "__init__.py"]⟩ ⟨.root, ["src"]⟩ = .ok n ∧
      (∀ name ∈ ["Outer", "Inner"], IsComponent name) ∧
      (entityAt (.ofStatements n.module n.package []) none ["Outer", "Inner"] []).classPath =
        ["Inner"] :=
  ⟨⟨"", none⟩, by decide +kernel, by decide, by decide +kernel⟩

end TypedTables
