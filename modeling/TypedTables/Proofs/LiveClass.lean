import TypedTables.Live.Session
import TypedTables.Package
import TypedTables.Proofs.SourcePlace
import TypedTables.Source.Marked

/-!
Classes described from two sides. The entity that is extracted from a source file and the entity
of the class that was loaded from it bear the same names and lie in the same scopes, so the modules
generated for them belong to the same package.
-/

namespace TypedTables

open Text Source Live

/-- Two descriptions of a class that may differ in its fields and in its source file only. -/
structure SameClass (a b : Entity) : Prop where
  qualifiedName : a.qualifiedName = b.qualifiedName
  simpleName : a.simpleName = b.simpleName
  scope : a.scope = b.scope
  module : a.module? = b.module?
  classPath : a.classPath = b.classPath
  targetPackage : ∀ rule : PackageRule, a.targetPackage rule = b.targetPackage rule

theorem SameClass.of_names {a b : Entity} (hname : a.qualifiedName = b.qualifiedName)
    (hsimple : a.simpleName = b.simpleName) (hscope : a.scope = b.scope) : SameClass a b where
  qualifiedName := hname
  simpleName := hsimple
  scope := hscope
  module := by rw [Entity.module?, Entity.module?, Entity.enclosing?, Entity.enclosing?, hscope]
  classPath := by
    simp only [Entity.classPath, Entity.module?, Entity.enclosing?, hname, hsimple, hscope]
  targetPackage rule := by
    simp only [Entity.targetPackage, Entity.package?, Entity.enclosing?,
      PackageRule.fallbackNotice, hsimple, hscope]

namespace Live

structure LoadedAt (s : Session) (module : String) (isPackage : Prop) (path : List String)
    (c : LoadedClass) : Prop where
  name : c.name = ⟨some module, dotted path⟩
  simpleName : path.getLast? = some c.simpleName
  registered : ∃ m, s.module? module = some m ∧ (m.isPackage = true ↔ isPackage)

variable {s : Session} {path : List String}

theorem classParts_dotted (hne : path ≠ []) (h : ∀ name ∈ path, IsComponent name)
    (hlocal : "<locals>" ∉ path) : Session.classParts (dotted path) = path := by
  rw [Session.classParts, components_dotted hne h, List.filter_eq_self]
  intro name hname
  exact decide_eq_true (fun heq => hlocal (heq ▸ hname))

theorem package_of_loaded {p : SourcePlace} (hp : ∀ name ∈ p.names, IsComponent name)
    {m : LoadedModule} (hm : s.module? p.moduleName.module = some m)
    (hpackage : m.isPackage = true ↔ p.stem = packageStem) :
    s.package p.moduleName.module = dotted p.dirs := by
  have hstem : '.' ∉ p.stem.toList := (hp p.stem (by simp [SourcePlace.names])).noDot
  rw [Session.package, hm, SourcePlace.moduleName, SourcePlace.moduleParts]
  by_cases hinit : p.stem = packageStem
  · rw [if_pos hinit, Option.any_some, if_pos (hpackage.mpr hinit)]
  · rw [if_neg hinit, Option.any_some, if_neg (mt hpackage.mp hinit), SourcePlace.names,
      parentName_dotted hstem]

theorem scopesOf_none (module : String) (path : List String) :
    scopesOf module none path =
      (Session.enclosing module path).map (⟨.classScope, ·⟩) ++ [⟨.moduleScope, module⟩] := by
  simp [scopesOf, Session.enclosing, Function.comp_def]

theorem scopesOf_some (module : String) {package : String} (path : List String)
    (h : package ≠ "") :
    scopesOf module (some package) path =
      (Session.enclosing module path).map (⟨.classScope, ·⟩) ++ [⟨.moduleScope, module⟩] ++
        [⟨.packageScope, package⟩] := by
  simp [scopesOf, Session.enclosing, Function.comp_def, h]

theorem scope_of_loaded {p : SourcePlace} (hp : ∀ name ∈ p.names, IsComponent name)
    {m : LoadedModule} (hm : s.module? p.moduleName.module = some m)
    (hpackage : m.isPackage = true ↔ p.stem = packageStem) :
    scopesOf p.moduleName.module p.moduleName.package path =
      s.scope p.moduleName.module path := by
  rw [Session.scope, package_of_loaded hp hm hpackage]
  by_cases hempty : p.dirs = []
  · have hnone : p.moduleName.package = none := if_pos hempty
    have hblank : dotted p.dirs = "" := by rw [hempty]; rfl
    simp [hnone, scopesOf_none, hblank]
  · have hdirs := dotted_ne_empty hempty (SourcePlace.dirs_of_names hp)
    have hsome : p.moduleName.package = some (dotted p.dirs) := if_neg hempty
    rw [hsome, scopesOf_some _ _ hdirs, if_neg (by simpa using hdirs)]

/-- A class is described alike by the file that declares it and by the class loaded from it. -/
theorem sources_describe_alike (root : Path) {p : SourcePlace}
    (hp : ∀ name ∈ p.names, IsComponent name) (hne : path ≠ [])
    (hpath : ∀ name ∈ path, IsComponent name) (hlocal : "<locals>" ∉ path) :
    ∃ n, ModuleName.ofPath (p.path root) root = .ok n ∧
      ∀ (s : Session) (c : LoadedClass), LoadedAt s n.module (p.stem = packageStem) path c →
        ∃ live, s.entity c = .ok live ∧
          ∀ (statements body : List Statement) (file : Option String),
            SameClass (entityAt (.ofStatements n.module n.package statements) file path body)
              live := by
  refine ⟨p.moduleName, ofPath_place hp root, ?_⟩
  intro s c h
  obtain ⟨m, hm, hpackage⟩ := h.registered
  have hparts : Session.classParts c.name.path = path := by
    rw [h.name]
    exact classParts_dotted hne hpath hlocal
  refine ⟨s.entityIn p.moduleName.module c, by rw [Session.entity, h.name], ?_⟩
  intro statements body file
  apply SameClass.of_names
  · simp only [entityAt, Session.entityIn, hparts]
    exact dotted_cons _ hne
  · simp only [entityAt, Session.entityIn, h.simpleName, Option.getD_some]
  · simp only [entityAt, Session.entityIn, hparts]
    exact scope_of_loaded hp hm hpackage

def cattery : Session where
  modules := [⟨"zoo.cats", true, none, []⟩, ⟨"zoo.cats.toys", false, none, []⟩]
  registered := true
  classes := []
  fs := ⟨.empty, [], []⟩

def tail : LoadedClass := ⟨⟨some "zoo.cats", "Cat.Tail"⟩, "Tail", [], none, []⟩

theorem tail_described_alike :
    (∀ name ∈ (⟨["zoo", "cats"], "__init__"⟩ : SourcePlace).names, IsComponent name) ∧
      LoadedAt cattery "zoo.cats" ("__init__" = packageStem) ["Cat", "Tail"] tail ∧
      ∃ n live, ModuleName.ofPath (SourcePlace.path ⟨["zoo", "cats"], "__init__"⟩ ⟨.root, ["src"]⟩)
          ⟨.root, ["src"]⟩ = .ok n ∧ cattery.entity tail = .ok live ∧
        live.scope = [⟨.classScope, "zoo.cats.Cat"⟩, ⟨.moduleScope, "zoo.cats"⟩,
          ⟨.packageScope, "zoo.cats"⟩] ∧
        ∀ (statements body : List Statement) (file : Option String),
          SameClass (entityAt (.ofStatements n.module n.package statements) file ["Cat", "Tail"]
            body) live := by
  have hnames : ∀ name ∈ (⟨["zoo", "cats"], "__init__"⟩ : SourcePlace).names, IsComponent name := by
    decide
  have hloaded : LoadedAt cattery "zoo.cats" ("__init__" = packageStem) ["Cat", "Tail"] tail :=
    ⟨rfl, rfl, _, rfl, by decide⟩
  obtain ⟨n, hn, hall⟩ := sources_describe_alike ⟨.root, ["src"]⟩ hnames
    (List.cons_ne_nil "Cat" ["Tail"]) (by decide) (by decide)
  obtain rfl : _ = n := Except.ok.inj ((ofPath_place hnames _).symm.trans hn)
  obtain ⟨live, hlive, hsame⟩ := hall cattery tail hloaded
  obtain rfl : cattery.entityIn "zoo.cats" tail = live := Except.ok.inj hlive
  exact ⟨hnames, hloaded, _, _, hn, rfl, by decide +kernel, hsame⟩

end Live

end TypedTables
