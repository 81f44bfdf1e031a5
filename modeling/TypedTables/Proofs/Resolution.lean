import TypedTables.Proofs.ClassNames
import TypedTables.Proofs.Keyed
import TypedTables.Proofs.SourcePlace
import TypedTables.Proofs.TypeLayout

/-!
Names that lead from one source file to another. Whatever form of import gives a module access to a
class of another module, an annotation that spells the class through that import is resolved to the
qualified name that the class is extracted with.
-/

namespace TypedTables.Source

open Text TypeRef

inductive Import where
  | module (name : ImportedName)
  | member (source : String) (name : ImportedName)
  deriving DecidableEq

def Import.bound : Import → String
  | .module n => n.boundAs.getD (headComponent n.path).1
  | .member _ n => n.boundAs.getD (lastComponent n.path)

mutual

def importsIn : Statement → List Import
  | .importModules names => names.map .module
  | .importFrom source names => names.map (.member source)
  | .block body => importsAmong body
  | _ => []

def importsAmong : List Statement → List Import
  | [] => []
  | s :: ss => importsIn s ++ importsAmong ss

end

/-- An import whose name no later import binds again and no class of the module bears. -/
structure InForce (ss : List Statement) (i : Import) : Prop where
  last : ∃ before after, importsAmong ss = before ++ i :: after ∧ ∀ j ∈ after, j.bound ≠ i.bound
  notLocal : i.bound ∉ ModuleContext.classNames ss

/-- The texts by which an import speaks of the module of another file: its name, or dots that stand
for the directory of the importing file and those above it, and then the rest of the name. -/
inductive Denotes (here there : SourcePlace) : String → Prop
  | absolute : Denotes here there (dotted there.moduleParts)
  | relative {above left tail : List String} (hdirs : here.dirs = above ++ left) (hne : above ≠ [])
      (hparts : there.moduleParts = above ++ tail) :
      Denotes here there
        (String.ofList (List.replicate (left.length + 1) '.' ++ (dotted tail).toList))

/-- The imports that give access to the class at a path in another file, and the names by which the
class is spelled then. -/
inductive Opens (here there : SourcePlace) : List String → Import → List String → Prop
  | member {first source : String} {rest : List String} (h : Denotes here there source) :
      Opens here there (first :: rest) (.member source ⟨first, none⟩) (first :: rest)
  | memberAs {first source given : String} {rest : List String} (h : Denotes here there source)
      (hgiven : IsIdentifier given) :
      Opens here there (first :: rest) (.member source ⟨first, some given⟩) (given :: rest)
  | module {path : List String} :
      Opens here there path (.module ⟨dotted there.moduleParts, none⟩) (there.moduleParts ++ path)
  | moduleAs {path : List String} {given : String} (hgiven : IsIdentifier given) :
      Opens here there path (.module ⟨dotted there.moduleParts, some given⟩) (given :: path)

theorem dotted_of_member {parts : List String} (hne : parts ≠ []) (first : String)
    (rest : List String) :
    dotted ((dotted parts ++ "." ++ first) :: rest) = dotted (parts ++ first :: rest) := by
  have hfirst : dotted parts ++ "." ++ first = dotted (parts ++ [first]) := by
    rw [dotted_append hne (List.cons_ne_nil first []), dotted_singleton]
  rw [hfirst, dotted_dotted_cons (List.append_ne_nil_of_left_ne_nil hne [first]),
    List.append_assoc, List.singleton_append]

namespace ModuleContext

def bindingOf (package : Option String) : Import → String × String
  | .module n => moduleBinding n
  | .member source n => memberBinding (importSource package source) n

theorem fst_bindingOf (package : Option String) (i : Import) :
    (bindingOf package i).1 = i.bound := by
  cases i with
  | module n =>
      obtain ⟨path, boundAs⟩ := n
      cases boundAs <;> rfl
  | member source n => rfl

mutual

theorem statementBindings_eq (package : Option String) : (s : Statement) →
    statementBindings package s = (importsIn s).map (bindingOf package)
  | .importModules names => by
      rw [statementBindings, importsIn, List.map_map]
      rfl
  | .importFrom source names => by
      rw [statementBindings, importsIn, List.map_map]
      rfl
  | .block body => by rw [statementBindings, importsIn, bindings_eq package body]
  | .classDef _ _ _ => by simp [statementBindings, importsIn]
  | .functionDef => by simp [statementBindings, importsIn]
  | .annotated _ _ _ => by simp [statementBindings, importsIn]
  | .other => by simp [statementBindings, importsIn]

theorem bindings_eq (package : Option String) : (ss : List Statement) →
    bindings package ss = (importsAmong ss).map (bindingOf package)
  | [] => rfl
  | s :: ss => by
      rw [bindings, importsAmong, List.map_append, statementBindings_eq package s,
        bindings_eq package ss]

end

variable {ss : List Statement} {module : String} {package : Option String}

theorem lookup_of_inForce {i : Import} (h : InForce ss i) :
    (ofStatements module package ss).imports.lookup i.bound = some (bindingOf package i).2 := by
  obtain ⟨before, after, hsplit, hlast⟩ := h.last
  -- of the settings of a name the last one holds, and nothing after the import sets its name
  have hafter : (after.map (bindingOf package)).reverse.lookup i.bound = none := by
    rw [List.lookup_eq_none_iff]
    intro entry hentry
    obtain ⟨j, hj, rfl⟩ := List.mem_map.mp (List.mem_reverse.mp hentry)
    rw [fst_bindingOf]
    simpa using (hlast j hj).symm
  simp only [ofStatements]
  rw [Keyed.lookup_ofList, bindings_eq, hsplit, List.map_append, List.map_cons,
    List.reverse_append, List.reverse_cons, List.append_assoc, List.lookup_append, hafter,
    Option.none_or, List.singleton_append, List.lookup_cons, fst_bindingOf]
  simp

theorem resolve_spelled {ctx : ModuleContext} {first target : String} {rest : List String}
    (hfirst : IsIdentifier first) (hrest : ∀ part ∈ rest, IsIdentifier part)
    (htarget : (if first ∈ ctx.localClasses then some (ctx.module ++ "." ++ first)
      else ctx.imports.lookup first) = some target) :
    ctx.resolve (dotted (first :: rest)) = dotted (target :: rest) := by
  rw [resolve, headComponent_dotted hfirst.isComponent.noDot]
  simp only [htarget]
  by_cases hnil : rest = []
  · subst hnil
    rw [dotted_singleton]
    rfl
  · have hne := dotted_ne_empty hnil (fun part hpart => (hrest part hpart).isComponent)
    rw [if_neg (by simpa using hne), dotted_cons target hnil]

theorem resolve_of_inForce {i : Import} (h : InForce ss i) (hbound : IsIdentifier i.bound)
    {rest : List String} (hrest : ∀ part ∈ rest, IsIdentifier part) :
    (ofStatements module package ss).resolve (dotted (i.bound :: rest)) =
      dotted ((bindingOf package i).2 :: rest) := by
  have hlocal : i.bound ∉ (ofStatements module package ss).localClasses := h.notLocal
  apply resolve_spelled hbound hrest
  rw [if_neg hlocal, lookup_of_inForce h]

theorem resolve_local {first : String} (h : first ∈ classNames ss) (hfirst : IsIdentifier first)
    {rest : List String} (hrest : ∀ part ∈ rest, IsIdentifier part) :
    (ofStatements module package ss).resolve (dotted (first :: rest)) =
      dotted (module :: first :: rest) := by
  have hjoin := dotted_of_member (List.cons_ne_nil module []) first rest
  rw [dotted_singleton, List.singleton_append] at hjoin
  rw [← hjoin]
  apply resolve_spelled hfirst hrest
  exact if_pos h

end ModuleContext

open ModuleContext

variable {here there : SourcePlace}

theorem takeWhile_dots_dotted {parts : List String} (h : ∀ part ∈ parts, IsIdentifier part) :
    (dotted parts).toList.takeWhile (· = '.') = [] := by
  cases parts with
  | nil => rfl
  | cons part parts =>
      obtain ⟨c, cs, hname, hstart, -⟩ := (h part List.mem_cons_self).exists_cons
      have hdot : c ≠ '.' := by
        rintro rfl
        exact absurd hstart (by decide)
      rw [dotted, String.toList_ofList, List.map_cons, joinWith_cons, hname, List.cons_append,
        List.takeWhile_cons_of_neg (by simpa using hdot)]

theorem importSource_absolute (package : Option String) {parts : List String}
    (h : ∀ part ∈ parts, IsIdentifier part) :
    importSource package (dotted parts) = dotted parts := by
  rw [importSource, takeWhile_dots_dotted h]
  rfl

theorem importSource_dots (package : Option String) (ups : Nat) {tail : List String}
    (h : ∀ part ∈ tail, IsIdentifier part) :
    importSource package (String.ofList (List.replicate (ups + 1) '.' ++ (dotted tail).toList)) =
      resolveRelative package (ups + 1) (dotted tail) := by
  have hdots : (List.replicate (ups + 1) '.' ++ (dotted tail).toList).takeWhile (· = '.') =
      List.replicate (ups + 1) '.' := by
    rw [List.takeWhile_append_of_pos (by simp), takeWhile_dots_dotted h, List.append_nil]
  rw [importSource, String.toList_ofList, hdots, if_neg (by simp), List.length_replicate,
    List.drop_left' List.length_replicate, String.ofList_toList]

theorem cutLast_append (above left : List String) :
    cutLast left.length (above ++ left) = above := by
  rw [cutLast, if_pos (by simp), List.length_append, Nat.add_sub_cancel, List.take_left]

theorem resolveRelative_dotted {above left tail : List String} (hne : above ≠ [])
    (hdirs : ∀ part ∈ above ++ left, IsComponent part) (htail : ∀ part ∈ tail, IsComponent part) :
    resolveRelative (some (dotted (above ++ left))) (left.length + 1) (dotted tail) =
      dotted (above ++ tail) := by
  have habove : dotted above ≠ "" :=
    dotted_ne_empty hne (fun part hpart => hdirs part (List.mem_append_left left hpart))
  rw [resolveRelative, components_dotted (List.append_ne_nil_of_left_ne_nil hne left) hdirs,
    Nat.add_sub_cancel, cutLast_append, if_neg (by simpa using habove)]
  by_cases hnil : tail = []
  · subst hnil
    rw [List.append_nil]
    rfl
  · rw [if_neg (by simpa using dotted_ne_empty hnil htail), dotted_append hne hnil]

theorem importSource_of_denotes (hhere : ∀ name ∈ here.names, IsIdentifier name)
    (hthere : ∀ name ∈ there.names, IsIdentifier name) {source : String}
    (h : Denotes here there source) :
    importSource here.moduleName.package source = dotted there.moduleParts := by
  have hparts := SourcePlace.moduleParts_of_names hthere
  cases h with
  | absolute => exact importSource_absolute _ hparts
  | @relative above left tail hdirs hne htail =>
      have hpackage : here.moduleName.package = some (dotted (above ++ left)) := by
        rw [← hdirs]
        exact if_neg (hdirs ▸ List.append_ne_nil_of_left_ne_nil hne left)
      have hall : ∀ part ∈ above ++ left, IsComponent part := by
        rw [← hdirs]
        exact fun part hpart => (SourcePlace.dirs_of_names hhere part hpart).isComponent
      have hrest : ∀ part ∈ tail, IsIdentifier part :=
        fun part hpart => hparts part (htail ▸ List.mem_append_right above hpart)
      rw [hpackage, importSource_dots _ _ hrest, htail,
        resolveRelative_dotted hne hall (fun part hpart => (hrest part hpart).isComponent)]

theorem headComponent_dotted_cons {first : String} (h : IsIdentifier first) (rest : List String) :
    (headComponent (dotted (first :: rest))).1 = first := by
  rw [headComponent_dotted h.isComponent.noDot]

theorem Opens.exists_rest (hhere : ∀ name ∈ here.names, IsIdentifier name)
    (hthere : ∀ name ∈ there.names, IsIdentifier name) (hne : there.moduleParts ≠ [])
    {path parts : List String} (hpath : ∀ name ∈ path, IsIdentifier name) {i : Import}
    (h : Opens here there path i parts) :
    ∃ rest, parts = i.bound :: rest ∧ (∀ part ∈ parts, IsIdentifier part) ∧
      dotted ((bindingOf here.moduleName.package i).2 :: rest) =
        dotted (there.moduleParts ++ path) := by
  have hmodule := SourcePlace.moduleParts_of_names hthere
  cases h with
  | @member first source rest hsource =>
      have hlast : lastComponent first = first :=
        lastComponent_of_noDot (hpath first List.mem_cons_self).isComponent.noDot
      refine ⟨rest, congrArg (· :: rest) hlast.symm, hpath, ?_⟩
      rw [bindingOf, memberBinding, importSource_of_denotes hhere hthere hsource,
        dotted_of_member hne]
  | @memberAs first source given rest hsource hgiven =>
      refine ⟨rest, rfl, List.forall_mem_cons.mpr ⟨hgiven, (List.forall_mem_cons.mp hpath).2⟩, ?_⟩
      rw [bindingOf, memberBinding, importSource_of_denotes hhere hthere hsource,
        dotted_of_member hne]
  | module =>
      obtain ⟨first, rest, hparts⟩ := List.exists_cons_of_ne_nil hne
      have hhead := headComponent_dotted_cons (hmodule first (hparts ▸ List.mem_cons_self)) rest
      refine ⟨rest ++ path, ?_, List.forall_mem_append.mpr ⟨hmodule, hpath⟩, ?_⟩
      · rw [Import.bound, Option.getD_none, hparts, hhead, List.cons_append]
      · rw [bindingOf, moduleBinding, hparts, hhead, List.cons_append]
  | @moduleAs path given hgiven =>
      refine ⟨path, rfl, List.forall_mem_cons.mpr ⟨hgiven, hpath⟩, ?_⟩
      exact dotted_dotted_cons hne path

theorem resolve_of_opens (hhere : ∀ name ∈ here.names, IsIdentifier name)
    (hthere : ∀ name ∈ there.names, IsIdentifier name) (hne : there.moduleParts ≠ [])
    {path parts : List String} (hpath : ∀ name ∈ path, IsIdentifier name) {ss : List Statement}
    {i : Import} (hforce : InForce ss i) (hopens : Opens here there path i parts) :
    (∀ part ∈ parts, IsIdentifier part) ∧
      (ofStatements here.moduleName.module here.moduleName.package ss).resolve (dotted parts) =
        dotted (there.moduleParts ++ path) := by
  obtain ⟨rest, rfl, hparts, htarget⟩ := hopens.exists_rest hhere hthere hne hpath
  obtain ⟨hbound, hrest⟩ := List.forall_mem_cons.mp hparts
  exact ⟨hparts, (resolve_of_inForce hforce hbound hrest).trans htarget⟩

/-- A class is meant by its qualified name wherever it is spelled: in other files through an import
in force, in its own file by its class path. -/
theorem qualified_across_files (root : Path)
    (hhere : ∀ name ∈ here.names, IsIdentifier name)
    (hthere : ∀ name ∈ there.names, IsIdentifier name) (hne : there.moduleParts ≠ []) :
    ∃ a b, ModuleName.ofPath (there.path root) root = .ok a ∧
      ModuleName.ofPath (here.path root) root = .ok b ∧
      ∀ (declaring importing : List Statement) (namespaceName : String) (file : Option String)
        (m : Marked), WellNamed declaring →
        m ∈ marked declaring a.module a.package namespaceName file →
        (∀ name ∈ m.entity.classPath, IsIdentifier name) →
        (∀ i parts text, InForce importing i → Opens here there m.entity.classPath i parts →
          Spells parts text →
          (ofText text (ofStatements b.module b.package importing).resolve).qualified =
            m.entity.qualifiedName) ∧
        ∀ text, Spells m.entity.classPath text →
          (ofText text (ofStatements a.module a.package declaring).resolve).qualified =
            m.entity.qualifiedName := by
  have hcomponents {p : SourcePlace} (h : ∀ name ∈ p.names, IsIdentifier name) :
      ∀ name ∈ p.names, IsComponent name := fun name hname => (h name hname).isComponent
  have hmodule : there.moduleName.module ≠ "" :=
    dotted_ne_empty hne (SourcePlace.moduleParts_of_names (hcomponents hthere))
  refine ⟨there.moduleName, here.moduleName, ofPath_place (hcomponents hthere) root,
    ofPath_place (hcomponents hhere) root, ?_⟩
  intro declaring importing namespaceName file m hnames hm hpath
  obtain ⟨ds, body, hclass, hentity⟩ := exists_class_of_marked hm hmodule hnames
  obtain ⟨first, rest, hfirst, hlocal⟩ := hclass.head_mem
  have hqualified : m.entity.qualifiedName =
      dotted (there.moduleName.module :: m.entity.classPath) :=
    congrArg Entity.qualifiedName hentity
  constructor
  · intro i parts text hforce hopens hspells
    obtain ⟨hparts, hresolve⟩ := resolve_of_opens hhere hthere hne hpath hforce hopens
    have hnil : parts ≠ [] := by
      obtain ⟨rest, hcons, -⟩ := hopens.exists_rest hhere hthere hne hpath
      exact hcons ▸ List.cons_ne_nil _ rest
    rw [qualified_of_spells hnil hparts hspells, hresolve, hqualified]
    exact (dotted_dotted_cons hne _).symm
  · intro text hspells
    rw [hfirst] at hpath hspells
    obtain ⟨hhead, hrest⟩ := List.forall_mem_cons.mp hpath
    rw [qualified_of_spells (List.cons_ne_nil first rest) hpath hspells,
      resolve_local hlocal hhead hrest, hqualified, hfirst]

def staff : List UInt8 :=
  Utf8.encode ("from tablegen.markers import table\nclass Person:\n  @table\n  class Badge:\n" ++
    "    next: 'Person.Badge'\n")

def kennels : List UInt8 :=
  Utf8.encode "import zoo\nfrom ..staff import Person as P\n"

theorem badge_across_files :
    ∃ m ∈ marked (parse staff) "zoo.staff" (some "zoo.staff") "tablegen.markers" none,
      m.entity.classPath = ["Person", "Badge"] ∧ WellNamed (parse staff) ∧
      InForce (parse kennels) (.member "..staff" ⟨"Person", some "P"⟩) ∧
      Opens ⟨["zoo", "pets"], "kennels"⟩ ⟨["zoo", "staff"], "__init__"⟩ ["Person", "Badge"]
        (.member "..staff" ⟨"Person", some "P"⟩) ["P", "Badge"] ∧
      (ofText "'P.Badge'" (ofStatements "zoo.pets.kennels" (some "zoo.pets")
        (parse kennels)).resolve).qualified = m.entity.qualifiedName ∧
      (ofText "Person.Badge" (ofStatements "zoo.staff" (some "zoo.staff")
        (parse staff)).resolve).qualified = m.entity.qualifiedName := by
  obtain ⟨m, hm, hpath⟩ : ∃ m ∈ marked (parse staff) "zoo.staff" (some "zoo.staff")
      "tablegen.markers" none, m.entity.classPath = ["Person", "Badge"] := by
    decide +kernel
  have hnames : WellNamed (parse staff) := wellNamed_parse staff
  have hforce : InForce (parse kennels) (.member "..staff" ⟨"Person", some "P"⟩) :=
    ⟨⟨[.module ⟨"zoo", none⟩], [], by decide +kernel, by simp⟩, by decide +kernel⟩
  have hsource : Denotes ⟨["zoo", "pets"], "kennels"⟩ ⟨["zoo", "staff"], "__init__"⟩ "..staff" :=
    @Denotes.relative _ _ ["zoo"] ["pets"] ["staff"] rfl (by decide) rfl
  have hopens : Opens ⟨["zoo", "pets"], "kennels"⟩ ⟨["zoo", "staff"], "__init__"⟩
      ["Person", "Badge"] (.member "..staff" ⟨"Person", some "P"⟩) ["P", "Badge"] :=
    .memberAs hsource (by decide)
  have hquoted : Spells ["P", "Badge"] "'P.Badge'" := .quoted (by decide : isQuote '\'' = true)
  have hhere : ∀ name ∈ (⟨["zoo", "pets"], "kennels"⟩ : SourcePlace).names, IsIdentifier name := by
    decide +kernel
  have hthere : ∀ name ∈ (⟨["zoo", "staff"], "__init__"⟩ : SourcePlace).names,
      IsIdentifier name := by
    decide +kernel
  obtain ⟨a, b, ha, hb, hall⟩ := qualified_across_files ⟨.root, ["src"]⟩ hhere hthere (by decide)
  have hcomponents : ∀ {p : SourcePlace}, (∀ name ∈ p.names, IsIdentifier name) →
      ModuleName.ofPath (p.path ⟨.root, ["src"]⟩) ⟨.root, ["src"]⟩ = .ok p.moduleName :=
    fun h => ofPath_place (fun name hname => (h name hname).isComponent) _
  obtain rfl : _ = a := Except.ok.inj ((hcomponents hthere).symm.trans ha)
  obtain rfl : _ = b := Except.ok.inj ((hcomponents hhere).symm.trans hb)
  obtain ⟨hother, hown⟩ := hall (parse staff) (parse kennels) "tablegen.markers" none m hnames hm
    (hpath ▸ by decide +kernel)
  exact ⟨m, hm, hpath, hnames, hforce, hopens, hother _ _ _ hforce (hpath ▸ hopens) hquoted,
    hown _ (hpath ▸ .bare)⟩

/-- A class whose name holds two vowel signs. They may stand in a name, but they are no word
characters. -/
def book : String := "T_\u0915\u093f\u0924\u093e\u092c"

def books : List UInt8 :=
  Utf8.encode ("from tablegen.markers import table\n\n@table\nclass " ++ book ++
    ":\n    pages: int\n")

def shelf : List UInt8 :=
  Utf8.encode ("from lib.books import " ++ book ++ "\nfrom tablegen.markers import table\n\n" ++
    "@table\nclass Shelf:\n    first: " ++ book ++ "\n")

/-- The import of the class is in force, and yet its name is read as no name. -/
theorem book_not_resolved :
    ModuleName.ofPath (SourcePlace.path ⟨["lib"], "books"⟩ ⟨.root, []⟩) ⟨.root, []⟩ =
        .ok ⟨"lib.books", some "lib"⟩ ∧
      ModuleName.ofPath (SourcePlace.path ⟨["lib"], "shelf"⟩ ⟨.root, []⟩) ⟨.root, []⟩ =
        .ok ⟨"lib.shelf", some "lib"⟩ ∧
      InForce (parse shelf) (.member "lib.books" ⟨book, none⟩) ∧
      Opens ⟨["lib"], "shelf"⟩ ⟨["lib"], "books"⟩ [book] (.member "lib.books" ⟨book, none⟩)
        [book] ∧
      ∃ m ∈ marked (parse books) "lib.books" (some "lib") "tablegen.markers" none,
        m.entity.classPath = [book] ∧ m.entity.qualifiedName = "lib.books." ++ book ∧
        (ofText book (ofStatements "lib.shelf" (some "lib") (parse shelf)).resolve).qualified ≠
          m.entity.qualifiedName := by
  have hforce : InForce (parse shelf) (.member "lib.books" ⟨book, none⟩) :=
    ⟨⟨[], [.member "tablegen.markers" ⟨"table", none⟩], by decide +kernel, by decide +kernel⟩,
      by decide +kernel⟩
  exact ⟨by decide +kernel, by decide +kernel, hforce, .member .absolute, by decide +kernel⟩

end TypedTables.Source
