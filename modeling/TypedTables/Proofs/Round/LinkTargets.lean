import TypedTables.Proofs.Links
import TypedTables.Proofs.Round.Run

/-!
The targets of links. Generated code imports the table of a linked entity from its own package. In a
round without errors the module that it imports is generated, or a warning says that the table
belongs to another package.
-/

namespace TypedTables

open Text

structure NamesTarget (entities : List Entity) (c : Column) : Prop where
  target : c.type = .link → ∃ link last, c.link = some link ∧
    link.entity ∈ candidateNames entities ∧
    (components link.entity).getLast? = some last ∧ link.name = capitalize last
  noTarget : c.type ≠ .link → c.link = none

theorem namesTarget_ofField (entities : List Entity) (i : Nat) (f : Field) :
    NamesTarget entities (Column.ofField (Schema.build entities) i f) := by
  have hlink : (Column.ofField (Schema.build entities) i f).link =
      if (Column.ofField (Schema.build entities) i f).type = .link then
        some ⟨capitalize f.type.simpleName, f.type.identity⟩ else none :=
    normalize_link _ _
  constructor
  · intro htype
    obtain ⟨-, hnested, -⟩ := columnType_eq_link.mp htype
    rw [hlink, if_pos htype]
    exact ⟨_, _, rfl, (Schema.isNested_build.mp hnested).1, getLast?_components _, rfl⟩
  · intro htype
    rw [hlink, if_neg htype]

namespace Round

theorem BuiltFrom.namesTarget [OverrideLanguage] {fs : FileSystem} {config : Config}
    {entities : List Entity} {e : Entity} {m : EntityModel}
    (h : BuiltFrom fs config (Schema.build entities) e m) {c : Column} (hc : c ∈ m.columns)
    : NamesTarget entities c := by
  obtain ⟨cache, hcolumns⟩ := h.columns
  rw [hcolumns, Column.ofEntity_eq, Column.ofFields] at hc
  obtain ⟨i, hi, rfl⟩ := List.mem_mapIdx.mp hc
  exact namesTarget_ofField entities i _

def linkProblems (cs : List Contribution) (c : Contribution) (column : Column) : Diagnostics :=
  Diagnostics.ofNotices
    (linkNotices (packagesOf (cs.map (fun c => (c.entity, c.model)))) c.entity c.model column)

def crossPackageWarning (c t : Contribution) (column : Column) (link : LinkTarget) : Diagnostic :=
  let m := c.model
  ⟨.warning,
    s!"Linked sub-table {link.entity} is generated into {t.model.package}, not {m.package}; " ++
      "the generated accessor won't import it", some c.entity.simpleName, some column.name⟩

def tableArtifact : Artifact := ⟨"table.py.j2", "Table"⟩

/-- A file is the one that generated code of `c` imports for a link, and is generated for `t`. -/
structure Imports [OverrideLanguage] (config : Config) (r : Renderer) (target : Target)
    (c t : Contribution) (link : LinkTarget) (f : GeneratedFile) : Prop where
  origin : f ∈ t.files
  package : f.package = c.model.package
  fileName : f.fileName = link.name ++ "Table" ++ config.fileExtension
  generated : Generated config r target t.model tableArtifact f

/-- A link of `c` leads to the table of `t`: its module is among the files, unless it belongs to
another package and a warning says so. -/
def LeadsTo [OverrideLanguage] (config : Config) (r : Renderer) (target : Target)
    (files : List GeneratedFile) (cs : List Contribution) (c : Contribution) (column : Column)
    (link : LinkTarget) (t : Contribution) : Prop :=
  (t.model.package ≠ c.model.package ∧
    linkProblems cs c column = [crossPackageWarning c t column link]) ∨
  (t.model.package = c.model.package ∧ linkProblems cs c column = [] ∧
    ∃ f ∈ files, Imports config r target c t link f)

structure Linked [OverrideLanguage] (fs : FileSystem) (config : Config) (target : Target)
    (before : Diagnostics) (markers : List (String × List Entity)) (r : RoundResult)
    (cs : List Contribution) :
    Prop where
  accounts : Accounts fs config markers r cs
  recorded : ∃ earlier later, r.diagnostics = before ++ earlier ++
    cs.flatMap (fun c => c.model.columns.flatMap (linkProblems cs c)) ++ later
  others : ∀ c ∈ cs, ∀ column ∈ c.model.columns, column.type ≠ .link →
    column.link = none ∧ linkProblems cs c column = []
  links : ∀ c ∈ cs, ∀ column ∈ c.model.columns, column.type = .link →
    ∃ link, column.link = some link ∧ ∃ t ∈ cs, t.entity.qualifiedName = link.entity ∧
      LeadsTo config ⟨fs, config.templateDir, []⟩ target r.files cs c column link t
  distinct : ((tableEntities config markers).map Entity.qualifiedName).Nodup →
    ∀ c ∈ cs, ∀ column ∈ c.model.columns, ∀ link, column.link = some link →
    ∀ t ∈ cs, t.entity.qualifiedName = link.entity →
      (linkProblems cs c column ≠ [] ↔ t.model.package ≠ c.model.package)

theorem exists_lookup_packagesOf {cs : List Contribution} {name : String}
    (h : ∃ c ∈ cs, c.model.qualifiedName = name) :
    ∃ t ∈ cs, t.model.qualifiedName = name ∧
      (packagesOf (cs.map (fun c => (c.entity, c.model)))).lookup name = some t.model.package := by
  obtain ⟨c, hc, hname⟩ := h
  have htable : packagesOf (cs.map (fun c => (c.entity, c.model))) =
      Keyed.ofList (cs.map (fun c => (c.model.qualifiedName, c.model.package))) := by
    rw [packagesOf, List.map_map]
    rfl
  rw [htable, Keyed.lookup_ofList]
  cases hlook : (cs.map (fun c => (c.model.qualifiedName, c.model.package))).reverse.lookup name
    with
  | none =>
      have hother := List.lookup_eq_none_iff.mp hlook (name, c.model.package)
        (List.mem_reverse.mpr (List.mem_map.mpr ⟨c, hc, by rw [hname]⟩))
      simp at hother
  | some package =>
      obtain ⟨front, back, hsplit, -⟩ := List.lookup_eq_some_iff.mp hlook
      have hmem : (name, package) ∈
          (cs.map (fun c => (c.model.qualifiedName, c.model.package))).reverse := by
        rw [hsplit]
        simp
      obtain ⟨t, ht, heq⟩ := List.mem_map.mp (List.mem_reverse.mp hmem)
      obtain ⟨htname, rfl⟩ := Prod.mk.inj heq
      exact ⟨t, ht, htname, rfl⟩

theorem linkProblems_of_lookup {cs : List Contribution} {c t : Contribution} {column : Column}
    {link : LinkTarget} (hlink : column.link = some link)
    (h : (packagesOf (cs.map (fun c => (c.entity, c.model)))).lookup link.entity =
      some t.model.package) :
    linkProblems cs c column = if t.model.package = c.model.package then []
      else [crossPackageWarning c t column link] := by
  rw [linkProblems, linkNotices, hlink]
  simp only [h]
  split <;> rfl

section

variable [OverrideLanguage] {fs : FileSystem} {config : Config} {target : Target}
  {before : Diagnostics} {markers : List (String × List Entity)} {r : RoundResult}
  {cs : List Contribution}

theorem imports_of_complete {c t : Contribution} {link : LinkTarget} {last : String}
    (hcomplete : t.Complete config ⟨fs, config.templateDir, []⟩ target) (howners : t.owners = [])
    (hentity : t.model.entity = capitalize last) (hname : link.name = capitalize last)
    (hpackage : t.model.package = c.model.package) :
    ∃ f, Imports config ⟨fs, config.templateDir, []⟩ target c t link f := by
  have hall : List.Forall₂ (Generated config ⟨fs, config.templateDir, []⟩ target t.model)
      (tableArtifact :: artifacts.tail) t.files := hcomplete.kept howners
  obtain ⟨f, rest, hf, -, hfiles⟩ := List.forall₂_cons_left_iff.mp hall
  refine ⟨f, by simp [hfiles], hf.package.trans hpackage, ?_, hf⟩
  rw [hf.fileName, fileName, hentity, hname]
  rfl

theorem MadeOf.owners_eq_nil {entities : List Entity} {tables : Tables} {problems : Diagnostics}
    {built : List (Entity × EntityModel)}
    (h : MadeOf fs config target entities tables problems built cs) (herrors : problems.errors = [])
    {c : Contribution} (hc : c ∈ cs) : c.owners = [] := by
  rw [h.errors, List.append_eq_nil_iff] at herrors
  have hclash := List.flatMap_eq_nil_iff.mp herrors.2 c hc
  by_contra howners
  rw [Contribution.clashes, if_pos ((h.complete c hc).skipped howners)] at hclash
  cases hclash

theorem MadeOf.exists_problems {entities : List Entity} {tables : Tables} {problems : Diagnostics}
    {built : List (Entity × EntityModel)}
    (h : MadeOf fs config target entities tables problems built cs)
    (herrors : problems.errors = []) :
    ∃ own, problems =
      own ++ cs.flatMap (fun c => c.model.columns.flatMap (linkProblems cs c)) := by
  obtain ⟨own, rfl, -⟩ := h.problems
  refine ⟨own, congrArg (own ++ ·) (List.flatMap_congr ?_)⟩
  intro c hc
  rw [Share.notices, if_pos (h.owners_eq_nil herrors hc), List.append_nil,
    Diagnostics.ofNotices_flatMap, ← h.pairs]
  rfl

theorem Accounts.exists_target (h : Accounts fs config markers r cs) {c : Contribution}
    (hc : c ∈ cs) {column : Column} (hcolumn : column ∈ c.model.columns) {link : LinkTarget}
    (hlink : column.link = some link) :
    ∃ t ∈ cs, t.entity.qualifiedName = link.entity ∧
      linkProblems cs c column = if t.model.package = c.model.package then []
        else [crossPackageWarning c t column link] := by
  have hnames := (h.built c hc).namesTarget hcolumn
  have htype : column.type = .link := by
    by_contra hother
    rw [hnames.noTarget hother] at hlink
    cases hlink
  obtain ⟨link', last, hlink', hcandidate, -⟩ := hnames.target htype
  obtain rfl : link = link' := Option.some.inj (hlink.symm.trans hlink')
  rw [candidateNames, ← h.entities, List.map_map] at hcandidate
  obtain ⟨t, ht, hname⟩ := List.mem_map.mp hcandidate
  obtain ⟨t, ht, hname, hlook⟩ := exists_lookup_packagesOf
    ⟨t, ht, (h.built t ht).qualifiedName.trans hname⟩
  exact ⟨t, ht, (h.built t ht).qualifiedName.symm.trans hname, linkProblems_of_lookup hlink hlook⟩

theorem Accounts.exists_leadsTo (h : Accounts fs config markers r cs)
    (hcomplete : ∀ t ∈ cs, t.Complete config ⟨fs, config.templateDir, []⟩ target ∧ t.owners = [])
    (hnames : ∀ e ∈ tableEntities config markers,
      (components e.qualifiedName).getLast? = some e.simpleName)
    {c : Contribution} (hc : c ∈ cs) {column : Column} (hcolumn : column ∈ c.model.columns)
    (htype : column.type = .link) :
    ∃ link, column.link = some link ∧ ∃ t ∈ cs, t.entity.qualifiedName = link.entity ∧
      LeadsTo config ⟨fs, config.templateDir, []⟩ target r.files cs c column link t := by
  obtain ⟨link, last, hlink, -, hlast, hname⟩ := ((h.built c hc).namesTarget hcolumn).target htype
  obtain ⟨t, ht, htname, hproblem⟩ := h.exists_target hc hcolumn hlink
  refine ⟨link, hlink, t, ht, htname, ?_⟩
  by_cases hpackage : t.model.package = c.model.package
  · have hsimple : t.entity.simpleName = last := by
      have hown := hnames t.entity (h.entities ▸ List.mem_map_of_mem ht)
      rw [htname, hlast] at hown
      exact (Option.some.inj hown).symm
    have hentity : t.model.entity = capitalize last := by
      rw [(h.built t ht).entity, hsimple]
    obtain ⟨hall, howners⟩ := hcomplete t ht
    obtain ⟨f, hf⟩ := imports_of_complete hall howners hentity hname hpackage
    have hmem : f ∈ r.files := by
      rw [← h.files]
      exact List.mem_flatMap.mpr ⟨t, ht, hf.origin⟩
    rw [if_pos hpackage] at hproblem
    exact .inr ⟨hpackage, hproblem, f, hmem, hf⟩
  · rw [if_neg hpackage] at hproblem
    exact .inl ⟨hpackage, hproblem⟩

/-- Among entities with distinct names a link is warned about exactly if it leaves its package. -/
theorem Accounts.warned_iff (h : Accounts fs config markers r cs)
    (hdistinct : ((tableEntities config markers).map Entity.qualifiedName).Nodup)
    {c t : Contribution} (hc : c ∈ cs) {column : Column} (hcolumn : column ∈ c.model.columns)
    {link : LinkTarget} (hlink : column.link = some link) (ht : t ∈ cs)
    (hname : t.entity.qualifiedName = link.entity) :
    linkProblems cs c column ≠ [] ↔ t.model.package ≠ c.model.package := by
  obtain ⟨t', ht', hname', hproblem⟩ := h.exists_target hc hcolumn hlink
  rw [← h.entities, List.map_map] at hdistinct
  obtain rfl : t = t' := List.inj_on_of_nodup_map hdistinct ht ht' (hname.trans hname'.symm)
  rw [hproblem]
  by_cases hpackage : t.model.package = c.model.package <;> simp [hpackage]

/-- No link of a round without errors dangles. -/
theorem links_lead (hkeys : (markers.map Prod.fst).Nodup)
    (hnames : ∀ e ∈ tableEntities config markers,
      (components e.qualifiedName).getLast? = some e.simpleName)
    (h : (Round.run fs config target before markers).result = .ok r) (hok : r.failed = false) :
    ∃ cs, Linked fs config target before markers r cs := by
  obtain ⟨tables, problems, built, cs, earlier, later, hmade, hmodels, hfiles, hdiagnostics⟩ :=
    run_madeOf hkeys h
  have haccounts := hmade.accounts hmodels hfiles
  have herrors : problems.errors = [] := by
    have hnone : r.diagnostics.errors = [] := by
      by_contra hsome
      rw [RoundResult.failed, Diagnostics.hasErrors_iff.mpr hsome] at hok
      cases hok
    simp only [hdiagnostics, Diagnostics.errors_append, List.append_eq_nil_iff] at hnone
    exact hnone.2.1.2
  have hcomplete : ∀ t ∈ cs,
      t.Complete config ⟨fs, config.templateDir, []⟩ target ∧ t.owners = [] :=
    fun t ht => ⟨hmade.complete t ht, hmade.owners_eq_nil herrors ht⟩
  refine ⟨cs, ?_⟩
  constructor
  case accounts => exact haccounts
  case recorded =>
    obtain ⟨own, hproblems⟩ := hmade.exists_problems herrors
    refine ⟨unexpectedWarnings earlier ++ own, unexpectedWarnings later, ?_⟩
    rw [hdiagnostics, hproblems]
    simp
  case others =>
    intro c hc column hcolumn htype
    have hlink := ((haccounts.built c hc).namesTarget hcolumn).noTarget htype
    exact ⟨hlink, by simp [linkProblems, linkNotices, hlink]⟩
  case links =>
    intro c hc column hcolumn htype
    exact haccounts.exists_leadsTo hcomplete hnames hc hcolumn htype
  case distinct =>
    intro hdistinct c hc column hcolumn link hlink t ht hname
    exact haccounts.warned_iff hdistinct hc hcolumn hlink ht hname

end

def clinic : List (String × List Entity) :=
  let entity (package name : String) (fields : List Field) : Entity :=
    ⟨package ++ "." ++ name, name, [⟨.packageScope, package⟩], fields, none⟩
  [ ("tablegen.markers.table", [
      entity "zoo" "dog" [
        ⟨"owner", ⟨"person", "zoo.person", "", .name⟩, some 1⟩,
        ⟨"vet", ⟨"Vet", "care.Vet", "", .name⟩, some 2⟩],
      entity "zoo" "person" [], entity "care" "Vet" []]) ]

theorem links_of_clinic :
    (clinic.map Prod.fst).Nodup ∧
      (∀ e ∈ tableEntities {} clinic, (components e.qualifiedName).getLast? = some e.simpleName) ∧
      ∃ r, (Round.run ⟨.empty, [], []⟩ {} none [] clinic).result = .ok r ∧ r.failed = false ∧
        r.diagnostics.map Diagnostic.line = [
          "warning: dog.vet: Linked sub-table care.Vet is generated into care.generated, not " ++
            "zoo.generated; the generated accessor won't import it"] ∧
        ("zoo.generated", "PersonTable.py") ∈ r.files.map GeneratedFile.key ∧
        ∃ cs, Linked ⟨.empty, [], []⟩ {} none [] clinic r cs := by
  have hkeys : (clinic.map Prod.fst).Nodup := by decide
  have hnames : ∀ e ∈ tableEntities {} clinic,
      (components e.qualifiedName).getLast? = some e.simpleName := by decide +kernel
  have hround : (Round.run ⟨.empty, [], []⟩ {} none [] clinic).result.toOption.map (fun r =>
      (r.failed, r.diagnostics.map Diagnostic.line,
        decide (("zoo.generated", "PersonTable.py") ∈ r.files.map GeneratedFile.key))) =
      some (false, [
        "warning: dog.vet: Linked sub-table care.Vet is generated into care.generated, not " ++
          "zoo.generated; the generated accessor won't import it"], true) := by
    decide +kernel
  obtain ⟨r, hresult, heq⟩ := exists_ok_of_map_eq_some hround
  obtain ⟨hfailed, hlines, hfile⟩ : _ ∧ _ ∧ _ := by simpa only [Prod.mk.injEq] using heq
  exact ⟨hkeys, hnames, r, hresult, hfailed, hlines, of_decide_eq_true hfile,
    links_lead hkeys hnames hresult hfailed⟩

end Round

end TypedTables
