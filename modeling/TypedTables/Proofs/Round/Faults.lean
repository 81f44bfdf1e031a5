import TypedTables.Proofs.Round.Run

/-!
Why rounds fail. Each error that a round adds to the problems before it has one cause, and each
cause gives one error: a column without a column type, a column with a reserved name, an entity
without a package where that is forbidden, or an entity whose files clash with those of another
one.
-/

namespace TypedTables

theorem Entity.package?_eq_none {e : Entity} :
    e.package? = none ↔ ∀ s ∈ e.scope, s.kind ≠ .packageScope := by
  simp [package?, enclosing?]

namespace Round

inductive Fault where
  | unsupported (e : Entity) (c : Column)
  | reserved (e : Entity) (c : Column)
  | noPackage (e : Entity)
  | clash (c : Contribution)

def Fault.error (config : Config) : Fault → Diagnostic
  | .unsupported e c =>
      ⟨.error, s!"Unsupported field type '{c.declaredType}'", some e.simpleName, some c.name⟩
  | .reserved e c =>
      ⟨.error, s!"Field name '{c.name}' is reserved in generated code", some e.simpleName,
        some c.name⟩
  | .noPackage e =>
      ⟨.error, s!"Couldn't calculate the target package! Using default: {config.defaultPackage}",
        some e.simpleName, none⟩
  | .clash c =>
      let names := String.intercalate ", " c.owners
      let e := c.entity
      let m := c.model
      ⟨.error,
        s!"Generated files of {e.qualifiedName} in {m.package} clash with those of {names}; " ++
          "not generated", some e.simpleName, none⟩

/-- An entity without a package, where that is forbidden. -/
def Homeless (config : Config) (e : Entity) : Prop :=
  config.failOnDefaultPackage = true ∧ ∀ s ∈ e.scope, s.kind ≠ .packageScope

instance (config : Config) (e : Entity) : Decidable (Homeless config e) :=
  inferInstanceAs (Decidable (_ ∧ _))

def columnFaults (e : Entity) (c : Column) : List Fault :=
  (if c.type = .unsupported then [.unsupported e c] else []) ++
    if c.name ∈ reservedFieldNames then [.reserved e c] else []

/-- The faults of an entity that do not depend on other entities. -/
def ownFaults (config : Config) (e : Entity) (m : EntityModel) : List Fault :=
  m.columns.flatMap (columnFaults e) ++ if Homeless config e then [.noPackage e] else []

/-- The faults of a round, those of its models before its clashes. -/
def faults (config : Config) (cs : List Contribution) : List Fault :=
  cs.flatMap (fun c => ownFaults config c.entity c.model) ++
    (cs.filter (fun c => c.files = [])).map Fault.clash

def Contribution.Faulty (config : Config) (c : Contribution) : Prop :=
  (∃ column ∈ c.model.columns, column.type = .unsupported ∨ column.name ∈ reservedFieldNames) ∨
    Homeless config c.entity ∨ c.files = []

theorem errors_columnNotices (config : Config) (e : Entity) (c : Column) :
    (Diagnostics.ofNotices (columnNotices e c)).errors =
      (columnFaults e c).map (Fault.error config) := by
  by_cases htype : c.type = .unsupported
  · by_cases hname : c.name ∈ reservedFieldNames
    · simp [columnNotices, columnFaults, Column.isSupported, htype, hname, Fault.error]
    · simp [columnNotices, columnFaults, Column.isSupported, htype, hname, Fault.error]
  · by_cases hname : c.name ∈ reservedFieldNames
    · simp [columnNotices, columnFaults, Column.isSupported, htype, hname, Fault.error]
    · simp [columnNotices, columnFaults, Column.isSupported, htype, hname]

theorem errors_targetPackage (config : Config) (e : Entity) :
    (Diagnostics.ofNotices (e.targetPackage config.packageRule).2).errors =
      (if Homeless config e then [Fault.noPackage e] else []).map (Fault.error config) := by
  rw [Entity.targetPackage]
  cases hpackage : e.package? with
  | some package =>
      have hhome : ¬ Homeless config e := by
        rintro ⟨-, hscope⟩
        rw [Entity.package?_eq_none.mpr hscope] at hpackage
        cases hpackage
      rw [if_neg hhome]
      rfl
  | none =>
      by_cases hfail : config.failOnDefaultPackage = true
      · rw [if_pos ⟨hfail, Entity.package?_eq_none.mp hpackage⟩]
        simp [PackageRule.fallbackNotice, Config.packageRule, hfail, Fault.error]
      · rw [if_neg (fun h => hfail h.1)]
        simp [PackageRule.fallbackNotice, Config.packageRule, hfail]

theorem errors_ownProblems (config : Config) (e : Entity) (m : EntityModel) :
    (ownProblems config e m).errors = (ownFaults config e m).map (Fault.error config) := by
  rw [ownProblems, ownFaults, Diagnostics.ofNotices_append, Diagnostics.errors_append,
    errors_targetPackage, Diagnostics.ofNotices_flatMap, Diagnostics.errors_flatMap,
    List.map_append, List.map_flatMap]
  simp only [errors_columnNotices config]

theorem flatMap_clashes (config : Config) (cs : List Contribution) :
    cs.flatMap Contribution.clashes =
      ((cs.filter (fun c => c.files = [])).map Fault.clash).map (Fault.error config) := by
  induction cs with
  | nil => rfl
  | cons c cs ih =>
      by_cases hfiles : c.files = []
      · simp [Contribution.clashes, hfiles, ih, Fault.error]
      · simp [Contribution.clashes, hfiles, ih]

theorem MadeOf.errors_eq_faults [OverrideLanguage] {fs : FileSystem} {config : Config}
    {target : Target} {entities : List Entity} {tables : Tables} {problems : Diagnostics}
    {built : List (Entity × EntityModel)} {cs : List Contribution}
    (h : MadeOf fs config target entities tables problems built cs) :
    problems.errors = (faults config cs).map (Fault.error config) := by
  rw [h.errors, faults, List.map_append, List.map_flatMap, flatMap_clashes config, ← h.pairs,
    List.flatMap_map]
  simp only [errors_ownProblems]

theorem columnFaults_eq_nil {e : Entity} {c : Column} :
    columnFaults e c = [] ↔ ¬ (c.type = .unsupported ∨ c.name ∈ reservedFieldNames) := by
  simp [columnFaults]

theorem faults_eq_nil {config : Config} {cs : List Contribution} :
    faults config cs = [] ↔ ∀ c ∈ cs, ¬ c.Faulty config := by
  simp only [faults, ownFaults, Contribution.Faulty, List.append_eq_nil_iff,
    List.flatMap_eq_nil_iff, List.map_eq_nil_iff, List.filter_eq_nil_iff, columnFaults_eq_nil,
    ite_eq_right_iff, List.cons_ne_nil, imp_false, decide_eq_true_eq, not_or, not_exists, not_and]
  grind

/-- A round without some marker that completes like the round `r` with it, except for one
warning. -/
def Harmless [OverrideLanguage] (fs : FileSystem) (config : Config) (target : Target)
    (before : Diagnostics) (marker : String) (others : List (String × List Entity))
    (r : RoundResult) : Prop :=
  ∃ r' xs ys, (Round.run fs config target before others).result = .ok r' ∧
    r'.schema = r.schema ∧ r'.models = r.models ∧ r'.files = r.files ∧
    r'.diagnostics = before ++ xs ++ ys ∧
    r.diagnostics = before ++ xs ++ unexpectedWarning marker :: ys

/-- The problems of a round after those before it: each fault is reported by one error, and each
marker that is not the table marker only by a warning. -/
structure Explained [OverrideLanguage] (fs : FileSystem) (config : Config) (target : Target)
    (before : Diagnostics) (markers : List (String × List Entity)) (r : RoundResult)
    (cs : List Contribution) (added : Diagnostics) : Prop where
  accounts : Accounts fs config markers r cs
  diagnostics : r.diagnostics = before ++ added
  errors : added.errors = (faults config cs).map (Fault.error config)
  failed : r.failed = true ↔ before.hasErrors = true ∨ ∃ c ∈ cs, c.Faulty config
  others : ∀ pre marker entities post, markers = pre ++ (marker, entities) :: post →
    marker ≠ config.tableMarker → Harmless fs config target before marker (pre ++ post) r

section

variable [OverrideLanguage] {fs : FileSystem} {config : Config} {target : Target}
  {before : Diagnostics} {markers : List (String × List Entity)} {r : RoundResult}

theorem harmless_of_ne {pre post : List (String × List Entity)} {marker : String}
    {entities : List Entity} (hmarker : marker ≠ config.tableMarker)
    (h : (Round.run fs config target before (pre ++ (marker, entities) :: post)).result = .ok r) :
    Harmless fs config target before marker (pre ++ post) r := by
  obtain ⟨tables?, hlong, rfl⟩ := run_ok h
  obtain ⟨hshort, -, xs, ys, hxs, hys⟩ := runMarkers_insert hmarker hlong
  refine ⟨resultOf tables? (before ++ Diagnostics.ofNotices (xs ++ ys)),
    Diagnostics.ofNotices xs, Diagnostics.ofNotices ys, ?_, rfl, rfl, rfl, ?_, ?_⟩
  · rw [run_result, hshort, hxs]
    rfl
  · rw [resultOf, Diagnostics.ofNotices_append, List.append_assoc]
  · rw [resultOf, hys, Diagnostics.ofNotices_append, ofNotices_unexpectedMarker,
      List.append_assoc]

/-- A round adds one error for each of its faults, and markers other than the table marker add
nothing but a warning. -/
theorem errors_of_faults (hkeys : (markers.map Prod.fst).Nodup)
    (h : (Round.run fs config target before markers).result = .ok r) :
    ∃ cs added, Explained fs config target before markers r cs added := by
  obtain ⟨tables, problems, built, cs, earlier, later, hmade, hmodels, hfiles, hdiagnostics⟩ :=
    run_madeOf hkeys h
  have herrors : (unexpectedWarnings earlier ++ problems ++ unexpectedWarnings later).errors =
      (faults config cs).map (Fault.error config) := by
    rw [Diagnostics.errors_append, Diagnostics.errors_append, errors_unexpectedWarnings,
      errors_unexpectedWarnings, List.nil_append, List.append_nil, hmade.errors_eq_faults]
  refine ⟨cs, _, hmade.accounts hmodels hfiles, hdiagnostics, herrors, ?_, ?_⟩
  · have hfaulty : (faults config cs).map (Fault.error config) ≠ [] ↔
        ∃ c ∈ cs, c.Faulty config := by
      rw [ne_eq, List.map_eq_nil_iff, faults_eq_nil]
      simp
    rw [RoundResult.failed, hdiagnostics, Diagnostics.hasErrors_iff, Diagnostics.errors_append,
      herrors, Diagnostics.hasErrors_iff, ← hfaulty, ne_eq, List.append_eq_nil_iff, not_and_or]
  · rintro pre marker entities post rfl hmarker
    exact harmless_of_ne hmarker h

end

/-- Two cows of one name outside of all packages. A field of the first one has two faults. -/
def byre : List (String × List Entity) :=
  let cow (module : String) (fields : List Field) : Entity :=
    ⟨module ++ ".Cow", "Cow", [⟨.moduleScope, module⟩], fields, none⟩
  [ ("tablegen.markers.view", []),
    ("tablegen.markers.table", [
      cow "north" [⟨"row", ⟨"frozenset", "frozenset", "", .name⟩, some 9⟩], cow "south" []]) ]

theorem errors_of_byre :
    (byre.map Prod.fst).Nodup ∧
      ∃ r, (Round.run ⟨.empty, [], []⟩ { failOnDefaultPackage := true } none [] byre).result =
          .ok r ∧
        r.diagnostics.map Diagnostic.line = [
          "warning: Unexpected marker: tablegen.markers.view",
          "error: Cow.row: Unsupported field type 'frozenset'",
          "error: Cow.row: Field name 'row' is reserved in generated code",
          "error: Cow: Couldn't calculate the target package! Using default: tablegen.generated",
          "error: Cow: Couldn't calculate the target package! Using default: tablegen.generated",
          "error: Cow: Generated files of south.Cow in tablegen.generated clash with those of " ++
            "north.Cow; not generated"] ∧
        ∃ cs added, Explained ⟨.empty, [], []⟩ { failOnDefaultPackage := true } none [] byre r cs
          added := by
  have hkeys : (byre.map Prod.fst).Nodup := by decide
  have hlines : (Round.run ⟨.empty, [], []⟩ { failOnDefaultPackage := true } none []
      byre).result.toOption.map (fun r => r.diagnostics.map Diagnostic.line) = some [
        "warning: Unexpected marker: tablegen.markers.view",
        "error: Cow.row: Unsupported field type 'frozenset'",
        "error: Cow.row: Field name 'row' is reserved in generated code",
        "error: Cow: Couldn't calculate the target package! Using default: tablegen.generated",
        "error: Cow: Couldn't calculate the target package! Using default: tablegen.generated",
        "error: Cow: Generated files of south.Cow in tablegen.generated clash with those of " ++
          "north.Cow; not generated"] := by
    decide +kernel
  obtain ⟨r, hresult, hdiagnostics⟩ := exists_ok_of_map_eq_some hlines
  exact ⟨hkeys, r, hresult, hdiagnostics, errors_of_faults hkeys hresult⟩

end Round

end TypedTables
