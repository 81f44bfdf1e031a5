import TypedTables.Proofs.Round.Run

/-!
Dry rounds. A round that writes nothing finds the same templates as one that writes its files, if no
file is written where a template is looked for and no directory opens a way to one. Both then
generate the same files, or fail alike.
-/

namespace TypedTables

def GeneratedFile.unwritten (f : GeneratedFile) : GeneratedFile := { f with path := none }

def RoundResult.unwritten (r : RoundResult) : RoundResult :=
  { r with files := r.files.map GeneratedFile.unwritten }

namespace Round

def overridePaths (config : Config) : List Path :=
  match config.templateDir with
  | none => []
  | some directory =>
      if directory.isEmpty then []
      else artifacts.map (fun a => Template.overridePath directory [a.template])

/-- Where a run writes that generates some files: the files themselves, and those that make their
directories packages. -/
def WritesTo (fs : FileSystem) (o : Output) (keys : List (String × String))
    (location : List String) : Prop :=
  ∃ key ∈ keys, location = fs.resolved (o.leads (o.filePath key.1 key.2)) ∨
    ∃ p ∈ o.packageFiles key.1, location = fs.resolved (o.leads p)

/-- No override reads what is at some locations, nor what can be reached only by directories that
are still to be made: whatever changes there, it makes the same of a context. -/
def Overlooks [OverrideLanguage] (fs : FileSystem) (config : Config)
    (locations : List String → Prop) : Prop :=
  ∀ p ∈ overridePaths config, ∀ bytes, fs.read p = .ok bytes →
    ∀ text, Text.Utf8.decode bytes = .ok text → ∀ fs', fs.ChangesOnly locations fs' →
      OverrideLanguage.fill fs' text = OverrideLanguage.fill fs text

/-- Writing some files leaves all overrides alone. Each override is found from the start if it is
there, no file takes the place of one, and none reads a file that is written. -/
structure Spares [OverrideLanguage] (fs : FileSystem) (config : Config) (o : Output)
    (keys : List (String × String)) : Prop where
  reachable : ∀ p ∈ overridePaths config,
    (fs.tree.fileAt? (fs.resolved p)).isSome = true → fs.isFile p = true
  apart : ∀ p ∈ overridePaths config, ∀ key ∈ keys,
    fs.resolved (o.leads (o.filePath key.1 key.2)) ≠ fs.resolved p
  unread : Overlooks fs config (WritesTo fs o keys)

/-- The renderer of a dry round, and that of a round that has written some of its files. -/
structure Alike [OverrideLanguage] (fs : FileSystem) (config : Config) (o : Output)
    (keys : List (String × String)) (dry real : Renderer) : Prop where
  spares : Spares fs config o keys
  links : ∀ link ∈ o.links, link.1.components.getLast? ≠ some "__init__.py"
  overrides : dry.overrides = config.templateDir
  same : real.overrides = dry.overrides
  kept : real.kept = dry.kept
  files : dry.files = fs
  changes : fs.ChangesOnly (WritesTo fs o keys) real.files

theorem nameComponents?_of_artifact {a : Artifact} (ha : a ∈ artifacts) :
    Template.nameComponents? a.template = some [a.template] := by
  revert a
  decide +kernel

theorem template_of_artifact {a : Artifact} (ha : a ∈ artifacts) :
    a.template ≠ ".." ∧ a.template ≠ "__init__.py" := by
  revert a
  decide +kernel

theorem getLast?_overridePath {config : Config} {p : Path} (hp : p ∈ overridePaths config) :
    ∃ a ∈ artifacts, p.components.getLast? = some a.template := by
  rw [overridePaths] at hp
  split at hp
  · cases hp
  · split at hp
    · cases hp
    · obtain ⟨a, ha, rfl⟩ := List.mem_map.mp hp
      exact ⟨a, ha, List.getLast?_concat⟩

/-- No override is where a run writes: what makes a package has not the name of a template. -/
theorem Spares.not_writesTo [OverrideLanguage] {fs : FileSystem} {config : Config} {o : Output}
    {keys : List (String × String)} (h : Spares fs config o keys)
    (hlinks : ∀ link ∈ o.links, link.1.components.getLast? ≠ some "__init__.py") {p : Path}
    (hp : p ∈ overridePaths config) : ¬ WritesTo fs o keys (fs.resolved p) := by
  rintro ⟨key, hkey, heq | ⟨q, hq, heq⟩⟩
  · exact h.apart p hp key hkey heq.symm
  · obtain ⟨a, ha, hlast⟩ := getLast?_overridePath hp
    obtain ⟨hup, hinit⟩ := template_of_artifact ha
    have hq := Path.getLast?_resolve
      (Output.getLast?_leads (Output.getLast?_packageFiles hq) hlinks) (by decide +kernel) fs.cwd
    have hp := Path.getLast?_resolve hlast hup fs.cwd
    rw [FileSystem.resolved, FileSystem.resolved] at heq
    rw [← heq, hp] at hq
    exact hinit (Option.some.inj hq)

theorem mem_overridePaths {config : Config} {directory : String} {a : Artifact}
    (hdirectory : config.templateDir = some directory) (hne : ¬ directory.isEmpty = true)
    (ha : a ∈ artifacts) : Template.overridePath directory [a.template] ∈ overridePaths config := by
  simp only [overridePaths, hdirectory, hne]
  exact List.mem_map_of_mem ha

theorem exists_overridePath {config : Config} {r : Renderer} {a : Artifact}
    (hoverrides : r.overrides = config.templateDir) (ha : a ∈ artifacts) {bytes : List UInt8}
    (h : r.override? a.template = some bytes) :
    ∃ p ∈ overridePaths config, r.files.read p = .ok bytes := by
  rw [Renderer.override?, nameComponents?_of_artifact ha, hoverrides] at h
  split at h
  · cases h
  · cases hdirectory : config.templateDir with
    | none => simp [hdirectory, Template.override?] at h
    | some directory =>
        simp only [hdirectory, Option.bind_some, Template.override?] at h
        split at h
        · cases h
        · rename_i hempty
          refine ⟨Template.overridePath directory [a.template],
            mem_overridePaths hdirectory hempty ha, ?_⟩
          cases hread : r.files.read (Template.overridePath directory [a.template]) with
          | error e => simp [hread, Except.toOption] at h
          | ok found =>
              rw [hread] at h
              exact congrArg Except.ok (Option.some.inj h)

namespace Alike

variable [OverrideLanguage] {fs : FileSystem} {config : Config} {o : Output}
  {keys : List (String × String)} {dry real : Renderer} {a : Artifact}

theorem override?_eq (h : Alike fs config o keys dry real) (ha : a ∈ artifacts) :
    real.override? a.template = dry.override? a.template := by
  rw [Renderer.override?, Renderer.override?, h.kept, nameComponents?_of_artifact ha, h.same,
    h.overrides, h.files]
  split
  · rfl
  · cases hdirectory : config.templateDir with
    | none => rfl
    | some directory =>
        simp only [Option.bind_some, Template.override?]
        split
        · rfl
        · rename_i hempty
          have hp := mem_overridePaths hdirectory hempty ha
          exact h.changes.read_eq (h.spares.not_writesTo h.links hp) (h.spares.reachable _ hp)

theorem render_eq (h : Alike fs config o keys dry real) (ha : a ∈ artifacts)
    (context : List (String × Data)) :
    real.render a.template context = dry.render a.template context := by
  rw [Renderer.render, Renderer.render, Renderer.find, Renderer.find, h.override?_eq ha]
  cases hoverride : dry.override? a.template with
  | none => rfl
  | some bytes =>
      obtain ⟨p, hp, hread⟩ := exists_overridePath h.overrides ha hoverride
      rw [h.files] at hread
      cases htext : Text.Utf8.decode bytes with
      | error e => simp only [htext]
      | ok text =>
          simp only [htext, h.files, h.spares.unread p hp bytes hread text htext _ h.changes]

theorem keep (h : Alike fs config o keys dry real) (ha : a ∈ artifacts) :
    Alike fs config o keys (dry.keep a.template) (real.keep a.template) := by
  refine ⟨h.spares, h.links, ?_, ?_, ?_, ?_, ?_⟩
  · rw [Renderer.overrides_keep, h.overrides]
  · rw [Renderer.overrides_keep, Renderer.overrides_keep, h.same]
  · rw [Renderer.keep, Renderer.keep, h.override?_eq ha]
    split
    · exact h.kept
    · exact congrArg (a.template :: ·) h.kept
  · rw [Renderer.files_keep, h.files]
  · rw [Renderer.files_keep]
    exact h.changes

theorem write (h : Alike fs config o keys dry real) {package fileName : String}
    (hkey : (package, fileName) ∈ keys) (content : String) :
    Alike fs config o keys dry
      { real with files := (o.write real.files package fileName content).1 } := by
  refine ⟨h.spares, h.links, h.overrides, h.same, h.kept, h.files, h.changes.trans ?_⟩
  refine (o.write_changes real.files package fileName content).mono ?_
  rintro location (rfl | ⟨p, hp, rfl⟩)
  · exact ⟨_, hkey, .inl (h.changes.resolved _)⟩
  · exact ⟨_, hkey, .inr ⟨p, hp, h.changes.resolved _⟩⟩

end Alike

section

variable [OverrideLanguage] {fs : FileSystem} {config : Config} {o : Output}
  {keys : List (String × String)} {dry real : Renderer}

theorem emit_alike (h : Alike fs config o keys dry real) {origin : String} {m : EntityModel}
    {a : Artifact} (ha : a ∈ artifacts) (hkey : (m.package, fileName config m a) ∈ keys)
    (hok : ∀ f, (emit config (some o) real origin m a).2 ≠ .error (.file f)) :
    (∃ e, emit config none dry origin m a = (dry, .error (.render e)) ∧
      emit config (some o) real origin m a = (real, .error (.render e))) ∨
    ∃ dry' real' file notices written,
      emit config none dry origin m a = (dry', .ok (file, [])) ∧
      emit config (some o) real origin m a = (real', .ok (written, notices)) ∧
      Alike fs config o keys dry' real' ∧ written.unwritten = file ∧
      Diagnostics.ofNotices notices = [] := by
  rw [emit] at hok
  rw [emit, emit]
  rw [h.render_eq ha] at hok ⊢
  cases hcontent : dry.render a.template (m.context (m.entity ++ a.suffix)) with
  | error e => exact .inl ⟨e, rfl, rfl⟩
  | ok content =>
      simp only [hcontent] at hok ⊢
      have hwritten := (h.keep ha).write hkey content
      rcases hwrite : o.write (real.keep a.template).files m.package (fileName config m a) content
        with ⟨fs', result⟩
      simp only [hwrite] at hok hwritten ⊢
      cases result with
      | error f => exact absurd rfl (hok f)
      | ok path => exact .inr ⟨_, _, _, _, _, rfl, rfl, hwritten, rfl, rfl⟩

theorem execute_alike {plan : List Step} (h : Alike fs config o keys dry real)
    (hplan : ∀ x ∈ emitted plan, x.2 ∈ artifacts ∧ (x.1.package, fileName config x.1 x.2) ∈ keys)
    (hok : ∀ f, (execute config (some o) real plan).result ≠ .error (.file f)) :
    (execute config (some o) real plan).result.map (List.map GeneratedFile.unwritten) =
        (execute config none dry plan).result ∧
      Diagnostics.ofNotices (execute config (some o) real plan).notices =
        Diagnostics.ofNotices (execute config none dry plan).notices := by
  induction plan generalizing dry real with
  | nil => exact ⟨rfl, rfl⟩
  | cons s plan ih =>
      cases s with
      | tell notice =>
          obtain ⟨hresult, hnotices⟩ := ih h hplan hok
          refine ⟨hresult, ?_⟩
          change Diagnostics.ofNotices ([notice] ++ (execute config (some o) real plan).notices) =
            Diagnostics.ofNotices ([notice] ++ (execute config none dry plan).notices)
          rw [Diagnostics.ofNotices_append, Diagnostics.ofNotices_append, hnotices]
      | emit origin m a =>
          obtain ⟨⟨ha, hkey⟩, hrest⟩ := List.forall_mem_cons.mp hplan
          rw [execute] at hok
          rw [execute, execute]
          have hemitted : ∀ f, (emit config (some o) real origin m a).2 ≠ .error (.file f) := by
            intro f hf
            rcases hemit : emit config (some o) real origin m a with ⟨real', result⟩
            rw [hemit] at hf
            subst hf
            exact hok f (by rw [hemit])
          rcases emit_alike h ha hkey hemitted with
            ⟨e, hdry, hreal⟩ |
            ⟨dry', real', file, notices, written, hdry, hreal, halike, rfl, hnone⟩
          · simp only [hdry, hreal]
            exact ⟨rfl, trivial⟩
          · simp only [hreal] at hok
            simp only [hdry, hreal]
            have hlater : ∀ f, (execute config (some o) real' plan).result ≠ .error (.file f) := by
              intro f hf
              exact hok f (by rw [hf]; rfl)
            obtain ⟨hresult, hnotices⟩ := ih halike hrest hlater
            refine ⟨?_, ?_⟩
            · rw [← hresult]
              cases (execute config (some o) real' plan).result <;> rfl
            · rw [Diagnostics.ofNotices_append, hnone, hnotices]
              rfl

theorem execute_dry_fs (r : Renderer) (plan : List Step) :
    (execute config none r plan).fs = r.files := by
  induction plan generalizing r with
  | nil => rfl
  | cons s plan ih =>
      cases s with
      | tell notice => exact ih r
      | emit origin m a =>
          rw [execute, emit]
          cases r.render a.template (m.context (m.entity ++ a.suffix)) with
          | error e => rfl
          | ok content => exact (ih (r.keep a.template)).trans (r.files_keep a.template)

end

def plannedFiles [OverrideLanguage] (fs : FileSystem) (config : Config) (entities : List Entity) :
    List (String × String) :=
  match (models fs config ⟨fs, config.templateDir, []⟩ (Schema.build entities) [] entities).2 with
  | .error _ => []
  | .ok built => takenKeys config (shares config [] built)

def Tables.unwritten (t : Tables) : Tables :=
  { t with files := t.files.map GeneratedFile.unwritten }

section

variable {fs : FileSystem} {config : Config} {o : Output} {entities : List Entity}
  {before : Diagnostics} {markers : List (String × List Entity)} {r : RoundResult}

theorem emitted_steps_planned {packages : List (String × String)}
    {built : List (Entity × EntityModel)} {x : EntityModel × Artifact}
    (hx : x ∈ emitted (steps config packages [] built)) :
    x.2 ∈ artifacts ∧
      (x.1.package, fileName config x.1 x.2) ∈ takenKeys config (shares config [] built) := by
  rw [steps_eq_flatMap, emitted_flatMap] at hx
  simp only [Share.emitted_steps] at hx
  obtain ⟨s, hs, hmem⟩ := List.mem_flatMap.mp hx
  rw [Share.modules] at hmem
  split at hmem
  · rename_i hnil
    obtain ⟨a, ha, rfl⟩ := List.mem_map.mp hmem
    refine ⟨ha, List.mem_flatMap.mpr ⟨s, hs, ?_⟩⟩
    rw [if_pos hnil]
    exact List.mem_map_of_mem ha
  · cases hmem

theorem generateTables_alike [OverrideLanguage]
    (hspares : Spares fs config o (plannedFiles fs config entities))
    (hlinks : ∀ link ∈ o.links, link.1.components.getLast? ≠ some "__init__.py")
    (hok : ∀ f, (generateTables fs config (some o) entities).result ≠ .error (.file f)) :
    (generateTables fs config (some o) entities).result.map Tables.unwritten =
        (generateTables fs config none entities).result ∧
      Diagnostics.ofNotices (generateTables fs config (some o) entities).notices =
        Diagnostics.ofNotices (generateTables fs config none entities).notices := by
  rw [plannedFiles] at hspares
  rcases hmodels : models fs config ⟨fs, config.templateDir, []⟩ (Schema.build entities) [] entities
    with ⟨notices, result⟩
  cases result with
  | error e =>
      rw [generateTables_of_error (some o) hmodels, generateTables_of_error none hmodels]
      exact ⟨rfl, rfl⟩
  | ok built =>
      rw [generateTables_of_built (some o) hmodels] at hok
      rw [generateTables_of_built (some o) hmodels, generateTables_of_built none hmodels]
      simp only [hmodels] at hspares
      have hstart : Alike fs config o _ ⟨fs, config.templateDir, []⟩ ⟨fs, config.templateDir, []⟩ :=
        ⟨hspares, hlinks, rfl, rfl, rfl, rfl, .refl _ fs⟩
      have hexecuted : ∀ f, (executed fs config (some o) built).result ≠ .error (.file f) := by
        intro f hf
        exact hok f (by rw [hf]; rfl)
      obtain ⟨hresult, hnotices⟩ :=
        execute_alike hstart (fun x hx => emitted_steps_planned hx) hexecuted
      constructor
      · rw [executed, executed, ← hresult]
        cases (execute config (some o) ⟨fs, config.templateDir, []⟩
          (steps config (packagesOf built) [] built)).result <;> rfl
      · rw [Diagnostics.ofNotices_append, executed, hnotices, ← Diagnostics.ofNotices_append,
          executed]

theorem generateTables_dry_fs [OverrideLanguage] (fs : FileSystem) (config : Config)
    (entities : List Entity) :
    (generateTables fs config none entities).fs = fs := by
  rcases hmodels : models fs config ⟨fs, config.templateDir, []⟩ (Schema.build entities) [] entities
    with ⟨notices, result⟩
  cases result with
  | error e => rw [generateTables_of_error none hmodels]
  | ok built =>
      rw [generateTables_of_built none hmodels]
      exact execute_dry_fs _ _

theorem runMarkers_dry_fs [OverrideLanguage] (fs : FileSystem) (config : Config)
    (markers : List (String × List Entity)) : (runMarkers fs config none markers).fs = fs :=
  runMarkers_composed (P := fun fs fs' _ => fs' = fs) (fun _ => rfl)
    (fun hfirst hnext => hnext.trans hfirst) (fun _ _ => rfl)
    (fun fs x _ _ => generateTables_dry_fs fs config x.2) fs

theorem run_dry_fs [OverrideLanguage] (fs : FileSystem) (config : Config) (before : Diagnostics)
    (markers : List (String × List Entity)) :
    (Round.run fs config none before markers).fs = fs := by
  rw [Round.run]
  split
  · exact runMarkers_dry_fs fs config markers
  · exact runMarkers_dry_fs fs config markers

theorem run_alike [OverrideLanguage] (hkeys : (markers.map Prod.fst).Nodup)
    (hspares : Spares fs config o (plannedFiles fs config (tableEntities config markers)))
    (hlinks : ∀ link ∈ o.links, link.1.components.getLast? ≠ some "__init__.py")
    (hok : ∀ f, (Round.run fs config (some o) before markers).result ≠ .error (.file f)) :
    (Round.run fs config (some o) before markers).result.map RoundResult.unwritten =
      (Round.run fs config none before markers).result := by
  rw [run_result] at hok
  rw [run_result, run_result]
  rcases Keyed.exists_split_of_nodup hkeys config.tableMarker with
    hnone | ⟨pre, entities, post, rfl, hpre, hpost, hlook⟩
  · obtain ⟨hreal, hrealNotices⟩ := runMarkers_other fs (some o) hnone
    obtain ⟨hdry, hdryNotices⟩ := runMarkers_other fs none hnone
    rw [hreal, hdry, hrealNotices, hdryNotices]
    rfl
  · obtain ⟨hreal, hrealNotices⟩ := runMarkers_table fs (some o) entities hpre hpost
    obtain ⟨hdry, hdryNotices⟩ := runMarkers_table fs none entities hpre hpost
    have hentities : tableEntities config (pre ++ (config.tableMarker, entities) :: post) =
        entities := by
      rw [tableEntities, hlook]
      rfl
    rw [hentities] at hspares
    have hgenerated : ∀ f, (generateTables fs config (some o) entities).result ≠
        .error (.file f) := by
      intro f hf
      exact hok f (by rw [hreal, hf]; rfl)
    obtain ⟨hresult, hnotices⟩ := generateTables_alike hspares hlinks hgenerated
    rw [hreal, hdry]
    cases hreal : (generateTables fs config (some o) entities).result with
    | error e =>
        rw [hreal] at hresult
        rw [← hresult]
        rfl
    | ok tables =>
        rw [hreal] at hresult
        rw [← hresult, hrealNotices tables hreal, hdryNotices _ hresult.symm, hnotices]
        rfl

theorem run_planned [OverrideLanguage] {target : Target} (hkeys : (markers.map Prod.fst).Nodup)
    (h : (Round.run fs config target before markers).result = .ok r) :
    r.files.map GeneratedFile.key = plannedFiles fs config (tableEntities config markers) := by
  obtain ⟨tables, problems, built, cs, -, -, hmade, -, hfiles, -⟩ := run_madeOf hkeys h
  rw [hfiles, hmade.tables, keys_of_complete hmade.complete, hmade.shares, plannedFiles,
    hmade.planned]

theorem run_paths [OverrideLanguage] {target : Target} (hkeys : (markers.map Prod.fst).Nodup)
    (h : (Round.run fs config target before markers).result = .ok r) {f : GeneratedFile}
    (hf : f ∈ r.files) : f.path = target.map (fun o => o.filePath f.package f.fileName) := by
  obtain ⟨tables, problems, built, cs, -, -, hmade, -, hfiles, -⟩ := run_madeOf hkeys h
  obtain ⟨m, a, hgenerated⟩ := hmade.exists_generated (hfiles ▸ hf)
  exact hgenerated.path

end

end Round

end TypedTables
