import TypedTables.CommandLine.Run
import TypedTables.Proofs.Classification
import TypedTables.Proofs.Round.DryRun
import TypedTables.Proofs.Scan

/-!
What a dry run says about a real one. It changes no file, and the real run has the same result but
for the paths of its files, as long as it does not meddle with the templates that it uses. So all
commands that generate once end with one exit code.
-/

namespace TypedTables

open Round CommandLine

def Config.output (config : Config) : Output :=
  { directory := Path.ofText config.outputDir, links := processLinks }

/-- The files that generation from sources generates if nothing fails: package and file name. -/
def plannedKeys [OverrideLanguage] (fs : FileSystem) (config : Config) (roots : List Path) :
    List (String × String) :=
  let roots := if roots.isEmpty then config.sourceRoots.map Path.ofText else roots
  match (Source.collect fs config.markersNamespace config.ignoreFile [] roots).2 with
  | .error _ => []
  | .ok markers => plannedFiles fs config (tableEntities config markers)

structure Describes (r : RoundResult) (described : List (EntityModel × String)) : Prop where
  models : described.map Prod.fst = r.models
  classified : ∀ p ∈ described, ∃ schema c, r.schema = some schema ∧
    schema.classify p.1.qualifiedName = some c ∧ p.2 = c.label ∧
      (c = .nested ↔ p.1.isNested = true)

def exitCode [OverrideLanguage] (s : Surroundings) (request : Request) (command : Command) : Nat :=
  (startRequest s { request with command := command }).finish.code

/-- A request whose configuration is the given one, if it can be loaded, and that nobody
interrupts. -/
structure Asks (fs : FileSystem) (config : Config) (s : Surroundings) (request : Request) :
    Prop where
  files : s.fs = fs
  uninterrupted : s.interrupted = false
  loads : ∀ loaded, Config.load fs request.config? s.configFile? = .ok loaded →
    request.override loaded = config

/-- No write of a real run fails. -/
def Writes [OverrideLanguage] (fs : FileSystem) (config : Config) (roots : List Path) : Prop :=
  ∀ f, (generate fs config roots false).result ≠ .error (.round (.file f))

/-- What a dry run says about the real run from the same files. Commands name no roots of their own,
for these are part of their configuration. -/
structure Predicts [OverrideLanguage] (fs : FileSystem) (config : Config) (roots : List Path)
    : Prop where
  unchanged : (generate fs config roots true).fs = fs
  planned : ∀ r, (generate fs config roots true).result = .ok r →
    r.files.map GeneratedFile.key = plannedKeys fs config roots
  described : ∀ r, (generate fs config roots true).result = .ok r → Describes r (describe r)
  same : Writes fs config roots →
    (generate fs config roots false).result.map RoundResult.unwritten =
      (generate fs config roots true).result
  paths : ∀ r, (generate fs config roots false).result = .ok r → ∀ f ∈ r.files,
    f.path = some (config.output.filePath f.package f.fileName)
  codes : roots = [] → Writes fs config roots → ∀ s request, Asks fs config s request →
    ∀ dry asJson,
      exitCode s request (.generate dry) = exitCode s request (.schema asJson)

theorem processLinks_apart (config : Config) : ∀ link ∈ config.output.links,
    link.1.components.getLast? ≠ some "__init__.py" := by
  change ∀ link ∈ processLinks, _
  decide

def codeOf : Except GenerateError RoundResult → Nat
  | .error _ => 1
  | .ok r => roundCode r

theorem codeOf_unwritten (result : Except GenerateError RoundResult) :
    codeOf (result.map RoundResult.unwritten) = codeOf result := by
  cases result <;> rfl

section

variable [OverrideLanguage] {fs : FileSystem} {config : Config} {roots : List Path}

theorem generate_cases (fs : FileSystem) (config : Config) (roots : List Path) :
    (∃ e, ∀ dry, (generate fs config roots dry).result = .error (.scan e) ∧
      (generate fs config roots dry).fs = fs) ∨
    ∃ before markers, (markers.map Prod.fst).Nodup ∧
      plannedKeys fs config roots = plannedFiles fs config (tableEntities config markers) ∧
      ∀ dry,
        let round := Round.run fs config (config.target dry processLinks) before markers
        (generate fs config roots dry).result = round.result.mapError .round ∧
          (generate fs config roots dry).fs = round.fs := by
  simp only [generate, plannedKeys]
  rcases hcollect : Source.collect fs config.markersNamespace config.ignoreFile []
    (if roots.isEmpty then config.sourceRoots.map Path.ofText else roots) with ⟨notices, result⟩
  cases result with
  | error e => exact .inl ⟨e, fun _ => ⟨rfl, rfl⟩⟩
  | ok markers =>
      have hkeys := Source.nodup_collect (by simp) (congrArg Prod.snd hcollect)
      exact .inr ⟨_, markers, hkeys, rfl, fun _ => ⟨rfl, rfl⟩⟩

theorem generate_ok {dry : Bool} {r : RoundResult}
    (h : (generate fs config roots dry).result = .ok r) :
    ∃ before markers, (markers.map Prod.fst).Nodup ∧
      plannedKeys fs config roots = plannedFiles fs config (tableEntities config markers) ∧
      (Round.run fs config (config.target dry processLinks) before markers).result = .ok r := by
  rcases generate_cases fs config roots with
    ⟨e, hfailed⟩ | ⟨before, markers, hkeys, hplanned, hround⟩
  · rw [(hfailed dry).1] at h
    cases h
  · rw [(hround dry).1] at h
    refine ⟨before, markers, hkeys, hplanned, ?_⟩
    cases hresult :
        (Round.run fs config (config.target dry processLinks) before markers).result with
    | error e =>
        rw [hresult] at h
        cases h
    | ok result =>
        rw [hresult] at h
        exact congrArg Except.ok (Except.ok.inj h)

theorem describes_of_run {target : Target} {before : Diagnostics}
    {markers : List (String × List Entity)} {r : RoundResult}
    (h : (Round.run fs config target before markers).result = .ok r) :
    Describes r (describe r) := by
  refine ⟨by simp [describe, Function.comp_def], ?_⟩
  intro p hp
  obtain ⟨m, hm, rfl⟩ := List.mem_map.mp hp
  obtain ⟨tables?, hmarkers, rfl⟩ := run_ok h
  cases tables? with
  | none => cases hm
  | some tables =>
      obtain ⟨fs', entities, htables⟩ := exists_generateTables hmarkers
      obtain ⟨built, cs, hmade⟩ := madeOf_ok htables
      obtain rfl := hmade.tables
      obtain ⟨⟨e, m⟩, hbuilt, rfl⟩ := List.mem_map.mp hm
      have hfrom := hmade.models (e, m) hbuilt
      have hknown : e.qualifiedName ∈ candidateNames entities := by
        rw [candidateNames, ← hmade.order]
        exact List.mem_map_of_mem (List.mem_map_of_mem hbuilt)
      have hclass : (Schema.build entities).classify m.qualifiedName =
          some (if e.qualifiedName ∈ Schema.referencedIdentities entities then .nested
            else .topLevel) := by
        rw [hfrom.qualifiedName, Schema.classify_build, if_pos hknown]
      refine ⟨Schema.build entities, _, rfl, hclass, ?_, ?_⟩
      · simp only [resultOf, Option.map_some, Option.bind_some, hclass, Option.getD_some]
      · rw [hfrom.isNested, Schema.isNested_build]
        by_cases href : e.qualifiedName ∈ Schema.referencedIdentities entities <;>
          simp [href, hknown]

theorem code_runGenerate (fs : FileSystem) (config : Config) (log : Logging) (dry : Bool) :
    (runGenerate fs config log dry).code = codeOf (generate fs config [] dry).result := by
  rw [runGenerate]
  cases (generate fs config [] dry).result <;> rfl

theorem code_runSchema (fs : FileSystem) (config : Config) (log : Logging) (asJson : Bool) :
    (runSchema fs config log asJson).code = codeOf (generate fs config [] true).result := by
  rw [runSchema]
  cases (generate fs config [] true).result <;> rfl

theorem exitCode_eq {s : Surroundings} {request : Request} (h : Asks fs config s request)
    {code : Nat} {command : Command}
    (hcode : ∀ log, (startCommand s config log command).finish.code = code) :
    exitCode s request command =
      match Config.load fs request.config? s.configFile? with
      | .error _ => 1
      | .ok _ => if (LogFormat.ofText? config.logging.format).isSome then code else 1 := by
  rw [exitCode, startRequest, h.files]
  cases hload : Config.load fs request.config? s.configFile? with
  | error e => rfl
  | ok loaded =>
      have hconfig : ({ request with command := command } : Request).override loaded = config :=
        h.loads loaded hload
      simp only [hconfig]
      cases LogFormat.ofText? config.logging.format with
      | none => rfl
      | some format => exact hcode _

theorem generate_dry_fs (fs : FileSystem) (config : Config) (roots : List Path) :
    (generate fs config roots true).fs = fs := by
  rcases generate_cases fs config roots with ⟨e, hfailed⟩ | ⟨before, markers, -, -, hround⟩
  · exact (hfailed true).2
  · rw [(hround true).2]
    exact run_dry_fs fs config before markers

/-- If no write fails, a real run has the result of the dry run but for the paths of its files. -/
theorem generate_unwritten (hspares : Spares fs config config.output (plannedKeys fs config roots))
    (hwrites : Writes fs config roots) :
    (generate fs config roots false).result.map RoundResult.unwritten =
      (generate fs config roots true).result := by
  rcases generate_cases fs config roots with
    ⟨e, hfailed⟩ | ⟨before, markers, hkeys, hplanned, hround⟩
  · rw [(hfailed true).1, (hfailed false).1]
    rfl
  · have hok : ∀ f, (Round.run fs config (some config.output) before markers).result ≠
        .error (.file f) := by
      intro f hf
      exact hwrites f (by rw [(hround false).1]; exact congrArg (Except.mapError _) hf)
    have hsame := run_alike hkeys (hplanned ▸ hspares) (processLinks_apart config) hok
    rw [(hround false).1, (hround true).1]
    change ((Round.run fs config (some config.output) before markers).result.mapError _).map _ =
      (Round.run fs config none before markers).result.mapError _
    rw [← hsame]
    cases (Round.run fs config (some config.output) before markers).result <;> rfl

/-- A dry run predicts the real run, if writing the planned files spares the overrides of
templates. -/
theorem dry_run_predicts
    (hspares : Spares fs config config.output (plannedKeys fs config roots)) :
    Predicts fs config roots := by
  constructor
  case unchanged => exact generate_dry_fs fs config roots
  case planned =>
    intro r hr
    obtain ⟨before, markers, hkeys, hplanned, hround⟩ := generate_ok hr
    rw [hplanned]
    exact run_planned hkeys hround
  case described =>
    intro r hr
    obtain ⟨before, markers, -, -, hround⟩ := generate_ok hr
    exact describes_of_run hround
  case same => exact generate_unwritten hspares
  case paths =>
    intro r hr f hf
    obtain ⟨before, markers, hkeys, -, hround⟩ := generate_ok hr
    exact run_paths hkeys hround hf
  case codes =>
    rintro rfl hwrites s request hasks dry asJson
    have hsame : codeOf (generate fs config [] dry).result =
        codeOf (generate fs config [] true).result := by
      cases dry with
      | true => rfl
      | false => rw [← generate_unwritten hspares hwrites, codeOf_unwritten]
    have hgenerate : ∀ log, (startCommand s config log (.generate dry)).finish.code =
        codeOf (generate fs config [] true).result := by
      intro log
      rw [startCommand, hasks.uninterrupted, hasks.files]
      exact (code_runGenerate fs config log dry).trans hsame
    have hschema : ∀ log, (startCommand s config log (.schema asJson)).finish.code =
        codeOf (generate fs config [] true).result := by
      intro log
      rw [startCommand, hasks.files]
      exact code_runSchema fs config log asJson
    rw [exitCode_eq hasks hgenerate, exitCode_eq hasks hschema]

end

def doghouse : FileSystem :=
  let text (s : String) : FileTree := .file (Text.Utf8.encode s)
  ⟨.dir [
    ("templates", .dir [("cursor.py.j2", text "class \x7b\x7b name \x7d\x7d: pass\n")]),
    ("zoo", .dir [
      ("__init__.py", text ""),
      ("dog.py", text "from tablegen.markers import table\n@table\nclass Dog:\n    age: int\n")])],
    [], []⟩

def withContent (content : String) (r : RoundResult) : List Bool :=
  r.files.map (fun f => decide (f.content = content))

theorem unwritten_ne_of_withContent {content : String} {dry real : RoundResult}
    (h : withContent content real ≠ withContent content dry) : real.unwritten ≠ dry := by
  rintro rfl
  refine h ?_
  rw [withContent, withContent, RoundResult.unwritten, List.map_map]
  rfl

def overridesIn (directory : String) : Config := { templateDir := some directory }

theorem dry_run_predicts_doghouse :
    Spares doghouse (overridesIn "templates") (overridesIn "templates").output
        (plannedKeys doghouse (overridesIn "templates") []) ∧
      Writes doghouse (overridesIn "templates") [] ∧
      (∃ r, (generate doghouse (overridesIn "templates") [] false).result = .ok r ∧
        withContent "class Dog: pass\n" r = [false, true, false, false]) ∧
      Predicts doghouse (overridesIn "templates") [] := by
  have hspares : Spares doghouse (overridesIn "templates") (overridesIn "templates").output
      (plannedKeys doghouse (overridesIn "templates") []) :=
    ⟨by decide +kernel, by decide +kernel, fun _ _ _ _ _ _ _ _ => rfl⟩
  have hreal : (generate doghouse (overridesIn "templates") [] false).result.toOption.map
      (withContent "class Dog: pass\n") = some [false, true, false, false] := by decide +kernel
  obtain ⟨r, hresult, hfiles⟩ := exists_ok_of_map_eq_some hreal
  have hwrites : Writes doghouse (overridesIn "templates") [] := by
    intro f hf
    rw [hresult] at hf
    cases hf
  exact ⟨hspares, hwrites, ⟨r, hresult, hfiles⟩, dry_run_predicts hspares⟩

/-- No generated file takes the place of an override. -/
abbrev SparesOverrides (fs : FileSystem) (config : Config) (keys : List (String × String)) : Prop :=
  ∀ p ∈ overridePaths config, ∀ key ∈ keys,
    fs.resolved (config.output.leads (config.output.filePath key.1 key.2)) ≠ fs.resolved p

/-- The dry run and the real run complete with results that differ in more than paths. -/
def Misses [OverrideLanguage] (fs : FileSystem) (config : Config) : Prop :=
  ∃ dry real, (generate fs config [] true).result = .ok dry ∧
    (generate fs config [] false).result = .ok real ∧ real.unwritten ≠ dry

theorem misses_of_withContent [OverrideLanguage] {fs : FileSystem} {config : Config}
    (content : String) (before after : List Bool) (hne : after ≠ before)
    (hdry : (generate fs config [] true).result.toOption.map (withContent content) = some before)
    (hreal : (generate fs config [] false).result.toOption.map (withContent content) =
      some after) : Misses fs config := by
  obtain ⟨dry, hdryResult, rfl⟩ := exists_ok_of_map_eq_some hdry
  obtain ⟨real, hrealResult, rfl⟩ := exists_ok_of_map_eq_some hreal
  exact ⟨dry, real, hdryResult, hrealResult, unwritten_ne_of_withContent hne⟩

/-- A language whose texts name a file, and tell whether it is there. -/
@[reducible]
def lookingUp : OverrideLanguage where
  fill fs text _ := .ok (if fs.contains (Path.ofText text) then "there" else "")

def lookout : FileSystem :=
  let text (s : String) : FileTree := .file (Text.Utf8.encode s)
  ⟨.dir [
    ("templates", .dir [("cursor.py.j2", text "generated/zoo/generated/DogTable.py")]),
    ("zoo", .dir [
      ("__init__.py", text ""),
      ("dog.py", text "from tablegen.markers import table\n@table\nclass Dog:\n    age: int\n")])],
    [], []⟩

/-- It is not enough that no file takes the place of an override. A path to the overrides that leads
through the output directory is not open before that is made, so only the real run finds them; and
an override that reads a generated file finds it only in the real run. -/
theorem dry_run_misses_override :
    ('/' ∉ (overridesIn "generated/../templates").fileExtension.toList ∧
      SparesOverrides doghouse (overridesIn "generated/../templates")
        (plannedKeys doghouse (overridesIn "generated/../templates") []) ∧
      Misses doghouse (overridesIn "generated/../templates")) ∧
    ('/' ∉ (overridesIn "templates").fileExtension.toList ∧
      SparesOverrides lookout (overridesIn "templates")
        (@plannedKeys lookingUp lookout (overridesIn "templates") []) ∧
      @Misses lookingUp lookout (overridesIn "templates")) := by
  refine ⟨⟨by decide +kernel, by decide +kernel, ?_⟩, by decide +kernel, by decide +kernel, ?_⟩
  · exact misses_of_withContent "class Dog: pass\n" [false, false, false, false]
      [false, true, false, false] (by decide) (by decide +kernel) (by decide +kernel)
  · exact @misses_of_withContent lookingUp _ _ "there" [false, false, false, false]
      [false, true, false, false] (by decide) (by decide +kernel) (by decide +kernel)

end TypedTables
