import TypedTables.Proofs.Round.Execution
import TypedTables.Proofs.Round.Models

namespace TypedTables

def GeneratedFile.key (f : GeneratedFile) : String × String :=
  (f.package, f.fileName)

namespace Round

structure Contribution extends Share where
  files : List GeneratedFile
  deriving DecidableEq, Repr

theorem exists_ok_of_map_eq_some {ε α β : Type} {result : Except ε α} {f : α → β} {b : β}
    (h : result.toOption.map f = some b) : ∃ a, result = .ok a ∧ f a = b := by
  cases result with
  | error e => cases h
  | ok a => exact ⟨a, rfl, Option.some.inj h⟩

theorem errors_linkNotices (packages : List (String × String)) (e : Entity) (m : EntityModel)
    (c : Column) : (Diagnostics.ofNotices (linkNotices packages e m c)).errors = [] := by
  rw [linkNotices]
  split
  · rfl
  · split
    · rfl
    · split <;> rfl

namespace Contribution

variable {config : Config} {r : Renderer} {target : Target} {c : Contribution}

structure Complete [OverrideLanguage] (config : Config) (r : Renderer) (target : Target)
    (c : Contribution) : Prop where
  kept : c.owners = [] → List.Forall₂ (Generated config r target c.model) artifacts c.files
  skipped : c.owners ≠ [] → c.files = []

/-- The one error that reports an entity without files. It names the holders of its files. -/
def clashes (c : Contribution) : Diagnostics :=
  let e := c.entity
  let names := String.intercalate ", " c.owners
  if c.files = [] then
    [⟨.error,
      s!"Generated files of {e.qualifiedName} in {c.model.package} clash with those of {names}; " ++
        "not generated", some e.simpleName, none⟩]
  else []

theorem Complete.keys [OverrideLanguage] (h : c.Complete config r target) :
    c.files.map GeneratedFile.key = if c.owners = [] then fileKeys config c.model else [] := by
  by_cases hnil : c.owners = []
  · have hkeys : ∀ {as files}, List.Forall₂ (Generated config r target c.model) as files →
        files.map GeneratedFile.key =
          as.map (fun a => (c.model.package, fileName config c.model a)) := by
      intro as files hall
      induction hall with
      | nil => rfl
      | cons hf _ ih => simp [ih, GeneratedFile.key, hf.package, hf.fileName]
    rw [if_pos hnil]
    exact hkeys (h.kept hnil)
  · rw [if_neg hnil, h.skipped hnil, List.map_nil]

theorem Complete.files_eq_nil [OverrideLanguage] (h : c.Complete config r target) :
    c.files = [] ↔ c.owners ≠ [] := by
  constructor
  · intro hfiles hnil
    have hall := h.kept hnil
    rw [hfiles] at hall
    cases hall
  · exact h.skipped

theorem Complete.errors_notices [OverrideLanguage] (h : c.Complete config r target)
    (packages : List (String × String)) :
    (Diagnostics.ofNotices (c.notices packages)).errors = c.clashes := by
  have hlinks : (Diagnostics.ofNotices
      (c.model.columns.flatMap (linkNotices packages c.entity c.model))).errors = [] := by
    rw [Diagnostics.ofNotices_flatMap, Diagnostics.errors_flatMap]
    simp [errors_linkNotices]
  rw [Share.notices, Diagnostics.ofNotices_append, Diagnostics.errors_append, hlinks,
    List.nil_append]
  by_cases hnil : c.owners = []
  · have hfiles : c.files ≠ [] := mt h.files_eq_nil.mp (not_not.mpr hnil)
    simp [clashes, hnil, hfiles]
  · simp [clashes, hnil, h.skipped hnil, clashNotice]

end Contribution

theorem exists_of_forall₂_append {α β : Type} {R : α → β → Prop} {xs ys : List α} {zs : List β}
    (h : List.Forall₂ R (xs ++ ys) zs) :
    ∃ zs₁ zs₂, List.Forall₂ R xs zs₁ ∧ List.Forall₂ R ys zs₂ ∧ zs = zs₁ ++ zs₂ := by
  have hxs := List.forall₂_take xs.length h
  have hys := List.forall₂_drop xs.length h
  rw [List.take_left] at hxs
  rw [List.drop_left] at hys
  exact ⟨_, _, hxs, hys, (List.take_append_drop xs.length zs).symm⟩

theorem contributions_of_files [OverrideLanguage] {config : Config} {r : Renderer} {target : Target}
    {ss : List Share} {files : List GeneratedFile}
    (h : List.Forall₂ (fun x f => Generated config r target x.1 x.2 f) (ss.flatMap Share.modules)
      files) :
    ∃ cs : List Contribution, cs.map Contribution.toShare = ss ∧
      (∀ c ∈ cs, c.Complete config r target) ∧ files = cs.flatMap (fun c => c.files) := by
  induction ss generalizing files with
  | nil =>
      cases h
      exact ⟨[], rfl, by simp, rfl⟩
  | cons s ss ih =>
      rw [List.flatMap_cons] at h
      obtain ⟨own, rest, hown, hrest, rfl⟩ := exists_of_forall₂_append h
      obtain ⟨cs, hshares, hcomplete, rfl⟩ := ih hrest
      refine ⟨⟨s, own⟩ :: cs, by simp [hshares], ?_, rfl⟩
      intro c hc
      rcases List.mem_cons.mp hc with rfl | hc
      · constructor
        · intro hnil
          rw [Share.modules, if_pos hnil, List.forall₂_map_left_iff] at hown
          exact hown
        · intro hne
          rw [Share.modules, if_neg hne] at hown
          exact List.forall₂_nil_left_iff.mp hown
      · exact hcomplete c hc

def packagesOf (built : List (Entity × EntityModel)) : List (String × String) :=
  Keyed.ofList (built.map (fun (_, m) => (m.qualifiedName, m.package)))

def openingNotices (entities : List Entity) : List Notice :=
  .info .round s!"Processing {entities.length} elements..." :: Schema.notices entities

theorem ofNotices_openingNotices (entities : List Entity) :
    Diagnostics.ofNotices (openingNotices entities) = [] := by
  simp [openingNotices, Schema.notices, Diagnostics.ofNotices, Notice.info, Notice.diagnostic?]

def executed [OverrideLanguage] (fs : FileSystem) (config : Config) (target : Target)
    (built : List (Entity × EntityModel)) : Execution :=
  execute config target ⟨fs, config.templateDir, []⟩ (steps config (packagesOf built) [] built)

section

variable [OverrideLanguage] {fs : FileSystem} {config : Config} {entities : List Entity}
  {told : List Notice}

theorem generateTables_of_error {error : RenderError} (target : Target)
    (h : models fs config ⟨fs, config.templateDir, []⟩ (Schema.build entities) [] entities =
      (told, .error error)) :
    generateTables fs config target entities =
      ⟨fs, openingNotices entities ++ told, .error (.render error)⟩ := by
  rw [generateTables, h]
  rfl

theorem generateTables_of_built {built : List (Entity × EntityModel)}
    (target : Target)
    (h : models fs config ⟨fs, config.templateDir, []⟩ (Schema.build entities) [] entities =
      (told, .ok built)) :
    generateTables fs config target entities =
      ⟨(executed fs config target built).fs,
        openingNotices entities ++ told ++ (executed fs config target built).notices,
        (executed fs config target built).result.map
          (fun files => ⟨Schema.build entities, built.map Prod.snd, files⟩)⟩ := by
  rw [generateTables, h]
  rfl

theorem generateTables_ok {target : Target} {tables : Tables}
    (h : (generateTables fs config target entities).result = .ok tables) :
    ∃ notices built files,
      models fs config ⟨fs, config.templateDir, []⟩ (Schema.build entities) [] entities =
        (notices, .ok built) ∧
      (executed fs config target built).result = .ok files ∧
      tables = ⟨Schema.build entities, built.map Prod.snd, files⟩ ∧
      (generateTables fs config target entities).notices =
        openingNotices entities ++ notices ++ (executed fs config target built).notices := by
  rcases hmodels : models fs config ⟨fs, config.templateDir, []⟩ (Schema.build entities) []
    entities with ⟨notices, result⟩
  cases result with
  | error error =>
      rw [generateTables_of_error target hmodels] at h
      cases h
  | ok built =>
      rw [generateTables_of_built target hmodels] at h ⊢
      cases hfiles : (executed fs config target built).result with
      | error f => simp [hfiles, Except.map] at h
      | ok files =>
          rw [hfiles] at h
          exact ⟨notices, built, files, rfl, hfiles, (Except.ok.inj h).symm, rfl⟩

end

/-- What a completed round is made of: its models, one contribution for each, and the problems of
both. -/
structure MadeOf [OverrideLanguage] (fs : FileSystem) (config : Config) (target : Target)
    (entities : List Entity) (tables : Tables) (problems : Diagnostics)
    (built : List (Entity × EntityModel)) (cs : List Contribution) : Prop where
  order : built.map Prod.fst = entities
  planned : (Round.models fs config ⟨fs, config.templateDir, []⟩ (Schema.build entities) []
    entities).2 = .ok built
  models : ∀ p ∈ built, BuiltFrom fs config (Schema.build entities) p.1 p.2
  shares : cs.map Contribution.toShare = shares config [] built
  complete : ∀ c ∈ cs, c.Complete config ⟨fs, config.templateDir, []⟩ target
  tables : tables = ⟨Schema.build entities, built.map Prod.snd, cs.flatMap (fun c => c.files)⟩
  problems : ∃ own, problems = own ++
      cs.flatMap (fun c => Diagnostics.ofNotices (c.notices (packagesOf built))) ∧
    own.errors = built.flatMap (fun p => (ownProblems config p.1 p.2).errors)

theorem madeOf_ok [OverrideLanguage] {fs : FileSystem} {config : Config} {target : Target}
    {entities : List Entity} {tables : Tables}
    (h : (generateTables fs config target entities).result = .ok tables) :
    ∃ built cs, MadeOf fs config target entities tables
      (Diagnostics.ofNotices (generateTables fs config target entities).notices) built cs := by
  obtain ⟨notices, built, files, hmodels, hexecute, rfl, hnotices⟩ := generateTables_ok h
  obtain ⟨horder, hbuilt, hown⟩ := models_ok hmodels
  obtain ⟨hfiles, htold⟩ := execute_ok hexecute
  rw [steps_eq_flatMap, emitted_flatMap] at hfiles
  simp only [Share.emitted_steps] at hfiles
  obtain ⟨cs, hshares, hcomplete, rfl⟩ := contributions_of_files hfiles
  refine ⟨built, cs, horder, congrArg Prod.snd hmodels, hbuilt, hshares, hcomplete, rfl,
    Diagnostics.ofNotices notices, ?_, hown⟩
  rw [hnotices, Diagnostics.ofNotices_append, Diagnostics.ofNotices_append,
    ofNotices_openingNotices, List.nil_append, executed, htold, steps_eq_flatMap, told_flatMap,
    Diagnostics.ofNotices_flatMap, ← hshares, List.flatMap_map]
  simp only [Share.told_steps]

namespace MadeOf

variable [OverrideLanguage] {fs : FileSystem} {config : Config} {target : Target}
  {entities : List Entity} {tables : Tables} {problems : Diagnostics}
  {built : List (Entity × EntityModel)} {cs : List Contribution}

theorem pairs (h : MadeOf fs config target entities tables problems built cs) :
    cs.map (fun c => (c.entity, c.model)) = built := by
  rw [← map_shares config [] built, ← h.shares, List.map_map]
  rfl

theorem exists_generated (h : MadeOf fs config target entities tables problems built cs)
    {f : GeneratedFile} (hf : f ∈ tables.files) :
    ∃ m a, Generated config ⟨fs, config.templateDir, []⟩ target m a f := by
  rw [h.tables] at hf
  obtain ⟨c, hc, hf⟩ := List.mem_flatMap.mp hf
  have howners : c.owners = [] := by
    by_contra hne
    rw [(h.complete c hc).skipped hne] at hf
    cases hf
  have hall := (h.complete c hc).kept howners
  obtain ⟨i, hi, rfl⟩ := List.getElem_of_mem hf
  exact ⟨c.model, _, hall.get (hall.length_eq ▸ hi) hi⟩

theorem errors (h : MadeOf fs config target entities tables problems built cs) :
    problems.errors = built.flatMap (fun p => (ownProblems config p.1 p.2).errors) ++
      cs.flatMap Contribution.clashes := by
  obtain ⟨own, rfl, hown⟩ := h.problems
  rw [Diagnostics.errors_append, hown, Diagnostics.errors_flatMap]
  congr 1
  apply List.flatMap_congr
  intro c hc
  exact (h.complete c hc).errors_notices (packagesOf built)

end MadeOf

end Round

end TypedTables
