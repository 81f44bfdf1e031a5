import TypedTables.Proofs.Classification
import TypedTables.Proofs.Round.Parts

/-!
The order of entities. If no two entities need one file, a dry round over them in another order
gives each entity the same verdict, model, files and problems.
-/

namespace TypedTables

open Text

theorem Schema.agrees_build_of_perm {entities entities' : List Entity}
    (h : entities'.Perm entities) : (Schema.build entities').Agrees (Schema.build entities) := by
  intro name
  have hnames : name ∈ candidateNames entities' ↔ name ∈ candidateNames entities :=
    (h.map Entity.qualifiedName).mem_iff
  have hreferences : name ∈ referencedIdentities entities' ↔
      name ∈ referencedIdentities entities :=
    (h.flatMap_right _).mem_iff
  simp only [classify_build, hnames, hreferences]

namespace Round

def outputs (config : Config) (e : Entity) : List (String × String) :=
  artifacts.map (fun a => ((e.targetPackage config.packageRule).1,
    capitalize e.simpleName ++ a.suffix ++ config.fileExtension))

def Apart (config : Config) (entities : List Entity) : Prop :=
  entities.Pairwise (fun e other => ∀ key ∈ outputs config e, key ∉ outputs config other)

instance (config : Config) (entities : List Entity) : Decidable (Apart config entities) :=
  inferInstanceAs (Decidable (List.Pairwise _ _))

theorem Apart.perm {config : Config} {entities entities' : List Entity}
    (h : Apart config entities) (hperm : entities'.Perm entities) : Apart config entities' := by
  refine hperm.symm.pairwise h ?_
  intro e other hapart key hother he
  exact hapart key he hother

theorem fileKeys_of_modelOf [OverrideLanguage] {fs : FileSystem} {config : Config} {schema : Schema}
    {e : Entity} {m : EntityModel} (h : modelOf fs config schema e = .ok m) :
    fileKeys config m = outputs config e := by
  obtain ⟨hentity, -, -, hpackage, -⟩ := EntityModel.build_ok h
  simp only [fileKeys, outputs, fileName, hentity, hpackage]

theorem key_of_fileOf [OverrideLanguage] {fs : FileSystem} {config : Config} {m : EntityModel}
    {a : Artifact} {f : GeneratedFile} (h : fileOf fs config m a = .ok f) :
    f.key = (m.package, fileName config m a) := by
  rw [fileOf] at h
  cases hcontent : Renderer.render ⟨fs, config.templateDir, []⟩ a.template
      (m.context (m.entity ++ a.suffix)) with
  | error e => simp [hcontent, Except.map] at h
  | ok content =>
      rw [hcontent] at h
      obtain rfl := Except.ok.inj h
      rfl

theorem shares_of_apart {config : Config} {claims : Claims} {built : List (Entity × EntityModel)}
    (hfree : ∀ p ∈ built, ∀ key ∈ fileKeys config p.2, claims.lookup key = none)
    (hapart : built.Pairwise
      (fun p q => ∀ key ∈ fileKeys config p.2, key ∉ fileKeys config q.2)) :
    shares config claims built = built.map (fun p => ⟨p.1, p.2, []⟩) := by
  induction built generalizing claims with
  | nil => rfl
  | cons p built ih =>
      obtain ⟨e, m⟩ := p
      obtain ⟨hfirst, hrest⟩ := List.forall_mem_cons.mp hfree
      obtain ⟨hothers, hlater⟩ := List.pairwise_cons.mp hapart
      have hnone : owners claims (fileKeys config m) = [] := owners_eq_nil.mpr hfirst
      -- No later entity needs a file that this one claims.
      have hnext : ∀ q ∈ built, ∀ key ∈ fileKeys config q.2,
          (claim claims (fileKeys config m) e.qualifiedName).lookup key = none := by
        intro q hq key hkey
        rw [lookup_claim, if_neg (fun hmem => hothers q hq key hmem hkey)]
        exact hrest q hq key hkey
      rw [shares]
      simp only [hnone, ite_true, ih hnext hlater, List.map_cons]

structure Parts [OverrideLanguage] (fs : FileSystem) (config : Config) (entities : List Entity)
    (model : Entity → EntityModel) (file : EntityModel → Artifact → GeneratedFile) : Prop where
  models : ∀ e ∈ entities, modelOf fs config (Schema.build entities) e = .ok (model e)
  files : ∀ e ∈ entities, ∀ a ∈ artifacts, fileOf fs config (model e) a = .ok (file (model e) a)

section

variable {fs : FileSystem} {config : Config} {entities entities' : List Entity}
  {model : Entity → EntityModel} {file : EntityModel → Artifact → GeneratedFile}

theorem Parts.perm [OverrideLanguage] (h : Parts fs config entities model file)
    (hperm : entities'.Perm entities) :
    Parts fs config entities' model file where
  models := by
    intro e he
    rw [modelOf_congr (Schema.agrees_build_of_perm hperm)]
    exact h.models e (hperm.mem_iff.mp he)
  files := fun e he => h.files e (hperm.mem_iff.mp he)

theorem shares_of_parts [OverrideLanguage] (hmodel : ∀ e ∈ entities,
      modelOf fs config (Schema.build entities) e = .ok (model e))
    (hapart : Apart config entities) :
    shares config [] (entities.map (fun e => (e, model e))) =
      entities.map (fun e => ⟨e, model e, []⟩) := by
  have hpairs : (entities.map (fun e => (e, model e))).Pairwise
      (fun p q => ∀ key ∈ fileKeys config p.2, key ∉ fileKeys config q.2) := by
    rw [List.pairwise_map]
    refine hapart.imp_of_mem ?_
    intro e other he hother hkeys
    rwa [fileKeys_of_modelOf (hmodel e he), fileKeys_of_modelOf (hmodel other hother)]
  rw [shares_of_apart (fun _ _ _ _ => rfl) hpairs, List.map_map]
  rfl

theorem emitted_of_parts [OverrideLanguage] (hmodel : ∀ e ∈ entities,
      modelOf fs config (Schema.build entities) e = .ok (model e))
    (hapart : Apart config entities) (packages : List (String × String)) :
    emitted (steps config packages [] (entities.map (fun e => (e, model e)))) =
      entities.flatMap (fun e => artifacts.map (model e, ·)) := by
  rw [steps_eq_flatMap, emitted_flatMap, shares_of_parts hmodel hapart, List.flatMap_map]
  simp only [Share.emitted_steps, Share.modules, if_true]

def linkDiagnostics (entities : List Entity) (model : Entity → EntityModel) (e : Entity) :
    Diagnostics :=
  Diagnostics.ofNotices ((model e).columns.flatMap
    (linkNotices (packagesOf (entities.map (fun e => (e, model e)))) e (model e)))

theorem generateTables_of_parts [OverrideLanguage] (h : Parts fs config entities model file)
    (hapart : Apart config entities) :
    (generateTables fs config none entities).result = .ok
        ⟨Schema.build entities, entities.map model,
          entities.flatMap (fun e => artifacts.map (file (model e)))⟩ ∧
      Diagnostics.ofNotices (generateTables fs config none entities).notices =
        entities.flatMap (fun e => partProblems fs config e (model e)) ++
          entities.flatMap (linkDiagnostics entities model) := by
  obtain ⟨hbuilt, hown⟩ := models_of_parts (.nil fs) h.models
  have hemitted := emitted_of_parts h.models hapart
    (packagesOf (entities.map (fun e => (e, model e))))
  have hfiles : ∀ x ∈ emitted (steps config (packagesOf (entities.map (fun e => (e, model e)))) []
      (entities.map (fun e => (e, model e)))),
        fileOf fs config x.1 x.2 = .ok (file x.1 x.2) := by
    intro x hx
    rw [hemitted] at hx
    obtain ⟨e, he, hx⟩ := List.mem_flatMap.mp hx
    obtain ⟨a, ha, rfl⟩ := List.mem_map.mp hx
    exact h.files e he a ha
  have hexecute := (Steady.start fs config).execute_of_parts hfiles
  have htold := (execute_ok hexecute).2
  rw [hemitted] at hexecute
  rcases hmodels : models fs config ⟨fs, config.templateDir, []⟩ (Schema.build entities) []
    entities with ⟨notices, done⟩
  rw [hmodels] at hbuilt hown
  dsimp only at hbuilt hown
  subst hbuilt
  rw [generateTables_of_built none hmodels, executed, hexecute]
  constructor
  · simp [Except.map, List.map_flatMap, List.map_map, Function.comp_def]
  · have hlinks : Diagnostics.ofNotices (told (steps config
        (packagesOf (entities.map (fun e => (e, model e)))) []
          (entities.map (fun e => (e, model e))))) =
            entities.flatMap (linkDiagnostics entities model) := by
      rw [steps_eq_flatMap, told_flatMap, shares_of_parts h.models hapart, List.flatMap_map,
        Diagnostics.ofNotices_flatMap]
      simp only [Share.told_steps, Share.notices, if_true, List.append_nil]
      rfl
    rw [Diagnostics.ofNotices_append, Diagnostics.ofNotices_append, ofNotices_openingNotices, hown,
      htold, hlinks, List.nil_append]

theorem exists_parts [OverrideLanguage] {tables : Tables} (hapart : Apart config entities)
    (h : (generateTables fs config none entities).result = .ok tables) :
    ∃ model file, Parts fs config entities model file := by
  obtain ⟨notices, built, files, hmodels, hexecute, -, -⟩ := generateTables_ok h
  obtain ⟨model, hmodel⟩ := exists_model (.nil fs) (congrArg Prod.snd hmodels)
  obtain ⟨hparts, -⟩ := models_of_parts (.nil fs) hmodel
  rw [hmodels] at hparts
  obtain rfl := Except.ok.inj hparts
  have hfiles := (Steady.start fs config).exists_fileOf hexecute
  rw [emitted_of_parts hmodel hapart] at hfiles
  -- Functions are chosen, so there has to be a file for every model, in the round or not.
  have hchoice : ∀ m a, ∃ f, (∃ e ∈ entities, model e = m) → a ∈ artifacts →
      fileOf fs config m a = .ok f := by
    intro m a
    by_cases hma : (∃ e ∈ entities, model e = m) ∧ a ∈ artifacts
    · obtain ⟨⟨e, he, rfl⟩, ha⟩ := hma
      obtain ⟨f, hf⟩ := hfiles (model e, a)
        (List.mem_flatMap.mpr ⟨e, he, List.mem_map_of_mem ha⟩)
      exact ⟨f, fun _ _ => hf⟩
    · exact ⟨⟨"", "", "", "", none⟩, fun hm ha => absurd ⟨hm, ha⟩ hma⟩
  choose file hfile using hchoice
  exact ⟨model, file, hmodel, fun e he a ha => hfile (model e) a ⟨e, he, rfl⟩ ha⟩

theorem linkNotices_congr {packages packages' : List (String × String)}
    (h : ∀ name, packages'.lookup name = packages.lookup name) :
    linkNotices packages' = linkNotices packages := by
  funext e m c
  simp only [linkNotices, h]

theorem linkDiagnostics_perm [OverrideLanguage] (h : Parts fs config entities model file)
    (hnames : (candidateNames entities).Nodup) (hperm : entities'.Perm entities) :
    linkDiagnostics entities' model = linkDiagnostics entities model := by
  have hkeys : ((entities.map (fun e => (e, model e))).map
      (fun p => (p.2.qualifiedName, p.2.package))).map Prod.fst = candidateNames entities := by
    rw [List.map_map, List.map_map]
    refine List.map_congr_left ?_
    intro e he
    exact (EntityModel.build_ok (h.models e he)).2.2.2.2
  have hlook : ∀ name, (packagesOf (entities'.map (fun e => (e, model e)))).lookup name =
      (packagesOf (entities.map (fun e => (e, model e)))).lookup name := by
    intro name
    refine Keyed.lookup_ofList_of_perm ?_ ((hperm.map _).map _) name
    rw [hkeys]
    exact hnames
  funext e
  rw [linkDiagnostics, linkDiagnostics, linkNotices_congr hlook]

/-- What the results of two rounds have in common whose entities differ in order only. -/
structure Reordered (config : Config) (before : Diagnostics) (entities entities' : List Entity)
    (r r' : RoundResult) : Prop where
  classified : ∃ s s', r.schema = some s ∧ r'.schema = some s' ∧
    ∀ name, s'.classify name = s.classify name
  models : ∃ model : Entity → EntityModel,
    r.models = entities.map model ∧ r'.models = entities'.map model
  files : ∃ files : Entity → List GeneratedFile,
    r.files = entities.flatMap files ∧ r'.files = entities'.flatMap files ∧
      ∀ e ∈ entities, (files e).map GeneratedFile.key = outputs config e
  diagnostics : ∃ added added', r.diagnostics = before ++ added ∧
    r'.diagnostics = before ++ added' ∧ added'.Perm added ∧
      ∀ d ∈ added, ∀ e m owners, clashNotice e m owners ≠ .problem d

theorem run_of_tables [OverrideLanguage] {target : Target} {tables : Tables} (before : Diagnostics)
    (h : (generateTables fs config target entities).result = .ok tables) :
    (Round.run fs config target before [(config.tableMarker, entities)]).result =
      .ok ⟨some tables.schema, tables.models, tables.files, before ++
        Diagnostics.ofNotices (generateTables fs config target entities).notices⟩ := by
  have hnone : ∀ x ∈ ([] : List (String × List Entity)), x.1 ≠ config.tableMarker := by simp
  obtain ⟨hresult, hnotices⟩ := runMarkers_table fs target entities hnone hnone
  have hproblems := hnotices tables h
  rw [h] at hresult
  rw [List.nil_append] at hresult hproblems
  rw [run_result, hresult, hproblems]
  simp [Except.map, resultOf, unexpectedWarnings]

theorem run_tables [OverrideLanguage] {before : Diagnostics} {target : Target} {r : RoundResult}
    (h : (Round.run fs config target before [(config.tableMarker, entities)]).result = .ok r) :
    ∃ tables, (generateTables fs config target entities).result = .ok tables := by
  obtain ⟨tables?, hmarkers, -⟩ := run_ok h
  obtain ⟨fs', notices, tables, hdone⟩ := exists_tables_of_ok hmarkers
  exact ⟨tables, by rw [hdone]⟩

theorem mem_ownFaults {e : Entity} {m : EntityModel} {fault : Fault}
    (h : fault ∈ ownFaults config e m) :
    (∃ c, fault = .unsupported e c ∨ fault = .reserved e c) ∨ fault = .noPackage e := by
  rw [ownFaults, List.mem_append, List.mem_flatMap] at h
  rcases h with ⟨c, -, h⟩ | h
  · left
    refine ⟨c, ?_⟩
    rcases List.mem_append.mp h with h | h
    · split at h
      · exact .inl (List.mem_singleton.mp h)
      · cases h
    · split at h
      · exact .inr (List.mem_singleton.mp h)
      · cases h
  · right
    split at h
    · exact List.mem_singleton.mp h
    · cases h

theorem not_clash_of_part {e : Entity} {m : EntityModel} {d : Diagnostic}
    (hd : d ∈ partProblems fs config e m) (other : Entity) (m' : EntityModel)
    (owners : List String) : clashNotice other m' owners ≠ .problem d := by
  intro hclash
  obtain rfl := (Notice.problem.inj hclash).symm
  have herror := Diagnostics.mem_errors.mpr ⟨hd, rfl⟩
  rw [partProblems, Diagnostics.errors_append, FieldOrder.errors_sort, List.nil_append,
    errors_ownProblems] at herror
  obtain ⟨fault, hfault, heq⟩ := List.mem_map.mp herror
  rcases mem_ownFaults hfault with ⟨c, rfl | rfl⟩ | rfl
  · cases congrArg Diagnostic.field heq
  · cases congrArg Diagnostic.field heq
  · -- Neither names a field, but the two messages start with different letters.
    have hfirst := congrArg (fun d => d.message.toList.head?) heq
    simp [Fault.error, toString] at hfirst

theorem not_clash_of_link {e : Entity} {d : Diagnostic}
    (hd : d ∈ linkDiagnostics entities model e) (other : Entity) (m : EntityModel)
    (owners : List String) : clashNotice other m owners ≠ .problem d := by
  intro hclash
  obtain rfl := (Notice.problem.inj hclash).symm
  have herror := Diagnostics.mem_errors.mpr ⟨hd, rfl⟩
  rw [linkDiagnostics, Diagnostics.ofNotices_flatMap, Diagnostics.errors_flatMap] at herror
  simp [errors_linkNotices] at herror

theorem reordered [OverrideLanguage] {before : Diagnostics} {r : RoundResult}
    (hnames : (candidateNames entities).Nodup) (hapart : Apart config entities)
    (hperm : entities'.Perm entities)
    (h : (Round.run fs config none before [(config.tableMarker, entities)]).result = .ok r) :
    ∃ r', (Round.run fs config none before [(config.tableMarker, entities')]).result = .ok r' ∧
      Reordered config before entities entities' r r' := by
  obtain ⟨tables, htables⟩ := run_tables h
  obtain ⟨model, file, hparts⟩ := exists_parts hapart htables
  obtain ⟨hresult, hproblems⟩ := generateTables_of_parts hparts hapart
  obtain ⟨hresult', hproblems'⟩ := generateTables_of_parts (hparts.perm hperm) (hapart.perm hperm)
  have hrun := run_of_tables before hresult
  have hrun' := run_of_tables before hresult'
  rw [h] at hrun
  obtain rfl := Except.ok.inj hrun
  rw [hproblems, hproblems', linkDiagnostics_perm hparts hnames hperm] at *
  refine ⟨_, hrun', ?_⟩
  constructor
  case classified => exact ⟨_, _, rfl, rfl, Schema.agrees_build_of_perm hperm⟩
  case models => exact ⟨model, rfl, rfl⟩
  case files =>
    refine ⟨_, rfl, rfl, ?_⟩
    intro e he
    rw [← fileKeys_of_modelOf (hparts.models e he), fileKeys, List.map_map]
    refine List.map_congr_left ?_
    intro a ha
    exact key_of_fileOf (hparts.files e he a ha)
  case diagnostics =>
    refine ⟨_, _, rfl, rfl, (hperm.flatMap_right _).append (hperm.flatMap_right _), ?_⟩
    intro d hd
    rcases List.mem_append.mp hd with hd | hd
    · obtain ⟨e, -, hd⟩ := List.mem_flatMap.mp hd
      exact not_clash_of_part hd
    · obtain ⟨e, -, hd⟩ := List.mem_flatMap.mp hd
      exact not_clash_of_link hd

end

/-- An owl with a nest in another package, which has a field without a column type. -/
def aviary : List Entity :=
  let field (name type : String) : Field := ⟨name, ⟨type, type, "", .name⟩, some 0⟩
  [ ⟨"zoo.Owl", "Owl", [⟨.packageScope, "zoo"⟩], [field "nest" "zoo.birds.Nest"], none⟩,
    ⟨"zoo.birds.Nest", "Nest", [⟨.packageScope, "zoo.birds"⟩], [field "size" "complex"], none⟩ ]

theorem reordered_aviary :
    (candidateNames aviary).Nodup ∧ Apart {} aviary ∧ aviary.reverse.Perm aviary ∧
      ∃ r r',
        (Round.run ⟨.empty, [], []⟩ {} none [] [("tablegen.markers.table", aviary)]).result =
          .ok r ∧
        r.files.map GeneratedFile.fileName = [
          "OwlTable.py", "Owl.py", "OwlView.py", "OwlQuery.py",
          "NestTable.py", "Nest.py", "NestView.py", "NestQuery.py"] ∧
        r.diagnostics.map Diagnostic.severity = [.error, .warning] ∧
        (Round.run ⟨.empty, [], []⟩ {} none []
          [("tablegen.markers.table", aviary.reverse)]).result = .ok r' ∧
        Reordered {} [] aviary aviary.reverse r r' := by
  have hsummary : (Round.run ⟨.empty, [], []⟩ {} none []
      [("tablegen.markers.table", aviary)]).result.toOption.map
        (fun r => (r.files.map GeneratedFile.fileName,
          r.diagnostics.map Diagnostic.severity)) =
        some (["OwlTable.py", "Owl.py", "OwlView.py", "OwlQuery.py",
          "NestTable.py", "Nest.py", "NestView.py", "NestQuery.py"], [.error, .warning]) := by
    decide +kernel
  obtain ⟨r, hresult, hr⟩ := exists_ok_of_map_eq_some hsummary
  obtain ⟨hfiles, hseverities⟩ := Prod.mk.inj hr
  have hnames : (candidateNames aviary).Nodup := by decide +kernel
  have hapart : Apart {} aviary := by decide +kernel
  have hperm := List.reverse_perm aviary
  obtain ⟨r', hresult', hreordered⟩ := reordered hnames hapart hperm hresult
  exact ⟨hnames, hapart, hperm, r, r', hresult, hfiles, hseverities, hresult', hreordered⟩

end Round

end TypedTables
