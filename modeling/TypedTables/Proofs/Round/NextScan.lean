import TypedTables.Proofs.AddedSources
import TypedTables.Proofs.Round.InertFiles

/-!
The scan after a round. What a round writes has no marked class, so the sources are gathered again
as they were before it, unless the round changes the rules of what is ignored.
-/

namespace TypedTables

open Text

theorem Output.Wrote.gains {o : Output} {fs fs' : FileSystem} {package fileName content : String}
    (h : o.Wrote package fileName content fs fs') {new : List UInt8 → Prop} (hempty : new [])
    (hcontent : new (Utf8.encode content)) : fs.Gains new fs' where
  changes := h.grows.changes.mono (fun _ _ => trivial)
  files := by
    intro location bytes hbytes
    by_cases heq : location = fs.resolved (o.leads (o.filePath package fileName))
    · obtain ⟨-, hread⟩ := FileSystem.read_eq_ok.mp h.read
      rw [h.grows.resolved, ← heq, hbytes] at hread
      exact .inr (Option.some.inj hread ▸ hcontent)
    · rcases h.grows.fills location heq with hsame | ⟨-, -, hfresh⟩
      · exact .inl (hsame ▸ hbytes)
      · rw [hbytes] at hfresh
        exact .inr (Option.some.inj hfresh ▸ hempty)

namespace Round

open Source

section

variable [OverrideLanguage] {fs : FileSystem} {config : Config} {target : Target}
  {before : Diagnostics} {markers : List (String × List Entity)} {r : RoundResult}

theorem emit_gains {renderer renderer' : Renderer} {origin : String} {m : EntityModel}
    {a : Artifact} {f : GeneratedFile} {notices : List Notice}
    (h : emit config target renderer origin m a = (renderer', .ok (f, notices)))
    {new : List UInt8 → Prop} (hempty : new []) (hcontent : new (Utf8.encode f.content)) :
    renderer.files.Gains new renderer'.files := by
  cases target with
  | some o => exact (emit_wrote h).gains hempty hcontent
  | none =>
      have hrendered := emit_rendered h
      rw [emit, hrendered] at h
      obtain ⟨rfl, -⟩ := Prod.mk.inj h
      rw [renderer.files_keep]
      exact .refl new renderer.files

theorem execute_gains {renderer : Renderer} {plan : List Step} {files : List GeneratedFile}
    (h : (execute config target renderer plan).result = .ok files) {new : List UInt8 → Prop}
    (hempty : new []) (hfiles : ∀ f ∈ files, new (Utf8.encode f.content)) :
    renderer.files.Gains new (execute config target renderer plan).fs := by
  induction plan generalizing renderer files with
  | nil => exact .refl new renderer.files
  | cons s plan ih =>
      cases s with
      | tell notice => exact ih h hfiles
      | emit origin m a =>
          obtain ⟨renderer', f, notices, rest, hemit, hrest, rfl, hfs, -⟩ := execute_emit_ok h
          obtain ⟨hfirst, hlater⟩ := List.forall_mem_cons.mp hfiles
          rw [hfs]
          exact (emit_gains hemit hempty hfirst).trans (ih hrest hlater)

theorem run_gains (hkeys : (markers.map Prod.fst).Nodup)
    (h : (Round.run fs config target before markers).result = .ok r) {new : List UInt8 → Prop}
    (hempty : new []) (hfiles : ∀ f ∈ r.files, new (Utf8.encode f.content)) :
    fs.Gains new (Round.run fs config target before markers).fs := by
  obtain ⟨plan, hexecute, hfs⟩ := run_executed hkeys h
  rw [hfs]
  exact execute_gains hexecute hempty hfiles

/-- A round without errors generates nothing that a scan would take for a marked class. So unless it
changes what is ignored or a source that has a marked class, the next scan gathers what the scan
before the round gathered. -/
theorem scan_after_run (hkeys : (markers.map Prod.fst).Nodup)
    (hnamed : ∀ e ∈ tableEntities config markers, e.ProperNames)
    (h : (Round.run fs config target before markers).result = .ok r) (hok : r.failed = false)
    (hnone : Unoverridden (Round.run fs config target before markers).fs config) :
    (∀ f ∈ r.files, ∀ module package namespaceName file,
      marked (parse (Utf8.encode f.content)) module package namespaceName file = []) ∧
    let done := (Round.run fs config target before markers).fs
    ∀ roots, fs.tree.Distinct → ".." ∉ fs.cwd →
      (collect fs config.markersNamespace config.ignoreFile [] roots).2 = .ok markers →
      (∀ f ∈ (scanned fs config.ignoreFile roots).1,
        classesOf fs config.markersNamespace f ≠ [] → done.read f.path = fs.read f.path) →
      (∀ root ∈ roots,
        let ignorePath := (root.resolve fs.cwd).join (Path.ofText config.ignoreFile)
        ignoreRules done ignorePath = ignoreRules fs ignorePath) →
      (collect done config.markersNamespace config.ignoreFile [] roots).2 = .ok markers := by
  have hunmarked := run_unmarked hkeys hnamed h hok hnone
  refine ⟨hunmarked, ?_⟩
  intro done roots hdistinct hcwd hcollect hkept hrules
  have hgains := run_gains hkeys h unmarked_empty hunmarked
  exact collect_of_gains hgains hdistinct hcwd hrules hkept hcollect

end

def warren : FileSystem :=
  let text (s : String) : FileTree := .file (Utf8.encode s)
  ⟨.dir [("ignored", text "zoo\n"), ("zoo", .dir [("dog.py",
    text "from tablegen.markers import table\n@table\nclass Dog:\n    age: int\n")])], [], []⟩

def warrenMarkers : List (String × List Entity) :=
  [("tablegen.markers.table", [⟨"zoo.dog.Dog", "Dog",
    [⟨.moduleScope, "zoo.dog"⟩, ⟨.packageScope, "zoo"⟩],
    [⟨"age", ⟨"int", "int", "", .name⟩, some 57⟩], some "/zoo/dog.py"⟩])]

def warrenRun (config : Config) : Outcome RoundResult :=
  Round.run warren config (some ⟨Path.ofText "generated", true, []⟩) [] warrenMarkers

theorem scan_after_run_warren :
    ∃ r, (warrenRun {}).result = .ok r ∧
      r.written.map Path.text = ["generated/zoo/generated/DogTable.py",
        "generated/zoo/generated/Dog.py", "generated/zoo/generated/DogView.py",
        "generated/zoo/generated/DogQuery.py"] ∧
      (∀ f ∈ r.files, ∀ module package namespaceName file,
        marked (parse (Utf8.encode f.content)) module package namespaceName file = []) ∧
      (collect (warrenRun {}).fs "tablegen.markers" ".gitignore" [] [⟨.relative, []⟩]).2 =
        .ok warrenMarkers := by
  have hrun : (warrenRun {}).result.toOption.map
      (fun r => (r.failed, r.written.map Path.text)) = some (false, [
        "generated/zoo/generated/DogTable.py", "generated/zoo/generated/Dog.py",
        "generated/zoo/generated/DogView.py", "generated/zoo/generated/DogQuery.py"]) := by
    decide +kernel
  obtain ⟨r, hresult, hr⟩ := exists_ok_of_map_eq_some hrun
  obtain ⟨hok, hwritten⟩ := Prod.mk.inj hr
  have hdistinct : warren.tree.Distinct :=
    .dir (by decide) (by simpa using ⟨.file _, .dir (by decide) (by simpa using .file _)⟩)
  obtain ⟨hunmarked, hnext⟩ :=
    scan_after_run (by decide) (by decide +kernel) hresult hok (by decide +kernel)
  exact ⟨r, hresult, hwritten, hunmarked, hnext [⟨.relative, []⟩] hdistinct (by decide)
    (by decide +kernel) (by decide +kernel) (by decide +kernel)⟩

/-- The way to the list leads through the output directory. -/
def detour : Config := { ignoreFile := "generated/../ignored" }

/-- The list is only found once the output directory is there, so the next scan gathers nothing. -/
theorem scan_after_run_detour :
    let roots : List Path := [⟨.relative, []⟩]
    let gathered (fs : FileSystem) :=
      (collect fs detour.markersNamespace detour.ignoreFile [] roots).2
    (∀ e ∈ tableEntities detour warrenMarkers, e.ProperNames) ∧
      Unoverridden (warrenRun detour).fs detour ∧ warren.tree.at? ["generated"] = none ∧
      (∀ f ∈ (scanned warren detour.ignoreFile roots).1,
        (warrenRun detour).fs.read f.path = warren.read f.path) ∧
      ((warrenRun detour).result.toOption.map RoundResult.failed) = some false ∧
      gathered warren = .ok warrenMarkers ∧ gathered (warrenRun detour).fs = .ok [] := by
  refine ⟨?_, ?_, ?_, ?_, ?_, ?_, ?_⟩ <;> decide +kernel

end Round

end TypedTables
