import TypedTables.Generate
import TypedTables.Proofs.Growth
import TypedTables.Proofs.Names
import TypedTables.Proofs.Round.DryRun
import TypedTables.Proofs.Utf8Reading
import TypedTables.Template.Plain

/-!
What a round leaves on disk. Each generated file has a location of its own and its content at the
end of the round. Nothing else changes, except that empty files make the directories of packages
packages where there was nothing before.
-/

namespace TypedTables

open Text

namespace Output

variable {o : Output} {fs fs' : FileSystem} {package fileName : String}

abbrev IsPackage (package : String) : Prop :=
  ∀ part ∈ components package, Path.IsName part

theorem not_dots_of_mem_components {part : String} (h : part ∈ components package) :
    part ≠ "." ∧ part ≠ ".." := by
  obtain ⟨cs, hcs, rfl⟩ := List.mem_map.mp h
  have hsep := not_mem_of_mem_splitOn hcs
  constructor
  · intro heq
    obtain rfl : cs = ['.'] := String.ofList_injective heq
    simp at hsep
  · intro heq
    obtain rfl : cs = ['.', '.'] := String.ofList_injective heq
    simp at hsep

theorem joinAll_parts (h : IsPackage package) {parts : List String}
    (hparts : parts <+: components package) (p : Path) :
    p.joinAll parts = ⟨p.anchor, p.components ++ parts⟩ := by
  refine p.joinAll_of_isName ?_
  intro part hpart
  have hmem := hparts.subset hpart
  exact ⟨h part hmem, (not_dots_of_mem_components hmem).1⟩

theorem resolved_below (fs : FileSystem) (p : Path) {parts : List String} (h : ".." ∉ parts) :
    fs.resolved ⟨p.anchor, p.components ++ parts⟩ = fs.resolved p ++ parts := by
  rw [FileSystem.resolved, Path.resolve]
  change Path.resolveFrom _ (p.components ++ parts) = _
  rw [Path.resolveFrom_append, Path.resolveFrom_of_not_mem _ h]
  rfl

theorem packageDir_eq (h : IsPackage package) :
    o.packageDir package =
      ⟨o.directory.anchor, o.directory.components ++ components package⟩ :=
  joinAll_parts h (List.prefix_refl _) _

theorem filePath_below (h : IsPackage package) (hname : Path.IsName fileName) :
    ∃ parts, o.filePath package fileName =
      ⟨o.directory.anchor, o.directory.components ++ parts⟩ := by
  by_cases hdot : fileName = "."
  · have hempty : Path.ofText "." = ⟨.relative, []⟩ := by decide +kernel
    refine ⟨components package, ?_⟩
    rw [filePath, hdot, hempty, packageDir_eq h]
    simp [Path.join, Path.isAbsolute]
  · refine ⟨components package ++ [fileName], ?_⟩
    rw [filePath, Path.ofText_of_isName hname hdot, packageDir_eq h, ← List.append_assoc]
    rfl

theorem Unlinked.leads_packageDir (hlinks : o.Unlinked) (h : IsPackage package) :
    o.leads (o.packageDir package) = o.packageDir package := by
  rw [packageDir_eq h, hlinks.leads_below]

theorem Unlinked.leads_filePath (hlinks : o.Unlinked) (h : IsPackage package)
    (hname : Path.IsName fileName) :
    o.leads (o.filePath package fileName) = o.filePath package fileName := by
  obtain ⟨parts, hpath⟩ := filePath_below (o := o) h hname
  rw [hpath, hlinks.leads_below]

theorem resolved_packageDir (h : IsPackage package) :
    fs.resolved (o.packageDir package) = fs.resolved o.directory ++ components package := by
  rw [packageDir_eq h]
  refine resolved_below fs _ ?_
  intro hmem
  exact (not_dots_of_mem_components hmem).2 rfl

theorem resolved_filePath (h : IsPackage package) (hname : Path.IsName fileName)
    (hdot : fileName ≠ ".") (hdots : fileName ≠ "..") :
    fs.resolved (o.filePath package fileName) =
      fs.resolved o.directory ++ components package ++ [fileName] := by
  have hpath : o.filePath package fileName =
      ⟨(o.packageDir package).anchor, (o.packageDir package).components ++ [fileName]⟩ := by
    rw [filePath, Path.ofText_of_isName hname hdot]
    rfl
  rw [hpath, resolved_below fs _ (by simpa using hdots.symm), resolved_packageDir h]

theorem not_dots_of_file (hname : Path.IsName fileName)
    (hfile : (fs.tree.fileAt? (fs.resolved (o.filePath package fileName))).isSome = true)
    (hdir : fs.tree.dirAt (fs.resolved (o.packageDir package)) = true) :
    fileName ≠ "." ∧ fileName ≠ ".." := by
  constructor
  · rintro rfl
    have hpath : o.filePath package "." = o.packageDir package := by
      have hempty : Path.ofText "." = ⟨.relative, []⟩ := by decide +kernel
      rw [filePath, hempty]
      simp [Path.join, Path.isAbsolute]
    rw [hpath, FileTree.fileAt?_eq_none_of_dirAt hdir] at hfile
    cases hfile
  · rintro rfl
    have hpath : fs.resolved (o.filePath package "..") =
        (fs.resolved (o.packageDir package)).dropLast := by
      rw [filePath, Path.ofText_of_isName hname (by decide)]
      change Path.resolveFrom _ ((o.packageDir package).components ++ [".."]) = _
      rw [Path.resolveFrom_append]
      rfl
    have habove : fs.tree.dirAt (fs.resolved (o.packageDir package)).dropLast = true := by
      obtain ⟨rest, hrest⟩ := List.dropLast_prefix (fs.resolved (o.packageDir package))
      rw [← hrest] at hdir
      exact FileTree.dirAt_of_append hdir
    rw [hpath, FileTree.fileAt?_eq_none_of_dirAt habove] at hfile
    cases hfile

def Marks (o : Output) (packages : List String) (p : Path) : Prop :=
  ∃ package ∈ packages, ∃ parts, parts ≠ [] ∧ parts <+: components package ∧
    p = o.directory.joinAll (parts ++ ["__init__.py"])

theorem mem_packageFiles {p : Path} : p ∈ o.packageFiles package ↔ o.Marks [package] p := by
  constructor
  · intro hp
    obtain ⟨depth, hdepth, rfl⟩ := List.mem_map.mp hp
    have hlength := List.mem_range.mp hdepth
    refine ⟨package, List.mem_singleton_self _, (components package).take (depth + 1), ?_,
      List.take_prefix _ _, rfl⟩
    exact List.ne_nil_of_length_pos (by rw [List.length_take]; omega)
  · rintro ⟨_, hpackage, parts, hne, hparts, rfl⟩
    obtain rfl := List.mem_singleton.mp hpackage
    have hlength := hparts.length_le
    have hpos := List.length_pos_of_ne_nil hne
    refine List.mem_map.mpr ⟨parts.length - 1, List.mem_range.mpr (by omega), ?_⟩
    rw [Nat.sub_add_cancel hpos, ← List.prefix_iff_eq_take.mp hparts]
    rfl

theorem Unlinked.leads_packageFile (hlinks : o.Unlinked) (h : IsPackage package) {p : Path}
    (hp : p ∈ o.packageFiles package) : o.leads p = p := by
  obtain ⟨_, hpackage, parts, -, hparts, rfl⟩ := mem_packageFiles.mp hp
  obtain rfl := List.mem_singleton.mp hpackage
  have hpath : o.directory.joinAll (parts ++ ["__init__.py"]) =
      ⟨o.directory.anchor, o.directory.components ++ (parts ++ ["__init__.py"])⟩ := by
    refine o.directory.joinAll_of_isName ?_
    intro part hpart
    rcases List.mem_append.mp hpart with hpart | hpart
    · have hmem := hparts.subset hpart
      exact ⟨h part hmem, (not_dots_of_mem_components hmem).1⟩
    · obtain rfl := List.mem_singleton.mp hpart
      exact ⟨by decide, by decide⟩
  rw [hpath, hlinks.leads_below]

end Output

namespace GeneratedFile

def place (o : Output) (f : GeneratedFile) : Path := o.filePath f.package f.fileName

def found (o : Output) (f : GeneratedFile) : Path := o.leads (f.place o)

theorem found_of_unlinked {o : Output} {f : GeneratedFile} (h : o.Unlinked)
    (hnames : Output.IsPackage f.package ∧ Path.IsName f.fileName) : f.found o = f.place o :=
  h.leads_filePath hnames.1 hnames.2

structure Stands (o : Output) (fs : FileSystem) (f : GeneratedFile) : Prop where
  located : fs.locate (f.found o) = .ok (fs.resolved (f.found o))
  file : (fs.tree.fileAt? (fs.resolved (f.found o))).isSome = true
  directory : fs.tree.dirAt (fs.resolved (o.leads (o.packageDir f.package))) = true
  package : o.makesPackages = true →
    ∀ p ∈ o.packageFiles f.package, fs.contains (o.leads p) = true

theorem Stands.of_wrote {o : Output} {fs fs' : FileSystem} {f : GeneratedFile}
    (h : o.Wrote f.package f.fileName f.content fs fs') : f.Stands o fs' where
  located := (FileSystem.read_eq_ok.mp h.read).1
  file := by
    have hfile := (FileSystem.read_eq_ok.mp h.read).2
    rw [found, place, hfile]
    rfl
  directory := by
    rw [h.grows.resolved]
    exact h.directory
  package := h.package

theorem Stands.of_grows {o : Output} {fs fs' : FileSystem} {f : GeneratedFile}
    {written fresh : List String → Prop} (h : f.Stands o fs)
    (hgrows : fs.Grows written fresh fs') : f.Stands o fs' where
  located := by
    rw [hgrows.resolved]
    exact hgrows.changes.locate h.located
  file := by
    rw [hgrows.resolved]
    exact hgrows.kept _ h.file
  directory := by
    rw [hgrows.resolved]
    exact hgrows.changes.dirs _ h.directory
  package := fun hmakes p hp => hgrows.contains (h.package hmakes p hp)

end GeneratedFile

namespace Round

variable {config : Config} {o : Output} {r r' : Renderer}

theorem emit_wrote [OverrideLanguage] {origin : String} {m : EntityModel} {a : Artifact}
    {f : GeneratedFile} {notices : List Notice}
    (h : emit config (some o) r origin m a = (r', .ok (f, notices))) :
    o.Wrote f.package f.fileName f.content r.files r'.files := by
  rw [emit] at h
  cases hcontent : r.render a.template (m.context (m.entity ++ a.suffix)) with
  | error e => simp [hcontent] at h
  | ok content =>
      simp only [hcontent] at h
      split at h
      · simp at h
      · rename_i hwrite
        simp only [Prod.mk.injEq, Except.ok.injEq] at h
        obtain ⟨rfl, rfl, -⟩ := h
        rw [r.files_keep] at hwrite
        exact Output.wrote_of_ok hwrite

structure Written (o : Output) (fs fs' : FileSystem) (files : List GeneratedFile) : Prop where
  grows : fs.Grows (fun location => ∃ f ∈ files, location = fs.resolved (f.found o))
    (fun location => ∃ f ∈ files, o.MakesPackage fs f.package location) fs'
  stand : ∀ f ∈ files, f.Stands o fs'
  contents : (files.map (fun f => fs.resolved (f.found o))).Nodup →
    ∀ f ∈ files, fs'.read (f.found o) = .ok (Utf8.encode f.content)

theorem Written.nil (o : Output) (fs : FileSystem) : Written o fs fs [] where
  grows := .refl _ _ fs
  stand := by simp
  contents := by simp

theorem Written.cons {fs made fs' : FileSystem} {f : GeneratedFile} {files : List GeneratedFile}
    (hfirst : o.Wrote f.package f.fileName f.content fs made) (h : Written o made fs' files) :
    Written o fs fs' (f :: files) := by
  obtain ⟨hgrows, hstand, hcontents⟩ := h
  have hmakes : ∀ package location, o.MakesPackage made package location →
      o.MakesPackage fs package location := by
    rintro package location ⟨hmakes, p, hp, rfl⟩
    exact ⟨hmakes, p, hp, hfirst.grows.resolved _⟩
  constructor
  case grows =>
    refine (hfirst.grows.mono ?_ ?_).trans (hgrows.mono ?_ ?_)
    · rintro location rfl
      exact ⟨f, List.mem_cons_self, rfl⟩
    · intro location hlocation
      exact ⟨f, List.mem_cons_self, hlocation⟩
    · rintro location ⟨g, hg, rfl⟩
      exact ⟨g, List.mem_cons_of_mem f hg, hfirst.grows.resolved _⟩
    · rintro location ⟨g, hg, hlocation⟩
      exact ⟨g, List.mem_cons_of_mem f hg, hmakes _ _ hlocation⟩
  case stand =>
    exact List.forall_mem_cons.mpr ⟨(GeneratedFile.Stands.of_wrote hfirst).of_grows hgrows, hstand⟩
  case contents =>
    intro hnodup
    simp only [hfirst.grows.resolved] at hcontents
    rw [List.map_cons, List.nodup_cons] at hnodup
    refine List.forall_mem_cons.mpr ⟨?_, hcontents hnodup.2⟩
    -- The file is at none of the later locations, and nothing is filled in where it is.
    obtain ⟨hlocate, hfile⟩ := FileSystem.read_eq_ok.mp hfirst.read
    rw [FileSystem.read_eq_ok, GeneratedFile.found, GeneratedFile.place, hgrows.resolved]
    refine ⟨hgrows.changes.locate hlocate, ?_⟩
    have hapart : ¬ ∃ g ∈ files, made.resolved (f.found o) = made.resolved (g.found o) := by
      rintro ⟨g, hg, heq⟩
      rw [hfirst.grows.resolved, hfirst.grows.resolved] at heq
      exact hnodup.1 (List.mem_map.mpr ⟨g, hg, heq.symm⟩)
    rcases hgrows.fills _ hapart with hsame | ⟨-, hnone, -⟩
    · exact hsame.trans hfile
    · rw [GeneratedFile.found, GeneratedFile.place, hfile] at hnone
      cases hnone

theorem execute_written [OverrideLanguage] {plan : List Step} {files : List GeneratedFile}
    (h : (execute config (some o) r plan).result = .ok files) :
    Written o r.files (execute config (some o) r plan).fs files := by
  induction plan generalizing r files with
  | nil =>
      obtain rfl : [] = files := by simpa [execute] using h
      exact .nil o r.files
  | cons s plan ih =>
      cases s with
      | tell notice => exact ih h
      | emit origin m a =>
          obtain ⟨r', file, notices, rest, hemit, hrest, rfl, hfs, -⟩ := execute_emit_ok h
          rw [hfs]
          exact (ih hrest).cons (emit_wrote hemit)

section

variable {fs : FileSystem} {target : Target} {before : Diagnostics}
  {markers : List (String × List Entity)} {result : RoundResult}

theorem emitted_steps_model {packages : List (String × String)}
    {built : List (Entity × EntityModel)} {x : EntityModel × Artifact}
    (hx : x ∈ emitted (steps config packages [] built)) : x.1 ∈ built.map Prod.snd := by
  rw [steps_eq_flatMap, emitted_flatMap] at hx
  simp only [Share.emitted_steps] at hx
  obtain ⟨s, hs, hmem⟩ := List.mem_flatMap.mp hx
  rw [Share.modules] at hmem
  split at hmem
  · obtain ⟨a, -, rfl⟩ := List.mem_map.mp hmem
    have hpair : (s.entity, s.model) ∈ built := by
      rw [← map_shares config [] built]
      exact List.mem_map_of_mem hs
    exact List.mem_map_of_mem hpair
  · cases hmem

/-- A round that completes has executed the plan of its table entities, and nothing else. -/
theorem run_executes [OverrideLanguage] (hkeys : (markers.map Prod.fst).Nodup)
    (h : (Round.run fs config target before markers).result = .ok result) :
    ∃ plan, (execute config target ⟨fs, config.templateDir, []⟩ plan).result = .ok result.files ∧
      (Round.run fs config target before markers).fs =
        (execute config target ⟨fs, config.templateDir, []⟩ plan).fs ∧
      ∀ x ∈ emitted plan, x.1 ∈ result.models ∧ x.2 ∈ artifacts := by
  rw [fs_run]
  obtain ⟨tables?, hmarkers, rfl⟩ := run_ok h
  rcases Keyed.exists_split_of_nodup hkeys config.tableMarker with
    hnone | ⟨pre, entities, post, rfl, hpre, hpost, -⟩
  · obtain ⟨hresult, -⟩ := runMarkers_other fs target hnone
    obtain rfl : none = tables? := Except.ok.inj (hresult.symm.trans hmarkers)
    exact ⟨[], rfl, congrArg Outcome.fs (runMarkers_others fs target hnone), nofun⟩
  · obtain ⟨hresult, -⟩ := runMarkers_table fs target entities hpre hpost
    rw [hmarkers] at hresult
    cases htables : (generateTables fs config target entities).result with
    | error e => simp [htables, Except.map] at hresult
    | ok tables =>
        obtain rfl : tables? = some tables := by simpa [htables, Except.map] using hresult
        rw [runMarkers_around fs target entities hpre hpost]
        obtain ⟨notices, built, files, hmodels, hexecute, rfl, -⟩ := generateTables_ok htables
        refine ⟨steps config (packagesOf built) [] built, hexecute, ?_, ?_⟩
        · rw [generateTables_of_built target hmodels]
          rfl
        · intro x hx
          exact ⟨emitted_steps_model hx, (emitted_steps_planned hx).1⟩

theorem run_executed [OverrideLanguage] (hkeys : (markers.map Prod.fst).Nodup)
    (h : (Round.run fs config target before markers).result = .ok result) :
    ∃ plan, (execute config target ⟨fs, config.templateDir, []⟩ plan).result = .ok result.files ∧
      (Round.run fs config target before markers).fs =
        (execute config target ⟨fs, config.templateDir, []⟩ plan).fs := by
  obtain ⟨plan, hexecute, hfs, -⟩ := run_executes hkeys h
  exact ⟨plan, hexecute, hfs⟩

structure Named (config : Config) (e : Entity) : Prop where
  package : Output.IsPackage (e.targetPackage config.packageRule).1
  name : Path.IsName e.simpleName

instance (config : Config) (e : Entity) : Decidable (Named config e) :=
  decidable_of_iff
    (Output.IsPackage (e.targetPackage config.packageRule).1 ∧ Path.IsName e.simpleName)
    ⟨And.elim Named.mk, fun h => ⟨h.package, h.name⟩⟩

theorem suffix_no_slash : ∀ a ∈ artifacts, '/' ∉ a.suffix.toList := by
  decide +kernel

theorem named_of_planned [OverrideLanguage] {entities : List Entity}
    (hnamed : ∀ e ∈ entities, Named config e) (hext : '/' ∉ config.fileExtension.toList)
    {key : String × String} (hkey : key ∈ plannedFiles fs config entities) :
    Output.IsPackage key.1 ∧ Path.IsName key.2 := by
  rw [plannedFiles] at hkey
  rcases hmodels : models fs config ⟨fs, config.templateDir, []⟩ (Schema.build entities) []
    entities with ⟨notices, done⟩
  rw [hmodels] at hkey
  cases done with
  | error e => cases hkey
  | ok built =>
      obtain ⟨hentities, hbuilt, -⟩ := models_ok hmodels
      obtain ⟨s, hs, hkey⟩ := List.mem_flatMap.mp hkey
      have hpair : (s.entity, s.model) ∈ built := by
        rw [← map_shares config [] built]
        exact List.mem_map_of_mem hs
      have hmodel := hbuilt _ hpair
      obtain ⟨hpackage, hname⟩ := hnamed s.entity (hentities ▸ List.mem_map_of_mem hpair)
      split at hkey
      · obtain ⟨a, ha, rfl⟩ := List.mem_map.mp hkey
        refine ⟨?_, ?_⟩
        · rwa [hmodel.package]
        · rw [fileName, hmodel.entity]
          exact (hname.capitalize.append (suffix_no_slash a ha)).append hext
      · cases hkey

structure Deposited (o : Output) (fs fs' : FileSystem) (r : RoundResult) : Prop where
  written : r.written = r.files.map (fun f => f.place o)
  distinct : r.written.Nodup
  apart : (r.written.map fs.resolved).Nodup
  contents : ∀ f ∈ r.files, ∃ p, f.path = some p ∧ fs'.read p = .ok (Utf8.encode f.content)
  packages : o.makesPackages = true →
    ∀ p, o.Marks (r.files.map GeneratedFile.package) p → fs'.contains p = true
  kept : ∀ location bytes, location ∉ r.written.map fs.resolved →
    fs.tree.fileAt? location = some bytes → fs'.tree.fileAt? location = some bytes
  made : ∀ location bytes, location ∉ r.written.map fs.resolved →
    fs.tree.fileAt? location = none → fs'.tree.fileAt? location = some bytes →
      bytes = [] ∧ o.makesPackages = true ∧
        ∃ p, o.Marks (r.files.map GeneratedFile.package) p ∧ location = fs.resolved p
  dirs : ∀ location, fs.tree.dirAt location = true → fs'.tree.dirAt location = true
  cwd : fs'.cwd = fs.cwd

theorem Written.nodup_locations {fs' : FileSystem} {files : List GeneratedFile}
    (h : Written o fs fs' files) (hlinks : o.Unlinked)
    (hnames : ∀ f ∈ files, Output.IsPackage f.package ∧ Path.IsName f.fileName)
    (hdistinct : (files.map GeneratedFile.key).Nodup) :
    (files.map (fun f => fs.resolved (f.place o))).Nodup := by
  have hlocation : ∀ f ∈ files, fs.resolved (f.place o) =
      fs.resolved o.directory ++ components f.key.1 ++ [f.key.2] := by
    intro f hf
    obtain ⟨hpackage, hname⟩ := hnames f hf
    obtain ⟨-, hfile, hdir, -⟩ := h.stand f hf
    rw [GeneratedFile.found_of_unlinked hlinks (hnames f hf)] at hfile
    rw [hlinks.leads_packageDir hpackage] at hdir
    obtain ⟨hdot, hdots⟩ := Output.not_dots_of_file hname hfile hdir
    exact Output.resolved_filePath hpackage hname hdot hdots
  have hinj : Function.Injective (fun key : String × String =>
      fs.resolved o.directory ++ components key.1 ++ [key.2]) := by
    intro x y heq
    obtain ⟨hparts, hname⟩ := List.append_inj' heq rfl
    have hpackage := congrArg dotted (List.append_cancel_left hparts)
    rw [dotted_components, dotted_components] at hpackage
    exact Prod.ext hpackage (List.singleton_inj.mp hname)
  have hmap := hdistinct.map hinj
  rw [List.map_map] at hmap
  rwa [List.map_congr_left hlocation]

theorem Written.deposited {fs' : FileSystem} (h : Written o fs fs' result.files)
    (hlinks : o.Unlinked)
    (hpaths : ∀ f ∈ result.files, f.path = some (f.place o))
    (hnames : ∀ f ∈ result.files, Output.IsPackage f.package ∧ Path.IsName f.fileName)
    (hdistinct : (result.files.map GeneratedFile.key).Nodup) : Deposited o fs fs' result := by
  have hwritten : result.written = result.files.map (fun f => f.place o) := by
    rw [RoundResult.written, ← List.filterMap_eq_map]
    exact List.filterMap_congr hpaths
  have hapart := h.nodup_locations hlinks hnames hdistinct
  have hfound : ∀ f ∈ result.files, f.found o = f.place o :=
    fun f hf => GeneratedFile.found_of_unlinked hlinks (hnames f hf)
  have hresolved : result.written.map fs.resolved =
      result.files.map (fun f => fs.resolved (f.place o)) := by
    rw [hwritten, List.map_map]
    rfl
  have houtside : ∀ location, location ∉ result.written.map fs.resolved →
      ¬ ∃ f ∈ result.files, location = fs.resolved (f.found o) := by
    rintro location hnot ⟨f, hf, rfl⟩
    rw [hresolved, hfound f hf] at hnot
    exact hnot (List.mem_map.mpr ⟨f, hf, rfl⟩)
  constructor
  case written => exact hwritten
  case apart => rwa [hresolved]
  case distinct =>
    have hnodup := hapart
    rw [← hresolved] at hnodup
    exact hnodup.of_map
  case contents =>
    intro f hf
    have hlocations : result.files.map (fun f => fs.resolved (f.found o)) =
        result.files.map (fun f => fs.resolved (f.place o)) :=
      List.map_congr_left (fun g hg => congrArg fs.resolved (hfound g hg))
    rw [← hlocations] at hapart
    exact ⟨f.place o, hpaths f hf, hfound f hf ▸ h.contents hapart f hf⟩
  case packages =>
    rintro hmakes p ⟨package, hpackage, parts, hne, hprefix, rfl⟩
    obtain ⟨f, hf, rfl⟩ := List.mem_map.mp hpackage
    have hfile : o.directory.joinAll (parts ++ ["__init__.py"]) ∈ o.packageFiles f.package :=
      Output.mem_packageFiles.mpr
        ⟨f.package, List.mem_singleton_self _, parts, hne, hprefix, rfl⟩
    have hthere := (h.stand f hf).package hmakes _ hfile
    rwa [hlinks.leads_packageFile (hnames f hf).1 hfile] at hthere
  case kept =>
    intro location bytes hnot hbytes
    rcases h.grows.fills location (houtside location hnot) with hsame | ⟨-, hnone, -⟩
    · rwa [hsame]
    · rw [hbytes] at hnone
      cases hnone
  case made =>
    intro location bytes hnot hnone hbytes
    rcases h.grows.fills location (houtside location hnot) with hsame | ⟨hfresh, -, hempty⟩
    · rw [hsame, hnone] at hbytes
      cases hbytes
    · obtain ⟨f, hf, hmakes, p, hp, rfl⟩ := hfresh
      rw [hlinks.leads_packageFile (hnames f hf).1 hp]
      obtain ⟨_, hpackage, hparts⟩ := Output.mem_packageFiles.mp hp
      obtain rfl := List.mem_singleton.mp hpackage
      rw [hempty] at hbytes
      exact ⟨(Option.some.inj hbytes).symm, hmakes, p,
        ⟨f.package, List.mem_map_of_mem hf, hparts⟩, rfl⟩
  case dirs => exact h.grows.changes.dirs
  case cwd => exact h.grows.changes.cwd

/-- Where no link leads away from the output directory, a round overwrites nothing that it
generates, and touches nothing else. -/
theorem run_deposits [OverrideLanguage] (hlinks : o.Unlinked)
    (hkeys : (markers.map Prod.fst).Nodup)
    (hnamed : ∀ e ∈ tableEntities config markers, Named config e)
    (hext : '/' ∉ config.fileExtension.toList)
    (h : (Round.run fs config (some o) before markers).result = .ok result) :
    Deposited o fs (Round.run fs config (some o) before markers).fs result := by
  obtain ⟨plan, hexecute, hfs⟩ := run_executed hkeys h
  have hwritten := execute_written hexecute
  rw [← hfs] at hwritten
  have hplanned := run_planned hkeys h
  refine hwritten.deposited hlinks (fun f hf => run_paths hkeys h hf) ?_ ?_
  · intro f hf
    have hkey : f.key ∈ plannedFiles fs config (tableEntities config markers) := by
      rw [← hplanned]
      exact List.mem_map_of_mem hf
    exact named_of_planned hnamed hext hkey
  · obtain ⟨tables, problems, built, cs, -, -, hmade, -, hfiles, -⟩ := run_madeOf hkeys h
    rw [hfiles, hmade.tables]
    exact nodup_keys hmade.shares hmade.complete

def yard : FileSystem :=
  ⟨.dir [("zoo", .dir [("__init__.py", .file (Utf8.encode "VERSION = 2\n"))])], [], []⟩

def yardMarkers : List (String × List Entity) :=
  let entity (package name : String) : Entity :=
    ⟨package ++ "." ++ name, name, [⟨.packageScope, package⟩], [], none⟩
  [("tablegen.markers.table",
    [entity "zoo" "Dog", entity "zoo.birds" "Owl", entity "zoo.birds" "__init__"])]

def yardOutput : Output := ⟨⟨.relative, []⟩, true, processLinks⟩

def yardFiles : List String :=
  ["zoo/generated/DogTable.py", "zoo/generated/Dog.py", "zoo/generated/DogView.py",
    "zoo/generated/DogQuery.py", "zoo/birds/generated/OwlTable.py",
    "zoo/birds/generated/Owl.py", "zoo/birds/generated/OwlView.py",
    "zoo/birds/generated/OwlQuery.py", "zoo/birds/generated/__init__Table.py",
    "zoo/birds/generated/__init__.py", "zoo/birds/generated/__init__View.py",
    "zoo/birds/generated/__init__Query.py"]

theorem run_deposits_yard :
    ∃ r, (Round.run yard {} (some yardOutput) [] yardMarkers).result = .ok r ∧
      r.written.map Path.text = yardFiles ∧
      Deposited yardOutput yard
        (Round.run yard {} (some yardOutput) [] yardMarkers).fs r := by
  have hwritten : (Round.run yard {} (some yardOutput) []
      yardMarkers).result.toOption.map (fun r => r.written.map Path.text) = some yardFiles := by
    decide +kernel
  obtain ⟨r, hresult, hpaths⟩ := exists_ok_of_map_eq_some hwritten
  have hnamed : ∀ e ∈ tableEntities {} yardMarkers, Named {} e := by
    decide +kernel
  exact ⟨r, hresult, hpaths, run_deposits (by decide) (by decide) hnamed (by decide) hresult⟩

/-- An output directory in which one name is a link to another one. -/
def lane : Output :=
  ⟨⟨.relative, ["out"]⟩, true, [(⟨.relative, ["out", "north"]⟩, ⟨.relative, ["out", "south"]⟩)]⟩

def laneFiles : FileSystem :=
  ⟨.dir [
    ("out", .dir [("south", .dir [])]),
    ("templates", .dir [
      ("cursor.py.j2", .file (Utf8.encode "\x7b\x7b package_name \x7d\x7d\n"))])], [], []⟩

def laneConfig : Config := { templateDir := some "templates" }

/-- Two classes of one name, in packages that become one directory. -/
def laneMarkers : List (String × List Entity) :=
  let entity (package : String) : Entity :=
    ⟨package ++ ".Dog", "Dog", [⟨.packageScope, package⟩], [], none⟩
  [("tablegen.markers.table", [entity "north", entity "south"])]

/-- Behind a link, files with different paths are one file, and the first content is lost. -/
theorem run_overwrites_behind_link :
    (∀ e ∈ tableEntities laneConfig laneMarkers, Named laneConfig e) ∧
      '/' ∉ laneConfig.fileExtension.toList ∧
      ∃ r, (Round.run laneFiles laneConfig (some lane) [] laneMarkers).result = .ok r ∧
        r.written.Nodup ∧
        ¬ ∀ f ∈ r.files, (Round.run laneFiles laneConfig (some lane) [] laneMarkers).fs.read
          (lane.leads (lane.filePath f.package f.fileName)) = .ok (Utf8.encode f.content) := by
  have hlost : (Round.run laneFiles laneConfig (some lane) [] laneMarkers).result.toOption.map
      (fun r => decide (r.written.Nodup ∧ ∃ f ∈ r.files, ∃ g ∈ r.files,
        f.fileName = "Dog.py" ∧ g.fileName = "Dog.py" ∧
        f.found lane = g.found lane ∧ f.content ≠ g.content)) = some true := by
    decide +kernel
  obtain ⟨r, hresult, hfiles⟩ := exists_ok_of_map_eq_some hlost
  obtain ⟨hnodup, f, hf, g, hg, -, -, hfound, hcontent⟩ := of_decide_eq_true hfiles
  have hnamed : ∀ e ∈ tableEntities laneConfig laneMarkers, Named laneConfig e := by
    decide +kernel
  refine ⟨hnamed, by decide, r, hresult, hnodup, ?_⟩
  intro hcontents
  have hread := hcontents f hf
  rw [← GeneratedFile.place, ← GeneratedFile.found, hfound, GeneratedFile.found,
    GeneratedFile.place, hcontents g hg] at hread
  have hsame := congrArg Utf8.decodeLenient (Except.ok.inj hread)
  rw [Utf8.decodeLenient_encode, Utf8.decodeLenient_encode] at hsame
  exact hcontent hsame.symm

end

end Round

end TypedTables
