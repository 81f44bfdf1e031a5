import TypedTables.Generate
import TypedTables.Proofs.AcceptedConfig
import TypedTables.Proofs.Round.Deposit
import TypedTables.Proofs.Round.ModelsFirst
import TypedTables.Watch.Scope

/-!
The watcher's own output. Names without slashes lead nowhere but below the output directory, so
whatever a round writes, complete or not, lies where a watcher ignores it.
-/

namespace TypedTables

open Text

namespace Output

variable {o : Output} {fs : FileSystem} {package fileName : String}

/-- A text that can be a component of a path and leads downwards, or nowhere if it is empty. -/
structure LeadsDown (part : String) : Prop where
  noSlash : '/' ∉ part.toList
  noDot : part ≠ "."
  noDots : part ≠ ".."

theorem resolved_joinAll (fs : FileSystem) (p : Path) {parts : List String}
    (h : ∀ part ∈ parts, LeadsDown part) :
    fs.resolved p <+: fs.resolved (p.joinAll parts) := by
  rw [p.joinAll_of_noSlash fun part hpart => ⟨(h part hpart).noSlash, (h part hpart).noDot⟩,
    resolved_below fs p]
  · exact List.prefix_append _ _
  · intro hmem
    exact (h ".." (List.mem_of_mem_filter hmem)).noDots rfl

theorem leadsDown_of_mem_components (h : '/' ∉ package.toList) :
    ∀ part ∈ components package, LeadsDown part := by
  intro part hpart
  obtain ⟨hdot, hdots⟩ := not_dots_of_mem_components hpart
  refine ⟨?_, hdot, hdots⟩
  obtain ⟨cs, hcs, rfl⟩ := List.mem_map.mp hpart
  rw [String.toList_ofList]
  exact fun hslash => h (subset_of_mem_splitOn hcs hslash)

theorem resolved_packageFiles (h : '/' ∉ package.toList) :
    ∀ p ∈ o.packageFiles package, fs.resolved o.directory <+: fs.resolved p := by
  intro p hp
  obtain ⟨depth, -, rfl⟩ := List.mem_map.mp hp
  refine resolved_joinAll fs o.directory ?_
  intro part hpart
  rcases List.mem_append.mp hpart with hpart | hpart
  · exact leadsDown_of_mem_components h part (List.mem_of_mem_take hpart)
  · obtain rfl := List.mem_singleton.mp hpart
    exact ⟨by decide +kernel, by decide +kernel, by decide +kernel⟩

theorem resolved_filePath_below (h : '/' ∉ package.toList) (hname : LeadsDown fileName) :
    fs.resolved o.directory <+: fs.resolved (o.filePath package fileName) := by
  have hpath : o.filePath package fileName =
      o.directory.joinAll (components package ++ [fileName]) := by
    rw [filePath, packageDir, Path.joinAll, Path.joinAll, List.foldl_append]
    rfl
  rw [hpath]
  refine resolved_joinAll fs o.directory ?_
  exact List.forall_mem_append.mpr ⟨leadsDown_of_mem_components h,
    List.forall_mem_singleton.mpr hname⟩

/-- Where no links are on the way, writing changes files below the output directory and no others,
whether it succeeds or not. -/
theorem write_below (hlinks : o.links = []) (h : '/' ∉ package.toList)
    (hname : LeadsDown fileName) (content : String) :
    fs.ChangesOnly (fs.resolved o.directory <+: ·) (o.write fs package fileName content).1 := by
  refine (o.write_changes fs package fileName content).mono ?_
  rintro location (rfl | ⟨p, hp, rfl⟩)
  · rw [o.leads_of_links_eq_nil hlinks]
    exact resolved_filePath_below h hname
  · rw [o.leads_of_links_eq_nil hlinks]
    exact resolved_packageFiles h p hp

end Output

namespace Round

def wroteNotice (path : Path) (origin : String) : Notice :=
  .info .output s!"Wrote {path.text} (from {origin})"

/-- Below a location, files may change and written files are told; elsewhere neither. -/
structure StaysBelow (base : List String) (fs fs' : FileSystem) (notices : List Notice) : Prop where
  files : fs.ChangesOnly (base <+: ·) fs'
  told : ∀ notice ∈ notices, notice.record.source = .output →
    ∃ path origin, notice = wroteNotice path origin ∧ base <+: fs.resolved path

namespace StaysBelow

variable {base : List String} {fs fs' fs'' : FileSystem} {xs ys : List Notice}

theorem quiet (base : List String) (fs : FileSystem) (h : TellsNoFile xs) :
    StaysBelow base fs fs xs where
  files := .refl _ fs
  told := fun notice hnotice hsource => absurd hsource (h notice hnotice)

theorem trans (first : StaysBelow base fs fs' xs) (second : StaysBelow base fs' fs'' ys) :
    StaysBelow base fs fs'' (xs ++ ys) where
  files := first.files.trans second.files
  told := by
    intro notice hnotice hsource
    rcases List.mem_append.mp hnotice with hnotice | hnotice
    · exact first.told notice hnotice hsource
    · obtain ⟨path, origin, heq, hbelow⟩ := second.told notice hnotice hsource
      exact ⟨path, origin, heq, by rwa [first.files.resolved] at hbelow⟩

end StaysBelow

namespace TellsNoFile

theorem linkNotices (packages : List (String × String)) (e : Entity) (m : EntityModel)
    (c : Column) : TellsNoFile (linkNotices packages e m c) := by
  rw [Round.linkNotices]
  split
  · exact nil
  · split
    · exact nil
    · split
      · exact nil
      · exact problem _

theorem steps (config : Config) (packages : List (String × String)) (claims : Claims)
    (built : List (Entity × EntityModel)) :
    TellsNoFile (told (steps config packages claims built)) := by
  rw [steps_eq_flatMap, told_flatMap]
  refine flatMap (fun s => ?_) _
  rw [Share.told_steps, Share.notices]
  refine append (flatMap (linkNotices packages s.entity s.model) _) ?_
  split
  · exact nil
  · exact problem _

end TellsNoFile

structure Plain (e : Entity) : Prop where
  name : Path.IsName e.simpleName
  package : ∀ package ∈ e.package?, '/' ∉ package.toList

theorem noSlash_targetPackage {config : Config} (hconfig : config.Accepted) {e : Entity}
    (he : Plain e) : '/' ∉ (e.targetPackage config.packageRule).1.toList := by
  have hwell := hconfig.admitted.wellFormed_chomped
  rw [Entity.targetPackage]
  cases hpackage : e.package? with
  | none => exact not_mem_of_chomp (by decide) hwell.fallback.noSlash
  | some package =>
      obtain ⟨name, hname, hsuffix⟩ := hwell.suffix
      have hnone : '/' ∉ (chomp config.packageSuffix).toList := by
        rw [show chomp config.packageSuffix = "." ++ name from hsuffix]
        simpa using hname.noSlash
      change '/' ∉ (package ++ config.packageSuffix).toList
      rw [String.toList_append, List.mem_append]
      exact not_or.mpr ⟨he.package package hpackage, not_mem_of_chomp (by decide) hnone⟩

def Fits (config : Config) (x : EntityModel × Artifact) : Prop :=
  '/' ∉ x.1.package.toList ∧ Output.LeadsDown (fileName config x.1 x.2)

/-- A target that writes nothing, or has its output directory at a location that no link leads away
from. -/
def Target.IsAt (target : Target) (fs : FileSystem) (base : List String) : Prop :=
  ∀ o, target = some o → o.links = [] ∧ fs.resolved o.directory = base

theorem Target.IsAt.of_changes {target : Target} {fs fs' : FileSystem} {base : List String}
    {touched : List String → Prop} (h : target.IsAt fs base)
    (hchanges : fs.ChangesOnly touched fs') : target.IsAt fs' base := by
  intro o ho
  rw [hchanges.resolved]
  exact h o ho

def emitNotices : Except Failure (GeneratedFile × List Notice) → List Notice
  | .error _ => []
  | .ok (_, notices) => notices

section

variable [OverrideLanguage] {config : Config} {target : Target} {base : List String}

theorem emit_staysBelow {r : Renderer} (origin : String) {m : EntityModel} {a : Artifact}
    (h : Fits config (m, a))
    (hbase : target.IsAt r.files base) :
    StaysBelow base r.files (emit config target r origin m a).1.files
      (emitNotices (emit config target r origin m a).2) := by
  rw [emit]
  cases hcontent : r.render a.template (m.context (m.entity ++ a.suffix)) with
  | error e => exact .quiet base r.files .nil
  | ok content =>
      cases target with
      | none =>
          dsimp only
          rw [r.files_keep]
          exact .quiet base r.files .nil
      | some o =>
          obtain ⟨hlinks, rfl⟩ := hbase o rfl
          have hwrite := @Output.write_below o r.files _ _ hlinks h.1 h.2 content
          dsimp only
          rw [r.files_keep]
          rcases hdone : o.write r.files m.package (fileName config m a) content with ⟨fs', done⟩
          rw [hdone] at hwrite
          cases done with
          | error f => exact ⟨hwrite, List.forall_mem_nil _⟩
          | ok path =>
              refine ⟨hwrite, ?_⟩
              intro notice hnotice _
              obtain rfl := List.mem_singleton.mp hnotice
              obtain rfl := Output.write_ok hdone
              exact ⟨_, origin, rfl, Output.resolved_filePath_below h.1 h.2⟩

theorem execute_staysBelow (r : Renderer) {plan : List Step}
    (hplan : ∀ x ∈ emitted plan, Fits config x) (htold : TellsNoFile (told plan))
    (hbase : target.IsAt r.files base) :
    StaysBelow base r.files (execute config target r plan).fs
      (execute config target r plan).notices := by
  induction plan generalizing r with
  | nil => exact .quiet base r.files .nil
  | cons s plan ih =>
      cases s with
      | tell notice =>
          obtain ⟨hnotice, hrest⟩ := List.forall_mem_cons.mp htold
          exact (StaysBelow.quiet base r.files (.cons hnotice .nil)).trans (ih r hplan hrest hbase)
      | emit origin m a =>
          obtain ⟨hfirst, hrest⟩ := List.forall_mem_cons.mp hplan
          have hemit := emit_staysBelow origin hfirst hbase
          rw [execute]
          rcases hdone : emit config target r origin m a with ⟨r', done⟩
          rw [hdone] at hemit
          cases done with
          | error f => exact hemit
          | ok result =>
              exact hemit.trans (ih r' hrest htold (hbase.of_changes hemit.files))

theorem fits_of_plain (hconfig : config.Accepted) (hext : '/' ∉ config.fileExtension.toList)
    {fs : FileSystem} {schema : Schema} {e : Entity} {m : EntityModel} (he : Plain e)
    (hm : modelOf fs config schema e = .ok m) {a : Artifact} (ha : a ∈ artifacts) :
    Fits config (m, a) := by
  obtain ⟨hentity, -, -, hpackage, -⟩ := EntityModel.build_ok hm
  have hname : Path.IsName (m.entity ++ a.suffix) := by
    rw [hentity]
    exact he.name.capitalize.append (suffix_no_slash a ha)
  have hlength : 3 ≤ (fileName config m a).length := by
    have hsome := List.length_pos_of_ne_nil hname.nonempty
    have hextension := hconfig.admitted.extension
    simp only [Config.isExtension, Bool.and_eq_true, decide_eq_true_eq] at hextension
    rw [fileName, String.length_append]
    rw [String.length_toList] at hsome
    omega
  have hlong : ∀ text : String, text.length < 3 → fileName config m a ≠ text := by
    rintro text htext rfl
    omega
  exact ⟨hpackage ▸ noSlash_targetPackage hconfig he, (hname.append hext).noSlash,
    hlong "." (by decide), hlong ".." (by decide)⟩

variable {fs : FileSystem} {entities : List Entity}

theorem generateTables_staysBelow (hconfig : config.Accepted)
    (hext : '/' ∉ config.fileExtension.toList) (hplain : ∀ e ∈ entities, Plain e)
    (hbase : target.IsAt fs base) :
    StaysBelow base fs (generateTables fs config target entities).fs
      (generateTables fs config target entities).notices := by
  have htold := TellsNoFile.models fs config ⟨fs, config.templateDir, []⟩ (Schema.build entities) []
    entities
  rcases models_cases config (Schema.build entities) entities (.nil fs) with
    ⟨told, built, hmodels, rfl, hbuilt⟩ | ⟨told, earlier, e, later, error, hmodels, -⟩
  · rw [hmodels] at htold
    have hexecuted : StaysBelow base fs (executed fs config target built).fs
        (executed fs config target built).notices := by
      rw [executed]
      refine execute_staysBelow ⟨fs, config.templateDir, []⟩ ?_
        (.steps config (packagesOf built) [] built) hbase
      intro x hx
      obtain ⟨p, hp, hmodel⟩ := List.mem_map.mp (emitted_steps_model hx)
      have hplain := hplain p.1 (List.mem_map_of_mem hp)
      obtain ⟨m, a⟩ := x
      obtain rfl : p.2 = m := hmodel
      exact fits_of_plain hconfig hext hplain (hbuilt p hp).1 (emitted_steps_planned hx).1
    rw [generateTables_of_built target hmodels]
    exact (StaysBelow.quiet base fs ((TellsNoFile.openingNotices _).append htold)).trans hexecuted
  · rw [hmodels] at htold
    rw [generateTables_of_error target hmodels]
    exact .quiet base fs ((TellsNoFile.openingNotices _).append htold)

theorem runMarkers_staysBelow (hconfig : config.Accepted)
    (hext : '/' ∉ config.fileExtension.toList) {markers : List (String × List Entity)}
    (hplain : ∀ x ∈ markers, x.1 = config.tableMarker → ∀ e ∈ x.2, Plain e)
    (hbase : target.IsAt fs base) :
    StaysBelow base fs (runMarkers fs config target markers).fs
      (runMarkers fs config target markers).notices := by
  -- The output directory stays where it is, whatever is written below it.
  refine runMarkers_composed (P := fun fs fs' notices =>
    target.IsAt fs base → StaysBelow base fs fs' notices)
    (fun fs _ => .quiet base fs .nil) ?_
    (fun fs marker _ => .quiet base fs (.unexpectedNotices [(marker, [])])) ?_ fs hbase
  · intro fs fs' fs'' xs ys hfirst hnext hbase
    exact (hfirst hbase).trans (hnext (hbase.of_changes (hfirst hbase).files))
  · intro fs x hx hmarker
    exact generateTables_staysBelow hconfig hext (hplain x hx hmarker)

/-- A watcher ignores every file that a round creates or changes, and every file that it tells to
have written, even if the output directory lies below a root. -/
theorem ignores_of_run (fs : FileSystem) (roots : List Path) (dry : Bool) (before : Diagnostics)
    {markers : List (String × List Entity)} (hconfig : config.Accepted)
    (hext : '/' ∉ config.fileExtension.toList)
    (hplain : ∀ x ∈ markers, x.1 = config.tableMarker → ∀ e ∈ x.2, Plain e) :
    let scope := Watch.Scope.of config roots fs.cwd
    let done := Round.run fs config (config.target dry) before markers
    (∀ location, done.fs.tree.fileAt? location ≠ fs.tree.fileAt? location →
        scope.ignores ⟨.root, location⟩ = true) ∧
      ∀ notice ∈ done.notices, notice.record.source = .output →
        ∃ path origin, notice = wroteNotice path origin ∧
          scope.ignores (path.resolve fs.cwd) = true := by
  intro scope done
  have hbase : Target.IsAt (config.target dry) fs scope.output.components := by
    intro o ho
    cases dry with
    | true => cases ho
    | false =>
        obtain rfl := Option.some.inj ho
        exact ⟨rfl, rfl⟩
  have hignored : ∀ location, scope.output.components <+: location →
      scope.ignores ⟨.root, location⟩ = true := by
    rintro location ⟨below, rfl⟩
    have hbelow : Path.below? ⟨.root, scope.output.components ++ below⟩ scope.output = some below :=
      Path.below?_eq_some.mpr ⟨rfl, rfl⟩
    rw [Watch.Scope.ignores, hbelow]
    simp
  obtain ⟨last, hnotices, hlast⟩ := exists_notices_run fs config (config.target dry) before markers
  have hrun : StaysBelow scope.output.components fs done.fs done.notices := by
    rw [hnotices, fs_run]
    exact (runMarkers_staysBelow hconfig hext hplain hbase).trans (.quiet _ _ hlast)
  constructor
  · intro location hchanged
    by_contra hnot
    exact hchanged (hrun.files.files location (mt (hignored location) hnot))
  · intro notice hnotice hsource
    obtain ⟨path, origin, heq, hbelow⟩ := hrun.told notice hnotice hsource
    exact ⟨path, origin, heq, hignored _ hbelow⟩

end

theorem ignores_of_run_yard :
    let scope := Watch.Scope.of {} [⟨.relative, []⟩] yard.cwd
    let done := Round.run yard {} (some ⟨Path.ofText "generated", true, []⟩) [] yardMarkers
    let file := ["generated", "zoo", "birds", "generated", "OwlTable.py"]
    (done.fs.tree.fileAt? file).isSome = true ∧ yard.tree.fileAt? file = none ∧
      scope.ignores ⟨.root, file⟩ = true := by
  intro scope done file
  have hmade : (done.fs.tree.fileAt? file).isSome = true := by decide +kernel
  have hnone : yard.tree.fileAt? file = none := by decide +kernel
  have hconfig : ({} : Config).Accepted := .data (.map []) Config.ofData_empty
  have hnames : ∀ x ∈ yardMarkers, ∀ e ∈ x.2,
      Path.IsName e.simpleName ∧ ∀ package ∈ e.package?, '/' ∉ package.toList := by
    decide +kernel
  have hplain : ∀ x ∈ yardMarkers, x.1 = ({} : Config).tableMarker → ∀ e ∈ x.2, Plain e :=
    fun x hx _ e he => ⟨(hnames x hx e he).1, (hnames x hx e he).2⟩
  refine ⟨hmade, hnone, (ignores_of_run yard [⟨.relative, []⟩] false [] hconfig (by decide)
    hplain).1 file ?_⟩
  rw [hnone]
  exact Option.isSome_iff_ne_none.mp hmade

end Round

end TypedTables
