import TypedTables.Proofs.Names
import TypedTables.Proofs.Round.Completion
import TypedTables.Proofs.Walk
import TypedTables.Watch.Scope

/-!
What a watcher notices of the files that a scan reads. The first root above a file decides, and
below the root of the scan there are four names of directories that the scan enters and the watcher
ignores.
-/

namespace TypedTables

namespace Path

theorem suffix_append {anchor : Anchor} {above parts : List String} (h : parts ≠ []) :
    suffix ⟨anchor, above ++ parts⟩ = (splitSuffix (parts.getLast?.getD "")).2 := by
  rw [suffix, name, List.getLast?_append_of_ne_nil above h]

end Path

namespace Watch

open Source

/-- Directories that a scan enters and a watcher ignores. -/
def overlooked : List String := ["venv", "node_modules", "dist", "build"]

theorem overlooked_of_shown {parts : List String} (h : Shown parts)
    (hsuffix : (Path.splitSuffix (parts.getLast?.getD "")).2 = sourceSuffix) :
    ∀ part ∈ parts, part ∈ ignoredDirs → part ∈ overlooked := by
  have hdirs : ∀ part ∈ ignoredDirs, isHidden part = false → part ≠ cacheDirectory →
      part ∈ overlooked := by
    decide +kernel
  have hfiles : ∀ part ∈ ignoredDirs, (Path.splitSuffix part).2 ≠ sourceSuffix := by
    decide +kernel
  intro part hpart hignored
  obtain rfl | ⟨above, last, rfl⟩ := parts.eq_nil_or_concat
  · cases hpart
  · rw [List.concat_eq_append] at h hsuffix hpart
    rw [List.getLast?_concat] at hsuffix
    rcases List.mem_append.mp hpart with habove | hlast
    · have hentered : part ∈ (above ++ [last]).dropLast := by rwa [List.dropLast_concat]
      exact hdirs part hignored (h.visible part hpart) (h.entered part hentered)
    · rw [List.mem_singleton.mp hlast] at hignored
      exact absurd hsuffix (hfiles last hignored)

structure Noticed (fs : FileSystem) (config : Config) (roots : List Path) (root : Path)
    (file : Path) : Prop where
  resolved : ".." ∉ fs.cwd → file.resolve fs.cwd = file
  decided : ∃ before first after parts, roots = before ++ first :: after ∧
    (∀ r ∈ before, file.below? (r.resolve fs.cwd) = none) ∧
    file.below? (first.resolve fs.cwd) = some parts ∧
    ((Scope.of config roots fs.cwd).ignores file = false ↔ ∀ part ∈ parts, part ∉ ignoredDirs)
  scanned : ∃ parts, file.below? (root.resolve fs.cwd) = some parts ∧
    ∀ part ∈ parts, part ∈ ignoredDirs → part ∈ overlooked

theorem ignores_of_below {s : Scope} {file : Path} {parts : List String}
    (hsuffix : file.suffix = ".py") (hout : file.below? s.output = none)
    (h : s.roots.findSome? (fun root => file.below? root) = some parts) :
    s.ignores file = parts.any (fun part => part ∈ ignoredDirs) := by
  rw [Scope.ignores, hsuffix, hout, h]
  simp

theorem noticed_of_scan {fs : FileSystem} {config : Config} {roots : List Path} {root : Path}
    {ignoreFile : String} {files : List SourceFile} {f : SourceFile} (hroot : root ∈ roots)
    (hscan : scan fs root ignoreFile = .ok files) (hf : f ∈ files)
    (hout : f.path.below? ((Path.ofText config.outputDir).resolve fs.cwd) = none) :
    Noticed fs config roots root f.path := by
  obtain ⟨parts, hpath, hshown, hsuffix⟩ := exists_shown_of_scan hscan hf
  have hbelow : f.path.below? (root.resolve fs.cwd) = some parts := by
    rw [Path.below?_eq_some, hpath]
    exact ⟨rfl, rfl⟩
  have hpy : f.path.suffix = ".py" := by
    have hne : parts ≠ [] := by
      rintro rfl
      exact absurd hsuffix (by decide +kernel)
    rw [hpath, Path.suffix_append hne]
    exact hsuffix
  constructor
  case resolved =>
    intro hcwd
    have hdots : ".." ∉ (root.resolve fs.cwd).components ++ parts := by
      rw [List.mem_append, not_or]
      refine ⟨root.not_mem_resolve hcwd, ?_⟩
      intro hmem
      exact absurd (hshown.visible ".." hmem) (by decide)
    rw [hpath, Path.resolve_of_absolute hdots]
  case decided =>
    have hsome : (roots.findSome? (fun r => f.path.below? (r.resolve fs.cwd))).isSome = true := by
      rw [List.findSome?_isSome_iff]
      exact ⟨root, hroot, by rw [hbelow]; rfl⟩
    obtain ⟨deciding, hfound⟩ := Option.isSome_iff_exists.mp hsome
    obtain ⟨before, first, after, hsplit, hfirst, hbefore⟩ := List.findSome?_eq_some_iff.mp hfound
    refine ⟨before, first, after, deciding, hsplit, hbefore, hfirst, ?_⟩
    have hroots : (Scope.of config roots fs.cwd).roots.findSome? (fun r => f.path.below? r) =
        some deciding := by
      rw [Scope.of, List.findSome?_map]
      exact hfound
    rw [ignores_of_below hpy hout hroots]
    simp
  case scanned => exact ⟨parts, hbelow, overlooked_of_shown hshown hsuffix⟩

def workshop : FileSystem :=
  ⟨.dir [("build", .dir [("dog.py", .file [])]), ("zoo", .dir [("dog.py", .file [])])], [], []⟩

theorem scan_workshop :
    ∃ files, scan workshop ⟨.relative, []⟩ ".gitignore" = .ok files ∧
      files.map SourceFile.path =
        [⟨.root, ["build", "dog.py"]⟩, ⟨.root, ["zoo", "dog.py"]⟩] :=
  Round.exists_ok_of_map_eq_some (by decide +kernel)

theorem noticed_workshop :
    ∃ files, scan workshop ⟨.relative, []⟩ ".gitignore" = .ok files ∧
      ∃ f ∈ files, f.path = ⟨.root, ["zoo", "dog.py"]⟩ ∧
        (Scope.of {} [⟨.relative, []⟩] workshop.cwd).ignores f.path = false ∧
        Noticed workshop {} [⟨.relative, []⟩] ⟨.relative, []⟩ f.path := by
  obtain ⟨files, hscan, hfiles⟩ := scan_workshop
  have hzoo : ⟨.root, ["zoo", "dog.py"]⟩ ∈ files.map SourceFile.path := by simp [hfiles]
  obtain ⟨f, hf, hpath⟩ := List.mem_map.mp hzoo
  have hout : f.path.below?
      ((Path.ofText ({} : Config).outputDir).resolve workshop.cwd) = none := by
    rw [hpath]
    decide +kernel
  refine ⟨files, hscan, f, hf, hpath, ?_, noticed_of_scan List.mem_cons_self hscan hf hout⟩
  rw [hpath]
  decide +kernel

theorem unnoticed_in_workshop :
    ∃ files, scan workshop ⟨.relative, []⟩ ".gitignore" = .ok files ∧
      ∃ f ∈ files,
        f.path.below? ((Path.ofText ({} : Config).outputDir).resolve workshop.cwd) = none ∧
        (Scope.of {} [⟨.relative, []⟩] workshop.cwd).ignores (f.path.resolve workshop.cwd) =
          true := by
  obtain ⟨files, hscan, hfiles⟩ := scan_workshop
  have hbuild : ⟨.root, ["build", "dog.py"]⟩ ∈ files.map SourceFile.path := by simp [hfiles]
  obtain ⟨f, hf, hpath⟩ := List.mem_map.mp hbuild
  refine ⟨files, hscan, f, hf, ?_, ?_⟩
  · rw [hpath]
    decide +kernel
  · rw [hpath]
    decide +kernel

end Watch

end TypedTables
