import TypedTables.Proofs.Names
import TypedTables.Source.Scan

/-!
Places of source files below a root, and the names of their modules. A package is named by its
directory, any other module by its directory and its file; so either way the package around a
module is named by the directory.
-/

namespace TypedTables.Source

open Text

/-- The directories between a root and a source file, and the name of the file without its
suffix. -/
structure SourcePlace where
  dirs : List String
  stem : String
  deriving DecidableEq, Repr

namespace SourcePlace

def names (p : SourcePlace) : List String := p.dirs ++ [p.stem]

def path (p : SourcePlace) (root : Path) : Path :=
  ⟨root.anchor, root.components ++ (p.dirs ++ [p.stem ++ sourceSuffix])⟩

/-- The components of the name of the module. The file that stands for the root itself has none. -/
def moduleParts (p : SourcePlace) : List String :=
  if p.stem = packageStem then p.dirs else p.names

def moduleName (p : SourcePlace) : ModuleName :=
  ⟨dotted p.moduleParts, if p.dirs = [] then none else some (dotted p.dirs)⟩

variable {p : SourcePlace}

theorem dirs_of_names {P : String → Prop} (h : ∀ name ∈ p.names, P name) :
    ∀ name ∈ p.dirs, P name :=
  fun name hname => h name (List.mem_append_left _ hname)

theorem moduleParts_of_names {P : String → Prop} (h : ∀ name ∈ p.names, P name) :
    ∀ name ∈ p.moduleParts, P name := by
  intro name hname
  rw [moduleParts] at hname
  split at hname
  · exact dirs_of_names h name hname
  · exact h name hname

end SourcePlace

theorem splitSuffix_source {stem : String} (h : stem ≠ "") :
    Path.splitSuffix (stem ++ sourceSuffix) = (stem, sourceSuffix) := by
  have hsuffix : '.' ∉ ['p', 'y'] := by decide
  have hchars : (stem ++ sourceSuffix).toList = stem.toList ++ '.' :: ['p', 'y'] := by
    simp [sourceSuffix]
  cases hstem : stem.toList with
  | nil => exact absurd (String.toList_inj.mp hstem) h
  | cons c cs =>
      rw [Path.splitSuffix, hchars, beforeLast?_append hsuffix, afterLast_append,
        afterLast_of_not_mem hsuffix, hstem]
      simp [sourceSuffix, ← hstem]

theorem nonempty?_dotted {parts : List String} (h : ∀ part ∈ parts, IsComponent part) :
    nonempty? (dotted parts) = if parts = [] then none else some (dotted parts) := by
  by_cases hparts : parts = []
  · subst hparts
    rfl
  · rw [nonempty?, if_neg hparts, if_neg (by simpa using dotted_ne_empty hparts h)]

theorem ofComponents_names {p : SourcePlace} (h : ∀ name ∈ p.names, IsComponent name) :
    ModuleName.ofComponents p.names = p.moduleName := by
  have hpackage := nonempty?_dotted (SourcePlace.dirs_of_names h)
  have hlast : p.names.getLast? = some p.stem := List.getLast?_concat
  have habove : p.names.dropLast = p.dirs := List.dropLast_concat
  rw [ModuleName.ofComponents, hlast, habove, hpackage, SourcePlace.moduleName,
    SourcePlace.moduleParts]
  by_cases hstem : p.stem = packageStem
  · rw [if_pos hstem, if_pos (congrArg some hstem)]
  · rw [if_neg hstem, if_neg (mt Option.some.inj hstem)]

theorem ofPath_path {p : SourcePlace} (h : p.stem ≠ "") (root : Path) :
    ModuleName.ofPath (p.path root) root = .ok (.ofComponents p.names) := by
  have hparts : (p.path root).below? root = some (p.dirs ++ [p.stem ++ sourceSuffix]) :=
    Path.below?_eq_some.mpr ⟨rfl, rfl⟩
  have hbelow : (p.path root).relativeTo root =
      .ok ⟨.relative, p.dirs ++ [p.stem ++ sourceSuffix]⟩ := by
    rw [Path.relativeTo, hparts]
  have hbare : Path.withoutSuffix ⟨.relative, p.dirs ++ [p.stem ++ sourceSuffix]⟩ =
      .ok ⟨.relative, p.names⟩ := by
    simp [Path.withoutSuffix, Path.name, splitSuffix_source h, SourcePlace.names]
  rw [ModuleName.ofPath, hbelow]
  simp only [bind, Except.bind, hbare]

theorem ofPath_place {p : SourcePlace} (h : ∀ name ∈ p.names, IsComponent name) (root : Path) :
    ModuleName.ofPath (p.path root) root = .ok p.moduleName := by
  have hstem : p.stem ≠ "" := (h p.stem (by simp [SourcePlace.names])).nonempty
  rw [ofPath_path hstem, ofComponents_names h]

end TypedTables.Source
