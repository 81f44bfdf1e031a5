import Mathlib.Data.List.Sort
import TypedTables.Proofs.Decoration
import TypedTables.Proofs.Growth
import TypedTables.Proofs.UnreadableSources

/-!
Sources that appear between two scans. As long as the sources with marked classes and the rules of
what is ignored stay, files without marked classes may be added or take each other's places: the
later scan gathers what the earlier one did.
-/

namespace TypedTables

namespace FileSystem

/-- Directories stay, and what a regular file holds it held before, unless it meets a condition. -/
structure Gains (new : List UInt8 → Prop) (fs fs' : FileSystem) : Prop where
  changes : fs.ChangesOnly (fun _ => True) fs'
  files : ∀ location bytes, fs'.tree.fileAt? location = some bytes →
    fs.tree.fileAt? location = some bytes ∨ new bytes

namespace Gains

variable {new : List UInt8 → Prop} {fs fs' fs'' : FileSystem}

theorem refl (new : List UInt8 → Prop) (fs : FileSystem) : Gains new fs fs :=
  ⟨.refl _ fs, fun _ _ h => .inl h⟩

theorem trans (first : Gains new fs fs') (second : Gains new fs' fs'') : Gains new fs fs'' where
  changes := first.changes.trans second.changes
  files := by
    intro location bytes hbytes
    rcases second.files location bytes hbytes with hbefore | hnew
    · exact first.files location bytes hbefore
    · exact .inr hnew

end Gains

theorem node_eq_dir {fs : FileSystem} {p : Path} :
    (∃ entries, fs.node p = .ok (.dir entries)) ↔ fs.isDir p = true := by
  rw [isDir]
  cases hnode : fs.node p with
  | error e => simp [Except.toOption]
  | ok node => cases node <;> simp [Except.toOption, FileTree.isDir]

theorem ChangesOnly.exists_entries {touched : List String → Prop} {fs fs' : FileSystem}
    (h : fs.ChangesOnly touched fs') {p : Path} {entries : List (String × FileTree)}
    (hnode : fs.node p = .ok (.dir entries)) : ∃ entries', fs'.node p = .ok (.dir entries') := by
  obtain ⟨hlocate, hdir⟩ := isDir_iff.mp (node_eq_dir.mp ⟨entries, hnode⟩)
  refine node_eq_dir.mpr (isDir_iff.mpr ?_)
  rw [h.resolved]
  exact ⟨h.locate hlocate, h.dirs _ hdir⟩

end FileSystem

namespace Source

theorem flatMap_filter_ne_nil {α β : Type} (f : α → List β) (xs : List α) :
    (xs.filter (fun x => !(f x).isEmpty)).flatMap f = xs.flatMap f := by
  induction xs with
  | nil => rfl
  | cons x xs ih =>
      rw [List.filter_cons, List.flatMap_cons, ← ih]
      split
      · rw [List.flatMap_cons]
      · rename_i hempty
        have hnil : f x = [] := by simpa using hempty
        rw [hnil, List.nil_append]

theorem flatMap_eq_of_pairwise {α β : Type} {r : α → α → Prop} [Std.Asymm r] {xs ys : List α}
    (hxs : xs.Pairwise r) (hys : ys.Pairwise r) {f g : α → List β}
    (hf : ∀ x ∈ xs, f x ≠ [] → x ∈ ys ∧ g x = f x)
    (hg : ∀ y ∈ ys, g y ≠ [] → y ∈ xs ∧ f y = g y) : xs.flatMap f = ys.flatMap g := by
  rw [← flatMap_filter_ne_nil f, ← flatMap_filter_ne_nil g]
  have hsame : xs.filter (fun x => !(f x).isEmpty) = ys.filter (fun y => !(g y).isEmpty) := by
    refine (hxs.filter _).eq_of_mem_iff (hys.filter _) fun x => ?_
    simp only [List.mem_filter, Bool.not_eq_true', List.isEmpty_eq_false_iff]
    constructor
    · rintro ⟨hx, hne⟩
      obtain ⟨hy, heq⟩ := hf x hx hne
      exact ⟨hy, heq ▸ hne⟩
    · rintro ⟨hy, hne⟩
      obtain ⟨hx, heq⟩ := hg x hy hne
      exact ⟨hx, heq ▸ hne⟩
  rw [← hsame]
  refine List.flatMap_congr fun x hx => ?_
  obtain ⟨hx, hne⟩ := List.mem_filter.mp hx
  exact (hf x hx (by simpa using hne)).2.symm

theorem Located.classesOf_eq {fs : FileSystem} {markers : String} {f : SourceFile}
    (h : Located fs f) {bytes : List UInt8}
    (hfile : fs.tree.fileAt? f.path.components = some bytes) :
    classesOf fs markers f =
      if f.path.components ∈ fs.unreadable then []
      else marked (parse bytes) f.name.module f.name.package markers f.path.text := by
  have hdenied : fs.isDenied f.path = decide (f.path.components ∈ fs.unreadable) := by
    rw [FileSystem.isDenied, h.place]
    rfl
  rw [classesOf, statementsAt?, FileSystem.readSource, hdenied, h.read hfile]
  by_cases hmem : f.path.components ∈ fs.unreadable <;> simp [hmem]

theorem located_source {fs : FileSystem} {base : List String} (hbase : ".." ∉ base)
    {p : SourcePlace} (hdots : ".." ∉ p.parts) {bytes : List UInt8}
    (hfile : fs.tree.fileAt? (base ++ p.parts) = some bytes) :
    Located fs (p.source ⟨.root, base⟩) := by
  refine located_of_fileAt? rfl ?_ hfile
  exact List.mem_append.not.mpr (not_or.mpr ⟨hbase, hdots⟩)

structure Listing (fs : FileSystem) (base : List String) (ignored denied : List String → Bool)
    (places : List SourcePlace) : Prop where
  sorted : places.Pairwise (fun p q => Precedes p.parts q.parts)
  mem : ∀ p, p ∈ places ↔ p.stem ≠ "" ∧
    ∃ node, fs.tree.at? base = some node ∧ Reached ignored denied node p.parts

namespace Listing

variable {fs fs' : FileSystem} {base : List String} {ignored denied : List String → Bool}
  {places places' : List SourcePlace} {p : SourcePlace}

theorem exists_file (h : Listing fs base ignored denied places) (hp : p ∈ places) :
    ".." ∉ p.parts ∧ ∃ bytes, fs.tree.fileAt? (base ++ p.parts) = some bytes := by
  obtain ⟨-, node, hnode, hreached⟩ := (h.mem p).mp hp
  obtain ⟨bytes, hfile⟩ := hreached.file
  refine ⟨fun hdots => absurd (hreached.shown.visible ".." hdots) (by decide), bytes, ?_⟩
  rw [FileTree.fileAt?_eq_some, FileTree.at?_append, hnode]
  exact hfile

theorem mem_of_file (h : Listing fs base ignored denied places)
    (h' : Listing fs' base ignored denied places') (hp : p ∈ places) {bytes : List UInt8}
    (hfile : fs'.tree.fileAt? (base ++ p.parts) = some bytes) : p ∈ places' := by
  obtain ⟨hstem, node, -, hreached⟩ := (h.mem p).mp hp
  rw [FileTree.fileAt?_eq_some, FileTree.at?_append] at hfile
  obtain ⟨node', hnode', hfile⟩ := Option.bind_eq_some_iff.mp hfile
  exact (h'.mem p).mpr ⟨hstem, node', hnode', ⟨bytes, hfile⟩, hreached.shown, hreached.kept,
    hreached.readable⟩

end Listing

instance : Std.Asymm (fun p q : SourcePlace => Precedes p.parts q.parts) :=
  ⟨fun p q => (List.Lex.asymm (fun a b : String => a < b)).asymm p.parts q.parts⟩

theorem exists_listing {fs : FileSystem} (hdistinct : fs.tree.Distinct) {root : Path}
    {entries : List (String × FileTree)} (hroot : fs.tree.at? root.components = some (.dir entries))
    (ignored : String → Bool) (denied : List String → Bool) :
    ∃ places : List SourcePlace,
      sourcesBelow ignored denied root entries = .ok (places.map (SourcePlace.source root)) ∧
      Listing fs root.components (fun above => ignored (String.intercalate "/" above)) denied
        places := by
  obtain ⟨places, hplaces, hsub, hmem⟩ := exists_places ignored denied root entries
  have hbelow := hdistinct.at? hroot
  refine ⟨places, hplaces, ?_, fun p => (hmem p).trans ?_⟩
  · exact List.pairwise_map.mp ((pairwise_walk hbelow []).sublist hsub)
  · rw [mem_walk_root hbelow, hroot]
    simp

section

variable {fs fs' : FileSystem} {markers ignoreFile : String}

theorem Listing.flatMap_classesOf (h : fs.Gains Unmarked fs') {base : List String}
    (hbase : ".." ∉ base) {ignored denied : List String → Bool} {places places' : List SourcePlace}
    (hlisting : Listing fs base ignored denied places)
    (hlisting' : Listing fs' base ignored denied places')
    (hkept : ∀ f ∈ places.map (SourcePlace.source ⟨.root, base⟩),
      classesOf fs markers f ≠ [] → fs'.read f.path = fs.read f.path) :
    (places'.map (SourcePlace.source ⟨.root, base⟩)).flatMap (classesOf fs' markers) =
      (places.map (SourcePlace.source ⟨.root, base⟩)).flatMap (classesOf fs markers) := by
  have hsame : ∀ p : SourcePlace, ∀ bytes, ".." ∉ p.parts →
      fs.tree.fileAt? (base ++ p.parts) = some bytes →
      fs'.tree.fileAt? (base ++ p.parts) = some bytes →
      classesOf fs' markers (p.source ⟨.root, base⟩) =
        classesOf fs markers (p.source ⟨.root, base⟩) := by
    intro p bytes hdots hfile hfile'
    rw [(located_source hbase hdots hfile).classesOf_eq hfile,
      (located_source hbase hdots hfile').classesOf_eq hfile', h.changes.unreadable]
  rw [List.flatMap_map, List.flatMap_map]
  refine flatMap_eq_of_pairwise hlisting'.sorted hlisting.sorted ?later ?earlier
  case later =>
    intro p hp hne
    obtain ⟨hdots, bytes, hfile'⟩ := hlisting'.exists_file hp
    rcases h.files _ bytes hfile' with hfile | hbytes
    · exact ⟨hlisting'.mem_of_file hlisting hp hfile, (hsame p bytes hdots hfile hfile').symm⟩
    · refine absurd ?_ hne
      rw [(located_source hbase hdots hfile').classesOf_eq hfile', hbytes, ite_self]
  case earlier =>
    intro p hp hne
    obtain ⟨hdots, bytes, hfile⟩ := hlisting.exists_file hp
    have hplace := located_source hbase hdots hfile
    have hread := hkept (p.source ⟨.root, base⟩) (List.mem_map_of_mem hp) hne
    rw [hplace.read hfile, FileSystem.read_eq_ok, h.changes.resolved,
      ← FileSystem.locate_ok hplace.place] at hread
    exact ⟨hlisting.mem_of_file hlisting' hp hread.2, hsame p bytes hdots hfile hread.2⟩

theorem exists_scan_of_gains (h : fs.Gains Unmarked fs') (hdistinct : fs.tree.Distinct)
    (hcwd : ".." ∉ fs.cwd) {root : Path} {files : List SourceFile}
    (hscan : scan fs root ignoreFile = .ok files)
    (hrules : let ignorePath := (root.resolve fs.cwd).join (Path.ofText ignoreFile)
      ignoreRules fs' ignorePath = ignoreRules fs ignorePath)
    (hkept : ∀ f ∈ files, classesOf fs markers f ≠ [] → fs'.read f.path = fs.read f.path) :
    ∃ files', scan fs' root ignoreFile = .ok files' ∧
      files'.flatMap (classesOf fs' markers) = files.flatMap (classesOf fs markers) := by
  obtain ⟨entries, rules, hnode, hignore, hsources⟩ := exists_of_scan_eq_ok hscan
  obtain ⟨entries', hnode'⟩ := h.changes.exists_entries hnode
  have hbefore := FileSystem.at?_of_node hnode hcwd
  rw [← h.changes.cwd] at hnode' hcwd
  have hafter := FileSystem.at?_of_node hnode' hcwd
  have hscan' := scan_eq hnode' (by rw [h.changes.cwd]; exact hrules.trans hignore)
  rw [h.changes.cwd] at hafter hcwd
  rw [h.changes.cwd, h.changes.unreadable] at hscan'
  -- both scans go by the same rules, from the same directory
  obtain ⟨places, hplaces, hlisting⟩ := exists_listing hdistinct hbefore (Ignore.ignores rules)
    (fun below => fs.unreadable.contains ((root.resolve fs.cwd).components ++ below))
  obtain ⟨places', hplaces', hlisting'⟩ :=
    exists_listing (h.changes.distinct hdistinct) hafter (Ignore.ignores rules)
      (fun below => fs.unreadable.contains ((root.resolve fs.cwd).components ++ below))
  obtain rfl := Except.ok.inj (hsources.symm.trans hplaces)
  exact ⟨_, hscan'.trans hplaces',
    hlisting.flatMap_classesOf h (root.not_mem_resolve hcwd) hlisting' hkept⟩

/-- A scan of all roots gathers what it gathered before files without marked classes were added. -/
theorem collect_of_gains (h : fs.Gains Unmarked fs') (hdistinct : fs.tree.Distinct)
    (hcwd : ".." ∉ fs.cwd) {roots : List Path}
    (hrules : ∀ root ∈ roots, let ignorePath := (root.resolve fs.cwd).join (Path.ofText ignoreFile)
      ignoreRules fs' ignorePath = ignoreRules fs ignorePath)
    (hkept : ∀ f ∈ (scanned fs ignoreFile roots).1, classesOf fs markers f ≠ [] →
      fs'.read f.path = fs.read f.path)
    {found gathered : MarkedEntities}
    (hcollect : (collect fs markers ignoreFile found roots).2 = .ok gathered) :
    (collect fs' markers ignoreFile found roots).2 = .ok gathered := by
  induction roots generalizing found with
  | nil => exact hcollect
  | cons root roots ih =>
      rw [collect] at hcollect
      cases hscan : scan fs root ignoreFile with
      | error e => simp [hscan] at hcollect
      | ok files =>
          obtain ⟨hroot, hroots⟩ := List.forall_mem_cons.mp hrules
          rw [scanned, hscan] at hkept
          obtain ⟨hfirst, hrest⟩ := List.forall_mem_append.mp hkept
          obtain ⟨files', hscan', hsame⟩ :=
            exists_scan_of_gains h hdistinct hcwd hscan hroot hfirst
          rw [hscan] at hcollect
          rw [collect, hscan']
          dsimp only at hcollect ⊢
          rw [collectFiles_fst] at hcollect ⊢
          rw [hsame]
          exact ih hroots hrest hcollect

end

end Source

end TypedTables
