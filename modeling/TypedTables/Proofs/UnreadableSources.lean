import TypedTables.Proofs.FileSystem
import TypedTables.Proofs.Scan
import TypedTables.Proofs.SourceListing

/-!
Sources that cannot be read. A scan lists a file whether or not it can be read, so a file that
becomes unreadable takes its own entities with it and leaves a warning, while the entities of all
other files stay as they are.
-/

namespace TypedTables

namespace FileSystem

def deny (fs : FileSystem) (lost : List (List String)) : FileSystem :=
  { fs with unreadable := lost ++ fs.unreadable }

section

variable {fs : FileSystem} {lost : List (List String)}

theorem follow_deny (location cs : List String) :
    (fs.deny lost).follow location cs = fs.follow location cs := by
  induction cs generalizing location with
  | nil => rfl
  | cons c cs ih =>
      rw [follow, follow]
      simp only [ih]
      rfl

@[simp]
theorem locate_deny (p : Path) : (fs.deny lost).locate p = fs.locate p :=
  follow_deny _ _

@[simp]
theorem node_deny (p : Path) : (fs.deny lost).node p = fs.node p := by
  rw [node, locate_deny, node]
  rfl

@[simp]
theorem contains_deny (p : Path) : (fs.deny lost).contains p = fs.contains p := by
  rw [contains, node_deny, contains]

@[simp]
theorem read_deny (p : Path) : (fs.deny lost).read p = fs.read p := by
  rw [read, node_deny, read]

theorem readSource_deny {p : Path} (h : fs.resolved p ∉ lost) :
    (fs.deny lost).readSource p = fs.readSource p := by
  have hdenied : (fs.deny lost).isDenied p = fs.isDenied p := by
    rw [isDenied, locate_deny, isDenied]
    cases hlocate : fs.locate p with
    | error e => rfl
    | ok location =>
        rw [← locate_ok hlocate] at h
        simp [deny, Except.toOption, h]
  rw [readSource, hdenied, read_deny, readSource]

/-- Without double dots a path to something that exists denotes the location that it spells. -/
theorem follow_of_at? {location cs : List String} {node : FileTree}
    (hnode : fs.tree.at? (location ++ cs) = some node) (hdots : ".." ∉ cs) :
    fs.follow location cs = .ok (location ++ cs) := by
  induction cs generalizing location with
  | nil => rw [follow, List.append_nil]
  | cons c cs ih =>
      obtain ⟨hne, hrest⟩ := not_or.mp (mt List.mem_cons.mpr hdots)
      have hdir : fs.tree.dirAt location = true := by
        by_contra hdir
        rw [Bool.not_eq_true] at hdir
        rw [FileTree.at?_below_eq_none hdir] at hnode
        cases hnode
      rw [FileTree.dirAt] at hdir
      rw [follow]
      cases hat : fs.tree.at? location with
      | none => simp [hat] at hdir
      | some node =>
          cases node with
          | file bytes => simp [hat, FileTree.isDir] at hdir
          | dir entries =>
              rw [List.append_cons] at hnode ⊢
              simpa [Ne.symm hne] using ih hnode hrest

theorem at?_of_node {p : Path} {node : FileTree} (h : fs.node (p.resolve fs.cwd) = .ok node)
    (hcwd : ".." ∉ fs.cwd) : fs.tree.at? (p.resolve fs.cwd).components = some node := by
  rw [FileSystem.node] at h
  cases hlocate : fs.locate (p.resolve fs.cwd) with
  | error e => simp [hlocate, bind, Except.bind] at h
  | ok location =>
      have hsame : location = (p.resolve fs.cwd).components := by
        rw [locate_ok hlocate, resolved]
        exact congrArg Path.components (Path.resolve_of_absolute (p.not_mem_resolve hcwd) fs.cwd)
      rw [hlocate] at h
      simp only [bind, Except.bind] at h
      split at h
      · cases h
      · rename_i found hfound
        rw [← hsame, hfound, Except.ok.inj h]

end

end FileSystem

namespace Source

theorem walk_congr {ignored : String → Bool} {denied denied' : List String → Bool}
    {tree : FileTree} (h : tree.Distinct) {below : List String}
    (hsame : ∀ rest, tree.dirAt rest = true → denied (below ++ rest) = denied' (below ++ rest)) :
    walk ignored denied below tree = walk ignored denied' below tree := by
  induction h generalizing below with
  | file bytes => rw [walk, walk]
  | @dir entries names nodes ih =>
      have htop : denied below = denied' below := by simpa using hsame [] rfl
      have hentries : ∀ e ∈ entries,
          walk ignored denied (below ++ [e.1]) e.2 = walk ignored denied' (below ++ [e.1]) e.2 := by
        intro e he
        refine ih e he fun rest hrest => ?_
        rw [← List.append_cons]
        refine hsame (e.1 :: rest) ?_
        rw [FileTree.dirAt, FileTree.at?, FileTree.entries,
          (Keyed.lookup_eq_some_iff_mem names e.1 e.2).mpr he]
        exact hrest
      have hamong : walkAmong ignored denied below entries =
          walkAmong ignored denied' below entries := by
        rw [walkAmong_eq, walkAmong_eq]
        refine List.map_congr_left fun e he => ?_
        rw [hentries e (List.mem_of_mem_filter he)]
      rw [walk, walk, htop, hamong]

section

variable {fs : FileSystem} {lost : List (List String)} {markers ignoreFile : String}
  {roots : List Path}

theorem ignoreRules_deny {path : Path} (h : fs.resolved path ∉ lost) :
    ignoreRules (fs.deny lost) path = ignoreRules fs path := by
  rw [ignoreRules, FileSystem.contains_deny, FileSystem.readSource_deny h, ignoreRules]

/-- What a scan lists does not depend on which sources can be read, only on its ignore file. -/
theorem scan_deny (hdistinct : fs.tree.Distinct) (hcwd : ".." ∉ fs.cwd)
    (hlost : ∀ u ∈ lost, fs.tree.dirAt u = false) {root : Path}
    (hrules : fs.resolved ((root.resolve fs.cwd).join (Path.ofText ignoreFile)) ∉ lost) :
    scan (fs.deny lost) root ignoreFile = scan fs root ignoreFile := by
  have hsame : (fs.deny lost).cwd = fs.cwd := rfl
  rw [scan, scan, hsame]
  simp only [FileSystem.node_deny, ignoreRules_deny hrules]
  cases hnode : fs.node (root.resolve fs.cwd) with
  | error e => rfl
  | ok node =>
      cases node with
      | file bytes => rfl
      | dir entries =>
          have hroot := FileSystem.at?_of_node hnode hcwd
          have hwalk : ∀ ignored, walk ignored
              (fun below =>
                (fs.deny lost).unreadable.contains ((root.resolve fs.cwd).components ++ below))
              [] (.dir entries) = walk ignored
              (fun below => fs.unreadable.contains ((root.resolve fs.cwd).components ++ below))
              [] (.dir entries) := by
            intro ignored
            refine walk_congr (hdistinct.at? hroot) fun rest hrest => ?_
            have hdir : fs.tree.dirAt ((root.resolve fs.cwd).components ++ rest) = true := by
              rw [FileTree.dirAt, FileTree.at?_append, hroot]
              exact hrest
            have hkept : (root.resolve fs.cwd).components ++ rest ∉ lost := by
              intro hmem
              rw [hlost _ hmem] at hdir
              cases hdir
            simp [FileSystem.deny, hkept]
          simp only [hwalk]

theorem exists_file_of_scan (hdistinct : fs.tree.Distinct) (hcwd : ".." ∉ fs.cwd) {root : Path}
    {files : List SourceFile} (h : scan fs root ignoreFile = .ok files) {f : SourceFile}
    (hf : f ∈ files) :
    ∃ components bytes, f.path = ⟨.root, components⟩ ∧ ".." ∉ components ∧
      fs.tree.at? components = some (.file bytes) := by
  obtain ⟨entries, rules, hnode, -, hsources⟩ := exists_of_scan_eq_ok h
  have hroot := FileSystem.at?_of_node hnode hcwd
  obtain ⟨places, hplaces, -, hmem⟩ := exists_places (Ignore.ignores rules)
    (fun below => fs.unreadable.contains ((root.resolve fs.cwd).components ++ below))
    (root.resolve fs.cwd) entries
  obtain rfl := Except.ok.inj (hsources.symm.trans hplaces)
  obtain ⟨p, hp, rfl⟩ := List.mem_map.mp hf
  have hreached := (mem_walk_root (hdistinct.at? hroot)).mp ((hmem p).mp hp).2
  obtain ⟨bytes, hfile⟩ := hreached.file
  refine ⟨(root.resolve fs.cwd).components ++ p.parts, bytes, rfl, ?_, ?_⟩
  · rw [List.mem_append, not_or]
    refine ⟨root.not_mem_resolve hcwd, fun hdots => ?_⟩
    exact absurd (hreached.shown.visible ".." hdots) (by decide)
  · rw [FileTree.at?_append, hroot]
    exact hfile

theorem scanned_deny (hdistinct : fs.tree.Distinct) (hcwd : ".." ∉ fs.cwd)
    (hlost : ∀ u ∈ lost, fs.tree.dirAt u = false)
    (hrules : ∀ root ∈ roots,
      fs.resolved ((root.resolve fs.cwd).join (Path.ofText ignoreFile)) ∉ lost) :
    scanned (fs.deny lost) ignoreFile roots = scanned fs ignoreFile roots := by
  induction roots with
  | nil => rfl
  | cons root roots ih =>
      obtain ⟨hfirst, hrest⟩ := List.forall_mem_cons.mp hrules
      rw [scanned, scanned, scan_deny hdistinct hcwd hlost hfirst, ih hrest]

structure Located (fs : FileSystem) (f : SourceFile) : Prop where
  place : fs.locate f.path = .ok f.path.components
  file : ∃ bytes, fs.tree.at? f.path.components = some (.file bytes)

theorem located_of_fileAt? {f : SourceFile} {components : List String} {bytes : List UInt8}
    (hpath : f.path = ⟨.root, components⟩) (hdots : ".." ∉ components)
    (hfile : fs.tree.fileAt? components = some bytes) : Located fs f := by
  have hnode := FileTree.fileAt?_eq_some.mp hfile
  refine ⟨?_, bytes, by rwa [hpath]⟩
  rw [hpath, FileSystem.locate]
  exact @FileSystem.follow_of_at? fs [] components _ hnode hdots

theorem located_of_scanned (hdistinct : fs.tree.Distinct) (hcwd : ".." ∉ fs.cwd) {f : SourceFile}
    (hf : f ∈ (scanned fs ignoreFile roots).1) : Located fs f := by
  obtain ⟨root, -, files, hscan, hf⟩ := exists_scan_of_scanned hf
  obtain ⟨components, bytes, hpath, hdots, hfile⟩ := exists_file_of_scan hdistinct hcwd hscan hf
  exact located_of_fileAt? hpath hdots (FileTree.fileAt?_eq_some.mpr hfile)

namespace Located

variable {f : SourceFile}

theorem deny (h : Located fs f) : Located (fs.deny lost) f :=
  ⟨(FileSystem.locate_deny f.path).trans h.place, h.file⟩

theorem dirAt_eq_false (h : Located fs f) : fs.tree.dirAt f.path.components = false := by
  obtain ⟨bytes, hfile⟩ := h.file
  rw [FileTree.dirAt, hfile]
  rfl

theorem isDenied_deny (h : Located fs f) :
    (fs.deny lost).isDenied f.path =
      (fs.isDenied f.path || decide (f.path.components ∈ lost)) := by
  rw [FileSystem.isDenied, FileSystem.locate_deny, FileSystem.isDenied, h.place]
  simp [FileSystem.deny, Except.toOption, Bool.or_comm]

theorem read (h : Located fs f) {bytes : List UInt8}
    (hfile : fs.tree.fileAt? f.path.components = some bytes) : fs.read f.path = .ok bytes := by
  have hplace := FileSystem.locate_ok h.place
  rw [FileSystem.read_eq_ok, ← hplace]
  exact ⟨h.place, hfile⟩

theorem leftOut_eq (h : Located fs f) : leftOut fs f = fs.isDenied f.path := by
  obtain ⟨bytes, hfile⟩ := h.file
  rw [leftOut, statementsAt?, FileSystem.readSource, h.read (FileTree.fileAt?_eq_some.mpr hfile)]
  cases fs.isDenied f.path <;> rfl

theorem classesOf_deny (h : Located fs f) :
    classesOf (fs.deny lost) markers f =
      if f.path.components ∈ lost then [] else classesOf fs markers f := by
  rw [classesOf, statementsAt?, FileSystem.readSource, h.isDenied_deny, FileSystem.read_deny,
    classesOf, statementsAt?, FileSystem.readSource]
  by_cases hmem : f.path.components ∈ lost
  · simp [hmem]
  · simp [hmem]

end Located

theorem flatMap_classesOf_deny {files : List SourceFile} (h : ∀ f ∈ files, Located fs f) :
    files.flatMap (classesOf (fs.deny lost) markers) =
      (files.filter (fun f => f.path.components ∉ lost)).flatMap (classesOf fs markers) := by
  induction files with
  | nil => rfl
  | cons f files ih =>
      obtain ⟨hfirst, hrest⟩ := List.forall_mem_cons.mp h
      rw [List.flatMap_cons, hfirst.classesOf_deny, ih hrest, List.filter_cons]
      by_cases hmem : f.path.components ∈ lost
      · rw [if_pos hmem, if_neg (by simpa using hmem)]
        rfl
      · rw [if_neg hmem, if_pos (by simpa using hmem)]
        rfl

/-- Source files that become unreadable affect only themselves, if none of them is an ignore file.
The scans list the same files and fail in the same way. Under each marker the entities of the lost
files are missing and the others stand in the order that they had, and one warning is recorded for
each time that a scan comes upon such a file. -/
theorem collect_deny (hdistinct : fs.tree.Distinct) (hcwd : ".." ∉ fs.cwd)
    (hlost : ∀ u ∈ lost, ∃ f ∈ (scanned fs ignoreFile roots).1, f.path.components = u)
    (hrules : ∀ root ∈ roots,
      fs.resolved ((root.resolve fs.cwd).join (Path.ofText ignoreFile)) ∉ lost)
    (markers : String) :
    let files := (scanned fs ignoreFile roots).1
    let kept := files.filter (fun f => f.path.components ∉ lost)
    let before := collect fs markers ignoreFile [] roots
    let after := collect (fs.deny lost) markers ignoreFile [] roots
    (∀ e, (scanned fs ignoreFile roots).2 = some e →
      before.2 = .error e ∧ after.2 = .error e) ∧
    ((scanned fs ignoreFile roots).2 = none →
      ∃ found left, before.2 = .ok found ∧ after.2 = .ok left ∧ ∀ marker,
        found.lookup marker =
          entry? (entitiesOf marker (files.flatMap (classesOf fs markers))) ∧
        left.lookup marker =
          entry? (entitiesOf marker (kept.flatMap (classesOf fs markers)))) ∧
    Diagnostics.ofNotices before.1 =
      (files.filter (fun f => fs.isDenied f.path)).map unreadable ∧
    Diagnostics.ofNotices after.1 =
      (files.filter
        (fun f => fs.isDenied f.path || decide (f.path.components ∈ lost))).map unreadable := by
  intro files kept before after
  have hlocated : ∀ f ∈ files, Located fs f :=
    fun f hf => located_of_scanned hdistinct hcwd hf
  have hfiles : ∀ u ∈ lost, fs.tree.dirAt u = false := by
    intro u hu
    obtain ⟨f, hf, rfl⟩ := hlost u hu
    exact (hlocated f hf).dirAt_eq_false
  have hscanned := scanned_deny hdistinct hcwd hfiles hrules
  have hbefore : before.2 = _ := collect_snd [] roots
  have hafter : after.2 = _ := collect_snd [] roots
  rw [hscanned, flatMap_classesOf_deny hlocated] at hafter
  refine ⟨?_, ?_, ?_, ?_⟩
  · intro e hfailure
    rw [hbefore, hafter, hfailure]
    exact ⟨rfl, rfl⟩
  · intro hfailure
    rw [hfailure] at hbefore hafter
    exact ⟨_, _, hbefore, hafter,
      fun marker => ⟨lookup_gather_nil _ marker, lookup_gather_nil _ marker⟩⟩
  · refine (ofNotices_collect [] roots).trans (congrArg _ (List.filter_congr fun f hf => ?_))
    exact (hlocated f hf).leftOut_eq
  · refine (ofNotices_collect [] roots).trans ?_
    rw [hscanned]
    refine congrArg _ (List.filter_congr fun f hf => ?_)
    rw [(hlocated f hf).deny.leftOut_eq, (hlocated f hf).isDenied_deny]

end

def hive : FileSystem :=
  let text (s : String) : FileTree := .file (Text.Utf8.encode s)
  ⟨.dir [
    ("ant.py", text "from tablegen.markers import table\n@table\nclass Ant:\n    legs: int\n"),
    ("bee.py", text "from tablegen.markers import table\n@table\nclass Bee:\n    wings: int\n")],
    [], []⟩

theorem collect_hive_without_ant :
    ∃ found left,
      (collect hive "tablegen.markers" ".gitignore" [] [⟨.relative, []⟩]).2 = .ok found ∧
      (collect (hive.deny [["ant.py"]]) "tablegen.markers" ".gitignore" []
        [⟨.relative, []⟩]).2 = .ok left ∧
      (found.lookup "tablegen.markers.table").map (fun es => es.map Entity.qualifiedName) =
        some ["ant.Ant", "bee.Bee"] ∧
      (left.lookup "tablegen.markers.table").map (fun es => es.map Entity.qualifiedName) =
        some ["bee.Bee"] ∧
      Diagnostics.ofNotices (collect (hive.deny [["ant.py"]]) "tablegen.markers" ".gitignore" []
          [⟨.relative, []⟩]).1 =
        [⟨.warning, "Could not read source file /ant.py", none, none⟩] := by
  have hdistinct : hive.tree.Distinct := .dir (by decide) (by simpa using ⟨.file _, .file _⟩)
  have hlost : ∀ u ∈ [["ant.py"]],
      ∃ f ∈ (scanned hive ".gitignore" [⟨.relative, []⟩]).1, f.path.components = u := by
    decide +kernel
  obtain ⟨-, hok, -, hafter⟩ := collect_deny hdistinct (by decide) hlost (by decide +kernel)
    "tablegen.markers"
  obtain ⟨found, left, hfound, hleft, hmarker⟩ := hok (by decide +kernel)
  obtain ⟨hwith, hwithout⟩ := hmarker "tablegen.markers.table"
  refine ⟨found, left, hfound, hleft, ?_, ?_, hafter.trans (by decide +kernel)⟩
  · rw [hwith]
    decide +kernel
  · rw [hwithout]
    decide +kernel

def hiveRules (rules : List UInt8) : FileSystem :=
  let text (s : String) : FileTree := .file (Text.Utf8.encode s)
  ⟨.dir [
    ("bee.py", text "from tablegen.markers import table\n@table\nclass Bee:\n    wings: int\n"),
    ("rules.py", .file rules)],
    [], []⟩

def tablesIn (found : MarkedEntities) : Option (List String) :=
  (found.lookup "tablegen.markers.table").map (fun es => es.map Entity.qualifiedName)

/-- An ignore file that cannot be read ends the scan, also if it is one of the sources: whether it
must not be read or holds no text. -/
theorem collect_without_rules :
    let rules := Text.Utf8.encode "# drones\n"
    let found := fun fs => (collect fs "tablegen.markers" "rules.py" [] [⟨.relative, []⟩]).2
    (scanned (hiveRules rules) "rules.py" [⟨.relative, []⟩]).1.map
        (fun f => f.path.components) = [["bee.py"], ["rules.py"]] ∧
      (found (hiveRules rules)).toOption.map tablesIn = some (some ["bee.Bee"]) ∧
      found ((hiveRules rules).deny [["rules.py"]]) =
        .error (.ignoreFile ⟨.denied, ⟨.root, ["rules.py"]⟩⟩) ∧
      found (hiveRules [0x23, 0xFF, 0x0A]) = .error (.ignoreText ⟨.invalidStart, 1, 1, 0xFF⟩) := by
  decide +kernel

end Source

end TypedTables
