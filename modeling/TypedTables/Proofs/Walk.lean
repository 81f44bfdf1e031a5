import TypedTables.Proofs.Sorted
import TypedTables.Source.Scan

namespace TypedTables.Source

structure Shown (names : List String) : Prop where
  visible : ∀ name ∈ names, isHidden name = false
  entered : ∀ name ∈ names.dropLast, name ≠ cacheDirectory

theorem Shown.cons {name : String} {rest : List String} (hname : isHidden name = false)
    (hopen : rest = [] ∨ name ≠ cacheDirectory) (h : Shown rest) : Shown (name :: rest) where
  visible := List.forall_mem_cons.mpr ⟨hname, h.visible⟩
  entered := by
    cases rest with
    | nil => simp
    | cons next rest =>
        have hcache : name ≠ cacheDirectory := hopen.resolve_left (List.cons_ne_nil next rest)
        rw [List.dropLast_cons_cons]
        exact List.forall_mem_cons.mpr ⟨hcache, h.entered⟩

section

variable {ignored : String → Bool} {denied : List String → Bool} {p : List String}

mutual

theorem shown_of_walk (below : List String) : (tree : FileTree) →
    p ∈ walk ignored denied below tree →
    ∃ rest, p = below ++ rest ∧ Shown rest ∧ (rest = [] ∨ below.getLast? ≠ some cacheDirectory)
  | .file bytes, h => by
      rw [walk, List.mem_singleton] at h
      exact ⟨[], by rw [h, List.append_nil], ⟨by simp, by simp⟩, .inl rfl⟩
  | .dir entries, h => by
      rw [walk] at h
      split at h
      · cases h
      · rename_i hopen
        rw [Bool.or_eq_true, not_or] at hopen
        obtain ⟨found, hfound, hp⟩ := List.mem_flatMap.mp h
        have hamong := (Sorted.perm_ofList _ _).mem_iff.mp hfound
        obtain ⟨rest, hrest, hshown⟩ := shown_of_walkAmong below entries found hamong hp
        exact ⟨rest, hrest, hshown, .inr (by simpa using hopen.1)⟩

theorem shown_of_walkAmong (below : List String) : (entries : List (String × FileTree)) →
    ∀ found ∈ walkAmong ignored denied below entries, p ∈ found.2 →
    ∃ rest, p = below ++ rest ∧ Shown rest
  | [], found, hfound, _ => by
      rw [walkAmong] at hfound
      cases hfound
  | (name, node) :: others, found, hfound, hp => by
      rw [walkAmong] at hfound
      split at hfound
      · exact shown_of_walkAmong below others found hfound hp
      · rename_i hkept
        rw [Bool.or_eq_true, not_or] at hkept
        rcases List.mem_cons.mp hfound with rfl | hfound
        · -- Below a directory of compiled files the walk is over, so the way ends with its name.
          obtain ⟨rest, hrest, hshown, hopen⟩ := shown_of_walk (below ++ [name]) node hp
          rw [List.append_assoc, List.singleton_append] at hrest
          rw [List.getLast?_concat] at hopen
          refine ⟨name :: rest, hrest, hshown.cons (by simpa using hkept.1) ?_⟩
          exact hopen.imp_right fun hne heq => hne (congrArg some heq)
        · exact shown_of_walkAmong below others found hfound hp

end

end

theorem exists_of_mem_mapM {ε α β : Type} {f : α → Except ε β} {xs : List α} {ys : List β}
    (h : xs.mapM f = .ok ys) {y : β} (hy : y ∈ ys) : ∃ x ∈ xs, f x = .ok y := by
  induction xs generalizing ys with
  | nil =>
      obtain rfl : [] = ys := Except.ok.inj h
      cases hy
  | cons x xs ih =>
      rw [List.mapM_cons] at h
      cases hfirst : f x with
      | error e => simp [hfirst, bind, Except.bind] at h
      | ok first =>
          cases hrest : xs.mapM f with
          | error e => simp [hfirst, hrest, bind, Except.bind] at h
          | ok rest =>
              simp only [hfirst, hrest, bind, Except.bind, pure, Except.pure] at h
              obtain rfl := Except.ok.inj h
              rcases List.mem_cons.mp hy with rfl | hy
              · exact ⟨x, List.mem_cons_self, hfirst⟩
              · obtain ⟨x', hx', hfound⟩ := ih hrest hy
                exact ⟨x', List.mem_cons_of_mem x hx', hfound⟩

theorem mapM_eq_ok {ε α β : Type} {f : α → Except ε β} {g : α → β} {xs : List α}
    (h : ∀ x ∈ xs, f x = .ok (g x)) : xs.mapM f = .ok (xs.map g) := by
  induction xs with
  | nil => rfl
  | cons x xs ih =>
      obtain ⟨hfirst, hrest⟩ := List.forall_mem_cons.mp h
      rw [List.mapM_cons, hfirst, ih hrest]
      rfl

def sourcesBelow (ignored : String → Bool) (denied : List String → Bool) (root : Path)
    (entries : List (String × FileTree)) : Except ScanError (List SourceFile) :=
  let files := walk ignored denied [] (.dir entries)
  let sources := files.filter (fun below =>
    (Path.splitSuffix (below.getLast?.getD "")).2 = sourceSuffix)
  sources.mapM (fun below => do
    let path : Path := ⟨root.anchor, root.components ++ below⟩
    let name ← (ModuleName.ofPath path root).mapError .path
    .ok ⟨path, name⟩)

theorem scan_eq {fs : FileSystem} {root : Path} {ignoreFile : String}
    {entries : List (String × FileTree)} {rules : List Ignore.Rule}
    (hroot : fs.node (root.resolve fs.cwd) = .ok (.dir entries))
    (hrules : ignoreRules fs ((root.resolve fs.cwd).join (Path.ofText ignoreFile)) = .ok rules) :
    scan fs root ignoreFile = sourcesBelow (Ignore.ignores rules)
      (fun below => fs.unreadable.contains ((root.resolve fs.cwd).components ++ below))
      (root.resolve fs.cwd) entries := by
  rw [scan]
  simp only [hroot, hrules, bind, Except.bind]
  rfl

theorem exists_of_scan_eq_ok {fs : FileSystem} {root : Path} {ignoreFile : String}
    {files : List SourceFile} (h : scan fs root ignoreFile = .ok files) :
    ∃ entries rules, fs.node (root.resolve fs.cwd) = .ok (.dir entries) ∧
      ignoreRules fs ((root.resolve fs.cwd).join (Path.ofText ignoreFile)) = .ok rules ∧
      sourcesBelow (Ignore.ignores rules)
        (fun below => fs.unreadable.contains ((root.resolve fs.cwd).components ++ below))
        (root.resolve fs.cwd) entries = .ok files := by
  have hscan := h
  rw [scan] at h
  cases hnode : fs.node (root.resolve fs.cwd) with
  | error e => simp [hnode] at h
  | ok node =>
      cases node with
      | file bytes => simp [hnode] at h
      | dir entries =>
          simp only [hnode] at h
          cases hrules : ignoreRules fs ((root.resolve fs.cwd).join (Path.ofText ignoreFile)) with
          | error e => simp [hrules, bind, Except.bind] at h
          | ok rules => exact ⟨entries, rules, rfl, rfl, (scan_eq hnode hrules).symm.trans hscan⟩

theorem exists_named_of_scan {fs : FileSystem} {root : Path} {ignoreFile : String}
    {files : List SourceFile} (h : scan fs root ignoreFile = .ok files) {f : SourceFile}
    (hf : f ∈ files) :
    ∃ parts, f.path = ⟨.root, (root.resolve fs.cwd).components ++ parts⟩ ∧ Shown parts ∧
      (Path.splitSuffix (parts.getLast?.getD "")).2 = sourceSuffix ∧
      ModuleName.ofPath f.path (root.resolve fs.cwd) = .ok f.name := by
  obtain ⟨entries, rules, -, -, hsources⟩ := exists_of_scan_eq_ok h
  obtain ⟨parts, hparts, hfile⟩ := exists_of_mem_mapM hsources hf
  obtain ⟨hwalk, hsuffix⟩ := List.mem_filter.mp hparts
  obtain ⟨rest, hrest, hshown, -⟩ := shown_of_walk [] _ hwalk
  obtain rfl : parts = rest := hrest
  dsimp only at hfile
  cases hname : ModuleName.ofPath ⟨(root.resolve fs.cwd).anchor,
      (root.resolve fs.cwd).components ++ parts⟩ (root.resolve fs.cwd) with
  | error e =>
      rw [hname] at hfile
      cases hfile
  | ok name =>
      rw [hname] at hfile
      obtain rfl := Except.ok.inj hfile
      exact ⟨parts, rfl, hshown, of_decide_eq_true hsuffix, hname⟩

theorem exists_shown_of_scan {fs : FileSystem} {root : Path} {ignoreFile : String}
    {files : List SourceFile} (h : scan fs root ignoreFile = .ok files) {f : SourceFile}
    (hf : f ∈ files) :
    ∃ parts, f.path = ⟨.root, (root.resolve fs.cwd).components ++ parts⟩ ∧ Shown parts ∧
      (Path.splitSuffix (parts.getLast?.getD "")).2 = sourceSuffix := by
  obtain ⟨parts, hpath, hshown, hsuffix, -⟩ := exists_named_of_scan h hf
  exact ⟨parts, hpath, hshown, hsuffix⟩

end TypedTables.Source
