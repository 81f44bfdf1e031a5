import TypedTables.File.System
import TypedTables.Proofs.FileTree

namespace TypedTables

namespace Path

theorem resolveFrom_append (location cs ds : List String) :
    resolveFrom location (cs ++ ds) = resolveFrom (resolveFrom location cs) ds := by
  induction cs generalizing location with
  | nil => rfl
  | cons c cs ih => exact ih _

theorem getLast?_resolve {p : Path} {name : String} (h : p.components.getLast? = some name)
    (hname : name ≠ "..") (cwd : List String) :
    (p.resolve cwd).components.getLast? = some name := by
  obtain ⟨above, hsplit⟩ := List.getLast?_eq_some_iff.mp h
  rw [resolve, hsplit, resolveFrom_append]
  simp [resolveFrom, hname]

end Path

namespace FileSystem

def resolved (fs : FileSystem) (p : Path) : List String :=
  (p.resolve fs.cwd).components

theorem follow_ok {fs : FileSystem} {location found : List String} {cs : List String}
    (h : fs.follow location cs = .ok found) : found = Path.resolveFrom location cs := by
  induction cs generalizing location with
  | nil => exact (Except.ok.inj h).symm
  | cons c cs ih =>
      rw [follow] at h
      split at h
      · cases h
      · cases h
      · exact ih h

theorem locate_ok {fs : FileSystem} {p : Path} {found : List String}
    (h : fs.locate p = .ok found) : found = fs.resolved p :=
  follow_ok h

theorem read_eq_ok {fs : FileSystem} {p : Path} {bytes : List UInt8} :
    fs.read p = .ok bytes ↔
      fs.locate p = .ok (fs.resolved p) ∧ fs.tree.fileAt? (fs.resolved p) = some bytes := by
  rw [read, node, FileTree.fileAt?]
  cases hlocate : fs.locate p with
  | error e => simp [bind, Except.bind]
  | ok location =>
      obtain rfl := locate_ok hlocate
      cases hnode : fs.tree.at? (fs.resolved p) with
      | none => simp [bind, Except.bind, hnode]
      | some node => cases node <;> simp [bind, Except.bind, hnode]

theorem isFile_iff {fs : FileSystem} {p : Path} :
    fs.isFile p = true ↔ ∃ bytes, fs.read p = .ok bytes := by
  rw [isFile, read]
  cases hnode : fs.node p with
  | error e => simp [Except.toOption, bind, Except.bind]
  | ok node => cases node <;> simp [Except.toOption, bind, Except.bind, FileTree.isDir]

/-- Directories stay, and no regular file changes except at some locations. A tree in which names
are distinct stays one. -/
structure ChangesOnly (touched : List String → Prop) (fs fs' : FileSystem) : Prop where
  cwd : fs'.cwd = fs.cwd
  unreadable : fs'.unreadable = fs.unreadable
  dirs : ∀ location, fs.tree.dirAt location = true → fs'.tree.dirAt location = true
  files : ∀ location, ¬ touched location → fs'.tree.fileAt? location = fs.tree.fileAt? location
  distinct : fs.tree.Distinct → fs'.tree.Distinct

namespace ChangesOnly

variable {touched more : List String → Prop} {fs fs' fs'' : FileSystem} {p : Path}

theorem refl (touched : List String → Prop) (fs : FileSystem) : ChangesOnly touched fs fs :=
  ⟨rfl, rfl, fun _ h => h, fun _ _ => rfl, id⟩

theorem trans (first : ChangesOnly touched fs fs') (second : ChangesOnly touched fs' fs'') :
    ChangesOnly touched fs fs'' where
  cwd := second.cwd.trans first.cwd
  unreadable := second.unreadable.trans first.unreadable
  dirs := fun location h => second.dirs location (first.dirs location h)
  files := fun location h => (second.files location h).trans (first.files location h)
  distinct := second.distinct ∘ first.distinct

theorem mono (h : ChangesOnly touched fs fs')
    (hmore : ∀ location, touched location → more location) : ChangesOnly more fs fs' :=
  ⟨h.cwd, h.unreadable, h.dirs, fun location hm => h.files location (mt (hmore location) hm),
    h.distinct⟩

theorem resolved (h : ChangesOnly touched fs fs') (p : Path) : fs'.resolved p = fs.resolved p := by
  rw [FileSystem.resolved, h.cwd, FileSystem.resolved]

theorem follow (h : ChangesOnly touched fs fs') {location found cs : List String}
    (hfound : fs.follow location cs = .ok found) : fs'.follow location cs = .ok found := by
  induction cs generalizing location with
  | nil => exact hfound
  | cons c cs ih =>
      rw [FileSystem.follow] at hfound ⊢
      cases hnode : fs.tree.at? location with
      | none => simp [hnode] at hfound
      | some node =>
          cases node with
          | file bytes => simp [hnode] at hfound
          | dir entries =>
              have hdir := h.dirs location (by simp [FileTree.dirAt, hnode, FileTree.isDir])
              rw [hnode] at hfound
              rw [FileTree.dirAt] at hdir
              cases hnode' : fs'.tree.at? location with
              | none => simp [hnode'] at hdir
              | some node' =>
                  cases node' with
                  | file bytes => simp [hnode', FileTree.isDir] at hdir
                  | dir entries' => exact ih hfound

theorem locate (h : ChangesOnly touched fs fs') {found : List String}
    (hfound : fs.locate p = .ok found) : fs'.locate p = .ok found := by
  rw [FileSystem.locate, h.cwd]
  exact h.follow hfound

theorem read_eq (h : ChangesOnly touched fs fs') (hp : ¬ touched (fs.resolved p))
    (hreach : (fs.tree.fileAt? (fs.resolved p)).isSome = true → fs.isFile p = true) :
    (fs'.read p).toOption = (fs.read p).toOption := by
  have hsame := h.files _ hp
  cases hread : fs.read p with
  | ok bytes =>
      obtain ⟨hlocate, hfile⟩ := read_eq_ok.mp hread
      have hread' : fs'.read p = .ok bytes := by
        rw [read_eq_ok, h.resolved, hsame]
        exact ⟨h.locate hlocate, hfile⟩
      rw [hread']
  | error e =>
      cases hread' : fs'.read p with
      | error e' => rfl
      | ok bytes =>
          obtain ⟨-, hfile⟩ := read_eq_ok.mp hread'
          rw [h.resolved, hsame] at hfile
          obtain ⟨bytes', hbytes⟩ := isFile_iff.mp (hreach (by rw [hfile]; rfl))
          rw [hread] at hbytes
          cases hbytes

end ChangesOnly

section

variable {fs fs' : FileSystem} {p : Path}

theorem place_ok {node : FileTree} {location : List String} (hnode : node.entries = [])
    (hvacant : fs.tree.dirAt location = false) (h : fs.place node location = .ok fs') :
    fs'.cwd = fs.cwd ∧ fs'.unreadable = fs.unreadable ∧
      (∀ other, fs'.tree.fileAt? other =
        if other = location then node.fileAt? [] else fs.tree.fileAt? other) ∧
      (∀ other, fs'.tree.dirAt other =
        if other = location then node.isDir else fs.tree.dirAt other) ∧
      (node.Distinct → fs.tree.Distinct → fs'.tree.Distinct) := by
  rw [place] at h
  split at h
  · rename_i entries hdir
    have habove : fs.tree.dirAt location.dropLast = true := by
      simp [FileTree.dirAt, hdir, FileTree.isDir]
    obtain rfl := Except.ok.inj h
    obtain rfl | ⟨above, name, rfl⟩ := location.eq_nil_or_concat
    · rw [List.dropLast_nil, hvacant] at habove
      cases habove
    · rw [List.concat_eq_append] at hvacant habove ⊢
      rw [List.dropLast_concat] at habove
      exact ⟨rfl, rfl, FileTree.fileAt?_put_leaf hnode habove hvacant,
        FileTree.dirAt_put_leaf hnode habove hvacant, fun hleaf htree => htree.put hleaf _⟩
  · cases h
  · cases h

theorem write_ok {bytes : List UInt8} (h : fs.write p bytes = .ok fs') :
    ChangesOnly (· = fs.resolved p) fs fs' ∧
      fs'.tree.fileAt? (fs.resolved p) = some bytes := by
  rw [write] at h
  cases hlocate : fs.locate p with
  | error e => simp [hlocate, bind, Except.bind] at h
  | ok location =>
      obtain rfl := locate_ok hlocate
      simp only [hlocate, bind, Except.bind] at h
      split at h
      · cases h
      · rename_i hother
        have hvacant : fs.tree.dirAt (fs.resolved p) = false := by
          cases hnode : fs.tree.at? (fs.resolved p) with
          | none => simp [FileTree.dirAt, hnode]
          | some node =>
              cases node with
              | file old => simp [FileTree.dirAt, hnode, FileTree.isDir]
              | dir entries => exact absurd hnode (hother entries)
        obtain ⟨hcwd, hunreadable, hfile, hdir, hdistinct⟩ := place_ok rfl hvacant h
        refine ⟨⟨hcwd, hunreadable, ?_, ?_, hdistinct (.file bytes)⟩, ?_⟩
        · intro location hlocation
          rw [hdir, if_neg, hlocation]
          rintro rfl
          rw [hvacant] at hlocation
          cases hlocation
        · intro location hlocation
          rw [hfile, if_neg hlocation]
        · rw [hfile, if_pos rfl]
          rfl

theorem makeDir_ok (h : fs.makeDir p = .ok fs') : ChangesOnly (fun _ => False) fs fs' := by
  rw [makeDir] at h
  cases hlocate : fs.locate p with
  | error e => simp [hlocate, bind, Except.bind] at h
  | ok location =>
      simp only [hlocate, bind, Except.bind] at h
      split at h
      · cases h
      · rename_i hnone
        have hvacant : fs.tree.dirAt location = false := by simp [FileTree.dirAt, hnone]
        obtain ⟨hcwd, hunreadable, hfile, hdir, hdistinct⟩ := place_ok rfl hvacant h
        refine ⟨hcwd, hunreadable, ?_, ?_, hdistinct (.dir .nil (List.forall_mem_nil _))⟩
        · intro other hother
          rw [hdir, hother]
          split <;> rfl
        · intro other _
          rw [hfile]
          split
          · subst other
            simp [FileTree.fileAt?, hnone, FileTree.at?, FileTree.empty]
          · rfl

theorem ensureDir_ok (h : fs.ensureDir p = .ok fs') : ChangesOnly (fun _ => False) fs fs' := by
  rw [ensureDir] at h
  split at h
  · rename_i hmade
    obtain rfl := Except.ok.inj h
    exact makeDir_ok hmade
  · cases h
  · split at h
    · obtain rfl := Except.ok.inj h
      exact .refl _ _
    · cases h

theorem ensureDirs_ok (h : fs.ensureDirs p = .ok fs') : ChangesOnly (fun _ => False) fs fs' := by
  fun_induction ensureDirs fs p generalizing fs' with
  | case1 p made hmade =>
      obtain rfl := Except.ok.inj h
      exact ensureDir_ok hmade
  | case2 => cases h
  | case3 p hmissing hne ih =>
      cases habove : fs.ensureDirs p.parent with
      | error f => simp [habove, bind, Except.bind] at h
      | ok above =>
          simp only [habove, bind, Except.bind] at h
          cases hmade : above.ensureDir p with
          | error e =>
              rw [hmade] at h
              cases h
          | ok made =>
              rw [hmade] at h
              obtain rfl := Except.ok.inj h
              exact (ih habove).trans (ensureDir_ok hmade)
  | case4 => cases h

end

end FileSystem

end TypedTables
