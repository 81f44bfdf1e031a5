import TypedTables.Proofs.Output

namespace TypedTables

theorem FileTree.isSome_at? (tree : FileTree) (location : List String) :
    (tree.at? location).isSome = (tree.dirAt location || (tree.fileAt? location).isSome) := by
  rw [dirAt, fileAt?]
  cases tree.at? location with
  | none => rfl
  | some node => cases node <;> rfl

namespace FileSystem

theorem contains_iff {fs : FileSystem} {p : Path} :
    fs.contains p = true ↔
      fs.locate p = .ok (fs.resolved p) ∧ (fs.tree.at? (fs.resolved p)).isSome = true := by
  rw [contains, node]
  cases hlocate : fs.locate p with
  | error e => simp [Except.toOption, bind, Except.bind]
  | ok location =>
      obtain rfl := locate_ok hlocate
      cases hnode : fs.tree.at? (fs.resolved p) <;>
        simp [Except.toOption, bind, Except.bind, hnode]

/-- Files are set at some locations, empty ones appear at others, and everything else stays. -/
structure Grows (written fresh : List String → Prop) (fs fs' : FileSystem) : Prop where
  changes : fs.ChangesOnly (fun location => written location ∨ fresh location) fs'
  fills : ∀ location, ¬ written location →
    fs'.tree.fileAt? location = fs.tree.fileAt? location ∨
      fresh location ∧ fs.tree.fileAt? location = none ∧ fs'.tree.fileAt? location = some []
  kept : ∀ location, (fs.tree.fileAt? location).isSome = true →
    (fs'.tree.fileAt? location).isSome = true

theorem ChangesOnly.grows {written fresh : List String → Prop} {fs fs' : FileSystem}
    (h : fs.ChangesOnly (fun _ => False) fs') : Grows written fresh fs fs' where
  changes := h.mono fun _ => False.elim
  fills := fun location _ => .inl (h.files location not_false)
  kept := by
    intro location hlocation
    rwa [h.files location not_false]

namespace Grows

variable {written fresh more added : List String → Prop} {fs fs' fs'' : FileSystem} {p : Path}

theorem refl (written fresh : List String → Prop) (fs : FileSystem) : Grows written fresh fs fs :=
  (ChangesOnly.refl _ fs).grows

theorem trans (first : Grows written fresh fs fs') (second : Grows written fresh fs' fs'') :
    Grows written fresh fs fs'' where
  changes := first.changes.trans second.changes
  kept := fun location h => second.kept location (first.kept location h)
  fills := by
    intro location hlocation
    rcases second.fills location hlocation with hsame | ⟨hfresh, hnone, hempty⟩
    · rw [hsame]
      exact first.fills location hlocation
    · rcases first.fills location hlocation with hsame | ⟨-, -, hempty'⟩
      · exact .inr ⟨hfresh, hsame ▸ hnone, hempty⟩
      · -- What has been filled in is there and is not filled in again.
        rw [hempty'] at hnone
        cases hnone

theorem mono (h : Grows written fresh fs fs') (hmore : ∀ location, written location → more location)
    (hadded : ∀ location, fresh location → added location) : Grows more added fs fs' where
  changes := h.changes.mono fun location => Or.imp (hmore location) (hadded location)
  kept := h.kept
  fills := by
    intro location hlocation
    rcases h.fills location (mt (hmore location) hlocation) with hsame | ⟨hfresh, hempty⟩
    · exact .inl hsame
    · exact .inr ⟨hadded location hfresh, hempty⟩

theorem resolved (h : Grows written fresh fs fs') (p : Path) : fs'.resolved p = fs.resolved p :=
  h.changes.resolved p

theorem contains (h : Grows written fresh fs fs') (hp : fs.contains p = true) :
    fs'.contains p = true := by
  obtain ⟨hlocate, hthere⟩ := contains_iff.mp hp
  rw [FileTree.isSome_at?, Bool.or_eq_true] at hthere
  rw [contains_iff, h.resolved, FileTree.isSome_at?, Bool.or_eq_true]
  exact ⟨h.changes.locate hlocate, hthere.imp (h.changes.dirs _) (h.kept _)⟩

end Grows

theorem write_grows {fs fs' : FileSystem} {p : Path} {bytes : List UInt8}
    (h : fs.write p bytes = .ok fs') : Grows (· = fs.resolved p) (fun _ => False) fs fs' := by
  obtain ⟨hchanges, hfile⟩ := write_ok h
  constructor
  case changes => exact hchanges.mono fun _ => .inl
  case fills => exact fun location hlocation => .inl (hchanges.files location hlocation)
  case kept =>
    intro location hlocation
    by_cases heq : location = fs.resolved p
    · rw [heq, hfile]
      rfl
    · rwa [hchanges.files location heq]

theorem locate_of_write {fs fs' : FileSystem} {p : Path} {bytes : List UInt8}
    (h : fs.write p bytes = .ok fs') : fs.locate p = .ok (fs.resolved p) := by
  rw [write] at h
  cases hlocate : fs.locate p with
  | error e => simp [hlocate, bind, Except.bind] at h
  | ok location => rw [locate_ok hlocate]

theorem read_of_write {fs fs' : FileSystem} {p : Path} {bytes : List UInt8}
    (h : fs.write p bytes = .ok fs') : fs'.read p = .ok bytes := by
  obtain ⟨hchanges, hfile⟩ := write_ok h
  rw [read_eq_ok, hchanges.resolved]
  exact ⟨hchanges.locate (locate_of_write h), hfile⟩

theorem contains_of_read {fs : FileSystem} {p : Path} {bytes : List UInt8}
    (h : fs.read p = .ok bytes) : fs.contains p = true := by
  obtain ⟨hlocate, hfile⟩ := read_eq_ok.mp h
  rw [contains_iff, FileTree.isSome_at?, hfile]
  exact ⟨hlocate, Bool.or_true _⟩

theorem write_fills {fs fs' : FileSystem} {p : Path} (hnone : fs.contains p = false)
    (h : fs.write p [] = .ok fs') : Grows (fun _ => False) (· = fs.resolved p) fs fs' := by
  have hgrows := write_grows h
  have hvacant : fs.tree.fileAt? (fs.resolved p) = none := by
    cases hfile : fs.tree.fileAt? (fs.resolved p) with
    | none => rfl
    | some bytes =>
        have hread := read_eq_ok.mpr ⟨locate_of_write h, hfile⟩
        rw [contains_of_read hread] at hnone
        cases hnone
  constructor
  case changes => exact hgrows.changes.mono fun _ => Or.symm
  case kept => exact hgrows.kept
  case fills =>
    intro location _
    by_cases heq : location = fs.resolved p
    · subst heq
      exact .inr ⟨rfl, hvacant, (write_ok h).2⟩
    · rcases hgrows.fills location heq with hsame | ⟨hfalse, -⟩
      · exact .inl hsame
      · exact hfalse.elim

section

variable {fs fs' : FileSystem} {p : Path}

theorem isDir_iff : fs.isDir p = true ↔
    fs.locate p = .ok (fs.resolved p) ∧ fs.tree.dirAt (fs.resolved p) = true := by
  rw [isDir, node, FileTree.dirAt]
  cases hlocate : fs.locate p with
  | error e => simp [Except.toOption, bind, Except.bind]
  | ok location =>
      obtain rfl := locate_ok hlocate
      cases hnode : fs.tree.at? (fs.resolved p) <;>
        simp [Except.toOption, bind, Except.bind, hnode]

theorem dirAt_of_makeDir (h : fs.makeDir p = .ok fs') :
    fs'.tree.dirAt (fs.resolved p) = true := by
  rw [makeDir] at h
  cases hlocate : fs.locate p with
  | error e => simp [hlocate, bind, Except.bind] at h
  | ok location =>
      obtain rfl := locate_ok hlocate
      simp only [hlocate, bind, Except.bind] at h
      split at h
      · cases h
      · rename_i hnone
        have hvacant : fs.tree.dirAt (fs.resolved p) = false := by simp [FileTree.dirAt, hnone]
        obtain ⟨-, -, -, hdir, -⟩ := place_ok rfl hvacant h
        rw [hdir, if_pos rfl]
        rfl

theorem dirAt_of_ensureDir (h : fs.ensureDir p = .ok fs') :
    fs'.tree.dirAt (fs.resolved p) = true := by
  rw [ensureDir] at h
  split at h
  · rename_i hmade
    obtain rfl := Except.ok.inj h
    exact dirAt_of_makeDir hmade
  · cases h
  · split at h
    · rename_i hdir
      obtain rfl := Except.ok.inj h
      exact (isDir_iff.mp hdir).2
    · cases h

theorem dirAt_of_ensureDirs (h : fs.ensureDirs p = .ok fs') :
    fs'.tree.dirAt (fs.resolved p) = true := by
  rw [ensureDirs] at h
  split at h
  · rename_i hmade
    obtain rfl := Except.ok.inj h
    exact dirAt_of_ensureDir hmade
  · split at h
    · cases h
    · cases habove : fs.ensureDirs p.parent with
      | error f => simp [habove, bind, Except.bind] at h
      | ok above =>
          simp only [habove, bind, Except.bind] at h
          cases hmade : above.ensureDir p with
          | error e =>
              rw [hmade] at h
              cases h
          | ok made =>
              rw [hmade] at h
              obtain rfl := Except.ok.inj h
              rw [← (ensureDirs_ok habove).resolved p]
              exact dirAt_of_ensureDir hmade
  · cases h

end

end FileSystem

namespace Output

open FileSystem Text

theorem writeMissing_ok {o : Output} {fs fs' : FileSystem} {paths : List Path}
    (h : o.writeMissing fs paths = (fs', none)) :
    Grows (fun _ => False) (fun location => ∃ p ∈ paths, location = fs.resolved (o.leads p))
        fs fs' ∧
      ∀ p ∈ paths, fs'.contains (o.leads p) = true := by
  induction paths generalizing fs with
  | nil =>
      obtain ⟨rfl, -⟩ := Prod.mk.inj h
      exact ⟨.refl _ _ _, by simp⟩
  | cons path paths ih =>
      have hwider : ∀ location, (∃ p ∈ paths, location = fs.resolved (o.leads p)) →
          ∃ p ∈ path :: paths, location = fs.resolved (o.leads p) := by
        rintro location ⟨p, hp, rfl⟩
        exact ⟨p, List.mem_cons_of_mem path hp, rfl⟩
      rw [writeMissing] at h
      split at h
      · rename_i hthere
        obtain ⟨hgrows, hrest⟩ := ih h
        exact ⟨hgrows.mono (fun _ => id) hwider,
          List.forall_mem_cons.mpr ⟨hgrows.contains hthere, hrest⟩⟩
      · rename_i hmissing
        split at h
        · rename_i made hwrite
          have hfirst := write_fills (Bool.eq_false_iff.mpr hmissing) hwrite
          obtain ⟨hgrows, hrest⟩ := ih h
          have hlater : Grows (fun _ => False)
              (fun location => ∃ p ∈ path :: paths, location = fs.resolved (o.leads p))
              made fs' := by
            refine hgrows.mono (fun _ => id) ?_
            intro location hlocation
            simp only [hfirst.resolved] at hlocation
            exact hwider location hlocation
          refine ⟨(hfirst.mono (fun _ => id) ?_).trans hlater, ?_⟩
          · rintro location rfl
            exact ⟨path, List.mem_cons_self, rfl⟩
          · have hthere := contains_of_read (read_of_write hwrite)
            exact List.forall_mem_cons.mpr ⟨hgrows.contains hthere, hrest⟩
        · cases h

def MakesPackage (o : Output) (fs : FileSystem) (package : String) (location : List String) :
    Prop :=
  o.makesPackages = true ∧ ∃ p ∈ o.packageFiles package, location = fs.resolved (o.leads p)

structure Wrote (o : Output) (package fileName content : String) (fs fs' : FileSystem) : Prop where
  grows : Grows (· = fs.resolved (o.leads (o.filePath package fileName)))
    (o.MakesPackage fs package) fs fs'
  read : fs'.read (o.leads (o.filePath package fileName)) = .ok (Utf8.encode content)
  directory : fs'.tree.dirAt (fs.resolved (o.leads (o.packageDir package))) = true
  package : o.makesPackages = true →
    ∀ p ∈ o.packageFiles package, fs'.contains (o.leads p) = true

theorem wrote_of_ok {o : Output} {fs fs' : FileSystem} {package fileName content : String}
    {path : Path} (h : o.write fs package fileName content = (fs', .ok path)) :
    o.Wrote package fileName content fs fs' := by
  rw [Output.write] at h
  split at h
  · simp at h
  · rename_i made hmade
    split at h
    · simp at h
    · rename_i packages hpackages
      dsimp only at h
      split at h
      · rename_i done hwrite
        obtain ⟨rfl, -⟩ := Prod.mk.inj h
        have hdirs : Grows (fun _ => False) (o.MakesPackage fs package) fs made :=
          (ensureDirs_ok hmade).grows
        obtain ⟨hfilled, hinits⟩ := writeMissing_ok hpackages
        have hfresh : Grows (fun _ => False) (o.MakesPackage fs package) made packages := by
          refine hfilled.mono (fun _ => id) ?_
          rintro location ⟨p, hp, rfl⟩
          split at hp
          · rename_i hmakes
            exact ⟨hmakes, p, hp, hdirs.resolved _⟩
          · cases hp
        have hbefore := hdirs.trans hfresh
        have hlast := write_grows hwrite
        rw [hbefore.resolved] at hlast
        constructor
        case grows =>
          exact (hbefore.mono (fun _ => False.elim) (fun _ => id)).trans
            (hlast.mono (fun _ => id) (fun _ => False.elim))
        case read => exact read_of_write hwrite
        case directory =>
          exact hlast.changes.dirs _ (hfresh.changes.dirs _ (dirAt_of_ensureDirs hmade))
        case package =>
          intro hmakes p hp
          rw [if_pos hmakes] at hinits
          exact hlast.contains (hinits p hp)
      · simp at h

end Output

end TypedTables
