import Mathlib.Data.List.Basic
import TypedTables.Output
import TypedTables.Proofs.FileSystem
import TypedTables.Proofs.Names

namespace TypedTables.Output

theorem getLast?_packageFiles {o : Output} {package : String} {p : Path}
    (hp : p ∈ o.packageFiles package) : p.components.getLast? = some "__init__.py" := by
  obtain ⟨depth, -, rfl⟩ := List.mem_map.mp hp
  rw [Path.joinAll, List.foldl_append]
  change (_ ++ ["__init__.py"]).getLast? = _
  exact List.getLast?_concat

theorem leads_of_links_eq_nil {o : Output} (h : o.links = []) (p : Path) : o.leads p = p := by
  rw [leads, h]
  rfl

/-- No link stands above the output directory, in its place or below it. -/
def Unlinked (o : Output) : Prop :=
  ∀ link ∈ o.links, link.1.anchor = o.directory.anchor →
    ¬ link.1.components <+: o.directory.components ∧
      ¬ o.directory.components <+: link.1.components

instance (o : Output) : Decidable o.Unlinked :=
  inferInstanceAs (Decidable (∀ link ∈ o.links, link.1.anchor = o.directory.anchor →
    ¬ link.1.components <+: o.directory.components ∧
      ¬ o.directory.components <+: link.1.components))

theorem Unlinked.leads_below {o : Output} (h : o.Unlinked) (parts : List String) :
    o.leads ⟨o.directory.anchor, o.directory.components ++ parts⟩ =
      ⟨o.directory.anchor, o.directory.components ++ parts⟩ := by
  rw [leads, List.findSome?_eq_none_iff.mpr]
  · rfl
  · intro link hlink
    rw [Option.map_eq_none_iff, Option.eq_none_iff_forall_ne_some]
    intro rest hrest
    obtain ⟨hanchor, hparts⟩ := Path.below?_eq_some.mp hrest
    obtain ⟨habove, hbelow⟩ := h link hlink hanchor.symm
    -- the link and the directory both begin the path, so one of them begins the other
    rcases List.prefix_or_prefix_of_prefix ⟨rest, hparts.symm⟩
      (List.prefix_append o.directory.components parts) with hprefix | hprefix
    · exact habove hprefix
    · exact hbelow hprefix

theorem getLast?_leads {o : Output} {p : Path} {name : String}
    (hp : p.components.getLast? = some name)
    (hlinks : ∀ link ∈ o.links, link.1.components.getLast? ≠ some name) :
    (o.leads p).components.getLast? = some name := by
  rw [leads]
  cases hfind : o.links.findSome? (fun link => (p.below? link.1).map
      (fun rest => (⟨link.2.anchor, link.2.components ++ rest⟩ : Path))) with
  | none => exact hp
  | some q =>
      obtain ⟨link, hlink, hq⟩ := List.exists_of_findSome?_eq_some hfind
      obtain ⟨rest, hrest, rfl⟩ := Option.map_eq_some_iff.mp hq
      obtain ⟨-, hparts⟩ := Path.below?_eq_some.mp hrest
      have hne : rest ≠ [] := by
        rintro rfl
        rw [List.append_nil] at hparts
        exact hlinks link hlink (hparts ▸ hp)
      rw [hparts, List.getLast?_append_of_ne_nil _ hne] at hp
      exact (List.getLast?_append_of_ne_nil _ hne).trans hp

theorem writeMissing_changes (o : Output) (fs : FileSystem) (paths : List Path) :
    fs.ChangesOnly (fun location => ∃ p ∈ paths, location = fs.resolved (o.leads p))
      (o.writeMissing fs paths).1 := by
  induction paths generalizing fs with
  | nil => exact .refl _ fs
  | cons path paths ih =>
      rw [writeMissing]
      split
      · refine (ih fs).mono ?_
        rintro location ⟨p, hp, rfl⟩
        exact ⟨p, List.mem_cons_of_mem path hp, rfl⟩
      · split
        · rename_i fs' hwrite
          have hfirst := (FileSystem.write_ok hwrite).1
          refine (hfirst.mono ?_).trans ((ih fs').mono ?_)
          · rintro location rfl
            exact ⟨path, List.mem_cons_self, rfl⟩
          · rintro location ⟨p, hp, rfl⟩
            exact ⟨p, List.mem_cons_of_mem path hp, hfirst.resolved _⟩
        · exact .refl _ fs

theorem write_changes (o : Output) (fs : FileSystem) (package fileName content : String) :
    fs.ChangesOnly (fun location => location = fs.resolved (o.leads (o.filePath package fileName)) ∨
      ∃ p ∈ o.packageFiles package, location = fs.resolved (o.leads p))
      (o.write fs package fileName content).1 := by
  rw [write]
  split
  · exact .refl _ fs
  · rename_i made hmade
    have hdirs := FileSystem.ensureDirs_ok hmade
    have hmissing : made.ChangesOnly (fun location =>
        ∃ p ∈ o.packageFiles package, location = made.resolved (o.leads p))
        (o.writeMissing made (if o.makesPackages then o.packageFiles package else [])).1 := by
      refine (o.writeMissing_changes made _).mono ?_
      rintro location ⟨p, hp, rfl⟩
      split at hp
      · exact ⟨p, hp, rfl⟩
      · cases hp
    have hbefore : fs.ChangesOnly (fun location =>
        location = fs.resolved (o.leads (o.filePath package fileName)) ∨
          ∃ p ∈ o.packageFiles package, location = fs.resolved (o.leads p))
        (o.writeMissing made (if o.makesPackages then o.packageFiles package else [])).1 := by
      refine (hdirs.mono fun _ => False.elim).trans (hmissing.mono ?_)
      rintro location ⟨p, hp, rfl⟩
      exact .inr ⟨p, hp, hdirs.resolved _⟩
    split
    · rename_i hpackages
      rwa [hpackages] at hbefore
    · rename_i packages hpackages
      rw [hpackages] at hbefore
      dsimp only
      split
      · rename_i written hwrite
        refine hbefore.trans ((FileSystem.write_ok hwrite).1.mono ?_)
        rintro location rfl
        exact .inl (hbefore.resolved _)
      · exact hbefore

theorem write_ok {o : Output} {fs fs' : FileSystem} {package fileName content : String}
    {path : Path} (h : o.write fs package fileName content = (fs', .ok path)) :
    path = o.filePath package fileName := by
  rw [Output.write] at h
  split at h
  · simp at h
  · split at h
    · simp at h
    · dsimp only at h
      split at h
      · simp only [Prod.mk.injEq, Except.ok.injEq] at h
        exact h.2.symm
      · simp at h

end TypedTables.Output
