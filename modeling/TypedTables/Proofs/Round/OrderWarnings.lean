import TypedTables.Proofs.Round.Completion
import TypedTables.Proofs.Round.Markers
import TypedTables.Proofs.Scan
import TypedTables.Proofs.SourceCache

namespace TypedTables

open Source

namespace FieldOrder

def Warns (d : Diagnostic) : Prop :=
  d.severity = .warning ∧
    ("Source of entity not available".toList <+: d.message.toList ∨
      "Fields not found in source (".toList <+: d.message.toList)

end FieldOrder

namespace Round

open FieldOrder (Warns)

def NoOrderWarning (notices : List Notice) : Prop :=
  ∀ d ∈ Diagnostics.ofNotices notices, ¬ Warns d

namespace NoOrderWarning

theorem append {xs ys : List Notice} (hxs : NoOrderWarning xs) (hys : NoOrderWarning ys) :
    NoOrderWarning (xs ++ ys) := by
  intro d hd
  rw [Diagnostics.ofNotices_append, List.mem_append] at hd
  exact hd.elim (hxs d) (hys d)

theorem flatMap {α : Type} {f : α → List Notice} {xs : List α}
    (h : ∀ x ∈ xs, NoOrderWarning (f x)) : NoOrderWarning (xs.flatMap f) := by
  intro d hd
  rw [Diagnostics.ofNotices_flatMap] at hd
  obtain ⟨x, hx, hd⟩ := List.mem_flatMap.mp hd
  exact h x hx d hd

theorem of_ofNotices_eq_nil {notices : List Notice} (h : Diagnostics.ofNotices notices = []) :
    NoOrderWarning notices := by
  intro d hd
  simp [h] at hd

theorem error (message : String) (entity field : Option String) :
    NoOrderWarning [.error message entity field] := by
  intro d hd
  obtain rfl := List.mem_singleton.mp hd
  simp [Warns]

theorem warning {message : String} (entity field : Option String)
    (h : ∀ c ∈ message.toList.head?, c ≠ 'S' ∧ c ≠ 'F') :
    NoOrderWarning [.warning message entity field] := by
  intro d hd
  obtain rfl := List.mem_singleton.mp hd
  rintro ⟨-, hstart⟩
  rcases hstart with ⟨rest, heq⟩ | ⟨rest, heq⟩
  · exact (h 'S' (by rw [← heq]; rfl)).1 rfl
  · exact (h 'F' (by rw [← heq]; rfl)).2 rfl

theorem columnNotices (e : Entity) (c : Column) : NoOrderWarning (columnNotices e c) := by
  rw [Round.columnNotices]
  refine append ?_ ?_
  · split
    · exact of_ofNotices_eq_nil rfl
    · exact error _ _ _
  · split
    · exact error _ _ _
    · exact of_ofNotices_eq_nil rfl

theorem targetPackage (e : Entity) (rule : PackageRule) :
    NoOrderWarning (e.targetPackage rule).2 := by
  rw [Entity.targetPackage]
  split
  · exact of_ofNotices_eq_nil rfl
  · rw [PackageRule.fallbackNotice]
    dsimp only
    split
    · exact error _ _ _
    · exact warning _ _ (by simp [toString])

theorem unexpectedMarker (marker : String) : NoOrderWarning [unexpectedMarker marker] :=
  warning _ _ (by simp [toString])

theorem linkNotices (packages : List (String × String)) (e : Entity) (m : EntityModel)
    (c : Column) : NoOrderWarning (linkNotices packages e m c) := by
  rw [Round.linkNotices]
  split
  · exact of_ofNotices_eq_nil rfl
  · split
    · exact of_ofNotices_eq_nil rfl
    · split
      · exact of_ofNotices_eq_nil rfl
      · exact warning _ _ (by simp [toString])

theorem cons {x : Notice} {xs : List Notice} (hx : NoOrderWarning [x]) (hxs : NoOrderWarning xs) :
    NoOrderWarning (x :: xs) :=
  append hx hxs

theorem models [OverrideLanguage] {fs : FileSystem} {config : Config} {r : Renderer}
    {schema : Schema} {cache : SourceCache} {entities : List Entity}
    (h : ∀ e ∈ entities, ∀ f ∈ e.fields, f.position.isSome) :
    NoOrderWarning (models fs config r schema cache entities).1 := by
  induction entities generalizing cache with
  | nil => exact of_ofNotices_eq_nil rfl
  | cons e entities ih =>
      obtain ⟨hfirst, hrest⟩ := List.forall_mem_cons.mp h
      have horder : (Column.ofEntity fs schema cache e).2.1 = [] := by
        rw [Column.ofEntity, FieldOrder.sort_of_positions fs cache hfirst]
      have hown : NoOrderWarning ((Column.ofEntity fs schema cache e).2.1 ++
          modelNotice e (Column.ofEntity fs schema cache e).1 ::
            (Column.ofEntity fs schema cache e).1.flatMap (Round.columnNotices e) ++
          (e.targetPackage config.packageRule).2) := by
        rw [horder]
        refine append (append (of_ofNotices_eq_nil rfl) (cons (of_ofNotices_eq_nil rfl) ?_))
          (targetPackage e _)
        exact flatMap (fun c _ => columnNotices e c)
      rw [Round.models]
      dsimp only
      split
      · exact hown
      · exact hown.append (ih hrest)

theorem execute [OverrideLanguage] {config : Config} {target : Target} {r : Renderer}
    {plan : List Step} (h : NoOrderWarning (told plan))
    : NoOrderWarning (execute config target r plan).notices := by
  induction plan generalizing r with
  | nil => exact of_ofNotices_eq_nil rfl
  | cons s plan ih =>
      cases s with
      | tell notice =>
          intro d hd
          change d ∈ Diagnostics.ofNotices
            ([notice] ++ (Round.execute config target r plan).notices) at hd
          have htold : NoOrderWarning ([notice] ++ told plan) := h
          rw [Diagnostics.ofNotices_append, List.mem_append] at hd
          rcases hd with hd | hd
          · refine htold d ?_
            rw [Diagnostics.ofNotices_append, List.mem_append]
            exact .inl hd
          · refine ih (fun d hd => htold d ?_) d hd
            rw [Diagnostics.ofNotices_append, List.mem_append]
            exact .inr hd
      | emit origin m a =>
          rw [Round.execute]
          split
          · exact of_ofNotices_eq_nil rfl
          · rename_i hemit
            exact (of_ofNotices_eq_nil (emit_ok hemit).2.2).append (ih h)

theorem steps (config : Config) (packages : List (String × String)) (claims : Claims)
    (built : List (Entity × EntityModel)) :
    NoOrderWarning (told (steps config packages claims built)) := by
  rw [steps_eq_flatMap, told_flatMap]
  refine flatMap ?_
  intro s _
  rw [Share.told_steps, Share.notices]
  refine append (flatMap (fun c _ => linkNotices packages s.entity s.model c)) ?_
  split
  · exact of_ofNotices_eq_nil rfl
  · exact error _ _ _

theorem generateTables [OverrideLanguage] {fs : FileSystem} {config : Config} {target : Target}
    {entities : List Entity} (h : ∀ e ∈ entities, ∀ f ∈ e.fields, f.position.isSome) :
    NoOrderWarning (generateTables fs config target entities).notices := by
  have hmodels : NoOrderWarning (Round.models fs config ⟨fs, config.templateDir, []⟩
      (Schema.build entities) [] entities).1 := models h
  have hstart : NoOrderWarning (openingNotices entities) :=
    of_ofNotices_eq_nil (ofNotices_openingNotices entities)
  rcases hdone : Round.models fs config ⟨fs, config.templateDir, []⟩ (Schema.build entities) []
    entities with ⟨told, result⟩
  rw [hdone] at hmodels
  cases result with
  | error error =>
      rw [generateTables_of_error target hdone]
      exact hstart.append hmodels
  | ok built =>
      rw [generateTables_of_built target hdone]
      exact (hstart.append hmodels).append (execute (steps config (packagesOf built) [] built))

theorem runMarkers [OverrideLanguage] {fs : FileSystem} {config : Config} {target : Target}
    {markers : List (String × List Entity)}
    (h : ∀ x ∈ markers, ∀ e ∈ x.2, ∀ f ∈ e.fields, f.position.isSome) :
    NoOrderWarning (runMarkers fs config target markers).notices :=
  runMarkers_composed (P := fun _ _ notices => NoOrderWarning notices)
    (fun _ => of_ofNotices_eq_nil rfl) append (fun _ => unexpectedMarker)
    (fun _ x hx _ => generateTables (h x hx)) fs

theorem run [OverrideLanguage] {fs : FileSystem} {config : Config} {target : Target}
    {before : Diagnostics} {markers : List (String × List Entity)}
    (h : ∀ x ∈ markers, ∀ e ∈ x.2, ∀ f ∈ e.fields, f.position.isSome) :
    NoOrderWarning (Round.run fs config target before markers).notices := by
  have hmarkers : NoOrderWarning (Round.runMarkers fs config target markers).notices :=
    runMarkers h
  rw [Round.run]
  split
  · exact hmarkers
  · refine hmarkers.append (of_ofNotices_eq_nil ?_)
    rw [failureNotices]
    split <;> rfl

theorem collect {fs : FileSystem} {markers ignoreFile : String} {found : MarkedEntities}
    {roots : List Path} : NoOrderWarning (collect fs markers ignoreFile found roots).1 := by
  intro d hd
  obtain ⟨root, -, files, -, f, -, rfl⟩ := exists_unreadable_of_collect hd
  have hquiet : NoOrderWarning
      [.warning s!"Could not read source file {f.path.text}" none none] :=
    warning none none (by simp [toString])
  exact hquiet _ (List.mem_singleton.mpr rfl)

end NoOrderWarning

end Round

end TypedTables
