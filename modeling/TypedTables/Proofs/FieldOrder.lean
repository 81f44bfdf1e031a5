import TypedTables.FieldOrder
import TypedTables.Proofs.Diagnostics
import TypedTables.Proofs.Sorted

namespace TypedTables.FieldOrder

theorem perm_byPosition (fields : List (Int × Field)) :
    (byPosition fields).Perm (fields.map Prod.snd) :=
  (Sorted.perm_ofList _ fields).map Prod.snd

theorem byPosition_append {xs ys : List (Int × Field)} (h : ∀ x ∈ xs, ∀ y ∈ ys, x.1 ≤ y.1) :
    byPosition (xs ++ ys) = byPosition xs ++ byPosition ys := by
  rw [byPosition, Sorted.ofList_append, List.map_append]
  · rfl
  · simpa using h

theorem givenPositions?_eq (fields : List Field) :
    givenPositions? fields =
      if ∀ f ∈ fields, f.position.isSome then
        some (fields.map (fun f => (f.position.getD 0, f)))
      else none := by
  induction fields with
  | nil => rfl
  | cons f fields ih =>
      rw [givenPositions?] at ih ⊢
      rw [List.mapM_cons, ih]
      cases hf : f.position with
      | none => simp [hf]
      | some position =>
          by_cases h : ∀ g ∈ fields, g.position.isSome = true
          · have hall : ∀ g ∈ f :: fields, g.position.isSome = true := by simpa [hf] using h
            rw [if_pos h, if_pos hall]
            simp [hf]
          · have hall : ¬ ∀ g ∈ f :: fields, g.position.isSome = true := by simpa [hf] using h
            rw [if_neg h, if_neg hall]
            simp

theorem perm_recovered (e : Entity) (positions : Option (List (String × Nat))) :
    (recovered e positions).1.Perm e.fields := by
  cases positions with
  | none => exact .refl _
  | some positions =>
      simp only [recovered]
      split
      · have h := perm_byPosition
          (e.fields.map (fun f => (((positions.lookup f.name).getD 0 : Nat), f)))
        simpa [Function.comp_def] using h
      · exact .refl _

theorem perm_sort (fs : FileSystem) (cache : SourceCache) (e : Entity) :
    (sort fs cache e).1.Perm e.fields := by
  rw [sort]
  split
  · rename_i hempty
    simp [List.isEmpty_iff.mp hempty]
  · rw [givenPositions?_eq]
    by_cases h : ∀ f ∈ e.fields, f.position.isSome = true
    · rw [if_pos h]
      have hp := perm_byPosition (e.fields.map (fun f => (f.position.getD 0, f)))
      simpa [Function.comp_def] using hp
    · rw [if_neg h]
      exact perm_recovered e _

theorem sort_of_positions (fs : FileSystem) (cache : SourceCache) {e : Entity}
    (h : ∀ f ∈ e.fields, f.position.isSome) :
    sort fs cache e =
      (byPosition (e.fields.map (fun f => (f.position.getD 0, f))), [], cache) := by
  rw [sort, givenPositions?_eq, if_pos h]
  split
  · rename_i hempty
    simp [List.isEmpty_iff.mp hempty, byPosition, Sorted.ofList]
  · rfl

theorem errors_sourceOf (fs : FileSystem) (cache : SourceCache) (path : Path) :
    (Diagnostics.ofNotices (sourceOf fs cache path).2.1).errors = [] := by
  rw [sourceOf]
  split
  · rfl
  · split <;> rfl

theorem errors_recoveredPositions (fs : FileSystem) (cache : SourceCache) (e : Entity) :
    (Diagnostics.ofNotices (recoveredPositions fs cache e).2.1).errors = [] := by
  rw [recoveredPositions]
  split
  · rfl
  · split
    · rfl
    · exact errors_sourceOf fs cache _

theorem errors_recovered (e : Entity) (positions : Option (List (String × Nat))) :
    (Diagnostics.ofNotices (recovered e positions).2).errors = [] := by
  cases positions with
  | none => rfl
  | some positions =>
      simp only [recovered]
      split <;> rfl

theorem errors_sort (fs : FileSystem) (cache : SourceCache) (e : Entity) :
    (Diagnostics.ofNotices (sort fs cache e).2.1).errors = [] := by
  rw [sort]
  split
  · rfl
  · split
    · rfl
    · have hread := errors_recoveredPositions fs cache e
      have hsort := errors_recovered e (recoveredPositions fs cache e).1
      simp [hread, hsort]

end TypedTables.FieldOrder
