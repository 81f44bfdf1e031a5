import Mathlib.Data.List.Forall2
import TypedTables.Proofs.FieldOrder

namespace TypedTables.Column

theorem forall₂_mapIdx {α β γ : Type} {R : β → γ → Prop} {f : Nat → α → β} {g : Nat → α → γ}
    {xs : List α} (h : ∀ i, ∀ x ∈ xs, R (f i x) (g i x)) :
    List.Forall₂ R (xs.mapIdx f) (xs.mapIdx g) := by
  induction xs generalizing f g with
  | nil => exact .nil
  | cons x xs ih =>
      rw [List.mapIdx_cons, List.mapIdx_cons]
      refine .cons (h 0 x (by simp)) (ih ?_)
      intro i y hy
      exact h (i + 1) y (List.mem_cons_of_mem x hy)

theorem forall₂_ofFields {R : Field → Column → Prop} {fields : List Field} {schema : Schema}
    (h : ∀ i, ∀ f ∈ fields, R f (ofField schema i f)) :
    List.Forall₂ R fields (ofFields fields schema) := by
  have hid : fields.mapIdx (fun _ f => f) = fields := List.ext_getElem (by simp) (by simp)
  have hall := forall₂_mapIdx (f := fun _ f => f) (g := ofField schema) h
  rwa [hid] at hall

theorem zip_ofFields (fields : List Field) (schema : Schema) :
    fields.zip (ofFields fields schema) = fields.mapIdx (fun i f => (f, ofField schema i f)) :=
  List.ext_getElem (by simp [ofFields]) (by simp [ofFields])

theorem take_ofFields (fields more : List Field) (schema : Schema) :
    (ofFields (fields ++ more) schema).take fields.length = ofFields fields schema := by
  rw [ofFields, List.mapIdx_append]
  exact List.take_left' (by simp)

theorem ofEntity_eq (fs : FileSystem) (schema : Schema) (cache : SourceCache) (e : Entity) :
    (ofEntity fs schema cache e).1 = ofFields (FieldOrder.sort fs cache e).1 schema := rfl

theorem length_ofEntity (fs : FileSystem) (schema : Schema) (cache : SourceCache) (e : Entity) :
    (ofEntity fs schema cache e).1.length = e.fields.length := by
  rw [ofEntity_eq, ofFields, List.length_mapIdx]
  exact (FieldOrder.perm_sort fs cache e).length_eq

theorem map_index_ofFields (fields : List Field) (schema : Schema) :
    (ofFields fields schema).map Column.index = List.range fields.length := by
  apply List.ext_getElem
  · simp [ofFields]
  · intro i h h'
    simp [ofFields, ofField]

theorem map_name_ofFields (fields : List Field) (schema : Schema) :
    (ofFields fields schema).map Column.name = fields.map Field.name := by
  apply List.ext_getElem
  · simp [ofFields]
  · intro i h h'
    simp [ofFields, ofField]

end TypedTables.Column
