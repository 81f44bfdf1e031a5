import Mathlib.Data.Int.ConditionallyCompleteOrder
import Mathlib.Data.List.Nodup
import Mathlib.Order.ConditionallyCompleteLattice.Indexed
import TypedTables.Proofs.Column

namespace TypedTables

def Field.move (g : Int → Int) (f : Field) : Field :=
  { f with position := f.position.map g }

def positionsOf (fields : List Field) : Set Int :=
  {p | ∃ f ∈ fields, f.position = some p}

structure Positioned (fields : List Field) : Prop where
  given : ∀ f ∈ fields, f.position.isSome
  distinct : (fields.map Field.position).Nodup

def InSourceOrder (fields : List Field) : Prop :=
  fields.Pairwise (fun f g => ∃ p q, f.position = some p ∧ g.position = some q ∧ p < q)

def withPositions (fields : List Field) : List (Int × Field) :=
  fields.map (fun f => (f.position.getD 0, f))

namespace Positioned

variable {fields : List Field}

theorem perm (h : Positioned fields) {others : List Field} (hp : others.Perm fields) :
    Positioned others where
  given f hf := h.given f (hp.mem_iff.mp hf)
  distinct := (hp.map Field.position).nodup_iff.mpr h.distinct

theorem exists_position (h : Positioned fields) {f : Field} (hf : f ∈ fields) :
    ∃ p, f.position = some p :=
  Option.isSome_iff_exists.mp (h.given f hf)

theorem eq_of_position (h : Positioned fields) {f g : Field} (hf : f ∈ fields) (hg : g ∈ fields)
    (hpos : f.position.getD 0 = g.position.getD 0) : f = g := by
  obtain ⟨p, hp⟩ := h.exists_position hf
  obtain ⟨q, hq⟩ := h.exists_position hg
  have heq : f.position = g.position := by
    rw [hp, hq] at hpos ⊢
    exact congrArg some (by simpa using hpos)
  exact List.inj_on_of_nodup_map h.distinct hf hg heq

theorem move (h : Positioned fields) {g : Int → Int} (hg : StrictMonoOn g (positionsOf fields)) :
    Positioned (fields.map (Field.move g)) where
  given f' hf' := by
    obtain ⟨f, hf, rfl⟩ := List.mem_map.mp hf'
    simpa [Field.move] using h.given f hf
  distinct := by
    rw [List.map_map]
    refine List.Nodup.map_on ?_ (List.Nodup.of_map Field.position h.distinct)
    intro f hf f' hf' heq
    obtain ⟨p, hp⟩ := h.exists_position hf
    obtain ⟨q, hq⟩ := h.exists_position hf'
    have hpq : g p = g q := by simpa [Field.move, hp, hq] using heq
    obtain rfl : p = q := hg.injOn ⟨f, hf, hp⟩ ⟨f', hf', hq⟩ hpq
    exact h.eq_of_position hf hf' (by rw [hp, hq])

end Positioned

namespace FieldOrder

def notAfter (a b : Int × Field) : Bool := a.1 ≤ b.1

theorem byPosition_eq (fields : List (Int × Field)) :
    byPosition fields = (Sorted.ofList notAfter fields).map Prod.snd := rfl

theorem notAfter_total (a b : Int × Field) : notAfter a b = true ∨ notAfter b a = true := by
  simpa [notAfter] using le_total a.1 b.1

theorem notAfter_trans (a b c : Int × Field) (hab : notAfter a b = true)
    (hbc : notAfter b c = true) : notAfter a c = true := by
  simp only [notAfter, decide_eq_true_eq] at hab hbc ⊢
  exact hab.trans hbc

theorem byPosition_of_perm {fields others : List Field} (h : Positioned fields)
    (hp : others.Perm fields) :
    byPosition (withPositions others) = byPosition (withPositions fields) := by
  have hsorted : Sorted.ofList notAfter (withPositions others) =
      Sorted.ofList notAfter (withPositions fields) := by
    refine Sorted.ofList_of_perm notAfter notAfter_total notAfter_trans ?_ (hp.map _)
    intro a ha b hb hab hba
    obtain ⟨f, hf, rfl⟩ := List.mem_map.mp ha
    obtain ⟨g, hg, rfl⟩ := List.mem_map.mp hb
    simp only [notAfter, decide_eq_true_eq] at hab hba
    rw [h.eq_of_position (hp.mem_iff.mp hf) (hp.mem_iff.mp hg) (le_antisymm hab hba)]
  rw [byPosition_eq, byPosition_eq, hsorted]

theorem byPosition_move {fields : List Field} (h : Positioned fields) {g : Int → Int}
    (hg : StrictMonoOn g (positionsOf fields)) :
    byPosition (withPositions (fields.map (Field.move g))) =
      (byPosition (withPositions fields)).map (Field.move g) := by
  have hmoved : withPositions (fields.map (Field.move g)) =
      (withPositions fields).map (fun x => (g x.1, x.2.move g)) := by
    simp only [withPositions, List.map_map]
    apply List.map_congr_left
    intro f hf
    obtain ⟨p, hp⟩ := h.exists_position hf
    simp [Field.move, hp]
  have hsame : ∀ a ∈ withPositions fields, ∀ b ∈ withPositions fields,
      notAfter a b = notAfter (g a.1, a.2.move g) (g b.1, b.2.move g) := by
    intro a ha b hb
    obtain ⟨f, hf, rfl⟩ := List.mem_map.mp ha
    obtain ⟨f', hf', rfl⟩ := List.mem_map.mp hb
    obtain ⟨p, hp⟩ := h.exists_position hf
    obtain ⟨q, hq⟩ := h.exists_position hf'
    simpa [notAfter, hp, hq] using (hg.le_iff_le ⟨f, hf, hp⟩ ⟨f', hf', hq⟩).symm
  rw [byPosition_eq, byPosition_eq, hmoved,
    ← Sorted.map_ofList notAfter notAfter (fun x => (g x.1, x.2.move g)) _ hsame, List.map_map,
    List.map_map]
  rfl

theorem perm_byPosition_withPositions (fields : List Field) :
    (byPosition (withPositions fields)).Perm fields := by
  have hfields : (withPositions fields).map Prod.snd = fields := by
    simp [withPositions, Function.comp_def]
  have hperm := perm_byPosition (withPositions fields)
  rwa [hfields] at hperm

theorem inSourceOrder_byPosition {fields : List Field} (h : Positioned fields) :
    InSourceOrder (byPosition (withPositions fields)) := by
  have hsorted : (Sorted.ofList notAfter (withPositions fields)).Pairwise
      (fun a b => notAfter a b = true) :=
    Sorted.pairwise_ofList notAfter notAfter_total notAfter_trans _
  have hdistinct : (Sorted.ofList notAfter (withPositions fields)).Nodup := by
    rw [(Sorted.perm_ofList notAfter _).nodup_iff]
    exact (List.Nodup.of_map Field.position h.distinct).map
      (fun f g hfg => congrArg Prod.snd hfg)
  rw [byPosition_eq, InSourceOrder, List.pairwise_map]
  refine (hsorted.and hdistinct).imp_of_mem ?_
  intro a b ha hb hab
  obtain ⟨f, hf, rfl⟩ := List.mem_map.mp ((Sorted.perm_ofList notAfter _).mem_iff.mp ha)
  obtain ⟨g, hg, rfl⟩ := List.mem_map.mp ((Sorted.perm_ofList notAfter _).mem_iff.mp hb)
  obtain ⟨p, hp⟩ := h.exists_position hf
  obtain ⟨q, hq⟩ := h.exists_position hg
  have hle : p ≤ q := by simpa [notAfter, hp, hq] using hab.1
  have hne : p ≠ q := by
    rintro rfl
    exact hab.2 (by rw [h.eq_of_position hf hg (by rw [hp, hq])])
  exact ⟨p, q, hp, hq, lt_of_le_of_ne hle hne⟩

theorem sort_of_positioned (fs : FileSystem) (cache : SourceCache) {e : Entity}
    (h : Positioned e.fields) :
    sort fs cache e = (byPosition (withPositions e.fields), [], cache) :=
  sort_of_positions fs cache h.given

end FieldOrder

namespace Column

theorem ofFields_move (g : Int → Int) (fields : List Field) (schema : Schema) :
    ofFields (fields.map (Field.move g)) schema = ofFields fields schema := by
  apply List.ext_getElem
  · simp [ofFields]
  · intro i hi hi'
    simp [ofFields, ofField, Field.move]

/-- Entities whose fields stand in the same order have the same columns, those of the fields in
that order, and nothing is told about them. -/
theorem ofEntity_sourceOrder (fs fs' : FileSystem) (cache cache' : SourceCache) (schema : Schema)
    {e e' : Entity} {g : Int → Int} (h : Positioned e.fields)
    (hg : StrictMonoOn g (positionsOf e.fields))
    (hp : e'.fields.Perm (e.fields.map (Field.move g))) :
    ∃ fields, fields.Perm e.fields ∧ InSourceOrder fields ∧
      ofEntity fs schema cache e = (ofFields fields schema, [], cache) ∧
      ofEntity fs' schema cache' e' = (ofFields fields schema, [], cache') := by
  have hmoved := h.move hg
  refine ⟨_, FieldOrder.perm_byPosition_withPositions e.fields,
    FieldOrder.inSourceOrder_byPosition h, ?_, ?_⟩
  · rw [ofEntity, FieldOrder.sort_of_positioned fs cache h]
  · rw [ofEntity, FieldOrder.sort_of_positioned fs' cache' (hmoved.perm hp),
      FieldOrder.byPosition_of_perm hmoved hp, FieldOrder.byPosition_move h hg]
    dsimp only
    rw [ofFields_move]

/-- A dog, and the same dog after its fields were listed anew and text was inserted between them. -/
def dogs : Entity × Entity :=
  let dog (fields : List (String × Int)) : Entity :=
    ⟨"zoo.Dog", "Dog", [], fields.map (fun x => ⟨x.1, ⟨"int", "int", "", .name⟩, some x.2⟩), none⟩
  (dog [("mother", 30), ("age", 10), ("name", 20)],
    dog [("age", 100), ("name", 400), ("mother", 900)])

theorem ofEntity_of_dogs :
    Positioned dogs.1.fields ∧ StrictMonoOn (fun p => p * p) (positionsOf dogs.1.fields) ∧
      dogs.2.fields.Perm (dogs.1.fields.map (Field.move (fun p => p * p))) ∧
      (∃ fields, fields.Perm dogs.1.fields ∧ InSourceOrder fields ∧
        ofEntity ⟨.empty, [], []⟩ ⟨[]⟩ [] dogs.1 = (ofFields fields ⟨[]⟩, [], []) ∧
        ofEntity ⟨.empty, [], []⟩ ⟨[]⟩ [] dogs.2 = (ofFields fields ⟨[]⟩, [], [])) ∧
      (ofEntity ⟨.empty, [], []⟩ ⟨[]⟩ [] dogs.1).1.map Column.name = ["age", "name", "mother"] := by
  have hpositioned : Positioned dogs.1.fields := ⟨by decide, by decide⟩
  have hmono : StrictMonoOn (fun p => p * p) (positionsOf dogs.1.fields) := by
    have hpositive : ∀ p ∈ positionsOf dogs.1.fields, 0 < p := by
      rintro p ⟨f, hf, hp⟩
      have hall : ∀ f ∈ dogs.1.fields, ∀ q ∈ f.position, 0 < q := by decide
      exact hall f hf p hp
    intro p hp q hq hpq
    exact Int.mul_lt_mul hpq hpq.le (hpositive p hp) (hpositive q hq).le
  have hperm : dogs.2.fields.Perm (dogs.1.fields.map (Field.move (fun p => p * p))) := by decide
  exact ⟨hpositioned, hmono, hperm,
    ofEntity_sourceOrder _ _ _ _ _ hpositioned hmono hperm, by decide +kernel⟩

end Column

end TypedTables
