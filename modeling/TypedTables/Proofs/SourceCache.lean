import TypedTables.Proofs.Column
import TypedTables.Proofs.Keyed

/-!
Caches of source files. What a round has read before makes no difference to an entity: its columns
and problems are those that it has when its source file is read for it alone.
-/

namespace TypedTables

open Source

def SourceCache.Faithful (fs : FileSystem) (cache : SourceCache) : Prop :=
  ∀ path statements?, cache.lookup path = some statements? →
    statements? = (statementsAt? fs path).toOption

variable {fs : FileSystem} {cache : SourceCache}

theorem SourceCache.Faithful.nil (fs : FileSystem) : Faithful fs [] := by
  intro path statements? h
  cases h

theorem SourceCache.Faithful.cons {path : Path} (h : Faithful fs cache) :
    Faithful fs ((path, (statementsAt? fs path).toOption) :: cache) := by
  intro other statements? hlook
  by_cases heq : other = path
  · subst heq
    rw [List.lookup_cons_self] at hlook
    exact (Option.some.inj hlook).symm
  · rw [Keyed.lookup_cons_of_ne heq] at hlook
    exact h other statements? hlook

namespace FieldOrder

theorem sourceOf_spec (h : cache.Faithful fs) (path : Path) :
    (sourceOf fs cache path).1 = (statementsAt? fs path).toOption ∧
      Diagnostics.ofNotices (sourceOf fs cache path).2.1 = [] ∧
      (sourceOf fs cache path).2.2.Faithful fs := by
  have hcons : SourceCache.Faithful fs ((path, (statementsAt? fs path).toOption) :: cache) := h.cons
  rw [sourceOf]
  split
  · rename_i statements? hlook
    exact ⟨h path statements? hlook, rfl, h⟩
  · split
    · rename_i hread
      rw [hread] at hcons ⊢
      exact ⟨rfl, rfl, hcons⟩
    · rename_i hread
      rw [hread] at hcons ⊢
      exact ⟨rfl, rfl, hcons⟩

theorem recoveredPositions_spec (h : cache.Faithful fs) (e : Entity) :
    (recoveredPositions fs cache e).1 = (recoveredPositions fs [] e).1 ∧
      Diagnostics.ofNotices (recoveredPositions fs cache e).2.1 = [] ∧
      (recoveredPositions fs cache e).2.2.Faithful fs := by
  rw [recoveredPositions, recoveredPositions]
  split
  · exact ⟨rfl, rfl, h⟩
  · rename_i file hfile
    split
    · exact ⟨rfl, rfl, h⟩
    · obtain ⟨hstatements, hnotices, hcache⟩ := sourceOf_spec h (Path.ofText file)
      obtain ⟨hfirst, -, -⟩ := sourceOf_spec (.nil fs) (Path.ofText file)
      dsimp only
      rw [hstatements, hfirst]
      exact ⟨rfl, hnotices, hcache⟩

/-- The fields and problems of an entity do not depend on the files read before. -/
theorem sort_spec (h : cache.Faithful fs) (e : Entity) :
    (sort fs cache e).1 = (sort fs [] e).1 ∧
      Diagnostics.ofNotices (sort fs cache e).2.1 = Diagnostics.ofNotices (sort fs [] e).2.1 ∧
      (sort fs cache e).2.2.Faithful fs := by
  rw [sort, sort]
  split
  · exact ⟨rfl, rfl, h⟩
  · split
    · exact ⟨rfl, rfl, h⟩
    · obtain ⟨hpositions, hnotices, hcache⟩ := recoveredPositions_spec h e
      obtain ⟨-, hfirst, -⟩ := recoveredPositions_spec (.nil fs) e
      dsimp only
      rw [hpositions, Diagnostics.ofNotices_append, Diagnostics.ofNotices_append, hnotices, hfirst]
      exact ⟨rfl, rfl, hcache⟩

end FieldOrder

namespace Column

theorem ofEntity_spec (h : cache.Faithful fs) (schema : Schema) (e : Entity) :
    (ofEntity fs schema cache e).1 = (ofEntity fs schema [] e).1 ∧
      Diagnostics.ofNotices (ofEntity fs schema cache e).2.1 =
        Diagnostics.ofNotices (FieldOrder.sort fs [] e).2.1 ∧
      (ofEntity fs schema cache e).2.2.Faithful fs := by
  obtain ⟨hfields, hnotices, hcache⟩ := FieldOrder.sort_spec h e
  rw [ofEntity_eq, ofEntity_eq, hfields]
  exact ⟨rfl, hnotices, hcache⟩

end Column

end TypedTables
