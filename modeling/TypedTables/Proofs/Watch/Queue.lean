import TypedTables.Proofs.Keyed
import TypedTables.Watch.Queue

/-!
The queue of pending changes, operation by operation. A change takes the place of the one before it
of the same file. Pending changes leave the queue all at once, in a batch that names each file once.
-/

namespace TypedTables.Watch.Queue

theorem nodup_push {q : Queue} (h : (q.map Prod.fst).Nodup) (file : Path) (kind : ChangeKind)
    (time : Int) : ((q.push file kind time).map Prod.fst).Nodup :=
  Keyed.nodup_insert h _ _

theorem mem_push {q : Queue} (h : (q.map Prod.fst).Nodup) {file : Path} {kind : ChangeKind}
    {time : Int} {entry : Path × Pending} :
    entry ∈ q.push file kind time ↔
      entry = (file, ⟨kind, time⟩) ∨ entry.1 ≠ file ∧ entry ∈ q :=
  Keyed.mem_insert h _ _ _

theorem map_fst_batch (q : Queue) : q.batch.map Prod.fst = q.map Prod.fst := by
  rw [batch, List.map_map]
  rfl

theorem mem_batch {q : Queue} {file : Path} {kind : ChangeKind} :
    (file, kind) ∈ q.batch ↔ ∃ time, (file, ⟨kind, time⟩) ∈ q := by
  rw [batch, List.mem_map]
  constructor
  · rintro ⟨⟨file', ⟨kind', time⟩⟩, hmem, heq⟩
    obtain ⟨rfl, rfl⟩ := Prod.mk.inj heq
    exact ⟨time, hmem⟩
  · rintro ⟨time, hmem⟩
    exact ⟨_, hmem, rfl⟩

theorem flush_cases (q : Queue) (delay now : Int) :
    (q.flush delay now = (some q.batch, []) ∧ q ≠ [] ∧
        ∀ entry ∈ q, entry.2.time + delay ≤ now) ∨
      q.flush delay now = (none, q) ∧
        (q ≠ [] → ∃ entry ∈ q, now < entry.2.time + delay) := by
  by_cases hready : (!q.isEmpty && q.isSettled delay now) = true
  · rw [flush, if_pos hready]
    obtain ⟨hne, hsettled⟩ := (Bool.and_eq_true _ _).mp hready
    refine .inl ⟨rfl, by simpa using hne, ?_⟩
    intro entry hmem
    simpa using List.all_eq_true.mp hsettled entry hmem
  · rw [flush, if_neg hready]
    refine .inr ⟨rfl, ?_⟩
    intro hne
    have hyoung : q.isSettled delay now = false := by simpa [hne] using hready
    obtain ⟨entry, hmem, hentry⟩ := List.all_eq_false.mp hyoung
    exact ⟨entry, hmem, by simpa using hentry⟩

theorem drain_cases (q : Queue) :
    (q.drain = (some q.batch, []) ∧ q ≠ []) ∨ q.drain = (none, []) ∧ q = [] := by
  cases q with
  | nil => exact .inr ⟨rfl, rfl⟩
  | cons entry q => exact .inl ⟨rfl, by simp⟩

end TypedTables.Watch.Queue
