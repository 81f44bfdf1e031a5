import Mathlib.Data.List.Induction
import TypedTables.Keyed

namespace TypedTables.Keyed

variable {κ α : Type} [DecidableEq κ] [BEq κ] [LawfulBEq κ]

omit [DecidableEq κ] in
theorem lookup_cons_of_ne {k : κ} {entry : κ × α} (h : k ≠ entry.1) (table : List (κ × α)) :
    (entry :: table).lookup k = table.lookup k := by
  rw [List.lookup_cons, beq_false_of_ne h]

theorem exists_split_of_nodup {table : List (κ × α)} (h : (table.map Prod.fst).Nodup) (k : κ) :
    (∀ entry ∈ table, entry.1 ≠ k) ∨ ∃ before value after, table = before ++ (k, value) :: after ∧
      (∀ entry ∈ before, entry.1 ≠ k) ∧ (∀ entry ∈ after, entry.1 ≠ k) ∧
      table.lookup k = some value := by
  induction table with
  | nil => simp
  | cons entry table ih =>
      obtain ⟨key, value⟩ := entry
      obtain ⟨hkey, hrest⟩ := List.nodup_cons.mp h
      have hothers : ∀ other ∈ table, other.1 ≠ key := by
        intro other hmem heq
        exact hkey (List.mem_map.mpr ⟨other, hmem, heq⟩)
      by_cases hk : key = k
      · subst hk
        exact .inr ⟨[], value, table, rfl, by simp, hothers, by simp⟩
      · rcases ih hrest with hnone | ⟨before, found, after, rfl, hbefore, hafter, hlook⟩
        · exact .inl (List.forall_mem_cons.mpr ⟨hk, hnone⟩)
        · refine .inr ⟨(key, value) :: before, found, after, rfl,
            List.forall_mem_cons.mpr ⟨hk, hbefore⟩, hafter, ?_⟩
          rw [lookup_cons_of_ne (Ne.symm hk), hlook]

theorem lookup_insert (key k : κ) (value : α) (table : List (κ × α)) :
    (insert key value table).lookup k = if k = key then some value else table.lookup k := by
  induction table with
  | nil => by_cases h : k = key <;> simp [insert, h]
  | cons entry rest ih =>
      obtain ⟨key', value'⟩ := entry
      simp only [insert]
      by_cases hkey : key' = key
      · subst hkey
        by_cases h : k = key'
        · simp [h]
        · simp [lookup_cons_of_ne, h]
      · rw [if_neg hkey]
        by_cases h : k = key'
        · subst h
          simp [hkey]
        · rw [lookup_cons_of_ne h, ih, lookup_cons_of_ne h]

theorem map_fst_insert (key : κ) (value : α) (table : List (κ × α)) :
    (insert key value table).map Prod.fst =
      if key ∈ table.map Prod.fst then table.map Prod.fst
      else table.map Prod.fst ++ [key] := by
  induction table with
  | nil => simp [insert]
  | cons entry table ih =>
      obtain ⟨k, v⟩ := entry
      rw [insert]
      by_cases hk : k = key
      · simp [hk]
      · rw [if_neg hk, List.map_cons, ih]
        by_cases hmem : key ∈ table.map Prod.fst <;> simp [hmem, Ne.symm hk]

theorem nodup_insert {table : List (κ × α)} (h : (table.map Prod.fst).Nodup) (key : κ)
    (value : α) : ((insert key value table).map Prod.fst).Nodup := by
  rw [map_fst_insert]
  split
  · exact h
  · rename_i hkey
    exact List.nodup_append.mpr ⟨h, by simp, by grind⟩

omit [BEq κ] [LawfulBEq κ] in
theorem mem_of_mem_insert {key : κ} {value : α} {table : List (κ × α)} {entry : κ × α}
    (h : entry ∈ insert key value table) : entry = (key, value) ∨ entry ∈ table := by
  induction table with
  | nil => exact .inl (List.mem_singleton.mp h)
  | cons first table ih =>
      rw [insert] at h
      split at h
      · rename_i hkey
        exact (List.mem_cons.mp (hkey ▸ h)).imp id (List.mem_cons_of_mem first)
      · rcases List.mem_cons.mp h with rfl | h
        · exact .inr List.mem_cons_self
        · exact (ih h).imp id (List.mem_cons_of_mem first)

omit [BEq κ] [LawfulBEq κ] in
theorem mem_insert {table : List (κ × α)} (h : (table.map Prod.fst).Nodup) (key : κ) (value : α)
    (entry : κ × α) :
    entry ∈ insert key value table ↔ entry = (key, value) ∨ entry.1 ≠ key ∧ entry ∈ table := by
  induction table with
  | nil => simp [insert]
  | cons first table ih =>
      obtain ⟨k, v⟩ := first
      obtain ⟨hkey, hrest⟩ := List.nodup_cons.mp h
      rw [insert]
      by_cases hk : k = key
      · subst hk
        have hothers : entry ∈ table → entry.1 ≠ k := by
          intro hmem heq
          exact hkey (List.mem_map.mpr ⟨entry, hmem, heq⟩)
        rw [if_pos rfl, List.mem_cons, List.mem_cons]
        constructor
        · rintro (rfl | hmem)
          · exact .inl rfl
          · exact .inr ⟨hothers hmem, .inr hmem⟩
        · rintro (rfl | ⟨hne, rfl | hmem⟩)
          · exact .inl rfl
          · exact absurd rfl hne
          · exact .inr hmem
      · rw [if_neg hk, List.mem_cons, List.mem_cons, ih hrest]
        constructor
        · rintro (rfl | heq | ⟨hne, hmem⟩)
          · exact .inr ⟨hk, .inl rfl⟩
          · exact .inl heq
          · exact .inr ⟨hne, .inr hmem⟩
        · rintro (heq | ⟨hne, rfl | hmem⟩)
          · exact .inr (.inl heq)
          · exact .inl rfl
          · exact .inr (.inr ⟨hne, hmem⟩)

theorem lookup_foldl_insert (settings table : List (κ × α)) (k : κ) :
    (settings.foldl (fun table s => insert s.1 s.2 table) table).lookup k =
      (settings.reverse.lookup k).or (table.lookup k) := by
  induction settings generalizing table with
  | nil => simp
  | cons s settings ih =>
      obtain ⟨key, value⟩ := s
      rw [List.foldl_cons, ih, lookup_insert, List.reverse_cons, List.lookup_append,
        Option.or_assoc]
      by_cases h : k = key
      · simp [h]
      · rw [if_neg h, lookup_cons_of_ne h, List.lookup_nil, Option.none_or]

theorem lookup_ofList (settings : List (κ × α)) (k : κ) :
    (ofList settings).lookup k = settings.reverse.lookup k := by
  simp [ofList, lookup_foldl_insert]

theorem lookup_ofList_of_unique {settings : List (κ × α)} {k : κ} {value : α}
    (hmem : (k, value) ∈ settings) (hone : ∀ v, (k, v) ∈ settings → v = value) :
    (ofList settings).lookup k = some value := by
  rw [lookup_ofList]
  cases hlook : settings.reverse.lookup k with
  | none =>
      have hnone := List.lookup_eq_none_iff.mp hlook (k, value) (List.mem_reverse.mpr hmem)
      simp at hnone
  | some v =>
      obtain ⟨before, after, hsplit, -⟩ := List.lookup_eq_some_iff.mp hlook
      have hv : (k, v) ∈ settings.reverse := by simp [hsplit]
      rw [hone v (List.mem_reverse.mp hv)]

theorem lookup_eq_some_iff_mem {table : List (κ × α)} (h : (table.map Prod.fst).Nodup) (k : κ)
    (value : α) : table.lookup k = some value ↔ (k, value) ∈ table := by
  constructor
  · intro hlook
    obtain ⟨before, after, rfl, -⟩ := List.lookup_eq_some_iff.mp hlook
    simp
  · intro hmem
    rcases exists_split_of_nodup h k with
      hnone | ⟨before, found, after, rfl, hbefore, hafter, hlook⟩
    · exact absurd rfl (hnone _ hmem)
    · rcases List.mem_append.mp hmem with hmem | hmem
      · exact absurd rfl (hbefore _ hmem)
      · rcases List.mem_cons.mp hmem with heq | hmem
        · rw [hlook, (Prod.mk.inj heq).2]
        · exact absurd rfl (hafter _ hmem)

/-- Where no key is set twice, the order of settings is of no account. -/
theorem lookup_ofList_of_perm {settings settings' : List (κ × α)}
    (h : (settings.map Prod.fst).Nodup) (hperm : settings'.Perm settings) (k : κ) :
    (ofList settings').lookup k = (ofList settings).lookup k := by
  have hsame : ∀ value, settings'.reverse.lookup k = some value ↔
      settings.reverse.lookup k = some value := by
    intro value
    have hreverse : (settings.reverse.map Prod.fst).Nodup :=
      (settings.reverse_perm.map Prod.fst).nodup_iff.mpr h
    have hreverse' : (settings'.reverse.map Prod.fst).Nodup :=
      ((settings'.reverse_perm.trans hperm).map Prod.fst).nodup_iff.mpr h
    rw [lookup_eq_some_iff_mem hreverse, lookup_eq_some_iff_mem hreverse', List.mem_reverse,
      List.mem_reverse, hperm.mem_iff]
  rw [lookup_ofList, lookup_ofList]
  exact Option.ext hsame

theorem lookup_graph (names : List κ) (f : κ → α) (k : κ) :
    (names.map (fun name => (name, f name))).lookup k = if k ∈ names then some (f k) else none := by
  induction names with
  | nil => simp
  | cons name names ih =>
      by_cases h : k = name
      · simp [h]
      · rw [List.map_cons, lookup_cons_of_ne h, ih]
        simp [h]

/-- Where the value of each setting depends on its key alone, the order of settings is of no
account. -/
theorem lookup_ofList_graph (names : List κ) (f : κ → α) (k : κ) :
    (ofList (names.map (fun name => (name, f name)))).lookup k =
      if k ∈ names then some (f k) else none := by
  rw [lookup_ofList, ← List.map_reverse, lookup_graph]
  simp

theorem lookup_foldl_constant (keys : List κ) (value : α) (table : List (κ × α)) (k : κ) :
    (keys.foldl (fun table key => insert key value table) table).lookup k =
      if k ∈ keys then some value else table.lookup k := by
  induction keys generalizing table with
  | nil => simp
  | cons key keys ih =>
      rw [List.foldl_cons, ih, lookup_insert]
      by_cases h : k ∈ keys
      · simp [h]
      · simp [h]

omit [BEq κ] [LawfulBEq κ] in
theorem ofList_concat (settings : List (κ × α)) (s : κ × α) :
    ofList (settings ++ [s]) = insert s.1 s.2 (ofList settings) := by
  rw [ofList, List.foldl_append]
  rfl

theorem keys_ofList (settings : List (κ × α)) :
    (∀ k, k ∈ (ofList settings).map Prod.fst ↔ k ∈ settings.map Prod.fst) ∧
      ((ofList settings).map Prod.fst).Pairwise (fun a b =>
        (settings.map Prod.fst).idxOf a < (settings.map Prod.fst).idxOf b) := by
  induction settings using List.reverseRecOn with
  | nil => simp [ofList]
  | append_singleton settings s ih =>
      obtain ⟨hmem, horder⟩ := ih
      have hearlier : ((ofList settings).map Prod.fst).Pairwise (fun a b =>
          ((settings ++ [s]).map Prod.fst).idxOf a < ((settings ++ [s]).map Prod.fst).idxOf b) := by
        refine horder.imp_of_mem ?_
        intro a b ha hb hab
        rw [List.map_append, List.idxOf_append, List.idxOf_append, if_pos ((hmem a).mp ha),
          if_pos ((hmem b).mp hb)]
        exact hab
      rw [ofList_concat, map_fst_insert]
      by_cases hknown : s.1 ∈ (ofList settings).map Prod.fst
      · rw [if_pos hknown]
        refine ⟨?_, hearlier⟩
        intro k
        rw [hmem, List.map_append, List.mem_append, List.map_singleton, List.mem_singleton]
        exact ⟨.inl, fun h => h.elim id (fun heq => heq ▸ (hmem s.1).mp hknown)⟩
      · rw [if_neg hknown]
        refine ⟨?_, List.pairwise_append.mpr ⟨hearlier, List.pairwise_singleton _ _, ?_⟩⟩
        · intro k
          rw [List.mem_append, hmem, List.map_append, List.mem_append, List.map_singleton]
        · intro a ha b hb
          obtain rfl := List.mem_singleton.mp hb
          have ha' : a ∈ settings.map Prod.fst := (hmem a).mp ha
          have hs : s.1 ∉ settings.map Prod.fst := mt (hmem s.1).mpr hknown
          rw [List.map_append, List.idxOf_append, List.idxOf_append, if_pos ha', if_neg hs]
          exact Nat.lt_add_left _ (List.idxOf_lt_length_of_mem ha')

end TypedTables.Keyed
