import Mathlib.Data.List.Pairwise
import Mathlib.Data.List.Sort
import Mathlib.Data.String.Basic
import TypedTables.Sorted
import TypedTables.Template.Imports

/-!
Sorting by insertion: what it gives is in order and holds the same elements, and a list whose first
part may stand before its second part is sorted part by part.
-/

namespace TypedTables

namespace Sorted

variable {α : Type} (le : α → α → Bool)

theorem insert_eq_orderedInsert (x : α) (xs : List α) :
    insert le x xs = xs.orderedInsert (fun a b => le a b = true) x := by
  induction xs with
  | nil => rfl
  | cons y ys ih => simp [insert, ih]

theorem ofList_eq_insertionSort (xs : List α) :
    ofList le xs = xs.insertionSort (fun a b => le a b = true) := by
  induction xs with
  | nil => rfl
  | cons x xs ih =>
      rw [List.insertionSort_cons, ← ih, ← insert_eq_orderedInsert]
      rfl

theorem perm_ofList (xs : List α) : (ofList le xs).Perm xs := by
  rw [ofList_eq_insertionSort]
  exact List.perm_insertionSort _ xs

theorem pairwise_ofList (total : ∀ a b, le a b = true ∨ le b a = true)
    (trans : ∀ a b c, le a b = true → le b c = true → le a c = true) (xs : List α) :
    (ofList le xs).Pairwise (fun a b => le a b = true) := by
  have : Std.Total (fun a b => le a b = true) := ⟨total⟩
  have : IsTrans α (fun a b => le a b = true) := ⟨trans⟩
  rw [ofList_eq_insertionSort]
  exact List.pairwise_insertionSort _ xs

/-- Lists of the same elements have one order, unless different elements are equal to it. -/
theorem ofList_of_perm (total : ∀ a b, le a b = true ∨ le b a = true)
    (trans : ∀ a b c, le a b = true → le b c = true → le a c = true) {xs ys : List α}
    (antisymm : ∀ a ∈ xs, ∀ b ∈ xs, le a b = true → le b a = true → a = b) (h : xs.Perm ys) :
    ofList le xs = ofList le ys := by
  have hperm : (ofList le xs).Perm (ofList le ys) :=
    (perm_ofList le xs).trans (h.trans (perm_ofList le ys).symm)
  refine List.Perm.eq_of_pairwise ?_ (pairwise_ofList le total trans xs)
    (pairwise_ofList le total trans ys) hperm
  intro a b ha hb
  exact antisymm a ((perm_ofList le xs).mem_iff.mp ha) b
    (h.mem_iff.mpr ((perm_ofList le ys).mem_iff.mp hb))

theorem ofList_of_increasing (total : ∀ a b, le a b = true ∨ le b a = true)
    (trans : ∀ a b c, le a b = true → le b c = true → le a c = true) {xs ys : List α}
    (h : xs.Perm ys) (hys : ys.Pairwise (fun a b => le a b = true ∧ ¬ le b a = true)) :
    ofList le xs = ys := by
  have : Std.Symm (fun a b => ¬ (le a b = true ∧ le b a = true)) :=
    ⟨fun _ _ hnot hboth => hnot hboth.symm⟩
  have hone : ys.Pairwise (fun a b => ¬ (le a b = true ∧ le b a = true)) :=
    hys.imp (fun hab hboth => hab.2 hboth.2)
  refine List.Perm.eq_of_pairwise ?_ (pairwise_ofList le total trans xs)
    (hys.imp And.left) ((perm_ofList le xs).trans h)
  intro a b ha hb hab hba
  have ha' : a ∈ ys := h.mem_iff.mp ((perm_ofList le xs).mem_iff.mp ha)
  by_contra hne
  exact hone.forall ha' hb hne ⟨hab, hba⟩

theorem map_ofList {β : Type} (le' : β → β → Bool) (f : α → β) (xs : List α)
    (h : ∀ a ∈ xs, ∀ b ∈ xs, le a b = le' (f a) (f b)) :
    (ofList le xs).map f = ofList le' (xs.map f) := by
  rw [ofList_eq_insertionSort, ofList_eq_insertionSort]
  apply List.map_insertionSort
  intro a ha b hb
  rw [h a ha b hb]

theorem insert_append {x : α} {ys : List α} (h : ∀ y ∈ ys, le x y = true) (xs : List α) :
    insert le x (xs ++ ys) = insert le x xs ++ ys := by
  induction xs with
  | nil =>
      cases ys with
      | nil => rfl
      | cons y ys => simp [insert, h y (by simp)]
  | cons z xs ih =>
      simp only [List.cons_append, insert, ih]
      split <;> rfl

theorem ofList_append {xs ys : List α} (h : ∀ x ∈ xs, ∀ y ∈ ys, le x y = true) :
    ofList le (xs ++ ys) = ofList le xs ++ ofList le ys := by
  induction xs with
  | nil => rfl
  | cons x xs ih =>
      have hxs : ∀ x ∈ xs, ∀ y ∈ ys, le x y = true := fun z hz => h z (List.mem_cons_of_mem x hz)
      have hx : ∀ y ∈ ofList le ys, le x y = true := by
        intro y hy
        exact h x (by simp) y ((perm_ofList le ys).mem_iff.mp hy)
      have hstep : ∀ zs, ofList le (x :: zs) = insert le x (ofList le zs) := fun _ => rfl
      rw [List.cons_append, hstep, ih hxs, insert_append le hx, hstep]

end Sorted

theorem mem_sortedSet {name : String} {names : List String} :
    name ∈ sortedSet names ↔ name ∈ names := by
  rw [sortedSet, List.mem_eraseDups]
  exact (Sorted.perm_ofList _ names).mem_iff

theorem pairwise_lt_eraseDups {names : List String} (h : names.Pairwise (· ≤ ·)) :
    names.eraseDups.Pairwise (· < ·) := by
  cases names with
  | nil => exact .nil
  | cons name rest =>
      obtain ⟨hname, hrest⟩ := List.pairwise_cons.mp h
      rw [List.eraseDups_cons, List.pairwise_cons]
      refine ⟨?_, pairwise_lt_eraseDups (hrest.filter _)⟩
      intro other hother
      have hmem : other ∈ rest ∧ other ≠ name := by simpa using List.mem_eraseDups.mp hother
      exact lt_of_le_of_ne (hname other hmem.1) hmem.2.symm
termination_by names.length
decreasing_by
  have := List.length_filter_le (fun other => !other == name) rest
  grind

theorem pairwise_sortedSet (names : List String) : (sortedSet names).Pairwise (· < ·) := by
  have h : (Sorted.ofList (fun a b => decide (a ≤ b)) names).Pairwise (· ≤ ·) := by
    have hp := Sorted.pairwise_ofList (fun a b : String => decide (a ≤ b))
      (by simpa using fun a b => le_total a b)
      (by simpa using fun a b c => le_trans (a := a) (b := b) (c := c)) names
    simpa using hp
  exact pairwise_lt_eraseDups h

end TypedTables
