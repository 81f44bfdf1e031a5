/-!
Lists in order. Sorting is stable, and it goes by insertion, so that closed lists are sorted by mere
computation.
-/

namespace TypedTables.Sorted

variable {α : Type}

/-- Puts an element before the first one that it may stand before. -/
def insert (le : α → α → Bool) (x : α) : List α → List α
  | [] => [x]
  | y :: ys => if le x y then x :: y :: ys else y :: insert le x ys

/-- The elements in order; equal ones keep their places. -/
def ofList (le : α → α → Bool) (xs : List α) : List α :=
  xs.foldr (insert le) []

end TypedTables.Sorted
