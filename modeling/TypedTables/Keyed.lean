/-!
Association lists that keep the order in which keys first appear: giving a known key a new value
does not move it.
-/

namespace TypedTables.Keyed

variable {κ α : Type} [DecidableEq κ]

/-- Sets the value of a key: a new key comes last, a known one keeps its place. -/
def insert (key : κ) (value : α) : List (κ × α) → List (κ × α)
  | [] => [(key, value)]
  | (k, v) :: rest =>
      if k = key then (k, value) :: rest else (k, v) :: insert key value rest

/-- The association list of a sequence of settings; of two settings of a key the later holds. -/
def ofList (settings : List (κ × α)) : List (κ × α) :=
  settings.foldl (fun table s => insert s.1 s.2 table) []

def append (key : κ) (value : α) (table : List (κ × List α)) : List (κ × List α) :=
  insert key ((table.lookup key).getD [] ++ [value]) table

end TypedTables.Keyed
