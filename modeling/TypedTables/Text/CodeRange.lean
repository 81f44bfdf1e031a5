namespace TypedTables.Text

abbrev CodeRange := Nat × Nat

def CodeRange.covers : List CodeRange → Nat → Bool
  | [], _ => false
  | (first, last) :: rest, n =>
      if n < first then false else n ≤ last || covers rest n

end TypedTables.Text
