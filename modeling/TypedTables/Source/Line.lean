import TypedTables.Source.Token

namespace TypedTables.Source

structure Line where
  indent : Nat
  tokens : List Token
  deriving DecidableEq, Repr

/-- The tokens up to the next one that opens a line, and the lines from there on. -/
def gatherLines : List Token → List Token × List Line
  | [] => ([], [])
  | t :: ts =>
      let (same, lines) := gatherLines ts
      match t.opensLine with
      | none => (t :: same, lines)
      | some indent => ([], ⟨indent, t :: same⟩ :: lines)

def linesOf (ts : List Token) : List Line :=
  (gatherLines ts).2

inductive LineTree where
  | node (tokens : List Token) (below : List LineTree)

def nest : List Line → List LineTree
  | [] => []
  | line :: rest =>
      .node line.tokens (nest (rest.takeWhile (fun l => line.indent < l.indent))) ::
        nest (rest.dropWhile (fun l => line.indent < l.indent))
termination_by lines => lines.length
decreasing_by
  · exact Nat.lt_succ_of_le (List.takeWhile_sublist _).length_le
  · exact Nat.lt_succ_of_le (List.dropWhile_sublist _).length_le

end TypedTables.Source
