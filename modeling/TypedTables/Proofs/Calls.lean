import TypedTables.Proofs.Template.Pieces
import TypedTables.Source.Token

/-!
The calls in generated code, read off its lines. A copied value counts as one word, whatever
characters it consists of: only what the templates write themselves opens, divides or closes the
arguments of a call.
-/

namespace TypedTables

open Source

structure Call where
  callee : List Char
  arguments : List (List Piece)
  deriving DecidableEq, Repr

def extendFirst (p : Piece) : List (List Piece) → List (List Piece)
  | [] => [[p]]
  | first :: others => (p :: first) :: others

/-- The arguments up to the bracket that closes them, cut at the commas outside of further
brackets. Blanks at the start of an argument are left out. -/
def argumentsIn (depth : Nat) (fresh : Bool) : List Piece → List (List Piece)
  | [] => [[]]
  | .copied text :: ps => extendFirst (.copied text) (argumentsIn depth false ps)
  | .char c :: ps =>
      if fresh && c = ' ' then argumentsIn depth true ps
      else if depth = 0 && c = ')' then [[]]
      else if depth = 0 && c = ',' then [] :: argumentsIn 0 true ps
      else
        let depth' := if c = '(' then depth + 1 else if c = ')' then depth - 1 else depth
        extendFirst (.char c) (argumentsIn depth' false ps)

/-- The calls in a line, and the definitions, which look like calls. What is called is the word of
name characters and dots before the bracket; `word` is what has been read of it, backwards. -/
def callsFrom (word : List Char) : List Piece → List Call
  | [] => []
  | .copied _ :: ps => callsFrom [] ps
  | .char c :: ps =>
      if c = '(' then ⟨word.reverse, argumentsIn 0 true ps⟩ :: callsFrom [] ps
      else if isNameChar c || c = '.' then callsFrom (c :: word) ps
      else callsFrom [] ps

def callsIn (line : List Piece) : List Call := callsFrom [] line

namespace Call

def namesSlot (call : Call) : Bool :=
  "self._backend.get_".toList.isPrefixOf call.callee ||
    "self._backend.set_".toList.isPrefixOf call.callee ||
    call.callee = "self._backend.subtable".toList ||
    call.callee = "self._backend.find_first".toList ||
    "._add".toList.isSuffixOf call.callee

def slot (call : Call) : List Char × Option (List Piece) := (call.callee, call.arguments.head?)

end Call

def slotCalls (line : List Piece) : List Call := (callsIn line).filter Call.namesSlot

def Quiet (parts : List TemplatePart) : Prop := ∀ s, readLines slotCalls s parts = []

namespace Quiet

variable {first rest body : List TemplatePart}

theorem append (hfirst : Quiet first) (hrest : Quiet rest) : Quiet (first ++ rest) := by
  intro s
  rw [readLines_append, hfirst s, hrest s]
  rfl

theorem eachImport (hbody : Quiet body) : Quiet [.eachImport body] := by
  intro s
  rw [readLines_cons, TemplatePart.pieceLines, List.flatMap_assoc]
  exact List.append_eq_nil_iff.mpr
    ⟨List.flatMap_eq_nil_iff.mpr (fun module _ => hbody (s.withValue "module" (.text module))), rfl⟩

theorem eachColumn (test : ColumnTest) (hbody : Quiet body) : Quiet [.eachColumn test body] := by
  intro s
  rw [readLines_cons, TemplatePart.pieceLines, List.flatMap_assoc]
  refine List.append_eq_nil_iff.mpr ⟨List.flatMap_eq_nil_iff.mpr ?_, rfl⟩
  intro column _
  split
  · exact hbody (s.withColumn column)
  · rfl

end Quiet

theorem readLines_loop {s : TemplateScope} {columns : List Column}
    (hcolumns : s.columnList = columns.map Column.toData) {first rest : List TemplatePart}
    (hfirst : Quiet first) (hrest : Quiet rest) (test : ColumnTest) (body : List TemplatePart) :
    readLines slotCalls s (first ++ .eachColumn test body :: rest) =
      columns.flatMap (fun c => if (s.withColumn c.toData).passes test then
        readLines slotCalls (s.withColumn c.toData) body else []) := by
  rw [readLines_append, readLines_cons, hfirst s, hrest s, List.append_nil, List.nil_append,
    flatMap_read_eachColumn slotCalls s hcolumns]

end TypedTables
