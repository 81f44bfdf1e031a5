import TypedTables.Model
import TypedTables.Proofs.Template.Lines

namespace TypedTables

inductive Piece where
  | char (c : Char)
  | copied (text : List Char)
  deriving DecidableEq, Repr

def Piece.text : Piece → List Char
  | .char c => [c]
  | .copied text => text

def written (text : List Char) : List Piece := text.map .char

def textOf (pieces : List Piece) : List Char := pieces.flatMap Piece.text

theorem textOf_written (text : List Char) : textOf (written text) = text := by
  rw [textOf, written, List.flatMap_map]
  exact List.flatMap_singleton' text

theorem textOf_copied (text : List Char) : textOf [.copied text] = text :=
  List.flatMap_singleton Piece.text (.copied text)

theorem textOf_append (ps qs : List Piece) : textOf (ps ++ qs) = textOf ps ++ textOf qs :=
  List.flatMap_append

theorem textOf_flatMap {α : Type} (f : α → List Piece) (xs : List α) :
    textOf (xs.flatMap f) = xs.flatMap (fun x => textOf (f x)) :=
  List.flatMap_assoc

mutual

def TemplatePart.pieces (s : TemplateScope) : TemplatePart → List Piece
  | .text text => written text.toList
  | .line parts => piecesOfAll s parts ++ [.char '\n']
  | .lines lines => lines.flatMap (fun line => written (line.toList ++ ['\n']))
  | .value name => [.copied (s.shown name)]
  | .column key => [.copied (s.shownColumn key)]
  | .accessor => written s.accessorName
  | .eachColumn test body => s.columnList.flatMap (fun column =>
      if (s.withColumn column).passes test then piecesOfAll (s.withColumn column) body else [])
  | .eachImport body => s.moduleList.flatMap (fun module =>
      piecesOfAll (s.withValue "module" (.text module)) body)
  | .whenColumn test yes no => if s.passes test then piecesOfAll s yes else piecesOfAll s no
  | .whenPresent name body => if s.has name then piecesOfAll s body else []

def piecesOfAll (s : TemplateScope) : List TemplatePart → List Piece
  | [] => []
  | part :: parts => part.pieces s ++ piecesOfAll s parts

end

mutual

def TemplatePart.pieceLines (s : TemplateScope) : TemplatePart → List (List Piece)
  | .line parts => [piecesOfAll s parts]
  | .lines lines => lines.map (fun line => written line.toList)
  | .eachColumn test body => s.columnList.flatMap (fun column =>
      if (s.withColumn column).passes test then pieceLinesOfAll (s.withColumn column) body else [])
  | .eachImport body => s.moduleList.flatMap (fun module =>
      pieceLinesOfAll (s.withValue "module" (.text module)) body)
  | .whenColumn test yes no =>
      if s.passes test then pieceLinesOfAll s yes else pieceLinesOfAll s no
  | .whenPresent name body => if s.has name then pieceLinesOfAll s body else []
  | _ => []

def pieceLinesOfAll (s : TemplateScope) : List TemplatePart → List (List Piece)
  | [] => []
  | part :: parts => part.pieceLines s ++ pieceLinesOfAll s parts

end

mutual

theorem TemplatePart.textOf_pieces (s : TemplateScope) :
    (part : TemplatePart) → textOf (part.pieces s) = part.filled s
  | .text text => textOf_written text.toList
  | .line parts => by
      rw [TemplatePart.pieces, textOf_append, textOf_piecesOfAll s parts, TemplatePart.filled]
      rfl
  | .lines lines => by
      rw [TemplatePart.pieces, textOf_flatMap, TemplatePart.filled]
      exact List.flatMap_congr (fun line _ => textOf_written _)
  | .value name => textOf_copied (s.shown name)
  | .column key => textOf_copied (s.shownColumn key)
  | .accessor => textOf_written s.accessorName
  | .eachColumn test body => by
      rw [TemplatePart.pieces, textOf_flatMap, TemplatePart.filled]
      refine List.flatMap_congr ?_
      intro column _
      split
      · exact textOf_piecesOfAll _ body
      · rfl
  | .eachImport body => by
      rw [TemplatePart.pieces, textOf_flatMap, TemplatePart.filled]
      exact List.flatMap_congr (fun module _ => textOf_piecesOfAll _ body)
  | .whenColumn test yes no => by
      rw [TemplatePart.pieces, TemplatePart.filled]
      split
      · exact textOf_piecesOfAll s yes
      · exact textOf_piecesOfAll s no
  | .whenPresent name body => by
      rw [TemplatePart.pieces, TemplatePart.filled]
      split
      · exact textOf_piecesOfAll s body
      · rfl

theorem textOf_piecesOfAll (s : TemplateScope) :
    (parts : List TemplatePart) → textOf (piecesOfAll s parts) = filledAll s parts
  | [] => rfl
  | part :: parts => by
      rw [piecesOfAll, textOf_append, part.textOf_pieces s, textOf_piecesOfAll s parts, filledAll]

end

theorem map_textOf_flatMap {α : Type} {f : α → List (List Piece)} {g : α → List (List Char)}
    (xs : List α) (h : ∀ x ∈ xs, (f x).map textOf = g x) :
    (xs.flatMap f).map textOf = xs.flatMap g := by
  rw [List.map_flatMap]
  exact List.flatMap_congr h

mutual

theorem TemplatePart.map_textOf_pieceLines (s : TemplateScope) :
    (part : TemplatePart) → (part.pieceLines s).map textOf = part.filledLines s
  | .text _ => rfl
  | .value _ => rfl
  | .column _ => rfl
  | .accessor => rfl
  | .line parts => by
      rw [TemplatePart.pieceLines, List.map_singleton, textOf_piecesOfAll,
        TemplatePart.filledLines]
  | .lines lines => by
      rw [TemplatePart.pieceLines, List.map_map, TemplatePart.filledLines]
      exact List.map_congr_left (fun line _ => textOf_written line.toList)
  | .eachColumn test body => by
      rw [TemplatePart.pieceLines, TemplatePart.filledLines]
      refine map_textOf_flatMap _ ?_
      intro column _
      split
      · exact map_textOf_pieceLinesOfAll _ body
      · rfl
  | .eachImport body => by
      rw [TemplatePart.pieceLines, TemplatePart.filledLines]
      exact map_textOf_flatMap _ (fun module _ => map_textOf_pieceLinesOfAll _ body)
  | .whenColumn test yes no => by
      rw [TemplatePart.pieceLines, TemplatePart.filledLines]
      split
      · exact map_textOf_pieceLinesOfAll s yes
      · exact map_textOf_pieceLinesOfAll s no
  | .whenPresent name body => by
      rw [TemplatePart.pieceLines, TemplatePart.filledLines]
      split
      · exact map_textOf_pieceLinesOfAll s body
      · rfl

theorem map_textOf_pieceLinesOfAll (s : TemplateScope) :
    (parts : List TemplatePart) → (pieceLinesOfAll s parts).map textOf = linesOfAll s parts
  | [] => rfl
  | part :: parts => by
      rw [pieceLinesOfAll, List.map_append, part.map_textOf_pieceLines s,
        map_textOf_pieceLinesOfAll s parts, linesOfAll]

end

section

variable {α : Type} (read : List Piece → List α) (s : TemplateScope)

def readLines (parts : List TemplatePart) : List α := (pieceLinesOfAll s parts).flatMap read

theorem readLines_append (parts more : List TemplatePart) :
    readLines read s (parts ++ more) = readLines read s parts ++ readLines read s more := by
  rw [readLines, readLines, readLines, ← List.flatMap_append]
  congr 1
  induction parts with
  | nil => rfl
  | cons part parts ih =>
      rw [List.cons_append, pieceLinesOfAll, pieceLinesOfAll, ih, List.append_assoc]

theorem readLines_cons (part : TemplatePart) (parts : List TemplatePart) :
    readLines read s (part :: parts) =
      (part.pieceLines s).flatMap read ++ readLines read s parts := by
  rw [readLines, pieceLinesOfAll, List.flatMap_append, readLines]

theorem flatMap_read_eachColumn {columns : List Column}
    (hcolumns : s.columnList = columns.map Column.toData) (test : ColumnTest)
    (body : List TemplatePart) :
    ((TemplatePart.eachColumn test body).pieceLines s).flatMap read =
      columns.flatMap (fun c => if (s.withColumn c.toData).passes test then
        readLines read (s.withColumn c.toData) body else []) := by
  rw [TemplatePart.pieceLines, hcolumns, List.flatMap_map, List.flatMap_assoc]
  refine List.flatMap_congr ?_
  intro c _
  split <;> rfl

end

end TypedTables
