import TypedTables.Proofs.ColumnNames
import TypedTables.Proofs.Recovery
import TypedTables.Proofs.Scan

/-!
Declarations of fields. The fields of an entity that is extracted from a source carry positions that
increase along its class body, one field for each statement directly in it that declares one. So
sorting leaves them as they are, and column by column they are those statements.
-/

namespace TypedTables

open Source

namespace Source

def DeclaresField (ctx : ModuleContext) (s : Statement) (f : Field) : Prop :=
  ∃ type offset, s = .annotated f.name type offset ∧
    (TypeRef.ofText type ctx.resolve).isClassVar = false ∧
    f.type = TypeRef.ofText type ctx.resolve ∧ f.position = some (offset : Int)

def declarations (ctx : ModuleContext) (body : List Statement) : List Statement :=
  body.filter (fun s => (declared? ctx s).isSome)

structure BornInOrder (ctx : ModuleContext) (body : List Statement) (fields : List Field) :
    Prop where
  declared : List.Forall₂ (DeclaresField ctx) (declarations ctx body) fields
  increasing : InSourceOrder fields

theorem fieldsOf_annotated (ctx : ModuleContext) (name type : String) (offset : Nat)
    (body : List Statement) : fieldsOf ctx (.annotated name type offset :: body) =
      (fieldOf? ctx (name, type, offset)).toList ++ fieldsOf ctx body := by
  have hnames : annotatedNames (.annotated name type offset :: body) =
      (name, type, offset) :: annotatedNames body := rfl
  rw [fieldsOf_eq, fieldsOf_eq, hnames, List.filterMap_cons]
  cases fieldOf? ctx (name, type, offset) <;> rfl

theorem forall₂_fieldsOf (ctx : ModuleContext) (body : List Statement) :
    List.Forall₂ (DeclaresField ctx) (declarations ctx body) (fieldsOf ctx body) := by
  induction body with
  | nil => exact .nil
  | cons s body ih =>
      cases s with
      | annotated name type offset =>
          rw [fieldsOf_annotated, fieldOf?, declarations, List.filter_cons]
          by_cases hvar : (TypeRef.ofText type ctx.resolve).isClassVar = true
          · have hnone : declared? ctx (.annotated name type offset) = none := if_pos hvar
            simp only [hvar, hnone]
            exact ih
          · have hsome : declared? ctx (.annotated name type offset) = some name := if_neg hvar
            simp only [hvar, hsome]
            exact .cons ⟨type, offset, rfl, by simpa using hvar, rfl, rfl⟩ ih
      | _ => exact ih

theorem bornInOrder_of_classIn {bytes : List UInt8} {path : List String} {ds : List Decorator}
    {body : List Statement} (h : ClassIn (parse bytes) path ds body) (ctx : ModuleContext) :
    BornInOrder ctx body (fieldsOf ctx body) where
  declared := forall₂_fieldsOf ctx body
  increasing := inSourceOrder_fieldsOf
    (pairwise_annotatedOffsets (List.mem_cons_of_mem _ h.mem_bodiesAmong)) ctx

namespace BornInOrder

variable {ctx : ModuleContext} {body : List Statement} {fields : List Field}

theorem isSome_position (h : BornInOrder ctx body fields) :
    ∀ f ∈ fields, f.position.isSome := by
  have hall : List.Forall₂ (fun _ f => f.position.isSome) (declarations ctx body) fields := by
    refine h.declared.imp ?_
    rintro s f ⟨type, offset, -, -, -, hposition⟩
    simp [hposition]
  intro f hf
  obtain ⟨i, hi, rfl⟩ := List.getElem_of_mem hf
  exact (List.forall₂_iff_get.mp hall).2 i (hall.length_eq ▸ hi) hi

end BornInOrder

/-- An entity of a class in a file below some root, with the class body and what its names mean. -/
def ReadFrom (fs : FileSystem) (e : Entity) (ctx : ModuleContext) (body : List Statement) : Prop :=
  ∃ (file : SourceFile) (bytes : List UInt8) (path : List String) (ds : List Decorator),
    fs.readSource file.path = .ok bytes ∧
    ctx = .ofStatements file.name.module file.name.package (parse bytes) ∧
    ClassIn (parse bytes) path ds body ∧ e = entityAt ctx (some file.path.text) path body

theorem ReadFrom.bornInOrder {fs : FileSystem} {e : Entity} {ctx : ModuleContext}
    {body : List Statement} (h : ReadFrom fs e ctx body) : BornInOrder ctx body e.fields := by
  obtain ⟨file, bytes, path, ds, -, -, hclass, rfl⟩ := h
  exact bornInOrder_of_classIn hclass ctx

def AllRead (fs : FileSystem) (entities : List Entity) : Prop :=
  ∀ e ∈ entities, ∃ ctx body, ReadFrom fs e ctx body

theorem allRead_collect {fs : FileSystem} {markers ignoreFile : String}
    {found gathered : MarkedEntities} {roots : List Path} (hfound : ∀ x ∈ found, AllRead fs x.2)
    (h : (collect fs markers ignoreFile found roots).2 = .ok gathered) :
    ∀ x ∈ gathered, AllRead fs x.2 := by
  refine forall_collect hfound ?_ h
  intro root _ files _ f _ bytes hread m hm
  obtain ⟨path, ds, body, hclass, -, hentity⟩ := mem_marked.mp hm
  exact ⟨_, body, f, bytes, path, ds, hread, rfl, hclass, hentity⟩

end Source

namespace FieldOrder

theorem sort_of_inSourceOrder (fs : FileSystem) (cache : SourceCache) {e : Entity}
    (hgiven : ∀ f ∈ e.fields, f.position.isSome) (h : InSourceOrder e.fields) :
    sort fs cache e = (e.fields, [], cache) := by
  have hkeys : e.fields.Pairwise (fun f g => f.position.getD 0 < g.position.getD 0) := by
    refine h.imp ?_
    rintro f g ⟨p, q, hp, hq, hlt⟩
    simpa [hp, hq] using hlt
  rw [sort_of_positions fs cache hgiven, byPosition_of_increasing (.refl _) hkeys]

end FieldOrder

/-- Columns numbered like the statements of a class body that declare their fields. -/
def Column.LaidOut (schema : Schema) (ctx : ModuleContext) (body : List Statement)
    (columns : List Column) : Prop :=
  columns.length = (declarations ctx body).length ∧
    ∀ i s, (declarations ctx body)[i]? = some s →
      ∃ f, DeclaresField ctx s f ∧ columns[i]? = some (Column.ofField schema i f)

theorem Column.laidOut_ofEntity {ctx : ModuleContext} {body : List Statement} {e : Entity}
    (h : BornInOrder ctx body e.fields) (fs : FileSystem) (schema : Schema) (cache : SourceCache) :
    LaidOut schema ctx body (ofEntity fs schema cache e).1 := by
  rw [ofEntity_eq, FieldOrder.sort_of_inSourceOrder fs cache h.isSome_position h.increasing]
  obtain ⟨hlength, hdeclared⟩ := List.forall₂_iff_get.mp h.declared
  refine ⟨by simp [ofFields, hlength], ?_⟩
  intro i s hs
  obtain ⟨hi, rfl⟩ := List.getElem?_eq_some_iff.mp hs
  have hi' : i < e.fields.length := hlength ▸ hi
  exact ⟨e.fields[i], hdeclared i hi hi', by simp [ofFields, hi']⟩

end TypedTables
