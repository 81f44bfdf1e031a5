import TypedTables.Proofs.Classification
import TypedTables.Proofs.Column
import TypedTables.Proofs.ColumnType
import TypedTables.Proofs.DottedName

/-!
Links between tables. A column is a link exactly if the type of its field refers to a candidate,
for the reference itself makes the candidate nested.
-/

namespace TypedTables

open Text

def Refers (entities : List Entity) (t : TypeRef) : Prop :=
  (t.kind = .name ∨ t.kind = .generic) ∧ t.identity ∈ candidateNames entities ∧
    t.text ∉ plainTypes

instance (entities : List Entity) (t : TypeRef) : Decidable (Refers entities t) :=
  inferInstanceAs (Decidable (_ ∧ _ ∧ _))

structure LinksTo (entities : List Entity) (f : Field) (c : Column) : Prop where
  name : c.name = f.name
  declaredType : c.declaredType = f.type.text
  isLink : c.type = .link ↔ Refers entities f.type
  target : Refers entities f.type →
    (Schema.build entities).classify f.type.identity = some .nested ∧
      ∃ last, (components f.type.identity).getLast? = some last ∧
        c.link = some ⟨capitalize last, f.type.identity⟩
  noTarget : ¬ Refers entities f.type → c.link = none

theorem isLink_build {entities : List Entity} {e : Entity} {f : Field} (he : e ∈ entities)
    (hf : f ∈ e.fields) : IsLink f.type (Schema.build entities) ↔ Refers entities f.type := by
  constructor
  · rintro ⟨hd, hn, hplain⟩
    exact ⟨(TypeRef.isDeclared_iff f.type).mp hd, (Schema.isNested_identity he hf hd).mp hn, hplain⟩
  · rintro ⟨hk, hname, hplain⟩
    have hd := (TypeRef.isDeclared_iff f.type).mpr hk
    exact ⟨hd, (Schema.isNested_identity he hf hd).mpr hname, hplain⟩

theorem linksTo_ofField {entities : List Entity} {e : Entity} {f : Field} (he : e ∈ entities)
    (hf : f ∈ e.fields) (i : Nat) :
    LinksTo entities f (Column.ofField (Schema.build entities) i f) := by
  have hlink := columnType_eq_link.trans (isLink_build he hf)
  refine ⟨rfl, rfl, hlink, ?_, ?_⟩
  · intro h
    have htype := hlink.mpr h
    refine ⟨?_, lastComponent f.type.identity, getLast?_components _, ?_⟩
    · have hnested := (columnType_eq_link.mp htype).2.1
      rwa [Schema.isNested, decide_eq_true_iff] at hnested
    · change (f.type.normalize (Schema.build entities)).link = _
      rw [normalize_link, if_pos htype]
      rfl
  · intro h
    change (f.type.normalize (Schema.build entities)).link = _
    rw [normalize_link, if_neg (mt hlink.mp h)]

/-- Of the columns of a candidate those are links whose fields refer to a candidate. -/
theorem links_iff_references (fs : FileSystem) (cache : SourceCache) {entities : List Entity}
    {e : Entity} (he : e ∈ entities) :
    ∃ fields : List Field, fields.Perm e.fields ∧
      List.Forall₂ (LinksTo entities) fields
        (Column.ofEntity fs (Schema.build entities) cache e).1 := by
  have hperm := FieldOrder.perm_sort fs cache e
  refine ⟨_, hperm, Column.forall₂_ofFields ?_⟩
  intro i f hf
  exact linksTo_ofField he (hperm.mem_iff.mp hf) i

/-- Candidates that refer to themselves and to each other. One of them bears the name of a plain
type, and a union names a candidate to no effect. -/
def kennel : List Entity :=
  let field (name : String) (t : TypeRef) (position : Int) : Field := ⟨name, t, some position⟩
  [ ⟨"zoo.Dog", "Dog", [], [
      field "mother" ⟨"Dog", "zoo.Dog", "", .name⟩ 30,
      field "owner" ⟨"Person[int]", "zoo.Person", "[int]", .generic⟩ 10,
      field "vet" ⟨"Person | None", "zoo.Person", "", .union⟩ 40,
      field "age" ⟨"int", "int", "", .name⟩ 20], none⟩,
    ⟨"zoo.Person", "Person", [], [field "dog" ⟨"Dog", "zoo.Dog", "", .name⟩ 5], none⟩,
    ⟨"int", "int", [], [], none⟩ ]

theorem links_of_kennel :
    kennel[0] ∈ kennel ∧
      (∃ fields : List Field, fields.Perm kennel[0].fields ∧
        List.Forall₂ (LinksTo kennel) fields
          (Column.ofEntity ⟨.empty, [], []⟩ (Schema.build kennel) [] kennel[0]).1) ∧
      (Column.ofEntity ⟨.empty, [], []⟩ (Schema.build kennel) [] kennel[0]).1.map Column.type =
        [.link, .integer64, .link, .unsupported] :=
  ⟨by decide, links_iff_references _ _ (by decide), by decide +kernel⟩

end TypedTables
