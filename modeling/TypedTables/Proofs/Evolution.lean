import TypedTables.Proofs.Links

/-!
Schemas that grow. Fields appended to candidates and new candidates leave all earlier columns where
they are; a column can at most turn from one that held no table into a link to a new candidate.
-/

namespace TypedTables.Evolution

inductive Revision where
  | kept (e : Entity) (added : List Field)
  | new (e : Entity)

namespace Revision

def before? : Revision → Option Entity
  | .kept e _ => some e
  | .new _ => none

def after : Revision → Entity
  | .kept e added => { e with fields := e.fields ++ added }
  | .new e => e

def newName? : Revision → Option String
  | .kept _ _ => none
  | .new e => some e.qualifiedName

end Revision

def before (rs : List Revision) : List Entity := rs.filterMap Revision.before?

def after (rs : List Revision) : List Entity := rs.map Revision.after

def newNames (rs : List Revision) : List String := rs.filterMap Revision.newName?

/-- Earlier fields have positions, and appended fields come after all of them. -/
structure Evolves (rs : List Revision) : Prop where
  positioned : ∀ e ∈ before rs, ∀ f ∈ e.fields, f.position.isSome
  appended : ∀ e added, .kept e added ∈ rs → ∀ g ∈ added, ∃ q, g.position = some q ∧
    ∀ f ∈ e.fields, ∀ p, f.position = some p → p < q

/-- A declared type that names a candidate of the later schema only. -/
def NamesNew (rs : List Revision) (t : TypeRef) : Prop :=
  t.identity ∈ newNames rs ∧ t.identity ∉ candidateNames (before rs)

/-- What becomes of the column `c` of a field in a later schema. -/
structure Persists (rs : List Revision) (f : Field) (c c' : Column) : Prop where
  ofField : c = Column.ofField (Schema.build (before rs)) c.index f
  index : c'.index = c.index
  name : c'.name = c.name
  declaredType : c'.declaredType = c.declaredType
  fieldType : c'.fieldType = c.fieldType
  paramType : c'.paramType = c.paramType
  type : (c'.type = c.type ∧ c'.link = c.link) ∨
    (NamesNew rs f.type ∧ (c.type = .unsupported ∨ c.type = .variant) ∧ c'.type = .link)

theorem mem_candidateNames_after {rs : List Revision} {name : String} :
    name ∈ candidateNames (after rs) ↔
      name ∈ candidateNames (before rs) ∨ name ∈ newNames rs := by
  induction rs with
  | nil => simp [candidateNames, after, before, newNames]
  | cons r rs ih =>
      cases r with
      | kept e added =>
          have hafter : candidateNames (after (.kept e added :: rs)) =
              e.qualifiedName :: candidateNames (after rs) := rfl
          have hbefore : candidateNames (before (.kept e added :: rs)) =
              e.qualifiedName :: candidateNames (before rs) := rfl
          have hnew : newNames (.kept e added :: rs) = newNames rs := rfl
          rw [hafter, hbefore, hnew, List.mem_cons, List.mem_cons, ih, or_assoc]
      | new e =>
          have hafter : candidateNames (after (.new e :: rs)) =
              e.qualifiedName :: candidateNames (after rs) := rfl
          have hbefore : candidateNames (before (.new e :: rs)) = candidateNames (before rs) := rfl
          have hnew : newNames (.new e :: rs) = e.qualifiedName :: newNames rs := rfl
          rw [hafter, hbefore, hnew, List.mem_cons, List.mem_cons, ih, or_left_comm]

theorem refers_after {rs : List Revision} {t : TypeRef} (h : Refers (before rs) t) :
    Refers (after rs) t := by
  obtain ⟨hk, hname, hplain⟩ := h
  exact ⟨hk, mem_candidateNames_after.mpr (.inl hname), hplain⟩

theorem namesNew_of_refers {rs : List Revision} {t : TypeRef} (h : Refers (after rs) t)
    (hold : ¬ Refers (before rs) t) : NamesNew rs t := by
  obtain ⟨hk, hname, hplain⟩ := h
  have hnot : t.identity ∉ candidateNames (before rs) := fun hb => hold ⟨hk, hb, hplain⟩
  rcases mem_candidateNames_after.mp hname with hb | hn
  · exact absurd hb hnot
  · exact ⟨hn, hnot⟩

theorem columnType_after {rs : List Revision} {e : Entity} {added : List Field}
    (hk : .kept e added ∈ rs) {f : Field} (hf : f ∈ e.fields) :
    columnType f.type (Schema.build (after rs)) = columnType f.type (Schema.build (before rs)) ∨
      (NamesNew rs f.type ∧
        (columnType f.type (Schema.build (before rs)) = .unsupported ∨
          columnType f.type (Schema.build (before rs)) = .variant) ∧
        columnType f.type (Schema.build (after rs)) = .link) := by
  have hbefore : e ∈ before rs := List.mem_filterMap.mpr ⟨_, hk, rfl⟩
  have hafter : Revision.after (.kept e added) ∈ after rs := List.mem_map_of_mem hk
  have hold := isLink_build hbefore hf
  have hnew := isLink_build hafter (List.mem_append_left added hf)
  by_cases hb : Refers (before rs) f.type
  · left
    rw [columnType_of_isLink (hnew.mpr (refers_after hb)), columnType_of_isLink (hold.mpr hb)]
  · rw [columnType_of_not_isLink (mt hold.mp hb)]
    by_cases ha : Refers (after rs) f.type
    · right
      exact ⟨namesNew_of_refers ha hb, ownType_of_not_plain ha.2.2,
        columnType_of_isLink (hnew.mpr ha)⟩
    · left
      exact columnType_of_not_isLink (mt hnew.mp ha)

theorem persists_ofField {rs : List Revision} {e : Entity} {added : List Field}
    (hk : .kept e added ∈ rs) {f : Field} (hf : f ∈ e.fields) (i : Nat) :
    Persists rs f (Column.ofField (Schema.build (before rs)) i f)
      (Column.ofField (Schema.build (after rs)) i f) := by
  refine ⟨rfl, rfl, rfl, rfl, rfl, rfl, ?_⟩
  rcases columnType_after hk hf with htype | hlink
  · left
    refine ⟨htype, ?_⟩
    change (f.type.normalize _).link = (f.type.normalize _).link
    rw [normalize_link, normalize_link, htype]
  · exact .inr hlink

theorem sort_after (fs fs' : FileSystem) (cache cache' : SourceCache) {rs : List Revision}
    (h : Evolves rs) {e : Entity} {added : List Field} (hk : .kept e added ∈ rs) :
    ∃ more, (FieldOrder.sort fs' cache' (Revision.after (.kept e added))).1 =
      (FieldOrder.sort fs cache e).1 ++ more := by
  have hbefore : e ∈ before rs := List.mem_filterMap.mpr ⟨_, hk, rfl⟩
  have hold : ∀ f ∈ e.fields, f.position.isSome = true := h.positioned e hbefore
  have hnew : ∀ f ∈ (Revision.after (.kept e added)).fields, f.position.isSome = true := by
    intro f hf
    rcases List.mem_append.mp hf with hf | hf
    · exact hold f hf
    · obtain ⟨q, hq, -⟩ := h.appended e added hk f hf
      simp [hq]
  have hlater : ∀ x ∈ e.fields.map (fun f => (f.position.getD 0, f)),
      ∀ y ∈ added.map (fun f => (f.position.getD 0, f)), x.1 ≤ y.1 := by
    intro x hx y hy
    obtain ⟨f, hf, rfl⟩ := List.mem_map.mp hx
    obtain ⟨g, hg, rfl⟩ := List.mem_map.mp hy
    obtain ⟨q, hq, hlt⟩ := h.appended e added hk g hg
    obtain ⟨p, hp⟩ := Option.isSome_iff_exists.mp (hold f hf)
    simpa [hp, hq] using (hlt f hf p hp).le
  rw [FieldOrder.sort_of_positions fs' cache' hnew, FieldOrder.sort_of_positions fs cache hold]
  refine ⟨FieldOrder.byPosition (added.map (fun f => (f.position.getD 0, f))), ?_⟩
  rw [← FieldOrder.byPosition_append hlater, ← List.map_append]
  rfl

theorem columns_persist (fs fs' : FileSystem) (cache cache' : SourceCache) {rs : List Revision}
    (h : Evolves rs) {e : Entity} {added : List Field} (hk : .kept e added ∈ rs) :
    ∃ fields : List Field, fields.Perm e.fields ∧
      (Column.ofEntity fs (Schema.build (before rs)) cache e).1.length = fields.length ∧
      List.Forall₂ (fun x c' => Persists rs x.1 x.2 c')
        (fields.zip (Column.ofEntity fs (Schema.build (before rs)) cache e).1)
        ((Column.ofEntity fs' (Schema.build (after rs)) cache'
          (Revision.after (.kept e added))).1.take e.fields.length) := by
  have hperm := FieldOrder.perm_sort fs cache e
  obtain ⟨more, hmore⟩ := sort_after fs fs' cache cache' h hk
  refine ⟨_, hperm, ?_, ?_⟩
  · rw [Column.length_ofEntity, hperm.length_eq]
  · rw [Column.ofEntity_eq, Column.ofEntity_eq, hmore, ← hperm.length_eq, Column.take_ofFields,
      Column.zip_ofFields]
    apply Column.forall₂_mapIdx
    intro i f hf
    exact persists_ofField hk (hperm.mem_iff.mp hf) i

/-- An order that gets a third field, which makes orders nested, and a customer that comes to be
known. -/
def orders : List Revision :=
  let field (name type : String) (position : Int) : Field :=
    ⟨name, ⟨type, type, "", .name⟩, some position⟩
  [ .new ⟨"shop.Customer", "Customer", [], [field "name" "str" 7], none⟩,
    .kept ⟨"shop.Order", "Order", [], [field "customer" "shop.Customer" 40, field "paid" "bool" 9],
      none⟩ [field "previous" "shop.Order" 62] ]

theorem columns_of_orders :
    Evolves orders ∧ ∀ e added, .kept e added ∈ orders →
      (∃ fields : List Field, fields.Perm e.fields ∧
        (Column.ofEntity ⟨.empty, [], []⟩ (Schema.build (before orders)) [] e).1.length =
          fields.length ∧
        List.Forall₂ (fun x c' => Persists orders x.1 x.2 c')
          (fields.zip (Column.ofEntity ⟨.empty, [], []⟩ (Schema.build (before orders)) [] e).1)
          ((Column.ofEntity ⟨.empty, [], []⟩ (Schema.build (after orders)) []
            (Revision.after (.kept e added))).1.take e.fields.length)) ∧
      (Column.ofEntity ⟨.empty, [], []⟩ (Schema.build (before orders)) [] e).1.map Column.type =
        [.boolean, .unsupported] ∧
      (Column.ofEntity ⟨.empty, [], []⟩ (Schema.build (after orders)) []
        (Revision.after (.kept e added))).1.map Column.type = [.boolean, .link, .link] := by
  have hevolves : Evolves orders := by
    constructor
    · decide
    · intro e added hk
      obtain ⟨rfl, rfl⟩ : _ ∧ _ := by simpa [orders] using hk
      simp
  refine ⟨hevolves, ?_⟩
  intro e added hk
  refine ⟨columns_persist _ _ _ _ hevolves hk, ?_⟩
  obtain ⟨rfl, rfl⟩ : _ ∧ _ := by simpa [orders] using hk
  decide +kernel

end TypedTables.Evolution
