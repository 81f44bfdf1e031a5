import TypedTables.Proofs.Classification
import TypedTables.Proofs.Column
import TypedTables.Proofs.ColumnType
import TypedTables.Proofs.SourceName
import TypedTables.Round

namespace TypedTables

open Text Source

/-- The types that the accessors of a column name, unless it is a link. -/
def accessorTypes : List String :=
  wideIntegerType :: bufferType :: variantWrapperType :: plainTypes

def IsFieldName (name : String) : Prop := IsName name ∧ name ∉ keywords

instance (name : String) : Decidable (IsFieldName name) := inferInstanceAs (Decidable (_ ∧ _))

structure Entity.WellNamed (e : Entity) : Prop where
  distinct : (e.fields.map Field.name).Nodup
  fieldNames : ∀ f ∈ e.fields, IsFieldName f.name
  className : IsName e.simpleName
  qualified : lastComponent e.qualifiedName = e.simpleName

theorem Entity.wellNamed_iff (e : Entity) :
    ((e.fields.map Field.name).Nodup ∧ (∀ f ∈ e.fields, IsFieldName f.name) ∧
      IsName e.simpleName ∧ lastComponent e.qualifiedName = e.simpleName) ↔ e.WellNamed :=
  ⟨fun ⟨hdistinct, hfields, hclass, hqualified⟩ => ⟨hdistinct, hfields, hclass, hqualified⟩,
    fun ⟨hdistinct, hfields, hclass, hqualified⟩ => ⟨hdistinct, hfields, hclass, hqualified⟩⟩

instance (e : Entity) : Decidable e.WellNamed := decidable_of_iff _ e.wellNamed_iff

/-- An entity named as a class is named, with fields that are named as fields are. Two fields may
share a name. -/
structure Entity.ProperNames (e : Entity) : Prop where
  fieldNames : ∀ f ∈ e.fields, IsFieldName f.name
  className : IsName e.simpleName
  qualified : lastComponent e.qualifiedName = e.simpleName

theorem Entity.properNames_iff (e : Entity) :
    ((∀ f ∈ e.fields, IsFieldName f.name) ∧ IsName e.simpleName ∧
      lastComponent e.qualifiedName = e.simpleName) ↔ e.ProperNames :=
  ⟨fun ⟨hfields, hclass, hqualified⟩ => ⟨hfields, hclass, hqualified⟩,
    fun ⟨hfields, hclass, hqualified⟩ => ⟨hfields, hclass, hqualified⟩⟩

instance (e : Entity) : Decidable e.ProperNames := decidable_of_iff _ e.properNames_iff

theorem Entity.WellNamed.properNames {e : Entity} (h : e.WellNamed) : e.ProperNames :=
  ⟨h.fieldNames, h.className, h.qualified⟩

structure Column.Regular (c : Column) : Prop where
  supported : c.type ≠ .unsupported
  free : c.name ∉ reservedFieldNames
  name : IsFieldName c.name
  types : c.type ≠ .link → c.fieldType ∈ accessorTypes ∧ c.paramType ∈ accessorTypes
  wrapped : c.type = .variant → c.fieldType = variantWrapperType
  target : ∀ target ∈ c.link, IsName target.name

theorem text_mem_of_columnType {t : TypeRef} {schema : Schema}
    (hsupported : columnType t schema ≠ .unsupported) (hlink : columnType t schema ≠ .link) :
    t.text ∈ plainTypes ∨ t.text ∈ variantTypes := by
  have hnot : ¬ IsLink t schema := mt columnType_eq_link.mpr hlink
  rw [columnType_of_not_isLink hnot] at hsupported
  by_cases hplain : t.text ∈ plainTypes
  · exact .inl hplain
  · obtain ⟨hint, hbool, hstr, hdate, hbin⟩ := not_mem_plainTypes.mp hplain
    rw [ownType, if_neg hint, if_neg hbool, if_neg hstr, if_neg hdate, if_neg hbin] at hsupported
    by_contra hnone
    exact hsupported (if_neg (not_or.mp hnone).2)

theorem storedType_mem {t : TypeRef} (h : t.text ∈ plainTypes ∨ t.text ∈ variantTypes) :
    storedType t ∈ accessorTypes := by
  rw [storedType]
  split_ifs with hint hraw hvariant
  · exact List.mem_cons_self
  · exact List.mem_cons_of_mem _ List.mem_cons_self
  · exact List.mem_cons_of_mem _ (List.mem_cons_of_mem _ List.mem_cons_self)
  · have hplain := h.resolve_right hvariant
    exact List.mem_cons_of_mem _ (List.mem_cons_of_mem _ (List.mem_cons_of_mem _ hplain))

theorem acceptedType_mem {t : TypeRef} (h : t.text ∈ plainTypes ∨ t.text ∈ variantTypes) :
    acceptedType t ∈ accessorTypes := by
  rw [acceptedType]
  split_ifs with hint hvariant
  · exact List.mem_cons_self
  · exact List.mem_cons_of_mem _ (List.mem_cons_of_mem _ List.mem_cons_self)
  · have hplain := h.resolve_right hvariant
    exact List.mem_cons_of_mem _ (List.mem_cons_of_mem _ (List.mem_cons_of_mem _ hplain))

theorem storedType_of_variant {t : TypeRef} {schema : Schema} (h : columnType t schema = .variant) :
    storedType t = variantWrapperType := by
  rw [columnType] at h
  split_ifs at h with hint hbool hstr hdate hbin hlink hvariant
  have hraw : t.text ≠ rawBytesType := by
    intro hraw
    exact hbin (hraw ▸ List.mem_cons_self)
  rw [storedType, if_neg hint, if_neg hraw, if_pos hvariant]

theorem exists_target {entities : List Entity} (h : ∀ e ∈ entities, e.ProperNames) {t : TypeRef}
    {target : LinkTarget} (htarget : target ∈ (t.normalize (Schema.build entities)).link) :
    ∃ e ∈ entities, target.name = capitalize e.simpleName := by
  rw [normalize_link] at htarget
  split at htarget
  · rename_i hlink
    obtain rfl := Option.some.inj htarget
    obtain ⟨-, hnested, -⟩ := columnType_eq_link.mp hlink
    obtain ⟨e, he, hname⟩ := List.mem_map.mp (Schema.isNested_build.mp hnested).1
    have hsimple : t.simpleName = e.simpleName := by
      rw [TypeRef.simpleName, ← TypeRef.identity, ← hname]
      exact (h e he).qualified
    exact ⟨e, he, congrArg capitalize hsimple⟩
  · cases htarget

theorem Column.regular_ofField {entities : List Entity} (h : ∀ e ∈ entities, e.ProperNames)
    {f : Field} {i : Nat} (hname : IsFieldName f.name)
    (hsupported : (ofField (Schema.build entities) i f).type ≠ .unsupported)
    (hfree : f.name ∉ reservedFieldNames) : (ofField (Schema.build entities) i f).Regular where
  supported := hsupported
  free := hfree
  name := hname
  types hlink := by
    have htext := text_mem_of_columnType hsupported hlink
    exact ⟨storedType_mem htext, acceptedType_mem htext⟩
  wrapped := storedType_of_variant
  target target htarget := by
    obtain ⟨e, he, hname⟩ := exists_target h htarget
    rw [hname]
    exact (h e he).className.capitalize

end TypedTables
