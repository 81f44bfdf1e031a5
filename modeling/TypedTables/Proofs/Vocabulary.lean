import TypedTables.Proofs.IsolatedTypes

/-!
The vocabulary of column types as a table. Its columns are computed apart: the column type sees the
schema, the stored and the accepted type see the declared text alone. They give one row of the
table, except that a link declared by one of the names of variants keeps its column type only.
-/

namespace TypedTables

def ColumnType.row (declared : String) : ColumnType → String × String
  | .integer64 => ("int", "int")
  | .string => ("str", "str")
  | .binary => ("memoryview", declared)
  | .variant => ("tablegen.mixed.Mixed", "tablegen.mixed.Mixed")
  | .boolean | .date | .link | .unsupported => (declared, declared)

def NormalizedType.types (n : NormalizedType) : String × String :=
  (n.fieldType, n.paramType)

/-- A reference to a nested entity by a name that stands for any value. -/
def IsVariantLink (t : TypeRef) (s : Schema) : Prop :=
  t.isDeclared = true ∧ s.isNested t.identity = true ∧ t.text ∈ variantTypes

instance (t : TypeRef) (s : Schema) : Decidable (IsVariantLink t s) :=
  inferInstanceAs (Decidable (_ ∧ _ ∧ _))

theorem variantTypes_not_plain : ∀ text ∈ variantTypes, text ∉ plainTypes := by
  decide +kernel

theorem plainTypes_not_variant {text : String} (h : text ∈ plainTypes) : text ∉ variantTypes :=
  fun hvariant => variantTypes_not_plain text hvariant h

theorem keptTypes_not_raw :
    ∀ text ∈ booleanTypes ++ stringTypes ++ dateTypes ++ variantTypes, text ≠ rawBytesType := by
  decide +kernel

section Types

variable {t : TypeRef}

theorem stored_of_integral (h : t.text ∈ integralTypes) :
    (storedType t, acceptedType t) = ColumnType.integer64.row t.text := by
  rw [storedType, acceptedType, if_pos h, if_pos h]
  rfl

theorem stored_of_binary (hint : t.text ∉ integralTypes) (h : t.text ∈ binaryTypes) :
    (storedType t, acceptedType t) = ColumnType.binary.row t.text := by
  have hvariant : t.text ∉ variantTypes := plainTypes_not_variant (by simp [plainTypes, h])
  rw [storedType, acceptedType, if_neg hint, if_neg hint, if_neg hvariant]
  by_cases hraw : t.text = rawBytesType
  · rw [if_pos hraw]
    rfl
  · have hbuffer : t.text = bufferType := by simpa [binaryTypes, hraw] using h
    rw [if_neg hraw, hbuffer]
    rfl

theorem stored_of_variant (hint : t.text ∉ integralTypes) (h : t.text ∈ variantTypes) :
    (storedType t, acceptedType t) = ColumnType.variant.row t.text := by
  have hraw : t.text ≠ rawBytesType := keptTypes_not_raw t.text (by simp [h])
  rw [storedType, acceptedType, if_neg hint, if_neg hint, if_neg hraw, if_pos h]
  rfl

theorem stored_of_kept (hint : t.text ∉ integralTypes) (hraw : t.text ≠ rawBytesType)
    (hvariant : t.text ∉ variantTypes) : (storedType t, acceptedType t) = (t.text, t.text) := by
  rw [storedType, acceptedType, if_neg hint, if_neg hint, if_neg hraw, if_neg hvariant]

theorem stored_of_plain (hint : t.text ∉ integralTypes)
    (h : t.text ∈ booleanTypes ++ stringTypes ++ dateTypes) :
    (storedType t, acceptedType t) = (t.text, t.text) := by
  refine stored_of_kept hint (keptTypes_not_raw t.text (List.mem_append_left _ h)) ?_
  apply plainTypes_not_variant
  simp only [List.mem_append] at h
  simp only [plainTypes, List.mem_append]
  tauto

/-- Apart from links, the text alone decides the row. -/
theorem stored_eq_row_own (t : TypeRef) :
    (storedType t, acceptedType t) = (ownType t).row t.text := by
  rw [ownType]
  split_ifs with hint hbool hstr hdate hbin hvariant
  · exact stored_of_integral hint
  · exact stored_of_plain hint (by simp [hbool])
  · rw [stored_of_plain hint (by simp [hstr]), List.mem_singleton.mp hstr]
    rfl
  · exact stored_of_plain hint (by simp [hdate])
  · exact stored_of_binary hint hbin
  · exact stored_of_variant hint hvariant
  · exact stored_of_kept hint (fun hraw => hbin (by simp [binaryTypes, hraw])) hvariant

end Types

theorem isVariantLink_iff {t : TypeRef} {s : Schema} :
    IsVariantLink t s ↔ IsLink t s ∧ t.text ∈ variantTypes := by
  constructor
  · rintro ⟨hd, hn, hvariant⟩
    exact ⟨⟨hd, hn, variantTypes_not_plain t.text hvariant⟩, hvariant⟩
  · rintro ⟨⟨hd, hn, -⟩, hvariant⟩
    exact ⟨hd, hn, hvariant⟩

theorem stored_of_isLink {t : TypeRef} {s : Schema} (h : IsLink t s) :
    (storedType t, acceptedType t) =
      (if t.text ∈ variantTypes then ColumnType.variant else .link).row t.text := by
  obtain ⟨-, -, hplain⟩ := h
  obtain ⟨hint, -, -, -, hbin⟩ := not_mem_plainTypes.mp hplain
  by_cases hvariant : t.text ∈ variantTypes
  · rw [if_pos hvariant, stored_of_variant hint hvariant]
  · rw [if_neg hvariant]
    exact stored_of_kept hint (fun hraw => hbin (by simp [binaryTypes, hraw])) hvariant

theorem types_normalize (t : TypeRef) (s : Schema) :
    (t.normalize s).types =
      (if IsVariantLink t s then .variant else (t.normalize s).columnType).row t.text := by
  change (storedType t, acceptedType t) =
    (if IsVariantLink t s then .variant else columnType t s).row t.text
  by_cases hlink : IsLink t s
  · rw [stored_of_isLink hlink, columnType_of_isLink hlink]
    simp only [isVariantLink_iff, hlink, true_and]
  · have hvariant : ¬ IsVariantLink t s := fun h => hlink (isVariantLink_iff.mp h).1
    rw [if_neg hvariant, columnType_of_not_isLink hlink]
    exact stored_eq_row_own t

theorem variant_row_ne_link_row :
    ∀ text ∈ variantTypes, ColumnType.variant.row text ≠ ColumnType.link.row text := by
  decide +kernel

/-- The types of a column are the row of its column type, unless it is a link by the name of a
variant: such a link has the row of variants. -/
theorem types_eq_row_iff (t : TypeRef) (s : Schema) :
    ((t.normalize s).types = (t.normalize s).columnType.row t.text ↔ ¬ IsVariantLink t s) ∧
    (t.normalize s).types =
      (if IsVariantLink t s then .variant else (t.normalize s).columnType).row t.text := by
  refine ⟨?_, types_normalize t s⟩
  rw [types_normalize]
  by_cases h : IsVariantLink t s
  · have hlink : (t.normalize s).columnType = .link :=
      columnType_of_isLink (isVariantLink_iff.mp h).1
    have hrow := variant_row_ne_link_row t.text h.2.2
    simp [h, hlink, hrow]
  · simp [h]

/-- An entity may have the name of a variant, if a module of its own stands for the library's. -/
theorem any_stored_as_variant :
    ¬ ∀ (t : TypeRef) (s : Schema),
      (t.normalize s).types = (t.normalize s).columnType.row t.text := by
  intro h
  have hrow := h ⟨"Any", "typing.Any", "", .name⟩
    (.build [⟨"typing.Any", "Any", [], [], none⟩,
      ⟨"zoo.dog.Dog", "Dog", [], [⟨"tag", ⟨"Any", "typing.Any", "", .name⟩, none⟩], none⟩])
  exact absurd hrow (by decide +kernel)

end TypedTables
