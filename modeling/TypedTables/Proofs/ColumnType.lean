import Mathlib.Tactic.SplitIfs
import TypedTables.Column.ColumnType

namespace TypedTables

/-- The declared types that have a column type of their own, which goes before a link. -/
def plainTypes : List String :=
  integralTypes ++ booleanTypes ++ stringTypes ++ dateTypes ++ binaryTypes

def IsLink (t : TypeRef) (s : Schema) : Prop :=
  t.isDeclared = true ∧ s.isNested t.identity = true ∧ t.text ∉ plainTypes

/-- What the other rules make of a declared type; no schema matters to them. -/
def ownType (t : TypeRef) : ColumnType :=
  if t.text ∈ integralTypes then .integer64
  else if t.text ∈ booleanTypes then .boolean
  else if t.text ∈ stringTypes then .string
  else if t.text ∈ dateTypes then .date
  else if t.text ∈ binaryTypes then .binary
  else if t.text ∈ variantTypes then .variant
  else .unsupported

theorem not_mem_plainTypes {text : String} :
    text ∉ plainTypes ↔ text ∉ integralTypes ∧ text ∉ booleanTypes ∧ text ∉ stringTypes ∧
      text ∉ dateTypes ∧ text ∉ binaryTypes := by
  simp only [plainTypes, List.mem_append, not_or, and_assoc]

theorem ownType_ne_link (t : TypeRef) : ownType t ≠ .link := by
  rw [ownType]
  split_ifs <;> simp

theorem ownType_of_not_plain {t : TypeRef} (h : t.text ∉ plainTypes) :
    ownType t = .unsupported ∨ ownType t = .variant := by
  obtain ⟨hint, hbool, hstr, hdate, hbin⟩ := not_mem_plainTypes.mp h
  rw [ownType, if_neg hint, if_neg hbool, if_neg hstr, if_neg hdate, if_neg hbin]
  by_cases hvariant : t.text ∈ variantTypes
  · exact .inr (if_pos hvariant)
  · exact .inl (if_neg hvariant)

theorem columnType_of_isLink {t : TypeRef} {s : Schema} (h : IsLink t s) :
    columnType t s = .link := by
  obtain ⟨hd, hn, hplain⟩ := h
  obtain ⟨hint, hbool, hstr, hdate, hbin⟩ := not_mem_plainTypes.mp hplain
  rw [columnType, if_neg hint, if_neg hbool, if_neg hstr, if_neg hdate, if_neg hbin]
  exact if_pos (by rw [hd, hn]; rfl)

theorem columnType_of_not_isLink {t : TypeRef} {s : Schema} (h : ¬ IsLink t s) :
    columnType t s = ownType t := by
  rw [columnType, ownType]
  refine ite_congr rfl (fun _ => rfl) (fun hint => ?_)
  refine ite_congr rfl (fun _ => rfl) (fun hbool => ?_)
  refine ite_congr rfl (fun _ => rfl) (fun hstr => ?_)
  refine ite_congr rfl (fun _ => rfl) (fun hdate => ?_)
  refine ite_congr rfl (fun _ => rfl) (fun hbin => ?_)
  apply if_neg
  intro hlink
  obtain ⟨hd, hn⟩ := Bool.and_eq_true_iff.mp hlink
  exact h ⟨hd, hn, not_mem_plainTypes.mpr ⟨hint, hbool, hstr, hdate, hbin⟩⟩

theorem columnType_eq_link {t : TypeRef} {s : Schema} : columnType t s = .link ↔ IsLink t s := by
  constructor
  · intro htype
    by_cases h : IsLink t s
    · exact h
    · rw [columnType_of_not_isLink h] at htype
      exact absurd htype (ownType_ne_link t)
  · exact columnType_of_isLink

theorem normalize_link (t : TypeRef) (s : Schema) :
    (t.normalize s).link =
      if columnType t s = .link then some ⟨Text.capitalize t.simpleName, t.identity⟩ else none :=
  rfl

end TypedTables
