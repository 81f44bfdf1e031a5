import TypedTables.Proofs.ClassNames
import TypedTables.Proofs.PhysicalLines
import TypedTables.Proofs.RegularColumn

namespace TypedTables.Source

open Text

theorem isNameChar_not_isBreak {c : Char} (h : isNameChar c = true) : isBreak c = false := by
  rw [isBreak, Bool.or_eq_false_iff, beq_eq_false_iff_ne, beq_eq_false_iff_ne]
  constructor <;>
    rintro rfl <;>
    exact absurd h (by decide)

theorem IsName.singleLine {name : String} (h : IsName name) : SingleLine name.toList :=
  fun c hc => isNameChar_not_isBreak (h.chars c hc)

theorem isFieldName_of_mem_tokens {bytes : List UInt8} {t : Token} (ht : t ∈ tokens bytes)
    (h : t.isName = true) : IsFieldName t.text := by
  rw [Token.isName, Bool.and_eq_true, decide_eq_true_eq] at h
  exact ⟨isName_of_mem_tokensFrom t ht h.1, by simpa using h.2⟩

theorem isFieldName_of_annotated {bytes : List UInt8} {scope : List Statement}
    (hscope : scope ∈ classScopes (parse bytes)) {name type : String} {offset : Nat}
    (h : (name, type, offset) ∈ annotatedNames scope) : IsFieldName name := by
  have hmem : (name, offset) ∈ annotations scope := List.mem_map.mpr ⟨_, h, rfl⟩
  have htoken := (namesWithin_parse bytes scope hscope).annotated.subset hmem
  obtain ⟨t, ht, hname⟩ := List.mem_map.mp htoken
  obtain ⟨ht, hisName⟩ := List.mem_filter.mp ht
  obtain ⟨rfl, -⟩ := Prod.mk.inj hname
  exact isFieldName_of_mem_tokens ht hisName

theorem isFieldName_of_mem_marked {bytes : List UInt8} {module namespaceName : String}
    {package file : Option String} {m : Marked}
    (hm : m ∈ marked (parse bytes) module package namespaceName file) :
    ∀ f ∈ m.entity.fields, IsFieldName f.name := by
  obtain ⟨path, ds, body, hclass, -, hentity⟩ := mem_marked.mp hm
  intro f hf
  rw [hentity] at hf
  obtain ⟨⟨name, type, offset⟩, hannotated, hfield⟩ := List.mem_filterMap.mp hf
  have hname := isFieldName_of_annotated (List.mem_cons_of_mem _ hclass.mem_bodiesAmong) hannotated
  dsimp only at hfield
  split at hfield
  · cases hfield
  · obtain rfl := Option.some.inj hfield
    exact hname

end TypedTables.Source
