import TypedTables.Live.Session
import TypedTables.Proofs.IsolatedTypes

/-!
Unions, written with bars, as a form of the typing module or as live values. They are isolated,
whatever their members are: no column links to a member, and no member becomes nested by them. One
kind of text escapes: a bar outside all brackets that the scan overlooks, in a text that begins
with a name and an opening bracket and ends with a closing one, makes a generic type.
-/

namespace TypedTables

open Text TypeRef

namespace Live.Value

/-- A union made by the typing module, or one with bars between its members. -/
inductive IsUnion : Value → Prop
  | union (members : List Value) : IsUnion (.union members)
  | bar {members : List Value} (h : 2 ≤ members.length) : IsUnion (.bar members)

theorem mem_writtenUnion (members : List Value) : '[' ∈ (writtenUnion members).toList := by
  rw [writtenUnion.eq_def]
  split
  · split
    · simp [bracketed]
    · split <;> simp [bracketed]
  · simp [bracketed]

theorem mem_written_bar {members : List Value} (h : 2 ≤ members.length) (place : Place) :
    '|' ∈ ((Value.bar members).written place).toList := by
  obtain ⟨a, b, rest, rfl⟩ : ∃ a b rest, members = a :: b :: rest := by
    match members, h with
    | a :: b :: rest, _ => exact ⟨a, b, rest, rfl⟩
  rw [written, writtenAll, writtenAll, String.toList_intercalate, List.map_cons, List.map_cons,
    List.intercalate_cons_cons]
  simp

theorem typeRef_of_isUnion {v : Value} (h : v.IsUnion) (resolve : String → String) :
    v.typeRef resolve = ⟨v.written .alone, v.written .alone, "", .union⟩ := by
  cases h <;> rfl

theorem written_not_mem_vocabulary {v : Value} (h : v.IsUnion) :
    v.written .alone ∉ vocabulary := by
  cases h with
  | union members =>
      refine not_mem_vocabulary_of_mark (c := '[') ?_ (by simp)
      rw [written]
      exact mem_writtenUnion members
  | bar h => exact not_mem_vocabulary_of_mark (mem_written_bar h .alone) (by simp)

theorem isolated_of_isUnion {v : Value} (h : v.IsUnion) (resolve : String → String) :
    (v.typeRef resolve).Isolated := by
  rw [typeRef_of_isUnion h, isolated_iff]
  · rfl
  · simpa [TypeRef.text] using written_not_mem_vocabulary h

end Live.Value

namespace TypeRef

variable {text : String}

theorem isolated_of_levelBar (h : HasLevelBar (bare text)) (resolve : String → String) :
    (ofText text resolve).Isolated := by
  rw [isolated_ofText_iff (kind_ne_name_of_mark h.mem (by simp) resolve), ofText_of_levelBar h]
  simp

theorem isolated_of_unionName {n : SpacedName} {rest : List Char}
    (htext : bare text = n.chars ++ rest) (hrest : EndsName rest) {resolve : String → String}
    (hunion : resolve n.name ∈ unionTypes) : (ofText text resolve).Isolated := by
  rcases bare_cases text with hbar | ⟨n', gap, arguments, htext', harguments, hbar⟩ | ⟨hbar, hnamed⟩
  · exact isolated_of_levelBar hbar resolve
  · have hname := (name_unique (htext.symm.trans htext') hrest
      (endsName_of_arguments gap harguments)).1
    have hread := ofText_of_named htext' harguments hbar resolve
    rw [← hname, if_pos hunion] at hread
    rw [isolated_ofText_iff (by simp [hread]), hread]
    simp
  · have hread := ofText_of_unnamed hbar hnamed resolve
    rw [isolated_ofText_iff (by simp [hread]), hread]
    simp

end TypeRef

/-- Unions are isolated, in whichever way they are declared. Of the texts with a bar outside all
brackets those are not that pass as generic types, and none passes that closes its own brackets
only. -/
theorem unions_isolated (resolve : String → String) :
    (∀ text : String, HasFreeBar (bare text) →
      ((ofText text resolve).Isolated ↔
        ¬ ∃ (n : SpacedName) (gap : Blanks) (arguments : List Char),
          bare text = n.chars ++ (gap.val ++ arguments) ∧ IsGeneric resolve n arguments) ∧
      (ClosesOwn (bare text) → (ofText text resolve).Isolated ∧
        (ofText text resolve).text = String.ofList (bare text))) ∧
    (∀ (text : String) (n : SpacedName) (rest : List Char),
      bare text = n.chars ++ rest → EndsName rest → resolve n.name ∈ unionTypes →
        (ofText text resolve).Isolated) ∧
    (∀ v : Live.Value, v.IsUnion →
      (v.typeRef resolve).Isolated ∧ (v.typeRef resolve).text = v.written .alone) := by
  refine ⟨?_, ?_, ?_⟩
  · intro text hfree
    refine ⟨isolated_iff_of_mark hfree.mem (by simp) resolve, ?_⟩
    intro hown
    have hlevel := (hasLevelBar_iff hown).mpr hfree
    refine ⟨isolated_of_levelBar hlevel resolve, ?_⟩
    rw [ofText_of_levelBar hlevel]
    simp [TypeRef.text]
  · intro text n rest htext hrest hunion
    exact isolated_of_unionName htext hrest hunion
  · intro v hunion
    refine ⟨Live.Value.isolated_of_isUnion hunion resolve, ?_⟩
    rw [Live.Value.typeRef_of_isUnion hunion]
    simp [TypeRef.text]

def optional : SpacedName := ⟨⟨"Optional", by decide⟩, []⟩

theorem unions_isolated_tag :
    (HasFreeBar (bare "list[int] | Tag") ∧ ClosesOwn (bare "list[int] | Tag") ∧
      (ofText "list[int] | Tag" id).Isolated) ∧
    (bare "Optional [Tag]" = optional.chars ++ " [Tag]".toList ∧ EndsName " [Tag]".toList ∧
      "typing." ++ optional.name ∈ unionTypes ∧
      (ofText "Optional [Tag]" ("typing." ++ ·)).Isolated) ∧
    ((Live.Value.bar [.cls (.builtin "int"), .cls ⟨some "zoo", "Tag"⟩]).IsUnion ∧
      ((Live.Value.bar [.cls (.builtin "int"), .cls ⟨some "zoo", "Tag"⟩]).typeRef
        id).Isolated) := by
  have hfree : HasFreeBar (bare "list[int] | Tag") := by decide
  have hown : ClosesOwn (bare "list[int] | Tag") := by decide
  have htext : bare "Optional [Tag]" = optional.chars ++ " [Tag]".toList := by decide
  have htag : "[Tag]".toList = [] ∨ "[Tag]".toList.head? = some '[' := .inr (by decide)
  have hends : EndsName " [Tag]".toList := endsName_of_bracket (.single ' ' rfl) htag
  have hunion : "typing." ++ optional.name ∈ unionTypes := by decide +kernel
  have hlive : (Live.Value.bar [.cls (.builtin "int"), .cls ⟨some "zoo", "Tag"⟩]).IsUnion :=
    .bar (by decide)
  obtain ⟨hbar, -, hvalue⟩ := unions_isolated id
  obtain ⟨-, hname, -⟩ := unions_isolated ("typing." ++ ·)
  exact ⟨⟨hfree, hown, ((hbar _ hfree).2 hown).1⟩,
    ⟨htext, hends, hunion, hname _ optional _ htext hends hunion⟩, hlive, (hvalue _ hlive).1⟩

/-- A parenthesis in a text before the bar makes a union with an entity a reference to it. -/
theorem union_refers_to_member :
    ¬ ∀ (text : String) (resolve : String → String), HasFreeBar (bare text) →
      (ofText text resolve).Isolated := by
  intro h
  have hisolated := h "Tag[\":)\"] | list[int]" id (by decide)
  have hsame := hisolated.overlooked [⟨"Tag", "Tag", [], [], none⟩] []
    ⟨"Dog", "Dog", [], [], none⟩ [] [] "mood" none
  exact absurd hsame (by decide +kernel)

end TypedTables
