import Mathlib.Data.List.TakeWhile
import TypedTables.Proofs.Offsets
import TypedTables.Proofs.SourceName

namespace TypedTables.Source

open Text

theorem take_length_takeWhile {α : Type} (p : α → Bool) (xs : List α) :
    xs.take (xs.takeWhile p).length = xs.takeWhile p :=
  (List.prefix_iff_eq_take.mp (List.takeWhile_prefix p)).symm

theorem lexeme_word {c : Char} {rest : List Char} {length : Nat}
    (h : lexeme (c :: rest) = (.token .word, length)) :
    isNameLead c = true ∧ rest.take (length - 1) = rest.takeWhile isNameChar := by
  generalize hcs : c :: rest = cs at h
  revert h
  fun_cases lexeme cs with
  | case10 _ _ _ _ _ _ _ _ hdigit hchar =>
      obtain ⟨rfl, rfl⟩ := List.cons.inj hcs
      intro h
      obtain ⟨-, rfl⟩ := Prod.mk.inj h
      refine ⟨by rw [isNameLead, hchar, eq_false_of_ne_true hdigit]; rfl, ?_⟩
      rw [List.length_cons, Nat.add_sub_cancel, take_length_takeWhile]
  | _ =>
      intro h
      cases h

theorem isName_of_mem_tokensFrom {cur : Cursor} {offset : Nat} {cs : List Char}
    {widths : List Nat} :
    ∀ t ∈ tokensFrom cur offset cs widths, t.kind = .word → IsName t.text := by
  fun_induction tokensFrom cur offset cs widths with
  | case1 => simp
  | case2 cur offset widths c rest length chars next after widthsAfter k opensLine hk ih =>
      refine List.forall_mem_cons.mpr ⟨?_, ih⟩
      rintro (rfl : k = .word)
      obtain ⟨hlead, hrest⟩ := lexeme_word hk
      constructor
      case lead =>
        rw [Token.text, String.toList_ofList]
        exact hlead
      case chars =>
        rw [Token.text, String.toList_ofList]
        refine List.forall_mem_cons.mpr ⟨(Bool.and_eq_true_iff.mp hlead).1, ?_⟩
        rw [hrest]
        exact fun d hd => List.mem_takeWhile_imp hd
  | case3 cur offset widths c rest length chars next after widthsAfter other hother hk ih =>
      exact ih

theorem isName_of_mem_classScopes {bytes : List UInt8} :
    ∀ scope ∈ classScopes (parse bytes), ∀ name ∈ ModuleContext.classNames scope,
      IsName name := by
  intro scope hscope name hname
  have hword := (namesWithin_parse bytes scope hscope).classes hname
  obtain ⟨t, ht, rfl⟩ := List.mem_map.mp hword
  obtain ⟨ht, hkind⟩ := List.mem_filter.mp ht
  exact isName_of_mem_tokensFrom t ht (of_decide_eq_true hkind)

theorem IsName.isComponent {name : String} (h : IsName name) : IsComponent name where
  nonempty := by
    rintro rfl
    exact absurd h (by decide)
  noDot := h.not_mem (by decide)

theorem wellNamed_parse (bytes : List UInt8) : WellNamed (parse bytes) :=
  fun scope hscope name hname => (isName_of_mem_classScopes scope hscope name hname).isComponent

end TypedTables.Source
