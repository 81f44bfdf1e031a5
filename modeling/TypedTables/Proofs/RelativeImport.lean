import TypedTables.Proofs.DottedName
import TypedTables.Source.ModuleContext

/-!
The module that a relative import denotes. Each dot beyond the first cuts one component off the
package of the importing module, up to the place where none is left. The cut does not stay there:
the levels after it count from the end of the package again, until twice the depth of the package
is passed.
-/

namespace TypedTables.Source.ModuleContext

open Text

variable {parts : List String} {level : Nat}

/-- A module below the package with the given components. An empty name is the package itself. -/
def inPackage (parts : List String) (name : String) : String :=
  if name.isEmpty then dotted parts else dotted parts ++ "." ++ name

theorem dotted_take_ne_empty (htop : parts.head? ≠ some "") {count : Nat} (hne : parts ≠ [])
    (hcount : 0 < count) : dotted (parts.take count) ≠ "" := by
  obtain ⟨first, rest, rfl⟩ := List.exists_cons_of_ne_nil hne
  obtain ⟨kept, rfl⟩ := Nat.exists_eq_succ_of_ne_zero (Nat.ne_of_gt hcount)
  have hfirst : first ≠ "" := by simpa using htop
  rw [List.take_succ_cons]
  by_cases hrest : rest.take kept = []
  · rwa [hrest, dotted_singleton]
  · rw [dotted_cons first hrest]
    simp [String.append_eq_empty_iff]

theorem inPackage_ne (h : dotted parts ≠ "") (name : String) : inPackage parts name ≠ name := by
  intro heq
  rw [inPackage] at heq
  split at heq
  · rename_i hempty
    exact h (heq.trans (String.isEmpty_iff.mp hempty))
  · have hlength := congrArg String.length heq
    rw [String.length_append, String.length_append] at hlength
    have hdot : ".".length = 1 := rfl
    omega

theorem cutLast_eq_take (count : Nat) (parts : List String) :
    cutLast count parts =
      parts.take (if count ≤ parts.length then parts.length - count
        else 2 * parts.length - count) := by
  rw [cutLast]
  split <;> rfl

theorem resolveRelative_of_cut_empty (hdot : ∀ part ∈ parts, '.' ∉ part.toList)
    (hne : parts ≠ []) (hcut : cutLast (level - 1) parts = []) (name : String) :
    resolveRelative (some (dotted parts)) level name = name := by
  rw [resolveRelative, components_dotted_of_noDot hne hdot, hcut]
  rfl

theorem resolveRelative_of_cut (hdot : ∀ part ∈ parts, '.' ∉ part.toList)
    (htop : parts.head? ≠ some "") (hne : parts ≠ []) {count : Nat} (hcount : 0 < count)
    (hcut : cutLast (level - 1) parts = parts.take count) (name : String) :
    resolveRelative (some (dotted parts)) level name = inPackage (parts.take count) name := by
  have hbase := dotted_take_ne_empty htop hne hcount
  rw [resolveRelative, components_dotted_of_noDot hne hdot, hcut]
  simp only [String.isEmpty_iff, if_neg hbase, inPackage]

theorem resolveRelative_of_le (hdot : ∀ part ∈ parts, '.' ∉ part.toList)
    (htop : parts.head? ≠ some "") (hne : parts ≠ []) (hlevel : 1 ≤ level)
    (hle : level ≤ parts.length) (name : String) :
    resolveRelative (some (dotted parts)) level name =
      inPackage (parts.take (parts.length + 1 - level)) name := by
  apply resolveRelative_of_cut hdot htop hne (by omega)
  rw [cutLast_eq_take, if_pos (by omega)]
  congr 1
  omega

theorem resolveRelative_wraps (hdot : ∀ part ∈ parts, '.' ∉ part.toList)
    (htop : parts.head? ≠ some "") (hne : parts ≠ []) (hlt : parts.length + 1 < level)
    (hle : level ≤ 2 * parts.length) (name : String) :
    resolveRelative (some (dotted parts)) level name =
      inPackage (parts.take (2 * parts.length + 1 - level)) name := by
  apply resolveRelative_of_cut hdot htop hne (by omega)
  rw [cutLast_eq_take, if_neg (by omega)]
  congr 1
  omega

theorem resolveRelative_beyond (hdot : ∀ part ∈ parts, '.' ∉ part.toList) (hne : parts ≠ [])
    (h : level = parts.length + 1 ∨ 2 * parts.length < level) (name : String) :
    resolveRelative (some (dotted parts)) level name = name := by
  apply resolveRelative_of_cut_empty hdot hne
  have hpos := List.length_pos_iff.mpr hne
  rw [cutLast_eq_take]
  split
  · rw [show parts.length - (level - 1) = 0 by omega, List.take_zero]
  · rw [show 2 * parts.length - (level - 1) = 0 by omega, List.take_zero]

/-- Up to the depth of its package an import goes up one package with each level. Beyond the
top-level package it keeps its name for the first level and again for all levels beyond twice the
depth. For the levels between it names a package that the dots do not lead to. -/
theorem resolveRelative_iff (hne : parts ≠ []) (hdot : ∀ part ∈ parts, '.' ∉ part.toList)
    (htop : parts.head? ≠ some "") (hlevel : 1 ≤ level) (name : String) :
    (level ≤ parts.length →
      resolveRelative (some (dotted parts)) level name =
        inPackage (parts.take (parts.length + 1 - level)) name) ∧
    (parts.length < level →
      (resolveRelative (some (dotted parts)) level name = name ↔
        level = parts.length + 1 ∨ 2 * parts.length < level)) ∧
    (parts.length + 1 < level → level ≤ 2 * parts.length →
      resolveRelative (some (dotted parts)) level name =
        inPackage (parts.take (2 * parts.length + 1 - level)) name) := by
  refine ⟨fun hle => resolveRelative_of_le hdot htop hne hlevel hle name, fun hlt => ⟨?_, ?_⟩,
    fun hlt hle => resolveRelative_wraps hdot htop hne hlt hle name⟩
  · intro hname
    apply Decidable.byContradiction
    intro hout
    have hlow : parts.length + 1 < level := by omega
    have hhigh : level ≤ 2 * parts.length := by omega
    have hwrap := resolveRelative_wraps hdot htop hne hlow hhigh name
    have hkept : 0 < 2 * parts.length + 1 - level := by omega
    exact inPackage_ne (dotted_take_ne_empty htop hne hkept) name (hwrap.symm.trans hname)
  · intro hout
    exact resolveRelative_beyond hdot hne hout name

theorem resolveRelative_iff_two_levels :
    (2 ≤ 2 →
      resolveRelative (some (dotted ["a", "b"])) 2 "c" = inPackage (["a", "b"].take 1) "c") ∧
    (2 < 2 →
      (resolveRelative (some (dotted ["a", "b"])) 2 "c" = "c" ↔ 2 = 3 ∨ 4 < 2)) ∧
    (3 < 2 → 2 ≤ 4 →
      resolveRelative (some (dotted ["a", "b"])) 2 "c" = inPackage (["a", "b"].take 3) "c") :=
  @resolveRelative_iff ["a", "b"] 2 (by decide) (by decide) (by decide) (by decide) "c"

theorem resolveRelative_four_dots :
    ¬ ∀ (parts : List String) (level : Nat) (name : String), parts ≠ [] →
      (∀ part ∈ parts, '.' ∉ part.toList) → 1 ≤ level →
      (level ≤ parts.length → resolveRelative (some (dotted parts)) level name =
        inPackage (parts.take (parts.length + 1 - level)) name) ∧
      (parts.length < level → resolveRelative (some (dotted parts)) level name = name) := by
  intro h
  have hname := (h ["a", "b"] 4 "c" (by decide) (by decide) (by decide)).2 (by decide)
  exact absurd hname (by decide +kernel)

end TypedTables.Source.ModuleContext
