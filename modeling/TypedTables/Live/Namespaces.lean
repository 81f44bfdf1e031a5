/-!
Namespaces of loaded classes. A module and a class hold values under names, and some of these values
are classes again, so that one class leads to another, in circles too. A class is told apart by what
it is and not by its name, which another class may bear as well.
-/

namespace TypedTables.Live

structure Namespaces (V C : Type) where
  classes : List C
  complete : ∀ c, c ∈ classes
  class? : V → Option C
  module? : C → Option String
  members : C → List V
  isMarked : C → Bool

namespace Namespaces

variable {V C : Type} (n : Namespaces V C)

def own? (module : String) (v : V) : Option C :=
  (n.class? v).filter (fun c => n.module? c = some module)

variable [DecidableEq C]

def without (c : C) (classes : List C) : List C :=
  classes.filter (· ≠ c)

theorem length_without_lt {classes : List C} {c : C} (h : c ∈ classes) :
    (without c classes).length < classes.length :=
  List.length_filter_lt_length_iff_exists.mpr ⟨c, h, by simp⟩

/-- The classes of a module that the pending values lead to, each at its first visit and before
the classes among its own members. -/
def reached (module : String) (unvisited : List C) (pending : List V) : List C :=
  match pending with
  | [] => []
  | v :: rest =>
      match n.own? module v with
      | none => reached module unvisited rest
      | some c =>
          if _h : c ∈ unvisited then
            c :: reached module (without c unvisited) (n.members c ++ rest)
          else reached module unvisited rest
termination_by (unvisited.length, pending.length)
decreasing_by
  · exact Prod.Lex.right _ (by simp)
  · exact Prod.Lex.left _ _ (length_without_lt _h)
  · exact Prod.Lex.right _ (by simp)

def marked (module : String) (values : List V) : List C :=
  (n.reached module n.classes values).filter n.isMarked

end Namespaces

end TypedTables.Live
