import TypedTables.Live.Session

/-!
The search for marked classes. It visits what the names of a module lead to depth first, each class
once, and so it finds the marked ones among all classes that can be reached through classes of the
module.
-/

namespace TypedTables.Live.Namespaces

variable {V C : Type} {n : Namespaces V C} {module : String} {seen : List C} {values : List V}
  {found : List C}

/-- A class of a module that values lead to, through classes of the module only. -/
inductive LedTo (n : Namespaces V C) (module : String) (values : List V) : C → Prop
  | value {v : V} {c : C} : v ∈ values → n.own? module v = some c → LedTo n module values c
  | member {b : C} {v : V} {c : C} : LedTo n module values b → v ∈ n.members b →
      n.own? module v = some c → LedTo n module values c

/-- The classes that values add to those seen, depth first: a new class goes before the new ones
among its members, and these go before what the values behind it add. -/
inductive Visits (n : Namespaces V C) (module : String) : List C → List V → List C → Prop
  | done {seen : List C} : Visits n module seen [] []
  | foreign {seen : List C} {v : V} {rest : List V} {found : List C} :
      n.own? module v = none → Visits n module seen rest found →
        Visits n module seen (v :: rest) found
  | known {seen : List C} {v : V} {c : C} {rest : List V} {found : List C} :
      n.own? module v = some c → c ∈ seen → Visits n module seen rest found →
        Visits n module seen (v :: rest) found
  | enter {seen : List C} {v : V} {c : C} {rest : List V} {inside behind : List C} :
      n.own? module v = some c → c ∉ seen → Visits n module (c :: seen) (n.members c) inside →
        Visits n module (inside ++ c :: seen) rest behind →
          Visits n module seen (v :: rest) (c :: inside ++ behind)

theorem LedTo.mono {more : List V} (h : ∀ v ∈ values, v ∈ more) {c : C}
    (hc : n.LedTo module values c) : n.LedTo module more c := by
  induction hc with
  | value hv hown => exact .value (h _ hv) hown
  | member _ hv hown ih => exact .member ih hv hown

theorem LedTo.trans {b c : C} (hb : n.LedTo module values b)
    (hc : n.LedTo module (n.members b) c) : n.LedTo module values c := by
  induction hc with
  | value hv hown => exact .member hb hv hown
  | member _ hv hown ih => exact .member ih hv hown

namespace Visits

theorem fresh (h : n.Visits module seen values found) :
    found.Nodup ∧ ∀ c ∈ found, c ∉ seen := by
  induction h with
  | done => simp
  | foreign _ _ ih => exact ih
  | known _ _ _ ih => exact ih
  | enter _ hnew _ _ ihInside ihBehind =>
      obtain ⟨hinside, hinsideNew⟩ := ihInside
      obtain ⟨hbehind, hbehindNew⟩ := ihBehind
      simp only [List.mem_append, List.mem_cons, not_or] at hinsideNew hbehindNew
      constructor
      · rw [List.cons_append, List.nodup_cons, List.nodup_append]
        refine ⟨?_, hinside, hbehind, ?_⟩
        · rw [List.mem_append, not_or]
          exact ⟨fun hmem => (hinsideNew _ hmem).1 rfl, fun hmem => (hbehindNew _ hmem).2.1 rfl⟩
        · rintro x hx y hy rfl
          exact (hbehindNew x hy).1 hx
      · intro x hx
        rw [List.cons_append, List.mem_cons, List.mem_append] at hx
        rcases hx with rfl | hx | hx
        · exact hnew
        · exact (hinsideNew x hx).2
        · exact (hbehindNew x hx).2.2

theorem ledTo (h : n.Visits module seen values found) :
    ∀ c ∈ found, n.LedTo module values c := by
  induction h with
  | done => simp
  | foreign _ _ ih => exact fun c hc => (ih c hc).mono fun _ => List.mem_cons_of_mem _
  | known _ _ _ ih => exact fun c hc => (ih c hc).mono fun _ => List.mem_cons_of_mem _
  | @enter seen v c rest inside behind hown _ _ _ ihInside ihBehind =>
      have hfirst : n.LedTo module (v :: rest) c := .value List.mem_cons_self hown
      intro x hx
      rw [List.cons_append, List.mem_cons, List.mem_append] at hx
      rcases hx with rfl | hx | hx
      · exact hfirst
      · exact hfirst.trans (ihInside x hx)
      · exact (ihBehind x hx).mono fun _ => List.mem_cons_of_mem _

theorem covers (h : n.Visits module seen values found) :
    (∀ v ∈ values, ∀ c, n.own? module v = some c → c ∈ found ∨ c ∈ seen) ∧
      ∀ b ∈ found, ∀ v ∈ n.members b, ∀ c, n.own? module v = some c → c ∈ found ∨ c ∈ seen := by
  induction h with
  | done => simp
  | foreign hown _ ih =>
      refine ⟨List.forall_mem_cons.mpr ⟨?_, ih.1⟩, ih.2⟩
      intro c hc
      rw [hown] at hc
      cases hc
  | known hown hseen _ ih =>
      refine ⟨List.forall_mem_cons.mpr ⟨?_, ih.1⟩, ih.2⟩
      intro c hc
      rw [hown] at hc
      exact .inr (Option.some.inj hc ▸ hseen)
  | @enter seen v b rest inside behind hown _ _ _ ihInside ihBehind =>
      obtain ⟨hmembers, hinside⟩ := ihInside
      obtain ⟨hrest, hbehind⟩ := ihBehind
      have hfromInside : ∀ c, c ∈ inside ∨ c ∈ b :: seen →
          c ∈ b :: inside ++ behind ∨ c ∈ seen := by
        intro c hc
        simp only [List.cons_append, List.mem_cons, List.mem_append] at hc ⊢
        grind
      have hfromBehind : ∀ c, c ∈ behind ∨ c ∈ inside ++ b :: seen →
          c ∈ b :: inside ++ behind ∨ c ∈ seen := by
        intro c hc
        simp only [List.cons_append, List.mem_cons, List.mem_append] at hc ⊢
        grind
      constructor
      · refine List.forall_mem_cons.mpr ⟨?_, fun x hx c hc => hfromBehind c (hrest x hx c hc)⟩
        intro c hc
        obtain rfl := Option.some.inj (hown.symm.trans hc)
        exact .inl List.mem_cons_self
      · rw [List.cons_append]
        refine List.forall_mem_cons.mpr ⟨fun x hx c hc => hfromInside c (hmembers x hx c hc), ?_⟩
        intro x hx y hy c hc
        rcases List.mem_append.mp hx with hx | hx
        · exact hfromInside c (hinside x hx y hy c hc)
        · exact hfromBehind c (hbehind x hx y hy c hc)

theorem mem_iff (h : n.Visits module [] values found) {c : C} :
    c ∈ found ↔ n.LedTo module values c := by
  refine ⟨h.ledTo c, ?_⟩
  obtain ⟨hvalues, hmembers⟩ := h.covers
  simp only [List.not_mem_nil, or_false] at hvalues hmembers
  intro hc
  induction hc with
  | value hv hown => exact hvalues _ hv _ hown
  | member _ hv hown ih => exact hmembers _ ih _ hv _ hown

theorem unique {other : List C} (h : n.Visits module seen values found)
    (hother : n.Visits module seen values other) : other = found := by
  induction h generalizing other with
  | done =>
      cases hother
      rfl
  | foreign hown _ ih =>
      cases hother with
      | foreign _ hrest => exact ih hrest
      | known hown' => simp [hown] at hown'
      | enter hown' => simp [hown] at hown'
  | known hown hseen _ ih =>
      cases hother with
      | foreign hown' => simp [hown] at hown'
      | known _ _ hrest => exact ih hrest
      | enter hown' hnew =>
          obtain rfl := Option.some.inj (hown.symm.trans hown')
          exact absurd hseen hnew
  | enter hown hnew _ _ ihInside ihBehind =>
      cases hother with
      | foreign hown' => simp [hown] at hown'
      | known hown' hseen =>
          obtain rfl := Option.some.inj (hown.symm.trans hown')
          exact absurd hseen hnew
      | enter hown' _ hinside hbehind =>
          obtain rfl := Option.some.inj (hown.symm.trans hown')
          obtain rfl := ihInside hinside
          obtain rfl := ihBehind hbehind
          rfl

end Visits

variable [DecidableEq C]

theorem mem_without {b c : C} {classes : List C} : b ∈ without c classes ↔ b ∈ classes ∧ b ≠ c := by
  simp [without]

theorem exists_visits (n : Namespaces V C) (module : String) (seen unvisited : List C)
    (values : List V) (h : ∀ c, c ∈ unvisited ↔ c ∉ seen) :
    ∃ found left, n.Visits module seen values found ∧ left.length ≤ unvisited.length ∧
      (∀ c, c ∈ left ↔ c ∉ found ++ seen) ∧
      ∀ behind, n.reached module unvisited (values ++ behind) =
        found ++ n.reached module left behind := by
  match values with
  | [] => exact ⟨[], unvisited, .done, Nat.le_refl _, h, fun _ => rfl⟩
  | v :: rest =>
      cases hown : n.own? module v with
      | none =>
          obtain ⟨found, left, hvisits, hlength, hleft, hreached⟩ :=
            exists_visits n module seen unvisited rest h
          refine ⟨found, left, .foreign hown hvisits, hlength, hleft, ?_⟩
          intro behind
          rw [List.cons_append, reached, hown]
          exact hreached behind
      | some c =>
          by_cases hc : c ∈ unvisited
          · have hwithout : ∀ b, b ∈ without c unvisited ↔ b ∉ c :: seen := by
              intro b
              rw [mem_without, h, List.mem_cons, not_or, and_comm]
            have hshorter := length_without_lt hc
            obtain ⟨inside, between, hinside, hbetween, hnext, hentered⟩ :=
              exists_visits n module (c :: seen) (without c unvisited) (n.members c) hwithout
            obtain ⟨found, left, hrest, hlength, hleft, hreached⟩ :=
              exists_visits n module (inside ++ c :: seen) between rest hnext
            refine ⟨c :: inside ++ found, left, .enter hown ((h c).mp hc) hinside hrest, by omega,
              ?_, ?_⟩
            · intro b
              rw [hleft]
              simp only [List.cons_append, List.mem_append, List.mem_cons]
              grind
            · intro behind
              rw [List.cons_append, reached, hown]
              simp only [hc, dite_true]
              rw [hentered, hreached]
              simp
          · have hseen : c ∈ seen := Decidable.not_not.mp (mt (h c).mpr hc)
            obtain ⟨found, left, hvisits, hlength, hleft, hreached⟩ :=
              exists_visits n module seen unvisited rest h
            refine ⟨found, left, .known hown hseen hvisits, hlength, hleft, ?_⟩
            intro behind
            rw [List.cons_append, reached, hown]
            simp only [hc, dite_false]
            exact hreached behind
termination_by (unvisited.length, values.length)
decreasing_by all_goals simp_wf; omega

/-- The search ends, and what it finds are the marked classes among all that a module leads to,
in the order of a depth-first visit. -/
theorem marked_depthFirst (n : Namespaces V C) (module : String) (values : List V) :
    (∃ visited, n.Visits module [] values visited ∧
      (∀ other, n.Visits module [] values other → other = visited) ∧
      n.marked module values = visited.filter n.isMarked) ∧
    (n.marked module values).Nodup ∧
    ∀ c, c ∈ n.marked module values ↔ n.isMarked c = true ∧ n.LedTo module values c := by
  obtain ⟨visited, left, hvisits, -, -, hreached⟩ :=
    exists_visits n module [] n.classes values (by simp [n.complete])
  have hmarked : n.marked module values = visited.filter n.isMarked := by
    have hall := hreached []
    rw [List.append_nil, reached, List.append_nil] at hall
    rw [marked, hall]
  refine ⟨⟨visited, hvisits, fun other => hvisits.unique, hmarked⟩, ?_, ?_⟩
  · rw [hmarked]
    exact hvisits.fresh.1.filter _
  · intro c
    rw [hmarked, List.mem_filter, hvisits.mem_iff, and_comm]

/-- Class 0 lies in itself, and class 2 is met inside of class 1 first. Class 4 of the same module
only lies in class 3 of another one. -/
def burrow : Namespaces (Fin 5) (Fin 5) where
  classes := List.finRange 5
  complete := List.mem_finRange
  class? := some
  module? c := if c = 3 then some "barn" else some "zoo"
  members c := [[0, 1, 3, 1], [0, 2], [], [4], []][c]
  isMarked c := c ≠ 1

example : burrow.reached "zoo" burrow.classes [0, 2] = [0, 1, 2] := by cbv

example : burrow.marked "zoo" [0, 2] = [0, 2] := by cbv

end TypedTables.Live.Namespaces
