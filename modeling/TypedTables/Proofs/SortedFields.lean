import TypedTables.Proofs.Recovery

/-!
What sorting the fields of an entity gives. Positions that all fields carry decide, else the offsets
in the source file do, for all fields or for none; else the given order stays, and a warning tells
why. Sorting one entity after the other, with the files read so far at hand, gives each of them what
it gets alone.
-/

namespace TypedTables

open Source

/-- A list in the order of a key, where elements with one key keep their places. -/
structure StablySorted {α : Type} (key : α → Int) (given sorted : List α) : Prop where
  perm : sorted.Perm given
  ordered : sorted.Pairwise (fun a b => key a ≤ key b)
  stable : ∀ k, sorted.filter (fun a => key a = k) = given.filter (fun a => key a = k)

namespace StablySorted

variable {α : Type} {key : α → Int} {given sorted other : List α}

theorem filter_insert (key : α → Int) (k : Int) (x : α) (ys : List α) :
    (Sorted.insert (fun a b => key a ≤ key b) x ys).filter (fun a => key a = k) =
      (x :: ys).filter (fun a => key a = k) := by
  induction ys with
  | nil => rfl
  | cons y ys ih =>
      rw [Sorted.insert]
      split
      · rfl
      · -- what is passed over has a smaller key, so at most one of the two has the key k
        rename_i hpast
        have hlt : key y < key x := by simpa using hpast
        rw [List.filter_cons, ih, List.filter_cons, List.filter_cons, List.filter_cons]
        by_cases hx : key x = k
        · have hy : key y ≠ k := by omega
          simp [hx, hy]
        · simp [hx]

theorem ofList (key : α → Int) (xs : List α) :
    StablySorted key xs (Sorted.ofList (fun a b => key a ≤ key b) xs) where
  perm := Sorted.perm_ofList _ xs
  ordered := by
    have h := Sorted.pairwise_ofList (fun a b => decide (key a ≤ key b))
      (by simpa using fun a b => le_total (key a) (key b))
      (by simpa using fun a b c => le_trans (a := key a) (b := key b) (c := key c)) xs
    simpa using h
  stable := by
    intro k
    induction xs with
    | nil => rfl
    | cons x xs ih =>
        rw [Sorted.ofList, List.foldr_cons, filter_insert, List.filter_cons, List.filter_cons]
        rw [Sorted.ofList] at ih
        rw [ih]

theorem unique (h : StablySorted key given sorted) (h' : StablySorted key given other) :
    sorted = other := by
  induction sorted generalizing given other with
  | nil => exact (List.perm_nil.mp (h'.perm.trans h.perm.symm)).symm
  | cons a sorted ih =>
      cases other with
      | nil => exact absurd (h.perm.trans h'.perm.symm) (by simp)
      | cons b other =>
          have hperm : (a :: sorted).Perm (b :: other) := h.perm.trans h'.perm.symm
          have hstable : ∀ k, (a :: sorted).filter (fun c => key c = k) =
              (b :: other).filter (fun c => key c = k) :=
            fun k => (h.stable k).trans (h'.stable k).symm
          obtain ⟨ha, hsorted⟩ := List.pairwise_cons.mp h.ordered
          obtain ⟨hb, hother⟩ := List.pairwise_cons.mp h'.ordered
          -- both heads have the least key, and both stand first among the elements with it
          have hkey : key a = key b := by
            have hab : key a ≤ key b := by
              rcases List.mem_cons.mp (hperm.mem_iff.mpr List.mem_cons_self) with heq | hmem
              · rw [heq]
              · exact ha b hmem
            have hba : key b ≤ key a := by
              rcases List.mem_cons.mp (hperm.mem_iff.mp List.mem_cons_self) with heq | hmem
              · rw [heq]
              · exact hb a hmem
            omega
          obtain rfl : a = b := by
            have hfirst := hstable (key a)
            rw [List.filter_cons_of_pos (by simp), List.filter_cons_of_pos (by simp [hkey])]
              at hfirst
            exact (List.cons.inj hfirst).1
          congr 1
          refine ih ⟨.refl _, hsorted, fun _ => rfl⟩ ⟨hperm.cons_inv.symm, hother, fun k => ?_⟩
          have hk := hstable k
          by_cases hak : key a = k
          · rw [List.filter_cons_of_pos (by simp [hak]),
              List.filter_cons_of_pos (by simp [hak])] at hk
            exact (List.cons.inj hk).2.symm
          · rw [List.filter_cons_of_neg (by simp [hak]),
              List.filter_cons_of_neg (by simp [hak])] at hk
            exact hk.symm

end StablySorted

namespace Source

/-- Where a name is annotated in a class body; of two places the later holds. -/
def offsetIn? (body : List Statement) (name : String) : Option Nat :=
  ((annotatedNames body).map (fun a => (a.1, a.2.2))).reverse.lookup name

end Source

namespace FieldOrder

theorem stablySorted_byPosition (key : Field → Int) (fields : List Field) :
    StablySorted key fields (byPosition (fields.map (fun f => (key f, f)))) := by
  have hsorted : byPosition (fields.map (fun f => (key f, f))) =
      Sorted.ofList (fun f g => key f ≤ key g) fields := by
    rw [byPosition_eq, ← Sorted.map_ofList (fun f g => decide (key f ≤ key g)) notAfter
      (fun f => (key f, f)) fields (fun _ _ _ _ => rfl), List.map_map]
    exact List.map_id _
  rw [hsorted]
  exact .ofList key fields

def bodyOf? (fs : FileSystem) (e : Entity) : Option (List Statement) :=
  match e.sourceFile with
  | none => none
  | some file =>
      if file = "" then none
      else (fs.readSource (Path.ofText file)).toOption.bind
        (fun bytes => bodyAt? e.classPath (parse bytes))

def keptWarning (e : Entity) (reason : String) : Diagnostic :=
  ⟨.warning, reason ++ "; keeping declaration order of fields", some e.simpleName, none⟩

/-- Fields in an order, and the problems told about it, as the sources of an entity call for. -/
structure Answers (fs : FileSystem) (e : Entity) (fields : List Field) (ds : Diagnostics) :
    Prop where
  perm : fields.Perm e.fields
  empty : e.fields = [] → fields = [] ∧ ds = []
  given : (∀ f ∈ e.fields, f.position.isSome) →
    StablySorted (fun f => f.position.getD 0) e.fields fields ∧ ds = []
  recovered : ∀ body, (∃ f ∈ e.fields, f.position = none) → bodyOf? fs e = some body →
    (∀ f ∈ e.fields, (offsetIn? body f.name).isSome) →
    StablySorted (fun f => ((offsetIn? body f.name).getD 0 : Nat)) e.fields fields ∧ ds = []
  unavailable : (∃ f ∈ e.fields, f.position = none) → bodyOf? fs e = none →
    fields = e.fields ∧ ds = [keptWarning e "Source of entity not available"]
  incomplete : ∀ body, (∃ f ∈ e.fields, f.position = none) → bodyOf? fs e = some body →
    (∃ f ∈ e.fields, offsetIn? body f.name = none) →
    let missing := e.fields.filter (fun f => offsetIn? body f.name = none)
    let names := String.intercalate ", " (missing.map Field.name)
    fields = e.fields ∧ ds = [keptWarning e s!"Fields not found in source ({names})"]

theorem recoveredPositions_eq (fs : FileSystem) (e : Entity) :
    (recoveredPositions fs [] e).1 = (bodyOf? fs e).map (fun body =>
      Keyed.ofList ((annotatedNames body).map (fun a => (a.1, a.2.2)))) := by
  rw [recoveredPositions, bodyOf?]
  cases e.sourceFile with
  | none => rfl
  | some file =>
      by_cases hfile : file = ""
      · simp [hfile]
      · obtain ⟨hstatements, -, -⟩ := sourceOf_spec (.nil fs) (Path.ofText file)
        dsimp only
        rw [if_neg (by simpa using hfile), if_neg hfile, hstatements, statementsAt?]
        cases fs.readSource (Path.ofText file) <;> rfl

theorem recovered_eq (e : Entity) (body : List Statement) :
    recovered e (some (Keyed.ofList ((annotatedNames body).map (fun a => (a.1, a.2.2))))) =
      if ∀ f ∈ e.fields, (offsetIn? body f.name).isSome then
        (byPosition (e.fields.map (fun f => (((offsetIn? body f.name).getD 0 : Nat), f))), [])
      else
        let missing := e.fields.filter (fun f => offsetIn? body f.name = none)
        let names := String.intercalate ", " (missing.map Field.name)
        (e.fields, [keeping e s!"Fields not found in source ({names})"]) := by
  have hlook : ∀ name, (Keyed.ofList ((annotatedNames body).map
      (fun a => (a.1, a.2.2)))).lookup name = offsetIn? body name :=
    fun name => Keyed.lookup_ofList _ name
  have hnone : ∀ f : Field, (offsetIn? body f.name).isNone =
      decide (offsetIn? body f.name = none) := by
    intro f
    cases offsetIn? body f.name <;> rfl
  simp only [recovered, hlook, hnone]
  refine if_congr ?_ rfl rfl
  simp [List.filter_eq_nil_iff, Option.isSome_iff_ne_none]

theorem answers_of_positions (fs : FileSystem) {e : Entity}
    (h : ∀ f ∈ e.fields, f.position.isSome) :
    Answers fs e (byPosition (e.fields.map (fun f => (f.position.getD 0, f)))) [] := by
  have hsorted := stablySorted_byPosition (fun f => f.position.getD 0) e.fields
  have hnone : ¬ ∃ f ∈ e.fields, f.position = none := by
    rintro ⟨f, hf, hposition⟩
    simpa [hposition] using h f hf
  exact {
    perm := hsorted.perm
    empty := fun hempty => ⟨List.perm_nil.mp (hempty ▸ hsorted.perm), rfl⟩
    given := fun _ => ⟨hsorted, rfl⟩
    recovered := fun _ hmissing => absurd hmissing hnone
    unavailable := fun hmissing => absurd hmissing hnone
    incomplete := fun _ hmissing => absurd hmissing hnone }

theorem answers_recovered (fs : FileSystem) {e : Entity}
    (h : ¬ ∀ f ∈ e.fields, f.position.isSome) :
    Answers fs e (recovered e (recoveredPositions fs [] e).1).1
      (Diagnostics.ofNotices (recovered e (recoveredPositions fs [] e).1).2) := by
  have hempty : e.fields ≠ [] := by
    intro hnil
    simp [hnil] at h
  rw [recoveredPositions_eq]
  cases hbody : bodyOf? fs e with
  | none =>
      exact {
        perm := .refl _
        empty := fun hnil => absurd hnil hempty
        given := fun hall => absurd hall h
        recovered := fun _ _ hfound => nomatch hbody.symm.trans hfound
        unavailable := fun _ _ => ⟨rfl, rfl⟩
        incomplete := fun _ _ hfound => nomatch hbody.symm.trans hfound }
  | some body =>
      have hsame : ∀ other, bodyOf? fs e = some other → other = body :=
        fun other hother => Option.some.inj (hother.symm.trans hbody)
      rw [Option.map_some, recovered_eq]
      by_cases hall : ∀ f ∈ e.fields, (offsetIn? body f.name).isSome
      · have hsorted := stablySorted_byPosition
          (fun f => ((offsetIn? body f.name).getD 0 : Nat)) e.fields
        rw [if_pos hall]
        refine {
          perm := hsorted.perm
          empty := fun hnil => absurd hnil hempty
          given := fun hgiven => absurd hgiven h
          recovered := ?_
          unavailable := fun _ hnone => nomatch hbody.symm.trans hnone
          incomplete := ?_ }
        · rintro other - hother -
          obtain rfl := hsame other hother
          exact ⟨hsorted, rfl⟩
        · rintro other - hother ⟨f, hf, hnone⟩
          obtain rfl := hsame other hother
          simpa [hnone] using hall f hf
      · rw [if_neg hall]
        refine {
          perm := .refl _
          empty := fun hnil => absurd hnil hempty
          given := fun hgiven => absurd hgiven h
          recovered := ?_
          unavailable := fun _ hnone => nomatch hbody.symm.trans hnone
          incomplete := ?_ }
        · intro other _ hother hfound
          obtain rfl := hsame other hother
          exact absurd hfound hall
        · rintro other - hother -
          obtain rfl := hsame other hother
          exact ⟨rfl, rfl⟩

def alone (fs : FileSystem) (e : Entity) : List Field × Diagnostics :=
  ((sort fs [] e).1, Diagnostics.ofNotices (sort fs [] e).2.1)

theorem answers_alone (fs : FileSystem) (e : Entity) :
    Answers fs e (alone fs e).1 (alone fs e).2 := by
  by_cases h : ∀ f ∈ e.fields, f.position.isSome
  · rw [alone, sort_of_positions fs [] h]
    exact answers_of_positions fs h
  · obtain ⟨-, hnotices, -⟩ := recoveredPositions_spec (.nil fs) e
    have hempty : e.fields.isEmpty = false := by
      cases hfields : e.fields with
      | nil => simp [hfields] at h
      | cons => rfl
    rw [alone, sort, hempty, givenPositions?_eq, if_neg h]
    simpa [hnotices] using answers_recovered fs h

def sortAll (fs : FileSystem) : SourceCache → List Entity → List (List Field × Diagnostics)
  | _, [] => []
  | cache, e :: es =>
      let (fields, notices, cache) := sort fs cache e
      (fields, Diagnostics.ofNotices notices) :: sortAll fs cache es

theorem sortAll_eq {fs : FileSystem} {cache : SourceCache} (h : cache.Faithful fs)
    (es : List Entity) : sortAll fs cache es = es.map (alone fs) := by
  induction es generalizing cache with
  | nil => rfl
  | cons e es ih =>
      obtain ⟨hfields, hnotices, hcache⟩ := sort_spec h e
      rw [sortAll, List.map_cons, ← ih hcache, alone, ← hfields, ← hnotices]

/-- Each of a sequence of entities is answered as it would be alone, and as its sources call for. -/
theorem sortAll_answers (fs : FileSystem) (es : List Entity) :
    List.Forall₂ (fun e answer => answer = alone fs e ∧ Answers fs e answer.1 answer.2)
      es (sortAll fs [] es) := by
  rw [sortAll_eq (.nil fs), List.forall₂_map_right_iff, List.forall₂_same]
  exact fun e _ => ⟨rfl, answers_alone fs e⟩

example :
    let field (name : String) (position : Option Int) : Field :=
      ⟨name, ⟨"int", "int", "", .name⟩, position⟩
    let collar : Entity := ⟨"dogs.Dog.Collar", "Collar", [⟨.moduleScope, "dogs"⟩],
      [field "worn" (some 0), field "text" none], some "/dogs.py"⟩
    (sortAll pound [] [collar, { collar with fields := [field "lost" none] }]).map
        (fun answer => (answer.1.map Field.name, answer.2.map Diagnostic.message)) =
      [(["text", "worn"], []),
        (["lost"], ["Fields not found in source (lost); keeping declaration order of fields"])] := by
  decide +kernel

end FieldOrder

end TypedTables
