import TypedTables.Text.Split

/-!
Dotted names and their components. Cutting a name undoes the joining of its components, as long as
these are free of dots: so the first component, the last one and the name without the last one are
those of the list.
-/

namespace TypedTables.Text

theorem splitOn_of_not_mem {sep : Char} {cs : List Char} (h : sep ∉ cs) :
    splitOn sep cs = [cs] := by
  induction cs with
  | nil => rfl
  | cons c cs ih =>
      obtain ⟨hne, hrest⟩ := not_or.mp (mt List.mem_cons.mpr h)
      rw [splitOn, if_neg (Ne.symm hne), ih hrest]

theorem splitOn_append_sep {sep : Char} {part : List Char} (h : sep ∉ part) (cs : List Char) :
    splitOn sep (part ++ sep :: cs) = part :: splitOn sep cs := by
  induction part with
  | nil => simp [splitOn]
  | cons c part ih =>
      obtain ⟨hne, hrest⟩ := not_or.mp (mt List.mem_cons.mpr h)
      rw [List.cons_append, splitOn, if_neg (Ne.symm hne), ih hrest]

theorem splitOn_joinWith {sep : Char} {parts : List (List Char)} (hne : parts ≠ [])
    (h : ∀ part ∈ parts, sep ∉ part) : splitOn sep (joinWith sep parts) = parts := by
  induction parts with
  | nil => exact absurd rfl hne
  | cons part parts ih =>
      obtain ⟨hpart, hrest⟩ := List.forall_mem_cons.mp h
      cases parts with
      | nil => exact splitOn_of_not_mem hpart
      | cons next parts =>
          rw [joinWith, splitOn_append_sep hpart, ih (List.cons_ne_nil next parts) hrest]

theorem not_mem_of_mem_splitOn {sep : Char} {cs part : List Char} (h : part ∈ splitOn sep cs) :
    sep ∉ part := by
  induction cs generalizing part with
  | nil =>
      obtain rfl : part = [] := by simpa [splitOn] using h
      simp
  | cons c cs ih =>
      simp only [splitOn] at h
      by_cases hc : c = sep
      · rw [if_pos hc] at h
        rcases List.mem_cons.mp h with rfl | hpart
        · simp
        · exact ih hpart
      · rw [if_neg hc] at h
        cases hs : splitOn sep cs with
        | nil => exact absurd hs (splitOn_ne_nil sep cs)
        | cons first parts =>
            rw [hs] at h ih
            rcases List.mem_cons.mp h with rfl | hpart
            · have hfirst : sep ∉ first := ih (by simp)
              simp [hfirst, Ne.symm hc]
            · exact ih (List.mem_cons_of_mem first hpart)

theorem mem_joinWith {sep c : Char} {part : List Char} {parts : List (List Char)}
    (hpart : part ∈ parts) (hc : c ∈ part) : c ∈ joinWith sep parts := by
  induction parts with
  | nil => cases hpart
  | cons first parts ih =>
      cases parts with
      | nil =>
          obtain rfl := List.mem_singleton.mp hpart
          exact hc
      | cons next parts =>
          rw [joinWith, List.mem_append, List.mem_cons]
          rcases List.mem_cons.mp hpart with rfl | hrest
          · exact .inl hc
          · exact .inr (.inr (ih hrest))

theorem subset_of_mem_splitOn {sep : Char} {cs part : List Char} (h : part ∈ splitOn sep cs) :
    part ⊆ cs := by
  intro c hc
  rw [← joinWith_splitOn sep cs]
  exact mem_joinWith h hc

theorem all_ne_of_not_mem {sep : Char} {cs : List Char} (h : sep ∉ cs) :
    ∀ c ∈ cs, decide (c ≠ sep) = true := by
  intro c hc
  exact decide_eq_true (fun heq => h (heq ▸ hc))

theorem takeWhile_of_not_mem {sep : Char} {cs : List Char} (h : sep ∉ cs) :
    cs.takeWhile (· ≠ sep) = cs := by
  have htake : (cs ++ []).takeWhile (· ≠ sep) = cs ++ [].takeWhile (· ≠ sep) :=
    List.takeWhile_append_of_pos (all_ne_of_not_mem h)
  simpa using htake

theorem dropWhile_of_not_mem {sep : Char} {cs : List Char} (h : sep ∉ cs) :
    cs.dropWhile (· ≠ sep) = [] := by
  have hdrop : (cs ++ []).dropWhile (· ≠ sep) = [].dropWhile (· ≠ sep) :=
    List.dropWhile_append_of_pos (all_ne_of_not_mem h)
  simpa using hdrop

theorem takeWhile_append_stop {α : Type} {p : α → Bool} {x : α} (hx : p x = false)
    (xs ys : List α) : (xs ++ x :: ys).takeWhile p = xs.takeWhile p := by
  induction xs with
  | nil => simp [hx]
  | cons y xs ih => simp [List.takeWhile_cons, ih]

theorem afterLast_append (sep : Char) (before cs : List Char) :
    afterLast sep (before ++ sep :: cs) = afterLast sep cs := by
  rw [afterLast, List.reverse_append, List.reverse_cons, List.append_assoc, List.singleton_append,
    takeWhile_append_stop (by simp), afterLast]

theorem afterLast_of_not_mem {sep : Char} {cs : List Char} (h : sep ∉ cs) :
    afterLast sep cs = cs := by
  rw [afterLast, takeWhile_of_not_mem (mt List.mem_reverse.mp h), List.reverse_reverse]

theorem afterLast_joinWith {sep : Char} {parts : List (List Char)} {last : List Char}
    (hlast : parts.getLast? = some last) (h : sep ∉ last) :
    afterLast sep (joinWith sep parts) = last := by
  induction parts with
  | nil => simp at hlast
  | cons part parts ih =>
      cases parts with
      | nil =>
          obtain rfl : part = last := by simpa using hlast
          exact afterLast_of_not_mem h
      | cons next parts =>
          rw [joinWith, afterLast_append]
          exact ih (by simpa using hlast)

theorem getLast?_splitOn (sep : Char) (cs : List Char) :
    (splitOn sep cs).getLast? = some (afterLast sep cs) := by
  have hne := splitOn_ne_nil sep cs
  have hlast := List.getLast?_eq_some_getLast hne
  have hsep := not_mem_of_mem_splitOn (List.getLast_mem hne)
  have hjoin := afterLast_joinWith hlast hsep
  rw [joinWith_splitOn] at hjoin
  rw [hlast, hjoin]

theorem getLast?_components (name : String) :
    (components name).getLast? = some (lastComponent name) := by
  rw [components, List.getLast?_map, getLast?_splitOn]
  rfl

theorem joinWith_append {sep : Char} {xs ys : List (List Char)} (hxs : xs ≠ []) (hys : ys ≠ []) :
    joinWith sep (xs ++ ys) = joinWith sep xs ++ sep :: joinWith sep ys := by
  induction xs with
  | nil => exact absurd rfl hxs
  | cons x xs ih =>
      cases xs with
      | nil =>
          obtain ⟨y, ys, rfl⟩ := List.exists_cons_of_ne_nil hys
          rfl
      | cons next xs =>
          have hrest := ih (List.cons_ne_nil next xs)
          simp only [List.cons_append, joinWith] at hrest ⊢
          rw [hrest, List.append_assoc, List.cons_append]

structure IsComponent (text : String) : Prop where
  nonempty : text ≠ ""
  noDot : '.' ∉ text.toList

instance (text : String) : Decidable (IsComponent text) :=
  decidable_of_iff (text ≠ "" ∧ '.' ∉ text.toList)
    ⟨fun ⟨hne, hdot⟩ => ⟨hne, hdot⟩, fun ⟨hne, hdot⟩ => ⟨hne, hdot⟩⟩

@[simp]
theorem dotted_singleton (part : String) : dotted [part] = part := by
  simp [dotted, joinWith]

theorem dotted_append {xs ys : List String} (hxs : xs ≠ []) (hys : ys ≠ []) :
    dotted (xs ++ ys) = dotted xs ++ "." ++ dotted ys := by
  rw [dotted, List.map_append, joinWith_append (by simpa using hxs) (by simpa using hys)]
  apply String.toList_inj.mp
  simp [dotted]

theorem dotted_cons (part : String) {parts : List String} (h : parts ≠ []) :
    dotted (part :: parts) = part ++ "." ++ dotted parts := by
  rw [← List.singleton_append, dotted_append (List.cons_ne_nil part []) h, dotted_singleton]

/-- A dotted name may stand for its components among those of a longer name. -/
theorem dotted_dotted_cons {parts : List String} (h : parts ≠ []) (rest : List String) :
    dotted (dotted parts :: rest) = dotted (parts ++ rest) := by
  by_cases hrest : rest = []
  · rw [hrest, dotted_singleton, List.append_nil]
  · rw [dotted_cons _ hrest, dotted_append h hrest]

theorem components_dotted_of_noDot {parts : List String} (hne : parts ≠ [])
    (h : ∀ part ∈ parts, '.' ∉ part.toList) : components (dotted parts) = parts := by
  have hparts : ∀ part ∈ parts.map String.toList, '.' ∉ part := by simpa using h
  rw [components, dotted, String.toList_ofList, splitOn_joinWith (by simpa using hne) hparts]
  simp [Function.comp_def]

theorem components_dotted {parts : List String} (hne : parts ≠ [])
    (h : ∀ part ∈ parts, IsComponent part) : components (dotted parts) = parts :=
  components_dotted_of_noDot hne (fun part hpart => (h part hpart).noDot)

theorem dotted_ne_empty {parts : List String} (hne : parts ≠ [])
    (h : ∀ part ∈ parts, IsComponent part) : dotted parts ≠ "" := by
  intro hempty
  have hparts := components_dotted hne h
  rw [hempty] at hparts
  have hblank : IsComponent "" := h "" (hparts ▸ List.mem_singleton.mpr rfl)
  exact hblank.nonempty rfl

theorem cutAtFirst_of_not_mem {sep : Char} {cs : List Char} (h : sep ∉ cs) :
    cutAtFirst sep cs = (cs, []) := by
  rw [cutAtFirst, takeWhile_of_not_mem h, dropWhile_of_not_mem h, List.drop_nil]

theorem cutAtFirst_append {sep : Char} {cs : List Char} (h : sep ∉ cs) (rest : List Char) :
    cutAtFirst sep (cs ++ sep :: rest) = (cs, rest) := by
  rw [cutAtFirst, List.takeWhile_append_of_pos (all_ne_of_not_mem h),
    List.dropWhile_append_of_pos (all_ne_of_not_mem h), List.takeWhile_cons_of_neg (by simp),
    List.dropWhile_cons_of_neg (by simp), List.append_nil, List.drop_one, List.tail_cons]

theorem headComponent_dotted {part : String} (h : '.' ∉ part.toList) (parts : List String) :
    headComponent (dotted (part :: parts)) = (part, dotted parts) := by
  cases parts with
  | nil =>
      rw [headComponent, dotted_singleton, cutAtFirst_of_not_mem h]
      simp [dotted, joinWith]
  | cons next parts =>
      have hchars : (dotted (part :: next :: parts)).toList =
          part.toList ++ '.' :: (dotted (next :: parts)).toList := by
        rw [dotted_cons part (List.cons_ne_nil next parts)]
        simp
      rw [headComponent, hchars, cutAtFirst_append h]
      simp

theorem lastComponent_of_noDot {part : String} (h : '.' ∉ part.toList) :
    lastComponent part = part := by
  rw [lastComponent, afterLast_of_not_mem h, String.ofList_toList]

theorem beforeLast?_of_not_mem {sep : Char} {cs : List Char} (h : sep ∉ cs) :
    beforeLast? sep cs = none := by
  rw [beforeLast?, dropWhile_of_not_mem (mt List.mem_reverse.mp h)]

theorem beforeLast?_append {sep : Char} {cs : List Char} (h : sep ∉ cs) (before : List Char) :
    beforeLast? sep (before ++ sep :: cs) = some before := by
  have hall := all_ne_of_not_mem (mt List.mem_reverse.mp h)
  rw [beforeLast?, List.reverse_append, List.reverse_cons, List.append_assoc,
    List.dropWhile_append_of_pos hall]
  simp

theorem beforeLast?_eq_some {sep : Char} {cs before : List Char} :
    beforeLast? sep cs = some before ↔ ∃ after, sep ∉ after ∧ cs = before ++ sep :: after := by
  constructor
  · intro h
    by_cases hsep : sep ∈ cs
    · obtain ⟨after, rest, hcs, hafter⟩ := List.eq_append_cons_of_mem (List.mem_reverse.mpr hsep)
      have hsplit : cs = rest.reverse ++ sep :: after.reverse := by
        rw [← List.reverse_reverse cs, hcs]
        simp
      have hlast : sep ∉ after.reverse := mt List.mem_reverse.mp hafter
      rw [hsplit, beforeLast?_append hlast] at h
      exact ⟨after.reverse, hlast, Option.some.inj h ▸ hsplit⟩
    · rw [beforeLast?_of_not_mem hsep] at h
      cases h
  · rintro ⟨after, hafter, rfl⟩
    exact beforeLast?_append hafter before

theorem parentName_dotted {last : String} (h : '.' ∉ last.toList) (parts : List String) :
    parentName (dotted (parts ++ [last])) = dotted parts := by
  by_cases hparts : parts = []
  · subst hparts
    simp [parentName, beforeLast?_of_not_mem h, dotted, joinWith]
  · have hchars : (dotted (parts ++ [last])).toList =
        (dotted parts).toList ++ '.' :: last.toList := by
      rw [dotted_append hparts (List.cons_ne_nil last []), dotted_singleton]
      simp
    rw [parentName, hchars, beforeLast?_append h, Option.getD_some, String.ofList_toList]
end TypedTables.Text
