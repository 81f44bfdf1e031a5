import TypedTables.Proofs.IsolatedTypes

/-!
What the arguments of generic types are. Only the two ends of the arguments are looked at, so they
are a single bracket group in types that end with their first group, and in no others. A type that
goes on behind its first group still passes as a generic one if it ends with a bracket.
-/

namespace TypedTables.TypeRef

open Text

/-- At the end of each beginning of the text a bracket is open. -/
def StaysOpen (cs : List Char) : Prop :=
  ∀ before ∈ cs.inits, before ≠ [] → before.count ']' < before.count '['

instance : DecidablePred StaysOpen :=
  fun _ => inferInstanceAs (Decidable (∀ _ ∈ _, _))

/-- A bracket group: its last character closes its first bracket, and none before does. -/
def IsGroup (cs : List Char) : Prop :=
  ∃ inner, cs = '[' :: inner ++ [']'] ∧ StaysOpen ('[' :: inner) ∧
    inner.count '[' = inner.count ']'

instance : DecidablePred IsGroup := fun cs =>
  decidable_of_iff (∃ inner ∈ cs.tail.inits, cs = '[' :: inner ++ [']'] ∧
      StaysOpen ('[' :: inner) ∧ inner.count '[' = inner.count ']') <| by
    constructor
    · rintro ⟨inner, -, hgroup⟩
      exact ⟨inner, hgroup⟩
    · rintro ⟨inner, rfl, hgroup⟩
      exact ⟨inner, (List.mem_inits _ _).mpr (List.prefix_append inner [']']), rfl, hgroup⟩

theorem StaysOpen.lt {cs before : List Char} (h : StaysOpen cs) (hbefore : before <+: cs)
    (hne : before ≠ []) : before.count ']' < before.count '[' :=
  h before ((List.mem_inits _ _).mpr hbefore) hne

theorem StaysOpen.of_prefix {cs before : List Char} (h : StaysOpen cs) (hbefore : before <+: cs) :
    StaysOpen before := by
  intro front hfront
  exact h.lt (((List.mem_inits _ _).mp hfront).trans hbefore)

theorem staysOpen_concat {cs : List Char} {c : Char} :
    StaysOpen (cs ++ [c]) ↔
      StaysOpen cs ∧ (cs ++ [c]).count ']' < (cs ++ [c]).count '[' := by
  constructor
  · intro h
    exact ⟨h.of_prefix (List.prefix_append cs [c]), h.lt List.prefix_rfl (by simp)⟩
  · rintro ⟨hcs, hall⟩ before hbefore hne
    rcases List.prefix_concat_iff.mp ((List.mem_inits _ _).mp hbefore) with rfl | hbefore
    · exact hall
    · exact hcs.lt hbefore hne

theorem IsGroup.head? {cs : List Char} (h : IsGroup cs) : cs.head? = some '[' := by
  obtain ⟨inner, rfl, -⟩ := h
  rfl

theorem IsGroup.count {cs : List Char} (h : IsGroup cs) : cs.count '[' = cs.count ']' := by
  obtain ⟨inner, rfl, -, hinner⟩ := h
  simp [hinner]

theorem IsGroup.not_staysOpen {cs : List Char} (h : IsGroup cs) : ¬ StaysOpen cs := by
  intro hopen
  have hnil : cs ≠ [] := by
    rintro rfl
    obtain ⟨_, hcs, -⟩ := h
    cases hcs
  have hlt := hopen.lt List.prefix_rfl hnil
  rw [h.count] at hlt
  exact Nat.lt_irrefl _ hlt

theorem staysOpen_or_exists_group (front rest : List Char) (h : StaysOpen ('[' :: front)) :
    StaysOpen ('[' :: front ++ rest) ∨
      ∃ group rest', IsGroup group ∧ '[' :: front ++ rest = group ++ rest' := by
  -- along the rest, as long as the bracket stays open in what has been read of it
  induction rest generalizing front with
  | nil => exact .inl (by simpa using h)
  | cons c rest ih =>
      have hshift : '[' :: front ++ c :: rest = '[' :: (front ++ [c]) ++ rest := by simp
      by_cases hstep : StaysOpen ('[' :: (front ++ [c]))
      · rw [hshift]
        exact ih (front ++ [c]) hstep
      · right
        have hfront := h.lt List.prefix_rfl (by simp)
        have hall : ¬ (('[' :: front) ++ [c]).count ']' < (('[' :: front) ++ [c]).count '[' :=
          fun hlt => hstep (staysOpen_concat.mpr ⟨h, hlt⟩)
        rw [List.count_append, List.count_append] at hall
        have hclose : c = ']' := by
          by_contra hne
          have hnone : [c].count ']' = 0 := by simp [hne]
          omega
        subst hclose
        have hinner : front.count '[' = front.count ']' := by
          simp at hfront hall
          omega
        exact ⟨'[' :: front ++ [']'], rest, ⟨front, rfl, h, hinner⟩, by simp⟩

theorem not_isGroup_append {group rest : List Char} (h : IsGroup group) (hne : rest ≠ []) :
    ¬ IsGroup (group ++ rest) := by
  rintro ⟨inner, hall, hopen, -⟩
  -- the shorter one would lie in the part of the longer one whose bracket stays open
  have hbefore : group <+: '[' :: inner := by
    have hprefix : group <+: '[' :: inner ++ [']'] := hall ▸ List.prefix_append group rest
    rcases List.prefix_concat_iff.mp hprefix with hwhole | hbefore
    · rw [← hall] at hwhole
      exact absurd (List.self_eq_append_right.mp hwhole) hne
    · exact hbefore
  exact h.not_staysOpen (hopen.of_prefix hbefore)

theorem isSubscript_append_iff {group rest : List Char} (h : IsGroup group) (hne : rest ≠ []) :
    IsSubscript (group ++ rest) ↔ rest.getLast? = some ']' := by
  obtain ⟨inner, rfl, -⟩ := h
  constructor
  · rintro ⟨inner', hall⟩
    have hlast := congrArg List.getLast? hall
    rwa [List.getLast?_append_of_ne_nil _ hne, List.getLast?_concat] at hlast
  · intro hlast
    obtain ⟨front, rfl⟩ := List.getLast?_eq_some_iff.mp hlast
    exact ⟨inner ++ [']'] ++ front, by simp⟩

theorem IsSubscript.cases {cs : List Char} (h : IsSubscript cs) :
    IsGroup cs ∨ StaysOpen cs ∨
      ∃ group rest, cs = group ++ rest ∧ IsGroup group ∧ rest ≠ [] ∧ rest.getLast? = some ']' := by
  have hbracket : StaysOpen ['['] := by decide
  obtain ⟨inner, hcs⟩ := List.head?_eq_some_iff.mp h.head?
  rcases staysOpen_or_exists_group [] inner hbracket with hopen | ⟨group, rest, hgroup, hsplit⟩
  · exact .inr (.inl (by rwa [hcs]))
  · rw [List.singleton_append, ← hcs] at hsplit
    rcases eq_or_ne rest [] with rfl | hne
    · rw [List.append_nil] at hsplit
      exact .inl (hsplit ▸ hgroup)
    · have hlast := (isSubscript_append_iff hgroup hne).mp (hsplit ▸ h)
      exact .inr (.inr ⟨group, rest, hsplit, hgroup, hne, hlast⟩)

variable {text : String} {resolve : String → String}

theorem isGeneric_append_iff {n : SpacedName} {group rest : List Char} (h : IsGroup group)
    (hne : rest ≠ []) :
    IsGeneric resolve n (group ++ rest) ↔
      rest.getLast? = some ']' ∧ ¬ HasLevelBar (group ++ rest) ∧ resolve n.name ∉ unionTypes := by
  rw [← isSubscript_append_iff h hne]
  exact ⟨fun ⟨hsubscript, hbar, hunion⟩ => ⟨hsubscript, hbar, hunion⟩,
    fun ⟨hsubscript, hbar, hunion⟩ => ⟨hsubscript, hbar, hunion⟩⟩

theorem bracket_unique {n n' : SpacedName} {gap gap' : Blanks} {cs cs' : List Char}
    (htext : n.chars ++ (gap.val ++ cs) = n'.chars ++ (gap'.val ++ cs')) (h : cs.head? = some '[')
    (h' : cs'.head? = some '[') : n.name = n'.name ∧ cs = cs' := by
  obtain ⟨hname, hrest⟩ :=
    name_unique htext (endsName_of_bracket gap (.inr h)) (endsName_of_bracket gap' (.inr h'))
  refine ⟨hname, ?_⟩
  have htrim : ∀ ds : List Char, ds.head? = some '[' → trimStart ds = ds := by
    intro ds hds
    obtain ⟨rest, rfl⟩ := List.head?_eq_some_iff.mp hds
    exact trimStart_of_head (by decide) rest
  have hsame := congrArg trimStart hrest
  rwa [trimStart_blanks_append _ gap.property, trimStart_blanks_append _ gap'.property, htrim _ h,
    htrim _ h'] at hsame

theorem kind_eq_generic_iff {n : SpacedName} {gap : Blanks} {cs : List Char}
    (htext : bare text = n.chars ++ (gap.val ++ cs)) (h : cs.head? = some '[') :
    (ofText text resolve).kind = .generic ↔ IsGeneric resolve n cs := by
  constructor
  · intro hkind
    obtain ⟨n', gap', arguments, htext', hgeneric⟩ := exists_of_kind_eq_generic hkind
    obtain ⟨hname, rfl⟩ := bracket_unique (htext.symm.trans htext') h hgeneric.subscript.head?
    exact ⟨hgeneric.subscript, hgeneric.noLevelBar, hname ▸ hgeneric.noUnion⟩
  · intro hgeneric
    exact (kind_of_isGeneric htext hgeneric).1

/-- The arguments of a generic type are one group exactly if its text is a name with one group
behind it. All other generic types never close their first bracket, or go on behind their first
group: a type that goes on is generic exactly if it ends with a bracket, the scan finds no bar in
its arguments and it is no union by its name, and it is isolated otherwise. -/
theorem generic_arguments (text : String) (resolve : String → String) :
    ((ofText text resolve).kind = .generic →
      (IsGroup (ofText text resolve).arguments.toList ↔
        ∃ (n : SpacedName) (gap : Blanks) (group : List Char),
          bare text = n.chars ++ (gap.val ++ group) ∧ IsGroup group) ∧
      (IsGroup (ofText text resolve).arguments.toList ∨
        StaysOpen (ofText text resolve).arguments.toList ∨
        ∃ group rest, (ofText text resolve).arguments.toList = group ++ rest ∧ IsGroup group ∧
          rest ≠ [] ∧ rest.getLast? = some ']')) ∧
    (∀ (n : SpacedName) (gap : Blanks) (group rest : List Char),
      bare text = n.chars ++ (gap.val ++ (group ++ rest)) → IsGroup group → rest ≠ [] →
        ((ofText text resolve).kind = .generic ↔ rest.getLast? = some ']' ∧
          ¬ HasLevelBar (group ++ rest) ∧ resolve n.name ∉ unionTypes) ∧
        ((ofText text resolve).kind = .generic →
          (ofText text resolve).identity = resolve n.name ∧
            ¬ IsGroup (ofText text resolve).arguments.toList) ∧
        ((ofText text resolve).Isolated ↔ (ofText text resolve).kind ≠ .generic)) := by
  constructor
  · intro hkind
    obtain ⟨n, gap, arguments, htext, hgeneric⟩ := exists_of_kind_eq_generic hkind
    rw [(kind_of_isGeneric htext hgeneric).2.2, String.toList_ofList]
    refine ⟨⟨fun hgroup => ⟨n, gap, arguments, htext, hgroup⟩, ?_⟩, hgeneric.subscript.cases⟩
    rintro ⟨n', gap', group, htext', hgroup⟩
    obtain ⟨-, rfl⟩ :=
      bracket_unique (htext.symm.trans htext') hgeneric.subscript.head? hgroup.head?
    exact hgroup
  · intro n gap group rest htext hgroup hne
    have hhead : (group ++ rest).head? = some '[' := by
      rw [List.head?_append, hgroup.head?]
      rfl
    have hmark : '[' ∈ bare text := by
      rw [htext]
      simp [List.mem_of_head? hhead]
    rw [← isGeneric_append_iff hgroup hne]
    refine ⟨kind_eq_generic_iff htext hhead, ?_,
      isolated_ofText_iff (kind_ne_name_of_mark hmark (by simp) resolve)⟩
    intro hkind
    obtain ⟨-, hidentity, harguments⟩ :=
      kind_of_isGeneric htext ((kind_eq_generic_iff htext hhead).mp hkind)
    refine ⟨hidentity, ?_⟩
    rw [harguments, String.toList_ofList]
    exact not_isGroup_append hgroup hne

def box : SpacedName := ⟨⟨"Box", by decide⟩, []⟩

theorem generic_arguments_box :
    (bare "Box [int].Lid" = box.chars ++ (" ".toList ++ ("[int]".toList ++ ".Lid".toList)) ∧
      IsGroup "[int]".toList ∧ ".Lid".toList ≠ [] ∧ (ofText "Box [int].Lid" id).Isolated) ∧
    ((ofText "Box [[int]]" id).kind = .generic ∧
      bare "Box [[int]]" = box.chars ++ (" ".toList ++ "[[int]]".toList) ∧
      IsGroup (ofText "Box [[int]]" id).arguments.toList) := by
  have htext : bare "Box [int].Lid" =
      box.chars ++ (" ".toList ++ ("[int]".toList ++ ".Lid".toList)) := by decide
  have htext' : bare "Box [[int]]" = box.chars ++ (" ".toList ++ "[[int]]".toList) := by decide
  have hgroup : IsGroup "[int]".toList := by decide
  have hkind : (ofText "Box [[int]]" id).kind = .generic := by decide +kernel
  obtain ⟨hgeneric, -, hisolated⟩ := (generic_arguments "Box [int].Lid" id).2 box
    (.single ' ' rfl) _ _ htext hgroup (by decide)
  have hother : (ofText "Box [int].Lid" id).kind ≠ .generic := by
    rw [Ne, hgeneric]
    rintro ⟨hlast, -⟩
    cases hlast
  obtain ⟨hiff, -⟩ := (generic_arguments "Box [[int]]" id).1 hkind
  exact ⟨⟨htext, hgroup, by decide, hisolated.mpr hother⟩, hkind, htext',
    hiff.mpr ⟨box, .single ' ' rfl, _, htext', by decide⟩⟩

/-- A subscripted attribute of a subscripted name passes as a generic type. -/
theorem generic_behind_group :
    ¬ ∀ (text : String) (resolve : String → String), (∀ c ∈ text.toList, isQuote c = false) →
      (ofText text resolve).kind = .generic →
        IsGroup (ofText text resolve).arguments.toList := by
  intro h
  have hquotes : "Box[int].Lid[str]".toList.all (fun c => isQuote c = false) = true := by decide
  have hgroup := h "Box[int].Lid[str]" id (by simpa using hquotes) (by decide +kernel)
  exact absurd hgroup (by decide +kernel)

end TypedTables.TypeRef
