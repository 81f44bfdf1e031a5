import TypedTables.Proofs.ModuleMembers

/-!
When the members of a class have different names. The texts put before or behind the names of
columns lead to different names, except that a query has both `_equal` and `_not_equal`.
-/

namespace TypedTables

def Apart (texts : List String) : Prop :=
  ∀ p ∈ texts, ∀ q ∈ texts, p.toList <+: q.toList → p = q

instance (texts : List String) : Decidable (Apart texts) :=
  inferInstanceAs (Decidable (∀ p ∈ texts, ∀ q ∈ texts, p.toList <+: q.toList → p = q))

theorem Apart.inj {texts : List String} (h : Apart texts) {p q x y : String} (hp : p ∈ texts)
    (hq : q ∈ texts) (heq : p ++ x = q ++ y) : p = q ∧ x = y := by
  have hlist := congrArg String.toList heq
  rw [String.toList_append, String.toList_append] at hlist
  have hpq : p = q := by
    rcases List.prefix_or_prefix_of_prefix (List.prefix_append p.toList x.toList)
      (hlist ▸ List.prefix_append q.toList y.toList) with hprefix | hprefix
    · exact h p hp q hq hprefix
    · exact (h q hq p hp hprefix).symm
  subst hpq
  exact ⟨rfl, (String.append_right_inj p).mp heq⟩

section

variable {columns : List Column} {fixed : List String} {glue : ColumnType → List String}

theorem nodup_front (texts : List String) (hdistinct : (columns.map Column.name).Nodup)
    (hfixed : fixed.Nodup) (htexts : texts.Nodup) (hapart : Apart texts)
    (hglue : ∀ type, (glue type).Sublist texts)
    (hnew : ∀ p ∈ texts, ∀ name ∈ fixed, ¬ p.toList <+: name.toList) :
    (fixed ++ columns.flatMap (fun c => (glue c.type).map (· ++ c.name))).Nodup := by
  rw [List.nodup_append, List.nodup_flatMap]
  refine ⟨hfixed, ⟨?_, ?_⟩, ?_⟩
  · intro c _
    exact ((hglue c.type).nodup htexts).map fun p q heq => (String.append_left_inj c.name).mp heq
  · rw [List.Nodup, List.pairwise_map] at hdistinct
    refine hdistinct.imp ?_
    intro c d hne name hc hd
    obtain ⟨p, hp, rfl⟩ := List.mem_map.mp hc
    obtain ⟨q, hq, heq⟩ := List.mem_map.mp hd
    exact hne (hapart.inj ((hglue _).subset hp) ((hglue _).subset hq) heq.symm).2
  · intro name hname other hother heq
    obtain ⟨c, -, hc⟩ := List.mem_flatMap.mp hother
    obtain ⟨p, hp, rfl⟩ := List.mem_map.mp hc
    refine hnew p ((hglue _).subset hp) name hname ?_
    rw [heq, String.toList_append]
    exact List.prefix_append _ _

theorem nodup_tableMembers (hdistinct : (columns.map Column.name).Nodup) :
    (tableMembers columns).Nodup := by
  have hglue : ∀ type, (ColumnType.tablePrefixes type).Sublist ["find_first_"] := by
    intro type
    cases type <;> decide
  exact nodup_front _ hdistinct (by decide) (by decide +kernel) (by decide +kernel) hglue
    (by decide)

theorem nodup_viewMembers (hdistinct : (columns.map Column.name).Nodup) :
    (viewMembers columns).Nodup := by
  have hglue : ∀ type, (ColumnType.viewPrefixes type).Sublist ["sum_", "max_", "min_"] := by
    intro type
    cases type <;> decide
  exact nodup_front _ hdistinct (by decide) (by decide +kernel) (by decide +kernel) hglue
    (by decide)

theorem nodup_around {before names after : List String} (h : (before ++ after).Nodup) :
    (before ++ names ++ after).Nodup ↔ names.Nodup ∧ ∀ name ∈ names, name ∉ before ++ after := by
  have hperm : (before ++ names ++ after).Perm (names ++ (before ++ after)) := by
    rw [← List.append_assoc]
    exact List.perm_append_comm.append_right after
  rw [hperm.nodup_iff, List.nodup_append', and_iff_right h]
  rfl

def TakesMethod (columns : List Column) : Prop :=
  ∃ c ∈ columns, c.name = "__init__" ∨ c.name = "__repr__"

theorem nodup_cursorMembers_iff (hdistinct : (columns.map Column.name).Nodup)
    (hfree : ∀ c ∈ columns, c.name ∉ reservedFieldNames) :
    (cursorMembers columns).Nodup ↔ ¬ TakesMethod columns := by
  rw [cursorMembers, nodup_around (by decide), and_iff_right hdistinct, TakesMethod]
  push Not
  constructor
  · intro hnew c hc
    have hnot := hnew c.name (List.mem_map_of_mem hc)
    simp only [List.cons_append, List.nil_append, List.mem_cons, not_or] at hnot
    exact ⟨hnot.1, hnot.2.2.2.1⟩
  · rintro hnone name hname
    obtain ⟨c, hc, rfl⟩ := List.mem_map.mp hname
    have hreserved := hfree c hc
    simp only [reservedFieldNames, List.mem_cons, not_or] at hreserved
    simp [hnone c hc, hreserved]

def querySuffixes : List String :=
  ["_equal", "_not_equal", "_greater", "_less", "_between", "_contains", "_startswith", "_endswith"]

theorem querySuffixes_sublist (type : ColumnType) :
    type.querySuffixes.Sublist querySuffixes ∧
      ("_not_equal" ∈ type.querySuffixes ↔ type ∈ [.integer64, .date, .string]) ∧
      ("_equal" ∈ type.querySuffixes ↔ type ∈ [.integer64, .date, .string, .boolean]) := by
  cases type <;> decide

theorem suffix_querySuffixes : ∀ s ∈ querySuffixes, ∀ t ∈ querySuffixes, s.toList <:+ t.toList →
    s = t ∨ s = "_equal" ∧ t = "_not_equal" := by
  decide

theorem eq_of_append_equal {x y : String} (h : x ++ "_equal" = y ++ "_not_equal") :
    x = y ++ "_not" := by
  have hsplit : "_not_equal" = "_not" ++ "_equal" := by decide
  rw [hsplit, ← String.append_assoc] at h
  exact (String.append_left_inj _).mp h

theorem eq_or_of_append_suffix {x y s t : String} (hs : s ∈ querySuffixes) (ht : t ∈ querySuffixes)
    (h : x ++ s = y ++ t) :
    (s = t ∧ x = y) ∨ (s = "_equal" ∧ t = "_not_equal" ∧ x = y ++ "_not") ∨
      (t = "_equal" ∧ s = "_not_equal" ∧ y = x ++ "_not") := by
  have hlist := congrArg String.toList h
  rw [String.toList_append, String.toList_append] at hlist
  rcases List.suffix_or_suffix_of_suffix (List.suffix_append x.toList s.toList)
    (hlist ▸ List.suffix_append y.toList t.toList) with hsuffix | hsuffix
  · rcases suffix_querySuffixes s hs t ht hsuffix with rfl | ⟨rfl, rfl⟩
    · exact .inl ⟨rfl, (String.append_left_inj s).mp h⟩
    · exact .inr (.inl ⟨rfl, rfl, eq_of_append_equal h⟩)
  · rcases suffix_querySuffixes t ht s hs hsuffix with rfl | ⟨rfl, rfl⟩
    · exact .inl ⟨rfl, (String.append_left_inj _).mp h⟩
    · exact .inr (.inr ⟨rfl, rfl, eq_of_append_equal h.symm⟩)

/-- Two columns whose names differ by what one method of a query puts between the name of the column
and what another one puts behind it. -/
def TakesNegation (columns : List Column) : Prop :=
  ∃ c ∈ columns, ∃ d ∈ columns, d.name = c.name ++ "_not" ∧
    c.type ∈ [.integer64, .date, .string] ∧ d.type ∈ [.integer64, .date, .string, .boolean]

theorem disjoint_queryMembers {c d : Column} (hne : c.name ≠ d.name)
    (hcd : ¬ TakesNegation [c, d]) : c.queryMembers.Disjoint d.queryMembers := by
  intro name hc hd
  obtain ⟨s, hs, rfl⟩ := List.mem_map.mp hc
  obtain ⟨t, ht, heq⟩ := List.mem_map.mp hd
  obtain ⟨hcsub, hcnot, hcequal⟩ := querySuffixes_sublist c.type
  obtain ⟨hdsub, hdnot, hdequal⟩ := querySuffixes_sublist d.type
  rcases eq_or_of_append_suffix (hdsub.subset ht) (hcsub.subset hs) heq with
    ⟨-, hname⟩ | ⟨rfl, rfl, hname⟩ | ⟨rfl, rfl, hname⟩
  · exact hne hname.symm
  · exact hcd ⟨c, by simp, d, by simp, hname, hcnot.mp hs, hdequal.mp ht⟩
  · exact hcd ⟨d, by simp, c, by simp, hname, hdnot.mp ht, hcequal.mp hs⟩

theorem not_disjoint_queryMembers {c d : Column} (hname : d.name = c.name ++ "_not")
    (hc : c.type ∈ [.integer64, .date, .string])
    (hd : d.type ∈ [.integer64, .date, .string, .boolean]) :
    ¬ c.queryMembers.Disjoint d.queryMembers := by
  intro hdisjoint
  obtain ⟨-, hcnot, -⟩ := querySuffixes_sublist c.type
  obtain ⟨-, -, hdequal⟩ := querySuffixes_sublist d.type
  refine hdisjoint (List.mem_map_of_mem (hcnot.mpr hc)) (List.mem_map.mpr ⟨_, hdequal.mpr hd, ?_⟩)
  have hsplit : "_not_equal" = "_not" ++ "_equal" := by decide
  rw [hname, hsplit, String.append_assoc]

theorem nodup_flatMap_queryMembers_iff (hdistinct : (columns.map Column.name).Nodup) :
    (columns.flatMap Column.queryMembers).Nodup ↔ ¬ TakesNegation columns := by
  rw [List.Nodup, List.pairwise_map] at hdistinct
  have hown : ∀ c ∈ columns, c.queryMembers.Nodup := by
    intro c _
    have hnodup := (querySuffixes_sublist c.type).1.nodup (by decide)
    exact hnodup.map fun s t heq => (String.append_right_inj c.name).mp heq
  rw [List.nodup_flatMap, and_iff_right hown]
  constructor
  · rintro hpairs ⟨c, hc, d, hd, hname, hctype, hdtype⟩
    have hsymm : Std.Symm (Function.onFun List.Disjoint Column.queryMembers) :=
      ⟨fun _ _ hdisjoint _ hx hy => hdisjoint hy hx⟩
    have hne : c ≠ d := by
      rintro rfl
      have hlength := congrArg String.length hname
      simp at hlength
    exact not_disjoint_queryMembers hname hctype hdtype (hpairs.forall hc hd hne)
  · intro hnone
    refine hdistinct.imp_of_mem ?_
    intro c d hc hd hne
    refine disjoint_queryMembers hne ?_
    rintro ⟨c', hc', d', hd', hclash⟩
    refine hnone ⟨c', ?_, d', ?_, hclash⟩
    · rcases List.mem_pair.mp hc' with rfl | rfl
      · exact hc
      · exact hd
    · rcases List.mem_pair.mp hd' with rfl | rfl
      · exact hc
      · exact hd

theorem nodup_queryMembers_iff (hdistinct : (columns.map Column.name).Nodup) :
    (queryMembers columns).Nodup ↔ ¬ TakesNegation columns := by
  have hnew : ∀ name ∈ columns.flatMap Column.queryMembers,
      name ∉ ["__init__", "_add", "predicates"] ++ ["find_all", "count"] := by
    intro name hname
    obtain ⟨c, -, hc⟩ := List.mem_flatMap.mp hname
    obtain ⟨s, hs, rfl⟩ := List.mem_map.mp hc
    have hsuffix : ∀ s ∈ querySuffixes,
        ∀ name ∈ ["__init__", "_add", "predicates"] ++ ["find_all", "count"],
          ¬ s.toList <:+ name.toList := by
      decide
    intro hfixed
    refine hsuffix s ((querySuffixes_sublist c.type).1.subset hs) _ hfixed ?_
    rw [String.toList_append]
    exact List.suffix_append _ _
  rw [← nodup_flatMap_queryMembers_iff hdistinct, queryMembers]
  rw [nodup_around (by decide), and_iff_left hnew]

end

/-- What makes a class define a member twice: a cursor if a column is named as one of its methods,
and a query if the tests of two columns have one name. -/
def Artifact.Repeats (a : Artifact) (columns : List Column) : Prop :=
  a.template = "cursor.py.j2" ∧ TakesMethod columns ∨
    a.template = "query.py.j2" ∧ TakesNegation columns

theorem EntityModel.Regular.nodup_members_iff {m : EntityModel} (h : m.Regular)
    (hadd : Template.addTemplate.render (EntityModel.methodContext m.entity m.columns) =
      .ok m.addMethod)
    (hinsert : Template.insertTemplate.render (EntityModel.methodContext m.entity m.columns) =
      .ok m.insertMethod)
    {a : Artifact} (ha : a ∈ artifacts) {template : Template}
    (htemplate : Template.standardAt? [a.template] = some template) {text : String}
    (hrender : template.render (m.context (m.entity ++ a.suffix)) = .ok text) :
    (membersOf text).Nodup ↔ ¬ a.Repeats m.columns := by
  simp only [artifacts, List.mem_cons, List.not_mem_nil, or_false] at ha
  rcases ha with rfl | rfl | rfl | rfl
  · obtain rfl := Option.some.inj htemplate
    rw [h.members_table hadd hinsert hrender, iff_true_left (nodup_tableMembers h.distinct)]
    simp [Artifact.Repeats]
  · obtain rfl := Option.some.inj htemplate
    have hfree : ∀ c ∈ m.columns, c.name ∉ reservedFieldNames := fun c hc => (h.columns c hc).free
    rw [h.members_cursor hrender, nodup_cursorMembers_iff h.distinct hfree]
    simp [Artifact.Repeats]
  · obtain rfl := Option.some.inj htemplate
    rw [h.members_view hrender, iff_true_left (nodup_viewMembers h.distinct)]
    simp [Artifact.Repeats]
  · obtain rfl := Option.some.inj htemplate
    rw [h.members_query hrender, nodup_queryMembers_iff h.distinct]
    simp [Artifact.Repeats]

end TypedTables
