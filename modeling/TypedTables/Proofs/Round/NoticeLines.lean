import TypedTables.Proofs.OneLineNames
import TypedTables.Proofs.Round.Markers
import TypedTables.Proofs.Scan

/-!
The lines of single problems. Each names an entity and a field at most, and its message is fixed
text around names, a declared type or a marker.
-/

namespace TypedTables

open Text Source

namespace Diagnostic

def InOneLine (d : Diagnostic) : Prop := SingleLine d.line.toList

theorem inOneLine_iff {d : Diagnostic} :
    d.InOneLine ↔ SingleLine (place d.entity d.field).toList ∧ SingleLine d.message.toList := by
  have hlabel : SingleLine (d.severity.label ++ ": ").toList := by
    cases d.severity <;> decide
  rw [InOneLine, line, String.toList_append, String.toList_append, singleLine_append,
    singleLine_append, and_iff_right hlabel]

theorem singleLine_place {entity field : Option String}
    (hentity : ∀ name ∈ entity, SingleLine name.toList)
    (hfield : ∀ name ∈ field, SingleLine name.toList) : SingleLine (place entity field).toList := by
  have hgetD : ∀ name : Option String, (∀ n ∈ name, SingleLine n.toList) →
      SingleLine (name.getD "").toList := by
    rintro (_ | name) h
    · decide
    · exact h name rfl
  have hcolon : SingleLine ": ".toList := by decide
  have hdot : SingleLine ".".toList := by decide
  have hname := hgetD entity hentity
  simp only [place]
  split
  · decide
  · split
    · rw [String.toList_append]
      exact hname.append hcolon
    · simp only [String.toList_append]
      exact ((hname.append hdot).append (hgetD field hfield)).append hcolon

theorem inOneLine_of_entity {severity : Severity} {message : String} {entity field : Option String}
    (hentity : ∀ name ∈ entity, SingleLine name.toList)
    (hfield : ∀ name ∈ field, SingleLine name.toList) :
    InOneLine ⟨severity, message, entity, field⟩ ↔ SingleLine message.toList := by
  rw [inOneLine_iff, and_iff_right (singleLine_place hentity hfield)]

end Diagnostic

theorem singleLine_intercalate {sep : String} (hsep : SingleLine sep.toList) {names : List String}
    (h : ∀ name ∈ names, SingleLine name.toList) :
    SingleLine (String.intercalate sep names).toList := by
  rw [String.toList_intercalate]
  induction names with
  | nil => nofun
  | cons name names ih =>
      obtain ⟨hname, hrest⟩ := List.forall_mem_cons.mp h
      cases names with
      | nil => simpa using hname
      | cons next names =>
          rw [List.map_cons, List.map_cons, List.intercalate_cons_cons]
          exact (hname.append hsep).append (ih hrest)

theorem inOneLine_unreadable {f : SourceFile} (h : SingleLine f.path.text.toList) :
    (unreadable f).InOneLine := by
  rw [unreadable, Diagnostic.inOneLine_of_entity (by simp) (by simp)]
  simp +decide only [toString, String.toList_append, singleLine_append, h, and_self]

theorem singleLine_unsupported {type : String} :
    SingleLine (s!"Unsupported field type '{type}'").toList ↔ SingleLine type.toList := by
  simp +decide only [toString, String.toList_append, singleLine_append, true_and, and_true]

theorem singleLine_reserved {name : String} (h : SingleLine name.toList) :
    SingleLine (s!"Field name '{name}' is reserved in generated code").toList := by
  simp +decide only [toString, String.toList_append, singleLine_append, h, and_self]

namespace Round

structure NamedInOneLine (e : Entity) (m : EntityModel) : Prop where
  entity : e.InOneLine
  columns : ∀ c ∈ m.columns, SingleLine c.name.toList
  package : SingleLine m.package.toList
  qualifiedName : m.qualifiedName = e.qualifiedName

theorem inOneLine_columnNotices {e : Entity} {c : Column}
    (he : SingleLine e.simpleName.toList) (hc : SingleLine c.name.toList) :
    (∀ d ∈ Diagnostics.ofNotices (columnNotices e c), d.InOneLine) ↔
      (c.type = .unsupported → SingleLine c.declaredType.toList) := by
  have hplace : ∀ severity message,
      Diagnostic.InOneLine ⟨severity, message, some e.simpleName, some c.name⟩ ↔
        SingleLine message.toList := by
    intro severity message
    exact Diagnostic.inOneLine_of_entity (by simpa using he) (by simpa using hc)
  have hreserved : ∀ d ∈ Diagnostics.ofNotices (if c.name ∈ reservedFieldNames then
      [.error s!"Field name '{c.name}' is reserved in generated code" (some e.simpleName)
        (some c.name)] else []), d.InOneLine := by
    split
    · simp only [Diagnostics.ofNotices_error, Diagnostics.ofNotices_nil, List.forall_mem_singleton]
      exact (hplace _ _).mpr (singleLine_reserved hc)
    · simp
  rw [columnNotices, Diagnostics.ofNotices_append, List.forall_mem_append,
    and_iff_left hreserved, Column.isSupported]
  by_cases htype : c.type = .unsupported
  · simp only [htype, ne_eq, not_true_eq_false, decide_false, Bool.false_eq_true, if_false,
      Diagnostics.ofNotices_error, Diagnostics.ofNotices_nil, List.forall_mem_singleton,
      forall_const]
    exact (hplace _ _).trans singleLine_unsupported
  · simp [htype]

theorem inOneLine_targetPackage {e : Entity} {rule : PackageRule}
    (he : SingleLine e.simpleName.toList) (hfallback : SingleLine rule.fallback.toList) :
    ∀ d ∈ Diagnostics.ofNotices (e.targetPackage rule).2, d.InOneLine := by
  have hmessage : SingleLine
      (s!"Couldn't calculate the target package! Using default: {rule.fallback}").toList := by
    simp +decide only [toString, String.toList_append, singleLine_append, hfallback, and_self]
  have hplace : ∀ severity, Diagnostic.InOneLine ⟨severity, _, some e.simpleName, none⟩ :=
    fun severity => (Diagnostic.inOneLine_of_entity (by simpa using he) (by simp)).mpr hmessage
  rw [Entity.targetPackage]
  split
  · simp
  · rw [PackageRule.fallbackNotice]
    dsimp only
    split
    · exact List.forall_mem_singleton.mpr (hplace .error)
    · exact List.forall_mem_singleton.mpr (hplace .warning)

theorem inOneLine_linkNotices {packages : List (String × String)} {e : Entity} {m : EntityModel}
    {c : Column} (h : NamedInOneLine e m) (hc : c ∈ m.columns)
    (hpackages : ∀ name package, packages.lookup name = some package →
      SingleLine name.toList ∧ SingleLine package.toList) :
    ∀ d ∈ Diagnostics.ofNotices (linkNotices packages e m c), d.InOneLine := by
  rw [linkNotices]
  split
  · simp
  · rename_i link hlink
    split
    · simp
    · rename_i package hpackage
      split
      · simp
      · obtain ⟨htarget, hother⟩ := hpackages link.entity package hpackage
        refine List.forall_mem_singleton.mpr ?_
        refine (Diagnostic.inOneLine_of_entity (by simpa using h.entity.simpleName)
          (by simpa using h.columns c hc)).mpr ?_
        simp +decide only [toString, String.toList_append, singleLine_append, htarget, hother,
          h.package, and_self]

theorem inOneLine_clashNotice {e : Entity} {m : EntityModel} {owners : List String}
    (h : NamedInOneLine e m) (howners : ∀ owner ∈ owners, SingleLine owner.toList) :
    ∀ d ∈ Diagnostics.ofNotices [clashNotice e m owners], d.InOneLine := by
  refine List.forall_mem_singleton.mpr ?_
  refine (Diagnostic.inOneLine_of_entity (by simpa using h.entity.simpleName) (by simp)).mpr
    ?_
  have hcomma : SingleLine ", ".toList := by decide
  have hnames := singleLine_intercalate hcomma howners
  simp +decide only [toString, String.toList_append, singleLine_append, h.entity.qualifiedName,
    h.package, hnames, and_self]

theorem inOneLine_unexpectedWarning {marker : String} :
    (unexpectedWarning marker).InOneLine ↔ SingleLine marker.toList := by
  rw [unexpectedWarning, Diagnostic.inOneLine_of_entity (by simp) (by simp)]
  simp +decide only [toString, String.toList_append, singleLine_append, true_and]

end Round

end TypedTables
