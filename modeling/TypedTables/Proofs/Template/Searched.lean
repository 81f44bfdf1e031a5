import TypedTables.Proofs.Decoration
import TypedTables.Proofs.ModuleScope
import TypedTables.Proofs.Template.Overlooked

/-!
Templates in the search for a decorated class. Where the search stands behind a template is computed
from where it stands behind each of the values, for all columns of a type at once.
-/

namespace TypedTables

open Source

namespace Source.Search

open Text.Utf8

def stepAll (states : List Search) (c : Char) : Option (List Search) :=
  (states.mapM (fun s : Search => s.step c)).map List.eraseDups

def readAll (states : List Search) : List Char → Option (List Search)
  | [] => some states
  | c :: cs => (stepAll states c).bind (fun states => readAll states cs)

/-- From each of some places the search goes on to one of some others. -/
def Leads (text : List Char) (states ends : List Search) : Prop :=
  ∀ s ∈ states, ∃ s' ∈ ends, s.read text = some s'

section

variable {text more : List Char} {states ends further : List Search}

theorem Leads.append (h : Leads text states ends) (hmore : Leads more ends further) :
    Leads (text ++ more) states further := by
  intro s hs
  obtain ⟨s', hs', hread⟩ := h s hs
  obtain ⟨s'', hs'', hrest⟩ := hmore s' hs'
  exact ⟨s'', hs'', by rw [read_append, hread, Option.bind_some, hrest]⟩

theorem Leads.mono (h : Leads text states ends) (hsub : ends ⊆ further) :
    Leads text states further := by
  intro s hs
  obtain ⟨s', hs', hread⟩ := h s hs
  exact ⟨s', hsub hs', hread⟩

theorem Leads.from_subset (h : Leads text states ends) (hsub : further ⊆ states) :
    Leads text further ends :=
  fun s hs => h s (hsub hs)

theorem Leads.nil (hsub : states ⊆ ends) : Leads [] states ends :=
  fun s hs => ⟨s, hsub hs, rfl⟩

theorem Leads.flatMap {α : Type} {f : α → List Char} {xs : List α}
    (h : ∀ x ∈ xs, Leads (f x) states states) : Leads (xs.flatMap f) states states := by
  induction xs with
  | nil => exact .nil (List.Subset.refl states)
  | cons x xs ih =>
      obtain ⟨hx, hxs⟩ := List.forall_mem_cons.mp h
      rw [List.flatMap_cons]
      exact hx.append (ih hxs)

theorem exists_of_mapM_eq_some {α β : Type} {f : α → Option β} {xs : List α} {ys : List β}
    (h : xs.mapM f = some ys) : ∀ x ∈ xs, ∃ y ∈ ys, f x = some y := by
  induction xs generalizing ys with
  | nil => simp
  | cons x xs ih =>
      rw [List.mapM_cons] at h
      obtain ⟨y, hy, h⟩ := Option.bind_eq_some_iff.mp h
      obtain ⟨rest, hrest, h⟩ := Option.bind_eq_some_iff.mp h
      obtain rfl : y :: rest = ys := Option.some.inj h
      refine List.forall_mem_cons.mpr ⟨⟨y, List.mem_cons_self, hy⟩, ?_⟩
      intro z hz
      obtain ⟨w, hw, hfz⟩ := ih hrest z hz
      exact ⟨w, List.mem_cons_of_mem y hw, hfz⟩

theorem leads_of_readAll (h : readAll states text = some ends) : Leads text states ends := by
  induction text generalizing states with
  | nil => exact .nil (by rw [Option.some.inj h]; exact List.Subset.refl ends)
  | cons c text ih =>
      obtain ⟨next, hnext, hrest⟩ := Option.bind_eq_some_iff.mp h
      obtain ⟨steps, hsteps, rfl⟩ := Option.map_eq_some_iff.mp hnext
      intro s hs
      obtain ⟨t, ht, hstep⟩ := exists_of_mapM_eq_some hsteps s hs
      obtain ⟨s', hs', hread⟩ := ih hrest t (List.mem_eraseDups.mpr ht)
      exact ⟨s', hs', by rw [read, hstep, Option.bind_some, hread]⟩

def readFixed (states : List Search) (text : String) : Option (List Search) :=
  if isAscii text then readAll states (asciiChars text) else none

theorem leads_of_readFixed {text : String} (h : readFixed states text = some ends) :
    Leads text.toList states ends := by
  rw [readFixed] at h
  split at h
  · rename_i hascii
    rw [toList_eq_asciiChars hascii]
    exact leads_of_readAll h
  · cases h

def readFixedLines (states : List Search) : List String → Option (List Search)
  | [] => some states
  | line :: lines =>
      ((readFixed states line).bind (fun states => readAll states ['\n'])).bind
        (fun states => readFixedLines states lines)

theorem leads_of_readFixedLines {lines : List String}
    (h : readFixedLines states lines = some ends) :
    Leads (lines.flatMap (fun line => line.toList ++ ['\n'])) states ends := by
  induction lines generalizing states with
  | nil => exact .nil (by rw [Option.some.inj h]; exact List.Subset.refl ends)
  | cons line lines ih =>
      obtain ⟨broken, hbroken, hrest⟩ := Option.bind_eq_some_iff.mp h
      obtain ⟨behind, hbehind, hbreak⟩ := Option.bind_eq_some_iff.mp hbroken
      rw [List.flatMap_cons]
      exact ((leads_of_readFixed hbehind).append (leads_of_readAll hbreak)).append (ih hrest)

end

end Source.Search

open Source.Search

def codeTypes : List ColumnType :=
  [.integer64, .boolean, .string, .date, .binary, .link, .variant]

/-- The places behind any number of texts that go from some places on to those that `run` gives,
if one round more leads to no others. -/
def loop (run : List Search → Option (List Search)) (states : List Search) :
    Option (List Search) := do
  let once := (states ++ (← run states)).eraseDups
  if (← run once) ⊆ once then some once else none

/-- Where a search can stand behind the values that a template is filled in with, from where it
stands before them. There is no answer for a value that must not stand there. -/
structure ValueEnds where
  value : String → List Search → Option (List Search)
  column : ColumnType → String → List Search → Option (List Search)

mutual

def TemplatePart.ends (v : ValueEnds) (type? : Option ColumnType) (states : List Search) :
    TemplatePart → Option (List Search)
  | .text text => readFixed states text
  | .line parts => (endsOfAll v type? states parts).bind (fun states => readAll states ['\n'])
  | .lines lines => readFixedLines states lines
  | .value name => v.value name states
  | .column key => type?.bind (fun type => v.column type key states)
  | .accessor => type?.bind (fun type =>
      readFixed states ((backendAccessors.lookup type.label).getD "None"))
  | .eachColumn test body => loop (fun states =>
      ((codeTypes.filter (fun type => test.admits type)).mapM (fun type =>
        endsOfAll v (some type) states body)).map List.flatten) states
  | .eachImport body => loop (fun states => endsOfAll v none states body) states
  | .whenColumn test yes no => type?.bind (fun type =>
      if test.admits type then endsOfAll v type? states yes else endsOfAll v type? states no)
  | .whenPresent _ body => (endsOfAll v type? states body).map (states ++ ·)

def endsOfAll (v : ValueEnds) (type? : Option ColumnType) (states : List Search) :
    List TemplatePart → Option (List Search)
  | [] => some states
  | part :: parts =>
      (part.ends v type? states).bind (fun states => endsOfAll v type? states parts)

end

section

variable {run : List Search → Option (List Search)} {states ends : List Search}

theorem exists_of_loop (h : loop run states = some ends) :
    states ⊆ ends ∧ ∃ further, run ends = some further ∧ further ⊆ ends := by
  obtain ⟨once, honce, h⟩ := Option.bind_eq_some_iff.mp h
  obtain ⟨further, hfurther, h⟩ := Option.bind_eq_some_iff.mp h
  split at h
  · rename_i hsub
    obtain rfl := Option.some.inj h
    refine ⟨?_, further, hfurther, hsub⟩
    intro s hs
    exact List.mem_eraseDups.mpr (List.mem_append_left once hs)
  · cases h

end

structure ValueEnds.Column (v : ValueEnds) (s : TemplateScope) (type : ColumnType) : Prop where
  values : ∀ key states ends, v.column type key states = some ends →
    Leads (s.shownColumn key) states ends
  accessor : s.accessorName = ((backendAccessors.lookup type.label).getD "None").toList
  tests : ∀ test, s.passes test = test.admits type

structure ValueEnds.Scope (v : ValueEnds) (s : TemplateScope) : Prop where
  values : ∀ name states ends, v.value name states = some ends → Leads (s.shown name) states ends
  modules : ∀ module ∈ s.moduleList, ∀ states ends, v.value "module" states = some ends →
    Leads module.toList states ends
  columns : ∀ d ∈ s.columnList, ∃ type ∈ codeTypes, v.Column (s.withColumn d) type

namespace ValueEnds

variable {v : ValueEnds} {s : TemplateScope}

theorem Scope.withColumn (h : v.Scope s) (d : Data) : v.Scope (s.withColumn d) :=
  ⟨h.values, h.modules, h.columns⟩

theorem Column.withModule {d : Data} {type : ColumnType} (h : v.Column (s.withColumn d) type)
    (module : String) :
    v.Column ((s.withValue "module" (.text module)).withColumn d) type where
  values := h.values
  accessor := h.accessor
  tests test := by
    rw [← h.tests test]
    cases test <;> rfl

theorem Scope.withModule (h : v.Scope s) {module : String} (hmodule : module ∈ s.moduleList) :
    v.Scope (s.withValue "module" (.text module)) := by
  refine ⟨?_, h.modules, ?columns⟩
  case columns =>
    intro d hd
    obtain ⟨type, htype, hcolumn⟩ := h.columns d hd
    exact ⟨type, htype, hcolumn.withModule module⟩
  intro name states ends hends
  by_cases hname : name = "module"
  · subst hname
    exact h.modules module hmodule states ends hends
  · have hshown : (s.withValue "module" (.text module)).shown name = s.shown name := by
      rw [TemplateScope.shown, TemplateScope.value, TemplateScope.withValue, List.lookup_cons,
        beq_eq_false_iff_ne.mpr hname]
      rfl
    rw [hshown]
    exact h.values name states ends hends

mutual

theorem leads_filled {s : TemplateScope} {type? : Option ColumnType} (hs : v.Scope s)
    (hcolumn : ∀ type ∈ type?, v.Column s type) : (part : TemplatePart) →
    ∀ states ends, part.ends v type? states = some ends → Leads (part.filled s) states ends
  | .text text => fun states ends h => leads_of_readFixed h
  | .line parts => by
      intro states ends h
      obtain ⟨middle, hmiddle, h⟩ := Option.bind_eq_some_iff.mp h
      exact (leads_filledAll hs hcolumn parts states middle hmiddle).append (leads_of_readAll h)
  | .lines lines => fun states ends h => leads_of_readFixedLines h
  | .value name => fun states ends h => hs.values name states ends h
  | .column key => by
      intro states ends h
      obtain ⟨type, htype, h⟩ := Option.bind_eq_some_iff.mp h
      exact (hcolumn type htype).values key states ends h
  | .accessor => by
      intro states ends h
      obtain ⟨type, htype, h⟩ := Option.bind_eq_some_iff.mp h
      rw [TemplatePart.filled, (hcolumn type htype).accessor]
      exact leads_of_readFixed h
  | .eachColumn test body => by
      intro states ends h
      rw [TemplatePart.ends] at h
      obtain ⟨hsub, further, hfurther, hclosed⟩ := exists_of_loop h
      obtain ⟨lists, hlists, rfl⟩ := Option.map_eq_some_iff.mp hfurther
      rw [TemplatePart.filled]
      refine (Leads.flatMap ?_).from_subset hsub
      intro d hd
      obtain ⟨type, htype, hd⟩ := hs.columns d hd
      rw [hd.tests]
      split
      · rename_i hadmits
        obtain ⟨list, hlist, hbody⟩ :=
          exists_of_mapM_eq_some hlists type (List.mem_filter.mpr ⟨htype, hadmits⟩)
        have hcolumn : ∀ t ∈ some type, v.Column (s.withColumn d) t := by simpa using hd
        have hfilled := leads_filledAll (hs.withColumn d) hcolumn body ends list hbody
        exact hfilled.mono (fun x hx => hclosed (List.mem_flatten.mpr ⟨list, hlist, hx⟩))
      · exact .nil (List.Subset.refl ends)
  | .eachImport body => by
      intro states ends h
      rw [TemplatePart.ends] at h
      obtain ⟨hsub, further, hfurther, hclosed⟩ := exists_of_loop h
      rw [TemplatePart.filled]
      refine (Leads.flatMap ?_).from_subset hsub
      intro module hmodule
      have hfilled := leads_filledAll (hs.withModule hmodule) (by simp) body ends further hfurther
      exact hfilled.mono hclosed
  | .whenColumn test yes no => by
      intro states ends h
      obtain ⟨type, htype, h⟩ := Option.bind_eq_some_iff.mp h
      rw [TemplatePart.filled, (hcolumn type htype).tests]
      split at h
      · rename_i hadmits
        rw [if_pos hadmits]
        exact leads_filledAll hs hcolumn yes states ends h
      · rename_i hadmits
        rw [if_neg hadmits]
        exact leads_filledAll hs hcolumn no states ends h
  | .whenPresent name body => by
      intro states ends h
      obtain ⟨inside, hinside, rfl⟩ := Option.map_eq_some_iff.mp h
      rw [TemplatePart.filled]
      split
      · exact (leads_filledAll hs hcolumn body states inside hinside).mono
          (List.subset_append_right states inside)
      · exact .nil (List.subset_append_left states inside)

theorem leads_filledAll {s : TemplateScope} {type? : Option ColumnType} (hs : v.Scope s)
    (hcolumn : ∀ type ∈ type?, v.Column s type) : (parts : List TemplatePart) →
    ∀ states ends, endsOfAll v type? states parts = some ends →
      Leads (filledAll s parts) states ends
  | [] => fun states ends h => .nil (by rw [Option.some.inj h]; exact List.Subset.refl ends)
  | part :: parts => by
      intro states ends h
      obtain ⟨middle, hmiddle, h⟩ := Option.bind_eq_some_iff.mp h
      exact (leads_filled hs hcolumn part states middle hmiddle).append
        (leads_filledAll hs hcolumn parts middle ends h)

end

end ValueEnds

end TypedTables
