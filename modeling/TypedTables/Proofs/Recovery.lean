import TypedTables.Proofs.ClassNames
import TypedTables.Proofs.SourceCache
import TypedTables.Proofs.SourceOrder

/-!
Recovered positions. The class of an entity is found again in its source file by its class path,
and there every field stands where the extraction saw it. So the fields come back in the order of
the source, whatever order they are given in and whichever of their positions are forgotten.
-/

namespace TypedTables

open Source Text

def Field.forget (kept : Field → Bool) (f : Field) : Field :=
  if kept f then f else { f with position := none }

theorem Field.forget_name (kept : Field → Bool) (f : Field) : (f.forget kept).name = f.name := by
  rw [forget]
  split <;> rfl

theorem Field.forget_of_isSome {kept : Field → Bool} {f : Field}
    (h : (f.forget kept).position.isSome) : f.forget kept = f := by
  rw [forget] at h ⊢
  split
  · rfl
  · rename_i hkept
    simp [hkept] at h

namespace Source

def DistinctClasses (ss : List Statement) : Prop :=
  ∀ scope ∈ classScopes ss, (ModuleContext.classNames scope).Nodup

/-- Statements in which no class annotates the name of one of its fields a second time. -/
def AnnotatesOnce (ctx : ModuleContext) (ss : List Statement) : Prop :=
  ∀ body ∈ bodiesAmong ss, ∀ f ∈ fieldsOf ctx body,
    ((annotatedNames body).map Prod.fst).count f.name = 1

theorem DistinctClasses.body {ss body : List Statement} {ds : List Decorator} {name : String}
    (hd : DistinctClasses ss) (h : .classDef ds name body ∈ ss) : DistinctClasses body :=
  fun scope hscope => hd scope (List.mem_cons_of_mem ss (classScopes_subset h hscope))

theorem classBody?_of_mem {ss body : List Statement} {ds : List Decorator} {name : String}
    (hd : (ModuleContext.classNames ss).Nodup) (h : .classDef ds name body ∈ ss) :
    classBody? name ss = some body := by
  induction ss with
  | nil => cases h
  | cons s ss ih =>
      rw [classBody?] at ih ⊢
      rw [List.findSome?_cons]
      rcases List.mem_cons.mp h with rfl | hlater
      · simp
      · cases s with
        | classDef ds' other body' =>
            obtain ⟨hother, hrest⟩ := List.nodup_cons.mp hd
            have hne : other ≠ name := fun heq => hother (heq ▸ mem_classNames hlater)
            simpa [hne] using ih hrest hlater
        | _ => simpa using ih hd hlater

theorem bodyAt?_cons (name : String) {path : List String} (hne : path ≠ []) (ss : List Statement) :
    bodyAt? (name :: path) ss = (classBody? name ss).bind (bodyAt? path) := by
  obtain ⟨next, path, rfl⟩ := List.exists_cons_of_ne_nil hne
  rfl

theorem ClassIn.bodyAt?_eq {ss body : List Statement} {path : List String} {ds : List Decorator}
    (h : ClassIn ss path ds body) (hd : DistinctClasses ss) : bodyAt? path ss = some body := by
  induction h with
  | here h => rw [bodyAt?, classBody?_of_mem (hd _ List.mem_cons_self) h]
  | inside h inner ih =>
      rw [bodyAt?_cons _ inner.path_ne_nil, classBody?_of_mem (hd _ List.mem_cons_self) h,
        Option.bind_some, ih (hd.body h)]

def fieldOf? (ctx : ModuleContext) (a : String × String × Nat) : Option Field :=
  let ref := TypeRef.ofText a.2.1 ctx.resolve
  if ref.isClassVar then none else some ⟨a.1, ref, some (a.2.2 : Int)⟩

theorem fieldsOf_eq (ctx : ModuleContext) (body : List Statement) :
    fieldsOf ctx body = (annotatedNames body).filterMap (fieldOf? ctx) := rfl

theorem fieldOf?_eq_some {ctx : ModuleContext} {a : String × String × Nat} {f : Field}
    (h : fieldOf? ctx a = some f) : f.name = a.1 ∧ f.position = some (a.2.2 : Int) := by
  rw [fieldOf?, Option.ite_none_left_eq_some] at h
  obtain ⟨-, hfield⟩ := h
  obtain rfl := Option.some.inj hfield
  exact ⟨rfl, rfl⟩

theorem inSourceOrder_fieldsOf {body : List Statement}
    (h : (annotatedOffsets body).Pairwise (· < ·)) (ctx : ModuleContext) :
    InSourceOrder (fieldsOf ctx body) := by
  rw [InSourceOrder, fieldsOf_eq, List.pairwise_filterMap]
  refine (List.pairwise_map.mp h).imp ?_
  intro a b hlt f hf g hg
  exact ⟨_, _, (fieldOf?_eq_some hf).2, (fieldOf?_eq_some hg).2, Int.ofNat_lt.mpr hlt⟩

theorem eq_of_count_one {entries : List (String × String × Nat)} {a b : String × String × Nat}
    (h : (entries.map Prod.fst).count a.1 = 1) (ha : a ∈ entries) (hb : b ∈ entries)
    (hab : b.1 = a.1) : b = a := by
  have hone : (entries.filter (fun e => e.1 == a.1)).length = 1 := by
    rw [← h, List.count, List.countP_map, List.countP_eq_length_filter]
    rfl
  obtain ⟨e, he⟩ := List.length_eq_one_iff.mp hone
  have hmem : ∀ c ∈ entries, c.1 = a.1 → c = e := by
    intro c hc hca
    have hc' : c ∈ entries.filter (fun e => e.1 == a.1) := by simp [hc, hca]
    simpa [he] using hc'
  rw [hmem b hb hab, hmem a ha rfl]

/-- At the path of a class, each of its fields is found at the position that it carries. -/
theorem fieldPositions?_of_classIn {ctx : ModuleContext} {ss body : List Statement}
    {path : List String} {ds : List Decorator} (h : ClassIn ss path ds body)
    (hd : DistinctClasses ss) (honce : AnnotatesOnce ctx ss) :
    ∃ positions, fieldPositions? ss path = some positions ∧ ∀ f ∈ fieldsOf ctx body,
      ∃ offset : Nat, positions.lookup f.name = some offset ∧ f.position = some (offset : Int) := by
  refine ⟨_, by rw [fieldPositions?, h.bodyAt?_eq hd, Option.map_some], ?_⟩
  intro f hf
  have hcount := honce body h.mem_bodiesAmong f hf
  rw [fieldsOf_eq] at hf
  obtain ⟨a, ha, hfield⟩ := List.mem_filterMap.mp hf
  obtain ⟨hname, hposition⟩ := fieldOf?_eq_some hfield
  rw [hname] at hcount ⊢
  refine ⟨a.2.2, Keyed.lookup_ofList_of_unique (List.mem_map.mpr ⟨a, ha, rfl⟩) ?_, hposition⟩
  intro other hother
  obtain ⟨b, hb, heq⟩ := List.mem_map.mp hother
  obtain ⟨hname', rfl⟩ := Prod.mk.inj heq
  rw [eq_of_count_one hcount ha hb hname']

end Source

namespace FieldOrder

theorem byPosition_of_increasing {key : Field → Int} {fields listed : List Field}
    (hperm : fields.Perm listed) (h : listed.Pairwise (fun f g => key f < key g)) :
    byPosition (fields.map (fun f => (key f, f))) = listed := by
  have hsorted : Sorted.ofList notAfter (fields.map (fun f => (key f, f))) =
      listed.map (fun f => (key f, f)) := by
    refine Sorted.ofList_of_increasing notAfter notAfter_total notAfter_trans (hperm.map _) ?_
    rw [List.pairwise_map]
    refine h.imp ?_
    intro f g hlt
    simpa [notAfter] using ⟨le_of_lt hlt, hlt⟩
  rw [byPosition_eq, hsorted, List.map_map]
  simp [Function.comp_def]

theorem recoveredPositions_of_readSource {fs : FileSystem} {cache : SourceCache} {e : Entity}
    {file : String} {bytes : List UInt8} (hcache : cache.Faithful fs)
    (hsource : e.sourceFile = some file) (hfile : file ≠ "")
    (hread : fs.readSource (Path.ofText file) = .ok bytes) :
    ∃ after, recoveredPositions fs cache e =
      (fieldPositions? (parse bytes) e.classPath, [], after) := by
  have hstatements : statementsAt? fs (Path.ofText file) = .ok (parse bytes) := by
    rw [statementsAt?, hread]
  rw [recoveredPositions, hsource]
  dsimp only
  rw [if_neg (by simpa using hfile), sourceOf]
  cases hlook : cache.lookup (Path.ofText file) with
  | none =>
      rw [hstatements]
      exact ⟨_, rfl⟩
  | some statements? =>
      obtain rfl : statements? = some (parse bytes) := by
        rw [hcache _ _ hlook, hstatements]
        rfl
      exact ⟨_, rfl⟩

theorem recovered_of_lookup {e : Entity} {positions : List (String × Nat)} {listed : List Field}
    (hperm : e.fields.Perm listed)
    (hfound : ∀ f ∈ listed, (positions.lookup f.name).isSome)
    (h : listed.Pairwise (fun f g =>
      (positions.lookup f.name).getD 0 < (positions.lookup g.name).getD 0)) :
    recovered e (some positions) = (listed, []) := by
  have hmissing : (e.fields.filter (fun f => (positions.lookup f.name).isNone)) = [] := by
    rw [List.filter_eq_nil_iff]
    intro f hf
    simpa [Option.isSome_iff_ne_none] using hfound f (hperm.mem_iff.mp hf)
  rw [recovered]
  dsimp only
  rw [hmissing, List.isEmpty_nil, if_pos rfl]
  congr 1
  exact byPosition_of_increasing hperm (h.imp (fun hlt => Int.ofNat_lt.mpr hlt))

theorem sort_of_missing {fs : FileSystem} {cache after : SourceCache} {e : Entity}
    {positions : Option (List (String × Nat))} (h : ¬ ∀ f ∈ e.fields, f.position.isSome)
    (hrecovered : recoveredPositions fs cache e = (positions, [], after)) :
    sort fs cache e = ((recovered e positions).1, (recovered e positions).2, after) := by
  have hne : e.fields ≠ [] := by
    intro hnil
    simp [hnil] at h
  rw [sort, if_neg (by simpa using hne), givenPositions?_eq, if_neg h, hrecovered]
  rfl

theorem sort_of_found {fs : FileSystem} {cache after : SourceCache} {e : Entity}
    {source : List Field} {kept : Field → Bool} {positions : List (String × Nat)}
    (hperm : e.fields.Perm (source.map (Field.forget kept))) (horder : InSourceOrder source)
    (hrecovered : recoveredPositions fs cache e = (some positions, [], after))
    (hfound : ∀ f ∈ source, ∃ offset : Nat, positions.lookup f.name = some offset ∧
      f.position = some (offset : Int)) :
    (sort fs cache e).1 = source.map (Field.forget kept) ∧ (sort fs cache e).2.1 = [] := by
  by_cases hgiven : ∀ f ∈ e.fields, f.position.isSome
  · -- nothing is forgotten, and the positions that the fields carry decide
    have hsame : source.map (Field.forget kept) = source := by
      refine (List.map_congr_left ?_).trans (List.map_id source)
      intro f hf
      exact Field.forget_of_isSome
        (hgiven _ (hperm.mem_iff.mpr (List.mem_map_of_mem hf)))
    rw [hsame] at hperm ⊢
    have hkeys : source.Pairwise (fun f g => f.position.getD 0 < g.position.getD 0) := by
      refine horder.imp ?_
      rintro f g ⟨p, q, hp, hq, hlt⟩
      simpa [hp, hq] using hlt
    rw [sort_of_positions fs cache hgiven]
    exact ⟨byPosition_of_increasing hperm hkeys, rfl⟩
  · have hlisted : recovered e (some positions) = (source.map (Field.forget kept), []) := by
      refine recovered_of_lookup hperm ?_ ?_
      · intro f' hf'
        obtain ⟨f, hf, rfl⟩ := List.mem_map.mp hf'
        obtain ⟨offset, hlook, -⟩ := hfound f hf
        simp [Field.forget_name, hlook]
      · rw [List.pairwise_map]
        refine horder.imp_of_mem ?_
        rintro f g hf hg ⟨p, q, hp, hq, hlt⟩
        obtain ⟨offset, hlook, hposition⟩ := hfound f hf
        obtain ⟨offset', hlook', hposition'⟩ := hfound g hg
        rw [hp, Option.some.injEq] at hposition
        rw [hq, Option.some.injEq] at hposition'
        simp only [Field.forget_name, hlook, hlook', Option.getD_some]
        omega
    rw [sort_of_missing hgiven hrecovered, hlisted]
    exact ⟨rfl, rfl⟩

/-- An extracted entity has its fields sorted as they were extracted, whatever order they come in
and whichever positions are forgotten, and nothing is told about it. -/
theorem sort_extracted {fs : FileSystem} {cache : SourceCache} {bytes : List UInt8}
    {module namespaceName file : String} {package : Option String} {m : Marked}
    {kept : Field → Bool} {fields : List Field} (hmodule : module ≠ "")
    (hclasses : DistinctClasses (parse bytes))
    (honce : AnnotatesOnce (.ofStatements module package (parse bytes)) (parse bytes))
    (hm : m ∈ marked (parse bytes) module package namespaceName (some file)) (hfile : file ≠ "")
    (hread : fs.readSource (Path.ofText file) = .ok bytes) (hcache : cache.Faithful fs)
    (hperm : fields.Perm (m.entity.fields.map (Field.forget kept))) :
    (sort fs cache { m.entity with fields := fields }).1 = m.entity.fields.map (Field.forget kept) ∧
      (sort fs cache { m.entity with fields := fields }).2.1 = [] := by
  obtain ⟨ds, body, hclass, hentity⟩ := exists_class_of_marked hm hmodule (wellNamed_parse bytes)
  have hfields : m.entity.fields = fieldsOf (.ofStatements module package (parse bytes)) body :=
    congrArg Entity.fields hentity
  have hsource : m.entity.sourceFile = some file := congrArg Entity.sourceFile hentity
  obtain ⟨positions, hpositions, hfound⟩ := fieldPositions?_of_classIn hclass hclasses honce
  have horder : InSourceOrder m.entity.fields := by
    rw [hfields]
    exact inSourceOrder_fieldsOf
      (pairwise_annotatedOffsets (List.mem_cons_of_mem _ hclass.mem_bodiesAmong)) _
  let e := { m.entity with fields := fields }
  obtain ⟨after, hrecovered⟩ : ∃ after, recoveredPositions fs cache e =
      (fieldPositions? (parse bytes) m.entity.classPath, [], after) :=
    recoveredPositions_of_readSource hcache hsource hfile hread
  rw [hpositions] at hrecovered
  exact sort_of_found hperm horder hrecovered (hfields ▸ hfound)

def collars : List UInt8 :=
  Utf8.encode ("from tablegen.markers import table as t\nclass Dog:\n  @t\n  class Collar:\n" ++
    "    text: str\n    size: int; worn: bool\n")

def pound : FileSystem := ⟨.dir [("dogs.py", .file collars)], [], []⟩

def knownSize : Field → Field := Field.forget (fun f => f.name = "size")

theorem sort_collar_extracted :
    ∃ m ∈ marked (parse collars) "dogs" none "tablegen.markers" (some "/dogs.py"),
      m.entity.classPath = ["Dog", "Collar"] ∧ DistinctClasses (parse collars) ∧
      AnnotatesOnce (.ofStatements "dogs" none (parse collars)) (parse collars) ∧
      pound.readSource (Path.ofText "/dogs.py") = .ok collars ∧
      (m.entity.fields.map knownSize).map (fun f => (f.name, f.position)) =
        [("text", none), ("size", some 90), ("worn", none)] ∧
      (sort pound [] { m.entity with fields := (m.entity.fields.map knownSize).reverse }).1 =
        m.entity.fields.map knownSize ∧
      (sort pound [] { m.entity with
        fields := (m.entity.fields.map knownSize).reverse }).2.1 = [] := by
  have hsource : DistinctClasses (parse collars) ∧
      AnnotatesOnce (.ofStatements "dogs" none (parse collars)) (parse collars) ∧
      ∃ m ∈ marked (parse collars) "dogs" none "tablegen.markers" (some "/dogs.py"),
        m.entity.classPath = ["Dog", "Collar"] ∧
        (m.entity.fields.map knownSize).map (fun f => (f.name, f.position)) =
          [("text", none), ("size", some 90), ("worn", none)] := by
    rw [DistinctClasses, AnnotatesOnce]
    decide +kernel
  obtain ⟨hclasses, honce, m, hm, hpath, hlisted⟩ := hsource
  have hread : pound.readSource (Path.ofText "/dogs.py") = .ok collars := by
    decide +kernel
  obtain ⟨hsorted, hnotices⟩ := sort_extracted (by decide) hclasses honce hm (by decide)
    hread (.nil pound) (List.reverse_perm (m.entity.fields.map knownSize))
  exact ⟨m, hm, hpath, hclasses, honce, hread, hlisted, hsorted, hnotices⟩

end FieldOrder

end TypedTables
