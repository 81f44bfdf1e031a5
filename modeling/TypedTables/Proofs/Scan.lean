import TypedTables.Proofs.Diagnostics
import TypedTables.Proofs.Keyed
import TypedTables.Source.Scan

namespace TypedTables.Source

section

variable {fs : FileSystem} {markers ignoreFile : String}

/-- The files that the scans of some roots list, up to the first scan that fails, and how it
fails. -/
def scanned (fs : FileSystem) (ignoreFile : String) :
    List Path → List SourceFile × Option ScanError
  | [] => ([], none)
  | root :: roots =>
      match scan fs root ignoreFile with
      | .error e => ([], some e)
      | .ok files =>
          let (more, failure) := scanned fs ignoreFile roots
          (files ++ more, failure)

theorem exists_scan_of_scanned {roots : List Path} {f : SourceFile}
    (hf : f ∈ (scanned fs ignoreFile roots).1) :
    ∃ root ∈ roots, ∃ files, scan fs root ignoreFile = .ok files ∧ f ∈ files := by
  induction roots with
  | nil => cases hf
  | cons root roots ih =>
      rw [scanned] at hf
      split at hf
      · cases hf
      · rename_i files hfiles
        rcases List.mem_append.mp hf with hf | hf
        · exact ⟨root, List.mem_cons_self, files, hfiles, hf⟩
        · obtain ⟨other, hother, rest⟩ := ih hf
          exact ⟨other, List.mem_cons_of_mem root hother, rest⟩

def classesOf (fs : FileSystem) (markers : String) (f : SourceFile) : List Marked :=
  match statementsAt? fs f.path with
  | .error _ => []
  | .ok statements => marked statements f.name.module f.name.package markers f.path.text

theorem exists_bytes_of_mem_classesOf {f : SourceFile} {m : Marked}
    (hm : m ∈ classesOf fs markers f) :
    ∃ bytes, fs.readSource f.path = .ok bytes ∧
      m ∈ marked (parse bytes) f.name.module f.name.package markers f.path.text := by
  rw [classesOf, statementsAt?] at hm
  cases hread : fs.readSource f.path with
  | error e => simp [hread] at hm
  | ok bytes => exact ⟨bytes, rfl, by simpa [hread] using hm⟩

def unreadable (f : SourceFile) : Diagnostic :=
  ⟨.warning, s!"Could not read source file {f.path.text}", none, none⟩

def leftOut (fs : FileSystem) (f : SourceFile) : Bool := !(statementsAt? fs f.path).isOk

theorem gather_append (found : MarkedEntities) (classes more : List Marked) :
    gather found (classes ++ more) = gather (gather found classes) more :=
  List.foldl_append

theorem collectFile_fst (found : MarkedEntities) (f : SourceFile) :
    (collectFile fs markers found f).1 = gather found (classesOf fs markers f) := by
  rw [collectFile, classesOf]
  cases statementsAt? fs f.path <;> rfl

theorem ofNotices_collectFile (found : MarkedEntities) (f : SourceFile) :
    Diagnostics.ofNotices (collectFile fs markers found f).2 =
      if leftOut fs f then [unreadable f] else [] := by
  rw [collectFile, leftOut]
  cases statementsAt? fs f.path with
  | error record => rfl
  | ok statements =>
      dsimp only
      rw [foundNotices]
      split <;> rfl

theorem collectFiles_fst (found : MarkedEntities) (files : List SourceFile) :
    (collectFiles fs markers found files).1 =
      gather found (files.flatMap (classesOf fs markers)) := by
  induction files generalizing found with
  | nil => rfl
  | cons f files ih =>
      rw [collectFiles, List.flatMap_cons, gather_append, ← collectFile_fst]
      exact ih _

theorem ofNotices_collectFiles (found : MarkedEntities) (files : List SourceFile) :
    Diagnostics.ofNotices (collectFiles fs markers found files).2 =
      (files.filter (leftOut fs)).map unreadable := by
  induction files generalizing found with
  | nil => rfl
  | cons f files ih =>
      rw [collectFiles, Diagnostics.ofNotices_append, ofNotices_collectFile, ih, List.filter_cons]
      split <;> rfl

/-- What a scan of all roots gives: it fails as the first scan that fails, and otherwise gathers
the classes of all files. -/
theorem collect_snd (found : MarkedEntities) (roots : List Path) :
    (collect fs markers ignoreFile found roots).2 =
      match (scanned fs ignoreFile roots).2 with
      | some e => .error e
      | none =>
          .ok (gather found ((scanned fs ignoreFile roots).1.flatMap (classesOf fs markers))) := by
  induction roots generalizing found with
  | nil => rfl
  | cons root roots ih =>
      rw [collect, scanned]
      cases scan fs root ignoreFile with
      | error e => rfl
      | ok files =>
          dsimp only
          rw [ih, collectFiles_fst, List.flatMap_append, gather_append]

theorem ofNotices_collect (found : MarkedEntities) (roots : List Path) :
    Diagnostics.ofNotices (collect fs markers ignoreFile found roots).1 =
      ((scanned fs ignoreFile roots).1.filter (leftOut fs)).map unreadable := by
  induction roots generalizing found with
  | nil => rfl
  | cons root roots ih =>
      rw [collect, scanned]
      cases scan fs root ignoreFile with
      | error e => rfl
      | ok files =>
          dsimp only
          rw [Diagnostics.ofNotices_append, ofNotices_collectFiles, ih, List.filter_append,
            List.map_append]

theorem eq_gather_of_collect {found gathered : MarkedEntities} {roots : List Path}
    (h : (collect fs markers ignoreFile found roots).2 = .ok gathered) :
    gathered = gather found ((scanned fs ignoreFile roots).1.flatMap (classesOf fs markers)) := by
  rw [collect_snd] at h
  split at h
  · cases h
  · exact (Except.ok.inj h).symm

theorem exists_unreadable_of_collect {found : MarkedEntities} {roots : List Path} {d : Diagnostic}
    (hd : d ∈ Diagnostics.ofNotices (collect fs markers ignoreFile found roots).1) :
    ∃ root ∈ roots, ∃ files, scan fs root ignoreFile = .ok files ∧
      ∃ f ∈ files, d = unreadable f := by
  rw [ofNotices_collect] at hd
  obtain ⟨f, hf, rfl⟩ := List.mem_map.mp hd
  obtain ⟨root, hroot, files, hfiles, hf⟩ := exists_scan_of_scanned (List.mem_filter.mp hf).1
  exact ⟨root, hroot, files, hfiles, f, hf, rfl⟩

end

def entitiesOf (marker : String) (classes : List Marked) : List Entity :=
  (classes.filter (fun m => m.marker = marker)).map Marked.entity

theorem entitiesOf_cons (marker : String) (m : Marked) (classes : List Marked) :
    entitiesOf marker (m :: classes) =
      if m.marker = marker then m.entity :: entitiesOf marker classes
      else entitiesOf marker classes := by
  rw [entitiesOf, List.filter_cons]
  by_cases hm : m.marker = marker
  · rw [if_pos hm, if_pos (decide_eq_true hm)]
    rfl
  · rw [if_neg hm, if_neg (by simpa using hm)]
    rfl

theorem lookup_gather (found : MarkedEntities) (classes : List Marked) (marker : String) :
    (gather found classes).lookup marker =
      if entitiesOf marker classes = [] then found.lookup marker
      else some ((found.lookup marker).getD [] ++ entitiesOf marker classes) := by
  induction classes generalizing found with
  | nil => rfl
  | cons m classes ih =>
      have hstep : gather found (m :: classes) =
          gather (Keyed.append m.marker m.entity found) classes := rfl
      rw [hstep, ih, Keyed.append, Keyed.lookup_insert, entitiesOf_cons]
      by_cases hm : m.marker = marker
      · subst hm
        rw [if_pos rfl, if_pos rfl, if_neg (List.cons_ne_nil _ _)]
        split
        · rename_i hnone
          rw [hnone]
        · rw [Option.getD_some, List.append_assoc, List.singleton_append]
      · rw [if_neg (Ne.symm hm), if_neg hm]

/-- What a table of entities holds for a marker: nothing rather than no entities. -/
def entry? (entities : List Entity) : Option (List Entity) :=
  if entities = [] then none else some entities

theorem lookup_gather_nil (classes : List Marked) (marker : String) :
    (gather [] classes).lookup marker = entry? (entitiesOf marker classes) := by
  rw [lookup_gather, entry?]
  rfl

theorem nodup_gather {found : MarkedEntities} (h : (found.map Prod.fst).Nodup)
    (marked : List Marked) : ((gather found marked).map Prod.fst).Nodup := by
  induction marked generalizing found with
  | nil => exact h
  | cons m marked ih => exact ih (Keyed.nodup_insert h _ _)

theorem nodup_collect {fs : FileSystem} {markers ignoreFile : String}
    {found gathered : MarkedEntities} {roots : List Path} (h : (found.map Prod.fst).Nodup)
    (hcollect : (collect fs markers ignoreFile found roots).2 = .ok gathered) :
    (gathered.map Prod.fst).Nodup :=
  eq_gather_of_collect hcollect ▸ nodup_gather h _

section

variable {fs : FileSystem} {markers ignoreFile : String} {found gathered : MarkedEntities}
  {P : Entity → Prop}

theorem forall_gather {marked : List Marked} (hfound : ∀ x ∈ found, ∀ e ∈ x.2, P e)
    (h : ∀ m ∈ marked, P m.entity) : ∀ x ∈ gather found marked, ∀ e ∈ x.2, P e := by
  induction marked generalizing found with
  | nil => exact hfound
  | cons m marked ih =>
      obtain ⟨hfirst, hrest⟩ := List.forall_mem_cons.mp h
      refine ih ?_ hrest
      intro x hx
      rcases Keyed.mem_of_mem_insert hx with rfl | hx
      · -- the entities of the marker of m, and m itself
        have hbefore : ∀ e ∈ (found.lookup m.marker).getD [], P e := by
          cases hlook : found.lookup m.marker with
          | none => exact fun e he => absurd he (by simp)
          | some entities =>
              obtain ⟨before, after, rfl, -⟩ := List.lookup_eq_some_iff.mp hlook
              exact hfound (m.marker, entities) (by simp)
        intro e he
        rcases List.mem_append.mp he with he | he
        · exact hbefore e he
        · exact List.mem_singleton.mp he ▸ hfirst
      · exact hfound x hx

theorem forall_collect {roots : List Path} (hfound : ∀ x ∈ found, ∀ e ∈ x.2, P e)
    (h : ∀ root ∈ roots, ∀ files, scan fs root ignoreFile = .ok files → ∀ f ∈ files,
      ∀ bytes, fs.readSource f.path = .ok bytes →
        ∀ m ∈ marked (parse bytes) f.name.module f.name.package markers f.path.text, P m.entity)
    (hcollect : (collect fs markers ignoreFile found roots).2 = .ok gathered) :
    ∀ x ∈ gathered, ∀ e ∈ x.2, P e := by
  obtain rfl := eq_gather_of_collect hcollect
  refine forall_gather hfound fun m hm => ?_
  obtain ⟨f, hf, hm⟩ := List.mem_flatMap.mp hm
  obtain ⟨root, hroot, files, hfiles, hf⟩ := exists_scan_of_scanned hf
  obtain ⟨bytes, hread, hm⟩ := exists_bytes_of_mem_classesOf hm
  exact h root hroot files hfiles f hf bytes hread m hm

end

end TypedTables.Source
