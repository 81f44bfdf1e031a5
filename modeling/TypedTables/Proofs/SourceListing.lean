import Mathlib.Data.List.Lex
import Mathlib.Data.Set.List
import TypedTables.Proofs.FileTree
import TypedTables.Proofs.SourcePlace
import TypedTables.Proofs.Walk

/-!
The listing of sources below a root. A scan yields exactly the source files that neither a name nor
a rule nor a closed directory keeps from it, in the lexicographic order of their components.
-/

namespace TypedTables

namespace Source

section Prefixes

variable {α : Type} {P : List α → Prop} {x : α} {xs : List α}

theorem forall_prefix_cons : (∀ ys, ys ≠ [] → ys <+: x :: xs → P ys) ↔
    P [x] ∧ ∀ ys, ys ≠ [] → ys <+: xs → P (x :: ys) := by
  constructor
  · intro h
    refine ⟨h [x] (List.cons_ne_nil x []) ⟨xs, rfl⟩, fun ys _ hys => ?_⟩
    exact h (x :: ys) (List.cons_ne_nil x ys) (List.cons_prefix_cons.mpr ⟨rfl, hys⟩)
  · rintro ⟨hfirst, hrest⟩ ys hne hys
    rcases List.prefix_cons_iff.mp hys with rfl | ⟨zs, rfl, hzs⟩
    · exact absurd rfl hne
    · cases zs with
      | nil => exact hfirst
      | cons z zs => exact hrest (z :: zs) (List.cons_ne_nil z zs) hzs

theorem forall_above_cons : (∀ ys, ys ≠ x :: xs → ys <+: x :: xs → P ys) ↔
    P [] ∧ ∀ ys, ys ≠ xs → ys <+: xs → P (x :: ys) := by
  constructor
  · intro h
    refine ⟨h [] (List.cons_ne_nil x xs).symm List.nil_prefix, fun ys hne hys => ?_⟩
    exact h (x :: ys) (fun heq => hne (List.cons_inj_right x |>.mp heq))
      (List.cons_prefix_cons.mpr ⟨rfl, hys⟩)
  · rintro ⟨hfirst, hrest⟩ ys hne hys
    rcases List.prefix_cons_iff.mp hys with rfl | ⟨zs, rfl, hzs⟩
    · exact hfirst
    · exact hrest zs (fun heq => hne (congrArg _ heq)) hzs

end Prefixes

/-- The regular file at some components below a directory is within reach: no name on the way is
hidden, none of the directories is one of compiled files, no entry on the way is ignored, and all
directories above can be read. -/
structure Reached (ignored denied : List String → Bool) (tree : FileTree) (parts : List String) :
    Prop where
  file : ∃ bytes, tree.at? parts = some (.file bytes)
  shown : Shown parts
  kept : ∀ above, above ≠ [] → above <+: parts → ignored above = false
  readable : ∀ above, above ≠ parts → above <+: parts → denied above = false

theorem Shown.cons_iff {name : String} {rest : List String} : Shown (name :: rest) ↔
    isHidden name = false ∧ (rest = [] ∨ name ≠ cacheDirectory) ∧ Shown rest := by
  refine ⟨fun h => ?_, fun ⟨hname, hopen, hrest⟩ => hrest.cons hname hopen⟩
  obtain ⟨hname, hvisible⟩ := List.forall_mem_cons.mp h.visible
  cases rest with
  | nil => exact ⟨hname, .inl rfl, by simp, by simp⟩
  | cons next rest =>
      have hentered := h.entered
      rw [List.dropLast_cons_cons] at hentered
      obtain ⟨hcache, hrest⟩ := List.forall_mem_cons.mp hentered
      exact ⟨hname, .inr hcache, hvisible, hrest⟩

section

variable {ignored denied : List String → Bool} {bytes : List UInt8}
  {entries : List (String × FileTree)} {parts : List String}

theorem reached_file : Reached ignored denied (.file bytes) parts ↔ parts = [] := by
  constructor
  · intro h
    obtain ⟨found, hfound⟩ := h.file
    cases parts with
    | nil => rfl
    | cons name rest => simp [FileTree.at?, FileTree.entries] at hfound
  · rintro rfl
    refine ⟨⟨bytes, rfl⟩, ⟨by simp, by simp⟩, ?_, ?_⟩
    · exact fun above hne habove => absurd (List.prefix_nil.mp habove) hne
    · exact fun above hne habove => absurd (List.prefix_nil.mp habove) hne

theorem not_reached_dir : ¬ Reached ignored denied (.dir entries) [] := by
  rintro ⟨⟨found, hfound⟩, -⟩
  simp [FileTree.at?] at hfound

theorem reached_cons {name : String} {rest : List String} :
    Reached ignored denied (.dir entries) (name :: rest) ↔
      denied [] = false ∧ ∃ node, entries.lookup name = some node ∧ isHidden name = false ∧
        ignored [name] = false ∧ (rest = [] ∨ name ≠ cacheDirectory) ∧
        Reached (fun more => ignored (name :: more)) (fun more => denied (name :: more)) node
          rest := by
  constructor
  · rintro ⟨⟨bytes, hfile⟩, hshown, hkept, hreadable⟩
    obtain ⟨node, hnode, hfile⟩ := Option.bind_eq_some_iff.mp hfile
    obtain ⟨hname, hopen, hrest⟩ := Shown.cons_iff.mp hshown
    obtain ⟨hself, hkept⟩ := forall_prefix_cons.mp hkept
    obtain ⟨htop, hreadable⟩ := forall_above_cons.mp hreadable
    exact ⟨htop, node, hnode, hname, hself, hopen, ⟨bytes, hfile⟩, hrest, hkept, hreadable⟩
  · rintro ⟨htop, node, hnode, hname, hself, hopen, ⟨bytes, hfile⟩, hrest, hkept, hreadable⟩
    refine ⟨⟨bytes, ?_⟩, hrest.cons hname hopen, forall_prefix_cons.mpr ⟨hself, hkept⟩,
      forall_above_cons.mpr ⟨htop, hreadable⟩⟩
    rw [FileTree.at?, FileTree.entries, hnode]
    exact hfile

end

section

variable {ignored : String → Bool} {denied : List String → Bool}

theorem walkAmong_eq (below : List String) (entries : List (String × FileTree)) :
    walkAmong ignored denied below entries =
      (entries.filter (fun e =>
        !(isHidden e.1 || ignored (String.intercalate "/" (below ++ [e.1]))))).map
          (fun e => (e.1, walk ignored denied (below ++ [e.1]) e.2)) := by
  induction entries with
  | nil => rfl
  | cons e entries ih =>
      obtain ⟨name, node⟩ := e
      rw [walkAmong, List.filter_cons, ih]
      cases isHidden name || ignored (String.intercalate "/" (below ++ [name])) <;> rfl

theorem mem_among {below : List String} {entries : List (String × FileTree)}
    {found : String × List (List String)} :
    found ∈ Sorted.ofList (fun a b => a.1 ≤ b.1) (walkAmong ignored denied below entries) ↔
      ∃ e ∈ entries, isHidden e.1 = false ∧
        ignored (String.intercalate "/" (below ++ [e.1])) = false ∧
        found = (e.1, walk ignored denied (below ++ [e.1]) e.2) := by
  rw [(Sorted.perm_ofList _ _).mem_iff, walkAmong_eq, List.mem_map]
  constructor
  · rintro ⟨e, he, rfl⟩
    obtain ⟨he, hkept⟩ := List.mem_filter.mp he
    rw [Bool.not_eq_true', Bool.or_eq_false_iff] at hkept
    exact ⟨e, he, hkept.1, hkept.2, rfl⟩
  · rintro ⟨e, he, hvisible, hignored, rfl⟩
    exact ⟨e, List.mem_filter.mpr ⟨he, by rw [hvisible, hignored]; rfl⟩, rfl⟩

theorem mem_walk_dir {below p : List String} {entries : List (String × FileTree)} :
    p ∈ walk ignored denied below (.dir entries) ↔
      below.getLast? ≠ some cacheDirectory ∧ denied below = false ∧
        ∃ e ∈ entries, isHidden e.1 = false ∧
          ignored (String.intercalate "/" (below ++ [e.1])) = false ∧
          p ∈ walk ignored denied (below ++ [e.1]) e.2 := by
  rw [walk]
  by_cases hclosed : (decide (below.getLast? = some cacheDirectory) || denied below) = true
  · rw [if_pos hclosed]
    simp only [Bool.or_eq_true, decide_eq_true_eq] at hclosed
    refine iff_of_false List.not_mem_nil ?_
    rintro ⟨hcache, hreadable, -⟩
    exact hclosed.elim hcache (by simp [hreadable])
  · rw [if_neg hclosed]
    simp only [Bool.or_eq_true, decide_eq_true_eq, not_or, Bool.not_eq_true] at hclosed
    rw [← and_assoc, and_iff_right hclosed, List.mem_flatMap]
    constructor
    · rintro ⟨found, hfound, hp⟩
      obtain ⟨e, he, hvisible, hignored, rfl⟩ := mem_among.mp hfound
      exact ⟨e, he, hvisible, hignored, hp⟩
    · rintro ⟨e, he, hvisible, hignored, hp⟩
      exact ⟨_, mem_among.mpr ⟨e, he, hvisible, hignored, rfl⟩, hp⟩

/-- A walk finds what is within reach below where it starts. -/
theorem mem_walk {tree : FileTree} (h : tree.Distinct) {below p : List String} :
    p ∈ walk ignored denied below tree ↔ ∃ parts, p = below ++ parts ∧
      (parts = [] ∨ below.getLast? ≠ some cacheDirectory) ∧
      Reached (fun more => ignored (String.intercalate "/" (below ++ more)))
        (fun more => denied (below ++ more)) tree parts := by
  induction h generalizing below p with
  | file bytes =>
      rw [walk, List.mem_singleton]
      constructor
      · rintro rfl
        exact ⟨[], (List.append_nil p).symm, .inl rfl, reached_file.mpr rfl⟩
      · rintro ⟨parts, rfl, -, hreached⟩
        rw [reached_file.mp hreached, List.append_nil]
  | @dir entries names nodes ih =>
      -- one name further down, the place that the rest is counted from moves on by that name
      have hstep : ∀ name more, below ++ [name] ++ more = below ++ name :: more :=
        fun name more => List.append_cons below name more |>.symm
      rw [mem_walk_dir]
      constructor
      · rintro ⟨hcache, htop, ⟨name, node⟩, he, hvisible, hignored, hp⟩
        obtain ⟨rest, rfl, hopen, hreached⟩ := (ih (name, node) he).mp hp
        refine ⟨name :: rest, hstep name rest, .inr hcache, reached_cons.mpr ?_⟩
        refine ⟨by rwa [List.append_nil], node, ?_, hvisible, hignored, ?_, ?_⟩
        · exact (Keyed.lookup_eq_some_iff_mem names name node).mpr he
        · exact hopen.imp_right (by simp)
        · simpa only [hstep] using hreached
      · rintro ⟨parts, rfl, hcache, hreached⟩
        cases parts with
        | nil => exact absurd hreached not_reached_dir
        | cons name rest =>
            obtain ⟨htop, node, hnode, hvisible, hignored, hopen, hreached⟩ :=
              reached_cons.mp hreached
            rw [List.append_nil] at htop
            have he := (Keyed.lookup_eq_some_iff_mem names name node).mp hnode
            refine ⟨hcache.resolve_left (List.cons_ne_nil name rest), htop, (name, node), he,
              hvisible, hignored, (ih (name, node) he).mpr ⟨rest, (hstep name rest).symm, ?_, ?_⟩⟩
            · exact hopen.imp_right (by simp)
            · simpa only [hstep] using hreached

def Precedes (p q : List String) : Prop := List.Lex (· < ·) p q

theorem precedes_of_first {below : List String} {name other : String} (h : name < other)
    (rest more : List String) : Precedes (below ++ name :: rest) (below ++ other :: more) :=
  List.Lex.append_left _ (List.Lex.rel h) below

theorem Precedes.ne {p q : List String} (h : Precedes p q) : p ≠ q := by
  rintro rfl
  exact irrefl_of (List.Lex (· < ·)) p h

theorem pairwise_among {entries : List (String × FileTree)} (h : (entries.map Prod.fst).Nodup)
    (below : List String) :
    (Sorted.ofList (fun a b => a.1 ≤ b.1) (walkAmong ignored denied below entries)).Pairwise
      (fun a b => a.1 < b.1) := by
  set found := walkAmong ignored denied below entries with hfound
  have hnames : (found.map Prod.fst).Nodup := by
    rw [hfound, walkAmong_eq, List.map_map]
    exact h.sublist (List.filter_sublist.map Prod.fst)
  have hsorted := Sorted.pairwise_ofList
    (fun a b : String × List (List String) => decide (a.1 ≤ b.1))
    (by simpa using fun a b => le_total a b)
    (by simpa using fun a b c => le_trans (a := a) (b := b) (c := c)) found
  have hdistinct := ((Sorted.perm_ofList (fun a b => decide (a.1 ≤ b.1)) found).map
    Prod.fst).nodup_iff.mpr hnames
  have hne := List.pairwise_map.mp hdistinct
  exact hsorted.imp₂ (fun a b hle hab => lt_of_le_of_ne (of_decide_eq_true hle) hab) hne

theorem pairwise_walk {tree : FileTree} (h : tree.Distinct) (below : List String) :
    (walk ignored denied below tree).Pairwise Precedes := by
  induction h generalizing below with
  | file bytes =>
      rw [walk]
      exact List.pairwise_singleton _ _
  | @dir entries names nodes ih =>
      rw [walk]
      split
      · exact .nil
      · refine List.pairwise_flatMap.mpr ⟨?_, ?_⟩
        · intro found hfound
          obtain ⟨e, he, -, -, rfl⟩ := mem_among.mp hfound
          exact ih e he _
        · refine (pairwise_among names below).imp_of_mem ?_
          intro a b ha hb hlt p hp q hq
          obtain ⟨e, -, -, -, rfl⟩ := mem_among.mp ha
          obtain ⟨e', -, -, -, rfl⟩ := mem_among.mp hb
          -- both files stand below entries of this directory, and these differ by name
          obtain ⟨rest, rfl, -⟩ := shown_of_walk _ _ hp
          obtain ⟨more, rfl, -⟩ := shown_of_walk _ _ hq
          rw [← List.append_cons, ← List.append_cons]
          exact precedes_of_first hlt rest more

end

namespace SourcePlace

def parts (p : SourcePlace) : List String := p.dirs ++ [p.stem ++ sourceSuffix]

theorem parts_injective : Function.Injective parts := by
  rintro ⟨dirs, stem⟩ ⟨dirs', stem'⟩ h
  obtain ⟨hdirs, hfile⟩ := List.append_inj' h rfl
  obtain rfl : stem = stem' := by simpa using hfile
  rw [show dirs = dirs' from hdirs]

end SourcePlace

theorem exists_stem_of_suffix {name : String} (h : (Path.splitSuffix name).2 = sourceSuffix) :
    ∃ stem, stem ≠ "" ∧ name = stem ++ sourceSuffix := by
  have hbare : ("" : String) ≠ sourceSuffix := by decide
  rw [Path.splitSuffix] at h
  split at h
  · exact absurd h hbare
  · exact absurd h hbare
  · rename_i c stem hbefore
    obtain ⟨after, hafter, hname⟩ := Text.beforeLast?_eq_some.mp hbefore
    simp only [hname, Text.afterLast_append, Text.afterLast_of_not_mem hafter] at h
    split at h
    · exact absurd h hbare
    · refine ⟨String.ofList (c :: stem), by simp, ?_⟩
      rw [← h, ← String.toList_inj]
      simp [hname]

theorem splitSuffix_eq_source {parts : List String} :
    (Path.splitSuffix (parts.getLast?.getD "")).2 = sourceSuffix ↔
      ∃ p : SourcePlace, p.stem ≠ "" ∧ p.parts = parts := by
  constructor
  · intro h
    obtain rfl | ⟨dirs, name, rfl⟩ := parts.eq_nil_or_concat
    · exact absurd h (by decide +kernel)
    · rw [List.concat_eq_append, List.getLast?_concat, Option.getD_some] at h
      obtain ⟨stem, hstem, rfl⟩ := exists_stem_of_suffix h
      exact ⟨⟨dirs, stem⟩, hstem, List.concat_eq_append.symm⟩
  · rintro ⟨p, hstem, rfl⟩
    rw [SourcePlace.parts, List.getLast?_concat, Option.getD_some, splitSuffix_source hstem]

def SourcePlace.source (root : Path) (p : SourcePlace) : SourceFile :=
  ⟨p.path root, .ofComponents p.names⟩

section

variable {ignored : String → Bool} {denied : List String → Bool}
  {entries : List (String × FileTree)}

theorem exists_places (ignored : String → Bool) (denied : List String → Bool) (root : Path)
    (entries : List (String × FileTree)) :
    ∃ places : List SourcePlace,
      sourcesBelow ignored denied root entries = .ok (places.map (SourcePlace.source root)) ∧
      (places.map SourcePlace.parts).Sublist (walk ignored denied [] (.dir entries)) ∧
      ∀ p, p ∈ places ↔ p.stem ≠ "" ∧ p.parts ∈ walk ignored denied [] (.dir entries) := by
  set found := (walk ignored denied [] (.dir entries)).filter (fun below =>
    (Path.splitSuffix (below.getLast?.getD "")).2 = sourceSuffix) with hfound
  have hmem : ∀ parts, parts ∈ found ↔ parts ∈ walk ignored denied [] (.dir entries) ∧
      ∃ p : SourcePlace, p.stem ≠ "" ∧ p.parts = parts := by
    intro parts
    rw [hfound, List.mem_filter, decide_eq_true_iff, splitSuffix_eq_source]
  obtain ⟨places, hplaces⟩ : found ∈ Set.range (List.map SourcePlace.parts) := by
    rw [Set.range_list_map]
    intro parts hparts
    obtain ⟨-, p, -, hp⟩ := (hmem parts).mp hparts
    exact ⟨p, hp⟩
  have hiff : ∀ p, p ∈ places ↔
      p.stem ≠ "" ∧ p.parts ∈ walk ignored denied [] (.dir entries) := by
    intro p
    rw [← List.mem_map_of_injective SourcePlace.parts_injective, hplaces, hmem, and_comm]
    refine and_congr_left fun _ => ⟨?_, fun hstem => ⟨p, hstem, rfl⟩⟩
    rintro ⟨q, hstem, hq⟩
    exact SourcePlace.parts_injective hq ▸ hstem
  refine ⟨places, ?_, hplaces ▸ List.filter_sublist, hiff⟩
  rw [sourcesBelow]
  simp only
  rw [← hfound, ← hplaces, List.mapM_map]
  refine mapM_eq_ok fun p hp => ?_
  have hname := ofPath_path ((hiff p).mp hp).1 root
  rw [SourcePlace.path] at hname
  simp only [SourcePlace.parts, Function.comp_apply, hname, bind, Except.bind]
  rfl

theorem mem_walk_root (h : (FileTree.dir entries).Distinct) {parts : List String} :
    parts ∈ walk ignored denied [] (.dir entries) ↔
      Reached (fun above => ignored (String.intercalate "/" above)) denied (.dir entries)
        parts := by
  rw [mem_walk h]
  constructor
  · rintro ⟨parts, rfl, -, hreached⟩
    exact hreached
  · exact fun hreached => ⟨parts, rfl, .inr (by simp), hreached⟩

end

/-- A scan lists the sources within reach of it, each of them once and in the order of their
components, whatever decides what is ignored and what cannot be read. -/
theorem scan_lists_reached {fs : FileSystem} {root : Path} {ignoreFile : String}
    {entries : List (String × FileTree)}
    (hroot : fs.node (root.resolve fs.cwd) = .ok (.dir entries))
    (hdistinct : (FileTree.dir entries).Distinct) :
    (∀ rules, ignoreRules fs ((root.resolve fs.cwd).join (Path.ofText ignoreFile)) = .ok rules →
      scan fs root ignoreFile = sourcesBelow (Ignore.ignores rules)
        (fun below => fs.unreadable.contains ((root.resolve fs.cwd).components ++ below))
        (root.resolve fs.cwd) entries) ∧
    ∀ (ignored : String → Bool) (denied : List String → Bool), ∃ places : List SourcePlace,
      sourcesBelow ignored denied (root.resolve fs.cwd) entries =
        .ok (places.map (SourcePlace.source (root.resolve fs.cwd))) ∧
      (places.map SourcePlace.parts).Pairwise Precedes ∧ places.Nodup ∧
      ∀ p, p ∈ places ↔ p.stem ≠ "" ∧
        Reached (fun above => ignored (String.intercalate "/" above)) denied (.dir entries)
          p.parts := by
  refine ⟨fun rules hrules => scan_eq hroot hrules, fun ignored denied => ?_⟩
  obtain ⟨places, hplaces, hsub, hmem⟩ := exists_places ignored denied (root.resolve fs.cwd) entries
  have hordered := (pairwise_walk hdistinct []).sublist hsub
  refine ⟨places, hplaces, hordered, ?_, fun p => (hmem p).trans ?_⟩
  · exact List.Nodup.of_map SourcePlace.parts (hordered.imp Precedes.ne)
  · rw [mem_walk_root hdistinct]

def shelves : List (String × FileTree) :=
  [("zoo", .dir [("dog.py", .file []), (".cat.py", .file []),
    ("__pycache__", .dir [("dog.py", .file [])])]), ("notes.txt", .file []), ("ant.py", .file [])]

theorem distinct_shelves : (FileTree.dir shelves).Distinct := by
  have hcache : (FileTree.dir [("dog.py", .file [])]).Distinct :=
    .dir (by decide) (by simpa using .file [])
  have hzoo : (FileTree.dir [("dog.py", .file []), (".cat.py", .file []),
      ("__pycache__", .dir [("dog.py", .file [])])]).Distinct :=
    .dir (by decide) (by simpa [hcache] using .file [])
  exact .dir (by decide) (by simpa [shelves, hzoo] using .file [])

theorem reached_in_shelves :
    ∃ places : List SourcePlace,
      scan ⟨.dir shelves, [], []⟩ ⟨.relative, []⟩ ".gitignore" =
        .ok (places.map (SourcePlace.source ⟨.root, []⟩)) ∧
      (places.map SourcePlace.parts).Pairwise Precedes ∧ ⟨["zoo"], "dog"⟩ ∈ places := by
  obtain ⟨hscan, hlisted⟩ := @scan_lists_reached ⟨.dir shelves, [], []⟩ ⟨.relative, []⟩
    ".gitignore" shelves rfl distinct_shelves
  obtain ⟨places, hplaces, hordered, -, hmem⟩ := hlisted (Ignore.ignores []) (fun _ => false)
  refine ⟨places, (hscan [] rfl).trans hplaces, hordered, (hmem _).mpr ⟨by decide, ?_⟩⟩
  refine reached_cons.mpr ⟨rfl, _, rfl, by decide, rfl, .inr (by decide), ?_⟩
  exact reached_cons.mpr ⟨rfl, _, rfl, by decide, rfl, .inl rfl, reached_file.mpr rfl⟩

end Source

end TypedTables
