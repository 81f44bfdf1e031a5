import TypedTables.CommandLine.Run
import TypedTables.Proofs.Round.NoticeLines
import TypedTables.Proofs.Round.Problems
import TypedTables.Proofs.Round.ScannedColumns
import TypedTables.Proofs.UnsupportedColumns

/-!
The lines that report the problems of a round. All that they name is in one line, declared types and
markers apart: these are written as they stand in a source, line breaks included.
-/

namespace TypedTables

open Text Source CommandLine

namespace Round

section

variable {fs : FileSystem} {config : Config} {schema : Schema}

theorem BuiltFrom.namedInOneLine [OverrideLanguage] {e : Entity} {m : EntityModel}
    (h : BuiltFrom fs config schema e m) (he : e.InOneLine)
    (hsuffix : SingleLine config.packageSuffix.toList)
    (hfallback : SingleLine config.defaultPackage.toList) : NamedInOneLine e m where
  entity := he
  columns := by
    obtain ⟨cache, hcolumns⟩ := h.columns
    intro c hc
    have hname : c.name ∈ (FieldOrder.sort fs cache e).1.map Field.name := by
      rw [← Column.map_name_ofFields _ schema, ← Column.ofEntity_eq, ← hcolumns]
      exact List.mem_map_of_mem hc
    obtain ⟨f, hf, hname⟩ := List.mem_map.mp hname
    exact hname ▸ he.fields f ((FieldOrder.perm_sort fs cache e).mem_iff.mp hf)
  package := by
    rw [h.package, Entity.targetPackage]
    split
    · rename_i package hpackage
      rw [String.toList_append]
      exact (he.package package hpackage).append hsuffix
    · exact hfallback
  qualifiedName := h.qualifiedName

theorem mem_built_of_lookup {built : List (Entity × EntityModel)} {name package : String}
    (h : (packagesOf built).lookup name = some package) :
    ∃ p ∈ built, p.2.qualifiedName = name ∧ p.2.package = package := by
  rw [packagesOf, Keyed.lookup_ofList] at h
  obtain ⟨before, after, hsplit, -⟩ := List.lookup_eq_some_iff.mp h
  have hmem : (name, package) ∈ built.map (fun p => (p.2.qualifiedName, p.2.package)) := by
    rw [← List.mem_reverse, hsplit]
    simp
  obtain ⟨p, hp, heq⟩ := List.mem_map.mp hmem
  exact ⟨p, hp, congrArg Prod.fst heq, congrArg Prod.snd heq⟩

theorem exists_owner {config : Config} {built : List (Entity × EntityModel)} {s : Share}
    (hs : s ∈ shares config [] built) {owner : String} (h : owner ∈ s.owners) :
    ∃ p ∈ built, p.1.qualifiedName = owner := by
  obtain ⟨before, after, hsplit⟩ := List.append_of_mem hs
  obtain ⟨o, ho, -, rfl⟩ := (mem_owners_shares (.nil config) hsplit owner).mp h
  have hmem : (o.entity, o.model) ∈ built := by
    rw [← map_shares config [] built, hsplit]
    exact List.mem_map_of_mem (List.mem_append_left _ ho)
  exact ⟨_, hmem, rfl⟩

theorem inOneLine_tableProblems {built : List (Entity × EntityModel)}
    (hfallback : SingleLine config.defaultPackage.toList)
    (hpositions : ∀ p ∈ built, ∀ f ∈ p.1.fields, f.position.isSome)
    (h : ∀ p ∈ built, NamedInOneLine p.1 p.2) :
    (∀ d ∈ tableProblems fs config built, d.InOneLine) ↔
      ∀ p ∈ built, ∀ c ∈ p.2.columns, c.type = .unsupported →
        SingleLine c.declaredType.toList := by
  have hshares : ∀ d ∈ (shares config [] built).flatMap (fun s =>
      Diagnostics.ofNotices (s.notices (packagesOf built))), d.InOneLine := by
    simp only [List.forall_mem_flatMap]
    intro s hs
    have hpair : (s.entity, s.model) ∈ built := by
      rw [← map_shares config [] built]
      exact List.mem_map_of_mem hs
    have hnamed := h _ hpair
    have hpackages : ∀ name package, (packagesOf built).lookup name = some package →
        SingleLine name.toList ∧ SingleLine package.toList := by
      intro name package hlook
      obtain ⟨p, hp, rfl, rfl⟩ := mem_built_of_lookup hlook
      exact ⟨(h p hp).qualifiedName ▸ (h p hp).entity.qualifiedName, (h p hp).package⟩
    rw [Share.notices, Diagnostics.ofNotices_append, List.forall_mem_append,
      Diagnostics.ofNotices_flatMap]
    constructor
    · simp only [List.forall_mem_flatMap]
      exact fun c hc => inOneLine_linkNotices hnamed hc hpackages
    · split
      · simp
      · refine inOneLine_clashNotice hnamed ?_
        intro owner howner
        obtain ⟨p, hp, rfl⟩ := exists_owner hs howner
        exact (h p hp).entity.qualifiedName
  rw [tableProblems, List.forall_mem_append, and_iff_left hshares]
  simp only [List.forall_mem_flatMap]
  refine forall₂_congr ?_
  intro p hp
  have hsort : (FieldOrder.sort fs [] p.1).2.1 = [] := by
    rw [FieldOrder.sort_of_positions fs [] (hpositions p hp)]
  have hpackage : ∀ d ∈ Diagnostics.ofNotices (p.1.targetPackage config.packageRule).2,
      d.InOneLine := inOneLine_targetPackage (h p hp).entity.simpleName hfallback
  rw [partProblems, hsort, Diagnostics.ofNotices_nil, List.nil_append, ownProblems,
    Diagnostics.ofNotices_append, List.forall_mem_append, and_iff_left hpackage,
    Diagnostics.ofNotices_flatMap]
  simp only [List.forall_mem_flatMap]
  exact forall₂_congr (fun c hc =>
    inOneLine_columnNotices (h p hp).entity.simpleName ((h p hp).columns c hc))

end

end Round

namespace CommandLine.Outcome

variable (fs : FileSystem) (code : Nat)

theorem written_append (channel : Channel) (printed more : List Printed) :
    ((⟨fs, printed ++ more, code⟩ : Outcome).written channel).toList =
      ((⟨fs, printed, code⟩ : Outcome).written channel).toList ++
        ((⟨fs, more, code⟩ : Outcome).written channel).toList := by
  rw [written, written, written, List.filterMap_append, String.toList_join, String.toList_join,
    String.toList_join, List.flatMap_append]

theorem written_noted (lines : List String) :
    ((⟨fs, lines.map noted, code⟩ : Outcome).written .error).toList =
      unlines (lines.map String.toList) := by
  have hall : (⟨fs, lines.map noted, code⟩ : Outcome).written .error =
      String.join (lines.map (· ++ "\n")) := by
    rw [written, List.filterMap_map, ← List.filterMap_eq_map']
    rfl
  rw [hall, String.toList_join, unlines, List.flatMap_map, List.flatMap_map]
  simp only [String.toList_append]
  rfl

theorem written_report (r : RoundResult) :
    ((⟨fs, report r, code⟩ : Outcome).written .error).toList =
      unlines (r.diagnostics.lines.map String.toList) := by
  rw [report, written_append, written_noted]
  exact List.append_nil _

end CommandLine.Outcome

theorem physicalLines_unlines {lines : List (List Char)} (h : ∀ line ∈ lines, SingleLine line) :
    physicalLines (unlines lines) = lines ++ [[]] := by
  induction lines with
  | nil => rfl
  | cons line lines ih =>
      obtain ⟨hline, hrest⟩ := List.forall_mem_cons.mp h
      have hcons : unlines (line :: lines) = line ++ '\n' :: unlines lines := by
        simp [unlines]
      rw [hcons, physicalLines_append_break (by decide), physicalLines_of_singleLine hline,
        ih hrest]
      rfl

/-- Each problem of a round is told in one line, and the report prints these lines and no others
about problems. -/
structure RoundResult.OneLineEach (r : RoundResult) : Prop where
  lines : ∀ line ∈ r.diagnostics.lines, SingleLine line.toList
  printed : ∀ fs code, physicalLines ((⟨fs, report r, code⟩ : Outcome).written .error).toList =
    r.diagnostics.lines.map String.toList ++ [[]]

theorem RoundResult.oneLineEach_iff {r : RoundResult} :
    r.OneLineEach ↔ ∀ d ∈ r.diagnostics, d.InOneLine := by
  have hlines : (∀ line ∈ r.diagnostics.lines, SingleLine line.toList) ↔
      ∀ d ∈ r.diagnostics, d.InOneLine := List.forall_mem_map
  rw [← hlines]
  constructor
  · exact OneLineEach.lines
  · intro h
    refine ⟨h, ?_⟩
    intro fs code
    rw [CommandLine.Outcome.written_report, physicalLines_unlines (List.forall_mem_map.mpr h)]

namespace Round

/-- A round over scanned files tells each problem in one line, unless a declared type or a marker
that it tells about is written over several lines. -/
theorem oneLineEach_of_collect [OverrideLanguage] {fs fs' : FileSystem} {config : Config}
    {target : Target} {roots : List Path} {notices : List Notice} {found : MarkedEntities}
    {r : RoundResult}
    (hcollect : collect fs config.markersNamespace config.ignoreFile [] roots =
      (notices, .ok found))
    (hsources : ∀ root ∈ roots, ∀ files, scan fs root config.ignoreFile = .ok files →
      ∀ f ∈ files, SingleLine f.path.text.toList)
    (hsuffix : SingleLine config.packageSuffix.toList)
    (hfallback : SingleLine config.defaultPackage.toList)
    (h : (Round.run fs' config target (Diagnostics.ofNotices notices) found).result = .ok r) :
    r.OneLineEach ↔
      (∀ m ∈ r.models, ∀ c ∈ m.columns, c.type = .unsupported →
        SingleLine c.declaredType.toList) ∧
      ∀ x ∈ found, x.1 ≠ config.tableMarker → SingleLine x.1.toList := by
  have hfound := congrArg Prod.snd hcollect
  have hempty : (([] : MarkedEntities).map Prod.fst).Nodup := List.nodup_nil
  have hread := allRead_collect (by simp) hfound
  have hnames : ∀ x ∈ found, ∀ e ∈ x.2, e.InOneLine := by
    refine forall_collect (by simp) ?_ hfound
    intro root hroot files hfiles f hf bytes hbytes m hm
    obtain ⟨-, -, -, -, hname⟩ := exists_named_of_scan hfiles hf
    obtain ⟨hmodule, hpackage⟩ :=
      ModuleName.singleLine_ofPath hname (hsources root hroot files hfiles f hf)
    exact inOneLine_of_mem_marked hm hmodule hpackage
  have hbefore : ∀ d ∈ Diagnostics.ofNotices notices, d.InOneLine := by
    have hnotices : (collect fs config.markersNamespace config.ignoreFile [] roots).1 = notices :=
      congrArg Prod.fst hcollect
    intro d hd
    rw [← hnotices] at hd
    obtain ⟨root, hroot, files, hfiles, f, hf, rfl⟩ := exists_unreadable_of_collect hd
    exact inOneLine_unreadable (hsources root hroot files hfiles f hf)
  obtain ⟨built, added, hdiagnostics, htold⟩ := run_told (nodup_collect hempty hfound) h
  obtain ⟨earlier, later, hmarkers, rfl⟩ := htold.told
  have hentity : ∀ p ∈ built, ∃ x ∈ found, p.1 ∈ x.2 := by
    intro p hp
    exact mem_of_mem_tableEntities (htold.entities ▸ List.mem_map_of_mem hp)
  have hpositions : ∀ p ∈ built, ∀ f ∈ p.1.fields, f.position.isSome := by
    intro p hp
    obtain ⟨x, hx, he⟩ := hentity p hp
    obtain ⟨ctx, body, hfrom⟩ := hread x hx p.1 he
    exact hfrom.bornInOrder.isSome_position
  have hnamed : ∀ p ∈ built, NamedInOneLine p.1 p.2 := by
    intro p hp
    obtain ⟨x, hx, he⟩ := hentity p hp
    exact (htold.made p hp).namedInOneLine (hnames x hx p.1 he) hsuffix hfallback
  have hwarnings : (∀ x ∈ earlier ++ later, (unexpectedWarning x.1).InOneLine) ↔
      ∀ x ∈ found, x.1 ≠ config.tableMarker → SingleLine x.1.toList := by
    simp only [inOneLine_unexpectedWarning, hmarkers, and_imp]
  rw [RoundResult.oneLineEach_iff, hdiagnostics, List.forall_mem_append, and_iff_right hbefore,
    ← hwarnings, List.forall_mem_append, List.forall_mem_append, List.forall_mem_append,
    inOneLine_tableProblems hfallback hpositions hnamed, htold.models, List.forall_mem_map]
  simp only [unexpectedWarnings, List.forall_mem_map]
  tauto

def shelfRoom (bytes : List UInt8) : FileSystem :=
  ⟨.dir [("zoo", .dir [("shelf.py", .file bytes)])], [], []⟩

def shelfFile : SourceFile := ⟨⟨.root, ["zoo", "shelf.py"]⟩, ⟨"zoo.shelf", some "zoo"⟩⟩

theorem oneLineEach_of_shelf :
    ∃ notices found r,
      collect (shelfRoom shelf) "tablegen.markers" ".gitignore" [] [Path.ofText "/"] =
        (notices, .ok found) ∧
      (∀ root ∈ [Path.ofText "/"], ∀ files, scan (shelfRoom shelf) root ".gitignore" = .ok files →
        ∀ f ∈ files, SingleLine f.path.text.toList) ∧
      (Round.run (shelfRoom shelf) {} none (Diagnostics.ofNotices notices) found).result = .ok r ∧
      r.diagnostics.lines = ["error: Shelf.tags: Unsupported field type 'dict[str, int]'"] ∧
      (r.OneLineEach ↔
        (∀ m ∈ r.models, ∀ c ∈ m.columns, c.type = .unsupported →
          SingleLine c.declaredType.toList) ∧
        ∀ x ∈ found, x.1 ≠ "tablegen.markers.table" → SingleLine x.1.toList) := by
  have hlines : (collect (shelfRoom shelf) "tablegen.markers" ".gitignore" []
      [Path.ofText "/"]).2.toOption.map (fun found => (Round.run (shelfRoom shelf) {} none
        (Diagnostics.ofNotices (collect (shelfRoom shelf) "tablegen.markers" ".gitignore" []
          [Path.ofText "/"]).1) found).result.toOption.map (fun r => r.diagnostics.lines)) =
      some (some ["error: Shelf.tags: Unsupported field type 'dict[str, int]'"]) := by
    decide +kernel
  obtain ⟨found, hfound, hrun⟩ := exists_ok_of_map_eq_some hlines
  obtain ⟨r, hresult, hdiagnostics⟩ := exists_ok_of_map_eq_some hrun
  have hscan : (scan (shelfRoom shelf) (Path.ofText "/") ".gitignore").toOption =
      some [shelfFile] := by
    decide +kernel
  have hsources : ∀ root ∈ [Path.ofText "/"], ∀ files,
      scan (shelfRoom shelf) root ".gitignore" = .ok files →
        ∀ f ∈ files, SingleLine f.path.text.toList := by
    rw [List.forall_mem_singleton]
    intro files hfiles f hf
    rw [hfiles] at hscan
    obtain rfl := Option.some.inj hscan
    obtain rfl := List.mem_singleton.mp hf
    decide +kernel
  have hcollect : collect (shelfRoom shelf) ({} : Config).markersNamespace
      ({} : Config).ignoreFile [] [Path.ofText "/"] = (_, .ok found) := Prod.ext rfl hfound
  exact ⟨_, found, r, hcollect, hsources, hresult, hdiagnostics,
    oneLineEach_of_collect hcollect hsources (by decide) (by decide) hresult⟩

def foldedShelf : List UInt8 :=
  Utf8.encode ("from tablegen.markers import table\n\n@table\nclass Shelf:\n" ++
    "    tags: dict[\n        str, int]\n")

theorem two_lines_of_foldedShelf :
    ∃ notices found r,
      collect (shelfRoom foldedShelf) "tablegen.markers" ".gitignore" [] [Path.ofText "/"] =
        (notices, .ok found) ∧
      (Round.run (shelfRoom foldedShelf) {} none (Diagnostics.ofNotices notices) found).result =
        .ok r ∧
      r.diagnostics.lines =
        ["error: Shelf.tags: Unsupported field type 'dict[\n        str, int]'"] ∧
      ¬ r.OneLineEach := by
  have hlines : (collect (shelfRoom foldedShelf) "tablegen.markers" ".gitignore" []
      [Path.ofText "/"]).2.toOption.map (fun found => (Round.run (shelfRoom foldedShelf) {} none
        (Diagnostics.ofNotices (collect (shelfRoom foldedShelf) "tablegen.markers" ".gitignore" []
          [Path.ofText "/"]).1) found).result.toOption.map (fun r => r.diagnostics.lines)) =
      some (some ["error: Shelf.tags: Unsupported field type 'dict[\n        str, int]'"]) := by
    decide +kernel
  obtain ⟨found, hfound, hrun⟩ := exists_ok_of_map_eq_some hlines
  obtain ⟨r, hresult, hdiagnostics⟩ := exists_ok_of_map_eq_some hrun
  refine ⟨_, found, r, Prod.ext rfl hfound, hresult, hdiagnostics, ?_⟩
  intro h
  have hline := h.lines
  rw [hdiagnostics, List.forall_mem_singleton] at hline
  exact absurd hline (by decide +kernel)

end Round

end TypedTables
