import TypedTables.Config.File
import TypedTables.Proofs.Spelling
import TypedTables.Proofs.Template.Lines

namespace TypedTables

open Text

def IsDotted (name : String) : Prop :=
  ∃ parts, parts ≠ [] ∧ (∀ part ∈ parts, IsIdentifier part) ∧ name = dotted parts

theorem isDotted_iff (name : String) :
    (∀ part ∈ components name, IsIdentifier part) ↔ IsDotted name := by
  constructor
  · intro h
    exact ⟨components name, components_ne_nil name, h, (dotted_components name).symm⟩
  · rintro ⟨parts, hne, hparts, rfl⟩
    rwa [components_dotted hne fun part hpart => (hparts part hpart).isComponent]

instance (name : String) : Decidable (IsDotted name) :=
  decidable_of_iff _ (isDotted_iff name)

theorem IsDotted.append {name rest : String} (hname : IsDotted name) (hrest : IsDotted rest) :
    IsDotted (name ++ ("." ++ rest)) := by
  obtain ⟨parts, hne, hparts, rfl⟩ := hname
  obtain ⟨more, hmore, hothers, rfl⟩ := hrest
  refine ⟨parts ++ more, List.append_ne_nil_of_left_ne_nil hne more,
    List.forall_mem_append.mpr ⟨hparts, hothers⟩, ?_⟩
  rw [dotted_append hne hmore, String.append_assoc]

theorem mem_of_mem_joinWith {sep c : Char} {parts : List (List Char)}
    (h : c ∈ joinWith sep parts) : c = sep ∨ ∃ part ∈ parts, c ∈ part := by
  cases parts with
  | nil => cases h
  | cons part parts =>
      rw [joinWith_cons, List.mem_append, List.mem_flatMap] at h
      rcases h with hpart | ⟨other, hother, hc⟩
      · exact .inr ⟨part, List.mem_cons_self, hpart⟩
      · exact (List.mem_cons.mp hc).imp id fun hmem =>
          ⟨other, List.mem_cons_of_mem part hother, hmem⟩

theorem IsDotted.chars {name : String} (h : IsDotted name) {c : Char} (hc : c ∈ name.toList) :
    c = '.' ∨ isWord c = true := by
  obtain ⟨parts, -, hparts, rfl⟩ := h
  rw [dotted, String.toList_ofList] at hc
  refine (mem_of_mem_joinWith hc).imp id ?_
  rintro ⟨_, htext, hmem⟩
  obtain ⟨part, hpart, rfl⟩ := List.mem_map.mp htext
  exact (hparts part hpart).continues c hmem

theorem IsDotted.noLineFeed {name : String} (h : IsDotted name) : '\n' ∉ name.toList := by
  intro hmem
  exact absurd (h.chars hmem) (by decide)

theorem IsDotted.noSlash {name : String} (h : IsDotted name) : '/' ∉ name.toList := by
  intro hmem
  exact absurd (h.chars hmem) (by decide)

def IsSuffix (text : String) : Prop :=
  ∃ name, IsDotted name ∧ text = "." ++ name

abbrev EndsInLineFeed (text : String) : Prop :=
  text.toList.getLast? = some '\n'

def chomp (text : String) : String :=
  String.ofList (Config.withoutLastLineFeed text.toList)

theorem chomp_of_not {text : String} (h : ¬ EndsInLineFeed text) : chomp text = text := by
  rw [chomp, Config.withoutLastLineFeed, if_neg h, String.ofList_toList]

theorem eq_chomp_append {text : String} (h : EndsInLineFeed text) : text = chomp text ++ "\n" := by
  obtain ⟨front, hfront⟩ := List.getLast?_eq_some_iff.mp h
  apply String.toList_inj.mp
  simp [chomp, Config.withoutLastLineFeed, hfront]

theorem chomp_append {front : String} (h : ¬ EndsInLineFeed front) (rest : String) :
    chomp (front ++ rest) = front ++ chomp rest := by
  by_cases hrest : rest = ""
  · subst hrest
    rw [String.append_empty, chomp_of_not h, chomp_of_not (by decide), String.append_empty]
  · have hne : rest.toList ≠ [] := mt String.toList_eq_nil_iff.mp hrest
    have hlast : EndsInLineFeed (front ++ rest) ↔ EndsInLineFeed rest := by
      rw [EndsInLineFeed, String.toList_append, List.getLast?_append_of_ne_nil _ hne]
    by_cases hfeed : EndsInLineFeed rest
    · apply String.toList_inj.mp
      simp [chomp, Config.withoutLastLineFeed, hfeed, List.dropLast_append_of_ne_nil hne]
    · rw [chomp_of_not hfeed, chomp_of_not (mt hlast.mp hfeed)]

theorem not_mem_of_chomp {text : String} {c : Char} (hc : c ≠ '\n')
    (h : c ∉ (chomp text).toList) : c ∉ text.toList := by
  by_cases hlast : EndsInLineFeed text
  · rw [eq_chomp_append hlast, String.toList_append, List.mem_append]
    exact not_or.mpr ⟨h, by simpa using hc⟩
  · rwa [chomp_of_not hlast] at h

theorem not_endsInLineFeed_of_not_mem {text : String} (h : '\n' ∉ text.toList) :
    ¬ EndsInLineFeed text :=
  fun hlast => h (List.mem_of_getLast? hlast)

theorem isDotted_iff_of_chomp {text : String} (h : IsDotted (chomp text)) :
    IsDotted text ↔ ¬ EndsInLineFeed text := by
  constructor
  · intro htext
    exact not_endsInLineFeed_of_not_mem htext.noLineFeed
  · intro hlast
    rwa [chomp_of_not hlast] at h

namespace Checked

variable {α β : Type} {value : Checked α} {a : α}

theorem and_eq_ok {other : Checked β} {b : β} :
    value.and other = .ok (a, b) ↔ value = .ok a ∧ other = .ok b := by
  cases value <;> cases other <;> simp [Checked.and]

theorem map_eq_ok {f : α → β} {b : β} :
    Except.map f value = .ok b ↔ ∃ a, value = .ok a ∧ f a = b := by
  cases value <;> simp [Except.map]

theorem ensure_eq_ok {test : α → Bool} {reason : α → String} :
    value.ensure test reason = .ok a ↔ value = .ok a ∧ test a = true := by
  cases value with
  | error es => simp [Checked.ensure, Except.bind]
  | ok b =>
      simp only [Checked.ensure, Except.bind]
      split
      · rename_i hb
        exact ⟨fun h => ⟨h, Except.ok.inj h ▸ hb⟩, And.left⟩
      · rename_i hb
        refine ⟨nofun, ?_⟩
        rintro ⟨h, ha⟩
        exact absurd (Except.ok.inj h ▸ ha) hb

end Checked

namespace Config

theorem isIdentifier_iff (cs : List Char) :
    isIdentifier cs = true ↔ IsIdentifier (String.ofList cs) := by
  rw [← TypedTables.isIdentifier_iff, String.toList_ofList]
  cases cs with
  | nil => simp [isIdentifier]
  | cons c cs =>
      simp only [isIdentifier, List.head?_cons, Option.any_some, List.all_cons, Bool.and_eq_true]
      exact ⟨fun h => ⟨h.1, isWord_of_isNameStart h.1, h.2⟩, fun h => ⟨h.1, h.2.2⟩⟩

theorem isDottedName_iff (text : String) :
    isDottedName text.toList = true ↔ IsDotted (chomp text) := by
  rw [← isDotted_iff, components, chomp, String.toList_ofList, isDottedName, List.all_eq_true]
  simp only [isIdentifier_iff, List.forall_mem_map]

theorem field_ok {α : Type} {d : Data} {key : String} {default a : α} {read : Data → Checked α}
    (h : field d key default read = .ok a) : a = default ∨ ∃ value, read value = .ok a := by
  rw [field] at h
  split at h
  · exact .inl (Except.ok.inj h).symm
  · rename_i value _
    cases hread : read value with
    | error es => simp [hread, Checked.inside, Except.mapError] at h
    | ok b =>
        rw [hread] at h
        exact .inr ⟨value, hread.trans h⟩

theorem forall_field {α : Type} (P : α → Prop) {d : Data} {key : String} {default a : α}
    {read : Data → Checked α} (hdefault : P default)
    (hread : ∀ value a, read value = .ok a → P a) (h : field d key default read = .ok a) : P a := by
  rcases field_ok h with rfl | ⟨value, hvalue⟩
  · exact hdefault
  · exact hread value a hvalue

/-- What is promised of a configuration. -/
structure WellFormed (c : Config) : Prop where
  suffix : IsSuffix c.packageSuffix
  fallback : IsDotted c.defaultPackage
  markers : IsDotted c.markersNamespace
  table : IsDotted c.tableMarker
  inside : (c.markersNamespace ++ ".").toList <+: c.tableMarker.toList
  extension : isExtension c.fileExtension = true
  roots : c.sourceRoots ≠ []
  debounce : 50 ≤ c.watch.debounceMs ∧ c.watch.debounceMs ≤ 60000

def chomped (c : Config) : Config :=
  { c with
    packageSuffix := chomp c.packageSuffix
    defaultPackage := chomp c.defaultPackage
    tableMarker := chomp c.tableMarker }

structure Admitted (c : Config) : Prop where
  suffix : isSuffix c.packageSuffix = true
  fallback : isDottedName c.defaultPackage.toList = true
  markers : isDottedName c.markersNamespace.toList = true
  table : isDottedName c.tableMarker.toList = true
  inside : markersFit c = true
  extension : isExtension c.fileExtension = true
  roots : c.sourceRoots ≠ []
  debounce : 50 ≤ c.watch.debounceMs ∧ c.watch.debounceMs ≤ 60000

theorem readBetween_ok {low high n : Int} {d : Data} (h : readBetween low high d = .ok n) :
    low ≤ n ∧ n ≤ high := by
  rw [readBetween] at h
  cases hread : readInteger d with
  | error es => simp [hread, Except.bind] at h
  | ok m =>
      simp only [hread, Except.bind] at h
      split at h
      · cases h
      · split at h
        · cases h
        · obtain rfl := Except.ok.inj h
          omega

theorem readModel_ok {α : Type} {name : String} {read : Data → Checked α} {d : Data} {a : α}
    (h : readModel name read d = .ok a) : read d = .ok a := by
  rw [readModel.eq_def] at h
  split at h
  · exact h
  · cases h

theorem readWatch_ok {d : Data} {watch : WatchConfig} (h : readWatch d = .ok watch) :
    50 ≤ watch.debounceMs ∧ watch.debounceMs ≤ 60000 := by
  obtain ⟨n, hfield, rfl⟩ := Checked.map_eq_ok.mp h
  exact forall_field (fun n => 50 ≤ n ∧ n ≤ 60000) (by decide) (fun _ _ => readBetween_ok) hfield

theorem admitted_of_readFields {d : Data} {c : Config} (h : readFields d = .ok c)
    (hinside : markersFit c = true) : c.Admitted := by
  simp only [readFields, Checked.map_eq_ok, Prod.exists, Checked.and_eq_ok] at h
  obtain ⟨roots, output, markers, table, suffix, package, extension, templates, ignore, fail,
    logging, watch, hall, rfl⟩ := h
  obtain ⟨⟨⟨⟨⟨⟨⟨⟨⟨⟨⟨hroots, -⟩, hmarkers⟩, htable⟩, hsuffix⟩, hpackage⟩, hextension⟩, -⟩, -⟩, -⟩,
    -⟩, hwatch⟩ := hall
  have hdotted : ∀ value name, readDotted value = .ok name → isDottedName name.toList = true :=
    fun value name hvalue => (Checked.ensure_eq_ok.mp hvalue).2
  constructor
  case suffix =>
    exact forall_field (isSuffix · = true) (by decide)
      (fun _ _ hvalue => (Checked.ensure_eq_ok.mp hvalue).2) hsuffix
  case fallback => exact forall_field (isDottedName ·.toList = true) (by decide) hdotted hpackage
  case markers => exact forall_field (isDottedName ·.toList = true) (by decide) hdotted hmarkers
  case table => exact forall_field (isDottedName ·.toList = true) (by decide) hdotted htable
  case inside => exact hinside
  case extension =>
    exact forall_field (isExtension · = true) (by decide)
      (fun _ _ hvalue => (Checked.ensure_eq_ok.mp hvalue).2) hextension
  case roots =>
    refine forall_field (· ≠ []) (by decide) (fun _ _ hvalue => ?_) hroots
    simpa using (Checked.ensure_eq_ok.mp hvalue).2
  case debounce =>
    exact forall_field (fun w => 50 ≤ w.debounceMs ∧ w.debounceMs ≤ 60000) (by decide)
      (fun _ _ hvalue => readWatch_ok (readModel_ok hvalue)) hwatch

theorem admitted_of_ofData {d : Data} {c : Config} (h : ofData d = .ok c) : c.Admitted := by
  obtain ⟨hfields, hinside⟩ := Checked.ensure_eq_ok.mp h
  exact admitted_of_readFields (readModel_ok hfields) hinside

theorem eq_ok_of_mapError {ε ε' α : Type} {f : ε → ε'} {result : Except ε α} {a : α}
    (h : result.mapError f = .ok a) : result = .ok a := by
  cases result with
  | error e => cases h
  | ok b =>
      obtain rfl := Except.ok.inj h
      rfl

theorem exists_data_of_ofFile {fs : FileSystem} {path : Path} {c : Config}
    (h : ofFile fs path = .ok c) : ∃ d, ofData d = .ok c := by
  rw [ofFile] at h
  split at h
  · obtain ⟨bytes, -, h⟩ := Except.exists_of_bind_eq_ok h
    obtain ⟨text, -, h⟩ := Except.exists_of_bind_eq_ok h
    obtain ⟨d, -, h⟩ := Except.exists_of_bind_eq_ok h
    split at h
    · exact ⟨d, eq_ok_of_mapError h⟩
    · cases h
  · cases h

/-- A configuration that can be had: from plain data, from a file, or from the file that is named
explicitly or by the environment, if any. -/
inductive Accepted (c : Config) : Prop
  | data (d : Data) (h : ofData d = .ok c)
  | file (fs : FileSystem) (path : Path) (h : ofFile fs path = .ok c)
  | load (fs : FileSystem) (explicit environment : Option String)
      (h : load fs explicit environment = .ok c)

theorem ofData_empty : ofData (.map []) = .ok {} := by
  decide +kernel

theorem Accepted.exists_data {c : Config} (h : c.Accepted) : ∃ d, ofData d = .ok c := by
  cases h with
  | data d h => exact ⟨d, h⟩
  | file fs path h => exact exists_data_of_ofFile h
  | load fs explicit environment h =>
      rw [Config.load] at h
      split at h
      · rw [ofEnvironment] at h
        split at h
        · exact exists_data_of_ofFile h
        · split at h
          · exact exists_data_of_ofFile h
          · obtain rfl := Except.ok.inj h
            exact ⟨.map [], ofData_empty⟩
      · exact exists_data_of_ofFile h

theorem Accepted.admitted {c : Config} (h : c.Accepted) : c.Admitted := by
  obtain ⟨d, hd⟩ := h.exists_data
  exact admitted_of_ofData hd

theorem isSuffix_chomp {text : String} (h : isSuffix text = true) : IsSuffix (chomp text) := by
  rw [isSuffix.eq_def] at h
  split at h
  · rename_i cs hcs
    have hname := (isDottedName_iff (String.ofList cs)).mp (by rwa [String.toList_ofList])
    have htext : text = "." ++ String.ofList cs := by
      apply String.toList_inj.mp
      simpa using hcs
    exact ⟨chomp (String.ofList cs), hname, by rw [htext, chomp_append (by decide)]⟩
  · cases h

theorem Admitted.wellFormed_chomped {c : Config} (h : c.Admitted) : c.chomped.WellFormed := by
  have htable : IsDotted (chomp c.tableMarker) := (isDottedName_iff _).mp h.table
  have hinside : (c.markersNamespace ++ ".").toList <+: (chomp c.tableMarker).toList := by
    obtain ⟨rest, hrest⟩ := List.isPrefixOf_iff_prefix.mp h.inside
    have heq : c.tableMarker = c.markersNamespace ++ "." ++ String.ofList rest := by
      apply String.toList_inj.mp
      simp [← hrest]
    rw [heq, chomp_append (by simp)]
    exact ⟨(chomp (String.ofList rest)).toList, String.toList_append.symm⟩
  have hmarkers : ¬ EndsInLineFeed c.markersNamespace := by
    intro hlast
    refine htable.noLineFeed (hinside.subset ?_)
    rw [String.toList_append]
    exact List.mem_append_left _ (List.mem_of_getLast? hlast)
  constructor
  case suffix => exact isSuffix_chomp h.suffix
  case fallback => exact (isDottedName_iff _).mp h.fallback
  case markers => exact (isDotted_iff_of_chomp ((isDottedName_iff _).mp h.markers)).mpr hmarkers
  case table => exact htable
  case inside => exact hinside
  case extension => exact h.extension
  case roots => exact h.roots
  case debounce => exact h.debounce

theorem isSuffix_iff_of_chomp {text : String} (h : IsSuffix (chomp text)) :
    IsSuffix text ↔ ¬ EndsInLineFeed text := by
  constructor
  · rintro ⟨name, hname, rfl⟩
    refine not_endsInLineFeed_of_not_mem ?_
    simpa using hname.noLineFeed
  · intro hlast
    rwa [chomp_of_not hlast] at h

theorem isDotted_chomp_targetPackage {c : Config} (h : c.chomped.WellFormed) {e : Entity}
    (he : ∀ package, e.package? = some package → IsDotted package) :
    IsDotted (chomp (e.targetPackage c.packageRule).1) := by
  rw [Entity.targetPackage]
  cases hpackage : e.package? with
  | none => exact h.fallback
  | some package =>
      have hdotted := he package hpackage
      obtain ⟨name, hname, hsuffix⟩ := h.suffix
      have hsuffix : chomp c.packageSuffix = "." ++ name := hsuffix
      change IsDotted (chomp (package ++ c.packageSuffix))
      rw [chomp_append (not_endsInLineFeed_of_not_mem hdotted.noLineFeed), hsuffix]
      exact hdotted.append hname

/-- An accepted configuration keeps its promises, except that its suffix, its default package and
its table marker may each have a line feed at their end. -/
theorem wellFormed_of_accepted {c : Config} (h : c.Accepted) :
    c.chomped.WellFormed ∧
      (c.WellFormed ↔
        ∀ text ∈ [c.packageSuffix, c.defaultPackage, c.tableMarker], ¬ EndsInLineFeed text) ∧
      ∀ e : Entity, (∀ package, e.package? = some package → IsDotted package) →
        IsDotted (chomp (e.targetPackage c.packageRule).1) ∧
          (IsDotted (e.targetPackage c.packageRule).1 ↔
            ¬ EndsInLineFeed (e.targetPackage c.packageRule).1) := by
  have hchomped := h.admitted.wellFormed_chomped
  refine ⟨hchomped, ⟨?_, ?_⟩, ?_⟩
  · intro hwell
    simp only [List.forall_mem_cons]
    exact ⟨(isSuffix_iff_of_chomp hchomped.suffix).mp hwell.suffix,
      (isDotted_iff_of_chomp hchomped.fallback).mp hwell.fallback,
      (isDotted_iff_of_chomp hchomped.table).mp hwell.table, nofun⟩
  · intro hlast
    simp only [List.forall_mem_cons] at hlast
    have hsame : c.chomped = c := by
      rw [chomped, chomp_of_not hlast.1, chomp_of_not hlast.2.1, chomp_of_not hlast.2.2.1]
    rwa [hsame] at hchomped
  · intro e he
    have hpackage := isDotted_chomp_targetPackage hchomped he
    exact ⟨hpackage, isDotted_iff_of_chomp hpackage⟩

def tidyFiles : FileSystem :=
  ⟨.dir [("tablegen.yaml", .file (Utf8.encode "package_suffix: .tables\ndefault_package: zoo\n"))],
    [], []⟩

def tidyConfig : Config := { packageSuffix := ".tables", defaultPackage := "zoo" }

theorem wellFormed_tidyConfig :
    load tidyFiles none none = .ok tidyConfig ∧ tidyConfig.WellFormed := by
  have hload : load tidyFiles none none = .ok tidyConfig := by decide +kernel
  exact ⟨hload, (wellFormed_of_accepted (.load tidyFiles none none hload)).2.1.mpr (by decide)⟩

theorem accepted_line_feed :
    ofData (.map [("package_suffix", .text ".generated\n")]) =
        .ok { packageSuffix := ".generated\n" } ∧
      ¬ ({ packageSuffix := ".generated\n" } : Config).WellFormed := by
  refine ⟨by decide +kernel, ?_⟩
  intro hwell
  have hchomp : IsSuffix (chomp ".generated\n") := ⟨"generated", by decide, by decide +kernel⟩
  exact (isSuffix_iff_of_chomp hchomp).mp hwell.suffix (by decide)

end Config

end TypedTables
