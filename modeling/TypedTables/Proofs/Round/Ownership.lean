import TypedTables.Proofs.Round.Completion
import TypedTables.Proofs.Round.Sharing
import TypedTables.Template.Plain

/-!
Who owns the generated files. In a completed round no two files have one place, each entity has all
of its files or none, and one that has none is reported together with those that hold its files.
-/

namespace TypedTables.Round

/-- Generated files of `o`, one of which has the place of a file that `c` would need. -/
def Contribution.Holds (config : Config) (o c : Contribution) : Prop :=
  ∃ f ∈ o.files, f.key ∈ fileKeys config c.model

/-- The account of a completed round: one contribution for each entity, with all the files and
errors that come of it. -/
structure Ledger [OverrideLanguage] (fs : FileSystem) (config : Config) (target : Target)
    (entities : List Entity) (tables : Tables) (problems : Diagnostics) (cs : List Contribution)
    : Prop where
  order : cs.map (fun c => c.entity) = entities
  models : cs.map (fun c => c.model) = tables.models
  built : ∀ c ∈ cs, BuiltFrom fs config (Schema.build entities) c.entity c.model
  files : cs.flatMap (fun c => c.files) = tables.files
  distinct : (tables.files.map GeneratedFile.key).Nodup
  allOrNone : ∀ c ∈ cs, c.files = [] ∨
    List.Forall₂ (Generated config ⟨fs, config.templateDir, []⟩ target c.model) artifacts c.files
  skipped : ∀ before c after, cs = before ++ c :: after →
    (c.files = [] ↔ ∃ o ∈ before, o.Holds config c)
  sorted : ∀ c ∈ cs, c.owners.Pairwise (· < ·)
  owners : ∀ before c after, cs = before ++ c :: after → ∀ owner,
    (owner ∈ c.owners ↔ ∃ o ∈ before, o.Holds config c ∧ o.entity.qualifiedName = owner)
  errors : problems.errors =
    cs.flatMap (fun c => (ownProblems config c.entity c.model).errors) ++
      cs.flatMap Contribution.clashes

theorem Contribution.Complete.holds [OverrideLanguage] {config : Config} {r : Renderer}
    {target : Target} {c : Contribution} (h : c.Complete config r target) (other : Contribution) :
    c.Holds config other ↔ c.toShare.Holds config other.toShare := by
  have hmem : ∀ key, (∃ f ∈ c.files, f.key = key) ↔
      c.owners = [] ∧ key ∈ fileKeys config c.model := by
    intro key
    rw [← List.mem_map, h.keys]
    by_cases hnil : c.owners = [] <;> simp [hnil]
  constructor
  · rintro ⟨f, hf, hkey⟩
    obtain ⟨hnil, hown⟩ := (hmem f.key).mp ⟨f, hf, rfl⟩
    exact ⟨hnil, f.key, hown, hkey⟩
  · rintro ⟨hnil, key, hown, hkey⟩
    obtain ⟨f, hf, rfl⟩ := (hmem key).mpr ⟨hnil, hown⟩
    exact ⟨f, hf, hkey⟩

section Contributions

variable [OverrideLanguage] {config : Config} {r : Renderer} {target : Target}
  {built : List (Entity × EntityModel)} {cs : List Contribution}

theorem keys_of_complete (hcomplete : ∀ c ∈ cs, c.Complete config r target) :
    (cs.flatMap (fun c => c.files)).map GeneratedFile.key =
      takenKeys config (cs.map Contribution.toShare) := by
  rw [List.map_flatMap, takenKeys, List.flatMap_map]
  exact List.flatMap_congr fun c hc => (hcomplete c hc).keys

theorem nodup_keys (hshares : cs.map Contribution.toShare = shares config [] built)
    (hcomplete : ∀ c ∈ cs, c.Complete config r target) :
    ((cs.flatMap (fun c => c.files)).map GeneratedFile.key).Nodup := by
  rw [keys_of_complete hcomplete, hshares]
  exact (takenKeys_shares config [] built).1

theorem mem_owners_iff_holds (hshares : cs.map Contribution.toShare = shares config [] built)
    (hcomplete : ∀ c ∈ cs, c.Complete config r target) {before after : List Contribution}
    {c : Contribution} (hc : cs = before ++ c :: after) (owner : String) :
    owner ∈ c.owners ↔ ∃ o ∈ before, o.Holds config c ∧ o.entity.qualifiedName = owner := by
  have hsplit : shares config [] built =
      before.map Contribution.toShare ++ c.toShare :: after.map Contribution.toShare := by
    rw [← hshares, hc, List.map_append, List.map_cons]
  have hholds : ∀ o ∈ before, (o.Holds config c ↔ o.toShare.Holds config c.toShare) := by
    intro o ho
    exact (hcomplete o (by rw [hc]; exact List.mem_append_left _ ho)).holds c
  rw [mem_owners_shares (Reflects.nil config) hsplit owner, List.nil_append]
  constructor
  · rintro ⟨s, hs, hown, hname⟩
    obtain ⟨o, ho, rfl⟩ := List.mem_map.mp hs
    exact ⟨o, ho, (hholds o ho).mpr hown, hname⟩
  · rintro ⟨o, ho, hown, hname⟩
    exact ⟨o.toShare, List.mem_map_of_mem ho, (hholds o ho).mp hown, hname⟩

theorem files_eq_nil_iff_held (hshares : cs.map Contribution.toShare = shares config [] built)
    (hcomplete : ∀ c ∈ cs, c.Complete config r target) {before after : List Contribution}
    {c : Contribution} (hc : cs = before ++ c :: after) :
    c.files = [] ↔ ∃ o ∈ before, o.Holds config c := by
  have hmem : c ∈ cs := by simp [hc]
  rw [(hcomplete c hmem).files_eq_nil]
  constructor
  · intro hne
    obtain ⟨owner, howner⟩ := List.exists_mem_of_ne_nil _ hne
    obtain ⟨o, ho, hown, -⟩ := (mem_owners_iff_holds hshares hcomplete hc owner).mp howner
    exact ⟨o, ho, hown⟩
  · rintro ⟨o, ho, hown⟩
    exact List.ne_nil_of_mem
      ((mem_owners_iff_holds hshares hcomplete hc _).mpr ⟨o, ho, hown, rfl⟩)

end Contributions

/-- A completed round accounts for every file and every error. -/
theorem files_owned [OverrideLanguage] {fs : FileSystem} {config : Config} {target : Target}
    {entities : List Entity} {tables : Tables}
    (h : (generateTables fs config target entities).result = .ok tables) :
    ∃ cs, Ledger fs config target entities tables
      (Diagnostics.ofNotices (generateTables fs config target entities).notices) cs := by
  obtain ⟨built, cs, hmade⟩ := madeOf_ok h
  have hpairs := hmade.pairs
  have htables := hmade.tables
  subst htables
  refine ⟨cs, ?_⟩
  constructor
  case order =>
    rw [← hmade.order, ← hpairs, List.map_map]
    rfl
  case models =>
    rw [← hpairs, List.map_map]
    rfl
  case built =>
    intro c hc
    exact hmade.models (c.entity, c.model) (hpairs ▸ List.mem_map_of_mem hc)
  case files => rfl
  case distinct => exact nodup_keys hmade.shares hmade.complete
  case allOrNone =>
    intro c hc
    by_cases hnil : c.owners = []
    · exact .inr ((hmade.complete c hc).kept hnil)
    · exact .inl ((hmade.complete c hc).skipped hnil)
  case skipped =>
    intro before c after hc
    exact files_eq_nil_iff_held hmade.shares hmade.complete hc
  case sorted =>
    intro c hc
    exact pairwise_owners_shares (hmade.shares ▸ List.mem_map_of_mem hc)
  case owners =>
    intro before c after hc owner
    exact mem_owners_iff_holds hmade.shares hmade.complete hc owner
  case errors =>
    rw [hmade.errors, ← hpairs, List.flatMap_map]

/-- A shop in which the second entity needs all files of the first and the third one of them. The
last one needs a file of the third, which does not get it. -/
def shop : List Entity :=
  let entity (name : String) : Entity :=
    ⟨"zoo.shop." ++ name, name, [⟨.moduleScope, "zoo.shop"⟩, ⟨.packageScope, "zoo"⟩], [], none⟩
  ["Item", "item", "ItemTable", "ItemTableView"].map entity

theorem files_of_shop :
    ∃ tables, (generateTables ⟨.empty, [], []⟩ {} none shop).result = .ok tables ∧
      tables.files.map GeneratedFile.fileName =
        ["ItemTable.py", "Item.py", "ItemView.py", "ItemQuery.py", "ItemTableViewTable.py",
          "ItemTableView.py", "ItemTableViewView.py", "ItemTableViewQuery.py"] ∧
      ∃ cs, Ledger ⟨.empty, [], []⟩ {} none shop tables
        (Diagnostics.ofNotices (generateTables ⟨.empty, [], []⟩ {} none shop).notices) cs := by
  have hnames : (generateTables ⟨.empty, [], []⟩ {} none shop).result.toOption.map
      (fun tables => tables.files.map GeneratedFile.fileName) =
        some ["ItemTable.py", "Item.py", "ItemView.py", "ItemQuery.py", "ItemTableViewTable.py",
          "ItemTableView.py", "ItemTableViewView.py", "ItemTableViewQuery.py"] := by
    decide +kernel
  obtain ⟨tables, hresult, hfiles⟩ := exists_ok_of_map_eq_some hnames
  exact ⟨tables, hresult, hfiles, files_owned hresult⟩

end TypedTables.Round
