import TypedTables.Proofs.RowMethods
import TypedTables.Proofs.Round.DistinctMembers

namespace TypedTables.Round

/-- Each method that sets a row has parameters of different names, and its body reads the name of
a parameter for something else only where it is the name of the class. -/
theorem rowMethods_of_run [OverrideLanguage] {fs : FileSystem} {config : Config} {target : Target}
    {before : Diagnostics} {markers : List (String × List Entity)} {r : RoundResult}
    (hkeys : (markers.map Prod.fst).Nodup)
    (hnamed : ∀ e ∈ tableEntities config markers, e.WellNamed)
    (h : (Round.run fs config target before markers).result = .ok r) (hok : r.failed = false)
    (hnone : Unoverridden (Round.run fs config target before markers).fs config) :
    ∀ m ∈ r.models, m.RowMethods := by
  obtain ⟨hstart, -⟩ := run_standard hkeys h hnone
  intro m hm
  obtain ⟨hregular, hmethods⟩ := run_regular hkeys hnamed h hok hstart m hm
  exact hregular.rowMethods hmethods

def furryDogs : List (String × List Entity) :=
  dogs [("dog", "int"), ("photo", "bytes"), ("tag", "object")]

theorem rowMethods_of_furryDogs :
    ∃ r, (Round.run ⟨.empty, [], []⟩ {} none [] furryDogs).result = .ok r ∧ r.failed = false ∧
      r.models.map EntityModel.entity = ["Dog"] ∧ ∀ m ∈ r.models, m.RowMethods := by
  have hrun : (Round.run ⟨.empty, [], []⟩ {} none [] furryDogs).result.toOption.map
      (fun r => (r.failed, r.models.map EntityModel.entity)) = some (false, ["Dog"]) := by
    decide +kernel
  obtain ⟨r, hresult, hr⟩ := exists_ok_of_map_eq_some hrun
  obtain ⟨hok, hmodels⟩ := Prod.mk.inj hr
  exact ⟨r, hresult, hok, hmodels,
    rowMethods_of_run (by decide) (by decide) hresult hok (by decide)⟩

def namesakeDogs : List (String × List Entity) := dogs [("Dog", "int")]

/-- The method that adds a dog would call the number that it takes. -/
theorem class_captured :
    (∀ e ∈ tableEntities {} namesakeDogs, e.WellNamed) ∧
      Unoverridden (Round.run ⟨.empty, [], []⟩ {} none [] namesakeDogs).fs {} ∧
      ∃ r, (Round.run ⟨.empty, [], []⟩ {} none [] namesakeDogs).result = .ok r ∧
        r.diagnostics = [] ∧ ∃ m ∈ r.models, m.entity = "Dog" ∧
          parametersOf m.addMethod = ["self", "Dog"] ∧
          namesRead m.addMethod =
            ["_row", "self", "self", "_row", "Dog", "Dog", "self", "_row"] := by
  have hrun : (Round.run ⟨.empty, [], []⟩ {} none [] namesakeDogs).result.toOption.map
      (fun r => (r.diagnostics.map Diagnostic.line,
        r.models.map (fun m => [[m.entity], parametersOf m.addMethod, namesRead m.addMethod]))) =
      some ([], [[["Dog"], ["self", "Dog"],
        ["_row", "self", "self", "_row", "Dog", "Dog", "self", "_row"]]]) := by
    decide +kernel
  obtain ⟨r, hresult, hr⟩ := exists_ok_of_map_eq_some hrun
  obtain ⟨hlines, hmodels⟩ := Prod.mk.inj hr
  obtain ⟨m, hm, hentity, hparameters, hnames⟩ :
      ∃ m ∈ r.models, m.entity = "Dog" ∧ parametersOf m.addMethod = ["self", "Dog"] ∧
        namesRead m.addMethod = ["_row", "self", "self", "_row", "Dog", "Dog", "self", "_row"] := by
    obtain ⟨m, hm, hlists⟩ := List.mem_map.mp (hmodels ▸ List.mem_singleton_self _)
    simp only [List.cons.injEq, and_true] at hlists
    exact ⟨m, hm, hlists⟩
  exact ⟨by decide, by decide, r, hresult, List.map_eq_nil_iff.mp hlines, m, hm,
    hentity, hparameters, hnames⟩

end TypedTables.Round
