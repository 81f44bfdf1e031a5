import TypedTables.Proofs.Keyed
import TypedTables.Proofs.Round.Plan
import TypedTables.Proofs.Sorted

/-!
Who gets which files. The claims of a round are the files of the entities that got theirs; hence an
entity is held up by exactly those of them that have one of its files.
-/

namespace TypedTables.Round

theorem mem_owners {claims : Claims} {keys : List (String × String)} {owner : String} :
    owner ∈ owners claims keys ↔ ∃ key ∈ keys, claims.lookup key = some owner := by
  rw [owners, mem_sortedSet, List.mem_filterMap]

theorem owners_eq_nil {claims : Claims} {keys : List (String × String)} :
    owners claims keys = [] ↔ ∀ key ∈ keys, claims.lookup key = none := by
  rw [List.eq_nil_iff_forall_not_mem]
  constructor
  · intro h key hkey
    cases hlook : claims.lookup key with
    | none => rfl
    | some owner => exact absurd (mem_owners.mpr ⟨key, hkey, hlook⟩) (h owner)
  · intro h owner hmem
    obtain ⟨key, hkey, hlook⟩ := mem_owners.mp hmem
    simp [h key hkey] at hlook

theorem lookup_claim (claims : Claims) (keys : List (String × String)) (owner : String)
    (key : String × String) :
    (claim claims keys owner).lookup key =
      if key ∈ keys then some owner else claims.lookup key :=
  Keyed.lookup_foldl_constant keys owner claims key

theorem nodup_fileKeys (config : Config) (m : EntityModel) : (fileKeys config m).Nodup := by
  have hsuffixes : (artifacts.map Artifact.suffix).Nodup := by decide
  have hinj : Function.Injective
      (fun suffix => (m.package, m.entity ++ suffix ++ config.fileExtension)) := by
    intro s t h
    have hnames := congrArg String.toList (congrArg Prod.snd h)
    simp only [String.toList_append, List.append_cancel_right_eq,
      List.append_cancel_left_eq] at hnames
    exact String.toList_inj.mp hnames
  have hmap := hsuffixes.map hinj
  rwa [List.map_map] at hmap

/-- A share whose entity got its files, one of which the other share's entity would need. -/
def Share.Holds (config : Config) (s other : Share) : Prop :=
  s.owners = [] ∧ ∃ key ∈ fileKeys config s.model, key ∈ fileKeys config other.model

/-- Claims that record the files of all entities that got theirs, and nothing else. -/
def Reflects (config : Config) (claims : Claims) (earlier : List Share) : Prop :=
  ∀ key owner, claims.lookup key = some owner ↔
    ∃ s ∈ earlier, s.owners = [] ∧ key ∈ fileKeys config s.model ∧ s.entity.qualifiedName = owner

theorem Reflects.nil (config : Config) : Reflects config [] [] := by
  intro key owner
  simp

theorem Reflects.take {config : Config} {claims : Claims} {earlier : List Share}
    (h : Reflects config claims earlier) {e : Entity} {m : EntityModel}
    (hfree : owners claims (fileKeys config m) = []) :
    Reflects config (claim claims (fileKeys config m) e.qualifiedName)
      (earlier ++ [⟨e, m, []⟩]) := by
  intro key owner
  rw [lookup_claim]
  by_cases hkey : key ∈ fileKeys config m
  · -- no earlier share has the key, so the new claim takes nothing away
    have hnew : ∀ s ∈ earlier, s.owners = [] → key ∉ fileKeys config s.model := by
      intro s hs hkept hmem
      have hlook := (h key s.entity.qualifiedName).mpr ⟨s, hs, hkept, hmem, rfl⟩
      rw [owners_eq_nil.mp hfree key hkey] at hlook
      exact absurd hlook (by simp)
    rw [if_pos hkey]
    constructor
    · intro hsome
      exact ⟨⟨e, m, []⟩, by simp, rfl, hkey, Option.some.inj hsome⟩
    · rintro ⟨s, hs, hkept, hmem, rfl⟩
      rcases List.mem_append.mp hs with hs | hs
      · exact absurd hmem (hnew s hs hkept)
      · obtain rfl : s = ⟨e, m, []⟩ := by simpa using hs
        rfl
  · rw [if_neg hkey, h key owner]
    constructor
    · rintro ⟨s, hs, hrest⟩
      exact ⟨s, List.mem_append_left _ hs, hrest⟩
    · rintro ⟨s, hs, hkept, hmem, howner⟩
      rcases List.mem_append.mp hs with hs | hs
      · exact ⟨s, hs, hkept, hmem, howner⟩
      · obtain rfl : s = ⟨e, m, []⟩ := by simpa using hs
        exact absurd hmem hkey

theorem Reflects.pass {config : Config} {claims : Claims} {earlier : List Share}
    (h : Reflects config claims earlier) {s : Share} (hs : s.owners ≠ []) :
    Reflects config claims (earlier ++ [s]) := by
  intro key owner
  rw [h key owner]
  constructor
  · rintro ⟨o, ho, hrest⟩
    exact ⟨o, List.mem_append_left _ ho, hrest⟩
  · rintro ⟨o, ho, hkept, hrest⟩
    rcases List.mem_append.mp ho with ho | ho
    · exact ⟨o, ho, hkept, hrest⟩
    · obtain rfl : o = s := by simpa using ho
      exact absurd hkept hs

theorem Reflects.mem_owners {config : Config} {claims : Claims} {earlier : List Share}
    (h : Reflects config claims earlier) (e : Entity) (m : EntityModel) (owner : String) :
    owner ∈ owners claims (fileKeys config m) ↔
      ∃ s ∈ earlier, s.Holds config ⟨e, m, owners claims (fileKeys config m)⟩ ∧
        s.entity.qualifiedName = owner := by
  rw [Round.mem_owners]
  constructor
  · rintro ⟨key, hkey, hlook⟩
    obtain ⟨s, hs, hkept, hmem, howner⟩ := (h key owner).mp hlook
    exact ⟨s, hs, ⟨hkept, key, hmem, hkey⟩, howner⟩
  · rintro ⟨s, hs, ⟨hkept, key, hmem, hkey⟩, howner⟩
    exact ⟨key, hkey, (h key owner).mpr ⟨s, hs, hkept, hmem, howner⟩⟩

theorem mem_owners_shares {config : Config} {claims : Claims} {earlier : List Share}
    (h : Reflects config claims earlier) {built : List (Entity × EntityModel)}
    {before after : List Share} {s : Share}
    (hs : shares config claims built = before ++ s :: after) (owner : String) :
    owner ∈ s.owners ↔
      ∃ o ∈ earlier ++ before, o.Holds config s ∧ o.entity.qualifiedName = owner := by
  induction built generalizing claims earlier before with
  | nil => simp [shares] at hs
  | cons p built ih =>
      obtain ⟨e, m⟩ := p
      simp only [shares] at hs
      cases before with
      | nil =>
          obtain ⟨rfl, -⟩ := List.cons.inj hs
          simpa using h.mem_owners e m owner
      | cons first before =>
          obtain ⟨rfl, hrest⟩ := List.cons.inj hs
          rw [List.append_cons]
          by_cases hfree : owners claims (fileKeys config m) = []
          · rw [if_pos hfree] at hrest
            rw [hfree]
            exact ih (h.take hfree) hrest
          · rw [if_neg hfree] at hrest
            exact ih (h.pass hfree) hrest

theorem pairwise_owners_shares {config : Config} {claims : Claims}
    {built : List (Entity × EntityModel)} {s : Share} (hs : s ∈ shares config claims built) :
    s.owners.Pairwise (· < ·) := by
  induction built generalizing claims with
  | nil => simp [shares] at hs
  | cons p built ih =>
      obtain ⟨e, m⟩ := p
      rcases List.mem_cons.mp hs with rfl | hs
      · exact pairwise_sortedSet _
      · exact ih hs

def takenKeys (config : Config) (ss : List Share) : List (String × String) :=
  ss.flatMap (fun s => if s.owners = [] then fileKeys config s.model else [])

theorem takenKeys_shares (config : Config) (claims : Claims)
    (built : List (Entity × EntityModel)) :
    (takenKeys config (shares config claims built)).Nodup ∧
      ∀ key ∈ takenKeys config (shares config claims built), claims.lookup key = none := by
  induction built generalizing claims with
  | nil => simp [shares, takenKeys]
  | cons p built ih =>
      obtain ⟨e, m⟩ := p
      by_cases hfree : owners claims (fileKeys config m) = []
      · obtain ⟨hnodup, hunclaimed⟩ := ih (claim claims (fileKeys config m) e.qualifiedName)
        have hcons : takenKeys config (shares config claims ((e, m) :: built)) =
            fileKeys config m ++ takenKeys config
              (shares config (claim claims (fileKeys config m) e.qualifiedName) built) := by
          simp [shares, takenKeys, hfree]
        have hnew : ∀ key ∈ takenKeys config
            (shares config (claim claims (fileKeys config m) e.qualifiedName) built),
            key ∉ fileKeys config m ∧ claims.lookup key = none := by
          intro key hkey
          have hlook := hunclaimed key hkey
          rw [lookup_claim] at hlook
          by_cases hmem : key ∈ fileKeys config m
          · simp [hmem] at hlook
          · rw [if_neg hmem] at hlook
            exact ⟨hmem, hlook⟩
        rw [hcons]
        refine ⟨List.nodup_append.mpr ⟨nodup_fileKeys config m, hnodup, ?_⟩, ?_⟩
        · rintro key hkey _ hother rfl
          exact (hnew key hother).1 hkey
        · intro key hkey
          rcases List.mem_append.mp hkey with hkey | hkey
          · exact owners_eq_nil.mp hfree key hkey
          · exact (hnew key hkey).2
      · have hcons : takenKeys config (shares config claims ((e, m) :: built)) =
            takenKeys config (shares config claims built) := by
          simp [shares, takenKeys, hfree]
        rw [hcons]
        exact ih claims

end TypedTables.Round
