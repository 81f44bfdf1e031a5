import TypedTables.Proofs.Names
import TypedTables.Source.Statement

namespace TypedTables.Source

open Text

def isNameLead (c : Char) : Bool := isNameChar c && !isDigit c

/-- A text that can be a name in a source, if it is no keyword. -/
structure IsName (name : String) : Prop where
  lead : name.toList.head?.any isNameLead = true
  chars : ∀ c ∈ name.toList, isNameChar c = true

instance (name : String) : Decidable (IsName name) :=
  decidable_of_iff
      (name.toList.head?.any isNameLead = true ∧ name.toList.all isNameChar = true) <| by
    rw [List.all_eq_true]
    exact ⟨fun ⟨hlead, hchars⟩ => ⟨hlead, hchars⟩, fun ⟨hlead, hchars⟩ => ⟨hlead, hchars⟩⟩

theorem IsName.not_mem {name : String} (h : IsName name) {c : Char} (hc : isNameChar c = false) :
    c ∉ name.toList := by
  intro hmem
  rw [h.chars c hmem] at hc
  cases hc

theorem IsName.exists_cons {name : String} (h : IsName name) :
    ∃ c cs, name.toList = c :: cs ∧ isNameLead c = true ∧ ∀ d ∈ cs, isNameChar d = true := by
  obtain ⟨hlead, hchars⟩ := h
  cases hcs : name.toList with
  | nil => simp [hcs] at hlead
  | cons c cs =>
      rw [hcs] at hlead hchars
      exact ⟨c, cs, rfl, by simpa using hlead, (List.forall_mem_cons.mp hchars).2⟩

theorem IsName.append {name more : String} (h : IsName name)
    (hmore : ∀ c ∈ more.toList, isNameChar c = true) : IsName (name ++ more) := by
  obtain ⟨c, cs, hname, hlead, -⟩ := h.exists_cons
  constructor
  case lead => simpa [hname] using hlead
  case chars =>
    rw [String.toList_append]
    exact List.forall_mem_append.mpr ⟨h.chars, hmore⟩

theorem digit_not_lead : ∀ n < 128, (Char.ofNat n).isDigit = true →
    isNameChar (Char.ofNat n) = true ∧ isNameLead (Char.ofNat n) = false := by
  decide

theorem toDigits_not_lead {n : Nat} {c : Char} (h : c ∈ Nat.toDigits 10 n) :
    isNameChar c = true ∧ isNameLead c = false := by
  have hdigit := Nat.isDigit_of_mem_toDigits (by decide) (by decide) h
  have hlow : c.toNat < 128 := by
    simp only [Char.isDigit, Bool.and_eq_true, decide_eq_true_eq] at hdigit
    have hle : c.toNat ≤ 57 := hdigit.2
    omega
  have hcode := digit_not_lead c.toNat hlow
  rw [Char.ofNat_toNat] at hcode
  exact hcode hdigit

theorem isNameLead_of_large {n : Nat} (hlow : 128 ≤ n) (hvalid : n.isValidChar)
    (hmark : n ≠ 0xFEFF) : isNameLead (Char.ofNat n) = true := by
  have hcode : (Char.ofNat n).toNat = n := by
    rw [Char.ofNat, dif_pos hvalid]
    rfl
  have hdigit : isDigit (Char.ofNat n) = false := by
    rw [isDigit, Bool.and_eq_false_iff]
    right
    rw [decide_eq_false_iff_not]
    intro hle
    have hnat : (Char.ofNat n).toNat ≤ '9'.toNat := hle
    rw [hcode] at hnat
    have : '9'.toNat = 57 := rfl
    omega
  rw [isNameLead, hdigit, isNameChar, hcode]
  simp [hlow, hmark]

theorem toUpper_isNameLead : ∀ n < 128, isNameLead (Char.ofNat n) = true →
    isNameLead (Char.ofNat n).toUpper = true := by
  decide +kernel

theorem expansions_isNameLead : ∀ entry ∈ uppercaseExpansions, ∀ n ∈ entry.2,
    isNameLead (Char.ofNat n) = true := by
  decide +kernel

theorem runs_isNameLead : ∀ r ∈ uppercaseRuns,
    (128 ≤ r.first + r.shift ∧ r.last + r.shift < 0xD800) ∨
      (0xE000 ≤ r.first + r.shift ∧ r.last + r.shift < 0xFEFF) ∨
      (0xFEFF < r.first + r.shift ∧ r.last + r.shift < 0x110000) ∨
      (r.first = r.last ∧ isNameLead (Char.ofNat (r.first + r.shift).toNat) = true) := by
  decide +kernel

theorem uppercase_isNameLead {c : Char} (h : isNameLead c = true) :
    uppercase c ≠ [] ∧ ∀ d ∈ uppercase c, isNameLead d = true := by
  refine ⟨uppercase_ne_nil c, ?_⟩
  rw [uppercase]
  split
  · rename_i hascii
    have hupper := toUpper_isNameLead c.toNat hascii
    rw [Char.ofNat_toNat] at hupper
    simpa using hupper h
  · split
    · rename_i codes hcodes
      obtain ⟨before, after, hsplit, -⟩ := List.lookup_eq_some_iff.mp hcodes
      have hentry : (c.toNat, codes) ∈ uppercaseExpansions := by simp [hsplit]
      intro d hd
      obtain ⟨n, hn, rfl⟩ := List.mem_map.mp hd
      exact expansions_isNameLead _ hentry n hn
    · rintro d hd
      obtain rfl := List.mem_singleton.mp hd
      rcases CaseRun.shiftAt_cases uppercaseRuns c.toNat with
        hzero | ⟨r, hr, hfirst, hlast, hshift⟩
      · rw [hzero, Int.add_zero, Int.toNat_natCast, Char.ofNat_toNat]
        exact h
      · rw [hshift]
        rcases runs_isNameLead r hr with hrun | hrun | hrun | ⟨hone, hletter⟩
        · exact isNameLead_of_large (by omega) (.inl (by omega)) (by omega)
        · exact isNameLead_of_large (by omega) (.inr ⟨by omega, by omega⟩) (by omega)
        · exact isNameLead_of_large (by omega) (.inr ⟨by omega, by omega⟩) (by omega)
        · have hcode : c.toNat = r.first := by omega
          rwa [hcode]

theorem IsName.capitalize {name : String} (h : IsName name) : IsName (capitalize name) := by
  obtain ⟨c, cs, hname, hc, hcs⟩ := h.exists_cons
  obtain ⟨hne, hupper⟩ := uppercase_isNameLead hc
  obtain ⟨d, ds, hds⟩ := List.exists_cons_of_ne_nil hne
  have hchars : (Text.capitalize name).toList = uppercase c ++ cs := by
    simp [Text.capitalize, hname, capitalizeChars]
  constructor
  case lead =>
    rw [hchars, hds]
    exact hupper d (hds ▸ List.mem_cons_self)
  case chars =>
    intro e he
    rw [hchars, List.mem_append] at he
    rcases he with he | he
    · have hlead := hupper e he
      rw [isNameLead, Bool.and_eq_true] at hlead
      exact hlead.1
    · exact hcs e he

theorem toUpper_ne_c : ∀ n < 128, (Char.ofNat n).toUpper ≠ 'c' := by
  decide +kernel

theorem capitalize_ne_class (name : String) : Text.capitalize name ≠ "class" := by
  intro heq
  have hchars : capitalizeChars name.toList = ['c', 'l', 'a', 's', 's'] := by
    simpa [Text.capitalize] using congrArg String.toList heq
  cases hname : name.toList with
  | nil => simp [hname, capitalizeChars] at hchars
  | cons c cs =>
      have hfirst : 'c' ∉ uppercase c := by
        refine not_mem_uppercase (by decide) ?_ ?_ (by decide +kernel) (by decide +kernel)
        · intro hascii
          have hupper := toUpper_ne_c c.toNat hascii
          rwa [Char.ofNat_toNat] at hupper
        · rintro hhigh rfl
          exact absurd hhigh (by decide)
      obtain ⟨d, ds, hds⟩ := List.exists_cons_of_ne_nil (uppercase_ne_nil c)
      rw [hname, capitalizeChars, hds, List.cons_append, List.cons.injEq] at hchars
      exact hfirst (hds ▸ hchars.1 ▸ List.mem_cons_self)

end TypedTables.Source
