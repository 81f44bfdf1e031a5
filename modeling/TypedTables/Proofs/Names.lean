import TypedTables.File.Path
import TypedTables.Proofs.DottedName
import TypedTables.Text.Uppercase

/-!
Names that can stand in a path. A text without slashes is one component of a path, unless it is a
single dot; an uppercase first letter makes no slash of it.
-/

namespace TypedTables

namespace Text

theorem CaseRun.shiftAt_cases (runs : List CaseRun) (n : Nat) :
    shiftAt runs n = 0 ∨
      ∃ r ∈ runs, r.first ≤ n ∧ n ≤ r.last ∧ shiftAt runs n = r.shift := by
  induction runs with
  | nil => exact .inl rfl
  | cons r runs ih =>
      rw [shiftAt]
      split
      · exact .inl rfl
      · rename_i hfirst
        split
        · rename_i hlast
          simp only [Bool.and_eq_true, decide_eq_true_eq] at hlast
          exact .inr ⟨r, List.mem_cons_self, by omega, hlast.1, rfl⟩
        · exact ih.imp_right fun ⟨s, hs, h⟩ => ⟨s, List.mem_cons_of_mem r hs, h⟩

theorem toUpper_ne_slash {c : Char} (hc : c.toNat < 128) (h : c ≠ '/') : c.toUpper ≠ '/' := by
  have hall : ∀ n < 128, (Char.ofNat n).toUpper = '/' → n = 47 := by decide +kernel
  intro heq
  have hcode := hall c.toNat hc (by rwa [Char.ofNat_toNat])
  exact h (by rw [← Char.ofNat_toNat c, hcode])

theorem ofNat_ne {n : Nat} {d : Char} (hd : d ≠ '\x00') (h : n ≠ d.toNat) : Char.ofNat n ≠ d := by
  rintro rfl
  by_cases hvalid : n.isValidChar
  · rw [Char.ofNat, dif_pos hvalid] at h
    exact h rfl
  · rw [Char.ofNat, dif_neg hvalid] at hd
    exact hd rfl

theorem expansions_no_slash : ∀ entry ∈ uppercaseExpansions,
    entry.2 ≠ [] ∧ ∀ n ∈ entry.2, 47 < n := by
  decide +kernel

theorem runs_no_slash : ∀ r ∈ uppercaseRuns, 47 < r.first + r.shift := by
  decide +kernel

theorem uppercase_ne_nil (c : Char) : uppercase c ≠ [] := by
  rw [uppercase]
  split
  · simp
  · split
    · rename_i codes hcodes
      obtain ⟨before, after, hsplit, -⟩ := List.lookup_eq_some_iff.mp hcodes
      simpa using (expansions_no_slash (c.toNat, codes) (by simp [hsplit])).1
    · simp

theorem not_mem_uppercase {c d : Char} (hd : d ≠ '\x00') (hascii : c.toNat < 128 → c.toUpper ≠ d)
    (hown : 128 ≤ c.toNat → c ≠ d)
    (hexpansions : ∀ entry ∈ uppercaseExpansions, ∀ n ∈ entry.2, n ≠ d.toNat)
    (hruns : ∀ r ∈ uppercaseRuns, d.toNat < r.first + r.shift ∨ r.last + r.shift < d.toNat) :
    d ∉ uppercase c := by
  rw [uppercase]
  split
  · rename_i hlow
    simpa using (hascii hlow).symm
  · rename_i hhigh
    split
    · rename_i codes hcodes
      obtain ⟨before, after, hsplit, -⟩ := List.lookup_eq_some_iff.mp hcodes
      have hentry : (c.toNat, codes) ∈ uppercaseExpansions := by simp [hsplit]
      intro hmem
      obtain ⟨n, hn, heq⟩ := List.mem_map.mp hmem
      exact ofNat_ne hd (hexpansions _ hentry n hn) heq
    · rw [List.mem_singleton]
      rcases CaseRun.shiftAt_cases uppercaseRuns c.toNat with
        hzero | ⟨r, hr, hfirst, hlast, hshift⟩
      · rw [hzero, Int.add_zero, Int.toNat_natCast, Char.ofNat_toNat]
        exact (hown (by omega)).symm
      · have hrun := hruns r hr
        have hlow := runs_no_slash r hr
        rw [hshift]
        exact (ofNat_ne hd (by omega)).symm

theorem uppercase_no_slash {c : Char} (h : c ≠ '/') : uppercase c ≠ [] ∧ '/' ∉ uppercase c := by
  refine ⟨uppercase_ne_nil c, not_mem_uppercase (by decide) (fun hc => toUpper_ne_slash hc h)
    (fun _ => h) ?_ (fun r hr => .inl (runs_no_slash r hr))⟩
  intro entry hentry n hn
  have hlow := (expansions_no_slash entry hentry).2 n hn
  exact Nat.ne_of_gt hlow

end Text

open Text

namespace Path

/-- A text that can be a component of a path, or one of the two dot names. -/
structure IsName (text : String) : Prop where
  nonempty : text.toList ≠ []
  noSlash : '/' ∉ text.toList

instance (text : String) : Decidable (IsName text) :=
  decidable_of_iff (text.toList ≠ [] ∧ '/' ∉ text.toList)
    ⟨fun ⟨hne, hslash⟩ => ⟨hne, hslash⟩, fun ⟨hne, hslash⟩ => ⟨hne, hslash⟩⟩

theorem IsName.capitalize {text : String} (h : IsName text) : IsName (capitalize text) := by
  obtain ⟨hne, hslash⟩ := h
  cases hcs : text.toList with
  | nil => exact absurd hcs hne
  | cons c cs =>
      rw [hcs, List.mem_cons, not_or] at hslash
      obtain ⟨hupper, hfirst⟩ := uppercase_no_slash (Ne.symm hslash.1)
      constructor
      · simp [Text.capitalize, hcs, capitalizeChars, hupper]
      · simp [Text.capitalize, hcs, capitalizeChars, hfirst, hslash.2]

theorem IsName.append {text more : String} (h : IsName text) (hmore : '/' ∉ more.toList) :
    IsName (text ++ more) := by
  obtain ⟨hne, hslash⟩ := h
  constructor
  · simp [String.toList_append, hne]
  · simp [String.toList_append, hslash, hmore]

theorem ofText_of_isName {text : String} (h : IsName text) (hdot : text ≠ ".") :
    ofText text = ⟨.relative, [text]⟩ := by
  obtain ⟨hne, hslash⟩ := h
  have hchars : text.toList ≠ ['.'] := fun heq => hdot (String.toList_inj.mp heq)
  have hanchor : anchorOf text.toList = .relative := by
    cases hcs : text.toList with
    | nil => exact absurd hcs hne
    | cons c cs =>
        rw [hcs, List.mem_cons, not_or] at hslash
        simp [anchorOf, Ne.symm hslash.1]
  rw [ofText, splitOn_of_not_mem hslash, hanchor]
  simp [hne, hchars]

theorem joinAll_of_noSlash (p : Path) {parts : List String}
    (h : ∀ part ∈ parts, '/' ∉ part.toList ∧ part ≠ ".") :
    p.joinAll parts = ⟨p.anchor, p.components ++ parts.filter (· ≠ "")⟩ := by
  induction parts generalizing p with
  | nil => simp [joinAll]
  | cons part parts ih =>
      obtain ⟨⟨hslash, hdot⟩, hrest⟩ := List.forall_mem_cons.mp h
      have hall := ih (p.join (ofText part)) hrest
      rw [joinAll] at hall ⊢
      rw [List.foldl_cons, hall]
      by_cases hempty : part = ""
      · subst hempty
        simp [ofText, splitOn, anchorOf, join, isAbsolute]
      · have hname : IsName part := ⟨mt String.toList_eq_nil_iff.mp hempty, hslash⟩
        simp [ofText_of_isName hname hdot, join, isAbsolute, hempty]

theorem joinAll_of_isName (p : Path) {parts : List String}
    (h : ∀ part ∈ parts, IsName part ∧ part ≠ ".") :
    p.joinAll parts = ⟨p.anchor, p.components ++ parts⟩ := by
  rw [p.joinAll_of_noSlash fun part hpart => ⟨(h part hpart).1.noSlash, (h part hpart).2⟩,
    List.filter_eq_self.mpr]
  intro part hpart
  have hne := (h part hpart).1.nonempty
  simpa using mt String.toList_eq_nil_iff.mpr hne

theorem dropLeading?_eq_some {xs ys rest : List String} :
    dropLeading? xs ys = some rest ↔ ys = xs ++ rest := by
  induction xs generalizing ys with
  | nil => simp [dropLeading?, eq_comm]
  | cons x xs ih =>
      cases ys with
      | nil => simp [dropLeading?]
      | cons y ys =>
          rw [dropLeading?]
          split
          · rename_i heq
            rw [ih, heq, List.cons_append, List.cons.injEq, and_iff_right rfl]
          · rename_i hne
            simp [Ne.symm hne]

theorem below?_eq_some {p root : Path} {parts : List String} :
    p.below? root = some parts ↔
      p.anchor = root.anchor ∧ p.components = root.components ++ parts := by
  rw [below?]
  split
  · rename_i hanchor
    rw [dropLeading?_eq_some, and_iff_right hanchor]
  · rename_i hanchor
    simp [hanchor]

theorem resolveFrom_of_not_mem (location : List String) {cs : List String} (h : ".." ∉ cs) :
    resolveFrom location cs = location ++ cs := by
  induction cs generalizing location with
  | nil => simp [resolveFrom]
  | cons c cs ih =>
      obtain ⟨hne, hrest⟩ := not_or.mp (mt List.mem_cons.mpr h)
      rw [resolveFrom, if_neg (Ne.symm hne), ih _ hrest, List.append_assoc]
      rfl

theorem not_mem_resolveFrom {location : List String} (h : ".." ∉ location) (cs : List String) :
    ".." ∉ resolveFrom location cs := by
  induction cs generalizing location with
  | nil => exact h
  | cons c cs ih =>
      refine ih ?_
      split
      · exact fun hmem => h (List.dropLast_subset location hmem)
      · rename_i hc
        simpa [h] using Ne.symm hc

theorem not_mem_resolve (p : Path) {cwd : List String} (h : ".." ∉ cwd) :
    ".." ∉ (p.resolve cwd).components := by
  refine not_mem_resolveFrom ?_ p.components
  split
  · simp
  · exact h

theorem resolve_of_absolute {cs : List String} (h : ".." ∉ cs) (cwd : List String) :
    resolve ⟨.root, cs⟩ cwd = ⟨.root, cs⟩ := by
  rw [resolve, resolveFrom_of_not_mem _ h]
  rfl

end Path

end TypedTables
