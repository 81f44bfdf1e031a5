import Mathlib.Data.List.Infix
import TypedTables.TypeRef.Reading

/-!
Brackets and bars in the text of a declared type. The scan for a bar goes by one count over all
brackets and parentheses, which a closing one lowers even if it closes nothing. So the bars that it
finds are those that stand outside, as long as every closing one closes one of its own kind.
-/

namespace TypedTables.TypeRef

/-- The brackets of one kind that are open at the end of a text. A closing one with none to close
counts for nothing. -/
def stillOpen (opening closing : Char) (cs : List Char) : Nat :=
  cs.foldl (fun n c => if c = opening then n + 1 else if c = closing then n - 1 else n) 0

def LeadsOutside (before : List Char) : Prop :=
  stillOpen '[' ']' before = 0 ∧ stillOpen '(' ')' before = 0

instance : DecidablePred LeadsOutside :=
  fun _ => inferInstanceAs (Decidable (_ ∧ _))

def balance (cs : List Char) : Int :=
  cs.count '[' + cs.count '(' - cs.count ']' - cs.count ')'

def HasBarBehind (P : List Char → Prop) (cs : List Char) : Prop :=
  ∃ before, before ++ ['|'] <+: cs ∧ P before

instance (P : List Char → Prop) [DecidablePred P] : DecidablePred (HasBarBehind P) := fun cs =>
  decidable_of_iff (∃ before ∈ cs.inits, before ++ ['|'] <+: cs ∧ P before) <| by
    constructor
    · rintro ⟨before, -, hbar⟩
      exact ⟨before, hbar⟩
    · rintro ⟨before, hbar, hP⟩
      exact ⟨before, (List.mem_inits _ _).mpr ((List.prefix_append _ _).trans hbar), hbar, hP⟩

abbrev HasFreeBar : List Char → Prop := HasBarBehind LeadsOutside

abbrev HasLevelBar : List Char → Prop := HasBarBehind (fun before => balance before = 0)

def ClosesOwn (cs : List Char) : Prop :=
  ∀ before ∈ cs.inits, before.count ']' ≤ before.count '[' ∧ before.count ')' ≤ before.count '('

instance : DecidablePred ClosesOwn :=
  fun _ => inferInstanceAs (Decidable (∀ _ ∈ _, _))

theorem not_hasBarBehind_nil (P : List Char → Prop) : ¬ HasBarBehind P [] := by
  rintro ⟨before, hbar, -⟩
  simp at hbar

theorem hasBarBehind_cons {P : List Char → Prop} {c : Char} {cs : List Char} :
    HasBarBehind P (c :: cs) ↔
      (c = '|' ∧ P []) ∨ HasBarBehind (fun before => P (c :: before)) cs := by
  constructor
  · rintro ⟨before, hbar, hP⟩
    cases before with
    | nil =>
        obtain ⟨hc, -⟩ := List.cons_prefix_cons.mp hbar
        exact .inl ⟨hc.symm, hP⟩
    | cons d before =>
        obtain ⟨rfl, hrest⟩ := List.cons_prefix_cons.mp hbar
        exact .inr ⟨before, hrest, hP⟩
  · rintro (⟨rfl, hP⟩ | ⟨before, hbar, hP⟩)
    · exact ⟨[], List.cons_prefix_cons.mpr ⟨rfl, List.nil_prefix⟩, hP⟩
    · exact ⟨c :: before, List.cons_prefix_cons.mpr ⟨rfl, hbar⟩, hP⟩

theorem HasBarBehind.mem {P : List Char → Prop} {cs : List Char} (h : HasBarBehind P cs) :
    '|' ∈ cs := by
  obtain ⟨before, hbar, -⟩ := h
  exact hbar.subset (by simp)

theorem HasBarBehind.imp {P Q : List Char → Prop} {cs : List Char}
    (hPQ : ∀ before, before <+: cs → P before → Q before) (h : HasBarBehind P cs) :
    HasBarBehind Q cs := by
  obtain ⟨before, hbar, hP⟩ := h
  exact ⟨before, hbar, hPQ before ((List.prefix_append _ _).trans hbar) hP⟩

theorem hasBarBehind_append {P : List Char → Prop} {front : List Char} (hfront : '|' ∉ front)
    (cs : List Char) :
    HasBarBehind P (front ++ cs) ↔ HasBarBehind (fun before => P (front ++ before)) cs := by
  induction front generalizing P with
  | nil => rfl
  | cons c front ih =>
      obtain ⟨hc, hrest⟩ := not_or.mp (mt List.mem_cons.mpr hfront)
      rw [List.cons_append, hasBarBehind_cons, ih hrest]
      simp [Ne.symm hc]

theorem balance_nil : balance [] = 0 := rfl

theorem balance_append (xs ys : List Char) : balance (xs ++ ys) = balance xs + balance ys := by
  simp only [balance, List.count_append]
  omega

theorem balance_cons (c : Char) (cs : List Char) :
    balance (c :: cs) = balance [c] + balance cs :=
  balance_append [c] cs

theorem balance_of_not_mem {cs : List Char} (h : ∀ c ∈ ['[', '(', ']', ')'], c ∉ cs) :
    balance cs = 0 := by
  have hcount : ∀ c ∈ ['[', '(', ']', ')'], cs.count c = 0 :=
    fun c hc => List.count_eq_zero_of_not_mem (h c hc)
  simp only [List.forall_mem_cons] at hcount
  simp [balance, hcount]

theorem hasBarAt_cons (depth : Int) (c : Char) (cs : List Char) :
    hasBarAt depth (c :: cs) = ((c == '|' && depth == 0) || hasBarAt (depth + balance [c]) cs) := by
  by_cases hopen : c = '[' ∨ c = '('
  · rcases hopen with rfl | rfl <;> simp [hasBarAt, balance]
  · by_cases hclose : c = ']' ∨ c = ')'
    · rcases hclose with rfl | rfl <;> simp [hasBarAt, balance, Int.sub_eq_add_neg]
    · rw [not_or] at hopen hclose
      have hlevel : balance [c] = 0 :=
        balance_of_not_mem (by simp [hopen, hclose, eq_comm])
      rw [hasBarAt, if_neg (by simp [hopen]), if_neg (by simp [hclose]), hlevel, Int.add_zero]

theorem hasBarAt_iff {depth : Int} {cs : List Char} :
    hasBarAt depth cs = true ↔ HasBarBehind (fun before => depth + balance before = 0) cs := by
  -- the scan forgets what it has read but for its balance, so the depth is generalized
  induction cs generalizing depth with
  | nil => simpa [hasBarAt] using not_hasBarBehind_nil _
  | cons c cs ih =>
      have hstep : (fun before => depth + balance (c :: before) = 0) =
          fun before => depth + balance [c] + balance before = 0 := by
        funext before
        rw [balance_cons, Int.add_assoc]
      rw [hasBarAt_cons, Bool.or_eq_true, ih, hasBarBehind_cons, hstep]
      simp [balance_nil]

theorem hasOuterBar_iff {cs : List Char} : hasOuterBar cs = true ↔ HasLevelBar cs := by
  rw [hasOuterBar, hasBarAt_iff]
  simp only [Int.zero_add]

theorem stillOpen_concat (opening closing : Char) (cs : List Char) (c : Char) :
    stillOpen opening closing (cs ++ [c]) =
      if c = opening then stillOpen opening closing cs + 1
      else if c = closing then stillOpen opening closing cs - 1
      else stillOpen opening closing cs := by
  rw [stillOpen, List.foldl_concat]
  rfl

theorem stillOpen_add_count {opening closing : Char} (hne : opening ≠ closing) {cs : List Char}
    (h : ∀ before, before <+: cs → before.count closing ≤ before.count opening) :
    stillOpen opening closing cs + cs.count closing = cs.count opening := by
  induction cs using List.reverseRecOn with
  | nil => rfl
  | append_singleton cs c ih =>
      have hrest := ih (fun before hbefore => h before (hbefore.trans (List.prefix_append cs [c])))
      have hall := h (cs ++ [c]) List.prefix_rfl
      rw [stillOpen_concat]
      rw [List.count_append, List.count_append] at hall ⊢
      by_cases hopen : c = opening
      · subst hopen
        have hother : [c].count closing = 0 := by simp [hne]
        simp only [if_pos, List.count_singleton_self]
        omega
      · have hother : [c].count opening = 0 := by simp [hopen]
        rw [if_neg hopen]
        by_cases hclose : c = closing
        · -- the subtraction is no cut-off one: this one has something to close
          subst hclose
          simp only [if_pos, List.count_singleton_self] at hall ⊢
          omega
        · have hsame : [c].count closing = 0 := by simp [hclose]
          rw [if_neg hclose]
          omega

theorem leadsOutside_iff {before : List Char} (h : ClosesOwn before) :
    LeadsOutside before ↔ balance before = 0 := by
  have hall : ∀ front, front <+: before →
      front.count ']' ≤ front.count '[' ∧ front.count ')' ≤ front.count '(' :=
    fun front hfront => h front ((List.mem_inits _ _).mpr hfront)
  have hsquare := stillOpen_add_count (by decide : '[' ≠ ']') (fun front hf => (hall front hf).1)
  have hround := stillOpen_add_count (by decide : '(' ≠ ')') (fun front hf => (hall front hf).2)
  rw [LeadsOutside, balance]
  omega

theorem ClosesOwn.of_prefix {before cs : List Char} (h : ClosesOwn cs) (hbefore : before <+: cs) :
    ClosesOwn before := by
  intro front hfront
  exact h front ((List.mem_inits _ _).mpr (((List.mem_inits _ _).mp hfront).trans hbefore))

/-- In a text that closes its own brackets only, the scan finds exactly the bars outside. -/
theorem hasLevelBar_iff {cs : List Char} (h : ClosesOwn cs) : HasLevelBar cs ↔ HasFreeBar cs :=
  ⟨HasBarBehind.imp (fun _ hbefore => (leadsOutside_iff (h.of_prefix hbefore)).mpr),
    HasBarBehind.imp (fun _ hbefore => (leadsOutside_iff (h.of_prefix hbefore)).mp)⟩

end TypedTables.TypeRef
