import TypedTables.Proofs.FieldNames
import TypedTables.Proofs.Utf8Reading

/-!
Sources without a decorated class. A decorator starts with an at sign and stands before the word
`class` of its class. So a source in which that word never stands behind an at sign, apart from
other names, has no marked class, whatever marks a class.
-/

namespace TypedTables.Source

open Text Utf8

def classWord : List Char := ['c', 'l', 'a', 's', 's']

/-- How far a text has been read in search of the word `class` behind an at sign. -/
inductive Search where
  | noSign
  /-- Behind an at sign, after some name characters with which the word starts, and what the word
  still lacks. -/
  | lacking (rest : List Char)
  /-- Behind an at sign, inside another name. -/
  | otherName
  deriving DecidableEq, Repr

namespace Search

def atBreak : Search := .lacking classWord

/-- Reads a character; there is nothing behind the word once it has been found. -/
def step : Search → Char → Option Search
  | noSign, c => some (if c = '@' then atBreak else noSign)
  | otherName, c => some (if isNameChar c then otherName else atBreak)
  | lacking [], c => if isNameChar c then some otherName else none
  | lacking (d :: rest), c =>
      some (if isNameChar c then if c = d then lacking rest else otherName else atBreak)

def read : Search → List Char → Option Search
  | s, [] => some s
  | s, c :: cs => (s.step c).bind (fun s => s.read cs)

theorem read_append (s : Search) (cs ds : List Char) :
    s.read (cs ++ ds) = (s.read cs).bind (fun s => s.read ds) := by
  induction cs generalizing s with
  | nil => rfl
  | cons c cs ih =>
      rw [List.cons_append, read, read, Option.bind_assoc]
      congr 1
      funext s
      exact ih s

def Passes (s : Search) (cs : List Char) : Prop := ∃ s', s.read cs = some s' ∧ s' ≠ lacking []

theorem passes_append {s : Search} {cs ds : List Char} (h : s.Passes (cs ++ ds)) :
    ∃ s', s.read cs = some s' ∧ s'.Passes ds := by
  obtain ⟨last, hread, hlast⟩ := h
  rw [read_append, Option.bind_eq_some_iff] at hread
  obtain ⟨s', hs', hread⟩ := hread
  exact ⟨s', hs', last, hread, hlast⟩

theorem step_ne_noSign {s s' : Search} {c : Char} (hs : s ≠ noSign) (h : s.step c = some s') :
    s' ≠ noSign := by
  rintro rfl
  cases s with
  | noSign => exact hs rfl
  | otherName => simp [step, atBreak, ite_eq_iff] at h
  | lacking rest => cases rest <;> simp [step, atBreak, ite_eq_iff] at h

theorem read_ne_noSign {s s' : Search} {cs : List Char} (hs : s ≠ noSign)
    (h : s.read cs = some s') : s' ≠ noSign := by
  induction cs generalizing s with
  | nil => exact Option.some.inj h ▸ hs
  | cons c cs ih =>
      obtain ⟨next, hnext, hrest⟩ := Option.bind_eq_some_iff.mp h
      exact ih (step_ne_noSign hs hnext) hrest

theorem step_of_break {s s' : Search} {c : Char} (hs : s' ≠ noSign) (hc : isNameChar c = false)
    (h : s.step c = some s') : s' = atBreak := by
  cases s with
  | noSign =>
      obtain rfl := Option.some.inj h
      split at hs
      · rename_i hsign
        rw [if_pos hsign]
      · exact absurd rfl hs
  | otherName => simpa [step, hc, eq_comm] using h
  | lacking rest =>
      cases rest with
      | nil => simp [step, hc] at h
      | cons d rest => simpa [step, hc, eq_comm] using h

theorem read_noSign {cs : List Char} (h : '@' ∉ cs) : noSign.read cs = some noSign := by
  induction cs with
  | nil => rfl
  | cons c cs ih =>
      obtain ⟨hc, hcs⟩ := not_or.mp (mt List.mem_cons.mpr h)
      rw [read, step, if_neg (Ne.symm hc), Option.bind_some, ih hcs]

theorem read_sign {cs : List Char} {s : Search} (h : '@' ∈ cs) (hread : noSign.read cs = some s) :
    s ≠ noSign := by
  obtain ⟨before, after, rfl, hbefore⟩ := List.eq_append_cons_of_mem h
  rw [read_append, read_noSign hbefore, Option.bind_some, read, step, if_pos rfl,
    Option.bind_some] at hread
  exact read_ne_noSign (by simp [atBreak]) hread

end Search

/-- No name reaches from the end of one text into the text behind it. -/
def Apart (cs ds : List Char) : Prop :=
  (∃ c, cs.getLast? = some c ∧ isNameChar c = false) ∨ ∀ d ∈ ds.head?, isNameChar d = false

namespace Search

theorem Passes.from_break {s s' : Search} {cs ds : List Char} (h : s'.Passes ds)
    (hs : s' ≠ noSign) (hread : s.read cs = some s') (hapart : Apart cs ds) :
    atBreak.Passes ds := by
  rcases hapart with ⟨c, hlast, hc⟩ | hhead
  · obtain ⟨init, rfl⟩ := List.getLast?_eq_some_iff.mp hlast
    rw [read_append, Option.bind_eq_some_iff] at hread
    obtain ⟨t, -, hend⟩ := hread
    obtain ⟨t', hstep, hend⟩ := Option.bind_eq_some_iff.mp hend
    obtain rfl : t' = s' := Option.some.inj hend
    obtain rfl := step_of_break hs hc hstep
    exact h
  · cases ds with
    | nil => exact ⟨atBreak, rfl, by simp [atBreak, classWord]⟩
    | cons d ds =>
        have hd : isNameChar d = false := hhead d rfl
        obtain ⟨last, hlast, hne⟩ := h
        obtain ⟨t, ht, hrest⟩ := Option.bind_eq_some_iff.mp hlast
        obtain rfl := step_of_break (step_ne_noSign hs ht) hd ht
        have hstart : atBreak.step d = some atBreak := by simp [atBreak, classWord, step, hd]
        exact ⟨last, by rw [read, hstart, Option.bind_some, hrest], hne⟩

theorem not_passes_classWord {ds : List Char} (h : ∀ d ∈ ds.head?, isNameChar d = false) :
    ¬ atBreak.Passes (classWord ++ ds) := by
  intro hpasses
  obtain ⟨s, hs, last, hlast, hne⟩ := passes_append hpasses
  obtain rfl : lacking [] = s := Option.some.inj hs
  cases ds with
  | nil => exact hne (Option.some.inj hlast).symm
  | cons d ds =>
      rw [read, step, h d rfl] at hlast
      cases hlast

end Search

section

variable {quote : Char} {cs : List Char} {n : Nat}

/-- The first characters end with a quote, unless they are all there are. -/
def ClosedAt (quote : Char) (cs : List Char) (n : Nat) : Prop :=
  cs.drop n = [] ∨ (cs.take n).getLast? = some quote

theorem ClosedAt.cons (h : ClosedAt quote cs n) (c : Char) : ClosedAt quote (c :: cs) (1 + n) := by
  rw [ClosedAt, Nat.add_comm, List.drop_succ_cons, List.take_succ_cons]
  refine h.imp_right (fun hlast => ?_)
  rw [List.getLast?_cons, hlast, Option.getD_some]

theorem ClosedAt.append (h : ClosedAt quote cs n) (word : List Char) :
    ClosedAt quote (word ++ cs) (word.length + n) := by
  induction word with
  | nil => simpa using h
  | cons c word ih =>
      have hcons := ih.cons c
      rwa [← Nat.add_assoc, Nat.add_comm 1] at hcons

def Opened.Begun (quote : Char) (opened : List Opened) : Prop :=
  ∃ long places, opened.getLast? = some (.text quote long places)

theorem Opened.suffix_next (c : Char) (cs : List Char) (o : Opened) (outer : List Opened) :
    outer <:+ (Opened.next c cs (o :: outer)).1 := by
  have htwo : ∀ a b, outer <:+ a :: b :: outer := fun a b => ⟨[a, b], rfl⟩
  have hone : ∀ a, outer <:+ a :: outer := fun a => ⟨[a], rfl⟩
  cases o with
  | comment =>
      rw [Opened.next]
      split_ifs
      · exact List.suffix_refl outer
      · exact hone _
  | _ =>
      rw [Opened.next]
      split_ifs <;> first | exact List.suffix_refl outer | exact hone _ | exact htwo _ _

theorem Opened.next_text (c : Char) (cs : List Char) (quote : Char) (long places : Bool) :
    Opened.next c cs [.text quote long places] = ([], 0) ∧ c = quote ∨
      Begun quote (Opened.next c cs [.text quote long places]).1 := by
  have hsame : ∀ long, Begun quote [.text quote long places] := fun long => ⟨long, places, rfl⟩
  rw [Opened.next]
  by_cases hescape : (c == '\\') = true
  · rw [if_pos hescape]
    exact .inr (hsame long)
  · rw [if_neg hescape]
    by_cases hquote : (c == quote) = true
    · rw [if_pos hquote]
      split_ifs
      · exact .inl ⟨rfl, eq_of_beq hquote⟩
      · exact .inr (hsame false)
      · exact .inr (hsame long)
    · rw [if_neg hquote]
      split_ifs
      · exact .inr (hsame long)
      · exact .inr ⟨long, places, rfl⟩
      · exact .inr (hsame long)

theorem Opened.Begun.next {opened : List Opened} (h : Begun quote opened) (c : Char)
    (cs : List Char) : Opened.next c cs opened = ([], 0) ∧ c = quote ∨
      Begun quote (Opened.next c cs opened).1 := by
  obtain ⟨long, places, hlast⟩ := h
  cases opened with
  | nil => cases hlast
  | cons o outer =>
      cases outer with
      | nil =>
          obtain rfl : o = .text quote long places := Option.some.inj hlast
          exact next_text c cs quote long places
      | cons o' outer =>
          obtain ⟨front, hfront⟩ := suffix_next c cs o (o' :: outer)
          refine .inr ⟨long, places, ?_⟩
          rw [← hfront, List.getLast?_append_of_ne_nil _ (List.cons_ne_nil o' outer)]
          exact hlast

theorem closedAt_stringRest {opened : List Opened} (h : Opened.Begun quote opened) (skip : Nat)
    (cs : List Char) : ClosedAt quote cs (stringRest skip opened cs) := by
  induction cs generalizing skip opened with
  | nil => exact .inl (by simp)
  | cons c cs ih =>
      cases skip with
      | succ skip => exact (ih h skip).cons c
      | zero =>
          cases opened with
          | nil => exact absurd h (by rintro ⟨_, _, hlast⟩; cases hlast)
          | cons o outer =>
              rw [stringRest]
              rcases h.next c cs with ⟨hend, rfl⟩ | hbegun
              · right
                cases cs <;> simp [hend, stringRest]
              · exact (ih hbegun _).cons c

theorem closedAt_stringLength (places : Bool) (quote : Char) (cs : List Char) :
    ∃ n, stringLength places (quote :: cs) = n + 1 ∧ ClosedAt quote (quote :: cs) (n + 1) := by
  rw [stringLength]
  split
  · rename_i hquotes
    have hcs : quote :: cs = [quote, quote, quote] ++ cs.drop 2 := by
      conv_lhs => rw [← List.take_append_drop 2 cs, eq_of_beq hquotes]
      rfl
    have hbegun : Opened.Begun quote [.text quote true places] := ⟨true, places, rfl⟩
    have hclosed := (closedAt_stringRest hbegun 0 (cs.drop 2)).append [quote, quote, quote]
    rw [← hcs] at hclosed
    refine ⟨_, Nat.add_comm 3 _, ?_⟩
    rwa [Nat.add_comm] at hclosed
  · refine ⟨_, Nat.add_comm 1 _, ?_⟩
    have hbegun : Opened.Begun quote [.text quote false places] := ⟨false, places, rfl⟩
    have hclosed := (closedAt_stringRest hbegun 0 cs).cons quote
    rwa [Nat.add_comm] at hclosed

theorem ClosedAt.apart (h : ClosedAt quote cs n) (hquote : isQuoteMark quote = true) :
    Apart (cs.take n) (cs.drop n) := by
  rcases h with hnil | hlast
  · exact .inr (by simp [hnil])
  · refine .inl ⟨quote, hlast, ?_⟩
    rw [isQuoteMark, Bool.or_eq_true, beq_iff_eq, beq_iff_eq] at hquote
    rcases hquote with rfl | rfl <;> decide

end

theorem drop_length_takeWhile {α : Type} (p : α → Bool) (xs : List α) :
    xs.drop (xs.takeWhile p).length = xs.dropWhile p :=
  calc xs.drop (xs.takeWhile p).length
      = (xs.takeWhile p ++ xs.dropWhile p).drop (xs.takeWhile p).length := by
        rw [List.takeWhile_append_dropWhile]
    _ = xs.dropWhile p := List.drop_left

theorem apart_takeWhile {p : Char → Bool} (hp : ∀ d, isNameChar d = true → p d = true) (c : Char)
    (rest : List Char) :
    Apart ((c :: rest).take ((rest.takeWhile p).length + 1))
      ((c :: rest).drop ((rest.takeWhile p).length + 1)) := by
  right
  intro d hd
  have hfirst := List.head?_dropWhile_not p rest
  rw [List.drop_succ_cons, drop_length_takeWhile] at hd
  rw [Option.mem_def.mp hd] at hfirst
  exact Bool.eq_false_iff.mpr (fun hname => by simp [hp d hname] at hfirst)

theorem exists_lexeme_length {cs : List Char} (h : cs ≠ []) :
    ∃ n, (lexeme cs).2 = n + 1 ∧ Apart (cs.take (n + 1)) (cs.drop (n + 1)) := by
  fun_cases lexeme cs with
  | case1 => exact absurd rfl h
  | case2 rest => exact ⟨0, rfl, .inl ⟨'\n', rfl, by decide⟩⟩
  | case3 rest => exact ⟨1, rfl, .inl ⟨'\n', rfl, by decide⟩⟩
  | case4 rest => exact ⟨2, rfl, .inl ⟨'\n', rfl, by decide⟩⟩
  | case5 c rest _ _ _ hblank =>
      refine ⟨0, rfl, .inl ⟨c, rfl, ?_⟩⟩
      simp only [Bool.or_eq_true, beq_iff_eq] at hblank
      rcases hblank with (((rfl | rfl) | rfl) | rfl) | rfl <;> decide +kernel
  | case6 c rest =>
      refine ⟨_, Nat.add_comm 1 _, apart_takeWhile ?_ c rest⟩
      rintro d hd
      rw [decide_eq_true_eq]
      rintro rfl
      exact absurd hd (by decide)
  | case7 c rest _ _ _ _ _ hquote =>
      obtain ⟨n, hn, hclosed⟩ := closedAt_stringLength false c rest
      exact ⟨n, hn, hclosed.apart hquote⟩
  | case8 c rest =>
      refine ⟨_, Nat.add_comm 1 _, apart_takeWhile ?_ c rest⟩
      intro d hd
      simp [hd]
  | case9 c rest _ _ _ _ _ _ _ _ word after hlead =>
      have hquoted := (Bool.and_eq_true_iff.mp hlead).2
      obtain ⟨quote, hhead, hquote⟩ := (Option.any_eq_true _ _).mp hquoted
      obtain ⟨more, hafter⟩ := List.head?_eq_some_iff.mp hhead
      obtain ⟨n, hn, hclosed⟩ := closedAt_stringLength (hasPlaces word) quote more
      have hword : word ++ quote :: more = c :: rest := by
        rw [← hafter]
        exact congrArg (c :: ·) List.takeWhile_append_dropWhile
      have hwhole := hclosed.append word
      rw [hword] at hwhole
      refine ⟨word.length + n, ?_, hwhole.apart hquote⟩
      rw [hafter, hn]
      rfl
  | case10 c rest => exact ⟨_, rfl, apart_takeWhile (fun d hd => hd) c rest⟩
  | case11 c rest _ _ _ _ _ _ _ _ hequals =>
      have hhead : rest.head? = some '=' := eq_of_beq (Bool.and_eq_true_iff.mp hequals).2
      obtain ⟨more, rfl⟩ := List.head?_eq_some_iff.mp hhead
      exact ⟨1, rfl, .inl ⟨'=', rfl, by decide⟩⟩
  | case12 c rest _ _ _ _ _ _ _ hname => exact ⟨0, rfl, .inl ⟨c, rfl, by simpa using hname⟩⟩

theorem lexeme_split {c : Char} {rest : List Char} {kind : Lexeme} {length : Nat}
    (h : lexeme (c :: rest) = (kind, length)) :
    c :: rest = (c :: rest.take (length - 1)) ++ rest.drop (length - 1) ∧
      Apart (c :: rest.take (length - 1)) (rest.drop (length - 1)) := by
  obtain ⟨n, hn, hapart⟩ := exists_lexeme_length (List.cons_ne_nil c rest)
  obtain rfl : n + 1 = length := hn.symm.trans (congrArg Prod.snd h)
  rw [List.cons_append, Nat.add_sub_cancel, List.take_append_drop]
  exact ⟨rfl, hapart⟩

theorem Search.Passes.behind_lexeme {s : Search} {c : Char} {rest : List Char} {kind : Lexeme}
    {length : Nat} (h : s.Passes (c :: rest)) (hk : lexeme (c :: rest) = (kind, length)) :
    ∃ s', s.read (c :: rest.take (length - 1)) = some s' ∧ s'.Passes (rest.drop (length - 1)) ∧
      (s' ≠ noSign → atBreak.Passes (rest.drop (length - 1))) := by
  obtain ⟨hsplit, hapart⟩ := lexeme_split hk
  rw [hsplit] at h
  obtain ⟨s', hread, hrest⟩ := passes_append h
  exact ⟨s', hread, hrest, fun hs => hrest.from_break hs hread hapart⟩

theorem Search.Passes.behind_break {c : Char} {rest : List Char} {kind : Lexeme} {length : Nat}
    (h : atBreak.Passes (c :: rest)) (hk : lexeme (c :: rest) = (kind, length)) :
    atBreak.Passes (rest.drop (length - 1)) := by
  obtain ⟨s', hread, -, hbehind⟩ := h.behind_lexeme hk
  exact hbehind (read_ne_noSign (by simp [atBreak]) hread)

theorem Search.Passes.before_sign {c : Char} {rest : List Char} {kind : Lexeme} {length : Nat}
    (h : noSign.Passes (c :: rest)) (hk : lexeme (c :: rest) = (kind, length)) :
    '@' ∈ c :: rest.take (length - 1) ∧ atBreak.Passes (rest.drop (length - 1)) ∨
      '@' ∉ c :: rest.take (length - 1) ∧ noSign.Passes (rest.drop (length - 1)) := by
  obtain ⟨s', hread, hrest, hbehind⟩ := h.behind_lexeme hk
  by_cases hsign : '@' ∈ c :: rest.take (length - 1)
  · exact .inl ⟨hsign, hbehind (read_sign hsign hread)⟩
  · obtain rfl := Option.some.inj ((read_noSign hsign).symm.trans hread)
    exact .inr ⟨hsign, hrest⟩

theorem Search.Passes.ne_classWord {c : Char} {rest : List Char} {length : Nat}
    (h : atBreak.Passes (c :: rest)) (hk : lexeme (c :: rest) = (.token .word, length)) :
    c :: rest.take (length - 1) ≠ classWord := by
  intro hword
  obtain ⟨-, htake⟩ := lexeme_word hk
  have hdrop : rest.drop (length - 1) = rest.dropWhile isNameChar := by
    have happend : rest.takeWhile isNameChar ++ rest.drop (length - 1) =
        rest.takeWhile isNameChar ++ rest.dropWhile isNameChar := by
      rw [← htake, List.take_append_drop, htake, List.takeWhile_append_dropWhile]
    exact List.append_cancel_left happend
  rw [(lexeme_split hk).1, hword, hdrop] at h
  refine not_passes_classWord ?_ h
  intro d hd
  have hfirst := List.head?_dropWhile_not isNameChar rest
  rw [Option.mem_def.mp hd] at hfirst
  simpa using hfirst

section

variable {cur : Cursor} {offset : Nat} {cs : List Char} {widths : List Nat}

theorem not_class_of_passes (h : Search.atBreak.Passes cs) :
    ∀ t ∈ tokensFrom cur offset cs widths, t.isWord "class" = false := by
  fun_induction tokensFrom cur offset cs widths with
  | case1 => simp
  | case2 cur offset widths c rest length chars next after widthsAfter k opensLine hk ih =>
      refine List.forall_mem_cons.mpr ⟨?_, ih (h.behind_break hk)⟩
      rw [Bool.eq_false_iff]
      intro hword
      obtain ⟨rfl, htext⟩ : k = .word ∧ String.ofList chars = "class" := by
        simpa [Token.isWord, Token.text] using hword
      have hchars : chars = classWord := by
        simpa [classWord] using congrArg String.toList htext
      exact h.ne_classWord hk hchars
  | case3 cur offset widths c rest length chars next after widthsAfter other hother hk ih =>
      exact ih (h.behind_break hk)

theorem pairwise_of_passes (h : Search.noSign.Passes cs) :
    (tokensFrom cur offset cs widths).Pairwise
      (fun t u => t.isMark '@' = true → u.isWord "class" = false) := by
  fun_induction tokensFrom cur offset cs widths with
  | case1 => exact .nil
  | case2 cur offset widths c rest length chars next after widthsAfter k opensLine hk ih =>
      rcases h.before_sign hk with ⟨-, hbehind⟩ | ⟨hsign, hrest⟩
      · refine .cons (fun u hu _ => not_class_of_passes hbehind u hu) ?_
        exact List.pairwise_of_forall_mem_list (fun t _ u hu _ => not_class_of_passes hbehind u hu)
      · refine .cons (fun u _ hmark => ?_) (ih hrest)
        have hchars : chars = ['@'] := by
          simpa using (Bool.and_eq_true_iff.mp hmark).2
        have hmem : '@' ∈ chars := hchars ▸ List.mem_singleton_self '@'
        exact absurd hmem hsign
  | case3 cur offset widths c rest length chars next after widthsAfter other hother hk ih =>
      rcases h.before_sign hk with ⟨-, hbehind⟩ | ⟨-, hrest⟩
      · exact List.pairwise_of_forall_mem_list (fun t _ u hu _ => not_class_of_passes hbehind u hu)
      · exact ih hrest

end

def Classless (ss : List Statement) : Prop := ∀ path ds body, ¬ ClassIn ss path ds body

def Undecorated (ss : List Statement) : Prop := ∀ path ds body, ClassIn ss path ds body → ds = []

section

variable {ss more : List Statement}

theorem Classless.undecorated (h : Classless ss) : Undecorated ss :=
  fun path ds body hclass => absurd hclass (h path ds body)

theorem classless_of_forall (h : ∀ s ∈ ss, ∀ ds name body, s ≠ .classDef ds name body) :
    Classless ss := by
  intro path ds body hclass
  obtain ⟨ds', name, body', hmem⟩ := hclass.exists_mem
  exact h _ hmem ds' name body' rfl

theorem ClassIn.append_iff {path : List String} {ds : List Decorator} {body : List Statement} :
    ClassIn (ss ++ more) path ds body ↔ ClassIn ss path ds body ∨ ClassIn more path ds body := by
  induction ss with
  | nil => simp [ClassIn.not_nil]
  | cons s ss ih => rw [List.cons_append, cons_iff, ih, ← or_assoc, ← cons_iff]

theorem Classless.append (h : Classless ss) (hmore : Classless more) : Classless (ss ++ more) :=
  fun path ds body hclass =>
    (ClassIn.append_iff.mp hclass).elim (h path ds body) (hmore path ds body)

theorem Undecorated.append (h : Undecorated ss) (hmore : Undecorated more) :
    Undecorated (ss ++ more) :=
  fun path ds body hclass =>
    (ClassIn.append_iff.mp hclass).elim (h path ds body) (hmore path ds body)

theorem Undecorated.classDef (h : Undecorated ss) (name : String) :
    Undecorated [.classDef [] name ss] := by
  intro path ds body hclass
  rcases ClassIn.classDef_iff.mp hclass with ⟨-, rfl, -⟩ | ⟨rest, -, inner⟩
  · rfl
  · exact h rest ds body inner

theorem Undecorated.marked_eq_nil (h : Undecorated ss) (module : String) (package : Option String)
    (namespaceName : String) (file : Option String) :
    marked ss module package namespaceName file = [] := by
  rw [List.eq_nil_iff_forall_not_mem]
  intro m hm
  obtain ⟨path, ds, body, hclass, hmarker, -⟩ := mem_marked.mp hm
  rw [h path ds body hclass] at hmarker
  simp [markersOf] at hmarker

end

theorem classless_simpleStatements (ts : List Token) : Classless (simpleStatements ts) := by
  refine classless_of_forall ?_
  intro s hs ds name body heq
  obtain ⟨part, -, rfl⟩ := List.mem_map.mp hs
  have hbodies := bodiesIn_simpleStatement part
  rw [heq, bodiesIn] at hbodies
  cases hbodies

theorem undecorated_bodyOr {below : List Statement} (ts : List Token) (h : Undecorated below) :
    Undecorated (bodyOr ts below) := by
  rw [bodyOr]
  split
  · exact h
  · exact (classless_simpleStatements _).undecorated

theorem classless_statements (ds : List Decorator) (inMatch : Bool) {tree : LineTree}
    (h : ∀ t ∈ tree.flatten, t.isWord "class" = false) :
    Classless (tree.statements ds inMatch) := by
  cases tree with
  | node ts below =>
      cases ts with
      | nil => exact classless_of_forall (by simp [LineTree.statements])
      | cons first rest =>
          have hfirst : first.isWord "class" = false := h first (by simp [LineTree.flatten])
          rw [LineTree.statements, if_neg (by simp [hfirst])]
          split
          · exact classless_of_forall (by simp)
          · split
            · exact classless_of_forall (by simp)
            · exact classless_simpleStatements _

theorem classless_statementsOf (ds : List Decorator) (inMatch : Bool) (trees : List LineTree)
    (h : ∀ t ∈ LineTree.flattenAll trees, t.isWord "class" = false) :
    Classless (statementsOf ds inMatch trees) := by
  induction trees generalizing ds with
  | nil => exact classless_of_forall (by simp [statementsOf])
  | cons tree trees ih =>
      rw [LineTree.flattenAll, List.forall_mem_append] at h
      cases tree with
      | node ts below =>
          cases ts with
          | nil => exact ih [] h.2
          | cons first rest =>
              rw [statementsOf]
              split
              · exact ih _ h.2
              · exact (classless_statements ds inMatch h.1).append (ih [] h.2)

mutual

theorem undecorated_statements (inMatch : Bool) : (tree : LineTree) →
    tree.flatten.Pairwise (fun t u => t.isMark '@' = true → u.isWord "class" = false) →
      Undecorated (tree.statements [] inMatch)
  | .node [] below => fun _ => (classless_of_forall (by simp [LineTree.statements])).undecorated
  | .node (first :: rest) below => fun h => by
      rw [LineTree.flatten, List.pairwise_append] at h
      rw [LineTree.statements]
      split
      · exact (undecorated_bodyOr _ (undecorated_statementsOf false below h.2.1)).classDef _
      · split
        · exact (classless_of_forall (by simp)).undecorated
        · split
          · exact (classless_of_forall (by simp)).undecorated
          · exact (classless_simpleStatements _).undecorated

theorem undecorated_statementsOf (inMatch : Bool) : (trees : List LineTree) →
    (LineTree.flattenAll trees).Pairwise
        (fun t u => t.isMark '@' = true → u.isWord "class" = false) →
      Undecorated (statementsOf [] inMatch trees)
  | [] => fun _ => (classless_of_forall (by simp [statementsOf])).undecorated
  | .node [] below :: trees => fun h => by
      rw [LineTree.flattenAll, List.pairwise_append] at h
      exact undecorated_statementsOf inMatch trees h.2.1
  | .node (first :: rest) below :: trees => fun h => by
      rw [LineTree.flattenAll, List.pairwise_append] at h
      obtain ⟨htree, htrees, hacross⟩ := h
      rw [statementsOf]
      split
      · rename_i hsign
        refine (classless_statementsOf _ inMatch trees ?_).undecorated
        intro t ht
        exact hacross first (by simp [LineTree.flatten]) t ht hsign
      · exact (undecorated_statements inMatch (.node (first :: rest) below) htree).append
          (undecorated_statementsOf inMatch trees htrees)

end

theorem undecorated_parse {text : String} (h : Search.noSign.Passes text.toList) :
    Undecorated (parse (encode text)) := by
  refine undecorated_statementsOf false _ ?_
  rw [flattenAll_nest]
  refine List.Pairwise.sublist (flatMap_linesOf_sublist _) ?_
  rw [tokens]
  refine pairwise_of_passes ?_
  rwa [map_char_glyphs_encode]

def Unmarked (bytes : List UInt8) : Prop :=
  ∀ module package namespaceName file,
    marked (parse bytes) module package namespaceName file = []

/-- A text in which no `class` stands behind an at sign holds no marked class. -/
theorem unmarked_of_passes {text : String} (h : Search.noSign.Passes text.toList) :
    Unmarked (encode text) :=
  (undecorated_parse h).marked_eq_nil

end TypedTables.Source
