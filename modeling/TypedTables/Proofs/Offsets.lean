import TypedTables.Proofs.ClassPath

/-!
The names of a parse. It only ever passes tokens over, so that directly in a class body, and at
module level, the names that are annotated stand at increasing offsets, and classes are named by
words.
-/

namespace TypedTables

open Text

theorem Text.Utf8.width_pos {bytes : List UInt8} : ∀ g ∈ Utf8.glyphs bytes, 0 < g.width := by
  fun_induction Utf8.glyphs bytes with
  | case1 => simp
  | case2 lead rest s char ih => exact List.forall_mem_cons.mpr ⟨Nat.succ_pos _, ih⟩

namespace Source

theorem le_foldl_add (widths : List Nat) (start : Nat) : start ≤ widths.foldl (· + ·) start := by
  induction widths generalizing start with
  | nil => exact Nat.le_refl start
  | cons width widths ih => exact Nat.le_trans (Nat.le_add_right start width) (ih (start + width))

theorem foldl_add_take_pos {widths : List Nat} (hpos : ∀ width ∈ widths, 0 < width)
    (hne : widths ≠ []) {count : Nat} (hcount : 0 < count) :
    0 < (widths.take count).foldl (· + ·) 0 := by
  obtain ⟨width, others, rfl⟩ := List.exists_cons_of_ne_nil hne
  obtain ⟨before, rfl⟩ := Nat.exists_eq_add_of_lt hcount
  have hsum := le_foldl_add (others.take (0 + before)) (0 + width)
  have hwidth := hpos width List.mem_cons_self
  rw [List.take_succ_cons, List.foldl_cons]
  omega

theorem le_offset_of_mem_tokensFrom {cur : Cursor} {offset : Nat} {cs : List Char}
    {widths : List Nat} : ∀ t ∈ tokensFrom cur offset cs widths, offset ≤ t.offset := by
  fun_induction tokensFrom cur offset cs widths with
  | case1 => simp
  | case2 cur offset widths c rest length chars next after widthsAfter k opensLine hk ih =>
      refine List.forall_mem_cons.mpr ⟨Nat.le_refl offset, ?_⟩
      intro t ht
      exact Nat.le_trans (Nat.le_add_right offset _) (ih t ht)
  | case3 cur offset widths c rest length chars next after widthsAfter other hother hk ih =>
      intro t ht
      exact Nat.le_trans (Nat.le_add_right offset _) (ih t ht)

theorem length_drop_le {c : Char} {rest : List Char} {widths : List Nat}
    (h : (c :: rest).length ≤ widths.length) (count : Nat) :
    (rest.drop count).length ≤ (widths.drop (c :: rest.take count).length).length := by
  simp only [List.length_drop, List.length_cons, List.length_take] at h ⊢
  omega

theorem pairwise_offset_tokensFrom {cur : Cursor} {offset : Nat} {cs : List Char}
    {widths : List Nat} (hlength : cs.length ≤ widths.length)
    (hpos : ∀ width ∈ widths, 0 < width) :
    (tokensFrom cur offset cs widths).Pairwise (fun t u => t.offset < u.offset) := by
  fun_induction tokensFrom cur offset cs widths with
  | case1 => exact .nil
  | case2 cur offset widths c rest length chars next after widthsAfter k opensLine hk ih =>
      have hposAfter : ∀ width ∈ widthsAfter, 0 < width :=
        fun width hwidth => hpos width (List.mem_of_mem_drop hwidth)
      have hne : widths ≠ [] := by
        rintro rfl
        simp at hlength
      have hnext : 0 < (widths.take chars.length).foldl (· + ·) 0 :=
        foldl_add_take_pos hpos hne (Nat.succ_pos _)
      refine List.pairwise_cons.mpr ⟨?_, ih (length_drop_le hlength _) hposAfter⟩
      intro t ht
      exact Nat.lt_of_lt_of_le (Nat.lt_add_of_pos_right hnext) (le_offset_of_mem_tokensFrom t ht)
  | case3 cur offset widths c rest length chars next after widthsAfter other hother hk ih =>
      exact ih (length_drop_le hlength _)
        (fun width hwidth => hpos width (List.mem_of_mem_drop hwidth))

theorem pairwise_offset_tokens (bytes : List UInt8) :
    (tokens bytes).Pairwise (fun t u => t.offset < u.offset) := by
  refine pairwise_offset_tokensFrom (by simp) ?_
  intro width hwidth
  obtain ⟨g, hg, rfl⟩ := List.mem_map.mp hwidth
  exact Utf8.width_pos g hg

theorem gatherLines_flatten (ts : List Token) :
    (gatherLines ts).1 ++ (gatherLines ts).2.flatMap Line.tokens = ts := by
  induction ts with
  | nil => rfl
  | cons t ts ih =>
      rw [gatherLines]
      cases t.opensLine with
      | none => exact congrArg (t :: ·) ih
      | some indent => exact congrArg (t :: ·) ih

theorem flatMap_linesOf_sublist (ts : List Token) :
    ((linesOf ts).flatMap Line.tokens).Sublist ts := by
  have h := List.sublist_append_right (gatherLines ts).1 ((gatherLines ts).2.flatMap Line.tokens)
  rwa [gatherLines_flatten] at h

mutual

def LineTree.flatten : LineTree → List Token
  | .node ts below => ts ++ flattenAll below

def LineTree.flattenAll : List LineTree → List Token
  | [] => []
  | tree :: trees => tree.flatten ++ flattenAll trees

end

theorem flattenAll_nest (lines : List Line) :
    LineTree.flattenAll (nest lines) = lines.flatMap Line.tokens := by
  fun_induction nest lines with
  | case1 => rfl
  | case2 line rest ihBelow ihRest =>
      rw [LineTree.flattenAll, LineTree.flatten, ihBelow, ihRest, List.append_assoc,
        ← List.flatMap_append, List.takeWhile_append_dropWhile]
      rfl

def annotations (ss : List Statement) : List (String × Nat) :=
  (annotatedNames ss).map (fun (name, _, offset) => (name, offset))

def annotatedOffsets (ss : List Statement) : List Nat :=
  (annotatedNames ss).map (fun (_, _, offset) => offset)

theorem map_snd_annotations (ss : List Statement) :
    (annotations ss).map Prod.snd = annotatedOffsets ss := by
  rw [annotations, List.map_map]
  rfl

theorem annotations_append (ss more : List Statement) :
    annotations (ss ++ more) = annotations ss ++ annotations more := by
  simp [annotations, annotatedNames]

theorem bodiesAmong_append (ss more : List Statement) :
    bodiesAmong (ss ++ more) = bodiesAmong ss ++ bodiesAmong more := by
  induction ss with
  | nil => rfl
  | cons s ss ih => rw [List.cons_append, bodiesAmong, ih, ← List.append_assoc, bodiesAmong]

def nameTokens (ts : List Token) : List (String × Nat) :=
  (ts.filter Token.isName).map (fun t => (t.text, t.offset))

theorem nameTokens_append (ts us : List Token) :
    nameTokens (ts ++ us) = nameTokens ts ++ nameTokens us := by
  simp [nameTokens]

def words (ts : List Token) : List String :=
  (ts.filter (fun t => t.kind = .word)).map Token.text

theorem words_append (ts us : List Token) : words (ts ++ us) = words ts ++ words us := by
  simp [words]

theorem classNames_append (ss more : List Statement) : ModuleContext.classNames (ss ++ more) =
    ModuleContext.classNames ss ++ ModuleContext.classNames more := by
  simp [ModuleContext.classNames]

/-- A place that takes its annotated names from the names among some tokens, in their order, and the
names of its classes from the words among them. -/
structure NamedBy (ts : List Token) (scope : List Statement) : Prop where
  annotated : (annotations scope).Sublist (nameTokens ts)
  classes : ModuleContext.classNames scope ⊆ words ts

namespace NamedBy

variable {ts us : List Token} {scope more : List Statement}

theorem mono (h : NamedBy ts scope) (hsub : ts.Sublist us) : NamedBy us scope where
  annotated := h.annotated.trans ((hsub.filter Token.isName).map _)
  classes := List.Subset.trans h.classes ((hsub.filter _).map Token.text).subset

theorem nil (ts : List Token) : NamedBy ts [] :=
  ⟨List.nil_sublist _, List.nil_subset _⟩

theorem append (h : NamedBy ts scope) (hmore : NamedBy us more) :
    NamedBy (ts ++ us) (scope ++ more) where
  annotated := by
    rw [annotations_append, nameTokens_append]
    exact h.annotated.append hmore.annotated
  classes := by
    rw [classNames_append, words_append]
    exact List.append_subset.mpr ⟨List.subset_append_of_subset_left _ h.classes,
      List.subset_append_of_subset_right _ hmore.classes⟩

end NamedBy

def NamesWithin (ts : List Token) (ss : List Statement) : Prop :=
  ∀ scope ∈ classScopes ss, NamedBy ts scope

namespace NamesWithin

variable {ts us : List Token} {ss more : List Statement}

theorem mono (h : NamesWithin ts ss) (hsub : ts.Sublist us) : NamesWithin us ss :=
  fun scope hscope => (h scope hscope).mono hsub

theorem nil (ts : List Token) : NamesWithin ts [] := by
  intro scope hscope
  obtain rfl : scope = [] := by simpa [classScopes, bodiesAmong] using hscope
  exact .nil ts

theorem single {s : Statement} (h : NamedBy ts [s]) (hbodies : bodiesIn s = []) :
    NamesWithin ts [s] := by
  intro scope hscope
  obtain rfl : scope = [s] := by simpa [classScopes, bodiesAmong, hbodies] using hscope
  exact h

theorem append (h : NamesWithin ts ss) (hmore : NamesWithin us more) :
    NamesWithin (ts ++ us) (ss ++ more) := by
  intro scope hscope
  rw [classScopes, bodiesAmong_append, List.mem_cons, List.mem_append] at hscope
  rcases hscope with rfl | hscope | hscope
  · exact (h ss List.mem_cons_self).append (hmore more List.mem_cons_self)
  · exact (h scope (List.mem_cons_of_mem ss hscope)).mono (List.sublist_append_left _ _)
  · exact (hmore scope (List.mem_cons_of_mem more hscope)).mono (List.sublist_append_right _ _)

theorem classDef (h : NamesWithin ts ss) (ds : List Decorator) {name : String}
    (hname : name ∈ words ts) : NamesWithin ts [.classDef ds name ss] := by
  intro scope hscope
  rw [classScopes, bodiesAmong, bodiesIn, bodiesAmong, List.append_nil] at hscope
  rcases List.mem_cons.mp hscope with rfl | hscope
  · -- a class annotates nothing where it stands; its body does
    exact ⟨List.nil_sublist _, List.cons_subset.mpr ⟨hname, List.nil_subset _⟩⟩
  · exact h scope hscope

end NamesWithin

theorem annotations_importFromTokens (ts : List Token) :
    annotations [importFromTokens ts] = [] := by
  fun_cases importFromTokens ts <;> rfl

theorem annotations_simpleStatement (ts : List Token) :
    (annotations [simpleStatement ts]).Sublist (nameTokens ts) := by
  fun_cases simpleStatement ts with
  | case3 first rest =>
      rw [annotations_importFromTokens]
      exact List.nil_sublist _
  | case4 first _ _ colon type hname =>
      rw [Bool.and_eq_true] at hname
      refine List.singleton_sublist.mpr ?_
      exact List.mem_map.mpr
        ⟨first, List.mem_filter.mpr ⟨List.mem_cons_self, hname.1⟩, rfl⟩
  | _ => exact List.nil_sublist _

theorem classNames_importFromTokens (ts : List Token) :
    ModuleContext.classNames [importFromTokens ts] = [] := by
  fun_cases importFromTokens ts <;> rfl

theorem classNames_simpleStatement (ts : List Token) :
    ModuleContext.classNames [simpleStatement ts] = [] := by
  fun_cases simpleStatement ts with
  | case3 first rest => exact classNames_importFromTokens rest
  | _ => rfl

theorem namedBy_simpleStatement (ts : List Token) : NamedBy ts [simpleStatement ts] where
  annotated := annotations_simpleStatement ts
  classes := classNames_simpleStatement ts ▸ List.nil_subset _

theorem bodiesIn_simpleStatement (ts : List Token) : bodiesIn (simpleStatement ts) = [] := by
  fun_cases simpleStatement ts with
  | case3 first rest => fun_cases importFromTokens rest <;> rfl
  | _ => rfl

theorem namesWithin_map_simpleStatement (parts : List (List Token)) :
    NamesWithin parts.flatten (parts.map simpleStatement) := by
  induction parts with
  | nil => exact .nil []
  | cons part parts ih =>
      have hpart : NamesWithin part [simpleStatement part] :=
        .single (namedBy_simpleStatement part) (bodiesIn_simpleStatement part)
      exact hpart.append ih

theorem cutAll_flatten_sublist (sep : Char) (depth : Nat) (ts : List Token) :
    (cutAll sep depth ts).flatten.Sublist ts := by
  induction ts generalizing depth with
  | nil => exact .refl _
  | cons t ts ih =>
      rw [cutAll]
      split
      · exact (ih depth).cons t
      · dsimp only
        split
        · exact List.singleton_sublist.mpr List.mem_cons_self
        · rename_i part parts hcut
          have hparts := hcut ▸ ih _
          exact hparts.cons_cons t

theorem cutAt_after_sublist (stop : Token → Bool) (depth lambdas : Nat) (ts : List Token) :
    (cutAt stop depth lambdas ts).2.2.Sublist ts := by
  induction ts generalizing depth lambdas with
  | nil => exact .refl _
  | cons t ts ih =>
      rw [cutAt]
      split
      · exact List.sublist_cons_self t ts
      · exact (ih _ _).cons t

theorem namesWithin_simpleStatements (ts : List Token) :
    NamesWithin ts (simpleStatements ts) := by
  have hparts := namesWithin_map_simpleStatement
    ((cutAll ';' 0 ts).filter (fun part => !part.isEmpty))
  rw [List.flatten_filter_not_isEmpty] at hparts
  exact hparts.mono (cutAll_flatten_sublist ';' 0 ts)

theorem namesWithin_bodyOr {ts us : List Token} {below : List Statement}
    (h : NamesWithin us below) : NamesWithin (ts ++ us) (bodyOr ts below) := by
  rw [bodyOr]
  split
  · exact h.mono (List.sublist_append_right ts us)
  · have hinline : (inlineBody ts).Sublist (ts ++ us) :=
      (cutAt_after_sublist _ 0 0 ts).trans (List.sublist_append_left ts us)
    exact (namesWithin_simpleStatements _).mono hinline

theorem className_mem_words {first : Token} {rest : List Token}
    (h : (first.isWord "class" && rest.head?.any (fun t => t.kind = .word)) = true)
    (us : List Token) : (rest.head?.map Token.text).getD "" ∈ words (first :: rest ++ us) := by
  obtain ⟨-, hname⟩ := Bool.and_eq_true_iff.mp h
  cases rest with
  | nil => cases hname
  | cons name rest =>
      have hword : name.kind = .word := of_decide_eq_true hname
      exact List.mem_map_of_mem (List.mem_filter.mpr ⟨by simp, by simpa using hword⟩)

mutual

theorem namesWithin_statements (ds : List Decorator) (inMatch : Bool) :
    (tree : LineTree) → NamesWithin tree.flatten (tree.statements ds inMatch)
  | .node [] below => .nil _
  | .node (first :: rest) below => by
      rw [LineTree.flatten, LineTree.statements]
      split
      · rename_i hclass
        exact (namesWithin_bodyOr (namesWithin_statementsOf [] false below)).classDef ds
          (className_mem_words hclass _)
      · split
        · exact .single ⟨List.nil_sublist _, List.nil_subset _⟩ rfl
        · split
          · exact .single ⟨List.nil_sublist _, List.nil_subset _⟩ rfl
          · exact (namesWithin_simpleStatements _).mono (List.sublist_append_left _ _)

theorem namesWithin_statementsOf (ds : List Decorator) (inMatch : Bool) :
    (trees : List LineTree) →
      NamesWithin (LineTree.flattenAll trees) (statementsOf ds inMatch trees)
  | [] => .nil []
  | .node [] below :: trees =>
      (namesWithin_statementsOf [] inMatch trees).mono (List.sublist_append_right _ _)
  | .node (first :: rest) below :: trees => by
      rw [LineTree.flattenAll, statementsOf]
      split
      · exact (namesWithin_statementsOf _ inMatch trees).mono (List.sublist_append_right _ _)
      · exact (namesWithin_statements ds inMatch (.node (first :: rest) below)).append
          (namesWithin_statementsOf [] inMatch trees)

end

theorem namesWithin_parse (bytes : List UInt8) :
    NamesWithin (tokens bytes) (parse bytes) := by
  have hlines : (LineTree.flattenAll (nest (linesOf (tokens bytes)))).Sublist (tokens bytes) := by
    rw [flattenAll_nest]
    exact flatMap_linesOf_sublist (tokens bytes)
  exact (namesWithin_statementsOf [] false _).mono hlines

/-- In every class body of a source, and at its module level, the annotated names stand at
increasing offsets. -/
theorem pairwise_annotatedOffsets {bytes : List UInt8} {scope : List Statement}
    (h : scope ∈ classScopes (parse bytes)) : (annotatedOffsets scope).Pairwise (· < ·) := by
  -- every scope draws on the one list of tokens, in its order
  have htokens : ((nameTokens (tokens bytes)).map Prod.snd).Pairwise (· < ·) := by
    rw [nameTokens, List.map_map, List.pairwise_map]
    exact (pairwise_offset_tokens bytes).sublist List.filter_sublist
  rw [← map_snd_annotations]
  exact htokens.sublist ((namesWithin_parse bytes scope h).annotated.map Prod.snd)

end Source

end TypedTables
