import TypedTables.File.Tree
import TypedTables.Proofs.Keyed

namespace TypedTables.FileTree

def fileAt? (tree : FileTree) (location : List String) : Option (List UInt8) :=
  match tree.at? location with
  | some (.file bytes) => some bytes
  | _ => none

def dirAt (tree : FileTree) (location : List String) : Bool :=
  (tree.at? location).any isDir

inductive Distinct : FileTree → Prop where
  | file (bytes : List UInt8) : Distinct (.file bytes)
  | dir {entries : List (String × FileTree)} (names : (entries.map Prod.fst).Nodup)
      (nodes : ∀ e ∈ entries, e.2.Distinct) : Distinct (.dir entries)

theorem Distinct.at? {tree : FileTree} (h : tree.Distinct) {location : List String}
    {node : FileTree} (hnode : tree.at? location = some node) : node.Distinct := by
  induction location generalizing tree with
  | nil => exact Option.some.inj hnode ▸ h
  | cons name rest ih =>
      obtain ⟨child, hchild, hbelow⟩ := Option.bind_eq_some_iff.mp hnode
      cases h with
      | file bytes => cases hchild
      | dir names nodes =>
          exact ih (nodes _ ((Keyed.lookup_eq_some_iff_mem names name child).mp hchild)) hbelow

theorem Distinct.entries {tree : FileTree} (h : tree.Distinct) :
    (tree.entries.map Prod.fst).Nodup ∧ ∀ e ∈ tree.entries, e.2.Distinct := by
  cases h with
  | file bytes => exact ⟨.nil, List.forall_mem_nil _⟩
  | dir names nodes => exact ⟨names, nodes⟩

theorem Distinct.put {node tree : FileTree} (h : tree.Distinct) (hnode : node.Distinct)
    (location : List String) : (put node tree location).Distinct := by
  induction location generalizing tree with
  | nil => exact hnode
  | cons name rest ih =>
      obtain ⟨names, nodes⟩ := h.entries
      refine .dir (Keyed.nodup_insert names name _) ?_
      intro e he
      rcases Keyed.mem_of_mem_insert he with rfl | he
      · refine ih ?_
        cases hchild : tree.entries.lookup name with
        | none => exact .dir .nil (List.forall_mem_nil _)
        | some child => exact nodes _ ((Keyed.lookup_eq_some_iff_mem names name child).mp hchild)
      · exact nodes e he

theorem at?_append (tree : FileTree) (above rest : List String) :
    tree.at? (above ++ rest) = (tree.at? above).bind (fun node => node.at? rest) := by
  induction above generalizing tree with
  | nil => rfl
  | cons name above ih =>
      rw [List.cons_append, at?, at?, Option.bind_assoc]
      congr 1
      funext child
      exact ih child

theorem at?_cons_of_leaf {tree : FileTree} (h : tree.entries = []) (name : String)
    (rest : List String) : tree.at? (name :: rest) = none := by
  rw [at?, h]
  rfl

theorem dirAt_of_append {tree : FileTree} {above rest : List String}
    (h : tree.dirAt (above ++ rest) = true) : tree.dirAt above = true := by
  rw [dirAt, at?_append] at h
  cases rest with
  | nil => simpa [dirAt, at?] using h
  | cons name rest =>
      cases hnode : tree.at? above with
      | none => simp [hnode] at h
      | some node =>
          cases node with
          | file bytes => simp [hnode, at?, entries] at h
          | dir entries => simp [dirAt, hnode, isDir]

theorem fileAt?_eq_none_of_dirAt {tree : FileTree} {location : List String}
    (h : tree.dirAt location = true) : tree.fileAt? location = none := by
  rw [dirAt] at h
  rw [fileAt?]
  cases hnode : tree.at? location with
  | none => rfl
  | some node =>
      cases node with
      | file bytes => simp [hnode, isDir] at h
      | dir entries => rfl

theorem fileAt?_eq_some {tree : FileTree} {location : List String} {bytes : List UInt8} :
    tree.fileAt? location = some bytes ↔ tree.at? location = some (.file bytes) := by
  rw [fileAt?]
  cases tree.at? location with
  | none => simp
  | some node => cases node <;> simp

theorem at?_below_eq_none {tree : FileTree} {location : List String}
    (h : tree.dirAt location = false) (name : String) (rest : List String) :
    tree.at? (location ++ name :: rest) = none := by
  rw [at?_append]
  cases hnode : tree.at? location with
  | none => rfl
  | some node =>
      cases node with
      | file bytes => simp [at?, entries]
      | dir entries => simp [dirAt, hnode, isDir] at h

theorem at?_put_below (node tree : FileTree) (location rest : List String) :
    (put node tree location).at? (location ++ rest) = node.at? rest := by
  induction location generalizing tree with
  | nil => rfl
  | cons name location ih =>
      rw [List.cons_append, put, at?, entries, Keyed.lookup_insert, if_pos rfl]
      exact ih _

theorem dirAt_put_above (node tree : FileTree) (above : List String) (name : String)
    (rest : List String) : (put node tree (above ++ name :: rest)).dirAt above = true := by
  induction above generalizing tree with
  | nil => rfl
  | cons first above ih =>
      rw [List.cons_append, put, dirAt, at?, entries, Keyed.lookup_insert, if_pos rfl]
      exact ih _

theorem at?_put_apart (node tree : FileTree) {location other : List String}
    (hbelow : ¬ location <+: other) (habove : ¬ other <+: location) :
    (put node tree location).at? other = tree.at? other := by
  induction location generalizing tree other with
  | nil => exact absurd (List.nil_prefix) hbelow
  | cons name location ih =>
      cases other with
      | nil => exact absurd (List.nil_prefix) habove
      | cons first other =>
          rw [put, at?, at?, entries, Keyed.lookup_insert]
          by_cases hname : first = name
          · subst hname
            rw [List.cons_prefix_cons, not_and] at hbelow habove
            rw [if_pos rfl, Option.bind_some, ih _ (hbelow rfl) (habove rfl)]
            cases tree.entries.lookup first with
            | none =>
                cases other with
                | nil => exact absurd List.nil_prefix (habove rfl)
                | cons second other => exact at?_cons_of_leaf rfl second other
            | some child => rfl
          · rw [if_neg hname]

section

variable {node tree : FileTree} {above : List String} {name : String}

/-- A node without entries, placed in a directory where no directory was before, is the only thing
that changes. -/
theorem at?_put_leaf (hnode : node.entries = []) (habove : tree.dirAt above = true)
    (hvacant : tree.dirAt (above ++ [name]) = false) {other : List String}
    (hother : other ≠ above ++ [name]) :
    (put node tree (above ++ [name])).at? other = tree.at? other ∨
      (put node tree (above ++ [name])).dirAt other = true ∧ tree.dirAt other = true := by
  by_cases hbelow : above ++ [name] <+: other
  · obtain ⟨rest, rfl⟩ := hbelow
    cases rest with
    | nil => exact absurd (List.append_nil _) hother
    | cons first rest =>
        left
        rw [at?_put_below, at?_cons_of_leaf hnode, at?_below_eq_none hvacant]
  · by_cases hprefix : other <+: above ++ [name]
    · right
      obtain hself | hprefix := List.prefix_concat_iff.mp hprefix
      · exact absurd hself hother
      · obtain ⟨rest, rfl⟩ := hprefix
        refine ⟨?_, dirAt_of_append habove⟩
        cases rest with
        | nil =>
            rw [List.append_nil]
            exact dirAt_put_above node tree other name []
        | cons first rest =>
            rw [List.append_assoc]
            exact dirAt_put_above node tree other first (rest ++ [name])
    · exact .inl (at?_put_apart node tree hbelow hprefix)

theorem fileAt?_put_leaf (hnode : node.entries = []) (habove : tree.dirAt above = true)
    (hvacant : tree.dirAt (above ++ [name]) = false) (other : List String) :
    (put node tree (above ++ [name])).fileAt? other =
      if other = above ++ [name] then node.fileAt? [] else tree.fileAt? other := by
  by_cases hother : other = above ++ [name]
  · have hself := at?_put_below node tree (above ++ [name]) []
    rw [List.append_nil] at hself
    rw [if_pos hother, hother, fileAt?, hself, fileAt?]
  · rw [if_neg hother]
    rcases at?_put_leaf hnode habove hvacant hother with heq | ⟨hafter, hbefore⟩
    · rw [fileAt?, heq, fileAt?]
    · rw [fileAt?_eq_none_of_dirAt hafter, fileAt?_eq_none_of_dirAt hbefore]

theorem dirAt_put_leaf (hnode : node.entries = []) (habove : tree.dirAt above = true)
    (hvacant : tree.dirAt (above ++ [name]) = false) (other : List String) :
    (put node tree (above ++ [name])).dirAt other =
      if other = above ++ [name] then node.isDir else tree.dirAt other := by
  by_cases hother : other = above ++ [name]
  · have hself := at?_put_below node tree (above ++ [name]) []
    rw [List.append_nil] at hself
    rw [if_pos hother, hother, dirAt, hself]
    rfl
  · rw [if_neg hother]
    rcases at?_put_leaf hnode habove hvacant hother with heq | ⟨hafter, hbefore⟩
    · rw [dirAt, heq, dirAt]
    · rw [hafter, hbefore]

end

end TypedTables.FileTree
