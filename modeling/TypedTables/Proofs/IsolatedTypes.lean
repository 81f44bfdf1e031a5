import TypedTables.Proofs.Classification
import TypedTables.Proofs.ColumnType
import TypedTables.Proofs.TypeLayout

/-!
Declared types that have nothing to do with any entity: in every schema their columns are of no
type, and a field that is declared with one of them changes no schema. Outside the vocabulary of
column types these are the types that are neither names nor generic.
-/

namespace TypedTables

open Text

def vocabulary : List String := plainTypes ++ variantTypes

/-- A declared type that is passed on as it stands and refers to nothing. -/
structure TypeRef.Isolated (t : TypeRef) : Prop where
  unsupported : ∀ schema, t.normalize schema = ⟨.unsupported, t.text, t.text, none⟩
  overlooked : ∀ (earlier later : List Entity) (e : Entity) (before after : List Field)
    (name : String) (position : Option Int),
    Schema.build (earlier ++ { e with fields := before ++ ⟨name, t, position⟩ :: after } :: later) =
      Schema.build (earlier ++ { e with fields := before ++ after } :: later)

namespace Schema

variable {earlier later : List Entity} {e : Entity} {before after : List Field} {f : Field}

theorem referencedIdentities_insert (h : f.type.isDeclared = false) :
    referencedIdentities (earlier ++ { e with fields := before ++ f :: after } :: later) =
      referencedIdentities (earlier ++ { e with fields := before ++ after } :: later) := by
  simp [referencedIdentities, h]

theorem build_insert (h : f.type.isDeclared = false) :
    build (earlier ++ { e with fields := before ++ f :: after } :: later) =
      build (earlier ++ { e with fields := before ++ after } :: later) := by
  simp only [build, referencedIdentities_insert h, List.map_append, List.map_cons, verdictOn]

theorem build_insert_ne (t : TypeRef) (h : t.isDeclared = true) :
    build [⟨t.identity, "", [], [⟨"", t, none⟩], none⟩] ≠
      build [⟨t.identity, "", [], [], none⟩] := by
  intro hsame
  have hnested := congrArg (fun s => s.classify t.identity) hsame
  simp [classify_build, candidateNames, referencedIdentities, h] at hnested

end Schema

namespace TypeRef

theorem not_mem_vocabulary {text : String} :
    text ∉ vocabulary ↔ text ∉ plainTypes ∧ text ∉ variantTypes := by
  rw [vocabulary, List.mem_append, not_or]

theorem columnType_of_not_vocabulary {t : TypeRef} (h : t.text ∉ vocabulary)
    (hd : t.isDeclared = false) (schema : Schema) : columnType t schema = .unsupported := by
  obtain ⟨hplain, hvariant⟩ := not_mem_vocabulary.mp h
  obtain ⟨hint, hbool, hstr, hdate, hbin⟩ := not_mem_plainTypes.mp hplain
  rw [columnType_of_not_isLink (fun hlink => absurd (hd.symm.trans hlink.1) (by decide)), ownType,
    if_neg hint, if_neg hbool, if_neg hstr, if_neg hdate, if_neg hbin, if_neg hvariant]

theorem normalize_of_not_vocabulary {t : TypeRef} (h : t.text ∉ vocabulary)
    (hd : t.isDeclared = false) (schema : Schema) :
    t.normalize schema = ⟨.unsupported, t.text, t.text, none⟩ := by
  obtain ⟨hplain, hvariant⟩ := not_mem_vocabulary.mp h
  obtain ⟨hint, -, -, -, hbin⟩ := not_mem_plainTypes.mp hplain
  have hbytes : t.text ≠ rawBytesType := fun heq => hbin (by simp [binaryTypes, heq])
  simp [normalize, columnType_of_not_vocabulary h hd, storedType, acceptedType, hint, hbytes,
    hvariant]

/-- Outside the vocabulary a type is isolated exactly if it cannot refer to an entity. -/
theorem isolated_iff {t : TypeRef} (h : t.text ∉ vocabulary) :
    t.Isolated ↔ t.isDeclared = false := by
  constructor
  · intro hisolated
    rw [Bool.eq_false_iff]
    intro hd
    exact Schema.build_insert_ne t hd
      (hisolated.overlooked [] [] ⟨t.identity, "", [], [], none⟩ [] [] "" none)
  · intro hd
    exact ⟨normalize_of_not_vocabulary h hd, fun _ _ _ _ _ _ _ => Schema.build_insert hd⟩

theorem vocabulary_names :
    ∀ text ∈ vocabulary, ∀ part ∈ components text, IsIdentifier part := by
  decide +kernel

theorem exists_name_of_vocabulary {text : String} (h : text ∈ vocabulary) :
    ∃ n : SpacedName, text.toList = n.chars := by
  have hparts := vocabulary_names text h
  have hne := components_ne_nil text
  obtain ⟨n, -, hchars⟩ := SpacedName.exists_of_parts hne hparts
  exact ⟨n, by rw [hchars, dotted_components]⟩

theorem not_mem_vocabulary_of_mark {text : String} {c : Char} (hc : c ∈ text.toList)
    (hmark : c ∈ ['[', '(', ']', ')', '|']) : text ∉ vocabulary := by
  intro hmem
  obtain ⟨n, htext⟩ := exists_name_of_vocabulary hmem
  rw [htext] at hc
  exact n.not_mark_of_mem .none (by simpa using hc) hmark

theorem not_mem_vocabulary_of_unnamed {cs : List Char} (h : Unnamed cs) :
    String.ofList cs ∉ vocabulary := by
  intro hmem
  obtain ⟨n, hn⟩ := exists_name_of_vocabulary hmem
  exact h n .none [] (by simpa using hn) (.inl rfl)

theorem not_mem_vocabulary_of_union {base : String} (h : base ∈ unionTypes)
    {arguments : List Char} (harguments : arguments = [] ∨ IsSubscript arguments) :
    base ++ String.ofList arguments ∉ vocabulary := by
  rcases harguments with rfl | ⟨inner, rfl⟩
  · have hunion : ∀ base ∈ unionTypes, base ++ String.ofList [] ∉ vocabulary := by
      decide +kernel
    exact hunion base h
  · exact not_mem_vocabulary_of_mark (c := '[') (by simp) (by simp)

theorem text_not_mem_vocabulary {text : String} {resolve : String → String}
    (h : (ofText text resolve).kind ≠ .name) : (ofText text resolve).text ∉ vocabulary := by
  rcases bare_cases text with hbar | ⟨n, gap, arguments, htext, harguments, hbar⟩ | ⟨hbar, hnamed⟩
  · rw [ofText_of_levelBar hbar]
    exact not_mem_vocabulary_of_mark (c := '|') (by simpa [TypeRef.text] using hbar.mem) (by simp)
  · rw [ofText_of_named htext harguments hbar] at h ⊢
    by_cases hunion : resolve n.name ∈ unionTypes
    · exact not_mem_vocabulary_of_union hunion harguments
    · rcases harguments with rfl | ⟨inner, rfl⟩
      · simp [hunion] at h
      · exact not_mem_vocabulary_of_mark (c := '[') (by simp [TypeRef.text]) (by simp)
  · rw [ofText_of_unnamed hbar hnamed]
    simpa [TypeRef.text] using not_mem_vocabulary_of_unnamed hnamed

theorem isolated_ofText_iff {text : String} {resolve : String → String}
    (h : (ofText text resolve).kind ≠ .name) :
    (ofText text resolve).Isolated ↔ (ofText text resolve).kind ≠ .generic := by
  rw [isolated_iff (text_not_mem_vocabulary h), Bool.eq_false_iff, Ne, isDeclared_iff, not_or]
  exact and_iff_right h

theorem kind_ne_name_of_mark {text : String} {c : Char} (hc : c ∈ bare text)
    (hmark : c ∈ ['[', '(', ']', ')', '|']) (resolve : String → String) :
    (ofText text resolve).kind ≠ .name := by
  rcases bare_cases text with hbar | ⟨n, gap, arguments, htext, harguments, hbar⟩ | ⟨hbar, hnamed⟩
  · rw [ofText_of_levelBar hbar]
    simp
  · rw [ofText_of_named htext harguments hbar]
    have hne : arguments ≠ [] := by
      rintro rfl
      rw [htext, List.append_nil] at hc
      exact n.not_mark_of_mem gap hc hmark
    by_cases hunion : resolve n.name ∈ unionTypes <;> simp [hunion, hne]
  · rw [ofText_of_unnamed hbar hnamed]
    simp

theorem isolated_iff_of_mark {text : String} {c : Char} (hc : c ∈ bare text)
    (hmark : c ∈ ['[', '(', ']', ')', '|']) (resolve : String → String) :
    (ofText text resolve).Isolated ↔
      ¬ ∃ (n : SpacedName) (gap : Blanks) (arguments : List Char),
        bare text = n.chars ++ (gap.val ++ arguments) ∧ IsGeneric resolve n arguments := by
  rw [isolated_ofText_iff (kind_ne_name_of_mark hc hmark resolve)]
  refine not_congr ⟨exists_of_kind_eq_generic, ?_⟩
  rintro ⟨n, gap, arguments, htext, hgeneric⟩
  exact (kind_of_isGeneric htext hgeneric).1

end TypeRef

end TypedTables
