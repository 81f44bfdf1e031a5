import TypedTables.Diagnostics

namespace TypedTables

namespace Diagnostics

@[simp]
theorem ofNotices_nil : ofNotices [] = [] := rfl

@[simp]
theorem ofNotices_append (xs ys : List Notice) :
    ofNotices (xs ++ ys) = ofNotices xs ++ ofNotices ys := by
  simp [ofNotices]

@[simp]
theorem ofNotices_log (record : LogRecord) (rest : List Notice) :
    ofNotices (.log record :: rest) = ofNotices rest := rfl

@[simp]
theorem ofNotices_info (source : LogSource) (message : String) (rest : List Notice) :
    ofNotices (.info source message :: rest) = ofNotices rest := rfl

@[simp]
theorem ofNotices_warning (message : String) (entity field : Option String) (rest : List Notice) :
    ofNotices (.warning message entity field :: rest) =
      ⟨.warning, message, entity, field⟩ :: ofNotices rest := rfl

@[simp]
theorem ofNotices_error (message : String) (entity field : Option String) (rest : List Notice) :
    ofNotices (.error message entity field :: rest) =
      ⟨.error, message, entity, field⟩ :: ofNotices rest := rfl

theorem ofNotices_flatMap {α : Type} (f : α → List Notice) (xs : List α) :
    ofNotices (xs.flatMap f) = xs.flatMap (fun x => ofNotices (f x)) := by
  simp [ofNotices, List.filterMap_flatMap]

@[simp]
theorem errors_nil : errors [] = [] := rfl

@[simp]
theorem errors_append (xs ys : Diagnostics) : errors (xs ++ ys) = errors xs ++ errors ys := by
  simp [errors]

@[simp]
theorem errors_warning (message : String) (entity field : Option String) (rest : Diagnostics) :
    errors (⟨.warning, message, entity, field⟩ :: rest) = errors rest := rfl

@[simp]
theorem errors_error (message : String) (entity field : Option String) (rest : Diagnostics) :
    errors (⟨.error, message, entity, field⟩ :: rest) =
      ⟨.error, message, entity, field⟩ :: errors rest := rfl

theorem mem_errors {ds : Diagnostics} {d : Diagnostic} :
    d ∈ ds.errors ↔ d ∈ ds ∧ d.severity = .error := by
  simp [errors]

theorem hasErrors_iff {ds : Diagnostics} : ds.hasErrors = true ↔ ds.errors ≠ [] := by
  rw [hasErrors, List.any_eq_true, errors, ne_eq, List.filter_eq_nil_iff]
  simp

theorem errors_flatMap {α : Type} (f : α → Diagnostics) (xs : List α) :
    errors (xs.flatMap f) = xs.flatMap (fun x => errors (f x)) := by
  simp [errors, List.filter_flatMap]

end Diagnostics

end TypedTables
