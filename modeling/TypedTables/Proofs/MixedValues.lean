import TypedTables.Mixed

/-!
Mixed values as the round trip of what they store: a plain value is of one kind at most, storing
keeps the kind and the value, and of the accessors only the one of that kind gives the value back.
-/

namespace TypedTables

/-- A plain value of one of the scalar kinds. A boolean is of its own kind only, and bytes are of
one kind whatever holds them. A released view holds none. -/
inductive MixedInput.Carries : MixedInput → (kind : MixedKind) → kind.Value → Prop
  | integer (n : Int) : Carries (.integer n) .integer n
  | boolean (b : Bool) : Carries (.boolean b) .boolean b
  | string (s : String) : Carries (.string s) .string s
  | date (m : Moment) : Carries (.date m) .date m
  | binary (holder : ByteHolder) (bytes : List UInt8) : Carries (.binary holder bytes) .binary bytes

namespace Mixed

def accessor : (kind : MixedKind) → Mixed → Except MixedError kind.Value
  | .integer => asInt
  | .boolean => asBool
  | .string => asString
  | .date => asMoment
  | .binary => asBytes

theorem accessor_eq_expect (asked : MixedKind) (m : Mixed) : m.accessor asked = m.expect asked := by
  cases asked <;> rfl

theorem expect_of_ne {m : Mixed} {asked : MixedKind} (h : m.kind ≠ asked) :
    m.expect asked = .error (.otherKind m.kind asked) := by
  simp [expect, h]

end Mixed

def MixedKind.mixed : (kind : MixedKind) → kind.Value → Mixed
  | .integer => .integer
  | .boolean => .boolean
  | .string => .string
  | .date => .date
  | .binary => .binary

@[simp]
theorem MixedKind.kind_mixed (kind : MixedKind) (x : kind.Value) : (kind.mixed x).kind = kind := by
  cases kind <;> rfl

theorem MixedKind.expect_mixed (kind : MixedKind) (x : kind.Value) :
    (kind.mixed x).expect kind = .ok x := by
  cases kind <;> rfl

namespace MixedInput

variable {v : MixedInput} {kind : MixedKind} {x : kind.Value}

theorem Carries.of_eq (h : v.Carries kind x) : Mixed.of v = .ok (kind.mixed x) := by
  cases h <;> rfl

/-- Of the accessors of a stored plain value, the one of its kind gives the value and the others
name both kinds. -/
theorem Carries.accessor (h : v.Carries kind x) :
    ∃ m, Mixed.of v = .ok m ∧ m.accessor kind = .ok x ∧
      ∀ asked, asked ≠ kind → m.accessor asked = .error (.otherKind kind asked) := by
  refine ⟨kind.mixed x, h.of_eq, ?_, fun asked hne => ?_⟩
  · rw [Mixed.accessor_eq_expect, kind.expect_mixed]
  · have hkind : (kind.mixed x).kind ≠ asked := by simpa using hne.symm
    rw [Mixed.accessor_eq_expect, Mixed.expect_of_ne hkind, kind.kind_mixed]

end MixedInput

end TypedTables
