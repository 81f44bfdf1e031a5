/-!
The shortest decimal of a binary number: among the decimals that read back as the number, one with
the fewest digits, and of those the nearest.
-/

namespace TypedTables

/-- A positive binary number `mantissa * 2 ^ exponent`. If `narrowBelow` holds, the number below
it is half as far away as the number above. -/
structure BinaryNumber where
  mantissa : Nat
  exponent : Int
  narrowBelow : Bool
  deriving DecidableEq, Repr

def BinaryNumber.ofBits (bits : Nat) : BinaryNumber :=
  let fraction : Nat := bits % Nat.pow 2 52
  let field : Nat := bits / Nat.pow 2 52
  if field = 0 then ⟨fraction, -1074, false⟩
  else ⟨Nat.pow 2 52 + fraction, (field : Int) - 1075, fraction = 0 && field ≠ 1⟩

structure DecimalNumber where
  digits : Nat
  exponent : Int
  deriving DecidableEq, Repr

/-- Two quotients without denominators: `d * 10 ^ k` and `b * 2 ^ q` over a common one. -/
def overCommon (d : Nat) (k : Int) (b : Nat) (q : Int) : Nat × Nat :=
  (d * Nat.pow 10 k.toNat * Nat.pow 2 (-q).toNat,
    b * Nat.pow 2 q.toNat * Nat.pow 10 (-k).toNat)

/-- Whether a decimal lies in the interval of the reals that round to the number. -/
def BinaryNumber.readsBack (b : BinaryNumber) (d : DecimalNumber) : Bool :=
  let (x, high) := overCommon d.digits d.exponent (4 * b.mantissa + 2) (b.exponent - 2)
  let below := if b.narrowBelow then 1 else 2
  let (_, low) := overCommon d.digits d.exponent (4 * b.mantissa - below) (b.exponent - 2)
  if b.mantissa % 2 = 0 then low ≤ x && x ≤ high else low < x && x < high

/-- The exponent `e` with `10 ^ (e - 1) ≤ b < 10 ^ e`. -/
def BinaryNumber.magnitude (b : BinaryNumber) : Int :=
  let whole := b.mantissa * Nat.pow 2 b.exponent.toNat / Nat.pow 2 (-b.exponent).toNat
  if whole ≠ 0 then ((Nat.toDigits 10 whole).length : Int)
  else
    let inverse := (Nat.pow 2 (-b.exponent).toNat + b.mantissa - 1) / b.mantissa
    1 - ((Nat.toDigits 10 (inverse - 1)).length : Int)

/-- The decimal with an exponent that is nearest to the number among its two neighbours that read
back, if one does; of two equally near ones the even one. -/
def BinaryNumber.onGrid? (b : BinaryNumber) (k : Int) : Option DecimalNumber :=
  let (unit, value) := overCommon 1 k b.mantissa b.exponent
  let low : DecimalNumber := ⟨value / unit, k⟩
  let high : DecimalNumber := ⟨value / unit + 1, k⟩
  let twice := 2 * (value % unit)
  let preferLow := twice < unit || (twice = unit && low.digits % 2 = 0)
  match b.readsBack low && low.digits ≠ 0, b.readsBack high with
  | true, true => some (if preferLow then low else high)
  | true, false => some low
  | false, true => some high
  | false, false => none

/-- The shortest decimal; 17 digits are always enough. -/
def BinaryNumber.shortest (b : BinaryNumber) : DecimalNumber :=
  let top := b.magnitude
  let grids := (List.range 17).map (fun (n : Nat) => top - 1 - (n : Int))
  (grids.findSome? b.onGrid?).getD ⟨0, 0⟩

end TypedTables
