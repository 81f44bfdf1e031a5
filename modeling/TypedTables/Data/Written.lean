import TypedTables.Data
import TypedTables.Decimal.Shortest
import TypedTables.Text.Quoted

namespace TypedTables.Data

open Text

/-- Decimal digits with a point after the first `places` of them, or with zeros in place of
missing digits. -/
def positional (digits : List Char) (places : Int) : List Char :=
  if places ≤ 0 then
    '0' :: '.' :: (List.replicate (-places).toNat '0' ++ digits)
  else
    let whole := digits.take places.toNat
    let fraction := digits.drop places.toNat
    whole ++ List.replicate (places.toNat - whole.length) '0' ++ '.' ::
      (if fraction.isEmpty then ['0'] else fraction)

def scientific (digits : List Char) (places : Int) : List Char :=
  let exponent := places - 1
  let size := Nat.toDigits 10 exponent.natAbs
  let size := List.replicate (2 - size.length) '0' ++ size
  let fraction := digits.drop 1
  digits.take 1 ++ (if fraction.isEmpty then [] else '.' :: fraction) ++
    'e' :: (if exponent < 0 then '-' else '+') :: size

/-- Numbers from `1e-4` to below `1e16` are written positionally. -/
def finiteFloat (d : DecimalNumber) : List Char :=
  let digits := Nat.toDigits 10 d.digits
  let digits := (digits.reverse.dropWhile (· = '0')).reverse
  let places := d.exponent + ((Nat.toDigits 10 d.digits).length : Int)
  if -4 < places && places ≤ 16 then positional digits places else scientific digits places

def floatText (x : Float) : String :=
  let bits := x.toBits.toNat
  let sign := if bits / Nat.pow 2 63 = 0 then [] else ['-']
  let bits := bits % Nat.pow 2 63
  if bits / Nat.pow 2 52 = 2047 then
    if bits % Nat.pow 2 52 = 0 then String.ofList (sign ++ ['i', 'n', 'f']) else "nan"
  else if bits = 0 then String.ofList (sign ++ ['0', '.', '0'])
  else String.ofList (sign ++ finiteFloat (BinaryNumber.ofBits bits).shortest)

mutual

def written : Data → String
  | .null => "None"
  | .bool b => if b then "True" else "False"
  | .int n => toString n
  | .float x => floatText x
  | .text s => quoted s
  | .moment s => s
  | .list items => "[" ++ String.intercalate ", " (writtenItems items) ++ "]"
  | .map entries => "\x7b" ++ String.intercalate ", " (writtenEntries entries) ++ "\x7d"

def writtenItems : List Data → List String
  | [] => []
  | d :: ds => d.written :: writtenItems ds

def writtenEntries : List (String × Data) → List String
  | [] => []
  | (key, d) :: rest => (quoted key ++ ": " ++ d.written) :: writtenEntries rest

end

/-- The form in which data is shown to a reader: a text stands for itself. -/
def shown : Data → String
  | .text s => s
  | d => d.written

end TypedTables.Data
