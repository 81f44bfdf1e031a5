namespace TypedTables.Text

/-- The code points of the digits zero. In each script the ten digits follow each other. -/
def zeroDigits : List Nat := [
  48, 1632, 1776, 1984, 2406, 2534, 2662, 2790, 2918, 3046, 3174, 3302, 3430, 3558, 3664, 3792,
  3872, 4160, 4240, 6112, 6160, 6470, 6608, 6784, 6800, 6992, 7088, 7232, 7248, 42528, 43216,
  43264, 43472, 43504, 43600, 44016, 65296, 66720, 68912, 69734, 69872, 69942, 70096, 70384,
  70736, 70864, 71248, 71360, 71472, 71904, 72016, 72784, 73040, 73120, 92768, 92864, 93008,
  120782, 120792, 120802, 120812, 120822, 123200, 123632, 125264, 130032]

def digitValue? (c : Char) : Option Nat :=
  (zeroDigits.find? (fun start => start ≤ c.toNat && c.toNat < start + 10)).map (c.toNat - ·)

def digitsFrom (value : Nat) : List Char → Option Nat
  | [] => some value
  | '_' :: c :: cs => (digitValue? c).bind (fun d => digitsFrom (value * 10 + d) cs)
  | c :: cs => (digitValue? c).bind (fun d => digitsFrom (value * 10 + d) cs)

/-- A number written in digits, with single underscores allowed between digits. -/
def natOfDigits? : List Char → Option Nat
  | [] => none
  | c :: cs => (digitValue? c).bind (fun d => digitsFrom d cs)

def intOfDigits? : List Char → Option Int
  | '-' :: cs => (natOfDigits? cs).map (fun n => -(n : Int))
  | '+' :: cs => (natOfDigits? cs).map Int.ofNat
  | cs => (natOfDigits? cs).map Int.ofNat

end TypedTables.Text
