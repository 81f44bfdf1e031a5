namespace TypedTables

inductive Data where
  | null
  | bool (value : Bool)
  | int (value : Int)
  | float (value : Float)
  | text (value : String)
  | moment (written : String)
  | list (items : List Data)
  | map (entries : List (String × Data))
  deriving Inhabited

namespace Data

def get? (d : Data) (key : String) : Option Data :=
  match d with
  | .map entries => entries.lookup key
  | _ => none

/-- Whether the data is neither nothing, nor no, nor zero, nor empty. -/
def isPresent : Data → Bool
  | .null => false
  | .bool b => b
  | .int n => n ≠ 0
  | .float x => x != 0
  | .text s => !s.isEmpty
  | .moment _ => true
  | .list items => !items.isEmpty
  | .map entries => !entries.isEmpty

end Data

end TypedTables
