/-! Untyped data of a settings document, before it is fitted to the settings. -/

set_option autoImplicit false

namespace ColorTokens

/-- No setting takes a fraction or a moment in time, so what these say is not kept. -/
inductive Data where
  | null
  | boolean (value : Bool)
  | integer (value : Int)
  | fraction
  | moment
  | text (value : String)
  | list (items : List Data)
  | table (entries : List (String × Data))
  deriving Inhabited

namespace Data

def text? : Data → Option String
  | .text value => some value
  | _ => none

def texts? : Data → Option (List String)
  | .list items => items.mapM text?
  | _ => none

/-- The largest count that fits in 64 bits. -/
def maxCount : Nat :=
  18446744073709551615

def count? : Data → Option Nat
  | .integer (.ofNat value) => if value ≤ maxCount then some value else none
  | _ => none

def entries? : Data → Option (List (String × Data))
  | .table entries => some entries
  | _ => none

end Data

def readField {α : Type} (entries : List (String × Data)) (key : String) (default : α)
    (read : Data → Option α) : Option α :=
  match entries.lookup key with
  | some data => read data
  | none => some default

end ColorTokens
