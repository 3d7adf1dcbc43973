import SagaEngine.Binary64
import SagaEngine.Table

/-! TOML values. An integer has 64 bits; a date or time is held as its normal text. The entries of a
table are in the order of the document. -/

namespace SagaEngine

inductive Toml where
  | str (s : String)
  | int (n : Int)
  | float (x : Binary64)
  | bool (b : Bool)
  | datetime (text : String)
  | arr (items : List Toml)
  | table (entries : List (String × Toml))
deriving Inhabited, Repr

end SagaEngine
