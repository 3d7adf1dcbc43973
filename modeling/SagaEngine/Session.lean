import SagaEngine.Mailbox

/-! Sessions: the variables and the mailbox that all contexts of one session share. -/

namespace SagaEngine

abbrev Data := Table Json

def Data.push (d : Data) (key : String) (v : Json) : Data :=
  d.insert key <| match d.get? key with
    | none => .arr [v]
    | some (.arr items) => .arr (items ++ [v])
    | some old => .arr [old, v]

def Data.snapshot (d : Data) : Json := .obj d

structure Session where
  id : String
  data : Data := []
  mailbox : Mailbox := {}
deriving Repr, DecidableEq, Inhabited

end SagaEngine
