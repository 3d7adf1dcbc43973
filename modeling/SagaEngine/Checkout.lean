import SagaEngine.Program

/-! The checkout program, which shows scopes and compensations at work.

    scope checkout:
      on PaymentDeclined: log it, compensate reserve, leave checkout without its compensations
      compensation: refund the payment
      scope reserve: reserve stock; compensation: release it; leave, merging
      charge the card, which may be declined
      leave checkout, merging

Every step appends to the log in the session data. -/

namespace SagaEngine.Checkout

def checkoutScope : String := "checkout"

def reserveScope : String := "reserve"

def paymentDeclined : String := "PaymentDeclined"

def quiet (name : String) (actions : List Action) : Continuation :=
  .mk name false (actions.map .act)

def entry (name text : String) : Continuation := quiet name [.ifNotKilled [.log (.str text)]]

def refund : Continuation := entry "refund" "refund payment"

def releaseStock : Continuation := entry "release_stock" "release stock"

def leave (merge : Bool) : Continuation := quiet "leave_scope" [.leaveScope merge]

def reserveStock : Continuation :=
  quiet "reserve_stock"
    [.pushScope reserveScope none, .log (.str "reserve stock"), .compensation releaseStock,
     .next [leave true]]

def charge (decline : Bool) : Continuation :=
  quiet "charge" <|
    if decline then [.raise ⟨paymentDeclined, some "card declined", .null⟩]
    else [.log (.str "charge card")]

def onDeclined : Continuation :=
  quiet "on_declined" [.log (.str "payment declined"), .compensate reserveScope [leave false]]

/-- The whole program. With `decline` the payment step fails. -/
def program (decline : Bool) : Continuation :=
  quiet "checkout"
    [.pushScope checkoutScope none, .handle paymentDeclined onDeclined, .compensation refund,
     .next [reserveStock, charge decline, leave true]]

end SagaEngine.Checkout
