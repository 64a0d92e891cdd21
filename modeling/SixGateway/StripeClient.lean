import SixGateway.Models

namespace SixGateway.StripeClient

open Models

/-- The calls of the facade, with the arguments it passes on. -/
inductive StripeCall where
  | createPaymentIntent (amount : Int) (currency idempotencyKey : String)
      (customer description : Option String) (metadata : Json)
  | confirmPaymentIntent (stripePaymentIntentId paymentMethod idempotencyKey : String)
  | cancelPaymentIntent (stripePaymentIntentId idempotencyKey : String)
      (cancellationReason : Option String)
  | createRefund (paymentIntent : String) (amount : Int) (idempotencyKey : String)
      (reason : Option String)
  deriving DecidableEq

structure StripeObject where
  id : String
  status : String
  clientSecret : Option String
  deriving DecidableEq

/-- An object, or the text of a `StripeError`. -/
abbrev StripeAnswer := Except String StripeObject

/-- `if cancellation_reason:` leaves an empty reason out. -/
def cancelPaymentIntent (stripePaymentIntentId idempotencyKey : String)
    (cancellationReason : Option String) : StripeCall :=
  .cancelPaymentIntent stripePaymentIntentId idempotencyKey (truthy cancellationReason)

/-- `if reason:` leaves an empty reason out. -/
def createRefund (stripePaymentIntentId : String) (amount : Int) (idempotencyKey : String)
    (reason : Option String) : StripeCall :=
  .createRefund stripePaymentIntentId amount idempotencyKey (truthy reason)

/-- What a balance transaction holds under `payment_intent` of its expanded source. -/
inductive PaymentIntentRef where
  | id (v : String)
  | expanded (id : Option String)
  | other
  deriving DecidableEq

inductive TransactionSource where
  | expanded (paymentIntent : PaymentIntentRef)
  | other
  deriving DecidableEq

/-- A balance transaction, with the second in which Stripe created it. -/
structure BalanceTransaction where
  id : String
  type : String
  amount : Int
  created : Int
  source : TransactionSource
  deriving DecidableEq

end SixGateway.StripeClient
