import SixGateway.LedgerService
import SixGateway.Schemas
import SixGateway.StripeClient
import SixGateway.Library.Program

namespace SixGateway.PaymentService

open Library Models Errors Database LedgerService Schemas StripeClient

abbrev Service (α : Type) := Program Db StripeCall StripeAnswer (List Stmt) Exn α

/-- What a request draws from its surroundings: the clock and the `uuid4` values. -/
structure Env where
  now : Instant
  intentUuid : String
  sessionUuid : String
  bookingUuids : BookingUuids

/-- `session.refresh(intent)` after a commit. -/
def refresh (intent : PaymentIntent) : Service PaymentIntent :=
  .read fun db => .ret ((db.intentById intent.id).getD intent)

def notFound (paymentIntentId : String) : Exn :=
  .app .paymentNotFound s!"PaymentIntent {paymentIntentId} not found"

def unknownStatus (status : String) : Exn :=
  .valueError s!"'{status}' is not a valid PaymentIntentStatus"

def payer (customerId : Option String) : String := (truthy customerId).getD "anon"

def pendingAccount (customerId : Option String) : String :=
  "customer_pending:" ++ payer customerId

def customerAccount (customerId : Option String) : String := "customer:" ++ payer customerId

/-- Two legs of one amount, the first a debit and the second a credit. -/
def pair (debited credited : String) (amount : Int) : List LedgerLeg :=
  [⟨debited, .debit, amount⟩, ⟨credited, .credit, amount⟩]

variable [StrLower]

def conflict (payload : PaymentIntentCreate) (existing : PaymentIntent) : Exn :=
  .app .idempotencyConflict
    (s!"idempotency_key={payload.idempotencyKey} previously used for amount={existing.amount} " ++
      s!"currency={existing.currency}; new request has amount={payload.amount} " ++
      s!"currency={lower payload.currency}")

def newIntent (payload : PaymentIntentCreate) (merchant : Option String) (env : Env)
    (stripeIntent : StripeObject) (status : PaymentIntentStatus) : PaymentIntent where
  id := "pi_local_" ++ env.intentUuid
  stripePaymentIntentId := some stripeIntent.id
  idempotencyKey := payload.idempotencyKey
  amount := payload.amount
  currency := lower payload.currency
  status := status
  merchantId := merchant
  customerId := payload.customerId
  description := payload.description
  clientSecret := stripeIntent.clientSecret
  paymentMetadata := payload.metadata
  createdAt := env.now
  updatedAt := env.now

def createAnswered (payload : PaymentIntentCreate) (merchant : Option String) (env : Env) :
    StripeAnswer → Service PaymentIntent
  | .error message => .raise (.stripeError message)
  | .ok stripeIntent =>
    match PaymentIntentStatus.ofValue? stripeIntent.status with
    | none => .raise (unknownStatus stripeIntent.status)
    | some status =>
      let intent := newIntent payload merchant env stripeIntent status
      match recordTransaction
          (pair (pendingAccount payload.customerId) "payments_authorised" payload.amount)
          { currency := payload.currency, paymentIntentId := some intent.id,
            description := some "payment_intent.created" } env.bookingUuids env.now with
      | .error e => .raise e
      | .ok entries => .commit [.insertIntent intent, .insertEntries entries] (refresh intent)

def createLooked (payload : PaymentIntentCreate) (merchant : Option String) (env : Env) :
    Option PaymentIntent → Service PaymentIntent
  | some existing =>
    if existing.amount ≠ payload.amount ∨ existing.currency ≠ lower payload.currency then
      .raise (conflict payload existing)
    else .ret existing
  | none =>
    .call (.createPaymentIntent payload.amount payload.currency payload.idempotencyKey
      payload.customerId payload.description payload.metadata)
      (createAnswered payload merchant env)

def createIntent (payload : PaymentIntentCreate) (merchant : Option String) (env : Env) :
    Service PaymentIntent :=
  .read fun db => createLooked payload merchant env (db.intentByKey payload.idempotencyKey)

def confirmAnswered (intent : PaymentIntent) (env : Env) : StripeAnswer → Service PaymentIntent
  | .error message => .raise (.stripeError message)
  | .ok stripeIntent =>
    match PaymentIntentStatus.ofValue? stripeIntent.status with
    | none => .raise (unknownStatus stripeIntent.status)
    | some status =>
      .commit [.updateIntent intent { intent with status := status } env.now] (refresh intent)

def confirmLoaded (paymentIntentId : String) (payload : PaymentIntentConfirm) (env : Env) :
    Option PaymentIntent → Service PaymentIntent
  | none => .raise (notFound paymentIntentId)
  | some intent =>
    if intent.status ∈ [PaymentIntentStatus.succeeded, .canceled, .failed] then .ret intent
    else match truthy intent.stripePaymentIntentId with
      | none => .raise (.app .invalidState
          s!"PaymentIntent {paymentIntentId} has no Stripe id; cannot confirm")
      | some stripeId =>
        .call (.confirmPaymentIntent stripeId payload.paymentMethodId payload.idempotencyKey)
          (confirmAnswered intent env)

def confirmIntent (paymentIntentId : String) (payload : PaymentIntentConfirm) (env : Env) :
    Service PaymentIntent :=
  .read fun db => confirmLoaded paymentIntentId payload env (db.intentById paymentIntentId)

def cancelAnswered (intent : PaymentIntent) (env : Env) : StripeAnswer → Service PaymentIntent
  | .error message => .raise (.stripeError message)
  | .ok stripeIntent =>
    match PaymentIntentStatus.ofValue? stripeIntent.status with
    | none => .raise (unknownStatus stripeIntent.status)
    | some status =>
      match recordTransaction
          (pair "payments_authorised" (pendingAccount intent.customerId) intent.amount)
          { currency := intent.currency, paymentIntentId := some intent.id,
            description := some "payment_intent.canceled" } env.bookingUuids env.now with
      | .error e => .raise e
      | .ok entries =>
        .commit [.updateIntent intent { intent with status := status } env.now,
          .insertEntries entries] (refresh intent)

def cancelLoaded (paymentIntentId : String) (payload : PaymentIntentCancel) (env : Env) :
    Option PaymentIntent → Service PaymentIntent
  | none => .raise (notFound paymentIntentId)
  | some intent =>
    if intent.status = .canceled then .ret intent
    else if intent.status = .succeeded then
      .raise (.app .invalidState
        s!"PaymentIntent {paymentIntentId} is succeeded; use refund instead of cancel")
    else match truthy intent.stripePaymentIntentId with
      | none => .raise (.app .invalidState
          s!"PaymentIntent {paymentIntentId} has no Stripe id; cannot cancel")
      | some stripeId =>
        .call (cancelPaymentIntent stripeId payload.idempotencyKey payload.reason)
          (cancelAnswered intent env)

def cancelIntent (paymentIntentId : String) (payload : PaymentIntentCancel) (env : Env) :
    Service PaymentIntent :=
  .read fun db => cancelLoaded paymentIntentId payload env (db.intentById paymentIntentId)

def retrieveIntent (paymentIntentId : String) : Service (Option PaymentIntent) :=
  .read fun db => .ret (db.intentById paymentIntentId)

/-- The statements that `apply_succeeded_event` flushes for the row it found. -/
def applySucceeded (intent : PaymentIntent) (amountReceived : Int) (env : Env) :
    Except Exn (List Stmt) :=
  if intent.status = .succeeded then .ok []
  else
    match recordTransaction (pair "payments_authorised" "payments_captured" amountReceived)
        { currency := intent.currency, paymentIntentId := some intent.id,
          description := some "payment_intent.succeeded" } env.bookingUuids env.now with
    | .error e => .error e
    | .ok entries =>
      .ok [.updateIntent intent
          { intent with status := .succeeded, amountReceived := amountReceived } env.now,
        .insertEntries entries]

def refundAnswered (intent : PaymentIntent) (refundAmount : Int) (reason : Option String)
    (env : Env) : StripeAnswer → Service PaymentIntent
  | .error message => .raise (.app .refundFailed message)
  | .ok refund =>
    match recordTransaction
        (pair "payments_captured" (customerAccount intent.customerId) refundAmount)
        { currency := intent.currency, paymentIntentId := some intent.id,
          description := some ("refund:" ++ refund.id),
          metadata := [("stripe_refund_id", some refund.id), ("reason", reason)] }
        env.bookingUuids env.now with
    | .error e => .raise e
    | .ok entries =>
      .commit [.updateIntent intent
          { intent with amountRefunded := intent.amountRefunded + refundAmount } env.now,
        .insertEntries entries] (refresh intent)

def refundLoaded (paymentIntentId idempotencyKey : String) (amount : Option Int)
    (reason : Option String) (env : Env) : Option PaymentIntent → Service PaymentIntent
  | none => .raise (notFound paymentIntentId)
  | some intent =>
    if intent.status ≠ .succeeded then
      .raise (.app .refundNotAllowed (s!"PaymentIntent {paymentIntentId} is " ++
        s!"{intent.status.value}; only succeeded intents are refundable"))
    else match truthy intent.stripePaymentIntentId with
      | none => .raise (.app .refundNotAllowed
          s!"PaymentIntent {paymentIntentId} has no Stripe id")
      | some stripeId =>
        let refundable := intent.amountReceived - intent.amountRefunded
        if refundable ≤ 0 then
          .raise (.app .invalidAmount
            s!"PaymentIntent {paymentIntentId} is already fully refunded")
        else
          let refundAmount := amount.getD refundable
          if refundAmount ≤ 0 ∨ refundable < refundAmount then
            .raise (.app .invalidAmount
              s!"refund amount {refundAmount} outside 1..{refundable}")
          else
            .call (createRefund stripeId refundAmount idempotencyKey reason)
              (refundAnswered intent refundAmount reason env)

def refundIntent (paymentIntentId idempotencyKey : String) (amount : Option Int)
    (reason : Option String) (env : Env) : Service PaymentIntent :=
  .read fun db =>
    refundLoaded paymentIntentId idempotencyKey amount reason env (db.intentById paymentIntentId)

end SixGateway.PaymentService
