import SixGateway.CheckoutService

namespace SixGateway.Webhook

open Library Models Errors Database PaymentService CheckoutService

structure WebhookReply where
  received : Bool
  duplicate : Bool
  deriving DecidableEq

def received (event : StripeEvent) : WebhookEvent where
  id := event.id
  type := event.type
  apiVersion := event.apiVersion
  payload := event
  processedAt := none
  processingError := none

def handlerFailed (event : StripeEvent) (exn : Exn) : Exn :=
  .app .webhookHandlerFailed s!"event {event.id}: {exn.str}"

def failedLooked {α : Type} (event : StripeEvent) (exn : Exn) : Option WebhookEvent → Service α
  | some _ =>
    .commit [.setProcessingError event.id (String.ofList (exn.str.toList.take 2048))]
      (.raise (handlerFailed event exn))
  | none => .raise (handlerFailed event exn)

/-- The `except` branch: everything since the last commit is rolled back, and the error is noted
on the event row if that row was committed before. -/
def failed {α : Type} (event : StripeEvent) (exn : Exn) : Service α :=
  .read fun db => failedLooked event exn (db.eventById event.id)

/-- The end of the handler: stamp the event row and commit what is still flushed. -/
def finish (event : StripeEvent) (env : Env) (work : List Stmt) : Service WebhookReply :=
  .commit (work ++ [.setProcessedAt event.id env.now]) (.ret ⟨true, false⟩)

def dispatchSession (event : StripeEvent) (env : Env) (work : List Stmt) :
    Except Exn (Option CheckoutSession) → Service WebhookReply
  | .error e => failed event e
  | .ok none => finish event env work
  | .ok (some cs) => (completeLoaded work cs.id env (some cs)).bind (finish event env)

variable [StrLower]

def dispatchLoaded (event : StripeEvent) (env : Env) (work : List Stmt) (amountReceived : Int) :
    Option PaymentIntent → Service WebhookReply
  | none => finish event env work
  | some intent =>
    match applySucceeded intent amountReceived env with
    | .error e => failed event e
    | .ok stmts => .read fun db =>
      dispatchSession event env (work ++ stmts) (findByPaymentIntent db intent.id)

/-- `obj.get("amount_received", obj["amount"])` reads `obj["amount"]` in any case. -/
def eventAmount (obj : EventObject) : Except Exn Int :=
  match obj.amount with
  | none => .error (.keyError "amount")
  | some amount => .ok (obj.amountReceived.getD amount)

/-- `_dispatch` and what follows it, for a unit of work that has flushed `work`. -/
def dispatch (event : StripeEvent) (env : Env) (work : List Stmt) : Service WebhookReply :=
  if event.type = "payment_intent.succeeded" then
    match event.object.id with
    | none => failed event (.keyError "id")
    | some stripeId =>
      match eventAmount event.object with
      | .error e => failed event e
      | .ok amountReceived => .read fun db =>
        dispatchLoaded event env work amountReceived (db.intentByStripeId stripeId)
  else finish event env work

def webhookLooked (event : StripeEvent) (env : Env) :
    Option WebhookEvent → Service WebhookReply
  | some existing =>
    if existing.processedAt.isSome then .ret ⟨true, true⟩ else dispatch event env []
  | none => dispatch event env [.insertEvent (received event)]

/-- The handler from the point where the signature has been verified. -/
def stripeWebhook (event : StripeEvent) (env : Env) : Service WebhookReply :=
  .read fun db => webhookLooked event env (db.eventById event.id)

end SixGateway.Webhook
