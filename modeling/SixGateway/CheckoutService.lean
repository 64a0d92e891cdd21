import SixGateway.PaymentService

namespace SixGateway.CheckoutService

open Library Models Errors Database Schemas PaymentService

def sessionNotFound (sessionId : String) : Exn :=
  .app .checkoutSessionNotFound s!"checkout session {sessionId} not found"

def refreshSession (cs : CheckoutSession) : Service CheckoutSession :=
  .read fun db => .ret ((db.sessionById cs.id).getD cs)

def findByPaymentIntent (db : Db) (paymentIntentId : String) :
    Except Exn (Option CheckoutSession) :=
  scalarOneOrNone (db.sessionsByIntent paymentIntentId)

/-- `get_open_session` decides on the row it read and writes only the status. -/
def openLoaded (sessionId : String) (env : Env) : Option CheckoutSession → Service CheckoutSession
  | none => .raise (sessionNotFound sessionId)
  | some cs =>
    if cs.status = .opened ∧ cs.expiresAt < env.now then
      .commit [.updateSession cs { cs with status := .expired } env.now] (refreshSession cs)
    else .ret cs

def getOpenSession (sessionId : String) (env : Env) : Service CheckoutSession :=
  .read fun db => openLoaded sessionId env (db.sessionById sessionId)

/-- `complete_session` on the row it got, inside a unit of work that has flushed `work`. Its
commit commits `work` as well; what it returns is still to be committed. -/
def completeLoaded (work : List Stmt) (sessionId : String) (env : Env) :
    Option CheckoutSession → Service (List Stmt)
  | none => .raise (sessionNotFound sessionId)
  | some cs =>
    if cs.status ≠ .completed then
      .commit (work ++ [.updateSession cs { cs with status := .completed } env.now]) (.ret [])
    else .ret work

def completeFound (sessionId : String) (env : Env) :
    Option CheckoutSession → Service CheckoutSession
  | none => .raise (sessionNotFound sessionId)
  | some cs => (completeLoaded [] sessionId env (some cs)).bind fun _ =>
    if cs.status = .completed then .ret cs else refreshSession cs

/-- `complete_session` as a unit of work of its own. -/
def completeSession (sessionId : String) (env : Env) : Service CheckoutSession :=
  .read fun db => completeFound sessionId env (db.sessionById sessionId)

variable [StrLower]

/-- The body `create_session` passes to `create_intent`; the schema checks it once more. -/
def intentPayload (payload : CheckoutSessionCreate) : Except Exn PaymentIntentCreate :=
  if h : payload.currency.length = 3 then
    .ok { amount := payload.amount, currency := lower payload.currency,
          idempotencyKey := payload.idempotencyKey, customerId := none,
          description := payload.description, metadata := [],
          amount_ge := payload.amount_ge, currency_sent := ⟨payload.currency, h, rfl⟩,
          key_length := payload.key_length, description_length := payload.description_length }
  else .error (.validationError "currency")

def newSession (merchant : String) (payload : CheckoutSessionCreate) (intent : PaymentIntent)
    (env : Env) : CheckoutSession where
  id := "cs_" ++ env.sessionUuid
  merchantId := merchant
  paymentIntentId := some intent.id
  amount := payload.amount
  currency := lower payload.currency
  description := payload.description
  status := .opened
  successUrl := payload.successUrl
  expiresAt := env.now + hours 24
  createdAt := env.now
  updatedAt := env.now

def sessionLooked (merchant : String) (payload : CheckoutSessionCreate) (intent : PaymentIntent)
    (env : Env) : Except Exn (Option CheckoutSession) → Service CheckoutSession
  | .error e => .raise e
  | .ok (some existing) => .ret existing
  | .ok none =>
    let cs := newSession merchant payload intent env
    .commit [.insertSession cs] (refreshSession cs)

/-- The second half of `create_session`, once `create_intent` has returned. -/
def linkSession (merchant : String) (payload : CheckoutSessionCreate) (env : Env)
    (intent : PaymentIntent) : Service CheckoutSession :=
  .read fun db => sessionLooked merchant payload intent env (findByPaymentIntent db intent.id)

def createSession (merchant : String) (payload : CheckoutSessionCreate) (env : Env) :
    Service CheckoutSession :=
  (Program.ofExcept (intentPayload payload)).bind fun p =>
    (createIntent p (some merchant) env).bind (linkSession merchant payload env)

end SixGateway.CheckoutService
