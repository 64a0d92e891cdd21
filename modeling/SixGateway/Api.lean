import SixGateway.CheckoutService

namespace SixGateway.Api

open Library Models Errors Database LedgerService Schemas PaymentService CheckoutService

/-- The principal that `require_api_key` has authenticated. -/
structure Merchant where
  id : String
  name : String
  email : String
  isActive : Bool
  createdAt : Instant
  deriving DecidableEq

structure PaymentIntentRead where
  id : String
  stripePaymentIntentId : Option String
  merchantId : Option String
  amount : Int
  currency : String
  amountReceived : Int
  amountRefunded : Int
  status : PaymentIntentStatus
  customerId : Option String
  description : Option String
  clientSecret : Option String
  createdAt : Instant
  updatedAt : Instant
  deriving DecidableEq

/-- `PaymentIntentRead.model_validate`. -/
def intentRead (p : PaymentIntent) : PaymentIntentRead where
  id := p.id
  stripePaymentIntentId := p.stripePaymentIntentId
  merchantId := p.merchantId
  amount := p.amount
  currency := p.currency
  amountReceived := p.amountReceived
  amountRefunded := p.amountRefunded
  status := p.status
  customerId := p.customerId
  description := p.description
  clientSecret := p.clientSecret
  createdAt := p.createdAt
  updatedAt := p.updatedAt

structure LedgerEntryRead where
  id : String
  transactionId : String
  account : String
  direction : LedgerEntryDirection
  amount : Int
  currency : String
  paymentIntentId : Option String
  description : Option String
  createdAt : Instant
  deriving DecidableEq

def entryRead (e : LedgerEntry) : LedgerEntryRead where
  id := e.id
  transactionId := e.transactionId
  account := e.account
  direction := e.direction
  amount := e.amount
  currency := e.currency
  paymentIntentId := e.paymentIntentId
  description := e.description
  createdAt := e.createdAt

structure TransactionDetail extends PaymentIntentRead where
  ledgerEntries : List LedgerEntryRead
  deriving DecidableEq

structure CheckoutSessionRead where
  id : String
  merchantId : String
  paymentIntentId : Option String
  amount : Int
  currency : String
  description : Option String
  status : CheckoutSessionStatus
  successUrl : Option String
  expiresAt : Instant
  createdAt : Instant
  updatedAt : Instant
  checkoutUrl : String
  deriving DecidableEq

def sessionRead (cs : CheckoutSession) : CheckoutSessionRead where
  id := cs.id
  merchantId := cs.merchantId
  paymentIntentId := cs.paymentIntentId
  amount := cs.amount
  currency := cs.currency
  description := cs.description
  status := cs.status
  successUrl := cs.successUrl
  expiresAt := cs.expiresAt
  createdAt := cs.createdAt
  updatedAt := cs.updatedAt
  checkoutUrl := "/checkout/" ++ cs.id

def respond {α β : Type} (f : α → β) (p : Service α) : Service β := p.bind (fun a => .ret (f a))

def intentRetrieved (intentId : String) : Option PaymentIntent → Service PaymentIntentRead
  | none => .raise (notFound intentId)
  | some intent => .ret (intentRead intent)

def retrievePaymentIntent (intentId : String) (_merchant : Merchant) :
    Service PaymentIntentRead :=
  (retrieveIntent intentId).bind (intentRetrieved intentId)

/-- Unlike the routes under `/payments`, this one compares the owner of the row. -/
def transactionLoaded (intentId : String) (merchant : Merchant) :
    Option PaymentIntent → Service TransactionDetail
  | none => .raise (notFound intentId)
  | some intent =>
    if intent.merchantId ≠ some merchant.id then .raise (notFound intentId)
    else .read fun db => .ret ⟨intentRead intent, (listEntriesForIntent db intentId).map entryRead⟩

def getTransaction (intentId : String) (merchant : Merchant) : Service TransactionDetail :=
  .read fun db => transactionLoaded intentId merchant (db.intentById intentId)

def retrieveCheckoutSession (sessionId : String) (merchant : Merchant) (env : Env) :
    Service CheckoutSessionRead :=
  (getOpenSession sessionId env).bind fun cs =>
    if cs.merchantId ≠ merchant.id then .raise (sessionNotFound sessionId)
    else .ret (sessionRead cs)

def confirmPaymentIntent (intentId : String) (payload : PaymentIntentConfirm)
    (_merchant : Merchant) (env : Env) : Service PaymentIntentRead :=
  respond intentRead (confirmIntent intentId payload env)

variable [StrLower]

def createPaymentIntent (payload : PaymentIntentCreate) (merchant : Merchant) (env : Env) :
    Service PaymentIntentRead :=
  respond intentRead (createIntent payload (some merchant.id) env)

def cancelPaymentIntent (intentId : String) (payload : PaymentIntentCancel)
    (_merchant : Merchant) (env : Env) : Service PaymentIntentRead :=
  respond intentRead (cancelIntent intentId payload env)

def refundPaymentIntent (intentId : String) (payload : RefundCreate)
    (_merchant : Merchant) (env : Env) : Service PaymentIntentRead :=
  respond intentRead
    (refundIntent intentId payload.idempotencyKey payload.amount payload.reason env)

def createCheckoutSession (payload : CheckoutSessionCreate) (merchant : Merchant) (env : Env) :
    Service CheckoutSessionRead :=
  respond sessionRead (createSession merchant.id payload env)

end SixGateway.Api
