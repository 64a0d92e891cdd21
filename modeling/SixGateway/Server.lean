import SixGateway.MerchantService
import SixGateway.Dashboard
import SixGateway.Gateway
import SixGateway.Rendering
import SixGateway.Library.Pool

namespace SixGateway.Server

open Library Models Errors Database Schemas StripeClient PaymentService CheckoutService Webhook
open Api Dashboard ApiKeyService Gateway HostedPage Rendering Responses MerchantService

/-- What `HTTPBearer` has made of an `Authorization` header. -/
structure Credentials where
  scheme : String
  credentials : String
  deriving DecidableEq

structure Headers where
  authorization : Option Credentials
  xAdminKey : Option String
  stripeSignature : Option String
  deriving DecidableEq

/-- The ways in which the Stripe SDK turns an event down, with the text of the exception. -/
inductive EventRefusal where
  | signatureVerificationError (text : String)
  | valueError (text : String)

/-- The settings that the handlers read, the templates, and the functions of other packages. -/
structure Deployment where
  adminApiKey : String
  stripePublishableKey : String
  sessionTemplate : String
  messageTemplate : String
  sha256 : String → String
  constructEvent : List UInt8 → String → Except EventRefusal StripeEvent

structure Surroundings where
  env : Env
  keyEnv : KeyEnv
  merchantUuid : String
  intentOrder : RowOrder PaymentIntent

structure MerchantCreate where
  name : String
  email : String
  name_length : 1 ≤ name.length ∧ name.length ≤ 255
  email_length : 3 ≤ email.length ∧ email.length ≤ 255

structure APIKeyCreateRequest where
  name : String
  name_length : 1 ≤ name.length ∧ name.length ≤ 255

structure MerchantRead where
  id : String
  name : String
  email : String
  isActive : Bool
  createdAt : Instant
  deriving DecidableEq

def merchantRead (m : Merchant) : MerchantRead := ⟨m.id, m.name, m.email, m.isActive, m.createdAt⟩

/-- Neither the hash nor the key is in it. -/
structure APIKeyRead where
  id : String
  merchantId : String
  keyPrefix : String
  name : String
  isActive : Bool
  lastUsedAt : Option Instant
  createdAt : Instant
  deriving DecidableEq

def keyRead (k : APIKey) : APIKeyRead where
  id := k.id
  merchantId := k.merchantId
  keyPrefix := k.keyPrefix
  name := k.name
  isActive := k.isActive
  lastUsedAt := k.lastUsedAt
  createdAt := k.createdAt

structure APIKeyIssued extends APIKeyRead where
  key : String
  deriving DecidableEq

inductive Content where
  | intent (p : PaymentIntentRead)
  | session (cs : CheckoutSessionRead)
  | balance (b : BalanceResponse)
  | transactions (t : PaginatedTransactions)
  | transaction (t : TransactionDetail)
  | merchant (m : MerchantRead)
  | issued (k : APIKeyIssued)
  | keys (ks : List APIKeyRead)
  | key (k : APIKeyRead)
  | webhook (r : WebhookReply)
  | html (text : String)
  | error (e : ErrorResponse)
  deriving DecidableEq

structure Answer where
  statusCode : Nat
  content : Content
  deriving DecidableEq

/-- The exception handlers turn what a route raised into an answer. -/
def answerOf : Except Failure Answer → Answer
  | .ok a => a
  | .error f => ⟨f.rendered.1, .error f.rendered.2⟩

def answered {α : Type} (statusCode : Nat) (content : α → Content) (p : Service α) :
    SiteService Answer :=
  (p.embed onPayments).bind (fun a => .ret ⟨statusCode, content a⟩)

/-- The routes that depend on `require_api_key`. -/
inductive MerchantRoute [StrLower] where
  | createPaymentIntent (payload : PaymentIntentCreate)
  | confirmPaymentIntent (intentId : String) (payload : PaymentIntentConfirm)
  | cancelPaymentIntent (intentId : String) (payload : PaymentIntentCancel)
  | retrievePaymentIntent (intentId : String)
  | refundPaymentIntent (intentId : String) (payload : RefundCreate)
  | getBalance
  | listTransactions (query : TransactionsQuery)
  | getTransaction (intentId : String)
  | createCheckoutSession (payload : CheckoutSessionCreate)
  | retrieveCheckoutSession (sessionId : String)

/-- The routes that depend on `require_admin_api_key`. -/
inductive AdminRoute where
  | createMerchant (payload : MerchantCreate)
  | issueApiKey (merchantId : String) (payload : APIKeyCreateRequest)
  | listApiKeys (merchantId : String)
  | revokeApiKey (merchantId keyId : String)

inductive Route [StrLower] where
  | merchant (r : MerchantRoute)
  | admin (r : AdminRoute)
  | stripeWebhook (payload : List UInt8)
  | hostedCheckoutPage (sessionId : String)

def constantTimeEq (a b : String) : Bool := decide (a = b)

def requireAdminApiKey (adminApiKey : String) (xAdminKey : Option String) : SiteService Unit :=
  if (truthy xAdminKey).any (fun key => constantTimeEq key adminApiKey) then .ret ()
  else .raise (.exn (unauthorized "invalid or missing X-Admin-Key header"))

variable [StrLower]

def MerchantRoute.endpoint (m : Merchant) (s : Surroundings) : MerchantRoute → SiteService Answer
  | createPaymentIntent payload => answered 201 .intent (Api.createPaymentIntent payload m s.env)
  | confirmPaymentIntent intentId payload =>
    answered 200 .intent (Api.confirmPaymentIntent intentId payload m s.env)
  | cancelPaymentIntent intentId payload =>
    answered 200 .intent (Api.cancelPaymentIntent intentId payload m s.env)
  | retrievePaymentIntent intentId => answered 200 .intent (Api.retrievePaymentIntent intentId m)
  | refundPaymentIntent intentId payload =>
    answered 201 .intent (Api.refundPaymentIntent intentId payload m s.env)
  | getBalance => .read fun site => .ret ⟨200, .balance (Dashboard.getBalance site.db m.id)⟩
  | listTransactions query =>
    answered 200 .transactions (Dashboard.transactionsPage m query s.intentOrder)
  | getTransaction intentId => answered 200 .transaction (Api.getTransaction intentId m)
  | createCheckoutSession payload =>
    answered 201 .session (Api.createCheckoutSession payload m s.env)
  | retrieveCheckoutSession sessionId =>
    answered 200 .session (Api.retrieveCheckoutSession sessionId m s.env)

def stripeWebhook (d : Deployment) (payload : List UInt8) (signature : Option String) (env : Env) :
    SiteService Answer :=
  match truthy signature with
  | none => .raise (.invalidSignature "missing Stripe-Signature header")
  | some sigHeader =>
    match d.constructEvent payload sigHeader with
    | .error (.signatureVerificationError text) => .raise (.invalidSignature text)
    | .error (.valueError text) => .raise (.invalidPayload text)
    | .ok event => answered 200 .webhook (Webhook.stripeWebhook event env)

section

variable [StrRepr]

def requireApiKey (sha256 : String → String) (authorization : Option Credentials) (env : KeyEnv) :
    SiteService Merchant :=
  match authorization with
  | none => .raise (.exn (unauthorized "missing Authorization header"))
  | some c =>
    if lower c.scheme ≠ "bearer" then
      .raise (.exn (unauthorized s!"expected Bearer scheme, got {pyRepr c.scheme}"))
    else (verifyApiKey sha256 c.credentials env).embed onAccounts

def AdminRoute.endpoint (sha256 : String → String) (s : Surroundings) :
    AdminRoute → SiteService Answer
  | createMerchant payload =>
    (MerchantService.createMerchant payload.name payload.email s.merchantUuid s.env.now).bind fun m =>
      .ret ⟨201, .merchant (merchantRead m)⟩
  | issueApiKey merchantId payload => (getMerchant merchantId).bind fun _ =>
    ((createApiKey sha256 merchantId payload.name s.keyEnv).embed onAccounts).bind fun issued =>
      .ret ⟨201, .issued ⟨keyRead issued.1, issued.2⟩⟩
  | listApiKeys merchantId => (getMerchant merchantId).bind fun _ =>
    (MerchantService.listApiKeys merchantId s.keyEnv.order).bind fun keys =>
      .ret ⟨200, .keys (keys.map keyRead)⟩
  | revokeApiKey merchantId keyId =>
    ((ApiKeyService.revokeApiKey keyId merchantId).embed onAccounts).bind fun row =>
      .ret ⟨200, .key (keyRead row)⟩

variable [StrUpper]

/-- A page that cannot be rendered is an `OverflowError`. -/
def servePage (d : Deployment) (page : Page) : SiteService Answer :=
  match renderPage d.sessionTemplate d.messageTemplate page with
  | none => .raise .overflowError
  | some (statusCode, text) => .ret ⟨statusCode, .html text⟩

def hostedCheckoutPage (d : Deployment) (sessionId : String) (env : Env) : SiteService Answer :=
  ((HostedPage.hostedCheckoutPage d.stripePublishableKey sessionId env).embed onPayments).bind
    (servePage d)

def Route.program (d : Deployment) (h : Headers) (s : Surroundings) : Route → SiteService Answer
  | merchant r => (requireApiKey d.sha256 h.authorization s.keyEnv).bind fun m => r.endpoint m s
  | admin r => (requireAdminApiKey d.adminApiKey h.xAdminKey).bind fun _ => r.endpoint d.sha256 s
  | stripeWebhook payload => Server.stripeWebhook d payload h.stripeSignature s.env
  | hostedCheckoutPage sessionId => Server.hostedCheckoutPage d sessionId s.env

structure HttpRequest where
  route : Route
  headers : Headers
  surroundings : Surroundings

def HttpRequest.program (d : Deployment) (r : HttpRequest) : SiteService Answer :=
  r.route.program d r.headers r.surroundings

def serving (d : Deployment) (site : Site) (calls : List (StripeCall × StripeAnswer))
    (rs : List HttpRequest) : Pool Site StripeCall StripeAnswer SiteStmt Failure Answer :=
  ⟨site, calls, rs.map (HttpRequest.program d)⟩

/-- What has been committed after the first `n` moves of a run. -/
def SiteAt (d : Deployment) (site : Site) (calls : List (StripeCall × StripeAnswer))
    (rs : List HttpRequest) (ls : List (Nat × Act StripeAnswer)) (n : Nat) (past : Site) : Prop :=
  ∃ st, Run.After (Pool.step SiteStmt.apply) (serving d site calls rs) ls n st ∧ st.store = past

end

end SixGateway.Server
