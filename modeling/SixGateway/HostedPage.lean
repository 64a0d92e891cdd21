import SixGateway.Gateway

namespace SixGateway.HostedPage

open Library Models Errors Database StripeClient PaymentService CheckoutService Gateway

/-- What `_render_open_page` is given besides its template. -/
structure OpenPage where
  pk : String
  clientSecret : String
  amountCents : Int
  currency : String
  description : Option String
  successUrl : Option String
  deriving DecidableEq

/-- What `_render_message_page` is given besides its template; `action` is the address that its
action link leads to. -/
structure MessagePage where
  title : String
  heading : String
  body : String
  iconGlyph : String
  iconClass : String
  action : Option String := none
  deriving DecidableEq

/-- A response of the public page: the payment form, or a message with a status code. -/
inductive Page where
  | form (args : OpenPage)
  | message (statusCode : Nat) (args : MessagePage)
  deriving DecidableEq

def Page.clientSecret? : Page → Option String
  | form args => some args.clientSecret
  | message .. => none

def completePage (cs : CheckoutSession) : Page :=
  .message 200
    { title := "Payment complete — 6ix Gateway", heading := "Payment received",
      body := "Thanks — this session has been paid.", iconGlyph := "✓", iconClass := "success",
      action := cs.successUrl }

def expiredPage : Page :=
  .message 410
    { title := "Link expired — 6ix Gateway", heading := "This checkout link has expired",
      body := "Please contact the seller for a new link.", iconGlyph := "⌛", iconClass := "" }

def unavailablePage : Page :=
  .message 410
    { title := "Unavailable — 6ix Gateway", heading := "This checkout link is not available",
      body := "Please contact the seller.", iconGlyph := "!", iconClass := "" }

def openPage (pk : String) (cs : CheckoutSession) (clientSecret : String) : Page :=
  .form ⟨pk, clientSecret, cs.amount, cs.currency, cs.description, cs.successUrl⟩

/-- The page of an OPEN session, for the intent that its id has led to. -/
def intentPage (pk : String) (cs : CheckoutSession) (intent : Option PaymentIntent) : Page :=
  match intent.bind (fun p => truthy p.clientSecret) with
  | none => unavailablePage
  | some clientSecret => openPage pk cs clientSecret

def sessionPage (pk : String) (cs : CheckoutSession) : Service Page :=
  match cs.status with
  | .completed => .ret (completePage cs)
  | .expired => .ret expiredPage
  | .opened =>
    match cs.paymentIntentId with
    | none => .ret unavailablePage
    | some paymentIntentId => .read fun db => .ret (intentPage pk cs (db.intentById paymentIntentId))

/-- `GET /checkout/{session_id}`, without authentication. -/
def hostedCheckoutPage (pk sessionId : String) (env : Env) : Service Page :=
  (getOpenSession sessionId env).bind (sessionPage pk)

variable {answer : StripeCall → StripeAnswer} {db : Db} {env : Env} {cs : CheckoutSession}
  {pk secret : String}

theorem clientSecret_intentPage {intent : Option PaymentIntent}
    (h : (intentPage pk cs intent).clientSecret? = some secret) :
    ∃ p, intent = some p ∧ truthy p.clientSecret = some secret ∧
      intentPage pk cs intent = openPage pk cs secret := by
  unfold intentPage at h ⊢
  split at h
  · cases h
  · next s hs =>
    obtain ⟨p, hp, ht⟩ := Option.bind_eq_some_iff.mp hs
    cases h
    exact ⟨p, hp, ht, rfl⟩

theorem clientSecret_sessionPage {page : Page}
    (h : (serve answer (sessionPage pk cs) db).result = .ok page)
    (hs : page.clientSecret? = some secret) :
    cs.status = .opened ∧ ∃ id p, cs.paymentIntentId = some id ∧ db.intentById id = some p ∧
      truthy p.clientSecret = some secret ∧ page = openPage pk cs secret := by
  unfold sessionPage at h
  split at h
  · cases h
    cases hs
  · cases h
    cases hs
  · next live =>
    split at h
    · cases h
      cases hs
    · next id linked =>
      cases h
      obtain ⟨p, hp, ht, hpage⟩ := clientSecret_intentPage hs
      exact ⟨live, id, p, linked, hp, ht, hpage⟩

end SixGateway.HostedPage
