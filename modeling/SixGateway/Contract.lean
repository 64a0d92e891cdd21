import SixGateway.Server
import SixGateway.Authentication
import SixGateway.Library.Refusal

namespace SixGateway.Contract

open Library Library.Run Models Errors Database Schemas StripeClient LedgerService PaymentService
open CheckoutService Webhook Api Dashboard ApiKeyService Gateway HostedPage Responses
open MerchantService Server Rendering

/-- What a request without effect may have committed all the same: the time at which its key was
used, and the expiry of a session past its time. -/
inductive Harmless : SiteStmt → Prop
  | touched (keyId : String) (now : Instant) : Harmless (.account (.touchKey keyId now))
  | expired (cs : CheckoutSession) (now : Instant) (live : cs.status = .opened)
      (past : cs.expiresAt < now) :
      Harmless (.payment [.updateSession cs { cs with status := .expired } now])

/-- What the callers of a route can rely on: whether it is free of effects, the status codes of
success, the errors that come without an effect, and the errors that may come after one. -/
structure Terms where
  safe : Bool
  successes : List Nat
  refusals : List (Nat × String)
  failures : List (Nat × String)

def unauthorizedEntry : Nat × String := (401, "UNAUTHORIZED")

def internalError : Nat × String := (500, "INTERNAL_ERROR")

def Terms.guarded (t : Terms) : Terms := { t with refusals := unauthorizedEntry :: t.refusals }

def reading (successes : List Nat) (refusals : List (Nat × String)) : Terms :=
  ⟨true, successes, refusals, []⟩

section

variable [StrLower]

def merchantTerms : MerchantRoute → Terms
  | .createPaymentIntent _ => ⟨false, [201], [(409, "IDEMPOTENCY_CONFLICT")], [internalError]⟩
  | .confirmPaymentIntent .. | .cancelPaymentIntent .. =>
    ⟨false, [200], [(404, "PAYMENT_NOT_FOUND"), (409, "INVALID_STATE")], [internalError]⟩
  | .retrievePaymentIntent _ | .getTransaction _ => reading [200] [(404, "PAYMENT_NOT_FOUND")]
  | .refundPaymentIntent .. =>
    ⟨false, [201], [(404, "PAYMENT_NOT_FOUND"), (409, "REFUND_NOT_ALLOWED"),
      (422, "INVALID_AMOUNT")], [(502, "REFUND_FAILED"), internalError]⟩
  | .getBalance => reading [200] []
  | .listTransactions query =>
    reading (if query.Encodable then [200] else [])
      (if query.Encodable then [] else [internalError])
  | .createCheckoutSession _ =>
    ⟨false, [201], [(409, "IDEMPOTENCY_CONFLICT"), internalError], [internalError]⟩
  | .retrieveCheckoutSession _ => reading [200] [(404, "CHECKOUT_SESSION_NOT_FOUND")]

def adminTerms : AdminRoute → Terms
  | .createMerchant _ => ⟨false, [201], [(409, "IDEMPOTENCY_CONFLICT")], []⟩
  | .issueApiKey .. => ⟨false, [201], [(404, "MERCHANT_NOT_FOUND"), internalError], []⟩
  | .listApiKeys _ => reading [200] [(404, "MERCHANT_NOT_FOUND")]
  | .revokeApiKey .. => ⟨false, [200], [(404, "API_KEY_NOT_FOUND")], []⟩

def terms : Route → Terms
  | .merchant r => (merchantTerms r).guarded
  | .admin r => (adminTerms r).guarded
  | .stripeWebhook _ =>
    ⟨false, [200], [(400, "INVALID_SIGNATURE"), (400, "INVALID_PAYLOAD")],
      [(500, "WEBHOOK_HANDLER_FAILED"), internalError]⟩
  | .hostedCheckoutPage _ =>
    reading [200, 410] [(404, "CHECKOUT_SESSION_NOT_FOUND"), internalError]

end

def Answer.error? (a : Answer) : Option ErrorResponse :=
  match a.content with
  | .error e => some e
  | _ => none

/-- An answer within the terms of its route, where `quiet` says that there was no effect. -/
def Terms.Kept (t : Terms) (quiet : Prop) (a : Answer) : Prop :=
  match Answer.error? a with
  | none => a.statusCode ∈ t.successes ∧ (t.safe = true → quiet)
  | some e => ((a.statusCode, e.errorCode) ∈ t.refusals ∧ quiet) ∨
      (a.statusCode, e.errorCode) ∈ t.failures

def Terms.Refuses (t : Terms) (f : Failure) : Prop := f.entry ∈ t.refusals

def Terms.Fails (t : Terms) (f : Failure) : Prop := f.entry ∈ t.failures

def Terms.Succeeds (t : Terms) (a : Answer) : Prop :=
  Answer.error? a = none ∧ a.statusCode ∈ t.successes

def Terms.Acts (t : Terms) (a : Answer) : Prop := t.safe = false ∧ t.Succeeds a

abbrev SiteSettled (t : Terms) (p : SiteService Answer) : Prop :=
  p.Settled SiteStmt.apply t.Fails t.Acts

abbrev SiteCareful (t : Terms) (p : SiteService Answer) : Prop :=
  p.Careful SiteStmt.apply t.Refuses t.Fails t.Succeeds t.Acts Harmless

/-- The exceptions with one of the given codes; `none` stands for those without a code. -/
def Raises (cs : List (Option ErrorCode)) (e : Exn) : Prop := e.code? ∈ cs

abbrev Settled {α : Type} (late : List (Option ErrorCode)) (p : Service α) : Prop :=
  p.Settled commit (Raises late) (fun _ => True)

abbrev Careful {α : Type} (early late : List (Option ErrorCode)) (p : Service α) : Prop :=
  p.Careful commit (Raises early) (Raises late) (fun _ => True) (fun _ => True)
    (fun t => Harmless (.payment t))

abbrev Safe {α : Type} (early : List (Option ErrorCode)) (p : Service α) : Prop :=
  p.Careful commit (Raises early) (fun _ => False) (fun _ => True) (fun _ => False)
    (fun t => Harmless (.payment t))

variable {α β : Type} {db : Db} {e : Exn} {early late : List (Option ErrorCode)}

theorem apply_error {s : Stmt} (h : s.apply db = .error e) : e = .integrityError := by
  cases s with
  | insertIntent row | insertEvent row =>
    simp only [Stmt.apply] at h
    split at h <;> cases h
    rfl
  | insertEntries entries =>
    simp only [Stmt.apply] at h
    split at h <;> cases h
    rfl
  | insertSession row =>
    simp only [Stmt.apply] at h
    split at h
    · split at h <;> cases h
      rfl
    · cases h
      rfl
  | updateIntent | updateSession | setProcessedAt | setProcessingError => cases h

theorem commit_error {t : List Stmt} (h : commit t db = .error e) : e = .integrityError := by
  induction t generalizing db with
  | nil => cases h
  | cons s t ih =>
    rw [commit] at h
    split at h
    · exact ih h
    · next he =>
      cases h
      exact apply_error he

theorem recordTransaction_error {legs : List LedgerLeg} {b : Booking} {uuids : BookingUuids}
    {now : Instant} [StrLower] (h : recordTransaction legs b uuids now = .error e) :
    e.code? = none := by
  simp only [recordTransaction] at h
  split at h
  · cases h
    rfl
  · split at h
    · cases h
      rfl
    · split at h <;> cases h
      rfl

theorem scalarOneOrNone_error {ρ : Type} {rows : List ρ}
    (h : scalarOneOrNone rows = .error e) : e.code? = none := by
  rcases rows with _ | ⟨r, _ | ⟨r', rest⟩⟩ <;> cases h
  rfl

theorem settled_commit {t : List Stmt} {p : Service α} (hl : none ∈ late) (h : Settled late p) :
    Settled late (.commit t p) := by
  refine ⟨fun db e he => ?_, h⟩
  rw [commit_error he]
  exact hl

theorem settled_refresh (intent : PaymentIntent) : Settled late (refresh intent) := fun _ => trivial

theorem settled_refreshSession (cs : CheckoutSession) : Settled late (refreshSession cs) :=
  fun _ => trivial

theorem careful_respond (f : α → β) {p : Service α} (h : Careful early late p) :
    Careful early late (respond f p) := h.bind (fun _ _ => trivial) (fun _ _ => trivial)

theorem safe_openLoaded (sessionId : String) (env : Env) (found : Option CheckoutSession) :
    Safe [some .checkoutSessionNotFound] (openLoaded sessionId env found) := by
  cases found with
  | none => exact List.mem_singleton_self _
  | some cs =>
    by_cases h : cs.status = .opened ∧ cs.expiresAt < env.now
    · simp only [openLoaded, if_pos h]
      refine ⟨fun db e he => ?_, .inl ⟨.expired cs env.now h.1 h.2, fun _ => trivial⟩⟩
      cases he
    · simp only [openLoaded, if_neg h]
      trivial

theorem safe_getOpenSession {f : CheckoutSession → Service β} (sessionId : String) (env : Env)
    {done : β → Prop} (hf : ∀ cs, (f cs).Careful commit (Raises [some .checkoutSessionNotFound])
      (fun _ => False) done (fun _ => False) (fun t => Harmless (.payment t))) :
    ((getOpenSession sessionId env).bind f).Careful commit
      (Raises [some .checkoutSessionNotFound]) (fun _ => False) done (fun _ => False)
      (fun t => Harmless (.payment t)) := by
  have h : Safe [some .checkoutSessionNotFound] (getOpenSession sessionId env) :=
    fun _ => safe_openLoaded sessionId env _
  exact h.bind (fun cs _ => hf cs) (fun _ h => h.elim)

theorem safe_retrieveCheckoutSession (sessionId : String) (m : Merchant) (env : Env) :
    Safe [some .checkoutSessionNotFound] (Api.retrieveCheckoutSession sessionId m env) := by
  apply safe_getOpenSession
  intro cs
  by_cases h : cs.merchantId ≠ m.id
  · simp only [if_pos h]
    exact List.mem_singleton_self _
  · simp only [if_neg h]
    trivial

def Shown : Page → Prop
  | .form _ => True
  | .message statusCode _ => statusCode ∈ [200, 410]

theorem safe_hostedCheckoutPage (pk sessionId : String) (env : Env) :
    (HostedPage.hostedCheckoutPage pk sessionId env).Careful commit
      (Raises [some .checkoutSessionNotFound]) (fun _ => False) Shown (fun _ => False)
      (fun t => Harmless (.payment t)) := by
  have hgone : (410 : Nat) ∈ [200, 410] := by simp
  apply safe_getOpenSession
  intro cs
  simp only [sessionPage]
  split
  · exact List.mem_cons_self
  · exact hgone
  · split
    · exact hgone
    · intro db
      simp only [intentPage]
      split
      · exact hgone
      · trivial

theorem safe_getTransaction (intentId : String) (m : Merchant) :
    Safe [some .paymentNotFound] (Api.getTransaction intentId m) := by
  have h : ∀ found, Safe [some .paymentNotFound] (transactionLoaded intentId m found) := by
    intro found
    cases found with
    | none => exact List.mem_singleton_self _
    | some intent =>
      by_cases ho : intent.merchantId ≠ some m.id
      · simp only [transactionLoaded, if_pos ho]
        exact List.mem_singleton_self _
      · simp only [transactionLoaded, if_neg ho]
        exact fun _ => trivial
  exact fun _ => h _

theorem safe_retrievePaymentIntent (intentId : String) (m : Merchant) :
    Safe [some .paymentNotFound] (Api.retrievePaymentIntent intentId m) := by
  have h : ∀ found, Safe [some .paymentNotFound] (intentRetrieved intentId found) := by
    intro found
    cases found with
    | none => exact List.mem_singleton_self _
    | some intent => trivial
  exact fun _ => h _

theorem settled_confirmAnswered (intent : PaymentIntent) (env : Env) (answer : StripeAnswer) :
    Settled [none] (confirmAnswered intent env answer) := by
  cases answer with
  | error message => exact List.mem_singleton_self _
  | ok o =>
    simp only [confirmAnswered]
    split
    · exact List.mem_singleton_self _
    · exact settled_commit (List.mem_singleton_self _) (settled_refresh intent)

theorem careful_confirmLoaded (intentId : String) (payload : PaymentIntentConfirm) (env : Env)
    (found : Option PaymentIntent) :
    Careful [some .paymentNotFound, some .invalidState] [none]
      (confirmLoaded intentId payload env found) := by
  cases found with
  | none => simp [confirmLoaded, Program.Careful, Raises, notFound, Exn.code?]
  | some intent =>
    simp only [confirmLoaded]
    split
    · trivial
    · split
      · simp [Program.Careful, Raises, Exn.code?]
      · exact settled_confirmAnswered intent env

abbrev webhookErrors : List (Option ErrorCode) := [some .webhookHandlerFailed, none]

theorem settled_completeLoaded (work : List Stmt) (sessionId : String) (env : Env)
    (cs : CheckoutSession) :
    Settled webhookErrors (completeLoaded work sessionId env (some cs)) := by
  by_cases h : cs.status ≠ .completed
  · simp only [completeLoaded, if_pos h]
    exact settled_commit (by simp) trivial
  · simp only [completeLoaded, if_neg h]
    trivial

theorem settled_failed (event : StripeEvent) (exn : Exn) :
    Settled webhookErrors (failed event exn : Service WebhookReply) := by
  have hraise : Settled webhookErrors (.raise (handlerFailed event exn) : Service WebhookReply) :=
    List.mem_cons_self
  have hlooked : ∀ found,
      Settled webhookErrors (failedLooked event exn found : Service WebhookReply) := by
    intro found
    cases found with
    | none => exact hraise
    | some row => exact settled_commit (by simp) hraise
  exact fun db => hlooked _

theorem settled_finish (event : StripeEvent) (env : Env) (work : List Stmt) :
    Settled webhookErrors (finish event env work) := settled_commit (by simp) trivial

theorem settled_dispatchSession (event : StripeEvent) (env : Env) (work : List Stmt)
    (found : Except Exn (Option CheckoutSession)) :
    Settled webhookErrors (dispatchSession event env work found) := by
  cases found with
  | error e => exact settled_failed event e
  | ok cs =>
    cases cs with
    | none => exact settled_finish event env work
    | some cs =>
      exact (settled_completeLoaded work cs.id env cs).bind
        (fun work _ => settled_finish event env work)

section

variable [StrLower]

theorem settled_createAnswered (payload : PaymentIntentCreate) (merchant : Option String)
    (env : Env) (answer : StripeAnswer) :
    Settled [none] (createAnswered payload merchant env answer) := by
  cases answer with
  | error message => exact List.mem_singleton_self _
  | ok o =>
    simp only [createAnswered]
    split
    · exact List.mem_singleton_self _
    · split
      · next he => exact List.mem_singleton.mpr (recordTransaction_error he)
      · exact settled_commit (List.mem_singleton_self _) (settled_refresh _)

theorem careful_createLooked (payload : PaymentIntentCreate) (merchant : Option String)
    (env : Env) (found : Option PaymentIntent) :
    Careful [some .idempotencyConflict] [none] (createLooked payload merchant env found) := by
  cases found with
  | none => exact settled_createAnswered payload merchant env
  | some existing =>
    simp only [createLooked]
    split
    · exact List.mem_singleton_self _
    · trivial

theorem settled_cancelAnswered (intent : PaymentIntent) (env : Env) (answer : StripeAnswer) :
    Settled [none] (cancelAnswered intent env answer) := by
  cases answer with
  | error message => exact List.mem_singleton_self _
  | ok o =>
    simp only [cancelAnswered]
    split
    · exact List.mem_singleton_self _
    · split
      · next he => exact List.mem_singleton.mpr (recordTransaction_error he)
      · exact settled_commit (List.mem_singleton_self _) (settled_refresh _)

theorem careful_cancelLoaded (intentId : String) (payload : PaymentIntentCancel) (env : Env)
    (found : Option PaymentIntent) :
    Careful [some .paymentNotFound, some .invalidState] [none]
      (cancelLoaded intentId payload env found) := by
  cases found with
  | none => simp [cancelLoaded, Program.Careful, Raises, notFound, Exn.code?]
  | some intent =>
    simp only [cancelLoaded]
    split
    · trivial
    · split
      · simp [Program.Careful, Raises, Exn.code?]
      · split
        · simp [Program.Careful, Raises, Exn.code?]
        · exact settled_cancelAnswered intent env

theorem settled_refundAnswered (intent : PaymentIntent) (refundAmount : Int)
    (reason : Option String) (env : Env) (answer : StripeAnswer) :
    Settled [some .refundFailed, none] (refundAnswered intent refundAmount reason env answer) := by
  cases answer with
  | error message => exact List.mem_cons_self
  | ok o =>
    simp only [refundAnswered]
    split
    · next he => exact List.mem_cons_of_mem _ (List.mem_singleton.mpr (recordTransaction_error he))
    · exact settled_commit (by simp) (settled_refresh _)

theorem careful_refundLoaded (intentId key : String) (amount : Option Int)
    (reason : Option String) (env : Env) (found : Option PaymentIntent) :
    Careful [some .paymentNotFound, some .refundNotAllowed, some .invalidAmount]
      [some .refundFailed, none] (refundLoaded intentId key amount reason env found) := by
  cases found with
  | none => simp [refundLoaded, Program.Careful, Raises, notFound, Exn.code?]
  | some intent =>
    simp only [refundLoaded]
    split
    · simp [Program.Careful, Raises, Exn.code?]
    · split
      · simp [Program.Careful, Raises, Exn.code?]
      · split
        · simp [Program.Careful, Raises, Exn.code?]
        · split
          · simp [Program.Careful, Raises, Exn.code?]
          · exact settled_refundAnswered intent _ reason env

theorem settled_linkSession (merchant : String) (payload : CheckoutSessionCreate) (env : Env)
    (intent : PaymentIntent) : Settled [none] (linkSession merchant payload env intent) := by
  intro db
  change Settled [none] (sessionLooked merchant payload intent env (findByPaymentIntent db intent.id))
  cases hf : findByPaymentIntent db intent.id with
  | error e => exact List.mem_singleton.mpr (scalarOneOrNone_error hf)
  | ok found =>
    cases found with
    | some existing => trivial
    | none => exact settled_commit (List.mem_singleton_self _) (settled_refreshSession _)

theorem careful_linkSession (merchant : String) (payload : CheckoutSessionCreate) (env : Env)
    (intent : PaymentIntent) :
    Careful [some .idempotencyConflict, none] [none] (linkSession merchant payload env intent) := by
  intro db
  change Careful _ _ (sessionLooked merchant payload intent env (findByPaymentIntent db intent.id))
  cases hf : findByPaymentIntent db intent.id with
  | error e => exact List.mem_cons_of_mem _ (List.mem_singleton.mpr (scalarOneOrNone_error hf))
  | ok found =>
    cases found with
    | some existing => trivial
    | none =>
      refine ⟨fun db e he => ?_, .inr (settled_refreshSession _)⟩
      rw [commit_error he]
      simp [Raises, Exn.code?]

theorem careful_createSession (merchant : String) (payload : CheckoutSessionCreate) (env : Env) :
    Careful [some .idempotencyConflict, none] [none] (createSession merchant payload env) := by
  simp only [createSession, intentPayload]
  split
  · have hp : ∀ body, Careful [some .idempotencyConflict, none] [none]
        (createIntent body (some merchant) env) := fun body _ =>
      (careful_createLooked body _ env _).mono (fun e he => List.mem_cons.mpr
        (.inl (List.mem_singleton.mp he))) (fun _ h => h)
    exact (hp _).bind (fun intent _ => careful_linkSession merchant payload env intent)
      (fun intent _ => settled_linkSession merchant payload env intent)
  · exact List.mem_cons_of_mem _ (List.mem_singleton_self _)

theorem settled_dispatchLoaded (event : StripeEvent) (env : Env) (work : List Stmt) (amount : Int)
    (found : Option PaymentIntent) :
    Settled webhookErrors (dispatchLoaded event env work amount found) := by
  cases found with
  | none => exact settled_finish event env work
  | some intent =>
    simp only [dispatchLoaded]
    split
    · exact settled_failed event _
    · exact fun db => settled_dispatchSession event env _ _

theorem settled_stripeWebhook (event : StripeEvent) (env : Env) :
    Settled webhookErrors (Webhook.stripeWebhook event env) := by
  have hdispatch : ∀ work, Settled webhookErrors (dispatch event env work) := by
    intro work
    simp only [dispatch]
    split
    · split
      · exact settled_failed event _
      · split
        · exact settled_failed event _
        · exact fun db => settled_dispatchLoaded event env work _ _
    · exact settled_finish event env work
  have hlooked : ∀ found, Settled webhookErrors (webhookLooked event env found) := by
    intro found
    cases found with
    | none => exact hdispatch _
    | some existing =>
      simp only [webhookLooked]
      split
      · trivial
      · exact hdispatch []
  exact fun db => hlooked _

end

theorem safe_verifyApiKey (sha256 : String → String) (rawKey : String) (env : KeyEnv) :
    (verifyApiKey sha256 rawKey env).Careful AccountStmt.apply (Raises [some .unauthorized])
      (fun _ => False) (fun _ => True) (fun _ => False) (fun t => Harmless (.account t)) := by
  have hraise : ∀ detail, Raises [some .unauthorized] (unauthorized detail) :=
    fun _ => List.mem_singleton_self _
  unfold verifyApiKey
  split
  · exact hraise _
  · split
    · exact hraise _
    · intro db
      simp only [verifyMatched]
      split
      · exact hraise _
      · split
        · intro db
          simp only [verifyOwner]
          split
          · exact hraise _
          · split
            · refine ⟨fun db e he => ?_, .inl ⟨.touched _ env.now, trivial⟩⟩
              cases he
            · exact hraise _
        · exact hraise _

theorem careful_createApiKey (sha256 : String → String) (merchantId name : String) (env : KeyEnv) :
    (createApiKey sha256 merchantId name env).Careful AccountStmt.apply (Raises [none])
      (fun _ => False) (fun _ => True) (fun _ => True) (fun t => Harmless (.account t)) := by
  simp only [createApiKey]
  split
  · exact List.mem_singleton_self _
  · refine ⟨fun db e he => ?_, .inr (fun _ => trivial)⟩
    simp only [AccountStmt.apply] at he
    split at he
    · cases he
    · cases he
      exact List.mem_singleton_self _

theorem careful_revokeApiKey (keyId merchantId : String) :
    (ApiKeyService.revokeApiKey keyId merchantId).Careful AccountStmt.apply
      (Raises [some .apiKeyNotFound]) (fun _ => False) (fun _ => True) (fun _ => True)
      (fun t => Harmless (.account t)) := by
  intro db
  simp only [revokeLooked]
  split
  · exact List.mem_singleton_self _
  · refine ⟨fun db e he => ?_, .inr (fun _ => trivial)⟩
    cases he

variable {t : Terms}

theorem refuses_exn (h : ∀ c ∈ early, entryOf c ∈ t.refusals) (e : Exn) (he : Raises early e) :
    t.Refuses (.exn e) := by
  rw [Terms.Refuses, entry_exn]
  exact h _ he

theorem fails_exn (h : ∀ c ∈ late, entryOf c ∈ t.failures) (e : Exn) (he : Raises late e) :
    t.Fails (.exn e) := by
  rw [Terms.Fails, entry_exn]
  exact h _ he

theorem careful_payments {late : Exn → Prop} {done fine : α → Prop} {p : Service α} (t : Terms)
    (h : p.Careful commit (Raises early) late done fine (fun t => Harmless (.payment t)))
    (hearly : ∀ c ∈ early, entryOf c ∈ t.refusals) (hlate : ∀ e, late e → t.Fails (.exn e)) :
    (p.embed onPayments).Careful SiteStmt.apply t.Refuses t.Fails done fine Harmless :=
  h.embed onPayments_faithful (refuses_exn hearly) hlate (fun _ h => h)

theorem careful_accounts {done fine : α → Prop} {p : AccountService α} (t : Terms)
    (h : p.Careful AccountStmt.apply (Raises early) (fun _ => False) done fine
      (fun t => Harmless (.account t)))
    (hearly : ∀ c ∈ early, entryOf c ∈ t.refusals) :
    (p.embed onAccounts).Careful SiteStmt.apply t.Refuses t.Fails done fine Harmless :=
  h.embed onAccounts_faithful (refuses_exn hearly) (fun _ h => h.elim) (fun _ h => h)

theorem careful_answered {statusCode : Nat} {content : α → Content} {p : Service α}
    (h : Careful early late p) (hearly : ∀ c ∈ early, entryOf c ∈ t.refusals)
    (hlate : ∀ c ∈ late, entryOf c ∈ t.failures) (hsafe : t.safe = false)
    (hok : ∀ a, t.Succeeds ⟨statusCode, content a⟩) :
    SiteCareful t (answered statusCode content p) :=
  (careful_payments t h hearly (fails_exn hlate)).bind (fun a _ => hok a)
    (fun a _ => ⟨hsafe, hok a⟩)

theorem careful_read {statusCode : Nat} {content : α → Content} {p : Service α}
    (h : Safe early p) (hearly : ∀ c ∈ early, entryOf c ∈ t.refusals)
    (hok : ∀ a, t.Succeeds ⟨statusCode, content a⟩) :
    SiteCareful t (answered statusCode content p) :=
  (careful_payments t h hearly (fun _ h => h.elim)).bind (fun a _ => hok a) (fun _ h => h.elim)

theorem careful_guarded {p : SiteService Answer} (h : SiteCareful t p) :
    SiteCareful t.guarded p :=
  Program.Careful.mono (fun _ he => List.mem_cons_of_mem _ he) (fun _ he => he) h

theorem careful_getMerchant {f : Merchant → SiteService Answer} (merchantId : String)
    (hn : (404, "MERCHANT_NOT_FOUND") ∈ t.refusals) (hf : ∀ m, SiteCareful t (f m)) :
    SiteCareful t ((getMerchant merchantId).bind f) := by
  have h : ∀ found, SiteCareful t ((merchantLooked merchantId found).bind f) := by
    intro found
    cases found with
    | none => exact hn
    | some m => exact hf m
  exact fun _ => h _

theorem kept_early {t : Terms} {quiet : Prop} {x : Except Failure Answer}
    (h : Ends t.Refuses t.Succeeds x) (hq : quiet) : t.Kept quiet (answerOf x) := by
  cases x with
  | ok a =>
    simp only [Terms.Kept, answerOf, h.1]
    exact ⟨h.2, fun _ => hq⟩
  | error f => exact .inl ⟨h, hq⟩

theorem kept_late {t : Terms} {quiet : Prop} {x : Except Failure Answer}
    (h : Ends t.Fails t.Acts x) : t.Kept quiet (answerOf x) := by
  cases x with
  | ok a =>
    simp only [Terms.Kept, answerOf, h.2.1]
    exact ⟨h.2.2, fun hs => by simp [h.1] at hs⟩
  | error f => exact .inr h

section

variable [StrLower]

theorem failures_server (r : Route) : ∀ e ∈ (terms r).failures, 500 ≤ e.1 := by
  cases r with
  | merchant r => cases r <;> simp [terms, Terms.guarded, merchantTerms, reading, internalError]
  | admin r => cases r <;> simp [terms, Terms.guarded, adminTerms, reading]
  | stripeWebhook payload => simp [terms, internalError]
  | hostedCheckoutPage sessionId => simp [terms, reading]

theorem successes_acting (r : Route) (h : (terms r).safe = false) :
    ∀ statusCode ∈ (terms r).successes, statusCode < 400 := by
  cases r with
  | merchant r =>
    cases r <;> simp [terms, Terms.guarded, merchantTerms, reading] at h ⊢
  | admin r => cases r <;> simp [terms, Terms.guarded, adminTerms, reading] at h ⊢
  | stripeWebhook payload => simp [terms]
  | hostedCheckoutPage sessionId => simp [terms, reading] at h

theorem careful_servePage [StrUpper] (d : Deployment) {page : Page} (hpage : Shown page) (sessionId : String) :
    SiteCareful (terms (.hostedCheckoutPage sessionId)) (servePage d page) := by
  simp only [servePage]
  split
  · simp [Program.Careful, Terms.Refuses, terms, reading, Failure.entry, Failure.rendered,
      Failure.app?, internalError]
  · next statusCode text h =>
    refine ⟨rfl, ?_⟩
    change statusCode ∈ [200, 410]
    cases page with
    | message code args =>
      cases h
      exact hpage
    | form args =>
      obtain ⟨text', -, ht⟩ := Option.map_eq_some_iff.mp h
      cases ht
      exact List.mem_cons_self

theorem careful_merchantRoute (m : Merchant) (s : Surroundings) (r : MerchantRoute) :
    SiteCareful (merchantTerms r) (r.endpoint m s) := by
  cases r with
  | createPaymentIntent payload =>
    exact careful_answered (careful_respond _ (fun _ => careful_createLooked payload _ s.env _))
      (by simp [merchantTerms, entryOf, errorClass, internalError])
      (by simp [merchantTerms, entryOf, errorClass, internalError]) rfl
      (fun a => ⟨rfl, List.mem_singleton_self _⟩)
  | confirmPaymentIntent intentId payload =>
    exact careful_answered
      (careful_respond _ (fun _ => careful_confirmLoaded intentId payload s.env _))
      (by simp [merchantTerms, entryOf, errorClass, internalError])
      (by simp [merchantTerms, entryOf, errorClass, internalError]) rfl
      (fun a => ⟨rfl, List.mem_singleton_self _⟩)
  | cancelPaymentIntent intentId payload =>
    exact careful_answered
      (careful_respond _ (fun _ => careful_cancelLoaded intentId payload s.env _))
      (by simp [merchantTerms, entryOf, errorClass, internalError])
      (by simp [merchantTerms, entryOf, errorClass, internalError]) rfl
      (fun a => ⟨rfl, List.mem_singleton_self _⟩)
  | retrievePaymentIntent intentId =>
    exact careful_read (safe_retrievePaymentIntent intentId m)
      (by simp [merchantTerms, reading, entryOf, errorClass])
      (fun a => ⟨rfl, List.mem_singleton_self _⟩)
  | refundPaymentIntent intentId payload =>
    exact careful_answered (careful_respond _ (fun _ =>
        careful_refundLoaded intentId _ payload.amount payload.reason s.env _))
      (by simp [merchantTerms, entryOf, errorClass, internalError])
      (by simp [merchantTerms, entryOf, errorClass, internalError]) rfl
      (fun a => ⟨rfl, List.mem_singleton_self _⟩)
  | getBalance => exact fun _ => ⟨rfl, List.mem_singleton_self _⟩
  | listTransactions query =>
    simp only [merchantTerms, MerchantRoute.endpoint, Dashboard.transactionsPage]
    split
    · have h : Safe [] (Dashboard.listTransactions m query s.intentOrder) := fun _ _ => trivial
      exact careful_read h (by simp) (fun a => ⟨rfl, List.mem_singleton_self _⟩)
    · exact fun _ => List.mem_singleton_self internalError
  | getTransaction intentId =>
    exact careful_read (safe_getTransaction intentId m)
      (by simp [merchantTerms, reading, entryOf, errorClass])
      (fun a => ⟨rfl, List.mem_singleton_self _⟩)
  | createCheckoutSession payload =>
    exact careful_answered (careful_respond _ (careful_createSession m.id payload s.env))
      (by simp [merchantTerms, entryOf, errorClass, internalError])
      (by simp [merchantTerms, entryOf, errorClass, internalError]) rfl
      (fun a => ⟨rfl, List.mem_singleton_self _⟩)
  | retrieveCheckoutSession sessionId =>
    exact careful_read (safe_retrieveCheckoutSession sessionId m s.env)
      (by simp [merchantTerms, reading, entryOf, errorClass])
      (fun a => ⟨rfl, List.mem_singleton_self _⟩)

variable [StrRepr]

theorem careful_requireApiKey {f : Merchant → SiteService Answer} (sha256 : String → String)
    (authorization : Option Credentials) (env : KeyEnv) (hf : ∀ m, SiteCareful t (f m)) :
    SiteCareful t.guarded ((requireApiKey sha256 authorization env).bind f) := by
  unfold requireApiKey
  split
  · exact List.mem_cons_self
  · split
    · exact List.mem_cons_self
    · next c _ =>
      have h := careful_accounts t.guarded (safe_verifyApiKey sha256 c.credentials env)
        (List.forall_mem_singleton.mpr List.mem_cons_self)
      exact h.bind (fun m _ => careful_guarded (hf m)) (fun _ h => h.elim)

theorem careful_adminRoute (sha256 : String → String) (s : Surroundings) (r : AdminRoute) :
    SiteCareful (adminTerms r) (r.endpoint sha256 s) := by
  cases r with
  | createMerchant payload =>
    refine ⟨fun site f hf => ?_, .inr (fun site => ⟨rfl, rfl, List.mem_singleton_self _⟩)⟩
    simp only [SiteStmt.apply] at hf
    split at hf <;> cases hf
    simp [Terms.Refuses, duplicateEmail, entry_exn, Exn.code?, entryOf, errorClass, adminTerms]
  | issueApiKey merchantId payload =>
    apply careful_getMerchant merchantId (by simp [adminTerms])
    intro _
    have h := careful_accounts (adminTerms (.issueApiKey merchantId payload))
      (careful_createApiKey sha256 merchantId payload.name s.keyEnv)
      (by simp [adminTerms, entryOf, internalError])
    exact h.bind (fun issued _ => ⟨rfl, List.mem_singleton_self _⟩)
      (fun issued _ => ⟨rfl, rfl, List.mem_singleton_self _⟩)
  | listApiKeys merchantId =>
    apply careful_getMerchant merchantId (by simp [adminTerms, reading])
    exact fun _ _ => ⟨rfl, List.mem_singleton_self _⟩
  | revokeApiKey merchantId keyId =>
    have h := careful_accounts (adminTerms (.revokeApiKey merchantId keyId))
      (careful_revokeApiKey keyId merchantId) (by simp [adminTerms, entryOf, errorClass])
    exact h.bind (fun row _ => ⟨rfl, List.mem_singleton_self _⟩)
      (fun row _ => ⟨rfl, rfl, List.mem_singleton_self _⟩)

variable [StrUpper]

theorem route_kept (d : Deployment) (h : Headers) (s : Surroundings) (r : Route) :
    SiteCareful (terms r) (r.program d h s) ∨ SiteSettled (terms r) (r.program d h s) := by
  cases r with
  | merchant r =>
    exact .inl (careful_requireApiKey _ _ _ (fun m => careful_merchantRoute m s r))
  | admin r =>
    refine .inl ?_
    simp only [Route.program, requireAdminApiKey]
    split
    · exact careful_guarded (careful_adminRoute d.sha256 s r)
    · exact List.mem_cons_self
  | stripeWebhook payload =>
    simp only [Route.program, Server.stripeWebhook]
    split
    · exact .inl List.mem_cons_self
    · split
      · exact .inl List.mem_cons_self
      · exact .inl (List.mem_cons_of_mem _ (List.mem_singleton_self _))
      · next event _ =>
        have hs := (settled_stripeWebhook event s.env).embed onPayments_faithful
          (fails_exn (t := terms (.stripeWebhook payload))
            (by simp [terms, entryOf, errorClass, internalError]))
        exact .inr (hs.bind (fun reply _ => ⟨rfl, rfl, List.mem_singleton_self _⟩))
  | hostedCheckoutPage sessionId =>
    have hp := careful_payments (terms (.hostedCheckoutPage sessionId))
      (safe_hostedCheckoutPage d.stripePublishableKey sessionId s.env)
      (by simp [terms, reading, entryOf, errorClass]) (fun _ h => h.elim)
    exact .inl (hp.bind (fun page hpage => careful_servePage d hpage sessionId) (fun _ h => h.elim))

end

def aliceKey : APIKey :=
  newKey Authentication.digest "mer_alice" "a" ⟨0, "k1", Authentication.aliceToken, .stored⟩
    (generateKey Authentication.aliceToken) "aa11aa11"

def staleSession : CheckoutSession where
  id := "cs_1"
  merchantId := "mer_bob"
  paymentIntentId := none
  amount := 2500
  currency := "usd"
  description := none
  status := .opened
  successUrl := none
  expiresAt := 0
  createdAt := 0
  updatedAt := 0

def shop : Site where
  accounts := ⟨Authentication.both, ⟨[aliceKey], by decide⟩⟩
  db := { Db.empty with checkoutSessions := ⟨[staleSession], by decide⟩ }

def deployment : Deployment where
  adminApiKey := "admin"
  stripePublishableKey := "pk_test"
  sessionTemplate := ""
  messageTemplate := ""
  sha256 := Authentication.digest
  constructEvent _ _ := .error (.valueError "")

def bearer (token : Token) : Headers := ⟨some ⟨"Bearer", generateKey token⟩, none, none⟩

def moment (now : Instant) : Surroundings :=
  ⟨⟨now, "", "", ""⟩, ⟨now, "", Authentication.spareToken, .stored⟩, "", .stored⟩

/-- Alice asks for a session of Bob's; that it has run out is noted on the way. -/
def probing : HttpRequest :=
  ⟨.merchant (.retrieveCheckoutSession "cs_1"), bearer Authentication.aliceToken, moment 1⟩

end SixGateway.Contract
