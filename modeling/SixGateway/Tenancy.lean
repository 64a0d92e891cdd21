import SixGateway.Api
import SixGateway.Sessions
import SixGateway.StripeContract

namespace SixGateway.Tenancy

open Library Models Errors Database Schemas StripeClient LedgerService PaymentService
open CheckoutService Queries Bookings Outcomes Sessions StripeContract Api
open Gateway hiding Along
open Library.Run (Along)

inductive ByIdOp where
  | confirm (payload : PaymentIntentConfirm)
  | cancel (payload : PaymentIntentCancel)
  | refund (payload : RefundCreate)
  | retrieve

structure ByIdRequest where
  intentId : String
  op : ByIdOp
  env : Env
  answer : StripeCall → StripeAnswer

def Owns (db : Db) (merchant : Merchant) (intentId : String) : Prop :=
  ∃ p ∈ db.paymentIntents, p.id = intentId ∧ p.merchantId = some merchant.id

instance (db : Db) (merchant : Merchant) (intentId : String) :
    Decidable (Owns db merchant intentId) :=
  inferInstanceAs (Decidable (∃ p ∈ db.paymentIntents, _))

def intentsOf (db : Db) (merchant : Merchant) : List PaymentIntent :=
  db.paymentIntents.select (fun p => decide (p.merchantId = some merchant.id))

/-- What a request by id does when nobody else is in between: it says that the intent is not found
exactly when there is none, and writes nothing but that intent and what it books for it. -/
structure Visits {α : Type} (intentId : String) (env : Env) (db : Db)
    (out : Outcome Db StripeCall StripeAnswer Exn α) : Prop where
  missing : out.result = .error (notFound intentId) ↔ db.intentById intentId = none
  writes : out.store = db ∨ ∃ p, db.intentById intentId = some p ∧ ∃ dirty es,
    out.store = (db.updateIntent p dirty env.now).post es ∧
      ∀ e ∈ es, e.paymentIntentId = some p.id

theorem visits_respond {α β : Type} {intentId : String} {env : Env} {db : Db}
    {answer : StripeCall → StripeAnswer} {p : Service α} (f : α → β)
    (h : Visits intentId env db (serve answer p db)) :
    Visits intentId env db (serve answer (respond f p) db) := by
  rw [respond, serve_map]
  refine ⟨Iff.trans ?_ h.missing, h.writes⟩
  cases (serve answer p db).result <;> simp [Except.map]

theorem visits_of_byId {intentId : String} {env : Env} {db : Db} {Settled : PaymentIntent → Prop}
    {Quiet : PaymentIntent → StripeCall → StripeObject → Prop}
    {Done : PaymentIntent → Outcome Db StripeCall StripeAnswer Exn PaymentIntent → Prop}
    {out : Outcome Db StripeCall StripeAnswer Exn PaymentIntent}
    (h : ByIdOutcome intentId db Settled Quiet Done out)
    (hd : ∀ p, Done p out → ∃ dirty es q o, out = updated db p dirty es env q o ∧
      ∀ e ∈ es, e.paymentIntentId = some p.id) :
    Visits intentId env db out := by
  cases h with
  | missing looked => exact ⟨by simp [looked], .inl rfl⟩
  | settled p looked => exact ⟨by simp [looked], .inl rfl⟩
  | raised p looked calls e quiet found =>
    refine ⟨?_, .inl rfl⟩
    rw [looked]
    refine iff_of_false (fun he => found ?_) (by simp)
    cases he
    rfl
  | done p looked o does =>
    obtain ⟨dirty, es, q, a, rfl, hes⟩ := hd p does
    exact ⟨by simp [updated, looked], .inr ⟨p, looked, dirty, es, rfl, hes⟩⟩

section writes

variable {db : Db} {p dirty : PaymentIntent} {now : Instant} {es : List LedgerEntry}
  {merchant : Merchant}

theorem owns_iff {merchant : Merchant} {intentId : String} : Owns db merchant intentId ↔
    ∃ p, db.intentById intentId = some p ∧ p.merchantId = some merchant.id := by
  constructor
  · rintro ⟨p, hp, rfl, hm⟩
    exact ⟨p, intentById_of_mem hp, hm⟩
  · rintro ⟨p, hp, hm⟩
    obtain ⟨hmem, hid⟩ := intentById_some hp
    exact ⟨p, hmem, hid, hm⟩

theorem inScope_written (merchantId id : Option String) :
    inScope ((db.updateIntent p dirty now).post es) merchantId id = inScope db merchantId id := by
  cases merchantId with
  | none => rfl
  | some m =>
    have h : ∀ i, ((db.updateIntent p dirty now).post es).intentById i =
        (db.updateIntent p dirty now).intentById i := fun _ => rfl
    cases id with
    | none => rfl
    | some i =>
      simp only [inScope, Option.bind_some, h, intentById_updateIntent]
      cases db.intentById i with
      | none => rfl
      | some q =>
        simp only [Option.map_some]
        split <;> rfl

theorem owns_written {intentId : String} :
    Owns ((db.updateIntent p dirty now).post es) merchant intentId ↔ Owns db merchant intentId := by
  simp only [owns_iff]
  have h : ((db.updateIntent p dirty now).post es).intentById intentId =
      (db.updateIntent p dirty now).intentById intentId := rfl
  rw [h, intentById_updateIntent]
  cases db.intentById intentId with
  | none => simp
  | some q =>
    simp only [Option.map_some, Option.some.injEq, exists_eq_left']
    split <;> simp

theorem isolated_written (hp : p ∈ db.paymentIntents) (hm : p.merchantId ≠ some merchant.id)
    (hes : ∀ e ∈ es, e.paymentIntentId = some p.id) :
    intentsOf ((db.updateIntent p dirty now).post es) merchant = intentsOf db merchant ∧
      scope ((db.updateIntent p dirty now).post es) (some merchant.id) =
        scope db (some merchant.id) := by
  constructor
  · refine Table.select_modify (f := p.flush dirty now) (fun _ => rfl) (fun q hq h => ?_)
    obtain rfl := eq_of_id hq hp (of_decide_eq_true h)
    simp [hm]
  · have hes' : es.filter (fun e => inScope db (some merchant.id) e.paymentIntentId) = [] := by
      refine List.filter_eq_nil_iff.mpr (fun e he => ?_)
      simp [hes e he, inScope, intentById_of_mem hp, hm]
    simp only [scope_eq, inScope_written, ledgerEntries_post, ledgerEntries_updateIntent,
      List.filter_append, hes', List.append_nil]

end writes

section

variable [StrLower] {db : Db}

def ByIdRequest.program (r : ByIdRequest) (merchant : Merchant) : Service PaymentIntentRead :=
  match r.op with
  | .confirm payload => confirmPaymentIntent r.intentId payload merchant r.env
  | .cancel payload => cancelPaymentIntent r.intentId payload merchant r.env
  | .refund payload => refundPaymentIntent r.intentId payload merchant r.env
  | .retrieve => retrievePaymentIntent r.intentId merchant

def ByIdRequest.outcome (r : ByIdRequest) (merchant : Merchant) (db : Db) :
    Outcome Db StripeCall StripeAnswer Exn PaymentIntentRead :=
  serve r.answer (r.program merchant) db

def visit (merchant : Merchant) (db : Db) (r : ByIdRequest) : Option Db :=
  some (r.outcome merchant db).store

theorem outcome_visits (r : ByIdRequest) (merchant : Merchant) (db : Db) :
    Visits r.intentId r.env db (r.outcome merchant db) := by
  obtain ⟨intentId, op, env, answer⟩ := r
  cases op with
  | confirm payload =>
    refine visits_respond intentRead
      (visits_of_byId (confirmIntent_outcome intentId payload) (fun p hd => ?_))
    generalize serve _ _ _ = out at hd ⊢
    cases hd
    exact ⟨_, _, _, _, rfl, by simp⟩
  | cancel payload =>
    refine visits_respond intentRead
      (visits_of_byId (cancelIntent_outcome intentId payload) (fun p hd => ?_))
    generalize serve _ _ _ = out at hd ⊢
    cases hd
    exact ⟨_, _, _, _, rfl, fun e he => intent_of_reversal he⟩
  | refund payload =>
    refine visits_respond intentRead
      (visits_of_byId (refundIntent_outcome intentId _ _ _) (fun p hd => ?_))
    generalize serve _ _ _ = out at hd ⊢
    cases hd
    exact ⟨_, _, _, _, rfl, fun e he => intent_of_refund he⟩
  | retrieve =>
    change Visits intentId env db
      (serve answer (intentRetrieved intentId (db.intentById intentId)) db)
    cases looked : db.intentById intentId with
    | none => exact ⟨by simp [intentRetrieved, looked], .inl rfl⟩
    | some p => exact ⟨by simp [intentRetrieved, looked], .inl rfl⟩

/-- What a request made by the merchant `a` must leave of another merchant `b`: its intents and
their entries as they were, and its intents indistinguishable from those that do not exist. -/
structure Isolated (a b : Merchant) (db : Db) (r : ByIdRequest) : Prop where
  intents : intentsOf (r.outcome a db).store b = intentsOf db b
  entries : scope (r.outcome a db).store (some b.id) = scope db (some b.id)
  hidden : Owns db b r.intentId ∨ db.intentById r.intentId = none →
    (r.outcome a db).result = .error (notFound r.intentId)

theorem owns_after (r : ByIdRequest) (a b : Merchant) (intentId : String) :
    Owns (r.outcome a db).store b intentId ↔ Owns db b intentId := by
  obtain h | ⟨p, -, dirty, es, h, -⟩ := (outcome_visits r a db).writes
  · rw [h]
  · rw [h, owns_written]

theorem isolated_iff_not_owns (a b : Merchant) (r : ByIdRequest) :
    Isolated a b db r ↔ ¬ Owns db b r.intentId := by
  have hv := outcome_visits r a db
  constructor
  · intro h hown
    obtain ⟨p, looked, -⟩ := owns_iff.mp hown
    rw [hv.missing.mp (h.hidden (.inl hown))] at looked
    cases looked
  · intro hown
    have hkept : intentsOf (r.outcome a db).store b = intentsOf db b ∧
        scope (r.outcome a db).store (some b.id) = scope db (some b.id) := by
      obtain h | ⟨p, looked, dirty, es, h, hes⟩ := hv.writes
      · rw [h]
        exact ⟨rfl, rfl⟩
      · rw [h]
        exact isolated_written (intentById_some looked).1
          (fun hm => hown (owns_iff.mpr ⟨p, looked, hm⟩)) hes
    exact ⟨hkept.1, hkept.2, fun h => hv.missing.mpr (h.resolve_left hown)⟩

/-- The intents of `b` are isolated from the requests of `a` throughout a sequence exactly when
none of the requests names an intent of `b`: the routes compare the owner nowhere. -/
theorem isolated_iff (a b : Merchant) (db : Db) (rs : List ByIdRequest) :
    Along (visit a) (Isolated a b) db rs ↔ ∀ r ∈ rs, ¬ Owns db b r.intentId := by
  induction rs generalizing db with
  | nil => simp [Along]
  | cons r rs ih =>
    simp only [Along, visit, Option.some.injEq, forall_eq', ih, isolated_iff_not_owns,
      List.forall_mem_cons, owns_after]

omit [StrLower] in
/-- The route that compares the owner answers alike for an intent of another merchant and for one
that does not exist. -/
theorem getTransaction_hides (answer : StripeCall → StripeAnswer) (db : Db) (merchant : Merchant)
    (intentId : String) :
    (serve answer (getTransaction intentId merchant) db).result = .error (notFound intentId) ↔
      ¬ Owns db merchant intentId := by
  rw [owns_iff, getTransaction, serve, Program.exec_read]
  cases db.intentById intentId with
  | none => simp [transactionLoaded]
  | some p => by_cases hm : p.merchantId = some merchant.id <;> simp [transactionLoaded, hm]

omit [StrLower] in
theorem retrieveCheckoutSession_hides (answer : StripeCall → StripeAnswer) (db : Db)
    (merchant : Merchant) (sessionId : String) (env : Env) :
    (serve answer (retrieveCheckoutSession sessionId merchant env) db).result =
        .error (sessionNotFound sessionId) ↔
      ¬ ∃ cs, db.sessionById sessionId = some cs ∧ cs.merchantId = merchant.id := by
  have h : OpenOutcome sessionId env db (serve answer _ db) := getOpenSession_outcome sessionId
  rw [retrieveCheckoutSession, serve, Program.exec_bind, ← serve]
  generalize serve _ _ _ = out at h ⊢
  cases h with
  | missing looked => simp [looked]
  | returned cs looked kept => by_cases hm : cs.merchantId = merchant.id <;> simp [looked, hm]
  | expired cs looked =>
    by_cases hm : cs.merchantId = merchant.id <;> simp [looked, hm, CheckoutSession.flush]

end

def payee : Merchant := ⟨"mer_1", "Acme Co", "acme@example.com", true, 0⟩

def stranger : Merchant := ⟨"mer_2", "Other Co", "other@example.com", true, 0⟩

def ordered : World :=
  World.empty.after ⟨.createIntent order (some payee.id), clock 0, accepting .requiresAction⟩

def intrusion : List ByIdRequest :=
  [⟨"pi_local_i", .retrieve, clock 1, accepting .requiresAction⟩,
    ⟨"pi_local_i", .cancel cancellation, clock 2, accepting .requiresAction⟩]

/-- The stranger reads the client secret of the payee's intent and then cancels it. -/
theorem stranger_cancels :
    ¬ Along (visit stranger) (Isolated stranger payee) ordered.db intrusion ∧
      (∀ r ∈ intrusion, ((r.outcome stranger ordered.db).result.toOption.bind
        PaymentIntentRead.clientSecret) = some "secret") ∧
      ∃ r ∈ intrusion, intentsOf (r.outcome stranger ordered.db).store payee ≠
          intentsOf ordered.db payee ∧
        scope (r.outcome stranger ordered.db).store (some payee.id) ≠
          scope ordered.db (some payee.id) := by
  refine ⟨fun h => ?_, by decide +kernel, by decide +kernel⟩
  have hown : Owns ordered.db payee "pi_local_i" := by decide +kernel
  exact absurd (h.1.hidden (.inl hown)) (by decide +kernel)

end SixGateway.Tenancy
