import SixGateway.Effects

namespace SixGateway.SessionEffects

open Library Models Errors Database Schemas StripeClient PaymentService CheckoutService
open Queries Gateway Outcomes Sessions Effects

/-- Every session of the second store is one of the first, with its status and its time of update
perhaps changed. -/
def Continues (db db' : Db) : Prop :=
  ∀ cs ∈ db'.checkoutSessions, ∃ old ∈ db.checkoutSessions, ∃ status now,
    cs = { old with status := status, updatedAt := now }

variable {db db' : Db}

theorem continues_of_eq (h : db'.checkoutSessions = db.checkoutSessions) : Continues db db' :=
  fun cs hcs => ⟨cs, h ▸ hcs, cs.status, cs.updatedAt, rfl⟩

theorem continues_updateSession (loaded dirty : CheckoutSession) (now : Instant) :
    Continues db (db.updateSession loaded dirty now) := by
  intro cs hcs
  obtain ⟨old, hold, rfl⟩ := mem_updateSession.mp hcs
  refine ⟨old, hold, ?_⟩
  split
  · exact ⟨_, _, rfl⟩
  · exact ⟨old.status, old.updatedAt, rfl⟩

variable [StrLower] {r : Request} {w : World}

theorem checkoutSessions_create {payload : PaymentIntentCreate} {merchant : Option String}
    {env : Env} {answer : StripeCall → StripeAnswer}
    {out : Outcome Db StripeCall StripeAnswer Exn PaymentIntent}
    (h : CreateOutcome payload merchant env answer db out) :
    out.store.checkoutSessions = db.checkoutSessions := by
  cases h <;> rfl

theorem checkoutSessions_touched {calls : Calls} (h : Touched r db calls db') :
    db'.checkoutSessions = db.checkoutSessions := by
  cases h <;> rfl

theorem created_member {payload : PaymentIntentCreate} {merchant : Option String} {env : Env}
    {answer : StripeCall → StripeAnswer} {calls : Calls} {intent : PaymentIntent}
    (h : CreateOutcome payload merchant env answer db ⟨db', calls, .ok intent⟩) :
    intent ∈ db'.paymentIntents := by
  cases h with
  | replayed existing looked => exact (intentByKey_some looked).1
  | created looked o answered status parsed t inserted =>
    exact (Table.mem_insert inserted).mpr (.inr rfl)

theorem created_price {payload : PaymentIntentCreate} {merchant : Option String} {env : Env}
    {answer : StripeCall → StripeAnswer} {calls : Calls} {intent : PaymentIntent}
    (h : CreateOutcome payload merchant env answer db ⟨db', calls, .ok intent⟩) :
    intent.idempotencyKey = payload.idempotencyKey ∧ intent.amount = payload.amount ∧
      intent.currency = lower payload.currency := by
  cases h with
  | replayed existing looked amount currency =>
    exact ⟨(intentByKey_some looked).2, amount, currency⟩
  | created => exact ⟨rfl, rfl, rfl⟩

theorem intentPayload_ok {payload : CheckoutSessionCreate} {body : PaymentIntentCreate}
    (h : intentPayload payload = .ok body) : payload.currency.length = 3 ∧
      body.idempotencyKey = payload.idempotencyKey ∧ body.amount = payload.amount ∧
      lower body.currency = lower payload.currency := by
  unfold intentPayload at h
  split at h
  · next hl =>
    cases h
    exact ⟨hl, rfl, rfl, lower_lower payload.currency⟩
  · cases h

inductive SessionAfter (r : Request) (w : World) (cs : CheckoutSession) : Prop
  | kept (old : CheckoutSession) (member : old ∈ w.db.checkoutSessions)
      (status : CheckoutSessionStatus) (now : Instant)
      (row : cs = { old with status := status, updatedAt := now })
  | opened (merchant : String) (payload : CheckoutSessionCreate)
      (asked : r.op = .createSession merchant payload) (body : PaymentIntentCreate)
      (valid : intentPayload payload = .ok body) (store : Db) (calls : Calls)
      (intent : PaymentIntent) (creates : CreateOutcome body (some merchant) r.env r.answer w.db
        ⟨store, calls, .ok intent⟩)
      (stored : intent ∈ (w.after r).db.paymentIntents)
      (row : cs = newSession merchant payload intent r.env)

theorem sessionAfter_of_continues (h : Continues w.db (w.after r).db) {cs : CheckoutSession}
    (hcs : cs ∈ (w.after r).db.checkoutSessions) : SessionAfter r w cs := by
  obtain ⟨old, hold, status, now, rfl⟩ := h cs hcs
  exact .kept old hold status now rfl

end SixGateway.SessionEffects
