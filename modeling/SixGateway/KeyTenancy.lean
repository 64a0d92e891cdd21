import SixGateway.Api
import SixGateway.SessionSteps
import SixGateway.StripeContract

namespace SixGateway.KeyTenancy

open Library Models Errors Database Schemas StripeClient PaymentService CheckoutService
open Queries Gateway Outcomes Sessions Effects SessionEffects SessionSteps StripeContract Api

def Foreign (merchant : String) (p : PaymentIntent) : Prop :=
  ∃ other ∈ p.merchantId, other ≠ merchant

def Matched (db : Db) (cs : CheckoutSession) : Prop :=
  ∃ p ∈ db.paymentIntents, cs.paymentIntentId = some p.id ∧ p.merchantId = some cs.merchantId

def SessionsMatch (db : Db) : Prop := ∀ cs ∈ db.checkoutSessions, Matched db cs

instance (merchant : String) (p : PaymentIntent) : Decidable (Foreign merchant p) :=
  inferInstanceAs (Decidable (∃ other ∈ p.merchantId, other ≠ merchant))

instance (db : Db) (cs : CheckoutSession) : Decidable (Matched db cs) :=
  inferInstanceAs (Decidable (∃ p ∈ db.paymentIntents, _))

instance (db : Db) : Decidable (SessionsMatch db) :=
  inferInstanceAs (Decidable (∀ cs ∈ db.checkoutSessions, _))

theorem not_foreign {merchant : String} {p : PaymentIntent} (h : p.merchantId = some merchant) :
    ¬ Foreign merchant p := by
  rintro ⟨other, ho, hne⟩
  rw [h] at ho
  exact hne (Option.some.inj ho).symm

section

variable [StrLower]

/-- What `create_intent` returns to a merchant or reports in a conflict is no row of another. -/
structure IntentScoped (merchant : String) (payload : PaymentIntentCreate) (db : Db)
    (result : Except Exn PaymentIntent) : Prop where
  returned : ∀ p, result = .ok p → ¬ Foreign merchant p
  reported : ∀ p ∈ db.intentByKey payload.idempotencyKey, Foreign merchant p →
    result ≠ .error (conflict payload p)

/-- The session that `create_session` returns to a merchant is its own and so is the intent the
session is linked to, and a conflict reports no row of another merchant. -/
structure SessionScoped (merchant : String) (payload : CheckoutSessionCreate) (db : Db)
    (out : Outcome Db StripeCall StripeAnswer Exn CheckoutSession) : Prop where
  returned : ∀ cs, out.result = .ok cs → cs.merchantId = merchant ∧
    ∀ p ∈ out.store.paymentIntents, cs.paymentIntentId = some p.id → p.merchantId = some merchant
  reported : ∀ body, intentPayload payload = .ok body →
    ∀ p ∈ db.intentByKey payload.idempotencyKey, Foreign merchant p →
      out.result ≠ .error (conflict body p)

def Scoped (w : World) (r : Request) : Prop :=
  match r.op with
  | .createIntent payload (some merchant) => IntentScoped merchant payload w.db
      (serve r.answer (createIntent payload (some merchant) r.env) w.db).result
  | .createSession merchant payload => SessionScoped merchant payload w.db
      (serve r.answer (createSession merchant payload r.env) w.db)
  | _ => True

/-- The key of a request that creates is not held by a row of another merchant. -/
def KeyClear (w : World) (r : Request) : Prop :=
  match r.op with
  | .createIntent payload (some merchant) =>
    ∀ p ∈ w.db.intentByKey payload.idempotencyKey, ¬ Foreign merchant p
  | .createSession merchant payload =>
    ∀ p ∈ w.db.intentByKey payload.idempotencyKey, p.merchantId = some merchant
  | _ => True

instance (w : World) (r : Request) : Decidable (KeyClear w r) := by
  unfold KeyClear
  split <;> infer_instance

variable {merchant : String} {db : Db} {env : Env} {answer : StripeCall → StripeAnswer}
  {r : Request} {w : World}

theorem intentScoped_iff (payload : PaymentIntentCreate) :
    IntentScoped merchant payload db
      (serve answer (createIntent payload (some merchant) env) db).result ↔
      ∀ p ∈ db.intentByKey payload.idempotencyKey, ¬ Foreign merchant p := by
  have h : CreateOutcome payload (some merchant) env answer db (serve answer _ db) :=
    createIntent_outcome payload (some merchant)
  generalize serve _ _ _ = out at h ⊢
  constructor
  · intro hs p hp hf
    cases h with
    | replayed existing looked =>
      obtain rfl := Option.some.inj (looked.symm.trans hp)
      exact hs.returned existing rfl hf
    | conflicted existing looked =>
      obtain rfl := Option.some.inj (looked.symm.trans hp)
      exact hs.reported existing looked hf rfl
    | refused looked => cases looked.symm.trans hp
    | created looked => cases looked.symm.trans hp
  · intro hc
    refine ⟨fun p hp => ?_, fun p hp hf => absurd hf (hc p hp)⟩
    cases h with
    | replayed existing looked =>
      cases hp
      exact hc p looked
    | conflicted => cases hp
    | refused => cases hp
    | created =>
      cases hp
      exact not_foreign rfl

theorem created_own {payload : PaymentIntentCreate} {store : Db} {calls : Calls}
    {intent : PaymentIntent}
    (h : CreateOutcome payload (some merchant) env answer db ⟨store, calls, .ok intent⟩)
    (hk : ∀ p ∈ db.intentByKey payload.idempotencyKey, p.merchantId = some merchant) :
    intent.merchantId = some merchant := by
  cases h with
  | replayed existing looked => exact hk intent looked
  | created => rfl

theorem matched_after {calls : Calls} {db' : Db} {cs : CheckoutSession}
    (h : Effect r db calls db') (hm : Matched db cs) : Matched db' cs := by
  obtain ⟨p, hp, hlink, hmerchant⟩ := hm
  obtain ⟨q, hq, hid, -, -, hsame⟩ := row_remains h hp
  exact ⟨q, hq, hid ▸ hlink, hsame ▸ hmerchant⟩

theorem sessionsMatch_after (hw : SessionsMatch w.db) (hk : KeyClear w r) :
    SessionsMatch (w.after r).db := by
  intro cs hcs
  cases session_after r w hcs with
  | kept old member status now row =>
    subst row
    exact matched_after (request_effect r w) (hw old member)
  | opened merchant payload asked body valid store calls intent creates stored row =>
    subst row
    simp only [KeyClear, asked] at hk
    exact ⟨intent, stored, rfl, created_own creates ((intentPayload_ok valid).2.1 ▸ hk)⟩

theorem sessionScoped {payload : CheckoutSessionCreate} (hw : SessionsMatch db)
    (hk : ∀ p ∈ db.intentByKey payload.idempotencyKey, p.merchantId = some merchant) :
    SessionScoped merchant payload db
      (serve answer (createSession merchant payload env) db) := by
  have h : SessionOutcome merchant payload env answer db (serve answer _ db) :=
    createSession_outcome merchant payload
  generalize serve _ _ _ = out at h ⊢
  refine ⟨?_, fun body _ p hp hf => absurd hf (not_foreign (hk p hp))⟩
  cases h with
  | invalid => exact fun cs hcs => by cases hcs
  | stopped => exact fun cs hcs => by cases hcs
  | linked body valid store calls intent creates out links =>
    have hown := created_own creates ((intentPayload_ok valid).2.1 ▸ hk)
    have hmem := created_member creates
    have hlinked : ∀ p ∈ store.paymentIntents, some intent.id = some p.id →
        p.merchantId = some merchant := fun p hp hid => by
      rw [eq_of_id hp hmem (Option.some.inj hid).symm]
      exact hown
    have heffect : Effect ⟨.createIntent body (some merchant), env, answer⟩ db calls store :=
      effect_of_create (r := ⟨_, env, answer⟩) creates
    cases links with
    | found cs member linked =>
      rintro _ ⟨⟩
      obtain ⟨p, hp, hlink, hm⟩ :=
        matched_after heffect (hw cs (checkoutSessions_create creates ▸ member))
      have hpm := hlinked p hp (linked.symm.trans hlink)
      exact ⟨Option.some.inj (hm.symm.trans hpm), fun q hq hid => hlinked q hq (linked ▸ hid)⟩
    | refused => exact fun cs hcs => by cases hcs
    | opened unlinked t inserted =>
      rintro _ ⟨⟩
      exact ⟨rfl, hlinked⟩

theorem scoped_of_keyClear (hw : SessionsMatch w.db) (hk : KeyClear w r) : Scoped w r := by
  obtain ⟨op, env, answer⟩ := r
  cases op with
  | createIntent payload merchant =>
    cases merchant with
    | none => trivial
    | some merchant => exact (intentScoped_iff payload).mpr hk
  | createSession merchant payload => exact sessionScoped hw hk
  | confirmIntent => trivial
  | cancelIntent => trivial
  | refundIntent => trivial
  | getOpenSession => trivial
  | deliver => trivial

omit [StrLower] in
theorem sessionsMatch_empty : SessionsMatch World.empty.db := by
  intro cs hcs
  exact absurd hcs Table.not_mem_empty

/-- In a run whose creating requests never use a key that a row of another merchant holds, no
merchant is shown a row of another, and every session has the merchant of its intent. -/
theorem tenants_scoped (rs : List Request) (h : Along KeyClear World.empty rs) :
    Along Scoped World.empty rs ∧ SessionsMatch (World.empty.afterAll rs).db := by
  refine ⟨?_, afterAll_invariant (fun _ _ => sessionsMatch_after) sessionsMatch_empty h⟩
  refine Run.along_of_invariant (I := fun w => SessionsMatch w.db) ?_ ?_ sessionsMatch_empty h
  · rintro w r _ hw hk ⟨⟩
    exact sessionsMatch_after hw hk
  · exact fun w r => scoped_of_keyClear

end

def cheap : CheckoutSessionCreate := { checkout with amount := 900, amount_ge := by decide }

def another : CheckoutSessionCreate :=
  { checkout with idempotencyKey := "order-0002", key_length := by decide }

def ordered : World :=
  World.empty.after ⟨.createIntent order (some "mer_1"), clock 0, accepting .requiresAction⟩

def shared : List Request := [
  ⟨.createIntent order (some "mer_1"), clock 0, accepting .requiresAction⟩,
  ⟨.createIntent order (some "mer_2"), clock 1, accepting .requiresAction⟩,
  ⟨.createSession "mer_2" checkout, clock 2, accepting .requiresAction⟩]

/-- Under the key of an order of the first merchant the second one gets that order, a session of
its own that is linked to it, and its amount. -/
theorem key_shared :
    ¬ Along Scoped World.empty shared ∧ ¬ SessionsMatch (World.empty.afterAll shared).db ∧
      (serve (accepting .requiresAction) (createIntent order (some "mer_2") (clock 1))
        ordered.db).result.toOption.bind PaymentIntent.merchantId = some "mer_1" ∧
      (serve (accepting .requiresAction) (createSession "mer_2" cheap (clock 2))
        ordered.db).result = .error (.app .idempotencyConflict
          ("idempotency_key=order-0001 previously used for amount=2500 currency=usd; " ++
            "new request has amount=900 currency=usd")) := by
  refine ⟨fun h => ?_, by decide +kernel, by decide +kernel, by decide +kernel⟩
  simp only [shared, along_cons] at h
  exact absurd ((intentScoped_iff order).mp h.2.1) (by decide +kernel)

/-- Two merchants with keys of their own, one of whom asks twice. -/
def separate : List Request := [
  ⟨.createIntent order (some "mer_1"), clock 0, accepting .requiresAction⟩,
  ⟨.createSession "mer_2" another,
    ⟨1, "i2", "s", "t2"⟩, fun _ => .ok ⟨"pi_2", "requires_payment_method", none⟩⟩,
  ⟨.createSession "mer_1" checkout, ⟨2, "i3", "s3", "t3"⟩, accepting .requiresAction⟩]

theorem tenants_scoped_separate :
    Along Scoped World.empty separate ∧ SessionsMatch (World.empty.afterAll separate).db :=
  tenants_scoped separate (by decide +kernel)

end SixGateway.KeyTenancy
