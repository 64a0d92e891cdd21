import SixGateway.Deliveries

namespace SixGateway.Effects

open Library Models Errors Database Schemas StripeClient PaymentService CheckoutService Webhook
open Queries Bookings Gateway Outcomes Sessions Deliveries

variable [StrLower]

abbrev Calls := List (StripeCall × StripeAnswer)

/-- What a request can make of the intent it has loaded, what it books for it and what Stripe
answered. -/
inductive Changes (r : Request) (p : PaymentIntent) :
    PaymentIntent → List LedgerEntry → Calls → Prop
  | confirmed (id : String) (payload : PaymentIntentConfirm)
      (asked : r.op = .confirmIntent id payload) (named : p.id = id)
      (live : p.status ∉ [PaymentIntentStatus.succeeded, .canceled, .failed])
      (stripeId : String) (stripe : truthy p.stripePaymentIntentId = some stripeId)
      (o : StripeObject) (answered : r.answer (.confirmPaymentIntent stripeId
        payload.paymentMethodId payload.idempotencyKey) = .ok o)
      (status : PaymentIntentStatus)
      (parsed : PaymentIntentStatus.ofValue? o.status = some status) :
      Changes r p { p with status := status } []
        [(.confirmPaymentIntent stripeId payload.paymentMethodId payload.idempotencyKey, .ok o)]
  | canceled (id : String) (payload : PaymentIntentCancel)
      (asked : r.op = .cancelIntent id payload) (named : p.id = id)
      (pending : p.status ≠ .canceled ∧ p.status ≠ .succeeded)
      (stripeId : String) (stripe : truthy p.stripePaymentIntentId = some stripeId)
      (o : StripeObject) (answered : r.answer
        (cancelPaymentIntent stripeId payload.idempotencyKey payload.reason) = .ok o)
      (status : PaymentIntentStatus)
      (parsed : PaymentIntentStatus.ofValue? o.status = some status) (positive : 0 < p.amount) :
      Changes r p { p with status := status } (reversal p r.env)
        [(cancelPaymentIntent stripeId payload.idempotencyKey payload.reason, .ok o)]
  | captured (event : StripeEvent) (asked : r.op = .deliver event)
      (succeeded : event.type = "payment_intent.succeeded")
      (stripeId : String) (named : event.object.id = some stripeId)
      (stripe : p.stripePaymentIntentId = some stripeId) (pending : p.status ≠ .succeeded)
      (n : Int) (amount : eventAmount event.object = .ok n) (positive : 0 < n) :
      Changes r p { p with status := .succeeded, amountReceived := n } (capture p n r.env) []
  | refunded (id key : String) (amount : Option Int) (reason : Option String)
      (asked : r.op = .refundIntent id key amount reason) (named : p.id = id)
      (captured : p.status = .succeeded)
      (stripeId : String) (stripe : truthy p.stripePaymentIntentId = some stripeId)
      (n : Int) (computed : amount.getD (p.amountReceived - p.amountRefunded) = n)
      (positive : 0 < n) (refundable : n ≤ p.amountReceived - p.amountRefunded)
      (o : StripeObject) (answered : r.answer (createRefund stripeId n key reason) = .ok o) :
      Changes r p { p with amountRefunded := p.amountRefunded + n }
        (refundEntries p n o.id reason r.env) [(createRefund stripeId n key reason, .ok o)]

/-- What a request served alone does to the intents and to the ledger: nothing, one new intent
with its accrual, or one change of an intent with its booking. -/
inductive Effect (r : Request) (db : Db) : Calls → Db → Prop
  | still (calls : Calls)
      (quiet : ∀ q o, (q, .ok o) ∈ calls → ¬ IsRefund q)
      (db' : Db) (intents : db'.paymentIntents = db.paymentIntents)
      (ledger : db'.ledgerEntries = db.ledgerEntries) : Effect r db calls db'
  | created (payload : PaymentIntentCreate) (merchant : Option String)
      (fresh : db.intentByKey payload.idempotencyKey = none) (o : StripeObject)
      (answered : r.answer (createCall payload) = .ok o) (status : PaymentIntentStatus)
      (parsed : PaymentIntentStatus.ofValue? o.status = some status) (t : Table PaymentIntent)
      (inserted : db.paymentIntents.insert (newIntent payload merchant r.env o status) = some t)
      (db' : Db) (intents : db'.paymentIntents = t)
      (ledger : db'.ledgerEntries =
        db.ledgerEntries ++ accrual (newIntent payload merchant r.env o status) r.env) :
      Effect r db [(createCall payload, .ok o)] db'
  | changed (p : PaymentIntent) (member : p ∈ db.paymentIntents) (dirty : PaymentIntent)
      (entries : List LedgerEntry) (calls : Calls) (does : Changes r p dirty entries calls)
      (db' : Db)
      (intents : db'.paymentIntents = (db.updateIntent p dirty r.env.now).paymentIntents)
      (ledger : db'.ledgerEntries = db.ledgerEntries ++ entries) : Effect r db calls db'

variable {r : Request} {db : Db}

theorem effect_of_create {payload : PaymentIntentCreate} {merchant : Option String}
    {out : Outcome Db StripeCall StripeAnswer Exn PaymentIntent}
    (h : CreateOutcome payload merchant r.env r.answer db out) :
    Effect r db out.calls out.store := by
  cases h with
  | replayed => exact .still [] (by simp) db rfl rfl
  | conflicted => exact .still [] (by simp) db rfl rfl
  | refused =>
    refine .still _ ?_ db rfl rfl
    rintro q o h ⟨stripeId, n, key, reason, rfl⟩
    simp [createCall] at h
  | created looked o answered status parsed t inserted =>
    exact .created payload merchant looked o answered status parsed t inserted _ rfl rfl

def OnIntent : Op → Prop
  | .confirmIntent .. | .cancelIntent .. | .refundIntent .. => True
  | .createIntent .. | .createSession .. | .getOpenSession .. | .deliver .. => False

instance : (op : Op) → Decidable (OnIntent op)
  | .confirmIntent .. | .cancelIntent .. | .refundIntent .. => isTrue trivial
  | .createIntent .. | .createSession .. | .getOpenSession .. | .deliver .. => isFalse id

/-- What a request on an intent does to the store: nothing, or one change of its row. -/
inductive Touched (r : Request) (db : Db) : Calls → Db → Prop
  | still (calls : Calls) (quiet : ∀ q o, (q, .ok o) ∈ calls → ¬ IsRefund q) :
      Touched r db calls db
  | changed (p : PaymentIntent) (member : p ∈ db.paymentIntents) (dirty : PaymentIntent)
      (es : List LedgerEntry) (calls : Calls) (does : Changes r p dirty es calls) :
      Touched r db calls ((db.updateIntent p dirty r.env.now).post es)

theorem effect_of_touched {calls : Calls} {db' : Db} (h : Touched r db calls db') :
    Effect r db calls db' := by
  cases h with
  | still _ quiet => exact .still calls quiet db rfl rfl
  | changed p member dirty es _ does => exact .changed p member dirty es calls does _ rfl rfl

theorem touched_of_byId {id : String} {Settled : PaymentIntent → Prop}
    {Quiet : PaymentIntent → StripeCall → StripeObject → Prop}
    {Done : PaymentIntent → Outcome Db StripeCall StripeAnswer Exn PaymentIntent → Prop}
    {out : Outcome Db StripeCall StripeAnswer Exn PaymentIntent}
    (h : ByIdOutcome id db Settled Quiet Done out) (hq : ∀ p q o, Quiet p q o → ¬ IsRefund q)
    (hd : ∀ p, p ∈ db.paymentIntents → p.id = id → Done p out → Touched r db out.calls out.store) :
    Touched r db out.calls out.store := by
  cases h with
  | missing => exact .still [] (by simp)
  | settled => exact .still [] (by simp)
  | raised p looked calls e quiet => exact .still calls (fun q o h => hq p q o (quiet q o h))
  | done p looked o does =>
    obtain ⟨hp, hid⟩ := intentById_some looked
    exact hd p hp hid does

theorem request_touched {r : Request} (h : OnIntent r.op) (w : World) :
    Touched r w.db (r.outcome w).calls (r.outcome w).store := by
  obtain ⟨op, env, answer⟩ := r
  cases op with
  | confirmIntent id payload =>
    rw [Request.outcome, Op.program, serve_map]
    refine touched_of_byId (confirmIntent_outcome id payload) (fun _ _ _ h => h.1) ?_
    intro p hp hid hd
    generalize serve _ _ _ = out at hd ⊢
    cases hd with
    | mk live stripeId stripe o answered status parsed =>
      exact .changed p hp _ _ _
        (.confirmed id payload rfl hid live stripeId stripe o answered status parsed)
  | cancelIntent id payload =>
    rw [Request.outcome, Op.program, serve_map]
    refine touched_of_byId (cancelIntent_outcome id payload) (fun _ _ _ h => h.1) ?_
    intro p hp hid hd
    generalize serve _ _ _ = out at hd ⊢
    cases hd with
    | mk pending stripeId stripe o answered status parsed positive =>
      exact .changed p hp _ _ _
        (.canceled id payload rfl hid pending stripeId stripe o answered status parsed positive)
  | refundIntent id key amount reason =>
    rw [Request.outcome, Op.program, serve_map]
    refine touched_of_byId (refundIntent_outcome id key amount reason) (fun _ _ _ h => h.elim) ?_
    intro p hp hid hd
    generalize serve _ _ _ = out at hd ⊢
    cases hd with
    | mk captured stripeId stripe n computed positive refundable o answered =>
      exact .changed p hp _ _ _ (.refunded id key amount reason rfl hid captured stripeId stripe n
        computed positive refundable o answered)
  | createIntent => exact h.elim
  | createSession => exact h.elim
  | getOpenSession => exact h.elim
  | deliver => exact h.elim

omit [StrLower] in
theorem opened_frame (event : StripeEvent) :
    ∃ t, opened db event = { db with webhookEvents := t } := by
  unfold opened
  split
  · exact ⟨_, rfl⟩
  · unfold stored
    split <;> exact ⟨_, rfl⟩

omit [StrLower] in
theorem noted_frame (event : StripeEvent) (exn : Exn) :
    ∃ t, noted db event exn = { db with webhookEvents := t } := by
  unfold noted
  split <;> exact ⟨_, rfl⟩

omit [StrLower] in
theorem paymentIntents_opened (event : StripeEvent) :
    (opened db event).paymentIntents = db.paymentIntents ∧
      (opened db event).ledgerEntries = db.ledgerEntries := by
  obtain ⟨t, h⟩ := @opened_frame db event
  rw [h]
  exact ⟨rfl, rfl⟩

omit [StrLower] in
theorem paymentIntents_noted (event : StripeEvent) (exn : Exn) :
    (noted db event exn).paymentIntents = db.paymentIntents ∧
      (noted db event exn).ledgerEntries = db.ledgerEntries := by
  obtain ⟨t, h⟩ := @noted_frame db event exn
  rw [h]
  exact ⟨rfl, rfl⟩

omit [StrLower] in
theorem paymentIntents_completes {db' : Db} {id : String} {env : Env}
    (h : CompletesSession db db' id env) :
    db'.paymentIntents = db.paymentIntents ∧ db'.ledgerEntries = db.ledgerEntries := by
  obtain rfl | ⟨cs, -, -, rfl⟩ := h <;> exact ⟨rfl, rfl⟩

omit [StrLower] in
theorem eventIntent_opened (event : StripeEvent) (stripeId : String) :
    (opened db event).intentByStripeId stripeId = db.intentByStripeId stripeId := by
  simp only [Db.intentByStripeId, (paymentIntents_opened event).1]

theorem effect_of_deliver {event : StripeEvent} (hop : r.op = .deliver event)
    {out : Outcome Db StripeCall StripeAnswer Exn WebhookReply}
    (h : DeliverOutcome event r.env db out) : Effect r db [] out.store := by
  cases h with
  | duplicate => exact .still [] (by simp) db rfl rfl
  | failed exn =>
    obtain ⟨hi, hl⟩ := @paymentIntents_noted db event exn
    exact .still [] (by simp) _ hi hl
  | handled fresh db' does =>
    obtain ⟨hi, hl⟩ := @paymentIntents_opened db event
    cases does with
    | ignored => exact .still [] (by simp) _ hi hl
    | settled _ _ _ p _ _ _ session =>
      obtain ⟨hi', hl'⟩ := paymentIntents_completes session
      exact .still [] (by simp) _ (hi'.trans hi) (hl'.trans hl)
    | captures ht stripeId hn p looked pending n amount positive _ session =>
      obtain ⟨hi', hl'⟩ := paymentIntents_completes session
      rw [eventIntent_opened] at looked
      obtain ⟨hp, hs⟩ := intentByStripeId_some looked
      have hu : ((opened db event).updateIntent p
          { p with status := .succeeded, amountReceived := n } r.env.now).paymentIntents =
          (db.updateIntent p { p with status := .succeeded, amountReceived := n }
            r.env.now).paymentIntents := by simp only [Db.updateIntent, hi]
      exact .changed p hp _ _ [] (.captured event hop ht stripeId hn hs pending n amount positive)
        _ (hi'.trans hu) (hl'.trans (by simp [hl]))

theorem effect_of_link {merchant : String} {payload : CheckoutSessionCreate}
    {intent : PaymentIntent} {store : Db} {calls : Calls}
    {out : Outcome Db StripeCall StripeAnswer Exn CheckoutSession}
    (h : LinkOutcome merchant payload intent r.env store out) (he : Effect r db calls store) :
    Effect r db (calls ++ out.calls) out.store := by
  have hs : out.calls = [] ∧ out.store.paymentIntents = store.paymentIntents ∧
      out.store.ledgerEntries = store.ledgerEntries := by
    cases h <;> exact ⟨rfl, rfl, rfl⟩
  obtain ⟨hc, hi, hl⟩ := hs
  rw [hc, List.append_nil]
  cases he with
  | still _ quiet _ intents ledger => exact .still _ quiet _ (hi.trans intents) (hl.trans ledger)
  | created payload merchant fresh o answered status parsed t inserted _ intents ledger =>
    exact .created payload merchant fresh o answered status parsed t inserted _
      (hi.trans intents) (hl.trans ledger)
  | changed p member dirty entries _ does _ intents ledger =>
    exact .changed p member dirty entries _ does _ (hi.trans intents) (hl.trans ledger)

theorem effect_of_session {merchant : String} {payload : CheckoutSessionCreate}
    {out : Outcome Db StripeCall StripeAnswer Exn CheckoutSession}
    (h : SessionOutcome merchant payload r.env r.answer db out) :
    Effect r db out.calls out.store := by
  cases h with
  | invalid => exact .still [] (by simp) db rfl rfl
  | stopped p body store calls e creates => exact effect_of_create creates
  | linked p body store calls intent creates out links =>
    exact effect_of_link links (effect_of_create creates)

theorem request_effect (r : Request) (w : World) :
    Effect r w.db (r.outcome w).calls (r.outcome w).store := by
  by_cases hid : OnIntent r.op
  · exact effect_of_touched (request_touched hid w)
  obtain ⟨op, env, answer⟩ := r
  cases op with
  | createIntent payload merchant =>
    rw [Request.outcome, Op.program, serve_map]
    exact effect_of_create (createIntent_outcome payload merchant)
  | confirmIntent => exact absurd trivial hid
  | cancelIntent => exact absurd trivial hid
  | refundIntent => exact absurd trivial hid
  | createSession merchant payload =>
    rw [Request.outcome, Op.program, serve_map]
    exact effect_of_session (createSession_outcome merchant payload)
  | getOpenSession id =>
    rw [Request.outcome, Op.program, serve_map]
    have h : OpenOutcome id env w.db (serve answer _ w.db) := getOpenSession_outcome id
    generalize serve _ _ _ = out at h ⊢
    cases h with
    | missing => exact .still [] (by simp) _ rfl rfl
    | returned => exact .still [] (by simp) _ rfl rfl
    | expired => exact .still [] (by simp) _ rfl rfl
  | deliver event =>
    rw [Request.outcome, Op.program, serve_map]
    have h : DeliverOutcome event env w.db (serve answer _ w.db) := stripeWebhook_outcome
    have hc : (serve answer (stripeWebhook event env) w.db).calls = [] := by
      generalize serve _ _ _ = out at h ⊢
      cases h <;> rfl
    exact hc ▸ effect_of_deliver rfl h

theorem events_of_create {payload : PaymentIntentCreate} {merchant : Option String} {env : Env}
    {answer : StripeCall → StripeAnswer}
    {out : Outcome Db StripeCall StripeAnswer Exn PaymentIntent}
    (h : CreateOutcome payload merchant env answer db out) :
    out.store.webhookEvents = db.webhookEvents := by
  cases h <;> rfl

theorem webhookEvents_touched {r : Request} {calls : Calls} {db' : Db}
    (h : Touched r db calls db') : db'.webhookEvents = db.webhookEvents := by
  cases h <;> rfl

theorem webhookEvents_after {r : Request} (h : ∀ event, r.op ≠ .deliver event) (w : World) :
    (w.after r).db.webhookEvents = w.db.webhookEvents := by
  by_cases hid : OnIntent r.op
  · exact webhookEvents_touched (request_touched hid w)
  obtain ⟨op, env, answer⟩ := r
  change (Request.outcome ⟨op, env, answer⟩ w).store.webhookEvents = w.db.webhookEvents
  cases op with
  | createIntent payload merchant =>
    rw [Request.outcome, Op.program, serve_map]
    exact events_of_create (createIntent_outcome payload merchant)
  | confirmIntent => exact absurd trivial hid
  | cancelIntent => exact absurd trivial hid
  | refundIntent => exact absurd trivial hid
  | createSession merchant payload =>
    rw [Request.outcome, Op.program, serve_map]
    have ho : SessionOutcome merchant payload env answer w.db (serve answer _ w.db) :=
      createSession_outcome merchant payload
    generalize serve _ _ _ = out at ho ⊢
    cases ho with
    | invalid => rfl
    | stopped p body store calls e creates => exact events_of_create creates
    | linked p body store calls intent creates out links =>
      refine Eq.trans ?_ (events_of_create creates)
      cases links <;> rfl
  | getOpenSession id =>
    rw [Request.outcome, Op.program, serve_map]
    have ho : OpenOutcome id env w.db (serve answer _ w.db) := getOpenSession_outcome id
    generalize serve _ _ _ = out at ho ⊢
    cases ho <;> rfl
  | deliver event => exact absurd rfl (h event)

theorem intent_of_change {p dirty : PaymentIntent} {es : List LedgerEntry} {calls : Calls}
    (h : Changes r p dirty es calls) : ∀ e ∈ es, e.paymentIntentId = some p.id := by
  cases h with
  | confirmed => exact fun e he => by cases he
  | canceled => exact fun e he => intent_of_reversal he
  | captured => exact fun e he => intent_of_capture he
  | refunded => exact fun e he => intent_of_refund he

inductive RowAfter (r : Request) (db : Db) (calls : Calls) (db' : Db) (q : PaymentIntent) : Prop
  | kept (member : q ∈ db.paymentIntents) (es : List LedgerEntry)
      (ledger : db'.ledgerEntries = db.ledgerEntries ++ es)
      (others : ∀ e ∈ es, e.paymentIntentId ≠ some q.id)
  | created (payload : PaymentIntentCreate) (merchant : Option String)
      (fresh : db.intentByKey payload.idempotencyKey = none) (o : StripeObject)
      (answered : r.answer (createCall payload) = .ok o) (status : PaymentIntentStatus)
      (parsed : PaymentIntentStatus.ofValue? o.status = some status)
      (row : q = newIntent payload merchant r.env o status)
      (unknown : ∀ p ∈ db.paymentIntents, p.id ≠ q.id ∧ p.stripePaymentIntentId ≠ some o.id)
      (called : calls = [(createCall payload, .ok o)])
      (ledger : db'.ledgerEntries = db.ledgerEntries ++ accrual q r.env)
  | changed (p : PaymentIntent) (member : p ∈ db.paymentIntents) (dirty : PaymentIntent)
      (es : List LedgerEntry) (does : Changes r p dirty es calls)
      (row : q = p.flush dirty r.env.now p)
      (ledger : db'.ledgerEntries = db.ledgerEntries ++ es)

theorem row_after {calls : Calls} {db' : Db} {q : PaymentIntent} (h : Effect r db calls db')
    (hq : q ∈ db'.paymentIntents) : RowAfter r db calls db' q := by
  cases h with
  | still _ quiet _ intents ledger =>
    exact .kept (intents ▸ hq) [] (by simp [ledger]) (by simp)
  | created payload merchant fresh o answered status parsed t inserted _ intents ledger =>
    rw [intents] at hq
    obtain h | rfl := (Table.mem_insert inserted).mp hq
    · refine .kept h _ ledger (fun e he heq => (insert_fresh inserted h).1 ?_)
      rw [intent_of_accrual he] at heq
      exact (Option.some.inj heq).symm
    · refine .created payload merchant fresh o answered status parsed rfl ?_ rfl ledger
      intro p hp
      obtain ⟨hid, -, hs⟩ := insert_fresh inserted hp
      exact ⟨hid, hs (by simp [newIntent])⟩
  | changed p member dirty es _ does _ intents ledger =>
    rw [intents] at hq
    obtain rfl | ⟨h, hne⟩ := (mem_updateIntent_loaded member).mp hq
    · exact .changed p member dirty es does rfl ledger
    · refine .kept h es ledger (fun e he heq => hne ?_)
      rw [intent_of_change does e he] at heq
      exact (Option.some.inj heq).symm

/-- Every row of before is there after a request, and nothing has changed of it but what confirming,
capturing, refunding and canceling change. -/
theorem row_continues {calls : Calls} {db' : Db} {p : PaymentIntent} (h : Effect r db calls db')
    (hp : p ∈ db.paymentIntents) : ∃ q ∈ db'.paymentIntents, ∃ status received refunded now,
      q = { p with status := status, amountReceived := received, amountRefunded := refunded,
                   updatedAt := now } := by
  cases h with
  | still _ quiet _ intents => exact ⟨p, intents ▸ hp, _, _, _, _, rfl⟩
  | created payload merchant fresh o answered status parsed t inserted _ intents =>
    exact ⟨p, intents ▸ (Table.mem_insert inserted).mpr (.inl hp), _, _, _, _, rfl⟩
  | changed p' member dirty es _ does _ intents =>
    refine ⟨if p.id = p'.id then p'.flush dirty r.env.now p else p,
      intents ▸ mem_updateIntent.mpr ⟨p, hp, rfl⟩, ?_⟩
    split <;> exact ⟨_, _, _, _, rfl⟩

theorem row_remains {calls : Calls} {db' : Db} {p : PaymentIntent} (h : Effect r db calls db')
    (hp : p ∈ db.paymentIntents) : ∃ q ∈ db'.paymentIntents, q.id = p.id ∧
      q.stripePaymentIntentId = p.stripePaymentIntentId ∧ q.customerId = p.customerId ∧
      q.merchantId = p.merchantId := by
  obtain ⟨q, hq, _, _, _, _, rfl⟩ := row_continues h hp
  exact ⟨_, hq, rfl, rfl, rfl, rfl⟩

theorem references_after {calls : Calls} {db' : Db} (h : Effect r db calls db')
    (hr : ∀ e ∈ db.ledgerEntries, db.references e.paymentIntentId = true) :
    ∀ e ∈ db'.ledgerEntries, db'.references e.paymentIntentId = true := by
  have hold : ∀ e ∈ db.ledgerEntries, db'.references e.paymentIntentId = true := fun e he =>
    references_mono (fun p hp => by
      obtain ⟨q, hq, hid, -⟩ := row_remains h hp
      exact ⟨q, hq, hid⟩) (hr e he)
  cases h with
  | still _ quiet _ intents ledger => exact ledger ▸ hold
  | created payload merchant fresh o answered status parsed t inserted _ intents ledger =>
    intro e he
    obtain h | h := List.mem_append.mp (ledger ▸ he)
    · exact hold e h
    · rw [intent_of_accrual h]
      exact references_of_mem (intents ▸ (Table.mem_insert inserted).mpr (.inr rfl))
  | changed p member dirty es _ does _ intents ledger =>
    intro e he
    obtain h | h := List.mem_append.mp (ledger ▸ he)
    · exact hold e h
    · rw [intent_of_change does e h, references_congr intents, references_updateIntent]
      exact references_of_mem member

end SixGateway.Effects
