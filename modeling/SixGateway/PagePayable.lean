import SixGateway.PagePrice
import SixGateway.Captures

namespace SixGateway.PagePayable

open Library Models Errors Database Schemas StripeClient PaymentService CheckoutService Webhook
open Gateway Queries Outcomes Sessions Deliveries Effects SessionEffects SessionSteps
open HostedPage PagePrice StripeContract Captures

def EventProcessed (db : Db) (p : PaymentIntent) : Prop :=
  ∃ e ∈ db.webhookEvents, e.processedAt.isSome = true ∧
    ∃ stripeId, p.stripePaymentIntentId = some stripeId ∧ SucceededEvent e.payload stripeId

section

variable [StrLower]

/-- The page asks for a payment only where the intent can still be paid, and whoever has paid is
known to have paid. -/
structure Backed (w : World) : Prop where
  payable : ∀ pk sessionId env answer args,
    (serve answer (hostedCheckoutPage pk sessionId env) w.db).result = .ok (.form args) →
      ∃ cs ∈ w.db.checkoutSessions, cs.id = sessionId ∧ ∃ p ∈ w.db.paymentIntents,
        cs.paymentIntentId = some p.id ∧ p.clientSecret = some args.clientSecret ∧
        p.status ≠ .canceled ∧ ¬ (p.status = .succeeded ∧ EventProcessed w.db p)
  completed : ∀ cs ∈ w.db.checkoutSessions, cs.status = .completed →
    ∃ p ∈ w.db.paymentIntents, cs.paymentIntentId = some p.id ∧ p.status = .succeeded

/-- No intent with an OPEN session is canceled through the payment API, and no session is opened by
its key on an intent that is CANCELED, or SUCCEEDED by its event. -/
structure Apart (w : World) (r : Request) : Prop where
  cancels : ∀ id payload, r.op = .cancelIntent id payload → ∀ p ∈ w.db.paymentIntents, p.id = id →
    p.status ≠ .canceled ∧ p.status ≠ .succeeded →
    (∃ stripeId o, truthy p.stripePaymentIntentId = some stripeId ∧
      r.answer (cancelPaymentIntent stripeId payload.idempotencyKey payload.reason) = .ok o) →
    ∀ cs ∈ w.db.checkoutSessions, cs.paymentIntentId = some id → cs.status ≠ .opened
  opens : ∀ merchant payload, r.op = .createSession merchant payload →
    ∀ p ∈ w.db.paymentIntents, p.idempotencyKey = payload.idempotencyKey →
    p.amount = payload.amount → p.currency = lower payload.currency →
    w.db.sessionsByIntent p.id = [] →
    p.status ≠ .canceled ∧ ¬ (p.status = .succeeded ∧ EventProcessed w.db p)

structure Agrees (db : Db) : Prop where
  priced : Priced db
  marked : ∀ p ∈ db.paymentIntents, EventProcessed db p → p.status = .succeeded
  live : ∀ cs ∈ db.checkoutSessions, cs.status = .opened → ∀ p ∈ db.paymentIntents,
    cs.paymentIntentId = some p.id → p.status ≠ .canceled ∧ ¬ EventProcessed db p

def Settled (db : Db) : Prop :=
  ∀ cs ∈ db.checkoutSessions, cs.status = .completed →
    ∃ p ∈ db.paymentIntents, cs.paymentIntentId = some p.id ∧ p.status = .succeeded

variable {w : World} {r : Request} {p q : PaymentIntent} {cs : CheckoutSession}

theorem succeeded_after (hp : p ∈ w.db.paymentIntents) (hs : p.status = .succeeded) (r : Request) :
    ∃ q ∈ (w.after r).db.paymentIntents, q.id = p.id ∧ q.status = .succeeded := by
  have he := request_effect r w
  obtain ⟨q, hq, hid, -⟩ := row_remains he hp
  refine ⟨q, hq, hid, ?_⟩
  cases row_after he hq with
  | kept member => rwa [eq_of_id member hp hid]
  | created _ _ _ _ _ _ _ _ unknown => exact absurd hid.symm (unknown p hp).1
  | changed p' member dirty es does row =>
    subst row
    obtain rfl := eq_of_id member hp hid
    rw [(flush_loaded p' dirty r.env.now).1]
    obtain ⟨-, hd, -⟩ | ⟨-, -, hd | ⟨hne, -⟩⟩ := captures_of_change does
    · exact hd
    · exact hd.trans hs
    · exact absurd hs hne

theorem settled_after (h : Settled w.db) (r : Request) : Settled (w.after r).db := by
  have hkept : ∀ old ∈ w.db.checkoutSessions, old.status = .completed →
      ∃ p ∈ (w.after r).db.paymentIntents, old.paymentIntentId = some p.id ∧
        p.status = .succeeded := by
    intro old hold hdone
    obtain ⟨p, hp, hlink, hs⟩ := h old hold hdone
    obtain ⟨q, hq, hid, hqs⟩ := succeeded_after hp hs r
    exact ⟨q, hq, hid ▸ hlink, hqs⟩
  intro cs hcs hdone
  cases session_step r w hcs with
  | kept member => exact hkept cs member hdone
  | expired id asked old member live past row => rw [row] at hdone; cases hdone
  | completed event asked p stored succeeded old member linked row =>
    exact ⟨p, stored, row ▸ linked, succeeded⟩
  | opened merchant payload asked body valid store calls intent creates stored unlinked row =>
    rw [row] at hdone
    cases hdone

theorem settled_afterAll (rs : List Request) : Settled (World.empty.afterAll rs).db :=
  afterAll_invariant (I := fun w => Settled w.db) (C := fun _ _ => True)
    (fun _ r h _ => settled_after h r) (fun _ hcs => absurd hcs Table.not_mem_empty)
    (Run.along_of_forall (fun _ _ => trivial) _ rs)

theorem processed_after (hg : Genuine w r) {e : WebhookEvent}
    (he : e ∈ (w.after r).db.webhookEvents) (hpr : e.processedAt.isSome = true) :
    (∃ x ∈ w.db.webhookEvents, x.payload = e.payload ∧ x.processedAt.isSome = true) ∨
      (r.op = .deliver e.payload ∧ ∃ db', dispatched e.payload r.env (opened w.db e.payload) = .ok db' ∧
        (w.after r).db.paymentIntents = db'.paymentIntents ∧
        (w.after r).db.checkoutSessions = db'.checkoutSessions) := by
  obtain hold | ⟨hop, reply, hreply⟩ := processed_cases hg he hpr
  · exact .inl hold
  obtain ⟨op, env, answer⟩ := r
  obtain rfl : op = .deliver e.payload := hop
  rw [Request.outcome, Op.program, serve_map] at hreply
  cases hr : (serve answer (stripeWebhook e.payload env) w.db).result with
  | error exn =>
    rw [hr] at hreply
    cases hreply
  | ok reply =>
    rw [after_deliver] at he ⊢
    obtain hsame | ⟨db', hd, hstore⟩ := deliver_dispatched hr
    · rw [hsame] at he
      exact .inl ⟨e, he, rfl, hpr⟩
    · rw [hstore]
      exact .inr ⟨rfl, db', hd, rfl, rfl⟩

/-- An event that has been handled to the end leaves its intent SUCCEEDED and no session of it
OPEN. -/
theorem dispatched_agrees {event : StripeEvent} {env : Env} {db db' : Db} {stripeId : String}
    (h : dispatched event env (opened db event) = .ok db') (hs : SucceededEvent event stripeId)
    (hp : p ∈ db.paymentIntents) (hstripe : p.stripePaymentIntentId = some stripeId) :
    (∀ q ∈ db'.paymentIntents, q.id = p.id → q.status = .succeeded) ∧
      ∀ cs ∈ db'.checkoutSessions, cs.paymentIntentId = some p.id → cs.status = .completed := by
  have hi := @paymentIntents_opened db event
  have hp' : p ∈ (opened db event).paymentIntents := hi.1 ▸ hp
  obtain ⟨n, db₁, hc, hcomplete⟩ :=
    dispatched_known h hs.1 hs.2 (intentByStripeId_of_mem hp' hstripe)
  refine ⟨fun q hq hid => ?_, fun cs hcs hlink => sessionCompleted_all hcomplete hcs hlink⟩
  rw [(paymentIntents_completes (sessionCompleted_ok hcomplete)).1] at hq
  obtain ⟨q', hq', hid', -, hs⟩ := capturedRow_succeeded hp' hc
  rwa [eq_of_id hq hq' (hid.trans hid'.symm)]

/-- A succeeded event of an intent that has been processed before or by a request: the request
finds the intent SUCCEEDED, or it leaves it so and leaves no session of it OPEN. -/
theorem eventProcessed_after (hg : Genuine w r) (hp : p ∈ w.db.paymentIntents)
    (hq : q ∈ (w.after r).db.paymentIntents) (hid : q.id = p.id)
    (hstripe : q.stripePaymentIntentId = p.stripePaymentIntentId)
    (h : EventProcessed (w.after r).db q) : EventProcessed w.db p ∨
      (q.status = .succeeded ∧ ∀ cs ∈ (w.after r).db.checkoutSessions,
        cs.paymentIntentId = some q.id → cs.status = .completed) := by
  obtain ⟨e, he, hpr, stripeId, hs, hevent⟩ := h
  rw [hstripe] at hs
  obtain ⟨x, hx, hpay, hxp⟩ | ⟨-, db', hd, hintents, hsessions⟩ := processed_after hg he hpr
  · exact .inl ⟨x, hx, hxp, stripeId, hs, hpay ▸ hevent⟩
  · obtain ⟨hsucceeded, hcompleted⟩ := dispatched_agrees hd hevent hp hs
    rw [hintents] at hq
    rw [hsessions]
    exact .inr ⟨hsucceeded q hq hid, fun cs hcs hlink => hcompleted cs hcs (hid ▸ hlink)⟩

theorem not_processed_created {payload : PaymentIntentCreate} {merchant : Option String}
    {o : StripeObject} {status : PaymentIntentStatus} (hg : Genuine w r)
    (hop : ∀ event, r.op ≠ .deliver event) (answered : r.answer (createCall payload) = .ok o) :
    ¬ EventProcessed (w.after r).db (newIntent payload merchant r.env o status) := by
  rintro ⟨e, he, -, stripeId, hs, hevent⟩
  obtain rfl : o.id = stripeId := Option.some.inj hs
  rw [webhookEvents_after hop w] at he
  exact hg.created payload o answered e he hevent

theorem row_origin (hq : q ∈ (w.after r).db.paymentIntents) :
    (∃ p ∈ w.db.paymentIntents, q.id = p.id ∧ q.stripePaymentIntentId = p.stripePaymentIntentId ∧
      (q.status = p.status ∨ ∃ dirty es calls, Changes r p dirty es calls ∧
        q.status = dirty.status)) ∨
    ((∀ event, r.op ≠ .deliver event) ∧ (∀ p ∈ w.db.paymentIntents, p.id ≠ q.id) ∧
      ∃ payload merchant o status, r.answer (createCall payload) = .ok o ∧
        PaymentIntentStatus.ofValue? o.status = some status ∧
        q = newIntent payload merchant r.env o status) := by
  cases row_after (request_effect r w) hq with
  | kept member => exact .inl ⟨q, member, rfl, rfl, .inl rfl⟩
  | created payload merchant fresh o answered status parsed row unknown called =>
    refine .inr ⟨fun event hop => ?_, fun p hp => (unknown p hp).1, payload, merchant, o, status,
      answered, parsed, row⟩
    obtain ⟨-, -, -, hcalls, -⟩ := deliver_outcome hop w
    rw [hcalls] at called
    cases called
  | changed p member dirty es does row =>
    subst row
    exact .inl ⟨p, member, rfl, rfl, .inr ⟨dirty, es, _, does, (flush_loaded p dirty r.env.now).1⟩⟩

theorem canceled_of_change {dirty : PaymentIntent} {es : List LedgerEntry} {calls : Calls}
    (hl : Lawful w r) (h : Changes r p dirty es calls) (hd : dirty.status = .canceled) :
    p.status = .canceled ∨ ∃ payload, r.op = .cancelIntent p.id payload ∧
      (p.status ≠ .canceled ∧ p.status ≠ .succeeded) ∧ ∃ stripeId o,
        truthy p.stripePaymentIntentId = some stripeId ∧
        r.answer (cancelPaymentIntent stripeId payload.idempotencyKey payload.reason) = .ok o := by
  cases h with
  | confirmed id payload asked named live stripeId stripe o answered status parsed =>
    exact absurd hd (ne_of_value parsed (hl.answers _ _ answered))
  | canceled id payload asked named pending stripeId stripe o answered =>
    exact .inr ⟨payload, named ▸ asked, pending, stripeId, o, stripe, answered⟩
  | captured => cases hd
  | refunded => exact .inl hd

theorem marked_after (h : Agrees w.db) (hg : Genuine w r)
    (hq : q ∈ (w.after r).db.paymentIntents) (he : EventProcessed (w.after r).db q) :
    q.status = .succeeded := by
  obtain ⟨p, hp, hid, hstripe, -⟩ | ⟨hop, -, payload, merchant, o, status, answered, -, rfl⟩ :=
    row_origin hq
  · obtain hold | ⟨hs, -⟩ := eventProcessed_after hg hp hq hid hstripe he
    · obtain ⟨q', hq', hid', hs⟩ := succeeded_after hp (h.marked p hp hold) r
      rwa [eq_of_id hq hq' (hid.trans hid'.symm)]
    · exact hs
  · exact absurd he (not_processed_created hg hop answered)

theorem live_kept (h : Agrees w.db) (hl : Lawful w r) (hg : Genuine w r) (ha : Apart w r)
    (hcs : cs ∈ w.db.checkoutSessions) (hcs' : cs ∈ (w.after r).db.checkoutSessions)
    (hopen : cs.status = .opened) (hq : q ∈ (w.after r).db.paymentIntents)
    (hlink : cs.paymentIntentId = some q.id) :
    q.status ≠ .canceled ∧ ¬ EventProcessed (w.after r).db q := by
  obtain ⟨p, hp, hid, hstripe, hstatus⟩ | ⟨-, hnew, -⟩ := row_origin hq
  · rw [hid] at hlink
    obtain ⟨hnc, hnp⟩ := h.live cs hcs hopen p hp hlink
    refine ⟨fun hc => ?_, fun he => ?_⟩
    · obtain hsame | ⟨dirty, es, calls, does, hd⟩ := hstatus
      · exact hnc (hsame ▸ hc)
      · obtain hpc | ⟨payload, asked, pending, accepted⟩ := canceled_of_change hl does (hd ▸ hc)
        · exact hnc hpc
        · exact ha.cancels p.id payload asked p hp rfl pending accepted cs hcs hlink hopen
    · obtain hold | ⟨-, hdone⟩ := eventProcessed_after hg hp hq hid hstripe he
      · exact hnp hold
      · have hc := hdone cs hcs' (hid ▸ hlink)
        rw [hopen] at hc
        cases hc
  · obtain ⟨p, hp, hl', -⟩ := h.priced cs hcs
    exact absurd (Option.some.inj (hl'.symm.trans hlink)) (hnew p hp)

theorem live_opened (h : Agrees w.db) (hl : Lawful w r) (hg : Genuine w r) (ha : Apart w r)
    {merchant : String} {payload : CheckoutSessionCreate} {body : PaymentIntentCreate} {store : Db}
    {calls : Calls} (asked : r.op = .createSession merchant payload)
    (valid : intentPayload payload = .ok body)
    (creates : CreateOutcome body (some merchant) r.env r.answer w.db ⟨store, calls, .ok p⟩)
    (unlinked : w.db.sessionsByIntent p.id = []) :
    p.status ≠ .canceled ∧ ¬ EventProcessed (w.after r).db p := by
  have hop : ∀ event, r.op ≠ .deliver event := by simp [asked]
  obtain ⟨-, hkey, hamount, hcurrency⟩ := intentPayload_ok valid
  obtain ⟨hk, ha', hc⟩ := created_price creates
  cases creates with
  | replayed existing looked =>
    have hp := (intentByKey_some looked).1
    obtain ⟨hnc, hns⟩ := ha.opens merchant payload asked p hp (hk.trans hkey) (ha'.trans hamount)
      (hc.trans hcurrency) unlinked
    refine ⟨hnc, fun he => ?_⟩
    obtain ⟨e, hm, hpr, hevent⟩ := he
    rw [webhookEvents_after hop w] at hm
    have hold : EventProcessed w.db p := ⟨e, hm, hpr, hevent⟩
    exact hns ⟨h.marked p hp hold, hold⟩
  | created looked o answered status parsed =>
    exact ⟨ne_of_value parsed (hl.answers _ _ answered).2, not_processed_created hg hop answered⟩

theorem agrees_after (h : Agrees w.db) (hl : Lawful w r) (hg : Genuine w r) (ha : Apart w r) :
    Agrees (w.after r).db := by
  refine ⟨priced_after h.priced r, fun q hq he => marked_after h hg hq he, ?_⟩
  intro cs hcs hopen q hq hlink
  cases session_step r w hcs with
  | kept member => exact live_kept h hl hg ha member hcs hopen hq hlink
  | expired id asked old member live past row => rw [row] at hopen; cases hopen
  | completed event asked p stored succeeded old member linked row => rw [row] at hopen; cases hopen
  | opened merchant payload asked body valid store calls intent creates stored unlinked row =>
    subst row
    obtain rfl := eq_of_id stored hq (Option.some.inj hlink)
    exact live_opened h hl hg ha asked valid creates unlinked

omit [StrLower] in
theorem agrees_empty : Agrees World.empty.db where
  priced := priced_empty
  marked _ hp := absurd hp Table.not_mem_empty
  live _ hcs := absurd hcs Table.not_mem_empty

omit [StrLower] in
theorem Agrees.backed (h : Agrees w.db) (hs : Settled w.db) : Backed w where
  payable pk sessionId env answer args hpage := by
    obtain ⟨cs, hcs, hid, live, -, p, hp, linked, shown, -⟩ := page_of_secret hpage rfl
    obtain ⟨hnc, hnp⟩ := h.live cs hcs live p hp linked
    exact ⟨cs, hcs, hid, p, hp, linked, truthy_some shown, hnc, fun hm => hnp hm.2⟩
  completed := hs

/-- In a run in which sessions and intents are not taken apart, every payment form that the page
shows is backed by an intent that can be paid. -/
theorem page_backed (pre post : List Request)
    (stripe : Along (fun w r => Lawful w r ∧ Genuine w r) World.empty (pre ++ post))
    (apart : Along Apart World.empty (pre ++ post)) : Backed (World.empty.afterAll pre) := by
  have hc := along_and ((along_append ..).mp stripe).1 ((along_append ..).mp apart).1
  refine Agrees.backed ?_ (settled_afterAll pre)
  exact afterAll_invariant (I := fun w => Agrees w.db)
    (fun w r h hr => agrees_after h hr.1.1 hr.1.2 hr.2) agrees_empty hc

theorem apart_of (hc : ∀ id payload, r.op ≠ .cancelIntent id payload)
    (hs : ∀ merchant payload, r.op = .createSession merchant payload →
      ∀ p ∈ w.db.paymentIntents, p.idempotencyKey ≠ payload.idempotencyKey) : Apart w r where
  cancels id payload hop := absurd hop (hc id payload)
  opens merchant payload hop p hp hkey := absurd hkey (hs merchant payload hop p hp)

end

def request (op : Op) (n : Nat) : Request := ⟨op, clock n, accepting .requiresAction⟩

/-- A checkout is canceled through the payment API while its session is OPEN. -/
def canceled : List Request :=
  [request (.createSession "mer_1" checkout) 0,
    request (.cancelIntent "pi_local_i" cancellation) 1]

/-- A session is created under the key of an intent that has been paid. -/
def repaid : List Request :=
  [request (.createIntent order (some "mer_1")) 0, request (.deliver (paid "evt_1")) 1,
    ⟨.createSession "mer_1" checkout, clock 2, fun _ => .error ""⟩]

def shown : OpenPage := ⟨"pk_test", "secret", 2500, "usd", none, none⟩

theorem lawful_request {op : Op} (hop : ∀ event, op ≠ .deliver event) (n : Nat)
    {w : World} (hw : w.db.webhookEvents.rows = []) :
    Lawful w (request op n) ∧ Genuine w (request op n) :=
  ⟨accepting_lawful (by decide) hop _ _, genuine_of_no_events hw _⟩

theorem lawful_paid (n : Nat) {w : World} (hw : w.db.webhookEvents.rows = [])
    (hc : ¬ CancelAccepted w.calls "pi_1") :
    Lawful w (request (.deliver (paid "evt_1")) n) ∧
      Genuine w (request (.deliver (paid "evt_1")) n) :=
  ⟨accepting_emitted (by decide) rfl hc _, genuine_of_no_events hw _⟩

/-- The form of a canceled intent, and the form of one that has been paid. -/
theorem form_shown :
    (Along (fun w r => Lawful w r ∧ Genuine w r) World.empty canceled ∧
        ¬ Backed (World.empty.afterAll canceled)) ∧
      Along (fun w r => Lawful w r ∧ Genuine w r) World.empty repaid ∧
        ¬ Backed (World.empty.afterAll repaid) := by
  refine ⟨⟨?_, ?_⟩, ?_, ?_⟩
  · simp only [canceled, along_cons]
    exact ⟨lawful_request (by simp) 0 rfl, lawful_request (by simp) 1 rfl, trivial⟩
  · intro h
    obtain ⟨cs, -, -, p, hp, -, -, hnc, -⟩ := h.payable "pk_test" "cs_s" (clock 2)
      (accepting .requiresAction) shown (by decide +kernel)
    have hall : ∀ p ∈ (World.empty.afterAll canceled).db.paymentIntents, p.status = .canceled := by
      decide +kernel
    exact hnc (hall p hp)
  · simp only [repaid, along_cons]
    refine ⟨lawful_request (by simp) 0 rfl, lawful_paid 1 rfl (by decide +kernel), ?_, trivial⟩
    exact ⟨⟨by simp, by simp⟩, ⟨by simp, by simp⟩⟩
  · intro h
    obtain ⟨cs, -, -, p, hp, -, -, -, hns⟩ := h.payable "pk_test" "cs_s" (clock 3)
      (accepting .requiresAction) shown (by decide +kernel)
    have hall : ∀ p ∈ (World.empty.afterAll repaid).db.paymentIntents, p.status = .succeeded ∧
        p.stripePaymentIntentId = some "pi_1" := by decide +kernel
    obtain ⟨e, he, hpr, hpay⟩ : ∃ e ∈ (World.empty.afterAll repaid).db.webhookEvents,
        e.processedAt.isSome = true ∧ e.payload = paid "evt_1" := by decide +kernel
    obtain ⟨hs, hstripe⟩ := hall p hp
    exact hns ⟨hs, e, he, hpr, "pi_1", hstripe, by rw [hpay]; exact ⟨rfl, rfl⟩⟩

theorem page_backed_order : Backed (World.empty.afterAll
    [request (.createSession "mer_1" checkout) 0, request (.deliver (paid "evt_1")) 1]) := by
  refine page_backed _ [] ?_ ?_
  · simp only [List.append_nil, along_cons]
    exact ⟨lawful_request (by simp) 0 rfl, lawful_paid 1 rfl (by decide +kernel), trivial⟩
  · simp only [List.append_nil, along_cons]
    exact ⟨apart_of (by simp [request]) (fun _ _ _ _ hp => absurd hp Table.not_mem_empty),
      apart_of (by simp [request]) (by simp [request]), trivial⟩

end SixGateway.PagePayable
