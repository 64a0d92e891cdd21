import SixGateway.StripeContract

namespace SixGateway.Captures

open Library Models Errors Database StripeClient LedgerService PaymentService Webhook Gateway
open Queries Bookings Outcomes Deliveries Effects StripeContract

section

variable [StrLower]

/-- The row of a Stripe id is SUCCEEDED, with what it has received and what was booked as its
capture. -/
def CapturedAs (db : Db) (stripeId : String) (received : Int) (legs : List LedgerLeg) : Prop :=
  ∃ p ∈ db.paymentIntents, p.stripePaymentIntentId = some stripeId ∧ p.status = .succeeded ∧
    p.amountReceived = received ∧
    bookedAs db.ledgerEntries p.id "payment_intent.succeeded" = legs

def Captured (db : Db) (stripeId : String) (n : Int) : Prop :=
  CapturedAs db stripeId n (pair "payments_authorised" "payments_captured" n)

instance (db : Db) (stripeId : String) (received : Int) (legs : List LedgerLeg) :
    Decidable (CapturedAs db stripeId received legs) :=
  inferInstanceAs (Decidable (∃ p ∈ db.paymentIntents, _))

/-- A delivery of a succeeded event for a known intent that returns success. -/
def Paid (stripeId : String) (w : World) (r : Request) (n : Int) : Prop :=
  ∃ event, r.op = .deliver event ∧ SucceededEvent event stripeId ∧
    eventAmount event.object = .ok n ∧ 1 ≤ n ∧
    (∃ p ∈ w.db.paymentIntents, p.stripePaymentIntentId = some stripeId) ∧
    ∃ reply, (r.outcome w).result = .ok reply

/-- What is assumed of Stripe here: an event id names one event, and the succeeded event of an
intent is sent after the call that creates it. -/
structure Genuine (w : World) (r : Request) : Prop where
  eventId : ∀ event, r.op = .deliver event → ∀ e ∈ w.db.webhookEvents, e.id = event.id →
    e.payload = event
  created : ∀ payload o, r.answer (createCall payload) = .ok o →
    ∀ e ∈ w.db.webhookEvents, ¬ SucceededEvent e.payload o.id

def About (stripeId : String) : StripeCall → StripeObject → Prop
  | .createPaymentIntent .., o => o.id = stripeId
  | .confirmPaymentIntent s .., _ => s = stripeId
  | .cancelPaymentIntent s .., _ => s = stripeId
  | .createRefund .., _ => False

/-- Stripe has answered some call on the intent with the status that the webhook should bring. -/
def AnsweredSucceeded (calls : Calls) (stripeId : String) : Prop :=
  ∃ q o, (q, .ok o) ∈ calls ∧ About stripeId q o ∧ o.status = PaymentIntentStatus.succeeded.value

variable {w : World} {r : Request} {p dirty : PaymentIntent} {es : List LedgerEntry}
  {calls : Calls} {stripeId : String} {n : Int} {legs : List LedgerLeg}

theorem captures_of_change (h : Changes r p dirty es calls) :
    (p.status ≠ .succeeded ∧ dirty.status = .succeeded ∧
      ∃ event, r.op = .deliver event ∧ eventAmount event.object = .ok dirty.amountReceived ∧
        0 < dirty.amountReceived ∧ event.type = "payment_intent.succeeded" ∧
        p.stripePaymentIntentId = event.object.id) ∨
    (bookedAs es p.id "payment_intent.succeeded" = [] ∧
      dirty.amountReceived = p.amountReceived ∧
      (dirty.status = p.status ∨ p.status ≠ .succeeded ∧ ∃ q o s, (q, .ok o) ∈ calls ∧
        PaymentIntentStatus.ofValue? o.status = some dirty.status ∧
        p.stripePaymentIntentId = some s ∧ About s q o)) := by
  cases h with
  | confirmed id payload asked named live stripeId stripe o answered status parsed =>
    exact .inr ⟨rfl, rfl, .inr ⟨by simp_all, _, o, stripeId, List.mem_singleton_self _, parsed,
      truthy_some stripe, rfl⟩⟩
  | canceled id payload asked named pending stripeId stripe o answered status parsed positive =>
    refine .inr ⟨?_, rfl, .inr ⟨pending.2, _, o, stripeId, List.mem_singleton_self _, parsed,
      truthy_some stripe, rfl⟩⟩
    rw [reversal, bookedAs_pairEntries rfl]
    rfl
  | captured event asked succeeded stripeId named stripe pending n amount positive =>
    exact .inl ⟨pending, rfl, event, asked, amount, positive, succeeded, stripe.trans named.symm⟩
  | refunded id key amount reason asked named captured stripeId stripe n computed positive
      refundable o answered =>
    refine .inr ⟨?_, rfl, .inl rfl⟩
    rw [refundEntries, bookedAs_pairEntries rfl]
    exact if_neg (fun h => refund_description_ne o.id (by decide) (Option.some.inj h))

theorem capturedAs_after (h : CapturedAs w.db stripeId n legs) (r : Request) :
    CapturedAs (w.after r).db stripeId n legs := by
  obtain ⟨p, hp, hs, hstatus, hn, hlegs⟩ := h
  have he := request_effect r w
  obtain ⟨q, hq, hid, hqs, -⟩ := row_remains he hp
  refine ⟨q, hq, hqs.trans hs, ?_⟩
  cases row_after he hq with
  | kept member es ledger others =>
    obtain rfl := eq_of_id member hp hid
    refine ⟨hstatus, hn, ?_⟩
    rw [World.after, ledger, bookedAs_append, bookedAs_other others, List.append_nil, hlegs]
  | created payload merchant fresh o answered status parsed row unknown =>
    exact absurd hid.symm (unknown p hp).1
  | changed p' member dirty es does row ledger =>
    subst row
    obtain rfl := eq_of_id member hp hid
    obtain ⟨hst, hrec, -⟩ := flush_loaded p' dirty r.env.now
    obtain ⟨hne, -⟩ | ⟨hes, hd, hds | ⟨hne, -⟩⟩ := captures_of_change does
    · exact absurd hstatus hne
    · refine ⟨hst.trans (hds.trans hstatus), hrec.trans (hd.trans hn), ?_⟩
      rw [World.after, ledger, bookedAs_append, flush_id, hes, List.append_nil, hlegs]
    · exact absurd hstatus hne

theorem capturedAs_afterAll (h : CapturedAs w.db stripeId n legs) (rs : List Request) :
    CapturedAs (w.afterAll rs).db stripeId n legs := by
  induction rs generalizing w with
  | nil => exact h
  | cons r rs ih => exact ih (capturedAs_after h r)

omit [StrLower] in
theorem capturedAs_unique {db : Db} {m : Int} {legs' : List LedgerLeg}
    (h : CapturedAs db stripeId n legs) (h' : CapturedAs db stripeId m legs') :
    n = m ∧ legs = legs' := by
  obtain ⟨p, hp, hs, -, hn, hl⟩ := h
  obtain ⟨q, hq, hs', -, hm, hl'⟩ := h'
  obtain rfl := eq_of_stripeId hp hq hs hs'
  exact ⟨hn.symm.trans hm, hl.symm.trans hl'⟩

/-- Before the first paid delivery: nothing is captured, no event of the intent has been
processed that could have captured it, and SUCCEEDED can only be an answer of Stripe. -/
structure Awaiting (stripeId : String) (w : World) : Prop where
  references : ∀ e ∈ w.db.ledgerEntries, w.db.references e.paymentIntentId = true
  processed : ∀ e ∈ w.db.webhookEvents, e.processedAt.isSome → SucceededEvent e.payload stripeId →
    (∃ n, eventAmount e.payload.object = .ok n ∧ 1 ≤ n) →
    ∀ p ∈ w.db.paymentIntents, p.stripePaymentIntentId ≠ some stripeId
  uncaptured : ∀ p ∈ w.db.paymentIntents, p.stripePaymentIntentId = some stripeId →
    p.amountReceived = 0 ∧ bookedAs w.db.ledgerEntries p.id "payment_intent.succeeded" = []
  early : ∀ p ∈ w.db.paymentIntents, p.stripePaymentIntentId = some stripeId →
    p.status = .succeeded → AnsweredSucceeded w.calls stripeId

omit [StrLower] in
theorem awaiting_empty (stripeId : String) : Awaiting stripeId World.empty := by
  constructor <;> simp [World.empty, Db.empty]

omit [StrLower] in
theorem AnsweredSucceeded.append (h : AnsweredSucceeded calls stripeId) (more : Calls) :
    AnsweredSucceeded (calls ++ more) stripeId := by
  obtain ⟨q, o, hm, h⟩ := h
  exact ⟨q, o, List.mem_append_left _ hm, h⟩

theorem deliver_outcome {event : StripeEvent} (hop : r.op = .deliver event) (w : World) :
    ∃ out, DeliverOutcome event r.env w.db out ∧ (r.outcome w).store = out.store ∧
      (r.outcome w).calls = [] ∧ (r.outcome w).result = out.result.map .webhook := by
  obtain ⟨op, env, answer⟩ := r
  cases hop
  have ho : DeliverOutcome event env w.db (serve answer _ w.db) := stripeWebhook_outcome
  rw [Request.outcome, Op.program, serve_map]
  refine ⟨_, ho, rfl, ?_, rfl⟩
  generalize serve _ _ _ = out at ho ⊢
  cases ho <;> rfl

theorem paid_of_captured {event : StripeEvent} (hop : r.op = .deliver event)
    (hp : p ∈ w.db.paymentIntents) (hne : p.status ≠ .succeeded) {q : PaymentIntent}
    (hq : q ∈ (w.after r).db.paymentIntents) (hid : q.id = p.id) (hs : q.status = .succeeded) :
    ∃ reply, (r.outcome w).result = .ok reply := by
  obtain ⟨out, hout, hstore, -, hresult⟩ := deliver_outcome hop w
  rw [hresult]
  cases hr : out.result with
  | ok reply => exact ⟨_, rfl⟩
  | error e =>
    have hq' : q ∈ w.db.paymentIntents := by
      rw [← intents_of_failed hout hr, ← hstore]
      exact hq
    rw [eq_of_id hq' hp hid] at hs
    exact absurd hs hne

theorem paid_of_change (hp : p ∈ w.db.paymentIntents)
    (hs : p.stripePaymentIntentId = some stripeId) (hne : p.status ≠ .succeeded)
    (hd : dirty.status = .succeeded) {event : StripeEvent} (hop : r.op = .deliver event)
    (hn : eventAmount event.object = .ok n) (hpos : 0 < n)
    (ht : event.type = "payment_intent.succeeded")
    (hid : p.stripePaymentIntentId = event.object.id)
    (hq : p.flush dirty r.env.now p ∈ (w.after r).db.paymentIntents) : Paid stripeId w r n :=
  ⟨event, hop, ⟨ht, hid.symm.trans hs⟩, hn, hpos, ⟨p, hp, hs⟩,
    paid_of_captured hop hp hne hq rfl ((flush_loaded p dirty r.env.now).1.trans hd)⟩

theorem known_after {q : PaymentIntent} (hq : q ∈ (w.after r).db.paymentIntents)
    (hs : q.stripePaymentIntentId = some stripeId) :
    (∃ p ∈ w.db.paymentIntents, p.stripePaymentIntentId = some stripeId) ∨
      ((∀ event, r.op ≠ .deliver event) ∧
        ∃ payload o, r.answer (createCall payload) = .ok o ∧ o.id = stripeId) := by
  cases row_after (request_effect r w) hq with
  | kept member => exact .inl ⟨q, member, hs⟩
  | created payload merchant fresh o answered status parsed row unknown called =>
    subst row
    refine .inr ⟨fun event hop => ?_, payload, o, answered, by simpa [newIntent] using hs⟩
    obtain ⟨-, -, -, hcalls, -⟩ := deliver_outcome hop w
    rw [hcalls] at called
    cases called
  | changed p member dirty es does row =>
    subst row
    exact .inl ⟨p, member, hs⟩

theorem processed_cases (hg : Genuine w r) {e : WebhookEvent}
    (he : e ∈ (w.after r).db.webhookEvents) (hpr : e.processedAt.isSome = true) :
    (∃ x ∈ w.db.webhookEvents, x.payload = e.payload ∧ x.processedAt.isSome = true) ∨
      (r.op = .deliver e.payload ∧ ∃ reply, (r.outcome w).result = .ok reply) := by
  by_cases hop : ∃ event, r.op = .deliver event
  · obtain ⟨event, hop⟩ := hop
    obtain ⟨out, hout, hstore, -, hresult⟩ := deliver_outcome hop w
    have he' : e ∈ out.store.webhookEvents := by
      rw [← hstore]
      exact he
    obtain ⟨x, hx, -, hpay, hxp⟩ | ⟨hpay, reply, hr⟩ := events_of_deliver hout he'
    · exact .inl ⟨x, hx, hpay, hxp ▸ hpr⟩
    · have hevent : e.payload = event := by
        obtain h | ⟨x, hx, hid, h⟩ := hpay
        · exact h
        · exact h ▸ hg.eventId event hop x hx hid
      exact .inr ⟨hevent ▸ hop, _, by rw [hresult, hr]; rfl⟩
  · rw [webhookEvents_after (fun event h => hop ⟨event, h⟩) w] at he
    exact .inl ⟨e, he, rfl, hpr⟩

theorem processed_after (hw : Awaiting stripeId w) (hg : Genuine w r)
    (hu : ∀ n, ¬ Paid stripeId w r n) {e : WebhookEvent}
    (he : e ∈ (w.after r).db.webhookEvents) (hpr : e.processedAt.isSome)
    (hse : SucceededEvent e.payload stripeId)
    (hn : ∃ n, eventAmount e.payload.object = .ok n ∧ 1 ≤ n) {q : PaymentIntent}
    (hq : q ∈ (w.after r).db.paymentIntents) : q.stripePaymentIntentId ≠ some stripeId := by
  intro hs
  obtain ⟨x, hx, hpay, hxp⟩ | ⟨hop, hreply⟩ := processed_cases hg he hpr
  · obtain ⟨p, hp, hps⟩ | ⟨-, payload, o, ha, rfl⟩ := known_after hq hs
    · exact hw.processed x hx hxp (hpay ▸ hse) (hpay ▸ hn) p hp hps
    · exact hg.created payload o ha x hx (hpay ▸ hse)
  · obtain hknown | ⟨hnot, -⟩ := known_after hq hs
    · obtain ⟨n, hn, hpos⟩ := hn
      exact hu n ⟨e.payload, hop, hse, hn, hpos, hknown, hreply⟩
    · exact hnot e.payload hop

theorem awaiting_after (hw : Awaiting stripeId w) (hg : Genuine w r)
    (hu : ∀ n, ¬ Paid stripeId w r n) : Awaiting stripeId (w.after r) := by
  have he := request_effect r w
  refine ⟨references_after he hw.references, fun e hev hpr hse hn q hq =>
    processed_after hw hg hu hev hpr hse hn hq, fun q hq hs => ?_, fun q hq hs hst => ?_⟩
  · cases row_after he hq with
    | kept member es ledger others =>
      obtain ⟨hrec, hb⟩ := hw.uncaptured q member hs
      refine ⟨hrec, ?_⟩
      rw [World.after, ledger, bookedAs_append, bookedAs_other others, hb]
      rfl
    | created payload merchant fresh o answered status parsed row unknown called ledger =>
      have hnew : ∀ e ∈ w.db.ledgerEntries, e.paymentIntentId ≠ some q.id :=
        unnamed_of_unknown hw.references (fun p hp => (unknown p hp).1)
      refine ⟨by rw [row]; rfl, ?_⟩
      rw [World.after, ledger, bookedAs_append, bookedAs_other hnew, accrual,
        bookedAs_pairEntries rfl]
      rfl
    | changed p member dirty es does row ledger =>
      subst row
      obtain ⟨hne, hd, event, hop, hn, hpos, ht, hid⟩ | ⟨hes, hd, -⟩ := captures_of_change does
      · exact absurd (paid_of_change member hs hne hd hop hn hpos ht hid hq) (hu _)
      · obtain ⟨hrec, hb⟩ := hw.uncaptured p member hs
        refine ⟨(flush_loaded p dirty r.env.now).2.1.trans (hd.trans hrec), ?_⟩
        rw [World.after, ledger, bookedAs_append, flush_id, hes, hb]
        rfl
  · cases row_after he hq with
    | kept member => exact (hw.early q member hs hst).append _
    | created payload merchant fresh o answered status parsed row unknown called =>
      subst row
      refine ⟨createCall payload, o, List.mem_append_right _ (called ▸ List.mem_singleton_self _),
        by simpa [newIntent, About, createCall] using hs, ?_⟩
      rw [← PaymentIntentStatus.value_of_ofValue? parsed, ← hst]
      rfl
    | changed p member dirty es does row =>
      subst row
      rw [(flush_loaded p dirty r.env.now).1] at hst
      obtain ⟨hne, hd, event, hop, hn, hpos, ht, hid⟩ |
          ⟨-, -, hds | ⟨-, q, o, s, hm, hpv, hps, hab⟩⟩ := captures_of_change does
      · exact absurd (paid_of_change member hs hne hd hop hn hpos ht hid hq) (hu _)
      · exact (hw.early p member hs (hds.symm.trans hst)).append _
      · obtain rfl : s = stripeId := Option.some.inj (hps.symm.trans hs)
        refine ⟨q, o, List.mem_append_right _ hm, hab, ?_⟩
        rw [← PaymentIntentStatus.value_of_ofValue? hpv, hst]

omit [StrLower] in
theorem capturedAs_congr {db db' : Db} (hi : db'.paymentIntents = db.paymentIntents)
    (hl : db'.ledgerEntries = db.ledgerEntries) (h : CapturedAs db stripeId n legs) :
    CapturedAs db' stripeId n legs := by
  obtain ⟨p, hp, h⟩ := h
  exact ⟨p, hi ▸ hp, by rwa [hl]⟩

/-- The first paid delivery captures a row that is still open, and leaves one that is SUCCEEDED
already without its capture. -/
theorem capturedAs_paid (hw : Awaiting stripeId w) (hg : Genuine w r) (hr : Paid stripeId w r n)
    (hp : p ∈ w.db.paymentIntents) (hs : p.stripePaymentIntentId = some stripeId) :
    (p.status ≠ .succeeded → Captured (w.after r).db stripeId n) ∧
      (p.status = .succeeded → CapturedAs (w.after r).db stripeId 0 []) := by
  obtain ⟨event, hop, hse, hn, hpos, -, reply, hres⟩ := hr
  obtain ⟨hrec, hb⟩ := hw.uncaptured p hp hs
  obtain ⟨out, hout, hstore, -, hresult⟩ := deliver_outcome hop w
  have hdb : (w.after r).db = out.store := hstore
  rw [hdb]
  cases hout with
  | duplicate e looked processed =>
    obtain ⟨he, hid⟩ := eventById_some looked
    have hpay := hg.eventId event hop e he hid
    exact absurd hs (hw.processed e he processed (hpay ▸ hse) ⟨n, hpay ▸ hn, hpos⟩ p hp)
  | failed exn => rw [hresult] at hres; cases hres
  | handled fresh db' does =>
    obtain ⟨hi, hl⟩ := @paymentIntents_opened w.db event
    have hlook : (opened w.db event).intentByStripeId stripeId = some p := by
      rw [eventIntent_opened]
      exact intentByStripeId_of_mem hp hs
    cases does with
    | ignored other => exact absurd hlook (other p stripeId hse.1 hse.2)
    | settled ht sid named q looked done _ session =>
      obtain ⟨hi', hl'⟩ := paymentIntents_completes session
      obtain rfl : sid = stripeId := Option.some.inj (named.symm.trans hse.2)
      obtain rfl : p = q := Option.some.inj (hlook.symm.trans looked)
      refine ⟨fun h => absurd done h, fun _ => ?_⟩
      exact capturedAs_congr (hi'.trans hi) (hl'.trans hl) ⟨p, hp, hs, done, hrec, hb⟩
    | captures ht sid named q looked pending m amount positive _ session =>
      obtain ⟨hi', hl'⟩ := paymentIntents_completes session
      obtain rfl : sid = stripeId := Option.some.inj (named.symm.trans hse.2)
      obtain rfl : p = q := Option.some.inj (hlook.symm.trans looked)
      obtain rfl : m = n := Except.ok.inj (amount.symm.trans hn)
      refine ⟨fun _ => ?_, fun h => absurd h pending⟩
      have hp' : p ∈ (opened w.db event).paymentIntents := hi ▸ hp
      obtain ⟨hst, hamt, -⟩ :=
        flush_loaded p { p with status := .succeeded, amountReceived := m } r.env.now
      refine capturedAs_congr hi' hl'
        ⟨_, (mem_updateIntent_loaded hp').mpr (.inl rfl), hs, hst, hamt, ?_⟩
      rw [ledgerEntries_post, ledgerEntries_updateIntent, hl, bookedAs_append, flush_id, hb,
        capture, bookedAs_pairEntries rfl]
      rfl

/-- From the first paid delivery on a payment is captured, once and with the amount of that
delivery, exactly when the delivery did not find its row SUCCEEDED already. That is so whenever
Stripe has answered no call on the intent with that status before. -/
theorem captured_from_first (pre post : List Request) (d : Request) (stripeId : String) (n : Int)
    (genuine : Along Genuine World.empty (pre ++ [d]))
    (first : Along (fun w r => ∀ m, ¬ Paid stripeId w r m) World.empty pre)
    (paid : Paid stripeId (World.empty.afterAll pre) d n) :
    (Captured (World.empty.afterAll (pre ++ d :: post)).db stripeId n ↔
      ∀ p ∈ (World.empty.afterAll pre).db.paymentIntents,
        p.stripePaymentIntentId = some stripeId → p.status ≠ .succeeded) ∧
    (¬ AnsweredSucceeded (World.empty.afterAll pre).calls stripeId →
      Captured (World.empty.afterAll (pre ++ d :: post)).db stripeId n) := by
  obtain ⟨hpre, hd⟩ := (along_append ..).mp genuine
  have hw : Awaiting stripeId (World.empty.afterAll pre) := afterAll_invariant
    (fun w r h hc => awaiting_after h hc.1 hc.2) (awaiting_empty stripeId) (along_and hpre first)
  rw [afterAll_append, afterAll_cons]
  generalize World.empty.afterAll pre = w at *
  have hknown := paid
  obtain ⟨-, -, -, -, -, ⟨p, hp, hs⟩, -⟩ := hknown
  obtain ⟨hopen, hdone⟩ := capturedAs_paid hw ((along_cons ..).mp hd).1 paid hp hs
  refine ⟨⟨fun h q hq hqs hstatus => ?_, fun h => ?_⟩, fun h => ?_⟩
  · obtain rfl := eq_of_stripeId hp hq hs hqs
    obtain ⟨-, hlegs⟩ := capturedAs_unique h (capturedAs_afterAll (hdone hstatus) post)
    cases hlegs
  · exact capturedAs_afterAll (hopen (h p hp hs)) post
  · exact capturedAs_afterAll (hopen (fun hst => h (hw.early p hp hs hst))) post

end

theorem not_paid [StrLower] {r : Request} (h : ∀ event, r.op ≠ .deliver event)
    (stripeId : String) (w : World) (m : Int) : ¬ Paid stripeId w r m :=
  fun ⟨event, hop, _⟩ => h event hop

theorem genuine_of_no_events [StrLower] {w : World} (h : w.db.webhookEvents.rows = [])
    (r : Request) : Genuine w r := by
  constructor <;> simp [Table.mem_def, h]

def ordered (confirmed : PaymentIntentStatus) : Request :=
  ⟨.createIntent order (some "mer_1"), clock 0, accepting confirmed⟩

def confirmed (status : PaymentIntentStatus) : Request :=
  ⟨.confirmIntent "pi_local_i" confirmation, clock 1, accepting status⟩

def delivered (eventId : String) : Request :=
  ⟨.deliver (paid eventId), clock 2, accepting .requiresAction⟩

/-- Stripe answers the confirmation with `succeeded` and the event comes after: it is accepted,
and the payment is never captured. -/
theorem capture_lost :
    Along (fun w r => Lawful w r ∧ Genuine w r) World.empty
        ([ordered .succeeded, confirmed .succeeded] ++ [delivered "evt_1"]) ∧
      Along (fun w r => ∀ m, ¬ Paid "pi_1" w r m) World.empty
        [ordered .succeeded, confirmed .succeeded] ∧
      Paid "pi_1" (World.empty.afterAll [ordered .succeeded, confirmed .succeeded])
        (delivered "evt_1") 2500 ∧
      ¬ Captured (World.empty.afterAll
        ([ordered .succeeded, confirmed .succeeded] ++ [delivered "evt_1"])).db "pi_1" 2500 := by
  refine ⟨?_, ?_, ?_, by unfold Captured; decide +kernel⟩
  · simp only [List.cons_append, List.nil_append, along_cons]
    exact ⟨⟨accepting_lawful (by decide) (by simp) _ _, genuine_of_no_events rfl _⟩,
      ⟨accepting_lawful (by decide) (by simp) _ _, genuine_of_no_events rfl _⟩,
      ⟨accepting_emitted (by decide) rfl (by decide +kernel) _, genuine_of_no_events rfl _⟩,
      trivial⟩
  · simp only [along_cons]
    exact ⟨not_paid (by simp [ordered]) _ _, not_paid (by simp [confirmed]) _ _, trivial⟩
  · exact ⟨paid "evt_1", rfl, ⟨rfl, rfl⟩, rfl, by decide, by decide +kernel,
      .webhook ⟨true, false⟩, rfl⟩

theorem captured_from_first_order :
    (Captured (World.empty.afterAll
        ([ordered .requiresAction, confirmed .requiresAction] ++
          delivered "evt_1" :: [delivered "evt_2"])).db "pi_1" 2500 ↔
      ∀ p ∈ (World.empty.afterAll
          [ordered .requiresAction, confirmed .requiresAction]).db.paymentIntents,
        p.stripePaymentIntentId = some "pi_1" → p.status ≠ .succeeded) ∧
    (¬ AnsweredSucceeded (World.empty.afterAll
        [ordered .requiresAction, confirmed .requiresAction]).calls "pi_1" →
      Captured (World.empty.afterAll
        ([ordered .requiresAction, confirmed .requiresAction] ++
          delivered "evt_1" :: [delivered "evt_2"])).db "pi_1" 2500) := by
  refine captured_from_first _ _ _ _ _ ?_ ?_ ?_
  · simp only [List.cons_append, List.nil_append, along_cons]
    exact ⟨genuine_of_no_events rfl _, genuine_of_no_events rfl _, genuine_of_no_events rfl _,
      trivial⟩
  · simp only [along_cons]
    exact ⟨not_paid (by simp [ordered]) _ _, not_paid (by simp [confirmed]) _ _, trivial⟩
  · exact ⟨paid "evt_1", rfl, ⟨rfl, rfl⟩, rfl, by decide, by decide +kernel,
      .webhook ⟨true, false⟩, rfl⟩

end SixGateway.Captures
