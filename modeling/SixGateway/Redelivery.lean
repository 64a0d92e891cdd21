import SixGateway.Transactions

namespace SixGateway.Redelivery

open Library Models Errors Database StripeClient LedgerService PaymentService CheckoutService
open Webhook Queries Bookings Gateway Sessions Deliveries Outcomes Effects Concurrency Transactions

def Present (event : StripeEvent) (db : Db) : Prop := ∃ e ∈ db.webhookEvents, e.id = event.id

structure SameTables (db db' : Db) : Prop where
  intents : db'.paymentIntents = db.paymentIntents
  ledger : db'.ledgerEntries = db.ledgerEntries
  sessions : db'.checkoutSessions = db.checkoutSessions

/-- A row as a confirm, a cancel or a refund may have left it. -/
structure SameRow (p q : PaymentIntent) : Prop where
  id : q.id = p.id
  stripeId : q.stripePaymentIntentId = p.stripePaymentIntentId
  currency : q.currency = p.currency
  received : q.amountReceived = p.amountReceived
  succeeded : p.status = .succeeded → q.status = .succeeded

/-- What confirms, cancels and refunds may do to a store. -/
structure Undisturbed (db db' : Db) : Prop where
  sessions : db'.checkoutSessions = db.checkoutSessions
  kept : ∀ p ∈ db.paymentIntents, ∃ q ∈ db'.paymentIntents, SameRow p q
  known : ∀ q ∈ db'.paymentIntents, ∃ p ∈ db.paymentIntents, SameRow p q

/-- An uninterrupted delivery of the event would leave the intents, the ledger and the sessions as
they are. -/
def Idle (event : StripeEvent) (db : Db) : Prop :=
  ∀ stripeId p, event.type = "payment_intent.succeeded" → event.object.id = some stripeId →
    db.intentByStripeId stripeId = some p → p.status = .succeeded ∧
    ∀ cs, findByPaymentIntent db p.id = .ok (some cs) → cs.status = .completed

variable {event : StripeEvent} {db db' db'' : Db} {env : Env} {t : List Stmt} {p q : PaymentIntent}

namespace SameTables

theorem refl (db : Db) : SameTables db db := ⟨rfl, rfl, rfl⟩

theorem symm (h : SameTables db db') : SameTables db' db :=
  ⟨h.intents.symm, h.ledger.symm, h.sessions.symm⟩

theorem trans (h : SameTables db db') (h' : SameTables db' db'') : SameTables db db'' :=
  ⟨h'.intents.trans h.intents, h'.ledger.trans h.ledger, h'.sessions.trans h.sessions⟩

theorem idle (h : SameTables db db') (hi : Idle event db) : Idle event db' := by
  intro stripeId p ht hid hl
  simp only [Db.intentByStripeId, h.intents] at hl
  have hf : findByPaymentIntent db' p.id = findByPaymentIntent db p.id := by
    simp only [findByPaymentIntent, Db.sessionsByIntent, h.sessions]
  rw [hf]
  exact hi stripeId p ht hid hl

theorem undisturbed (h : SameTables db db') : Undisturbed db db' :=
  ⟨h.sessions, fun p hp => ⟨p, h.intents ▸ hp, ⟨rfl, rfl, rfl, rfl, id⟩⟩,
    fun q hq => ⟨q, h.intents ▸ hq, ⟨rfl, rfl, rfl, rfl, id⟩⟩⟩

end SameTables

theorem SameRow.trans {r : PaymentIntent} (h : SameRow p q) (h' : SameRow q r) : SameRow p r :=
  ⟨h'.id.trans h.id, h'.stripeId.trans h.stripeId, h'.currency.trans h.currency,
    h'.received.trans h.received, fun hs => h'.succeeded (h.succeeded hs)⟩

theorem Undisturbed.trans (h : Undisturbed db db') (h' : Undisturbed db' db'') :
    Undisturbed db db'' := by
  refine ⟨h'.sessions.trans h.sessions, fun p hp => ?_, fun r hr => ?_⟩
  · obtain ⟨q, hq, hpq⟩ := h.kept p hp
    obtain ⟨r, hr, hqr⟩ := h'.kept q hq
    exact ⟨r, hr, hpq.trans hqr⟩
  · obtain ⟨q, hq, hqr⟩ := h'.known r hr
    obtain ⟨p, hp, hpq⟩ := h.known q hq
    exact ⟨p, hp, hpq.trans hqr⟩

theorem Undisturbed.intentByStripeId (h : Undisturbed db db') (stripeId : String) :
    (db.intentByStripeId stripeId = none → db'.intentByStripeId stripeId = none) ∧
      ∀ p, db.intentByStripeId stripeId = some p →
        ∃ q, db'.intentByStripeId stripeId = some q ∧ SameRow p q := by
  constructor
  · intro hn
    cases hl : db'.intentByStripeId stripeId with
    | none => rfl
    | some q =>
      obtain ⟨hq, hs⟩ := intentByStripeId_some hl
      obtain ⟨p, hp, hpq⟩ := h.known q hq
      exact absurd (hpq.stripeId.symm.trans hs) (intentByStripeId_none hn hp)
  · intro p hl
    obtain ⟨hp, hs⟩ := intentByStripeId_some hl
    obtain ⟨q, hq, hpq⟩ := h.kept p hp
    exact ⟨q, intentByStripeId_of_mem hq (hpq.stripeId.trans hs), hpq⟩

theorem present_of_some {e : WebhookEvent} (h : db.eventById event.id = some e) :
    Present event db := ⟨e, eventById_some h⟩

theorem not_present_iff : ¬ Present event db ↔ db.eventById event.id = none := by
  constructor
  · intro h
    cases he : db.eventById event.id with
    | none => rfl
    | some e => exact absurd (present_of_some he) h
  · rintro h ⟨e, he, hid⟩
    exact eventById_none h he hid

theorem present_modify {u : Table WebhookEvent} {f : WebhookEvent → WebhookEvent}
    {c : WebhookEvent → Bool} (hk : ∀ e, Keyed.keys (f e) = Keyed.keys e) (hf : ∀ e, (f e).id = e.id)
    (id : String) : (∃ e ∈ u.modify c f hk, e.id = id) ↔ ∃ e ∈ u, e.id = id := by
  have hid : ∀ e : WebhookEvent, (if c e then f e else e).id = e.id := by
    intro e
    split
    · exact hf e
    · rfl
  simp only [Table.mem_modify]
  constructor
  · rintro ⟨_, ⟨e, he, rfl⟩, h⟩
    exact ⟨e, he, (hid e).symm.trans h⟩
  · rintro ⟨e, he, h⟩
    exact ⟨_, ⟨e, he, rfl⟩, (hid e).trans h⟩

theorem present_setProcessedAt (id : String) (now : Instant) :
    Present event (db.setProcessedAt id now) ↔ Present event db :=
  present_modify (f := fun e => { e with processedAt := some now }) (fun _ => rfl)
    (fun _ => rfl) event.id

theorem present_setProcessingError (id message : String) :
    Present event (db.setProcessingError id message) ↔ Present event db :=
  present_modify (f := fun e => { e with processingError := some message }) (fun _ => rfl)
    (fun _ => rfl) event.id

theorem present_apply {s : Stmt} (h : Present event db) (hs : s.apply db = .ok db') :
    Present event db' := by
  obtain ⟨e, he, hid⟩ := h
  cases s with
  | insertIntent row =>
    simp only [Stmt.apply] at hs
    split at hs <;> cases hs
    exact ⟨e, he, hid⟩
  | updateIntent => cases hs; exact ⟨e, he, hid⟩
  | insertEntries es =>
    simp only [Stmt.apply] at hs
    split at hs <;> cases hs
    exact ⟨e, he, hid⟩
  | insertSession row =>
    simp only [Stmt.apply] at hs
    split at hs
    · split at hs <;> cases hs
      exact ⟨e, he, hid⟩
    · cases hs
  | updateSession => cases hs; exact ⟨e, he, hid⟩
  | insertEvent row =>
    simp only [Stmt.apply] at hs
    split at hs
    · next u hu =>
      cases hs
      exact ⟨e, (Table.mem_insert hu).mpr (.inl he), hid⟩
    · cases hs
  | setProcessedAt id now =>
    cases hs
    exact (present_setProcessedAt id now).mpr ⟨e, he, hid⟩
  | setProcessingError id message =>
    cases hs
    exact (present_setProcessingError id message).mpr ⟨e, he, hid⟩

theorem present_commit (h : Present event db) (hc : commit t db = .ok db') : Present event db' := by
  induction t generalizing db with
  | nil => cases hc; exact h
  | cons s t ih =>
    rw [commit_cons] at hc
    split at hc
    · next db₁ hs => exact ih (present_apply h hs) hc
    · cases hc

variable [StrLower]

/-- What a commit of a delivery does: it is the first one, and does all that an uninterrupted
delivery does at that point, or it leaves the intents, the ledger and the sessions alone. -/
def Exact (event : StripeEvent) (env : Env) (db db' : Db) : Prop :=
  (¬ Present event db ∧ Present event db' ∧
    ∃ d, dispatched event env (opened db event) = .ok d ∧ SameTables d db') ∨
  ((Present event db' ↔ Present event db) ∧ SameTables db db')

/-- What everybody else may do to the store while a delivery is under way. -/
structure Rely (event : StripeEvent) (db db' : Db) : Prop where
  events : Present event db → Present event db'
  rows : Keeps db db'
  quiet : ¬ Present event db' → Undisturbed db db'
  idle : (Present event db → Idle event db) → Present event db' → Idle event db'

omit [StrLower] in
theorem Rely.refl (event : StripeEvent) (db : Db) : Rely event db db :=
  ⟨id, Keeps.refl db, fun _ => (SameTables.refl db).undisturbed, id⟩

omit [StrLower] in
theorem Rely.trans (event : StripeEvent) (a b c : Db) (h : Rely event a b) (h' : Rely event b c) :
    Rely event a c where
  events hp := h'.events (h.events hp)
  rows := Keeps.trans a b c h.rows h'.rows
  quiet hn := (h.quiet (fun hp => hn (h'.events hp))).trans (h'.quiet hn)
  idle hi := h'.idle (h.idle hi)

omit [StrLower] in
theorem SameTables.keeps (h : SameTables db db') : Keeps db db' :=
  fun p hp => ⟨p, h.intents ▸ hp, rfl, rfl⟩

omit [StrLower] in
theorem intents_sessionCompleted {id : String} (h : sessionCompleted db id env = .ok db') :
    db'.paymentIntents = db.paymentIntents ∧ db'.ledgerEntries = db.ledgerEntries :=
  paymentIntents_completes (sessionCompleted_ok h)

/-- Once an event is dispatched, there is nothing left to do for it. -/
theorem dispatched_idle (h : dispatched event env db = .ok db') : Idle event db' := by
  intro stripeId q ht hid hl
  obtain ⟨rfl, hnone⟩ | ⟨s, n, p, db₁, -, hs, -, hp, hc, hcs⟩ := dispatched_cases h
  · rw [hnone stripeId ht hid] at hl
    cases hl
  · obtain rfl : s = stripeId := Option.some.inj (hs.symm.trans hid)
    obtain ⟨hpm, hps⟩ := intentByStripeId_some hp
    obtain ⟨q', hq', hqid, hqs, hst⟩ := capturedRow_succeeded hpm hc
    obtain ⟨hqm, hqstripe⟩ := intentByStripeId_some hl
    rw [(intents_sessionCompleted hcs).1] at hqm
    obtain rfl := eq_of_stripeId hqm hq' hqstripe (hqs.trans hps)
    refine ⟨hst, fun cs hfound => ?_⟩
    obtain ⟨hm, hlink⟩ := findByPaymentIntent_some hfound
    exact sessionCompleted_all hcs hm (hlink.trans (congrArg some hqid))

theorem dispatched_keeps (h : dispatched event env db = .ok db') : Keeps db db' := by
  obtain ⟨rfl, -⟩ | ⟨s, n, p, db₁, -, hs, -, hp, hc, hcs⟩ := dispatched_cases h
  · exact Keeps.refl _
  · obtain ⟨hi, -⟩ := intents_sessionCompleted hcs
    unfold capturedRow at hc
    split at hc
    · cases hc
      exact fun x hx => ⟨x, hi ▸ hx, rfl, rfl⟩
    · split at hc <;> cases hc
      intro x hx
      have hm := (@mem_updateIntent db _ p { p with status := .succeeded, amountReceived := n }
        env.now).mpr ⟨x, hx, rfl⟩
      refine ⟨_, hi ▸ hm, ?_⟩
      split <;> exact ⟨rfl, rfl⟩

omit [StrLower] in
theorem opened_tables (db : Db) (event : StripeEvent) : SameTables db (opened db event) := by
  obtain ⟨t, h⟩ := @opened_frame db event
  rw [h]
  exact ⟨rfl, rfl, rfl⟩

theorem Exact.rely (h : Exact event env db db') : Rely event db db' := by
  obtain ⟨hn, hp, d, hd, hs⟩ | ⟨hiff, hs⟩ := h
  · exact ⟨fun _ => hp, Keeps.trans _ _ _ ((opened_tables db event).keeps)
      (Keeps.trans _ _ _ (dispatched_keeps hd) hs.keeps), fun hn' => absurd hp hn',
      fun _ _ => hs.idle (dispatched_idle hd)⟩
  · exact ⟨hiff.mpr, hs.keeps, fun _ => hs.undisturbed, fun hi hp => hs.idle (hi (hiff.mp hp))⟩

omit [StrLower] in
theorem Undisturbed.idle (h : Undisturbed db db') (hi : Idle event db) : Idle event db' := by
  intro stripeId q ht hid hl
  obtain ⟨hq, hs⟩ := intentByStripeId_some hl
  obtain ⟨p, hp, hpq⟩ := h.known q hq
  have hlp := intentByStripeId_of_mem hp (hpq.stripeId.symm.trans hs)
  obtain ⟨hst, hcs⟩ := hi stripeId p ht hid hlp
  have hf : findByPaymentIntent db' q.id = findByPaymentIntent db p.id := by
    simp only [findByPaymentIntent, Db.sessionsByIntent, h.sessions, hpq.id]
  rw [hf]
  exact ⟨hpq.succeeded hst, hcs⟩

variable {r : Request} {dirty : PaymentIntent} {es : List LedgerEntry} {calls : Calls}

theorem sameRow_of_change (hop : OnIntent r.op) (h : Changes r p dirty es calls) (now : Instant) :
    SameRow p (p.flush dirty now p) := by
  obtain ⟨hs, hr, -⟩ := flush_loaded p dirty now
  refine ⟨rfl, rfl, rfl, ?_, fun hp => ?_⟩
  · rw [hr]
    cases h with
    | confirmed => rfl
    | canceled => rfl
    | captured event asked => exact (asked ▸ hop : OnIntent (.deliver event)).elim
    | refunded => rfl
  · rw [hs]
    cases h with
    | confirmed id payload asked named live => simp [hp] at live
    | canceled id payload asked named pending => exact absurd hp pending.2
    | captured => rfl
    | refunded => exact hp

theorem request_rely (hop : OnIntent r.op) (w : World) : Rely event w.db (r.outcome w).store := by
  have ht := request_touched hop w
  generalize (r.outcome w).store = db at ht ⊢
  cases ht with
  | still => exact Rely.refl event _
  | changed p member dirty es _ does =>
    have hrow := sameRow_of_change hop does r.env.now
    have hu : Undisturbed w.db ((w.db.updateIntent p dirty r.env.now).post es) := by
      refine ⟨rfl, fun x hx => ?_, fun q hq => ?_⟩
      · by_cases hid : x.id = p.id
        · obtain rfl := eq_of_id hx member hid
          exact ⟨_, (mem_updateIntent_loaded member).mpr (.inl rfl), hrow⟩
        · exact ⟨x, (mem_updateIntent_loaded member).mpr (.inr ⟨hx, hid⟩), ⟨rfl, rfl, rfl, rfl, id⟩⟩
      · obtain rfl | ⟨hq, -⟩ := (mem_updateIntent_loaded member).mp hq
        · exact ⟨p, member, hrow⟩
        · exact ⟨q, hq, ⟨rfl, rfl, rfl, rfl, id⟩⟩
    refine ⟨id, fun x hx => ?_, fun _ => hu, fun hi hp => hu.idle (hi hp)⟩
    obtain ⟨q, hq, hxq⟩ := hu.kept x hx
    exact ⟨q, hq, hxq.id, hxq.stripeId⟩

end SixGateway.Redelivery
