import SixGateway.Sessions

namespace SixGateway.Deliveries

open Library Models Errors Database StripeClient LedgerService PaymentService CheckoutService
open Webhook Queries Bookings Gateway Sessions

variable {answer : StripeCall → StripeAnswer} {db : Db} {env : Env} {event : StripeEvent}

def sessionCompleted (db : Db) (paymentIntentId : String) (env : Env) : Except Exn Db :=
  match findByPaymentIntent db paymentIntentId with
  | .error e => .error e
  | .ok none => .ok db
  | .ok (some cs) =>
    if cs.status = .completed then .ok db
    else .ok (db.updateSession cs { cs with status := .completed } env.now)

def stored (db : Db) (row : WebhookEvent) : Db :=
  match db.webhookEvents.insert row with
  | some t => { db with webhookEvents := t }
  | none => db

/-- The store once the event row of a delivery is there. -/
def opened (db : Db) (event : StripeEvent) : Db :=
  match db.eventById event.id with
  | some _ => db
  | none => stored db (received event)

/-- The store after a delivery that failed: nothing but the error noted on a row that was there. -/
def noted (db : Db) (event : StripeEvent) (exn : Exn) : Db :=
  match db.eventById event.id with
  | some _ => db.setProcessingError event.id (String.ofList (exn.str.toList.take 2048))
  | none => db

variable [StrLower]

def capturedRow (db : Db) (p : PaymentIntent) (amountReceived : Int) (env : Env) :
    Except Exn Db :=
  if p.status = .succeeded then .ok db
  else if amountReceived ≤ 0 then
    .error (.ledgerError "All leg amounts must be positive integers.")
  else .ok ((db.updateIntent p { p with status := .succeeded, amountReceived := amountReceived }
    env.now).post (capture p amountReceived env))

/-- What an event does to the intents, the ledger and the sessions when nobody is in between. -/
def dispatched (event : StripeEvent) (env : Env) (db : Db) : Except Exn Db :=
  if event.type = "payment_intent.succeeded" then
    match event.object.id with
    | none => .error (.keyError "id")
    | some stripeId =>
      match eventAmount event.object with
      | .error e => .error e
      | .ok amountReceived =>
        match db.intentByStripeId stripeId with
        | none => .ok db
        | some p =>
          match capturedRow db p amountReceived env with
          | .error e => .error e
          | .ok db' => sessionCompleted db' p.id env
  else .ok db

/-- A delivery that is not a duplicate, when nobody is in between. -/
def handled (db : Db) (event : StripeEvent) (env : Env) :
    Outcome Db StripeCall StripeAnswer Exn WebhookReply :=
  match dispatched event env (opened db event) with
  | .ok db' => ⟨db'.setProcessedAt event.id env.now, [], .ok ⟨true, false⟩⟩
  | .error exn => ⟨noted db event exn, [], .error (handlerFailed event exn)⟩

omit [StrLower] in
theorem serve_failed {α : Type} (exn : Exn) :
    serve answer (failed event exn : Service α) db =
      ⟨noted db event exn, [], .error (handlerFailed event exn)⟩ := by
  simp only [serve, failed, Program.exec_read, noted]
  cases db.eventById event.id with
  | none => rfl
  | some e => exact Program.exec_commit_ok rfl _

omit [StrLower] in
theorem serve_finish {work : List Stmt} {db' : Db} (hw : commit work db = .ok db') :
    serve answer (finish event env work) db =
      ⟨db'.setProcessedAt event.id env.now, [], .ok ⟨true, false⟩⟩ := by
  have hc : commit (work ++ [.setProcessedAt event.id env.now]) db =
      .ok (db'.setProcessedAt event.id env.now) := by
    rw [commit_append, hw]
    rfl
  exact Program.exec_commit_ok hc _

omit [StrLower] in
theorem serve_dispatchSession {work : List Stmt} {db' : Db} (hw : commit work db = .ok db')
    (hs : db'.checkoutSessions = db.checkoutSessions) (id : String) :
    serve answer (dispatchSession event env work (findByPaymentIntent db id)) db =
      match sessionCompleted db' id env with
      | .ok db'' => ⟨db''.setProcessedAt event.id env.now, [], .ok ⟨true, false⟩⟩
      | .error exn => ⟨noted db event exn, [], .error (handlerFailed event exn)⟩ := by
  have hf : findByPaymentIntent db' id = findByPaymentIntent db id := by
    simp only [findByPaymentIntent, Db.sessionsByIntent, hs]
  rw [sessionCompleted, hf]
  cases findByPaymentIntent db id with
  | error e => exact serve_failed e
  | ok found =>
    cases found with
    | none => exact serve_finish hw
    | some cs =>
      by_cases hc : cs.status = .completed
      · simpa [dispatchSession, completeLoaded, hc, Program.bind] using serve_finish hw
      · have hu : commit (work ++ [.updateSession cs { cs with status := .completed } env.now]) db =
            .ok (db'.updateSession cs { cs with status := .completed } env.now) := by
          rw [commit_append, hw]
          rfl
        simp only [dispatchSession, completeLoaded, ne_eq, hc, not_false_eq_true, if_true,
          if_false, Program.bind]
        rw [serve, Program.exec_commit_ok hu]
        exact serve_finish rfl

theorem commit_applySucceeded {p : PaymentIntent} {n : Int} (hp : p ∈ db.paymentIntents) :
    match applySucceeded p n env with
    | .ok stmts => ∃ db', capturedRow db p n env = .ok db' ∧ commit stmts db = .ok db'
    | .error e => capturedRow db p n env = .error e := by
  by_cases hs : p.status = .succeeded
  · simp [applySucceeded, capturedRow, hs, commit]
  · obtain hn | hn := Int.lt_or_le 0 n
    · simp only [applySucceeded, hs, if_false, record_capture p hn, capturedRow, Int.not_le.mpr hn]
      exact ⟨_, rfl, commit_booking (references_of_mem hp) (fun _ => intent_of_capture)⟩
    · simp [applySucceeded, hs, recordTransaction_pair_error _ _ _ _ hn, capturedRow, hn]

theorem checkoutSessions_capturedRow {p : PaymentIntent} {n : Int} {db' : Db}
    (h : capturedRow db p n env = .ok db') : db'.checkoutSessions = db.checkoutSessions := by
  unfold capturedRow at h
  split at h
  · cases h; rfl
  · split at h <;> cases h
    rfl

theorem serve_dispatch {work : List Stmt} {db' : Db} (hw : commit work db = .ok db')
    (hi : db'.paymentIntents = db.paymentIntents)
    (hs : db'.checkoutSessions = db.checkoutSessions) :
    serve answer (dispatch event env work) db =
      match dispatched event env db' with
      | .ok db'' => ⟨db''.setProcessedAt event.id env.now, [], .ok ⟨true, false⟩⟩
      | .error exn => ⟨noted db event exn, [], .error (handlerFailed event exn)⟩ := by
  unfold dispatch dispatched
  split
  · cases event.object.id with
    | none => exact serve_failed _
    | some stripeId =>
      cases eventAmount event.object with
      | error e => exact serve_failed e
      | ok n =>
        have hl : db'.intentByStripeId stripeId = db.intentByStripeId stripeId := by
          simp only [Db.intentByStripeId, hi]
        simp only [serve, Program.exec_read, hl]
        cases hp : db.intentByStripeId stripeId with
        | none => exact serve_finish hw
        | some p =>
          have ha := @commit_applySucceeded db' env _ p n (by
            rw [← hl] at hp
            exact (intentByStripeId_some hp).1)
          simp only [dispatchLoaded]
          cases happ : applySucceeded p n env with
          | error e =>
            simp only [happ] at ha
            simp only [ha]
            exact serve_failed e
          | ok stmts =>
            simp only [happ] at ha
            obtain ⟨db'', hc, hcm⟩ := ha
            simp only [hc, Program.exec_read]
            have hw' : commit (work ++ stmts) db = .ok db'' := by rw [commit_append, hw]; exact hcm
            exact serve_dispatchSession hw' ((checkoutSessions_capturedRow hc).trans hs) p.id
  · exact serve_finish hw

omit [StrLower] in
theorem stored_eq {row : WebhookEvent} (h : db.eventById row.id = none) :
    ∃ t, db.webhookEvents.insert row = some t ∧ stored db row = { db with webhookEvents := t } := by
  obtain ⟨t, ht⟩ := Table.insert_isSome (t := db.webhookEvents) (r := row) (fun e he => by
    have hne := eventById_none h he
    simpa [clash, Keyed.keys] using hne)
  exact ⟨t, ht, by simp [stored, ht]⟩

theorem stripeWebhook_serves :
    serve answer (stripeWebhook event env) db =
      match db.eventById event.id with
      | some e =>
        if e.processedAt.isSome then ⟨db, [], .ok ⟨true, true⟩⟩ else handled db event env
      | none => handled db event env := by
  simp only [serve, stripeWebhook, Program.exec_read]
  cases he : db.eventById event.id with
  | some e =>
    simp only [webhookLooked]
    split
    · rfl
    · simp only [handled, opened, he]
      exact serve_dispatch rfl rfl rfl
  | none =>
    obtain ⟨t, ht, hst⟩ := @stored_eq _ (received event) he
    have hw : commit [.insertEvent (received event)] db = .ok (stored db (received event)) := by
      simp [commit, Stmt.apply, ht, hst]
    simp only [webhookLooked, handled, opened, he]
    exact serve_dispatch hw (by rw [hst]) (by rw [hst])

def CompletesSession (db db' : Db) (paymentIntentId : String) (env : Env) : Prop :=
  db' = db ∨ ∃ cs ∈ db.checkoutSessions, cs.paymentIntentId = some paymentIntentId ∧
    db' = db.updateSession cs { cs with status := .completed } env.now

/-- What a dispatched event does: it is of no concern to the intents, or it finds its intent
succeeded, or it captures. -/
inductive Dispatches (event : StripeEvent) (env : Env) (db : Db) : Db → Prop
  | ignored (other : ∀ p stripeId, event.type = "payment_intent.succeeded" →
      event.object.id = some stripeId → db.intentByStripeId stripeId ≠ some p) :
      Dispatches event env db db
  | settled (succeeded : event.type = "payment_intent.succeeded") (stripeId : String)
      (named : event.object.id = some stripeId) (p : PaymentIntent)
      (looked : db.intentByStripeId stripeId = some p) (done : p.status = .succeeded)
      (db' : Db) (session : CompletesSession db db' p.id env) : Dispatches event env db db'
  | captures (succeeded : event.type = "payment_intent.succeeded") (stripeId : String)
      (named : event.object.id = some stripeId) (p : PaymentIntent)
      (looked : db.intentByStripeId stripeId = some p) (pending : p.status ≠ .succeeded) (n : Int)
      (amount : eventAmount event.object = .ok n) (positive : 0 < n) (db' : Db)
      (session : CompletesSession ((db.updateIntent p
        { p with status := .succeeded, amountReceived := n } env.now).post (capture p n env))
        db' p.id env) : Dispatches event env db db'

omit [StrLower] in
theorem sessionCompleted_ok {db' : Db} {id : String} (h : sessionCompleted db id env = .ok db') :
    CompletesSession db db' id env := by
  unfold sessionCompleted at h
  split at h
  · cases h
  · cases h
    exact .inl rfl
  · next cs hf =>
    obtain ⟨hm, hid⟩ := findByPaymentIntent_some hf
    split at h
    · cases h
      exact .inl rfl
    · cases h
      exact .inr ⟨cs, hm, hid, rfl⟩

/-- The two ways in which an event is dispatched to its end: it concerns no intent, or it finds one,
has its row captured and its session completed. -/
theorem dispatched_cases {db' : Db} (h : dispatched event env db = .ok db') :
    (db' = db ∧ ∀ stripeId, event.type = "payment_intent.succeeded" →
      event.object.id = some stripeId → db.intentByStripeId stripeId = none) ∨
    ∃ stripeId n p db₁, event.type = "payment_intent.succeeded" ∧
      event.object.id = some stripeId ∧ eventAmount event.object = .ok n ∧
      db.intentByStripeId stripeId = some p ∧ capturedRow db p n env = .ok db₁ ∧
      sessionCompleted db₁ p.id env = .ok db' := by
  unfold dispatched at h
  split at h
  · next ht =>
    split at h
    · cases h
    · next stripeId hid =>
      split at h
      · cases h
      · next n hn =>
        split at h
        · next hl =>
          cases h
          exact .inl ⟨rfl, fun s _ hs => by rwa [← Option.some.inj (hid.symm.trans hs)]⟩
        · next p hl =>
          split at h
          · cases h
          · next db₁ hc => exact .inr ⟨stripeId, n, p, db₁, ht, hid, hn, hl, hc, h⟩
  · next ht =>
    cases h
    exact .inl ⟨rfl, fun _ hty => absurd hty ht⟩

theorem dispatched_ok {db' : Db} (h : dispatched event env db = .ok db') :
    Dispatches event env db db' := by
  obtain ⟨rfl, hnone⟩ | ⟨stripeId, n, p, db₁, ht, hid, hn, hl, hc, hcs⟩ := dispatched_cases h
  · exact .ignored (fun p stripeId ht hid => by simp [hnone stripeId ht hid])
  · have session := sessionCompleted_ok hcs
    unfold capturedRow at hc
    split at hc
    · next hs =>
      cases hc
      exact .settled ht stripeId hid p hl hs db' session
    · next hs =>
      split at hc
      · cases hc
      · next hpos =>
        cases hc
        exact .captures ht stripeId hid p hl hs n hn (Int.not_le.mp hpos) db' session

omit [StrLower] in
theorem sessionCompleted_all {db' : Db} {id : String} (h : sessionCompleted db id env = .ok db')
    {cs : CheckoutSession} (hcs : cs ∈ db'.checkoutSessions) (hlink : cs.paymentIntentId = some id) :
    cs.status = .completed := by
  unfold sessionCompleted at h
  split at h
  · cases h
  · next hf =>
    cases h
    have hm := mem_sessionsByIntent.mpr ⟨hcs, hlink⟩
    rw [scalarOneOrNone_ok hf] at hm
    cases hm
  · next found hf =>
    have hone : ∀ x ∈ db.checkoutSessions, x.paymentIntentId = some id → x = found := by
      intro x hx hl
      have hm := mem_sessionsByIntent.mpr ⟨hx, hl⟩
      rw [scalarOneOrNone_ok hf] at hm
      exact List.mem_singleton.mp hm
    split at h
    · next hdone =>
      cases h
      rw [hone cs hcs hlink, hdone]
    · next hne =>
      cases h
      obtain ⟨x, hx, rfl⟩ := mem_updateSession.mp hcs
      split at hlink
      · obtain rfl := hone x hx hlink
        simp [CheckoutSession.flush, Ne.symm hne]
      · next hid => exact absurd (congrArg CheckoutSession.id (hone x hx hlink)) hid

theorem dispatched_known {db' : Db} {stripeId : String} {p : PaymentIntent}
    (h : dispatched event env db = .ok db') (ht : event.type = "payment_intent.succeeded")
    (hid : event.object.id = some stripeId) (hl : db.intentByStripeId stripeId = some p) :
    ∃ n db₁, capturedRow db p n env = .ok db₁ ∧ sessionCompleted db₁ p.id env = .ok db' := by
  obtain ⟨-, hnone⟩ | ⟨s, n, q, db₁, -, hs, -, hq, hc, hcs⟩ := dispatched_cases h
  · rw [hnone stripeId ht hid] at hl
    cases hl
  · obtain rfl : s = stripeId := Option.some.inj (hs.symm.trans hid)
    obtain rfl : q = p := Option.some.inj (hq.symm.trans hl)
    exact ⟨n, db₁, hc, hcs⟩

theorem capturedRow_succeeded {p : PaymentIntent} {n : Int} {db' : Db}
    (hp : p ∈ db.paymentIntents) (h : capturedRow db p n env = .ok db') :
    ∃ q ∈ db'.paymentIntents, q.id = p.id ∧
      q.stripePaymentIntentId = p.stripePaymentIntentId ∧ q.status = .succeeded := by
  unfold capturedRow at h
  split at h
  · next hs =>
    cases h
    exact ⟨p, hp, rfl, rfl, hs⟩
  · split at h <;> cases h
    exact ⟨_, (mem_updateIntent_loaded hp).mpr (.inl rfl), rfl, rfl, (flush_loaded _ _ _).1⟩

inductive DeliverOutcome (event : StripeEvent) (env : Env) (db : Db) :
    Outcome Db StripeCall StripeAnswer Exn WebhookReply → Prop
  | duplicate (e : WebhookEvent) (looked : db.eventById event.id = some e)
      (processed : e.processedAt.isSome = true) :
      DeliverOutcome event env db ⟨db, [], .ok ⟨true, true⟩⟩
  | failed (exn : Exn) : DeliverOutcome event env db
      ⟨noted db event exn, [], .error (handlerFailed event exn)⟩
  | handled (fresh : ∀ e, db.eventById event.id = some e → e.processedAt = none) (db' : Db)
      (does : Dispatches event env (opened db event) db') :
      DeliverOutcome event env db ⟨db'.setProcessedAt event.id env.now, [], .ok ⟨true, false⟩⟩

theorem handled_outcome (fresh : ∀ e, db.eventById event.id = some e → e.processedAt = none) :
    DeliverOutcome event env db (handled db event env) := by
  unfold handled
  split
  · next db' h => exact .handled fresh db' (dispatched_ok h)
  · next exn h => exact .failed exn

theorem stripeWebhook_outcome :
    DeliverOutcome event env db (serve answer (stripeWebhook event env) db) := by
  rw [stripeWebhook_serves]
  split
  · next e he =>
    split
    · next hp => exact .duplicate e he hp
    · next hp => exact handled_outcome (fun e' h => by
        rw [he] at h
        cases h
        simpa using hp)
  · next he => exact handled_outcome (fun e' h => by rw [he] at h; cases h)

theorem handled_ok {reply : WebhookReply} (h : (handled db event env).result = .ok reply) :
    ∃ db', dispatched event env (opened db event) = .ok db' ∧
      (handled db event env).store = db'.setProcessedAt event.id env.now := by
  unfold handled at h ⊢
  split at h
  · next db' hd => exact ⟨db', hd, rfl⟩
  · cases h

/-- A delivery that is accepted is a duplicate, or its event has been dispatched. -/
theorem deliver_dispatched {reply : WebhookReply}
    (h : (serve answer (stripeWebhook event env) db).result = .ok reply) :
    (serve answer (stripeWebhook event env) db).store = db ∨
      ∃ db', dispatched event env (opened db event) = .ok db' ∧
        (serve answer (stripeWebhook event env) db).store =
          db'.setProcessedAt event.id env.now := by
  rw [stripeWebhook_serves] at h ⊢
  split at h
  · split at h
    · next e hl hp => exact .inl (by simp [hp])
    · next e hl hp => exact .inr (by simpa [hl, hp] using handled_ok h)
  · next hl => exact .inr (by simpa [hl] using handled_ok h)

omit [StrLower] in
theorem webhookEvents_completes {db' : Db} {id : String} (h : CompletesSession db db' id env) :
    db'.webhookEvents = db.webhookEvents := by
  obtain rfl | ⟨cs, -, -, rfl⟩ := h <;> rfl

theorem webhookEvents_dispatches {db' : Db} (h : Dispatches event env db db') :
    db'.webhookEvents = db.webhookEvents := by
  cases h with
  | ignored => rfl
  | settled _ _ _ _ _ _ _ session => exact webhookEvents_completes session
  | captures _ _ _ _ _ _ _ _ _ _ session =>
    have h := webhookEvents_completes session
    exact h

omit [StrLower] in
theorem mem_opened {e : WebhookEvent} (he : e ∈ (opened db event).webhookEvents) :
    e ∈ db.webhookEvents ∨ (e = received event ∧ db.eventById event.id = none) := by
  unfold opened at he
  split at he
  · exact .inl he
  · next hn =>
    obtain ⟨t, ht, hst⟩ := @stored_eq _ (received event) hn
    rw [hst] at he
    obtain h | h := (Table.mem_insert ht).mp he
    · exact .inl h
    · exact .inr ⟨h, hn⟩

omit [StrLower] in
theorem mem_setProcessedAt {id : String} {now : Instant} {e : WebhookEvent}
    (he : e ∈ (db.setProcessedAt id now).webhookEvents) :
    ∃ x ∈ db.webhookEvents, (if x.id = id then { x with processedAt := some now } else x) = e := by
  have h : e ∈ (db.setProcessedAt id now).webhookEvents ↔ _ :=
    Table.mem_modify (f := fun x : WebhookEvent => { x with processedAt := some now })
      (fun _ => rfl)
  simpa only [decide_eq_true_eq] using h.mp he

omit [StrLower] in
theorem mem_noted {exn : Exn} {e : WebhookEvent} (he : e ∈ (noted db event exn).webhookEvents) :
    ∃ x ∈ db.webhookEvents, x.id = e.id ∧ x.payload = e.payload ∧
      x.processedAt = e.processedAt := by
  unfold noted at he
  split at he
  · have h : e ∈ (db.setProcessingError event.id _).webhookEvents ↔ _ :=
      Table.mem_modify (f := fun x : WebhookEvent =>
        { x with processingError := some (String.ofList (exn.str.toList.take 2048)) })
        (fun _ => rfl)
    obtain ⟨x, hx, rfl⟩ := h.mp he
    refine ⟨x, hx, ?_, ?_, ?_⟩ <;> split <;> rfl
  · exact ⟨e, he, rfl, rfl, rfl⟩

theorem events_of_deliver {out : Outcome Db StripeCall StripeAnswer Exn WebhookReply}
    (h : DeliverOutcome event env db out) {e : WebhookEvent} (he : e ∈ out.store.webhookEvents) :
    (∃ x ∈ db.webhookEvents, x.id = e.id ∧ x.payload = e.payload ∧
      x.processedAt = e.processedAt) ∨
    ((e.payload = event ∨ ∃ x ∈ db.webhookEvents, x.id = event.id ∧ x.payload = e.payload) ∧
      ∃ reply, out.result = .ok reply) := by
  cases h with
  | duplicate => exact .inl ⟨e, he, rfl, rfl, rfl⟩
  | failed exn => exact .inl (mem_noted he)
  | handled fresh db' does =>
    obtain ⟨x, hx, rfl⟩ := mem_setProcessedAt he
    rw [webhookEvents_dispatches does] at hx
    by_cases hid : x.id = event.id
    · refine .inr ⟨?_, _, rfl⟩
      obtain h | ⟨rfl, -⟩ := mem_opened hx
      · exact .inr ⟨x, h, hid, by simp [hid]⟩
      · exact .inl (by simp [received])
    · obtain h | ⟨rfl, -⟩ := mem_opened hx
      · exact .inl ⟨x, h, by simp [hid]⟩
      · exact absurd rfl hid

theorem intents_of_failed {out : Outcome Db StripeCall StripeAnswer Exn WebhookReply}
    (h : DeliverOutcome event env db out) {e : Exn} (he : out.result = .error e) :
    out.store.paymentIntents = db.paymentIntents := by
  cases h with
  | duplicate => rfl
  | failed exn =>
    simp only [noted]
    split <;> rfl
  | handled => cases he

end SixGateway.Deliveries
