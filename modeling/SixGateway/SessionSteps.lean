import SixGateway.SessionEffects

namespace SixGateway.SessionSteps

open Library Models Errors Database Schemas StripeClient LedgerService PaymentService
open CheckoutService Webhook Queries Bookings Gateway Outcomes Sessions Deliveries Effects
open SessionEffects

variable {db db' : Db} {cs loaded dirty : CheckoutSession} {id : String} {env : Env} {now : Instant}

theorem session_eq_of_id {cs' : CheckoutSession} (h : cs ∈ db.checkoutSessions)
    (h' : cs' ∈ db.checkoutSessions) (hid : cs.id = cs'.id) : cs = cs' :=
  Table.eq_of_key h h' (k := cs.id) (by simp [Keyed.keys]) (by simp [Keyed.keys, hid])

theorem flush_status (loaded : CheckoutSession) (status : CheckoutSessionStatus) (now : Instant) :
    loaded.flush { loaded with status := status } now loaded = loaded ∨
      loaded.flush { loaded with status := status } now loaded =
        { loaded with status := status, updatedAt := now } := by
  by_cases h : status = loaded.status
  · exact .inl (by simp [CheckoutSession.flush, h])
  · exact .inr (by simp [CheckoutSession.flush, h])

theorem mem_updateStatus {status : CheckoutSessionStatus} (hl : loaded ∈ db.checkoutSessions)
    (h : cs ∈ (db.updateSession loaded { loaded with status := status } now).checkoutSessions) :
    cs ∈ db.checkoutSessions ∨ cs = { loaded with status := status, updatedAt := now } := by
  obtain ⟨r, hr, rfl⟩ := mem_updateSession.mp h
  split
  · next hid =>
    obtain rfl := session_eq_of_id hr hl hid
    exact (flush_status r status now).imp_left (fun he => by rwa [he])
  · exact .inl hr

def SingleSession (db : Db) : Prop :=
  ∀ cs ∈ db.checkoutSessions, ∀ cs' ∈ db.checkoutSessions, ∀ id,
    cs.paymentIntentId = some id → cs'.paymentIntentId = some id → cs = cs'

theorem found_of_single (h : SingleSession db) (id : String) :
    ∃ found, findByPaymentIntent db id = .ok found := by
  have hu : (db.sessionsByIntent id).Pairwise (fun r s => clash r s = false) :=
    db.checkoutSessions.unique.filter _
  have hm : ∀ cs ∈ db.sessionsByIntent id, cs ∈ db.checkoutSessions ∧ cs.paymentIntentId = some id :=
    fun cs hcs => mem_sessionsByIntent.mp hcs
  rw [findByPaymentIntent]
  cases hl : db.sessionsByIntent id with
  | nil => exact ⟨none, rfl⟩
  | cons cs rest =>
    cases rest with
    | nil => exact ⟨some cs, rfl⟩
    | cons cs' rest =>
      rw [hl] at hu hm
      obtain ⟨hcs, hid⟩ := hm cs (by simp)
      obtain ⟨hcs', hid'⟩ := hm cs' (by simp)
      obtain rfl := h cs hcs cs' hcs' id hid hid'
      have hc := (List.pairwise_cons.mp hu).1 cs (by simp)
      simp [clash, Keyed.keys] at hc

theorem singleSession_empty : SingleSession Db.empty :=
  fun _ hcs => absurd hcs Table.not_mem_empty

variable [StrLower] {event : StripeEvent} {r : Request} {w : World}

/-- An event completes the session of an intent only as it leaves the intent SUCCEEDED. -/
theorem sessions_dispatches (h : Dispatches event env db db') :
    db'.checkoutSessions = db.checkoutSessions ∨
      ∃ p ∈ db'.paymentIntents, p.status = .succeeded ∧ ∃ old ∈ db.checkoutSessions,
        old.paymentIntentId = some p.id ∧ db'.checkoutSessions =
          (db.updateSession old { old with status := .completed } env.now).checkoutSessions := by
  cases h with
  | ignored => exact .inl rfl
  | settled _ stripeId _ p looked done _ session =>
    obtain rfl | ⟨old, hold, linked, rfl⟩ := session
    · exact .inl rfl
    · exact .inr ⟨p, (intentByStripeId_some looked).1, done, old, hold, linked, rfl⟩
  | captures _ stripeId _ p looked pending n _ _ _ session =>
    obtain rfl | ⟨old, hold, linked, rfl⟩ := session
    · exact .inl rfl
    · refine .inr ⟨p.flush { p with status := .succeeded, amountReceived := n } env.now p, ?_, ?_,
        old, hold, linked, rfl⟩
      · exact (mem_updateIntent_loaded (intentByStripeId_some looked).1).mpr (.inl rfl)
      · exact (flush_loaded p { p with status := .succeeded, amountReceived := n } env.now).1

theorem sessions_deliver {out : Outcome Db StripeCall StripeAnswer Exn WebhookReply}
    (h : DeliverOutcome event env db out) : out.store.checkoutSessions = db.checkoutSessions ∨
      ∃ p ∈ out.store.paymentIntents, p.status = .succeeded ∧ ∃ old ∈ db.checkoutSessions,
        old.paymentIntentId = some p.id ∧ out.store.checkoutSessions =
          (db.updateSession old { old with status := .completed } env.now).checkoutSessions := by
  cases h with
  | duplicate => exact .inl rfl
  | failed exn =>
    obtain ⟨t, ht⟩ := @noted_frame db event exn
    exact .inl (by rw [ht])
  | handled fresh db' does =>
    obtain ⟨t, ht⟩ := @opened_frame db event
    have hopen : (opened db event).checkoutSessions = db.checkoutSessions := by rw [ht]
    obtain h | ⟨p, hp, done, old, hold, linked, row⟩ := sessions_dispatches does
    · exact .inl (h.trans hopen)
    · refine .inr ⟨p, hp, done, old, hopen ▸ hold, linked, row.trans ?_⟩
      rw [Db.updateSession, Db.updateSession, hopen]

theorem sessions_create {merchant : String} {payload : CheckoutSessionCreate}
    {answer : StripeCall → StripeAnswer}
    {out : Outcome Db StripeCall StripeAnswer Exn CheckoutSession}
    (h : SessionOutcome merchant payload env answer db out) :
    out.store.checkoutSessions = db.checkoutSessions ∨
      ∃ body, intentPayload payload = .ok body ∧ ∃ store calls intent,
        CreateOutcome body (some merchant) env answer db ⟨store, calls, .ok intent⟩ ∧
        intent ∈ out.store.paymentIntents ∧ db.sessionsByIntent intent.id = [] ∧
        db.checkoutSessions.insert (newSession merchant payload intent env) =
          some out.store.checkoutSessions := by
  cases h with
  | invalid => exact .inl rfl
  | stopped _ _ _ _ _ creates => exact .inl (checkoutSessions_create creates)
  | linked body valid store calls intent creates out links =>
    have hsame : store.checkoutSessions = db.checkoutSessions := checkoutSessions_create creates
    cases links with
    | found => exact .inl hsame
    | refused => exact .inl hsame
    | opened unlinked t inserted =>
      have hmem : intent ∈ store.paymentIntents := created_member creates
      refine .inr ⟨body, valid, store, calls, intent, creates, hmem, ?_, ?_⟩
      · simpa only [Db.sessionsByIntent, hsame] using unlinked
      · exact hsame ▸ inserted

inductive SessionsEffect (r : Request) (w : World) : Table CheckoutSession → Prop
  | kept : SessionsEffect r w w.db.checkoutSessions
  | expired (id : String) (asked : r.op = .getOpenSession id) (old : CheckoutSession)
      (looked : w.db.sessionById id = some old) (live : old.status = .opened)
      (past : old.expiresAt < r.env.now) : SessionsEffect r w
        (w.db.updateSession old { old with status := .expired } r.env.now).checkoutSessions
  | completed (event : StripeEvent) (asked : r.op = .deliver event) (p : PaymentIntent)
      (stored : p ∈ (w.after r).db.paymentIntents) (succeeded : p.status = .succeeded)
      (old : CheckoutSession) (member : old ∈ w.db.checkoutSessions)
      (linked : old.paymentIntentId = some p.id) : SessionsEffect r w
        (w.db.updateSession old { old with status := .completed } r.env.now).checkoutSessions
  | opened (merchant : String) (payload : CheckoutSessionCreate)
      (asked : r.op = .createSession merchant payload) (body : PaymentIntentCreate)
      (valid : intentPayload payload = .ok body) (store : Db) (calls : Calls)
      (intent : PaymentIntent) (creates : CreateOutcome body (some merchant) r.env r.answer w.db
        ⟨store, calls, .ok intent⟩)
      (stored : intent ∈ (w.after r).db.paymentIntents)
      (unlinked : w.db.sessionsByIntent intent.id = []) (t : Table CheckoutSession)
      (inserted : w.db.checkoutSessions.insert (newSession merchant payload intent r.env) = some t) :
      SessionsEffect r w t

theorem sessions_effect (r : Request) (w : World) :
    SessionsEffect r w (w.after r).db.checkoutSessions := by
  by_cases hid : OnIntent r.op
  · have h := checkoutSessions_touched (request_touched hid w)
    exact h ▸ .kept
  obtain ⟨op, env, answer⟩ := r
  cases op with
  | createIntent payload merchant =>
    rw [after_createIntent]
    have hsame : (serve answer (createIntent payload merchant env) w.db).store.checkoutSessions =
        w.db.checkoutSessions := checkoutSessions_create (createIntent_outcome payload merchant)
    exact hsame ▸ .kept
  | confirmIntent => exact absurd trivial hid
  | cancelIntent => exact absurd trivial hid
  | refundIntent => exact absurd trivial hid
  | createSession merchant payload =>
    have hs := after_createSession answer env w merchant payload
    have h : SessionOutcome merchant payload env answer w.db (serve answer _ w.db) :=
      createSession_outcome merchant payload
    obtain h | ⟨body, valid, store, calls, intent, creates, stored, unlinked, inserted⟩ :=
      sessions_create h
    · rw [hs, h]
      exact .kept
    · rw [← hs] at stored inserted
      exact .opened merchant payload rfl body valid store calls intent creates stored unlinked _
        inserted
  | getOpenSession id =>
    rw [World.after, Request.outcome, Op.program, serve_map]
    have h : OpenOutcome id env w.db (serve answer _ w.db) := getOpenSession_outcome id
    generalize serve _ _ _ = out at h ⊢
    cases h with
    | missing => exact .kept
    | returned => exact .kept
    | expired old looked live past => exact .expired id rfl old looked live past
  | deliver event =>
    have hs := after_deliver answer env w event
    have h : DeliverOutcome event env w.db (serve answer _ w.db) := stripeWebhook_outcome
    obtain h | ⟨p, stored, succeeded, old, member, linked, h⟩ := sessions_deliver h
    · rw [hs, h]
      exact .kept
    · rw [hs, h]
      exact .completed event rfl p (hs ▸ stored) succeeded old member linked

theorem session_after (r : Request) (w : World) (hcs : cs ∈ (w.after r).db.checkoutSessions) :
    SessionAfter r w cs := by
  have h := sessions_effect r w
  generalize ht : (w.after r).db.checkoutSessions = t at h
  cases h with
  | kept => exact sessionAfter_of_continues (continues_of_eq ht) hcs
  | expired id asked old =>
    exact sessionAfter_of_continues (fun c hc => continues_updateSession old _ _ c (ht ▸ hc)) hcs
  | completed event asked p stored succeeded old =>
    exact sessionAfter_of_continues (fun c hc => continues_updateSession old _ _ c (ht ▸ hc)) hcs
  | opened merchant payload asked body valid store calls intent creates stored unlinked t inserted =>
    obtain hold | row := (Table.mem_insert inserted).mp (ht ▸ hcs)
    · exact .kept cs hold cs.status cs.updatedAt rfl
    · exact .opened merchant payload asked body valid store calls intent creates stored row

/-- Where a session of the store after a request comes from, and what it took to change it. -/
inductive SessionStep (r : Request) (w : World) (cs : CheckoutSession) : Prop
  | kept (member : cs ∈ w.db.checkoutSessions)
  | expired (id : String) (asked : r.op = .getOpenSession id) (old : CheckoutSession)
      (member : old ∈ w.db.checkoutSessions) (live : old.status = .opened)
      (past : old.expiresAt < r.env.now)
      (row : cs = { old with status := .expired, updatedAt := r.env.now })
  | completed (event : StripeEvent) (asked : r.op = .deliver event) (p : PaymentIntent)
      (stored : p ∈ (w.after r).db.paymentIntents) (succeeded : p.status = .succeeded)
      (old : CheckoutSession) (member : old ∈ w.db.checkoutSessions)
      (linked : old.paymentIntentId = some p.id)
      (row : cs = { old with status := .completed, updatedAt := r.env.now })
  | opened (merchant : String) (payload : CheckoutSessionCreate)
      (asked : r.op = .createSession merchant payload) (body : PaymentIntentCreate)
      (valid : intentPayload payload = .ok body) (store : Db) (calls : Calls)
      (intent : PaymentIntent) (creates : CreateOutcome body (some merchant) r.env r.answer w.db
        ⟨store, calls, .ok intent⟩)
      (stored : intent ∈ (w.after r).db.paymentIntents)
      (unlinked : w.db.sessionsByIntent intent.id = [])
      (row : cs = newSession merchant payload intent r.env)

theorem session_step (r : Request) (w : World) (hcs : cs ∈ (w.after r).db.checkoutSessions) :
    SessionStep r w cs := by
  have h := sessions_effect r w
  generalize (w.after r).db.checkoutSessions = t at h hcs
  cases h with
  | kept => exact .kept hcs
  | expired id asked old looked live past =>
    obtain ⟨hold, -⟩ := sessionById_some looked
    obtain h | row := mem_updateStatus hold hcs
    · exact .kept h
    · exact .expired id asked old hold live past row
  | completed event asked p stored succeeded old member linked =>
    obtain h | row := mem_updateStatus member hcs
    · exact .kept h
    · exact .completed event asked p stored succeeded old member linked row
  | opened merchant payload asked body valid store calls intent creates stored unlinked t inserted =>
    obtain h | row := (Table.mem_insert inserted).mp hcs
    · exact .kept h
    · exact .opened merchant payload asked body valid store calls intent creates stored unlinked row

theorem session_continues (r : Request) (w : World) (hcs : cs ∈ w.db.checkoutSessions) :
    ∃ cs' ∈ (w.after r).db.checkoutSessions, ∃ status now,
      cs' = { cs with status := status, updatedAt := now } := by
  have h := sessions_effect r w
  have hupdate : ∀ old dirty : CheckoutSession, ∃ cs' ∈ (w.db.updateSession old dirty
      r.env.now).checkoutSessions, ∃ status now,
      cs' = { cs with status := status, updatedAt := now } := by
    intro old dirty
    refine ⟨_, mem_updateSession.mpr ⟨cs, hcs, rfl⟩, ?_⟩
    split <;> exact ⟨_, _, rfl⟩
  generalize (w.after r).db.checkoutSessions = t at h ⊢
  cases h with
  | kept => exact ⟨cs, hcs, _, _, rfl⟩
  | expired id asked old => exact hupdate old _
  | completed event asked p stored succeeded old => exact hupdate old _
  | opened merchant payload asked body valid store calls intent creates stored unlinked t inserted =>
    exact ⟨cs, (Table.mem_insert inserted).mpr (.inl hcs), _, _, rfl⟩

theorem SessionStep.origin (h : SessionStep r w cs) :
    (∃ old ∈ w.db.checkoutSessions, old.id = cs.id ∧ old.paymentIntentId = cs.paymentIntentId) ∨
      cs.id = "cs_" ++ r.env.sessionUuid ∧
        ∀ old ∈ w.db.checkoutSessions, old.paymentIntentId ≠ cs.paymentIntentId := by
  cases h with
  | kept member => exact .inl ⟨cs, member, rfl, rfl⟩
  | expired id asked old member live past row => exact .inl ⟨old, member, by simp [row]⟩
  | completed event asked p stored succeeded old member linked row =>
    exact .inl ⟨old, member, by simp [row]⟩
  | opened merchant payload asked body valid store calls intent creates stored unlinked row =>
    subst row
    refine .inr ⟨rfl, fun old hold hlink => ?_⟩
    have hm := mem_sessionsByIntent.mpr ⟨hold, hlink⟩
    rw [unlinked] at hm
    cases hm

theorem singleSession_after (h : SingleSession w.db) (r : Request) :
    SingleSession (w.after r).db := by
  intro cs hcs cs' hcs' id hid hid'
  refine session_eq_of_id hcs hcs' ?_
  obtain ⟨old, hold, hoid, hlink⟩ | ⟨hnew, hfirst⟩ := (session_step r w hcs).origin
  · obtain ⟨old', hold', hoid', hlink'⟩ | ⟨-, hfirst'⟩ := (session_step r w hcs').origin
    · rw [← hoid, ← hoid', h old hold old' hold' id (hlink.trans hid) (hlink'.trans hid')]
    · exact absurd (hlink.trans (hid.trans hid'.symm)) (hfirst' old hold)
  · obtain ⟨old', hold', -, hlink'⟩ | ⟨hnew', -⟩ := (session_step r w hcs').origin
    · exact absurd (hlink'.trans (hid'.trans hid.symm)) (hfirst old' hold')
    · exact hnew.trans hnew'.symm

theorem singleSession_afterAll (rs : List Request) :
    SingleSession (World.empty.afterAll rs).db :=
  afterAll_invariant (I := fun w => SingleSession w.db) (C := fun _ _ => True)
    (fun _ r h _ => singleSession_after h r) singleSession_empty
    (Run.along_of_forall (fun _ _ => trivial) _ rs)

end SixGateway.SessionSteps
