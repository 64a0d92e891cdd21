import SixGateway.Redelivery

namespace SixGateway.DeliveryRace

open Library Models Errors Database StripeClient LedgerService PaymentService CheckoutService
open Webhook Queries Bookings Gateway Sessions Deliveries Effects Concurrency Transactions Redelivery

/-- A row that is SUCCEEDED where a transaction is committed was SUCCEEDED when it was loaded. -/
def NotStale (db : Db) (t : List Stmt) : Prop :=
  ∀ u ∈ updates t, ∀ p ∈ db.paymentIntents, p.id = u.1.id → p.status = .succeeded →
    u.1.status = .succeeded

instance (db : Db) (t : List Stmt) : Decidable (NotStale db t) :=
  inferInstanceAs (Decidable (∀ u ∈ updates t, ∀ p ∈ db.paymentIntents, _ → _ → _))

variable [StrLower]

def CommitsExactly (event : StripeEvent) (env : Env) (db : Db) (t : List Stmt) : Prop :=
  ∀ db', commit t db = .ok db' → NotStale db t → Exact event env db db'

abbrev SafeFor {α : Type} (event : StripeEvent) (env : Env) (Post : α → Db → Prop) (p : Service α)
    (db : Db) : Prop :=
  Program.Safe commit (Rely event) (fun _ _ => True) NotStale (CommitsExactly event env) Post p db

variable {event : StripeEvent} {env : Env} {db db₁ db₂ db₃ db' : Db} {t stmts : List Stmt}
  {p q : PaymentIntent} {stripeId : String} {n : Int}

theorem failed_safe {α : Type} {Post : α → Db → Prop} (exn : Exn) (db : Db) :
    SafeFor event env Post (failed event exn) db := by
  intro db₁ _
  change SafeFor event env Post (failedLooked event exn (db₁.eventById event.id)) db₁
  cases db₁.eventById event.id with
  | some e =>
    refine fun db₂ _ => ⟨fun db' hc _ => ?_, fun _ _ _ => trivial⟩
    cases hc
    exact .inr ⟨present_setProcessingError _ _, ⟨rfl, rfl, rfl⟩⟩
  | none => trivial

theorem finish_safe (hp : Present event db) :
    SafeFor event env (fun _ => Present event) (finish event env []) db := by
  refine fun db₁ hk => ⟨fun db' hc _ => ?_, fun _ db' hc db'' hk' => ?_⟩
  · cases hc
    exact .inr ⟨present_setProcessedAt _ _, ⟨rfl, rfl, rfl⟩⟩
  · exact hk'.events (present_commit (hk.events hp) hc)

omit [StrLower] in
theorem commit_opening (h : commit (.insertEvent (received event) :: t) db = .ok db') :
    ¬ Present event db ∧ commit t (opened db event) = .ok db' ∧ Present event db' := by
  rw [commit_cons] at h
  split at h
  · next db₁ hs =>
    simp only [Stmt.apply] at hs
    split at hs
    · next u hu =>
      cases hs
      have hn : ¬ Present event db := by
        rintro ⟨e, he, hid⟩
        have hc := (Table.insert_eq_some hu).2 e he
        rw [Table.clash_iff.mpr ⟨event.id, by simp [Keyed.keys, hid], by simp [Keyed.keys, received]⟩]
          at hc
        cases hc
      refine ⟨hn, ?_, present_commit ⟨received event, (Table.mem_insert hu).mpr (.inr rfl), rfl⟩ h⟩
      simpa only [opened, not_present_iff.mp hn, stored, hu] using h
    · cases hs
  · cases h

omit [StrLower] in
theorem updateIntent_sameRow (hq : q ∈ db.paymentIntents) (h : SameRow p q)
    (hp : p.status ≠ .succeeded) (hs : q.status ≠ .succeeded) (now : Instant) :
    db.updateIntent p { p with status := .succeeded, amountReceived := n } now =
      db.updateIntent q { q with status := .succeeded, amountReceived := n } now := by
  have hrow : p.flush { p with status := .succeeded, amountReceived := n } now q =
      q.flush { q with status := .succeeded, amountReceived := n } now q := by
    simp [PaymentIntent.flush, PaymentIntent.unchanged, Ne.symm hp, Ne.symm hs, h.received]
  simp only [Db.updateIntent]
  congr 1
  refine Table.modify_congr _ _ (fun r hr => ?_)
  by_cases hid : r.id = p.id
  · rw [if_pos (decide_eq_true hid), if_pos (decide_eq_true (hid.trans h.id.symm)),
      eq_of_id hr hq (hid.trans h.id.symm), hrow]
  · rw [if_neg (by simpa using hid), if_neg (by simpa [h.id] using hid)]

theorem capture_sameRow (h : SameRow p q) : capture p n env = capture q n env := by
  simp only [capture, bookingOf, h.id, h.currency]

/-- A capture that was prepared before does at its commit what one prepared there would do. -/
theorem captured_again (hu : Undisturbed db₂ db) (hl : db₂.intentByStripeId stripeId = some p)
    (happ : applySucceeded p n env = .ok stmts) (hns : NotStale db stmts)
    (hc : commit stmts (opened db event) = .ok db') :
    ∃ q, db.intentByStripeId stripeId = some q ∧ q.id = p.id ∧
      capturedRow (opened db event) q n env = .ok db' := by
  obtain ⟨q, hlq, hpq⟩ := (hu.intentByStripeId stripeId).2 p hl
  obtain ⟨hq, -⟩ := intentByStripeId_some hlq
  have hqo : q ∈ (opened db event).paymentIntents := by rwa [(opened_tables db event).intents]
  refine ⟨q, hlq, hpq.id, ?_⟩
  unfold applySucceeded at happ
  split at happ
  · next hs =>
    cases happ
    cases hc
    simp only [capturedRow, hpq.succeeded hs, if_true]
  · next hs =>
    obtain hpos | hle := Int.lt_or_le 0 n
    · rw [record_capture p hpos] at happ
      cases happ
      have hqs : q.status ≠ .succeeded := fun hnow =>
        hs (hns _ List.mem_cons_self q hq hpq.id hnow)
      have href : (opened db event).references (some p.id) = true := hpq.id ▸ references_of_mem hqo
      rw [commit_booking href (fun _ => intent_of_capture)] at hc
      cases hc
      simp only [capturedRow, hqs, if_false, Int.not_le.mpr hpos]
      rw [updateIntent_sameRow hqo hpq hs hqs, capture_sameRow hpq]
    · rw [recordTransaction_pair_error _ _ _ _ hle] at happ
      cases happ

/-- At the first commit of a delivery, what was prepared for the intent is what an uninterrupted
delivery does there, and the sessions are those that were read. -/
theorem opening_dispatched (ht : event.type = "payment_intent.succeeded")
    (hid : event.object.id = some stripeId) (hn : eventAmount event.object = .ok n)
    (hl : db₂.intentByStripeId stripeId = some p) (happ : applySucceeded p n env = .ok stmts)
    (hk₂ : Rely event db₂ db) (hk₃ : Rely event db₃ db) (hopen : ¬ Present event db)
    (hns : NotStale db stmts) (hc : commit stmts (opened db event) = .ok db') :
    dispatched event env (opened db event) = sessionCompleted db' p.id env ∧
      findByPaymentIntent db' p.id = findByPaymentIntent db₃ p.id := by
  obtain ⟨q, hlq, hqid, hq⟩ := captured_again (hk₂.quiet hopen) hl happ hns hc
  have hlo : (opened db event).intentByStripeId stripeId = some q :=
    (eventIntent_opened event stripeId).trans hlq
  constructor
  · simp only [dispatched, ht, if_true, hid, hn, hlo, hq, hqid]
  · have hs : db'.checkoutSessions = db₃.checkoutSessions :=
      (checkoutSessions_capturedRow hq).trans
        ((opened_tables db event).sessions.trans (hk₃.quiet hopen).sessions)
    simp only [findByPaymentIntent, Db.sessionsByIntent, hs]

omit [StrLower] in
theorem notStale_opening {s : Stmt} (e : WebhookEvent)
    (h : NotStale db (.insertEvent e :: stmts ++ [s])) : NotStale db stmts := by
  intro u hm
  refine h u ?_
  simp only [updates, List.cons_append, List.filterMap_cons, List.filterMap_append] at hm ⊢
  exact List.mem_append_left _ hm

theorem commitsExactly_opening {s : Stmt} (ht : event.type = "payment_intent.succeeded")
    (hid : event.object.id = some stripeId) (hn : eventAmount event.object = .ok n)
    (hl : db₂.intentByStripeId stripeId = some p) (happ : applySucceeded p n env = .ok stmts)
    (hk₂ : Rely event db₂ db) (hk₃ : Rely event db₃ db)
    (hs : ∀ d d', findByPaymentIntent d p.id = findByPaymentIntent db₃ p.id → s.apply d = .ok d' →
      ∃ d'', sessionCompleted d p.id env = .ok d'' ∧ SameTables d'' d') :
    CommitsExactly event env db (.insertEvent (received event) :: stmts ++ [s]) := by
  intro db' hc hns
  rw [List.cons_append] at hc
  obtain ⟨hopen, hrest, hpres⟩ := commit_opening hc
  rw [commit_append] at hrest
  split at hrest
  · next d hd =>
    obtain ⟨hdisp, hfind⟩ := opening_dispatched ht hid hn hl happ hk₂ hk₃ hopen
      (notStale_opening _ hns) hd
    rw [commit_cons] at hrest
    split at hrest
    · next hd' =>
      cases hrest
      obtain ⟨d'', hd'', hsame⟩ := hs d db' hfind hd'
      exact .inl ⟨hopen, hpres, d'', hdisp.trans hd'', hsame⟩
    · cases hrest
  · cases hrest

theorem dispatchSession_opens (ht : event.type = "payment_intent.succeeded")
    (hid : event.object.id = some stripeId) (hn : eventAmount event.object = .ok n)
    (hl : db₂.intentByStripeId stripeId = some p) (happ : applySucceeded p n env = .ok stmts)
    (hk : Rely event db₂ db₃) : SafeFor event env (fun _ => Present event)
      (dispatchSession event env (.insertEvent (received event) :: stmts)
        (findByPaymentIntent db₃ p.id)) db₃ := by
  have hfinish : (∀ d, findByPaymentIntent d p.id = findByPaymentIntent db₃ p.id →
      sessionCompleted d p.id env = .ok d) → SafeFor event env (fun _ => Present event)
      (finish event env (.insertEvent (received event) :: stmts)) db₃ := by
    intro hidle db₄ hk₄
    refine ⟨commitsExactly_opening ht hid hn hl happ (Rely.trans event _ _ _ hk hk₄) hk₄ ?_,
      fun _ db₅ hc db₆ hk₆ => hk₆.events (commit_opening hc).2.2⟩
    intro d d' hf hd'
    cases hd'
    exact ⟨d, hidle d hf, ⟨rfl, rfl, rfl⟩⟩
  cases hf : findByPaymentIntent db₃ p.id with
  | error e => exact failed_safe e db₃
  | ok found =>
    cases found with
    | none =>
      refine hfinish (fun d hd => ?_)
      simp only [sessionCompleted, hd.trans hf]
    | some cs =>
      simp only [dispatchSession, completeLoaded]
      split
      · next hcs =>
        intro db₄ hk₄
        refine ⟨commitsExactly_opening ht hid hn hl happ (Rely.trans event _ _ _ hk hk₄) hk₄ ?_,
          fun _ db₅ hc => finish_safe (commit_opening hc).2.2⟩
        intro d d' hd hd'
        cases hd'
        simp only [sessionCompleted, hd.trans hf, hcs, if_false]
        exact ⟨_, rfl, SameTables.refl _⟩
      · next hcs =>
        refine hfinish (fun d hd => ?_)
        simp only [sessionCompleted, hd.trans hf, not_not.mp hcs, if_true]

theorem finish_opens (h : ∀ db₁, Rely event db db₁ → ¬ Present event db₁ →
      dispatched event env (opened db₁ event) = .ok (opened db₁ event)) :
    SafeFor event env (fun _ => Present event) (finish event env [.insertEvent (received event)])
      db := by
  intro db₁ hk
  refine ⟨fun db' hc _ => ?_, fun _ db₂ hc db₃ hk₃ => hk₃.events (commit_opening hc).2.2⟩
  obtain ⟨hopen, hrest, hpres⟩ := commit_opening hc
  cases hrest
  exact .inl ⟨hopen, hpres, _, h db₁ hk hopen, ⟨rfl, rfl, rfl⟩⟩

theorem dispatch_opens (db : Db) : SafeFor event env (fun _ => Present event)
    (dispatch event env [.insertEvent (received event)]) db := by
  unfold dispatch
  split
  · next ht =>
    cases hid : event.object.id with
    | none => exact failed_safe _ db
    | some stripeId =>
      cases hn : eventAmount event.object with
      | error e => exact failed_safe e db
      | ok n =>
        intro db₂ _
        change SafeFor event env _ (dispatchLoaded event env _ n (db₂.intentByStripeId stripeId)) db₂
        cases hl : db₂.intentByStripeId stripeId with
        | none =>
          refine finish_opens (fun db₃ hk hopen => ?_)
          have hnone : (opened db₃ event).intentByStripeId stripeId = none :=
            (eventIntent_opened event stripeId).trans
              (((hk.quiet hopen).intentByStripeId stripeId).1 hl)
          simp only [dispatched, ht, if_true, hid, hn, hnone]
        | some p =>
          simp only [dispatchLoaded]
          cases happ : applySucceeded p n env with
          | error e => exact failed_safe e db₂
          | ok stmts => exact fun db₃ hk => dispatchSession_opens ht hid hn hl happ hk
  · next ht =>
    refine finish_opens (fun db₃ _ _ => ?_)
    simp only [dispatched, ht, if_false]

theorem dispatch_resumes (hp : Present event db) (hi : Idle event db) :
    SafeFor event env (fun _ => Present event) (dispatch event env []) db := by
  unfold dispatch
  split
  · next ht =>
    cases hid : event.object.id with
    | none => exact failed_safe _ db
    | some stripeId =>
      cases hn : eventAmount event.object with
      | error e => exact failed_safe e db
      | ok n =>
        intro db₂ hk
        have hp₂ := hk.events hp
        have hi₂ := hk.idle (fun _ => hi) hp₂
        change SafeFor event env _ (dispatchLoaded event env _ n (db₂.intentByStripeId stripeId)) db₂
        cases hl : db₂.intentByStripeId stripeId with
        | none => exact finish_safe hp₂
        | some p =>
          obtain ⟨hpm, hps⟩ := intentByStripeId_some hl
          simp only [dispatchLoaded, applySucceeded, (hi₂ stripeId p ht hid hl).1, if_true]
          intro db₃ hk₃
          obtain ⟨q, hq, hqid, hqs⟩ := hk₃.rows p hpm
          have hi₃ := hk₃.idle (fun _ => hi₂) (hk₃.events hp₂)
          have hcompleted := (hi₃ stripeId q ht hid (intentByStripeId_of_mem hq (hqs.trans hps))).2
          rw [hqid] at hcompleted
          change SafeFor event env _
            (dispatchSession event env [] (findByPaymentIntent db₃ p.id)) db₃
          cases hf : findByPaymentIntent db₃ p.id with
          | error e => exact failed_safe e db₃
          | ok found =>
            cases found with
            | none => exact finish_safe (hk₃.events hp₂)
            | some cs =>
              simp only [dispatchSession, completeLoaded, hcompleted cs hf, ne_eq, not_true_eq_false,
                if_false]
              exact finish_safe (hk₃.events hp₂)
  · exact finish_safe hp

/-- Every commit of a delivery is exact, and it returns only when its event is there. -/
theorem deliver_exact (hi : Present event db → Idle event db) :
    SafeFor event env (fun _ => Present event) (stripeWebhook event env) db := by
  intro db₁ hk
  change SafeFor event env _ (webhookLooked event env (db₁.eventById event.id)) db₁
  cases he : db₁.eventById event.id with
  | none => exact dispatch_opens db₁
  | some existing =>
    have hp := present_of_some he
    simp only [webhookLooked]
    split
    · exact fun db₂ hk₂ => hk₂.events hp
    · exact dispatch_resumes hp (hk.idle hi hp)

end SixGateway.DeliveryRace
