import SixGateway.EventOnce

namespace SixGateway.FailedDeliveries

open Library Models Errors Database StripeClient PaymentService Webhook Queries Gateway
open Deliveries Effects Redelivery StripeContract EventOnce

/-- The row of the event holds the error of a delivery, which has not been processed. -/
def Recorded (event : StripeEvent) (db : Db) : Prop :=
  ∃ e ∈ db.webhookEvents, e.id = event.id ∧ e.processedAt = none ∧ e.processingError.isSome = true

instance (event : StripeEvent) (db : Db) : Decidable (Recorded event db) :=
  inferInstanceAs (Decidable (∃ e ∈ db.webhookEvents, _))

instance (event : StripeEvent) (db : Db) : Decidable (Present event db) :=
  inferInstanceAs (Decidable (∃ e ∈ db.webhookEvents, _))

variable {answer : StripeCall → StripeAnswer} {event : StripeEvent} {env : Env} {db : Db} {exn : Exn}

theorem noted_sameTables : SameTables db (noted db event exn) := by
  obtain ⟨t, h⟩ := @noted_frame db event exn
  rw [h]
  exact ⟨rfl, rfl, rfl⟩

theorem present_noted : Present event (noted db event exn) ↔ Present event db := by
  unfold noted
  split
  · exact present_setProcessingError _ _
  · exact Iff.rfl

theorem recorded_noted (fresh : ∀ e, db.eventById event.id = some e → e.processedAt = none) :
    Recorded event (noted db event exn) ↔ Present event db := by
  constructor
  · rintro ⟨e, he, hid, -⟩
    exact present_noted.mp ⟨e, he, hid⟩
  · intro hp
    cases hl : db.eventById event.id with
    | none => exact absurd hp (not_present_iff.mpr hl)
    | some e =>
      obtain ⟨he, hid⟩ := eventById_some hl
      let message := String.ofList (exn.str.toList.take 2048)
      have hmem : { e with processingError := some message } ∈ (noted db event exn).webhookEvents := by
        rw [noted, hl]
        exact (Table.mem_modify (f := fun x : WebhookEvent =>
          { x with processingError := some message }) (fun _ => rfl)).mpr ⟨e, he, by simp [hid]⟩
      exact ⟨_, hmem, hid, fresh e hl, rfl⟩

section

variable [StrLower]

/-- A delivery that ends in an error has rolled back what it had dispatched. -/
theorem failed_noted (h : (serve answer (stripeWebhook event env) db).result = .error exn) :
    (∀ e, db.eventById event.id = some e → e.processedAt = none) ∧
      ∃ raised, (serve answer (stripeWebhook event env) db).store = noted db event raised := by
  have handled_error : ∀ {out}, out = handled db event env → out.result = .error exn →
      ∃ raised, out.store = noted db event raised := by
    rintro _ rfl he
    unfold handled at he ⊢
    split at he
    · cases he
    · next raised hd => exact ⟨raised, rfl⟩
  rw [stripeWebhook_serves] at h ⊢
  cases hl : db.eventById event.id with
  | none =>
    rw [hl] at h
    exact ⟨by simp, handled_error rfl h⟩
  | some e =>
    simp only [hl] at h ⊢
    cases hp : e.processedAt with
    | some processed =>
      rw [hp] at h
      cases h
    | none =>
      rw [hp] at h
      exact ⟨fun e' he => (Option.some.inj he) ▸ hp, handled_error rfl h⟩

/-- A delivery that ends in an error is recorded, and leaves no other trace, exactly when the row of
its event had been committed before. -/
theorem failed_delivery_recorded
    (h : (serve answer (stripeWebhook event env) db).result = .error exn) :
    Recorded event (serve answer (stripeWebhook event env) db).store ∧
      SameTables db (serve answer (stripeWebhook event env) db).store ↔ Present event db := by
  obtain ⟨fresh, raised, hstore⟩ := failed_noted h
  rw [hstore, recorded_noted fresh]
  exact and_iff_left noted_sameTables

def AllProcessed (db : Db) : Prop :=
  ∀ e ∈ db.webhookEvents, e.processedAt.isSome = true ∧ e.processingError = none

theorem allProcessed_deliver (h : AllProcessed db) :
    AllProcessed (serve answer (stripeWebhook event env) db).store := by
  rw [stripeWebhook_serves]
  cases hl : db.eventById event.id with
  | some e =>
    have hp := (h e (eventById_some hl).1).1
    simpa [hp] using h
  | none =>
    simp only [handled]
    cases hd : dispatched event env (opened db event) with
    | error raised => simpa [noted, hl] using h
    | ok db' =>
      intro e he
      obtain ⟨x, hx, rfl⟩ := mem_setProcessedAt he
      rw [webhookEvents_dispatches (dispatched_ok hd)] at hx
      obtain hx | ⟨rfl, -⟩ := mem_opened hx
      · have hx := h x hx
        split
        · exact ⟨rfl, hx.2⟩
        · exact hx
      · simp [received]

theorem allProcessed_after (w : World) (r : Request) (h : AllProcessed w.db) :
    AllProcessed (w.after r).db := by
  by_cases hop : ∃ event, r.op = .deliver event
  · obtain ⟨event, hop⟩ := hop
    obtain ⟨op, env, answer⟩ := r
    obtain rfl : op = .deliver event := hop
    rw [after_deliver]
    exact allProcessed_deliver h
  · have hev := webhookEvents_after (fun event h => hop ⟨event, h⟩) w
    unfold AllProcessed
    rwa [hev]

/-- Where requests are served one after another, no error of a delivery is ever recorded. -/
theorem never_recorded (rs : List Request) (event : StripeEvent) :
    ¬ Recorded event (World.empty.afterAll rs).db := by
  have hall : AllProcessed (World.empty.afterAll rs).db := by
    refine afterAll_invariant (I := fun w => AllProcessed w.db) (C := fun _ _ => True)
      (fun w r h _ => allProcessed_after w r h) (fun e he => by cases he)
      ((along_iff _ _).mpr (fun _ _ _ _ => trivial))
  rintro ⟨e, he, -, hn, -⟩
  have hp := (hall e he).1
  rw [hn] at hp
  cases hp

end

def unpaid : StripeEvent :=
  ⟨"evt_1", "payment_intent.succeeded", none, ⟨some "pi_1", some 2500, some 0⟩⟩

def delivery (db : Db) : Outcome Db StripeCall StripeAnswer Exn WebhookReply :=
  serve (accepting .requiresAction) (stripeWebhook unpaid (clock 1)) db

/-- The first delivery of an event fails, and so does the next one: neither is recorded. -/
theorem failed_delivery_unrecorded :
    (∃ exn, (delivery ordered.db).result = .error exn) ∧
      ¬ Recorded unpaid (delivery ordered.db).store ∧
      (∃ exn, (delivery (delivery ordered.db).store).result = .error exn) ∧
      ¬ Recorded unpaid (delivery (delivery ordered.db).store).store :=
  ⟨⟨_, rfl⟩, by decide, ⟨_, rfl⟩, by decide⟩

/-- The gateway when the row of the event has been committed but not stamped. -/
def interrupted : Db := stored ordered.db (received unpaid)

theorem failed_delivery_recorded_interrupted :
    Recorded unpaid (delivery interrupted).store ∧
      SameTables interrupted (delivery interrupted).store :=
  (failed_delivery_recorded rfl).mpr (by decide)

end SixGateway.FailedDeliveries
