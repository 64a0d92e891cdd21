import SixGateway.Bookings
import SixGateway.Queries
import SixGateway.Gateway

namespace SixGateway.Outcomes

open Library Models Errors Database Schemas StripeClient LedgerService PaymentService
open CheckoutService Webhook Queries Bookings Gateway

variable [StrLower] {answer : StripeCall → StripeAnswer} {db : Db} {env : Env}

def createCall (payload : PaymentIntentCreate) : StripeCall :=
  .createPaymentIntent payload.amount payload.currency payload.idempotencyKey payload.customerId
    payload.description payload.metadata

inductive CreateOutcome (payload : PaymentIntentCreate) (merchant : Option String) (env : Env)
    (answer : StripeCall → StripeAnswer) (db : Db) :
    Outcome Db StripeCall StripeAnswer Exn PaymentIntent → Prop
  | replayed (existing : PaymentIntent)
      (looked : db.intentByKey payload.idempotencyKey = some existing)
      (amount : existing.amount = payload.amount)
      (currency : existing.currency = lower payload.currency) :
      CreateOutcome payload merchant env answer db ⟨db, [], .ok existing⟩
  | conflicted (existing : PaymentIntent)
      (looked : db.intentByKey payload.idempotencyKey = some existing)
      (differs : existing.amount ≠ payload.amount ∨ existing.currency ≠ lower payload.currency) :
      CreateOutcome payload merchant env answer db ⟨db, [], .error (conflict payload existing)⟩
  | refused (looked : db.intentByKey payload.idempotencyKey = none) (e : Exn)
      (foreign : e.code? = none) :
      CreateOutcome payload merchant env answer db
        ⟨db, [(createCall payload, answer (createCall payload))], .error e⟩
  | created (looked : db.intentByKey payload.idempotencyKey = none) (o : StripeObject)
      (answered : answer (createCall payload) = .ok o) (status : PaymentIntentStatus)
      (parsed : PaymentIntentStatus.ofValue? o.status = some status) (t : Table PaymentIntent)
      (inserted : db.paymentIntents.insert (newIntent payload merchant env o status) = some t) :
      CreateOutcome payload merchant env answer db
        ⟨{ db with paymentIntents := t }.post (accrual (newIntent payload merchant env o status) env),
          [(createCall payload, .ok o)], .ok (newIntent payload merchant env o status)⟩

omit [StrLower] in
theorem serve_refresh {p q : PaymentIntent} (h : p ∈ db.paymentIntents) (hid : q.id = p.id) :
    serve answer (refresh q) db = ⟨db, [], .ok p⟩ := by
  have hp : db.intentById q.id = some p := hid ▸ intentById_of_mem h
  simp [serve, refresh, hp]

theorem serve_createLooked_none (payload : PaymentIntentCreate) (merchant : Option String) :
    serve answer (createLooked payload merchant env none) db =
      (serve answer (createAnswered payload merchant env (answer (createCall payload))) db).called
        (createCall payload) (answer (createCall payload)) := rfl

theorem createAnswered_ok {payload : PaymentIntentCreate} {merchant : Option String}
    {o : StripeObject} {status : PaymentIntentStatus}
    (h : PaymentIntentStatus.ofValue? o.status = some status) :
    serve answer (createAnswered payload merchant env (.ok o)) db =
      match db.paymentIntents.insert (newIntent payload merchant env o status) with
      | none => ⟨db, [], .error .integrityError⟩
      | some t => ⟨{ db with paymentIntents := t }.post
          (accrual (newIntent payload merchant env o status) env), [],
          .ok (newIntent payload merchant env o status)⟩ := by
  have hes : ∀ e ∈ accrual (newIntent payload merchant env o status) env,
      e.paymentIntentId = some (newIntent payload merchant env o status).id :=
    fun e he => (mem_pairEntries he).1
  have hc := @commit_creation db _ _ hes
  simp only [createAnswered, h, record_accrual]
  split
  · next hi =>
    rw [hi] at hc
    exact Program.exec_commit_error hc _
  · next t hi =>
    rw [hi] at hc
    rw [serve, Program.exec_commit_ok hc]
    exact serve_refresh ((Table.mem_insert hi).mpr (.inr rfl)) rfl

theorem createIntent_outcome (payload : PaymentIntentCreate) (merchant : Option String) :
    CreateOutcome payload merchant env answer db
      (serve answer (createIntent payload merchant env) db) := by
  change CreateOutcome payload merchant env answer db
    (serve answer (createLooked payload merchant env (db.intentByKey payload.idempotencyKey)) db)
  cases hl : db.intentByKey payload.idempotencyKey with
  | some existing =>
    simp only [createLooked]
    split
    · next h => exact .conflicted existing hl h
    · next h =>
      obtain ⟨ha, hc⟩ := not_or.mp h
      exact .replayed existing hl (not_not.mp ha) (not_not.mp hc)
  | none =>
    have hr (e : Exn) (he : e.code? = none) : CreateOutcome payload merchant env answer db
        ⟨db, [(createCall payload, answer (createCall payload))], .error e⟩ := .refused hl e he
    rw [serve_createLooked_none]
    cases ha : answer (createCall payload) with
    | error m =>
      rw [ha] at hr
      exact hr (.stripeError m) rfl
    | ok o =>
      rw [ha] at hr
      cases hs : PaymentIntentStatus.ofValue? o.status with
      | none =>
        simp only [createAnswered, hs]
        exact hr (unknownStatus o.status) rfl
      | some status =>
        rw [createAnswered_ok hs]
        cases hi : db.paymentIntents.insert (newIntent payload merchant env o status) with
        | none => exact hr .integrityError rfl
        | some t => exact .created hl o ha status hs t hi

/-- How an operation on the intent with a given id can end. `Settled` rows are returned as they
are, `Quiet` is what the answers it got are known to be when it raised, and `Done` what it did
otherwise. -/
inductive ByIdOutcome (id : String) (db : Db) (Settled : PaymentIntent → Prop)
    (Quiet : PaymentIntent → StripeCall → StripeObject → Prop)
    (Done : PaymentIntent → Outcome Db StripeCall StripeAnswer Exn PaymentIntent → Prop) :
    Outcome Db StripeCall StripeAnswer Exn PaymentIntent → Prop
  | missing (looked : db.intentById id = none) :
      ByIdOutcome id db Settled Quiet Done ⟨db, [], .error (notFound id)⟩
  | settled (p : PaymentIntent) (looked : db.intentById id = some p) (settled : Settled p) :
      ByIdOutcome id db Settled Quiet Done ⟨db, [], .ok p⟩
  | raised (p : PaymentIntent) (looked : db.intentById id = some p)
      (calls : List (StripeCall × StripeAnswer)) (e : Exn)
      (quiet : ∀ q o, (q, .ok o) ∈ calls → Quiet p q o)
      (found : e.code? ≠ some .paymentNotFound) :
      ByIdOutcome id db Settled Quiet Done ⟨db, calls, .error e⟩
  | done (p : PaymentIntent) (looked : db.intentById id = some p)
      (o : Outcome Db StripeCall StripeAnswer Exn PaymentIntent) (does : Done p o) :
      ByIdOutcome id db Settled Quiet Done o

namespace ByIdOutcome

variable {id : String} {Settled : PaymentIntent → Prop}
  {Quiet : PaymentIntent → StripeCall → StripeObject → Prop}
  {Done : PaymentIntent → Outcome Db StripeCall StripeAnswer Exn PaymentIntent → Prop}
  {p : PaymentIntent} {e : Exn}

omit [StrLower] in
theorem uncalled (looked : db.intentById id = some p) (he : e.code? ≠ some .paymentNotFound) :
    ByIdOutcome id db Settled Quiet Done ⟨db, [], .error e⟩ :=
  .raised p looked [] e (by simp) he

omit [StrLower] in
theorem called (looked : db.intentById id = some p) {q : StripeCall} {a : StripeAnswer}
    (ha : ∀ o, a = .ok o → Quiet p q o) (he : e.code? ≠ some .paymentNotFound) :
    ByIdOutcome id db Settled Quiet Done ((⟨db, [], .error e⟩ : Outcome _ _ _ _ _).called q a) := by
  refine .raised p looked [(q, a)] e (fun q' o h => ?_) he
  obtain ⟨rfl, rfl⟩ := Prod.mk.inj (List.mem_singleton.mp h)
  exact ha o rfl

end ByIdOutcome

def updated (db : Db) (p dirty : PaymentIntent) (entries : List LedgerEntry) (env : Env)
    (q : StripeCall) (o : StripeObject) : Outcome Db StripeCall StripeAnswer Exn PaymentIntent :=
  ⟨(db.updateIntent p dirty env.now).post entries, [(q, .ok o)],
    .ok (p.flush dirty env.now p)⟩

inductive Confirms (payload : PaymentIntentConfirm) (env : Env)
    (answer : StripeCall → StripeAnswer) (db : Db) (p : PaymentIntent) :
    Outcome Db StripeCall StripeAnswer Exn PaymentIntent → Prop
  | mk (live : p.status ∉ [PaymentIntentStatus.succeeded, .canceled, .failed])
      (stripeId : String) (named : truthy p.stripePaymentIntentId = some stripeId)
      (o : StripeObject) (answered : answer (.confirmPaymentIntent stripeId payload.paymentMethodId
        payload.idempotencyKey) = .ok o)
      (status : PaymentIntentStatus) (parsed : PaymentIntentStatus.ofValue? o.status = some status) :
      Confirms payload env answer db p (updated db p { p with status := status } [] env
        (.confirmPaymentIntent stripeId payload.paymentMethodId payload.idempotencyKey) o)

inductive Cancels (payload : PaymentIntentCancel) (env : Env)
    (answer : StripeCall → StripeAnswer) (db : Db) (p : PaymentIntent) :
    Outcome Db StripeCall StripeAnswer Exn PaymentIntent → Prop
  | mk (open_ : p.status ≠ .canceled ∧ p.status ≠ .succeeded)
      (stripeId : String) (named : truthy p.stripePaymentIntentId = some stripeId)
      (o : StripeObject)
      (answered : answer (cancelPaymentIntent stripeId payload.idempotencyKey payload.reason) =
        .ok o)
      (status : PaymentIntentStatus) (parsed : PaymentIntentStatus.ofValue? o.status = some status)
      (positive : 0 < p.amount) :
      Cancels payload env answer db p (updated db p { p with status := status } (reversal p env) env
        (cancelPaymentIntent stripeId payload.idempotencyKey payload.reason) o)

inductive Refunds (idempotencyKey : String) (amount : Option Int) (reason : Option String)
    (env : Env) (answer : StripeCall → StripeAnswer) (db : Db) (p : PaymentIntent) :
    Outcome Db StripeCall StripeAnswer Exn PaymentIntent → Prop
  | mk (captured : p.status = .succeeded)
      (stripeId : String) (named : truthy p.stripePaymentIntentId = some stripeId)
      (n : Int) (asked : amount.getD (p.amountReceived - p.amountRefunded) = n)
      (positive : 0 < n) (refundable : n ≤ p.amountReceived - p.amountRefunded)
      (o : StripeObject) (answered : answer (createRefund stripeId n idempotencyKey reason) = .ok o) :
      Refunds idempotencyKey amount reason env answer db p
        (updated db p { p with amountRefunded := p.amountRefunded + n }
          (refundEntries p n o.id reason env) env (createRefund stripeId n idempotencyKey reason) o)

variable {p dirty : PaymentIntent} {es : List LedgerEntry}

omit [StrLower] in
theorem post_nil (db : Db) : db.post [] = db := by simp [Db.post]

omit [StrLower] in
theorem serve_booking (hp : p ∈ db.paymentIntents)
    (hes : ∀ e ∈ es, e.paymentIntentId = some p.id) (q : StripeCall) (o : StripeObject) :
    (serve answer (.commit [.updateIntent p dirty env.now, .insertEntries es] (refresh p))
      db).called q (.ok o) = updated db p dirty es env q o := by
  have hr : serve answer (refresh p) ((db.updateIntent p dirty env.now).post es) = _ :=
    serve_refresh ((mem_updateIntent_loaded hp).mpr (.inl rfl)) rfl
  rw [serve, Program.exec_commit_ok (commit_booking (references_of_mem hp) hes)]
  rw [serve] at hr
  rw [hr]
  rfl

omit [StrLower] in
theorem serve_update (hp : p ∈ db.paymentIntents) (q : StripeCall) (o : StripeObject) :
    (serve answer (.commit [.updateIntent p dirty env.now] (refresh p)) db).called q (.ok o) =
      updated db p dirty [] env q o := by
  have hr : serve answer (refresh p) (db.updateIntent p dirty env.now) = _ :=
    serve_refresh ((mem_updateIntent_loaded hp).mpr (.inl rfl)) rfl
  have hc : commit [.updateIntent p dirty env.now] db = .ok (db.updateIntent p dirty env.now) := rfl
  rw [serve, Program.exec_commit_ok hc]
  rw [serve] at hr
  rw [hr, updated, post_nil]
  rfl

def IsRefund (q : StripeCall) : Prop :=
  ∃ stripeId n key reason, q = .createRefund stripeId n key reason

def confirmQuiet (_ : PaymentIntent) (q : StripeCall) (o : StripeObject) : Prop :=
  ¬ IsRefund q ∧ PaymentIntentStatus.ofValue? o.status = none

def cancelQuiet (p : PaymentIntent) (q : StripeCall) (o : StripeObject) : Prop :=
  ¬ IsRefund q ∧ (PaymentIntentStatus.ofValue? o.status = none ∨ p.amount ≤ 0)

omit [StrLower] in
theorem not_isRefund_cancel {stripeId key : String} {reason : Option String} :
    ¬ IsRefund (cancelPaymentIntent stripeId key reason) := by
  simp [IsRefund, cancelPaymentIntent]

omit [StrLower] in
theorem confirmIntent_outcome (id : String) (payload : PaymentIntentConfirm) :
    ByIdOutcome id db (fun p => p.status ∈ [PaymentIntentStatus.succeeded, .canceled, .failed])
      confirmQuiet (Confirms payload env answer db)
      (serve answer (confirmIntent id payload env) db) := by
  change ByIdOutcome id db _ _ _ (serve answer (confirmLoaded id payload env (db.intentById id)) db)
  cases hl : db.intentById id with
  | none => exact .missing hl
  | some p =>
    obtain ⟨hp, -⟩ := intentById_some hl
    simp only [confirmLoaded]
    split
    · next hs => exact .settled p hl hs
    · next live =>
      split
      · exact .uncalled hl (by simp [Exn.code?])
      · next stripeId named =>
        rw [serve, Program.exec_call]
        cases ha : answer (.confirmPaymentIntent stripeId payload.paymentMethodId
          payload.idempotencyKey) with
        | error m => exact .called hl (by simp) (by simp [Exn.code?])
        | ok o =>
          cases hv : PaymentIntentStatus.ofValue? o.status with
          | none =>
            simp only [confirmAnswered, hv]
            exact .called hl (by rintro _ ⟨⟩; exact ⟨by simp [IsRefund], hv⟩)
              (by simp [Exn.code?, unknownStatus])
          | some status =>
            simp only [confirmAnswered, hv]
            rw [← serve, serve_update hp]
            exact .done p hl _ (.mk live stripeId named o ha status hv)

theorem cancelIntent_outcome (id : String) (payload : PaymentIntentCancel) :
    ByIdOutcome id db (fun p => p.status = .canceled) cancelQuiet (Cancels payload env answer db)
      (serve answer (cancelIntent id payload env) db) := by
  change ByIdOutcome id db _ _ _ (serve answer (cancelLoaded id payload env (db.intentById id)) db)
  cases hl : db.intentById id with
  | none => exact .missing hl
  | some p =>
    obtain ⟨hp, -⟩ := intentById_some hl
    simp only [cancelLoaded]
    split
    · next hs => exact .settled p hl hs
    · next hc =>
      split
      · exact .uncalled hl (by simp [Exn.code?])
      · next hs =>
        split
        · exact .uncalled hl (by simp [Exn.code?])
        · next stripeId named =>
          rw [serve, Program.exec_call]
          cases ha : answer (cancelPaymentIntent stripeId payload.idempotencyKey payload.reason) with
          | error m => exact .called hl (by simp) (by simp [Exn.code?])
          | ok o =>
            cases hv : PaymentIntentStatus.ofValue? o.status with
            | none =>
              simp only [cancelAnswered, hv]
              exact .called hl (by rintro _ ⟨⟩; exact ⟨not_isRefund_cancel, .inl hv⟩)
                (by simp [Exn.code?, unknownStatus])
            | some status =>
              simp only [cancelAnswered, hv]
              obtain hn | hn := Int.lt_or_le 0 p.amount
              · simp only [record_reversal hn]
                rw [← serve, serve_booking hp (fun _ => intent_of_reversal)]
                exact .done p hl _ (.mk ⟨hc, hs⟩ stripeId named o ha status hv hn)
              · rw [recordTransaction_pair_error _ _ _ _ hn]
                exact .called hl (by rintro _ ⟨⟩; exact ⟨not_isRefund_cancel, .inr hn⟩)
                  (by simp [Exn.code?])

theorem refundIntent_passes {id idempotencyKey : String} {amount : Option Int}
    {reason : Option String} (hl : db.intentById id = some p) (captured : p.status = .succeeded)
    {stripeId : String} (named : truthy p.stripePaymentIntentId = some stripeId) {n : Int}
    (asked : amount.getD (p.amountReceived - p.amountRefunded) = n) (positive : 0 < n)
    (refundable : n ≤ p.amountReceived - p.amountRefunded) {o : StripeObject}
    (answered : answer (createRefund stripeId n idempotencyKey reason) = .ok o) :
    serve answer (refundIntent id idempotencyKey amount reason env) db =
      updated db p { p with amountRefunded := p.amountRefunded + n }
        (refundEntries p n o.id reason env) env
        (createRefund stripeId n idempotencyKey reason) o := by
  obtain ⟨hp, -⟩ := intentById_some hl
  have hrest : ¬ p.amountReceived - p.amountRefunded ≤ 0 := by omega
  have hn : ¬ (n ≤ 0 ∨ p.amountReceived - p.amountRefunded < n) := by omega
  simp only [serve, refundIntent, Program.exec_read, hl, refundLoaded, captured, ne_eq,
    not_true_eq_false, if_false, named, hrest, asked, hn, Program.exec_call, answered,
    refundAnswered, record_refund p positive]
  exact serve_booking hp (fun _ => intent_of_refund) _ _

theorem refundIntent_outcome (id idempotencyKey : String) (amount : Option Int)
    (reason : Option String) :
    ByIdOutcome id db (fun _ => False) (fun _ _ _ => False)
      (Refunds idempotencyKey amount reason env answer db)
      (serve answer (refundIntent id idempotencyKey amount reason env) db) := by
  change ByIdOutcome id db _ _ _
    (serve answer (refundLoaded id idempotencyKey amount reason env (db.intentById id)) db)
  cases hl : db.intentById id with
  | none => exact .missing hl
  | some p =>
    obtain ⟨hp, -⟩ := intentById_some hl
    simp only [refundLoaded]
    split
    · exact .uncalled hl (by simp [Exn.code?])
    · next hs =>
      split
      · exact .uncalled hl (by simp [Exn.code?])
      · next stripeId named =>
        split
        · exact .uncalled hl (by simp [Exn.code?])
        · split
          · exact .uncalled hl (by simp [Exn.code?])
          · next hn =>
            generalize hr : amount.getD (p.amountReceived - p.amountRefunded) = n at hn
            obtain ⟨hpos, hle⟩ : 0 < n ∧ n ≤ p.amountReceived - p.amountRefunded := by omega
            rw [serve, Program.exec_call]
            cases ha : answer (createRefund stripeId n idempotencyKey reason) with
            | error m => exact .called hl (by simp) (by simp [Exn.code?])
            | ok o =>
              simp only [refundAnswered, record_refund p hpos]
              rw [← serve, serve_booking hp (fun _ => intent_of_refund)]
              exact .done p hl _ (.mk (not_not.mp hs) stripeId named n hr hpos hle o ha)

end SixGateway.Outcomes
