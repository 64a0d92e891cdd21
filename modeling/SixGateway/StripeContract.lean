import SixGateway.Effects

namespace SixGateway.StripeContract

open Models StripeClient Gateway Effects

/-- The statuses in which Stripe answers an accepted call. -/
def Answers : StripeCall → StripeObject → Prop
  | .createPaymentIntent .., o =>
    o.status ≠ PaymentIntentStatus.succeeded.value ∧ o.status ≠ PaymentIntentStatus.canceled.value
  | .confirmPaymentIntent .., o => o.status ≠ PaymentIntentStatus.canceled.value
  | .cancelPaymentIntent .., o => o.status = PaymentIntentStatus.canceled.value
  | .createRefund .., _ => True

instance : (q : StripeCall) → (o : StripeObject) → Decidable (Answers q o)
  | .createPaymentIntent .., _ => inferInstanceAs (Decidable (_ ∧ _))
  | .confirmPaymentIntent .., _ => inferInstanceAs (Decidable (_ ≠ _))
  | .cancelPaymentIntent .., _ => inferInstanceAs (Decidable (_ = _))
  | .createRefund .., _ => inferInstanceAs (Decidable True)

def CancelAccepted (calls : Calls) (stripeId : String) : Prop :=
  ∃ key reason o, (StripeCall.cancelPaymentIntent stripeId key reason, Except.ok o) ∈ calls

def SucceededEvent (event : StripeEvent) (stripeId : String) : Prop :=
  event.type = "payment_intent.succeeded" ∧ event.object.id = some stripeId

/-- What is assumed of Stripe while a request is served: it answers in lawful statuses, and sends
no succeeded event for an intent that it has canceled. -/
structure Lawful [StrLower] (w : World) (r : Request) : Prop where
  answers : ∀ q o, r.answer q = .ok o → Answers q o
  emitted : ∀ event stripeId, r.op = .deliver event → SucceededEvent event stripeId →
    ¬ CancelAccepted w.calls stripeId

theorem CancelAccepted.append {calls : Calls} {stripeId : String}
    (h : CancelAccepted calls stripeId) (more : Calls) :
    CancelAccepted (calls ++ more) stripeId := by
  obtain ⟨key, reason, o, hm⟩ := h
  exact ⟨key, reason, o, List.mem_append_left _ hm⟩

theorem ne_of_value {v : String} {s t : PaymentIntentStatus}
    (h : PaymentIntentStatus.ofValue? v = some s) (hv : v ≠ t.value) : s ≠ t := by
  rintro rfl
  exact hv (PaymentIntentStatus.value_of_ofValue? h).symm

theorem eq_of_value {v : String} {s t : PaymentIntentStatus}
    (h : PaymentIntentStatus.ofValue? v = some s) (hv : v = t.value) : s = t := by
  rw [hv, PaymentIntentStatus.ofValue?_value] at h
  exact (Option.some.inj h).symm

instance (calls : Calls) (stripeId : String) : Decidable (CancelAccepted calls stripeId) :=
  decidable_of_iff (calls.any (fun c =>
    match c with
    | (.cancelPaymentIntent s _ _, .ok _) => decide (s = stripeId)
    | _ => false) = true) (by
      simp only [CancelAccepted, List.any_eq_true]
      constructor
      · rintro ⟨⟨q, a⟩, hm, h⟩
        split at h
        · next s key reason o heq =>
          cases heq
          obtain rfl := of_decide_eq_true h
          exact ⟨key, reason, o, hm⟩
        · cases h
      · rintro ⟨key, reason, o, hm⟩
        exact ⟨_, hm, by simp⟩)

/-- Stripe accepting every call on one payment, with a given answer to its confirmation. -/
def accepting (confirmed : PaymentIntentStatus) : StripeCall → StripeAnswer
  | .createPaymentIntent .. =>
    .ok ⟨"pi_1", PaymentIntentStatus.requiresPaymentMethod.value, some "secret"⟩
  | .confirmPaymentIntent .. => .ok ⟨"pi_1", confirmed.value, some "secret"⟩
  | .cancelPaymentIntent .. => .ok ⟨"pi_1", PaymentIntentStatus.canceled.value, some "secret"⟩
  | .createRefund .. => .ok ⟨"re_1", "succeeded", none⟩

theorem accepting_answers {confirmed : PaymentIntentStatus} (h : confirmed ≠ .canceled)
    (q : StripeCall) (o : StripeObject) (ho : accepting confirmed q = .ok o) : Answers q o := by
  cases q with
  | createPaymentIntent =>
    cases ho
    exact ⟨by decide, by decide⟩
  | confirmPaymentIntent =>
    cases ho
    exact fun he => h (PaymentIntentStatus.value_injective he)
  | cancelPaymentIntent =>
    cases ho
    rfl
  | createRefund => trivial

theorem accepting_lawful {confirmed : PaymentIntentStatus} (h : confirmed ≠ .canceled) {op : Op}
    (hop : ∀ event, op ≠ .deliver event) (env : PaymentService.Env) (w : World) :
    Lawful w ⟨op, env, accepting confirmed⟩ :=
  ⟨accepting_answers h, fun event _ he => absurd he (hop event)⟩

theorem accepting_emitted {confirmed : PaymentIntentStatus} (h : confirmed ≠ .canceled)
    {event : StripeEvent} {stripeId : String} (hid : event.object.id = some stripeId) {w : World}
    (hw : ¬ CancelAccepted w.calls stripeId) (env : PaymentService.Env) :
    Lawful w ⟨.deliver event, env, accepting confirmed⟩ :=
  ⟨accepting_answers h, fun _ s he hs => by
    cases he
    obtain rfl : s = stripeId := Option.some.inj (hs.2.symm.trans hid)
    exact hw⟩

def order : Schemas.PaymentIntentCreate where
  amount := 2500
  currency := "usd"
  idempotencyKey := "order-0001"
  customerId := some "cus_1"
  description := none
  metadata := []
  amount_ge := by decide
  currency_sent := ⟨"USD", by decide, by decide⟩
  key_length := by decide
  description_length := by simp [Schemas.maxLength]

def checkout : Schemas.CheckoutSessionCreate where
  amount := 2500
  currency := "usd"
  idempotencyKey := "order-0001"
  description := none
  successUrl := none
  amount_ge := by decide
  currency_sent := ⟨"USD", by decide, by decide⟩
  key_length := by decide
  description_length := by simp [Schemas.maxLength]
  success_url_length := by simp [Schemas.maxLength]

def confirmation : Schemas.PaymentIntentConfirm where
  idempotencyKey := "confirm-1"
  paymentMethodId := "pm_card"
  key_length := by decide
  method_length := by decide

def cancellation : Schemas.PaymentIntentCancel where
  idempotencyKey := "cancel-1"
  reason := none
  key_length := by decide
  reason_length := by simp [Schemas.maxLength]

def clock (n : Nat) : PaymentService.Env := ⟨n, "i", "s", "t"⟩

def paid (eventId : String) : StripeEvent :=
  ⟨eventId, "payment_intent.succeeded", none, ⟨some "pi_1", some 2500, some 2500⟩⟩

end SixGateway.StripeContract
