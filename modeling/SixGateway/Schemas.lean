import SixGateway.Models

namespace SixGateway.Schemas

open Models

variable [StrLower]

def maxLength (n : Nat) (s : Option String) : Prop := ∀ t, s = some t → t.length ≤ n

/-- A request body that the schema has accepted. The currency is checked for its length as it was
sent and kept in lower case. -/
structure PaymentIntentCreate where
  amount : Int
  currency : String
  idempotencyKey : String
  customerId : Option String
  description : Option String
  metadata : Json
  amount_ge : 1 ≤ amount
  currency_sent : ∃ sent : String, sent.length = 3 ∧ lower sent = currency
  key_length : 8 ≤ idempotencyKey.length ∧ idempotencyKey.length ≤ 255
  description_length : maxLength 1024 description

structure CheckoutSessionCreate where
  amount : Int
  currency : String
  idempotencyKey : String
  description : Option String
  successUrl : Option String
  amount_ge : 1 ≤ amount
  currency_sent : ∃ sent : String, sent.length = 3 ∧ lower sent = currency
  key_length : 8 ≤ idempotencyKey.length ∧ idempotencyKey.length ≤ 255
  description_length : maxLength 1024 description
  success_url_length : maxLength 2048 successUrl

structure PaymentIntentConfirm where
  idempotencyKey : String
  paymentMethodId : String
  key_length : 8 ≤ idempotencyKey.length ∧ idempotencyKey.length ≤ 255
  method_length : 1 ≤ paymentMethodId.length

structure PaymentIntentCancel where
  idempotencyKey : String
  reason : Option String
  key_length : 8 ≤ idempotencyKey.length ∧ idempotencyKey.length ≤ 255
  reason_length : maxLength 255 reason

structure RefundCreate where
  amount : Option Int
  idempotencyKey : String
  reason : Option String
  amount_ge : ∀ n, amount = some n → 1 ≤ n
  key_length : 8 ≤ idempotencyKey.length ∧ idempotencyKey.length ≤ 255
  reason_length : maxLength 255 reason

theorem PaymentIntentCreate.lower_currency (p : PaymentIntentCreate) :
    lower p.currency = p.currency := by
  obtain ⟨sent, -, h⟩ := p.currency_sent
  rw [← h, lower_lower]

theorem CheckoutSessionCreate.lower_currency (p : CheckoutSessionCreate) :
    lower p.currency = p.currency := by
  obtain ⟨sent, -, h⟩ := p.currency_sent
  rw [← h, lower_lower]

end SixGateway.Schemas
