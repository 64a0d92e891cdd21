import SixGateway.Library.Table

namespace SixGateway.Models

open Library

/-- `str.lower`. Nothing but its idempotence is used. -/
class StrLower where
  lower : String → String
  lower_lower : ∀ s, lower (lower s) = lower s

export StrLower (lower lower_lower)

theorem toLower_toLower (c : Char) : c.toLower.toLower = c.toLower := by
  by_cases h : c.val ≥ 'A'.val ∧ c.val ≤ 'Z'.val
  · have hc : c.toLower.val = c.val + ('a'.val - 'A'.val) := congrArg Char.val (dif_pos h)
    have hn : ¬ (c.toLower.val ≥ 'A'.val ∧ c.toLower.val ≤ 'Z'.val) := by
      rw [hc]
      grind
    exact dif_neg hn
  · have hc : c.toLower = c := dif_neg h
    rw [hc, hc]

instance asciiLower : StrLower where
  lower s := String.ofList (s.toList.map Char.toLower)
  lower_lower s := by
    rw [String.toList_ofList, List.map_map]
    exact congrArg String.ofList (List.map_congr_left (fun c _ => toLower_toLower c))

/-- The value of an optional string where Python tests it for truth: the empty string is false. -/
def truthy : Option String → Option String
  | some s => if s = "" then none else some s
  | none => none

theorem truthy_some {o : Option String} {s : String} (h : truthy o = some s) : o = some s := by
  cases o with
  | none => cases h
  | some t =>
    by_cases ht : t = ""
    · simp [truthy, ht] at h
    · simpa [truthy, ht] using h

/-- A point of time in microseconds, the resolution of `datetime`. -/
abbrev Instant := Int

def hours (n : Int) : Int := n * 3600000000

abbrev Json := List (String × Option String)

inductive PaymentIntentStatus where
  | requiresPaymentMethod
  | requiresConfirmation
  | requiresAction
  | processing
  | succeeded
  | canceled
  | failed
  deriving DecidableEq, Repr

namespace PaymentIntentStatus

def value : PaymentIntentStatus → String
  | requiresPaymentMethod => "requires_payment_method"
  | requiresConfirmation => "requires_confirmation"
  | requiresAction => "requires_action"
  | processing => "processing"
  | succeeded => "succeeded"
  | canceled => "canceled"
  | failed => "failed"

def members : List PaymentIntentStatus :=
  [requiresPaymentMethod, requiresConfirmation, requiresAction, processing, succeeded, canceled,
    failed]

/-- The enum call `PaymentIntentStatus(v)`; `none` stands for its `ValueError`. -/
def ofValue? (v : String) : Option PaymentIntentStatus :=
  members.find? (fun s => decide (s.value = v))

theorem ofValue?_value (s : PaymentIntentStatus) : ofValue? s.value = some s := by
  cases s <;> decide

theorem value_injective : Function.Injective value := by
  intro s t h
  have hs := ofValue?_value s
  rw [h, ofValue?_value] at hs
  exact (Option.some.inj hs).symm

theorem value_of_ofValue? {v : String} {s : PaymentIntentStatus} (h : ofValue? v = some s) :
    s.value = v := by
  simpa using List.find?_some h

end PaymentIntentStatus

structure PaymentIntent where
  id : String
  stripePaymentIntentId : Option String
  idempotencyKey : String
  amount : Int
  currency : String
  amountReceived : Int := 0
  amountRefunded : Int := 0
  status : PaymentIntentStatus
  merchantId : Option String
  customerId : Option String
  description : Option String
  clientSecret : Option String
  paymentMetadata : Json
  createdAt : Instant
  updatedAt : Instant
  deriving DecidableEq, Repr

inductive IntentKey where
  | id (v : String)
  | stripePaymentIntentId (v : String)
  | idempotencyKey (v : String)
  deriving DecidableEq

instance : Keyed PaymentIntent IntentKey where
  keys p := .id p.id :: .idempotencyKey p.idempotencyKey ::
    (p.stripePaymentIntentId.map .stripePaymentIntentId).toList

/-- The columns that an `UPDATE` of an intent writes: those in which the object differs from what
was loaded. The services assign no other column than these three. -/
def PaymentIntent.unchanged (loaded dirty : PaymentIntent) : Prop :=
  dirty.status = loaded.status ∧ dirty.amountReceived = loaded.amountReceived ∧
    dirty.amountRefunded = loaded.amountRefunded

instance (loaded dirty : PaymentIntent) : Decidable (loaded.unchanged dirty) :=
  inferInstanceAs (Decidable (_ ∧ _ ∧ _))

/-- The committed row after the unit of work that loaded `loaded` and holds `dirty` is flushed. -/
def PaymentIntent.flush (loaded dirty : PaymentIntent) (now : Instant) (row : PaymentIntent) :
    PaymentIntent :=
  { row with
    status := if dirty.status = loaded.status then row.status else dirty.status
    amountReceived :=
      if dirty.amountReceived = loaded.amountReceived then row.amountReceived
      else dirty.amountReceived
    amountRefunded :=
      if dirty.amountRefunded = loaded.amountRefunded then row.amountRefunded
      else dirty.amountRefunded
    updatedAt := if loaded.unchanged dirty then row.updatedAt else now }

inductive LedgerEntryDirection where
  | debit
  | credit
  deriving DecidableEq, Repr

structure LedgerEntry where
  id : String
  transactionId : String
  account : String
  direction : LedgerEntryDirection
  amount : Int
  currency : String
  paymentIntentId : Option String
  description : Option String
  entryMetadata : Json
  createdAt : Instant
  deriving DecidableEq, Repr

/-- A credit counts for an account and a debit against it. -/
def LedgerEntry.signed (e : LedgerEntry) : Int :=
  match e.direction with
  | .credit => e.amount
  | .debit => -e.amount

inductive CheckoutSessionStatus where
  | opened
  | completed
  | expired
  deriving DecidableEq, Repr

structure CheckoutSession where
  id : String
  merchantId : String
  paymentIntentId : Option String
  amount : Int
  currency : String
  description : Option String
  status : CheckoutSessionStatus
  successUrl : Option String
  expiresAt : Instant
  createdAt : Instant
  updatedAt : Instant
  deriving DecidableEq, Repr

instance : Keyed CheckoutSession String where
  keys s := [s.id]

def CheckoutSession.flush (loaded dirty : CheckoutSession) (now : Instant)
    (row : CheckoutSession) : CheckoutSession :=
  { row with
    status := if dirty.status = loaded.status then row.status else dirty.status
    updatedAt := if dirty.status = loaded.status then row.updatedAt else now }

/-- The object of an event, as far as the handler reads it. A missing key is `none`. -/
structure EventObject where
  id : Option String
  amount : Option Int
  amountReceived : Option Int
  deriving DecidableEq, Repr

structure StripeEvent where
  id : String
  type : String
  apiVersion : Option String
  object : EventObject
  deriving DecidableEq, Repr

structure WebhookEvent where
  id : String
  type : String
  apiVersion : Option String
  payload : StripeEvent
  processedAt : Option Instant
  processingError : Option String
  deriving DecidableEq, Repr

instance : Keyed WebhookEvent String where
  keys e := [e.id]

end SixGateway.Models
