import SixGateway.LedgerService
import SixGateway.StripeClient

namespace SixGateway.Reconciliation

open Library Models Database StripeClient LedgerService

structure Drift where
  intentId : String
  expected : Int
  actual : Int
  deriving DecidableEq

structure Report where
  checked : Nat
  drift : List Drift
  deriving DecidableEq

def expectedCaptured (intent : PaymentIntent) : Int :=
  if intent.status = .succeeded then intent.amountReceived - intent.amountRefunded else 0

def capturedIn (entries : List LedgerEntry) : Int :=
  ((entries.filter (fun e => decide (e.account = "payments_captured"))).map LedgerEntry.signed).sum

def driftOf (db : Db) (intent : PaymentIntent) : Option Drift :=
  let expected := expectedCaptured intent
  let captured := capturedIn (listEntriesForIntent db intent.id)
  if captured ≠ expected then some ⟨intent.id, expected, captured⟩ else none

/-- The self-check of the ledger over the intents created in a window up to `now`. -/
def reconcileRecent (db : Db) (now window : Instant) : Report :=
  let intents := db.paymentIntents.select (fun p => decide (now - window ≤ p.createdAt))
  ⟨intents.length, intents.filterMap (driftOf db)⟩

def btPaymentIntentId (bt : BalanceTransaction) : Option String :=
  match bt.source with
  | .expanded (.id pi) => some pi
  | .expanded (.expanded pi) => pi
  | .expanded .other => none
  | .other => none

/-- A mismatch as the run records it, under its `type`. -/
inductive Mismatch where
  | missingStripe (stripePaymentIntentId : String) (internalAmount : Option Int)
  | missingInternal (stripePaymentIntentId : String) (stripeAmount : Int)
  | amountMismatch (stripePaymentIntentId : String) (stripeAmount internalAmount diff : Int)
  deriving DecidableEq

def Mismatch.stripePaymentIntentId : Mismatch → String
  | missingStripe pi _ => pi
  | missingInternal pi _ => pi
  | amountMismatch pi _ _ _ => pi

structure ReconciliationRun where
  runDate : Int
  totalStripe : Int
  totalInternal : Int
  mismatchesCount : Nat
  mismatches : List Mismatch
  deriving DecidableEq

/-- The first instant of a UTC day, which is given by its distance from the epoch. -/
def startOf (targetDate : Int) : Instant := targetDate * hours 24

/-- `int(t.timestamp())` -/
def timestamp (t : Instant) : Int := t / 1000000

def reconciledTypes : List String := ["charge", "refund"]

def stripeByPi (bts : List BalanceTransaction) : Dict String Int :=
  Dict.tally (bts.filterMap (fun bt => (btPaymentIntentId bt).map (fun pi => (pi, bt.amount))))

/-- The rows whose last update falls on the day. -/
def updatedOn (targetDate : Int) (db : Db) : List PaymentIntent :=
  db.paymentIntents.select (fun p => p.stripePaymentIntentId.isSome &&
    decide (startOf targetDate ≤ p.updatedAt) &&
    decide (p.updatedAt < startOf targetDate + hours 24))

def internalIntents (rows : List PaymentIntent) : Dict String PaymentIntent :=
  Dict.ofList (rows.filterMap (fun p => p.stripePaymentIntentId.map (fun pi => (pi, p))))

def internalByPi (intents : Dict String PaymentIntent) : Dict String Int :=
  Dict.ofList ((intents.items.filter (fun i => decide (i.2.status = .succeeded))).map
    (fun i => (i.1, i.2.amountReceived - i.2.amountRefunded)))

def classify (stripe internal : Dict String Int) (pi : String) : Option Mismatch :=
  match stripe.get? pi, internal.get? pi with
  | none, i => some (.missingStripe pi i)
  | some s, none => some (.missingInternal pi s)
  | some s, some i => if s ≠ i then some (.amountMismatch pi s i (s - i)) else none

/-- `internal_by_pi`, from the rows as they are. -/
def internalOn (targetDate : Int) (db : Db) : Dict String Int :=
  internalByPi (internalIntents (updatedOn targetDate db))

/-- The run that `reconcile_day` writes when Stripe has listed `bts` for the day. -/
def reconcileDay (targetDate : Int) (bts : List BalanceTransaction) (db : Db) :
    ReconciliationRun :=
  let stripe := stripeByPi bts
  let internal := internalOn targetDate db
  let mismatches := ((stripe.keys ++ internal.keys).dedup.insertionSort (· ≤ ·)).filterMap
    (classify stripe internal)
  { runDate := targetDate
    totalStripe := stripe.values.sum
    totalInternal := internal.values.sum
    mismatchesCount := mismatches.length
    mismatches := mismatches }

end SixGateway.Reconciliation
