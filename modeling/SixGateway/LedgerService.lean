import SixGateway.Database
import SixGateway.Library.Journal
import SixGateway.Library.Dict
import Mathlib.Data.List.Sort

namespace SixGateway.LedgerService

open Models Errors Database Library Library.Journal

variable [StrLower]

structure LedgerLeg where
  account : String
  direction : LedgerEntryDirection
  amount : Int
  deriving DecidableEq

def LedgerLeg.signed (l : LedgerLeg) : Int :=
  match l.direction with
  | .credit => l.amount
  | .debit => -l.amount

def legTotal (d : LedgerEntryDirection) (legs : List LedgerLeg) : Int :=
  sumOver LedgerLeg.amount (fun l => decide (l.direction = d)) legs

/-- The arguments of `record_transaction` besides its legs. -/
structure Booking where
  currency : String
  paymentIntentId : Option String := none
  description : Option String := none
  metadata : Json := []
  transactionId : Option String := none

/-- The `uuid4` values that a call of `record_transaction` draws: that of the transaction, and one
for each leg. -/
structure BookingUuids where
  transaction : String
  entry : Nat → String

/-- For concrete runs: values that are told apart by the legs. -/
instance : Coe String BookingUuids := ⟨fun s => ⟨s, fun k => s ++ toString k⟩⟩

def Booking.entry (b : Booking) (uuids : BookingUuids) (now : Instant) (k : Nat) (leg : LedgerLeg) :
    LedgerEntry where
  id := "le_" ++ uuids.entry k
  transactionId := (truthy b.transactionId).getD ("tx_" ++ uuids.transaction)
  account := leg.account
  direction := leg.direction
  amount := leg.amount
  currency := lower b.currency
  paymentIntentId := b.paymentIntentId
  description := b.description
  entryMetadata := b.metadata
  createdAt := now

/-- The entries that `record_transaction` adds to the session, or the `LedgerError` it raises. -/
def recordTransaction (legs : List LedgerLeg) (b : Booking) (uuids : BookingUuids) (now : Instant) :
    Except Exn (List LedgerEntry) :=
  if legs.length < 2 then
    .error (.ledgerError "A transaction requires at least two legs.")
  else
    let debits := legTotal .debit legs
    let credits := legTotal .credit legs
    if debits ≠ credits then
      .error (.ledgerError s!"Unbalanced transaction: debits={debits} credits={credits}")
    else if legs.any (fun l => decide (l.amount ≤ 0)) then
      .error (.ledgerError "All leg amounts must be positive integers.")
    else .ok (legs.mapIdx (b.entry uuids now))

/-- Net balance in cents, over the entries of one account in one currency. -/
def getBalance (db : Db) (account currency : String) : Int :=
  sumOver LedgerEntry.signed
    (fun e => decide (e.account = account ∧ e.currency = lower currency)) db.ledgerEntries

/-- `session.execute(select(LedgerEntry)...order_by(created_at))`. -/
def listEntriesForIntent (db : Db) (paymentIntentId : String) : List LedgerEntry :=
  (db.ledgerEntries.filter (fun e => decide (e.paymentIntentId = some paymentIntentId))).insertionSort
    (fun a b => a.createdAt ≤ b.createdAt)

/-- The entries that a balance counts. The join with the intents is on their primary key. -/
def scope (db : Db) : Option String → List LedgerEntry
  | none => db.ledgerEntries
  | some merchantId => db.ledgerEntries.filter (fun e =>
    match e.paymentIntentId.bind db.intentById with
    | some p => decide (p.merchantId = some merchantId)
    | none => false)

def accountOf (e : LedgerEntry) : String × String := (e.currency, e.account)

/-- `GROUP BY currency, account ORDER BY currency, account`. -/
def balanceRows (db : Db) (merchantId : Option String) : List (String × String × Int) :=
  let entries := scope db merchantId
  ((entries.map accountOf).dedup.insertionSort
    (fun a b => a.1 < b.1 ∨ (a.1 = b.1 ∧ a.2 ≤ b.2))).map
    (fun k => (k.1, k.2, sumOver LedgerEntry.signed (fun e => decide (accountOf e = k)) entries))

def getBalancesByCurrency (db : Db) (merchantId : Option String) : Dict String (Dict String Int) :=
  Dict.group (balanceRows db merchantId)

end SixGateway.LedgerService
