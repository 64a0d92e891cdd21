import SixGateway.Models
import SixGateway.Errors

namespace SixGateway.Database

open Library Models Errors

structure Db where
  paymentIntents : Table PaymentIntent
  ledgerEntries : List LedgerEntry
  checkoutSessions : Table CheckoutSession
  webhookEvents : Table WebhookEvent

namespace Db

def empty : Db := ⟨.empty, [], .empty, .empty⟩

def intentById (db : Db) (id : String) : Option PaymentIntent :=
  db.paymentIntents.find? (fun p => decide (p.id = id))

def intentByKey (db : Db) (key : String) : Option PaymentIntent :=
  db.paymentIntents.find? (fun p => decide (p.idempotencyKey = key))

def intentByStripeId (db : Db) (stripeId : String) : Option PaymentIntent :=
  db.paymentIntents.find? (fun p => decide (p.stripePaymentIntentId = some stripeId))

def sessionById (db : Db) (id : String) : Option CheckoutSession :=
  db.checkoutSessions.find? (fun s => decide (s.id = id))

/-- The session table has no unique column for the intent, so there can be several. -/
def sessionsByIntent (db : Db) (paymentIntentId : String) : List CheckoutSession :=
  db.checkoutSessions.select (fun s => decide (s.paymentIntentId = some paymentIntentId))

def eventById (db : Db) (id : String) : Option WebhookEvent :=
  db.webhookEvents.find? (fun e => decide (e.id = id))

/-- A nullable foreign key to `payment_intents`. -/
def references (db : Db) : Option String → Bool
  | none => true
  | some id => (db.intentById id).isSome

/-- `UPDATE payment_intents` for a unit of work that loaded `loaded` and holds `dirty`. -/
def updateIntent (db : Db) (loaded dirty : PaymentIntent) (now : Instant) : Db :=
  { db with
    paymentIntents := db.paymentIntents.modify (fun p => decide (p.id = loaded.id))
      (PaymentIntent.flush loaded dirty now) (fun _ => rfl) }

def post (db : Db) (entries : List LedgerEntry) : Db :=
  { db with ledgerEntries := db.ledgerEntries ++ entries }

def updateSession (db : Db) (loaded dirty : CheckoutSession) (now : Instant) : Db :=
  { db with
    checkoutSessions := db.checkoutSessions.modify (fun s => decide (s.id = loaded.id))
      (CheckoutSession.flush loaded dirty now) (fun _ => rfl) }

def setProcessedAt (db : Db) (id : String) (now : Instant) : Db :=
  { db with
    webhookEvents := db.webhookEvents.modify (fun e => decide (e.id = id))
      (fun e => { e with processedAt := some now }) (fun _ => rfl) }

def setProcessingError (db : Db) (id message : String) : Db :=
  { db with
    webhookEvents := db.webhookEvents.modify (fun e => decide (e.id = id))
      (fun e => { e with processingError := some message }) (fun _ => rfl) }

end Db

def scalarOneOrNone {ρ : Type} : List ρ → Except Exn (Option ρ)
  | [] => .ok none
  | [r] => .ok (some r)
  | _ => .error .multipleResultsFound

/-- A statement that a unit of work sends. Its effect is that of the statement on the rows
committed at the time; a whole transaction takes effect when it commits. -/
inductive Stmt where
  | insertIntent (row : PaymentIntent)
  | updateIntent (loaded dirty : PaymentIntent) (now : Instant)
  | insertEntries (entries : List LedgerEntry)
  | insertSession (row : CheckoutSession)
  | updateSession (loaded dirty : CheckoutSession) (now : Instant)
  | insertEvent (row : WebhookEvent)
  | setProcessedAt (id : String) (now : Instant)
  | setProcessingError (id : String) (message : String)

namespace Stmt

def apply : Stmt → Db → Except Exn Db
  | insertIntent row, db =>
    match db.paymentIntents.insert row with
    | some t => .ok { db with paymentIntents := t }
    | none => .error .integrityError
  | updateIntent loaded dirty now, db => .ok (db.updateIntent loaded dirty now)
  | insertEntries entries, db =>
    if entries.all (fun e => db.references e.paymentIntentId) then
      .ok (db.post entries)
    else .error .integrityError
  | insertSession row, db =>
    if db.references row.paymentIntentId then
      match db.checkoutSessions.insert row with
      | some t => .ok { db with checkoutSessions := t }
      | none => .error .integrityError
    else .error .integrityError
  | updateSession loaded dirty now, db => .ok (db.updateSession loaded dirty now)
  | insertEvent row, db =>
    match db.webhookEvents.insert row with
    | some t => .ok { db with webhookEvents := t }
    | none => .error .integrityError
  | setProcessedAt id now, db => .ok (db.setProcessedAt id now)
  | setProcessingError id message, db => .ok (db.setProcessingError id message)

end Stmt

/-- Commit the statements of one transaction: all of them take effect, or none. -/
def commit : List Stmt → Db → Except Exn Db
  | [], db => .ok db
  | s :: t, db =>
    match s.apply db with
    | .ok db' => commit t db'
    | .error e => .error e

end SixGateway.Database
