import SixGateway.PaymentService

namespace SixGateway.Bookings

open Models Errors Database Library.Journal LedgerService PaymentService

variable [StrLower]

/-- The two entries of a booking of one amount. -/
def pairEntries (b : Booking) (env : Env) (debited credited : String) (amount : Int) :
    List LedgerEntry :=
  [b.entry env.bookingUuids env.now 0 ⟨debited, .debit, amount⟩,
    b.entry env.bookingUuids env.now 1 ⟨credited, .credit, amount⟩]

theorem recordTransaction_pair (b : Booking) (env : Env) (debited credited : String)
    {amount : Int} (h : 0 < amount) :
    recordTransaction (pair debited credited amount) b env.bookingUuids env.now =
      .ok (pairEntries b env debited credited amount) := by
  have hn : ¬ amount ≤ 0 := by omega
  simp [recordTransaction, pair, legTotal, sumOver, hn, pairEntries]

theorem recordTransaction_pair_error (b : Booking) (env : Env) (debited credited : String)
    {amount : Int} (h : amount ≤ 0) :
    recordTransaction (pair debited credited amount) b env.bookingUuids env.now =
      .error (.ledgerError "All leg amounts must be positive integers.") := by
  simp [recordTransaction, pair, legTotal, sumOver, h]

def bookingOf (p : PaymentIntent) (description : String) : Booking :=
  { currency := p.currency, paymentIntentId := some p.id, description := some description }

/-- The authorisation accrual, booked when the intent is created. -/
def accrual (p : PaymentIntent) (env : Env) : List LedgerEntry :=
  pairEntries (bookingOf p "payment_intent.created") env (pendingAccount p.customerId)
    "payments_authorised" p.amount

def reversal (p : PaymentIntent) (env : Env) : List LedgerEntry :=
  pairEntries (bookingOf p "payment_intent.canceled") env "payments_authorised"
    (pendingAccount p.customerId) p.amount

def capture (p : PaymentIntent) (amountReceived : Int) (env : Env) : List LedgerEntry :=
  pairEntries (bookingOf p "payment_intent.succeeded") env "payments_authorised"
    "payments_captured" amountReceived

def refundEntries (p : PaymentIntent) (refundAmount : Int) (refundId : String)
    (reason : Option String) (env : Env) : List LedgerEntry :=
  pairEntries { bookingOf p ("refund:" ++ refundId) with
    metadata := [("stripe_refund_id", some refundId), ("reason", reason)] } env
    "payments_captured" (customerAccount p.customerId) refundAmount

theorem record_accrual (payload : Schemas.PaymentIntentCreate) (merchant : Option String)
    (o : StripeClient.StripeObject) (status : PaymentIntentStatus) (env : Env) :
    recordTransaction
        (pair (pendingAccount payload.customerId) "payments_authorised" payload.amount)
        { currency := payload.currency,
          paymentIntentId := some (newIntent payload merchant env o status).id,
          description := some "payment_intent.created" } env.bookingUuids env.now =
      .ok (accrual (newIntent payload merchant env o status) env) := by
  rw [recordTransaction_pair _ _ _ _ payload.amount_ge]
  simp [accrual, pairEntries, Booking.entry, bookingOf, newIntent, lower_lower]

theorem record_reversal {p : PaymentIntent} (h : 0 < p.amount) (env : Env) :
    recordTransaction (pair "payments_authorised" (pendingAccount p.customerId) p.amount)
        { currency := p.currency, paymentIntentId := some p.id,
          description := some "payment_intent.canceled" } env.bookingUuids env.now =
      .ok (reversal p env) :=
  recordTransaction_pair _ _ _ _ h

theorem record_capture (p : PaymentIntent) {amountReceived : Int} (h : 0 < amountReceived)
    (env : Env) :
    recordTransaction (pair "payments_authorised" "payments_captured" amountReceived)
        { currency := p.currency, paymentIntentId := some p.id,
          description := some "payment_intent.succeeded" } env.bookingUuids env.now =
      .ok (capture p amountReceived env) :=
  recordTransaction_pair _ _ _ _ h

theorem record_refund (p : PaymentIntent) {refundAmount : Int} (h : 0 < refundAmount)
    (refundId : String) (reason : Option String) (env : Env) :
    recordTransaction (pair "payments_captured" (customerAccount p.customerId) refundAmount)
        { currency := p.currency, paymentIntentId := some p.id,
          description := some ("refund:" ++ refundId),
          metadata := [("stripe_refund_id", some refundId), ("reason", reason)] }
        env.bookingUuids env.now =
      .ok (refundEntries p refundAmount refundId reason env) :=
  recordTransaction_pair _ _ _ _ h

theorem mem_pairEntries {b : Booking} {env : Env} {debited credited : String} {amount : Int}
    {e : LedgerEntry} (h : e ∈ pairEntries b env debited credited amount) :
    e.paymentIntentId = b.paymentIntentId ∧ e.description = b.description ∧ e.amount = amount := by
  obtain rfl | rfl := List.mem_pair.mp h <;> exact ⟨rfl, rfl, rfl⟩

variable {p : PaymentIntent} {env : Env} {e : LedgerEntry} {n : Int} {refundId : String}
  {reason : Option String}

theorem intent_of_accrual (h : e ∈ accrual p env) : e.paymentIntentId = some p.id :=
  (mem_pairEntries h).1

theorem intent_of_reversal (h : e ∈ reversal p env) : e.paymentIntentId = some p.id :=
  (mem_pairEntries h).1

theorem intent_of_capture (h : e ∈ capture p n env) : e.paymentIntentId = some p.id :=
  (mem_pairEntries h).1

theorem intent_of_refund (h : e ∈ refundEntries p n refundId reason env) :
    e.paymentIntentId = some p.id :=
  (mem_pairEntries h).1

def legOf (e : LedgerEntry) : LedgerLeg := ⟨e.account, e.direction, e.amount⟩

/-- The legs booked for an intent under a description, in the order of their booking. -/
def bookedAs (entries : List LedgerEntry) (paymentIntentId description : String) :
    List LedgerLeg :=
  (entries.filter (fun e => decide (e.paymentIntentId = some paymentIntentId ∧
    e.description = some description))).map legOf

variable {entries es : List LedgerEntry} {id description : String}

omit [StrLower]

@[simp] theorem bookedAs_nil (id description : String) : bookedAs [] id description = [] := rfl

theorem bookedAs_append : bookedAs (entries ++ es) id description =
    bookedAs entries id description ++ bookedAs es id description := by
  simp [bookedAs]

theorem bookedAs_other (h : ∀ e ∈ es, e.paymentIntentId ≠ some id) :
    bookedAs es id description = [] := by
  simp only [bookedAs, List.map_eq_nil_iff, List.filter_eq_nil_iff]
  intro e he
  simp [h e he]

theorem bookedAs_pairEntries [StrLower] {b : Booking} (hb : b.paymentIntentId = some id)
    (debited credited : String) (n : Int) :
    bookedAs (pairEntries b env debited credited n) id description =
      if b.description = some description then pair debited credited n else [] := by
  by_cases hd : b.description = some description <;>
    simp [bookedAs, pairEntries, Booking.entry, hb, hd, pair, legOf]

def bookedUnder (entries : List LedgerEntry) (description : String) : List LedgerLeg :=
  (entries.filter (fun e => decide (e.description = some description))).map legOf

@[simp] theorem bookedUnder_nil (description : String) : bookedUnder [] description = [] := rfl

theorem bookedUnder_append : bookedUnder (entries ++ es) description =
    bookedUnder entries description ++ bookedUnder es description := by
  simp [bookedUnder]

theorem bookedUnder_pairEntries [StrLower] {b : Booking} (debited credited : String) (n : Int) :
    bookedUnder (pairEntries b env debited credited n) description =
      if b.description = some description then pair debited credited n else [] := by
  by_cases hd : b.description = some description <;>
    simp [bookedUnder, pairEntries, Booking.entry, hd, pair, legOf]

theorem refund_description_ne (refundId : String)
    (h : description.toList.head? = some 'p') : "refund:" ++ refundId ≠ description := by
  rintro rfl
  simp at h

theorem refund_description_inj {refundId refundId' : String} :
    "refund:" ++ refundId = "refund:" ++ refundId' ↔ refundId = refundId' := by
  constructor
  · intro h
    have hl := congrArg String.toList h
    rw [String.toList_append, String.toList_append] at hl
    exact String.toList_injective (List.append_cancel_left hl)
  · rintro rfl
    rfl

theorem bookedUnder_refund [StrLower] (id : String) :
    bookedUnder (refundEntries p n refundId reason env) ("refund:" ++ id) =
      if id = refundId then pair "payments_captured" (customerAccount p.customerId) n else [] := by
  have hid : some ("refund:" ++ refundId) = some ("refund:" ++ id) ↔ id = refundId := by
    rw [Option.some.injEq, refund_description_inj, eq_comm]
  simp only [refundEntries, bookedUnder_pairEntries, bookingOf, hid]

/-- The entries in scope of a merchant are chosen by their intent alone. -/
def inScope (db : Db) (merchantId : Option String) (paymentIntentId : Option String) : Bool :=
  match merchantId with
  | none => true
  | some m =>
    match paymentIntentId.bind db.intentById with
    | some p => decide (p.merchantId = some m)
    | none => false

theorem scope_eq (db : Db) (merchantId : Option String) :
    scope db merchantId =
      db.ledgerEntries.filter (fun e => inScope db merchantId e.paymentIntentId) := by
  cases merchantId with
  | none => simp [scope, inScope]
  | some m => rfl

end SixGateway.Bookings
