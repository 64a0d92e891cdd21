import SixGateway.Lifecycle
import SixGateway.Effects

namespace SixGateway.Positions

open Library.Journal Models Database LedgerService PaymentService Queries Bookings Lifecycle

def account (customerId : Option String) : Role → String
  | .authorised => "payments_authorised"
  | .pending => pendingAccount customerId
  | .captured => "payments_captured"
  | .customer => customerAccount customerId

theorem account_injective (customerId : Option String) :
    Function.Injective (account customerId) := by
  intro r s h
  unfold account pendingAccount customerAccount at h
  have hl := congrArg String.toList h
  cases r <;> cases s <;>
    first
      | rfl
      | simp at hl

def net (entries : List LedgerEntry) (paymentIntentId acct : String) : Int :=
  sumOver LedgerEntry.signed
    (fun e => decide (e.paymentIntentId = some paymentIntentId ∧ e.account = acct)) entries

variable {entries es : List LedgerEntry} {p q : PaymentIntent} {a b : Payment} {env : Env}

theorem net_append (id acct : String) :
    net (entries ++ es) id acct = net entries id acct + net es id acct := sumOver_append ..

theorem net_eq_zero {id : String} (acct : String) (h : ∀ e ∈ es, e.paymentIntentId ≠ some id) :
    net es id acct = 0 :=
  sumOver_eq_zero (fun e he => by simp [h e he])

theorem net_pairEntries [StrLower] {bk : Booking} {id : String} (hb : bk.paymentIntentId = some id)
    (customerId : Option String) (debited credited role : Role) (n : Int) :
    net (pairEntries bk env (account customerId debited) (account customerId credited) n) id
      (account customerId role) = transfer debited credited n role := by
  have hi : ∀ r s : Role, (account customerId r = account customerId s) = (s = r) :=
    fun r s => propext ⟨fun h => (account_injective customerId h).symm, fun h => by rw [h]⟩
  simp only [net, pairEntries, sumOver_cons, sumOver_nil, Booking.entry, hb, true_and, hi,
    decide_eq_true_eq, LedgerEntry.signed, transfer, add_zero]
  split <;> split <;> omega

def phaseOf : PaymentIntentStatus → Phase
  | .succeeded => .captured
  | .canceled => .reversed
  | _ => .authorised

/-- A row and its entries show the payment `a`. -/
structure Represents (entries : List LedgerEntry) (p : PaymentIntent) (a : Payment) : Prop where
  amount : a.amount = p.amount
  received : a.received = p.amountReceived
  refunded : a.refunded = p.amountRefunded
  phase : a.phase = phaseOf p.status
  net : ∀ role, net entries p.id (account p.customerId role) = a.net role

theorem phaseOf_captured {s : PaymentIntentStatus} : phaseOf s = .captured ↔ s = .succeeded := by
  cases s <;> simp [phaseOf]

theorem phaseOf_reversed {s : PaymentIntentStatus} : phaseOf s = .reversed ↔ s = .canceled := by
  cases s <;> simp [phaseOf]

theorem phaseOf_authorised {s : PaymentIntentStatus} (hs : s ≠ .succeeded) (hc : s ≠ .canceled) :
    phaseOf s = .authorised := by
  cases s <;> simp_all [phaseOf]

theorem Represents.step [StrLower] (h : Represents entries p a) {bk : Booking}
    (hb : bk.paymentIntentId = some p.id) (debited credited : Role) (n : Int)
    (hn : ∀ role, b.net role = a.net role + transfer debited credited n role)
    (hid : q.id = p.id) (hcustomer : q.customerId = p.customerId) (hamount : b.amount = q.amount)
    (hreceived : b.received = q.amountReceived) (hrefunded : b.refunded = q.amountRefunded)
    (hphase : b.phase = phaseOf q.status) :
    Represents (entries ++ pairEntries bk env (account p.customerId debited)
      (account p.customerId credited) n) q b := by
  refine ⟨hamount, hreceived, hrefunded, hphase, fun role => ?_⟩
  rw [net_append, hid, hcustomer, h.net, net_pairEntries hb, hn]

theorem Represents.other (h : Represents entries p a)
    (hes : ∀ e ∈ es, e.paymentIntentId ≠ some p.id) : Represents (entries ++ es) p a :=
  ⟨h.amount, h.received, h.refunded, h.phase,
    fun role => by rw [net_append, net_eq_zero _ hes, h.net, add_zero]⟩

end SixGateway.Positions
