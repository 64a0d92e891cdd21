import SixGateway.Concurrency
import SixGateway.Refunds
import Mathlib.Algebra.Order.BigOperators.Group.List

namespace SixGateway.RefundRace

open Library Library.Run Library.Pool Library.Journal Models Errors Database StripeClient
open LedgerService PaymentService Gateway Queries Bookings Effects Concurrency StripeContract
open Refunds

structure RefundRequest where
  idempotencyKey : String
  amount : Option Int
  reason : Option String
  env : Env

def IsRefundEntry (e : LedgerEntry) : Bool :=
  match e.description with
  | some d => decide ("refund:".toList <+: d.toList)
  | none => false

def refundedInLedger (entries : List LedgerEntry) (paymentIntentId : String) : Int :=
  sumOver LedgerEntry.amount (fun e => decide (e.paymentIntentId = some paymentIntentId ∧
    e.direction = .debit) && IsRefundEntry e) entries

/-- The row of the intent counts the refund pairs in the ledger, and no more than was received. -/
def Counted (id : String) (db : Db) : Prop :=
  ∀ p ∈ db.paymentIntents, p.id = id →
    p.amountRefunded = refundedInLedger db.ledgerEntries id ∧ p.amountRefunded ≤ p.amountReceived

instance (id : String) (db : Db) : Decidable (Counted id db) :=
  inferInstanceAs (Decidable (∀ p ∈ db.paymentIntents, _))

/-- What is assumed of Stripe: it accepts a refund only while the refunds it has accepted stay
within the captured amount. -/
def Within (st : Handlers PaymentIntent) (l : Label) : Prop :=
  ∀ c ∈ granting st l, ∀ f ∈ acceptedRefunds [(c.1, .ok c.2)], ∀ p ∈ st.store.paymentIntents,
    p.stripePaymentIntentId = some f.paymentIntent →
      refundedBy st.calls f.paymentIntent + f.amount ≤ p.amountReceived

/-- A row is updated only while its refunded amount is still the one that was read. -/
def Fresh (st : Handlers PaymentIntent) (l : Label) : Prop :=
  ∀ u ∈ updates (committing st l), ∀ p ∈ st.store.paymentIntents, p.id = u.1.id →
    p.amountRefunded = u.1.amountRefunded

instance (st : Handlers PaymentIntent) (l : Label) : Decidable (Within st l) :=
  inferInstanceAs (Decidable (∀ c ∈ granting st l, _))

section

variable [StrLower]

def RefundRequest.handler (id : String) (r : RefundRequest) : Service PaymentIntent :=
  refundIntent id r.idempotencyKey r.amount r.reason r.env

def refunding (db : Db) (calls : Calls) (id : String) (rs : List RefundRequest) :
    Handlers PaymentIntent :=
  ⟨db, calls, rs.map (RefundRequest.handler id)⟩

def booking (loaded : PaymentIntent) (n : Int) (refundId : String) (reason : Option String)
    (env : Env) : Service PaymentIntent :=
  .commit [.updateIntent loaded { loaded with amountRefunded := loaded.amountRefunded + n } env.now,
    .insertEntries (refundEntries loaded n refundId reason env)] (refresh loaded)

/-- Where a refund of the intent can be in its handler. -/
inductive Refunding (id stripeId : String) : Service PaymentIntent → Prop
  | looking (key : String) (amount : Option Int) (reason : Option String) (env : Env) :
      Refunding id stripeId (refundIntent id key amount reason env)
  | asking (loaded : PaymentIntent) (named : loaded.id = id) (n : Int) (positive : 0 < n)
      (key : String) (reason : Option String) (env : Env) : Refunding id stripeId
        (.call (createRefund stripeId n key reason) (refundAnswered loaded n reason env))
  | booking (loaded : PaymentIntent) (named : loaded.id = id) (n : Int) (positive : 0 < n)
      (refundId : String) (reason : Option String) (env : Env) :
      Refunding id stripeId (booking loaded n refundId reason env)
  | refreshing (p : PaymentIntent) : Refunding id stripeId (refresh p)
  | returned (p : PaymentIntent) : Refunding id stripeId (.ret p)
  | raised (e : Exn) : Refunding id stripeId (.raise e)

/-- What a handler has been granted by Stripe and has still to book. -/
def owed (id : String) : Service PaymentIntent → Int
  | .commit [.updateIntent _ _ _, .insertEntries es] _ => refundedInLedger es id
  | _ => 0

/-- What holds at every point of a pool of refunds, whether or not one of them is lost: all that
is booked or still to be booked has been accepted by Stripe. -/
structure Pooled (id stripeId : String) (received : Int) (st : Handlers PaymentIntent) : Prop where
  row : ∃ p ∈ st.store.paymentIntents, p.id = id ∧ p.stripePaymentIntentId = some stripeId ∧
    p.amountReceived = received
  threads : ∀ t ∈ st.threads, Refunding id stripeId t
  booked : refundedInLedger st.store.ledgerEntries id + (st.threads.map (owed id)).sum ≤
    refundedBy st.calls stripeId
  accepted : refundedBy st.calls stripeId ≤ received

variable {id stripeId : String} {received : Int} {st st' : Handlers PaymentIntent} {l : Label}
  {db db' : Db} {loaded : PaymentIntent} {n : Int} {refundId key : String} {reason : Option String} {env : Env}

omit [StrLower] in
theorem refundedInLedger_append (entries es : List LedgerEntry) :
    refundedInLedger (entries ++ es) id = refundedInLedger entries id + refundedInLedger es id :=
  sumOver_append ..

theorem refundedInLedger_refund (h : loaded.id = id) :
    refundedInLedger (refundEntries loaded n refundId reason env) id = n := by
  simp [refundedInLedger, refundEntries, pairEntries, Booking.entry, bookingOf, IsRefundEntry,
    sumOver_cons, h]

theorem owed_booking (h : loaded.id = id) :
    owed id (booking loaded n refundId reason env) = n := refundedInLedger_refund h

theorem owed_nonneg {t : Service PaymentIntent} (h : Refunding id stripeId t) : 0 ≤ owed id t := by
  cases h with
  | booking loaded named n positive =>
    rw [owed_booking named]
    exact positive.le
  | looking => exact le_refl 0
  | asking => exact le_refl 0
  | refreshing => exact le_refl 0
  | returned => exact le_refl 0
  | raised => exact le_refl 0

theorem refunding_loaded (hrow : ∃ p ∈ db.paymentIntents, p.id = id ∧
    p.stripePaymentIntentId = some stripeId ∧ p.amountReceived = received)
    (amount : Option Int) : let t := refundLoaded id key amount reason env (db.intentById id)
    Refunding id stripeId t ∧ owed id t = 0 := by
  obtain ⟨p, hp, hid, hs, -⟩ := hrow
  rw [← hid, intentById_of_mem hp]
  simp only [refundLoaded]
  split
  · exact ⟨.raised _, rfl⟩
  · split
    · exact ⟨.raised _, rfl⟩
    · next s hts =>
      obtain rfl : stripeId = s := Option.some.inj (hs.symm.trans (truthy_some hts))
      split
      · exact ⟨.raised _, rfl⟩
      · split
        · exact ⟨.raised _, rfl⟩
        · next hn => exact ⟨.asking p rfl _ (by omega) key reason env, rfl⟩

theorem refundAnswered_ok (positive : 0 < n) (o : StripeObject) :
    refundAnswered loaded n reason env (.ok o) = booking loaded n o.id reason env := by
  simp only [refundAnswered, record_refund loaded positive]
  rfl

omit [StrLower] in
theorem refundedBy_refund (stripeId : String) (n : Int) (key : String) (reason : Option String)
    (o : StripeObject) : refundedBy [(createRefund stripeId n key reason, .ok o)] stripeId = n := by
  simp [refundedBy, acceptedRefunds, createRefund]

theorem commit_refund (h : db.references (some loaded.id) = true) :
    commit [.updateIntent loaded { loaded with amountRefunded := loaded.amountRefunded + n }
      env.now, .insertEntries (refundEntries loaded n refundId reason env)] db =
      .ok ((db.updateIntent loaded { loaded with amountRefunded := loaded.amountRefunded + n }
        env.now).post (refundEntries loaded n refundId reason env)) :=
  commit_booking h (fun _ => intent_of_refund)

/-- One handler moves: what it books and what it comes to owe has been accepted before. -/
theorem Pooled.moved (h : Pooled id stripeId received st) {i : Nat} {t u : Service PaymentIntent}
    (hi : st.threads[i]? = some t) (hu : Refunding id stripeId u) {db : Db} {calls : Calls}
    (row : ∃ p ∈ db.paymentIntents, p.id = id ∧ p.stripePaymentIntentId = some stripeId ∧
      p.amountReceived = received)
    (booked : refundedInLedger db.ledgerEntries id + owed id u - refundedBy calls stripeId =
      refundedInLedger st.store.ledgerEntries id + owed id t - refundedBy st.calls stripeId)
    (accepted : refundedBy calls stripeId ≤ received) :
    Pooled id stripeId received ⟨db, calls, st.threads.set i u⟩ := by
  refine ⟨row, fun v hv => ?_, ?_, accepted⟩
  · obtain hv | rfl := List.mem_or_eq_of_mem_set hv
    · exact h.threads v hv
    · exact hu
  · have hsum : ((st.threads.set i u).map (owed id)).sum = _ := sum_set (owed id) hi
    have hb := h.booked
    simp only [hsum]
    omega

theorem Refunding.read {k : Db → Service PaymentIntent}
    (h : Refunding id stripeId (.read k)) (hrow : ∃ p ∈ db.paymentIntents, p.id = id ∧
      p.stripePaymentIntentId = some stripeId ∧ p.amountReceived = received) :
    Refunding id stripeId (k db) ∧ owed id (k db) = 0 := by
  cases h with
  | looking key amount reason env => exact refunding_loaded hrow amount
  | refreshing p => exact ⟨.returned _, rfl⟩

omit [StrLower] in
theorem mem_refunded {q : PaymentIntent} (positive : 0 < n)
    (hq : q ∈ (db.updateIntent loaded { loaded with amountRefunded := loaded.amountRefunded + n }
      env.now).paymentIntents) (hid : q.id = loaded.id) :
    ∃ p ∈ db.paymentIntents, p.id = loaded.id ∧ q.stripePaymentIntentId = p.stripePaymentIntentId ∧
      q.amountReceived = p.amountReceived ∧ q.amountRefunded = loaded.amountRefunded + n := by
  obtain ⟨p, hp, rfl⟩ := mem_updateIntent.mp hq
  split at hid
  · next h =>
    refine ⟨p, hp, h, ?_⟩
    rw [if_pos h]
    exact ⟨rfl, if_pos rfl, if_neg (by simp; omega)⟩
  · next h => exact absurd hid h

theorem pooled_step (h : Pooled id stripeId received st) (hw : Within st l)
    (hst : step commit st l = some st') : Pooled id stripeId received st' := by
  have hrow := h.row
  obtain ⟨p, hp, hid, hs, hreceived⟩ := hrow
  cases step_moves hst with
  | read i k hi =>
    obtain ⟨hu, ho⟩ := (h.threads _ (List.mem_of_getElem? hi)).read h.row
    exact h.moved hi hu h.row (by rw [ho]; rfl) h.accepted
  | committed i t k hi db hdb =>
    cases h.threads _ (List.mem_of_getElem? hi) with
    | booking loaded named n positive refundId reason env =>
      have href : st.store.references (some loaded.id) = true :=
        references_some.mpr ⟨p, hp, hid.trans named.symm⟩
      rw [commit_refund href] at hdb
      cases hdb
      refine h.moved hi (.refreshing loaded) ?_ ?_ h.accepted
      · have hq := (@mem_updateIntent st.store _ loaded { loaded with
          amountRefunded := loaded.amountRefunded + n } env.now).mpr ⟨p, hp, rfl⟩
        rw [if_pos (hid.trans named.symm)] at hq
        exact ⟨_, hq, hid, hs, (if_pos rfl).trans hreceived⟩
      · rw [ledgerEntries_post, ledgerEntries_updateIntent, refundedInLedger_append,
          refundedInLedger_refund named]
        change _ + _ + 0 - _ = _ + owed id (booking loaded n refundId reason env) - _
        rw [owed_booking named, add_zero]
  | refused i t k hi e he =>
    cases h.threads _ (List.mem_of_getElem? hi) with
    | booking loaded named n positive refundId reason env =>
      rw [commit_refund (references_some.mpr ⟨p, hp, hid.trans named.symm⟩)] at he
      cases he
  | answered i q k hi r =>
    cases h.threads _ (List.mem_of_getElem? hi) with
    | asking loaded named n positive key reason env =>
      cases r with
      | error m =>
        have hnone : refundedBy (st.calls ++ [(createRefund stripeId n key reason, .error m)])
            stripeId = refundedBy st.calls stripeId := by
          rw [refundedBy_append]
          exact add_zero _
        refine h.moved hi (.raised _) h.row ?_ (hnone.trans_le h.accepted)
        rw [hnone]
        rfl
      | ok o =>
        have hsome : refundedBy (st.calls ++ [(createRefund stripeId n key reason, .ok o)])
            stripeId = refundedBy st.calls stripeId + n := by
          rw [refundedBy_append, refundedBy_refund]
        rw [refundAnswered_ok positive]
        refine h.moved hi (.booking loaded named n positive o.id reason env) h.row ?_ ?_
        · rw [hsome, owed_booking named]
          change _ + n - (_ + n) = _ + 0 - _
          omega
        · rw [hsome, ← hreceived]
          exact hw _ (granting_call hi) ⟨o.id, stripeId, n⟩ (by simp [acceptedRefunds, createRefund])
            p hp hs

/-- A step keeps the row and the ledger together exactly when it is fresh. -/
theorem counted_step (h : Pooled id stripeId received st) (hw : Within st l)
    (hc : Counted id st.store) (hst : step commit st l = some st') :
    Counted id st'.store ↔ Fresh st l := by
  have h' := pooled_step h hw hst
  cases step_moves hst with
  | read i k hi =>
    refine iff_of_true hc ?_
    simp [Fresh, committing_read hi, updates]
  | committed i t k hi db hdb =>
    obtain ⟨p, hp, hid, hs, hreceived⟩ := h.row
    cases h.threads _ (List.mem_of_getElem? hi) with
    | booking loaded named n positive refundId reason env =>
      have hlp : p.id = loaded.id := hid.trans named.symm
      have hcommitting := committing_commit hi hdb
      rw [commit_refund (references_some.mpr ⟨p, hp, hlp⟩)] at hdb
      cases hdb
      have hledger : refundedInLedger (st.store.ledgerEntries ++ refundEntries loaded n refundId
          reason env) id = refundedInLedger st.store.ledgerEntries id + n := by
        rw [refundedInLedger_append, refundedInLedger_refund named]
      have hbound := h'.booked.trans h'.accepted
      have howed : 0 ≤ ((st.threads.set i (refresh loaded)).map (owed id)).sum :=
        List.sum_nonneg (by
          simp only [List.mem_map]
          rintro _ ⟨t, ht, rfl⟩
          exact owed_nonneg (h'.threads t ht))
      simp only [ledgerEntries_post, ledgerEntries_updateIntent, hledger] at hbound
      have hcounted := (hc p hp hid).1
      have hfresh : Fresh st (i, .run) ↔ ∀ q ∈ st.store.paymentIntents, q.id = loaded.id →
          q.amountRefunded = loaded.amountRefunded := by
        simp [Fresh, hcommitting, updates]
      rw [hfresh]
      constructor
      · intro hcount q hq hqid
        obtain rfl := eq_of_id hq hp (hqid.trans hlp.symm)
        have hm := (@mem_updateIntent st.store _ loaded { loaded with
          amountRefunded := loaded.amountRefunded + n } env.now).mpr ⟨q, hq, rfl⟩
        rw [if_pos hlp] at hm
        obtain ⟨-, -, -, -, -, hrefunded⟩ := mem_refunded positive hm hlp
        have hq' := (hcount _ hm hid).1
        rw [hrefunded, ledgerEntries_post, ledgerEntries_updateIntent, hledger] at hq'
        omega
      · intro hread q hq hqid
        obtain ⟨p', hp', hid', -, hrec, hrefunded⟩ := mem_refunded positive hq
          (hqid.trans named.symm)
        obtain rfl := eq_of_id hp hp' (hlp.trans hid'.symm)
        have hreadp := hread p hp hlp
        rw [ledgerEntries_post, ledgerEntries_updateIntent, hledger, hrefunded, hrec, hreceived]
        constructor <;> omega
  | refused i t k hi e he =>
    obtain ⟨p, hp, hid, -⟩ := h.row
    cases h.threads _ (List.mem_of_getElem? hi) with
    | booking loaded named n positive refundId reason env =>
      rw [commit_refund (references_some.mpr ⟨p, hp, hid.trans named.symm⟩)] at he
      cases he
  | answered i q k hi r =>
    refine iff_of_true hc ?_
    simp [Fresh, committing, updates]

/-- However many refunds of one intent run side by side, none of them is lost exactly when each
commits while the row still shows the refunded amount that it has read. -/
theorem refunds_counted_iff {p : PaymentIntent} (hp : p ∈ db.paymentIntents)
    (stripe : p.stripePaymentIntentId = some stripeId) (counted : Counted p.id db) (calls : Calls)
    (booked : refundedBy calls stripeId = p.amountRefunded) (rs : List RefundRequest)
    (ls : List Label) (within : Along (step commit) Within (refunding db calls p.id rs) ls) :
    Always (step commit) (fun st => Counted p.id st.store) (refunding db calls p.id rs) ls ↔
      Along (step commit) Fresh (refunding db calls p.id rs) ls := by
  obtain ⟨hledger, hle⟩ := counted p hp rfl
  have hstart : Pooled p.id stripeId p.amountReceived (refunding db calls p.id rs) := by
    refine ⟨⟨p, hp, rfl, stripe, rfl⟩, ?_, ?_, booked.trans_le hle⟩
    · simp only [refunding, List.mem_map]
      rintro _ ⟨r, -, rfl⟩
      exact .looking r.idempotencyKey r.amount r.reason r.env
    · have hzero : ((rs.map (RefundRequest.handler p.id)).map (owed p.id)).sum = 0 :=
        List.sum_eq_zero (by
          simp only [List.mem_map]
          rintro _ ⟨_, ⟨r, -, rfl⟩, rfl⟩
          rfl)
      simp only [refunding, hzero, booked, hledger, add_zero, le_refl]
  refine always_iff_along (I := Pooled p.id stripeId p.amountReceived) ?_ ?_ ?_ hstart counted within
  · exact fun st l st' h hw hst => pooled_step h hw hst
  · exact fun st l st' h hw hc hst => counted_step h hw hc hst
  · intro st l hidle
    simp [Fresh, committing_idle hidle, updates]

end

def captured : World := World.empty.afterAll settledOrder

def twoRefunds : Handlers PaymentIntent := refunding captured.db captured.calls "pi_local_i"
  [⟨"refund-1", some 300, none, clock 2⟩, ⟨"refund-2", some 400, none, clock 3⟩]

def granted (refundId : String) : Act StripeAnswer := .answer (.ok ⟨refundId, "succeeded", none⟩)

/-- Two refunds that both read before either commits: 700 is booked and the row says 400. -/
theorem refund_lost :
    let ls := [(0, .run), (1, .run), (0, granted "re_1"), (1, granted "re_2"), (0, .run), (1, .run)]
    Counted "pi_local_i" twoRefunds.store ∧ refundedBy twoRefunds.calls "pi_1" = 0 ∧
      Along (step commit) Within twoRefunds ls ∧
      ¬ Always (step commit) (fun st => Counted "pi_local_i" st.store) twoRefunds ls := by
  decide +kernel

/-- The same refunds one after the other. -/
theorem refunds_counted_two :
    let ls := [(0, .run), (0, granted "re_1"), (0, .run), (1, .run), (1, granted "re_2"), (1, .run)]
    Always (step commit) (fun st => Counted "pi_local_i" st.store) twoRefunds ls ↔
      Along (step commit) Fresh twoRefunds ls := by
  obtain ⟨p, hp, hid, hs, hr⟩ : ∃ p ∈ captured.db.paymentIntents, p.id = "pi_local_i" ∧
      p.stripePaymentIntentId = some "pi_1" ∧ p.amountRefunded = 0 := by decide +kernel
  intro ls
  have hw : Along (step commit) Within twoRefunds ls := by decide +kernel
  have hc : Counted "pi_local_i" captured.db := by decide +kernel
  have hb : refundedBy captured.calls "pi_1" = 0 := by decide +kernel
  rw [twoRefunds, ← hid] at hw ⊢
  exact refunds_counted_iff hp hs (hid ▸ hc) captured.calls (hb.trans hr.symm) _ ls hw

end SixGateway.RefundRace
