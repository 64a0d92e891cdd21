import SixGateway.DayRuns

namespace SixGateway.FalseAlarms

open Library Models Database StripeClient Reconciliation Queries DayRuns

def listed (book : List BalanceTransaction) (createdGte createdLt : Int) (types : List String) :
    List BalanceTransaction :=
  types.flatMap (fun t => book.filter (fun bt =>
    decide (bt.type = t) && decide (createdGte ≤ bt.created ∧ bt.created < createdLt)))

def runOf (book : List BalanceTransaction) (db : Db) (day : Int) : ReconciliationRun :=
  reconcileDay day (listed book (timestamp (startOf day)) (timestamp (startOf day + hours 24))
    reconciledTypes) db

def ofType (book : List BalanceTransaction) (pi type : String) : List BalanceTransaction :=
  book.filter (fun bt => decide (bt.type = type) && isOf pi bt)

def activity (book : List BalanceTransaction) (pi : String) : List BalanceTransaction :=
  reconciledTypes.flatMap (ofType book pi)

/-- The amounts of each payment that succeeded mirror its charges and refunds at Stripe. -/
def Faithful (book : List BalanceTransaction) (db : Db) : Prop :=
  ∀ p ∈ db.paymentIntents, ∀ pi, p.stripePaymentIntentId = some pi → p.status = .succeeded →
    net (ofType book pi "charge") = p.amountReceived ∧
      net (ofType book pi "refund") = -p.amountRefunded

def onDay (day : Int) (bt : BalanceTransaction) : Bool :=
  decide (timestamp (startOf day) ≤ bt.created ∧ bt.created < timestamp (startOf day + hours 24))

def changedOn (day : Int) (p : PaymentIntent) : Prop :=
  startOf day ≤ p.updatedAt ∧ p.updatedAt < startOf day + hours 24

instance (day : Int) (p : PaymentIntent) : Decidable (changedOn day p) :=
  inferInstanceAs (Decidable (_ ∧ _))

/-- The run reports nothing but payments at Stripe that have no local row. -/
def OnlyUnknown (db : Db) (run : ReconciliationRun) : Prop :=
  ∀ m ∈ run.mismatches, ∃ pi amount, m = .missingInternal pi amount ∧
    ∀ p ∈ db.paymentIntents, p.stripePaymentIntentId ≠ some pi

def within (book : List BalanceTransaction) (day : Int) (pi : String) : List BalanceTransaction :=
  (activity book pi).filter (onDay day)

def outside (book : List BalanceTransaction) (day : Int) (pi : String) : List BalanceTransaction :=
  (activity book pi).filter (fun bt => !onDay day bt)

/-- The payment does not straddle the day. A row that succeeded and was last changed on the day has
transactions on it, and those of other days net to zero; any other row has none on the day. -/
def Settled (book : List BalanceTransaction) (day : Int) (p : PaymentIntent) (pi : String) :
    Prop :=
  if p.status = .succeeded ∧ changedOn day p then
    within book day pi ≠ [] ∧ net (outside book day pi) = 0
  else within book day pi = []

variable {book : List BalanceTransaction} {db : Db} {day : Int} {p : PaymentIntent} {pi : String}

theorem net_within_add_outside : net (within book day pi) + net (outside book day pi) =
    net (activity book pi) := by
  simp only [within, outside]
  induction activity book pi with
  | nil => rfl
  | cons bt bts ih => cases h : onDay day bt <;> simp [net, h] at ih ⊢ <;> omega

theorem listed_filter : (listed book (timestamp (startOf day))
    (timestamp (startOf day + hours 24)) reconciledTypes).filter (isOf pi) =
      within book day pi := by
  simp only [listed, within, activity, ofType, List.filter_flatMap, List.filter_filter]
  refine List.flatMap_congr (fun t _ => List.filter_congr (fun bt _ => ?_))
  simp only [onDay, Bool.and_assoc, Bool.and_comm, Bool.and_left_comm]

theorem net_activity (h : Faithful book db) (hp : p ∈ db.paymentIntents)
    (hpi : p.stripePaymentIntentId = some pi) (hs : p.status = .succeeded) :
    net (activity book pi) = p.amountReceived - p.amountRefunded := by
  obtain ⟨hc, hr⟩ := h p hp pi hpi hs
  simp only [net] at hc hr
  simp [net, activity, reconciledTypes, hc, hr, sub_eq_add_neg]

theorem onlyUnknown_iff {bts : List BalanceTransaction} :
    OnlyUnknown db (reconcileDay day bts db) ↔
      ∀ p ∈ db.paymentIntents, ∀ pi, p.stripePaymentIntentId = some pi →
        (stripeByPi bts).get? pi = (internalOn day db).get? pi := by
  constructor
  · intro h p hp pi hpi
    by_contra hne
    obtain ⟨m, hm, hid⟩ := reported_iff.mpr hne
    obtain ⟨i, amount, rfl, hunknown⟩ := h m hm
    obtain rfl : i = pi := hid
    exact hunknown p hp hpi
  · intro h m hm
    obtain ⟨pi, hkey, hc⟩ := mem_mismatches.mp hm
    have hid := classify_id hc
    have hne := reported_iff.mp ⟨m, hm, hid⟩
    have hunknown : ∀ p ∈ db.paymentIntents, p.stripePaymentIntentId ≠ some pi :=
      fun p hp hpi => hne (h p hp pi hpi)
    have hinternal : (internalOn day db).get? pi = none := by
      refine Option.eq_none_iff_forall_ne_some.mpr (fun n hn => ?_)
      obtain ⟨p, hp, hpi, -⟩ := internalOn_get.mp hn
      exact hunknown p (mem_updatedOn.mp hp).1 hpi
    cases hs : (stripeByPi bts).get? pi with
    | none => simp [hs, hinternal] at hkey
    | some n =>
      simp only [classify, hs, hinternal, Option.some.injEq] at hc
      exact ⟨pi, n, hc.symm, hunknown⟩

theorem internalOn_eq (hp : p ∈ db.paymentIntents) (hpi : p.stripePaymentIntentId = some pi) :
    (internalOn day db).get? pi = if p.status = .succeeded ∧ changedOn day p then
      some (p.amountReceived - p.amountRefunded) else none := by
  refine Option.ext (fun n => ?_)
  rw [internalOn_get]
  constructor
  · rintro ⟨q, hq, hqi, hs, rfl⟩
    obtain ⟨hq, -, hday⟩ := mem_updatedOn.mp hq
    obtain rfl := eq_of_stripeId hp hq hpi hqi
    rw [if_pos ⟨hs, hday⟩]
  · split
    · next h =>
      intro hn
      exact ⟨p, mem_updatedOn.mpr ⟨hp, by simp [hpi], h.2⟩, hpi, h.1, Option.some.inj hn⟩
    · intro hn
      cases hn

/-- Over a faithful history, a run reports no known payment exactly when none straddles its day. -/
theorem no_false_alarm_iff (book : List BalanceTransaction) (db : Db) (h : Faithful book db)
    (day : Int) : OnlyUnknown db (runOf book db day) ↔
      ∀ p ∈ db.paymentIntents, ∀ pi, p.stripePaymentIntentId = some pi →
        Settled book day p pi := by
  rw [runOf, onlyUnknown_iff]
  refine forall₂_congr (fun p hp => forall₂_congr (fun pi hpi => ?_))
  rw [internalOn_eq hp hpi, stripeByPi_get, listed_filter, Settled]
  have hsum : net (within book day pi) + net (outside book day pi) = net (activity book pi) :=
    net_within_add_outside
  by_cases hin : p.status = .succeeded ∧ changedOn day p
  · rw [if_pos hin, if_pos hin]
    rw [net_activity h hp hpi hin.1] at hsum
    by_cases hnil : within book day pi = []
    · simp [hnil]
    · simp only [hnil, if_false, Option.some.injEq, ne_eq, not_false_eq_true, true_and]
      omega
  · rw [if_neg hin, if_neg hin]
    simp

/-- A payment that is captured once and refunded by no more than was captured. -/
structure Ordinary (book : List BalanceTransaction) (pi : String) (charge : BalanceTransaction)
    (refunds : List BalanceTransaction) : Prop where
  activity : activity book pi = charge :: refunds
  refunds_neg : ∀ r ∈ refunds, r.amount < 0
  net_nonneg : 0 ≤ net (charge :: refunds)

theorem net_neg {bts : List BalanceTransaction} (h : ∀ bt ∈ bts, bt.amount < 0) (hne : bts ≠ []) :
    net bts < 0 := by
  induction bts with
  | nil => exact absurd rfl hne
  | cons bt bts ih =>
    have hbt := h bt List.mem_cons_self
    rw [net, List.map_cons, List.sum_cons, ← net]
    by_cases hnil : bts = []
    · simp [hnil, net, hbt]
    · have := ih (fun b hb => h b (List.mem_cons_of_mem _ hb)) hnil
      omega

theorem Ordinary.filter_eq_nil {charge : BalanceTransaction} {refunds : List BalanceTransaction}
    (h : Ordinary book pi charge refunds) {f : BalanceTransaction → Bool}
    (hn : 0 ≤ net (refunds.filter f)) : refunds.filter f = [] := by
  by_contra hne
  have hneg := net_neg (fun r hr => h.refunds_neg r (List.mem_of_mem_filter hr)) hne
  omega

/-- Such a payment settles on a day exactly when all that happened to it, the last change of its
row included, falls on that day, or none of it does. -/
theorem settled_iff_one_day {charge : BalanceTransaction} {refunds : List BalanceTransaction}
    (h : Ordinary book pi charge refunds) (hs : p.status = .succeeded) :
    Settled book day p pi ↔
      (changedOn day p ∧ ∀ bt ∈ activity book pi, onDay day bt = true) ∨
        (¬ changedOn day p ∧ ∀ bt ∈ activity book pi, onDay day bt = false) := by
  have hsum : net (within book day pi) + net (outside book day pi) = net (activity book pi) :=
    net_within_add_outside
  have hnonneg := h.net_nonneg
  by_cases hday : changedOn day p
  · simp only [Settled, hs, hday, and_self, if_true, true_and, not_true, false_and, or_false]
    constructor
    · rintro ⟨hne, hzero⟩
      have hcharge : onDay day charge = true := by
        by_contra hoff
        have hin : within book day pi = refunds.filter (onDay day) := by
          rw [within, h.activity, List.filter_cons_of_neg hoff]
        refine hne (hin.trans (h.filter_eq_nil ?_))
        rw [h.activity] at hsum
        rw [← hin]
        omega
      have hout : outside book day pi = refunds.filter (fun bt => !onDay day bt) := by
        rw [outside, h.activity, List.filter_cons_of_neg (by simp [hcharge])]
      have hnil : refunds.filter (fun bt => !onDay day bt) = [] :=
        h.filter_eq_nil (hout ▸ hzero.ge)
      rw [h.activity, List.forall_mem_cons]
      exact ⟨hcharge, by simpa [List.filter_eq_nil_iff] using hnil⟩
    · intro hall
      have hout : outside book day pi = [] := by simpa [outside, List.filter_eq_nil_iff] using hall
      have hin : within book day pi = activity book pi := List.filter_eq_self.mpr hall
      exact ⟨by simp [hin, h.activity], by simp [hout, net]⟩
  · simp [Settled, hday, within, List.filter_eq_nil_iff]

def balanceTransaction (type : String) (amount created : Int) : BalanceTransaction :=
  ⟨type, type, amount, created, .expanded (.id "pi_1")⟩

/-- A payment of 1000 of which 300 are refunded, last changed at the given second. -/
def refundedAt (created : Int) : PaymentIntent where
  id := "pi_local_1"
  stripePaymentIntentId := some "pi_1"
  idempotencyKey := "order-0001"
  amount := 1000
  currency := "usd"
  amountReceived := 1000
  amountRefunded := 300
  status := .succeeded
  merchantId := none
  customerId := none
  description := none
  clientSecret := none
  paymentMetadata := []
  createdAt := 0
  updatedAt := created * 1000000

def holding (p : PaymentIntent) : Db :=
  { Db.empty with paymentIntents := ⟨[p], List.pairwise_singleton _ _⟩ }

/-- The charge falls on the first day and the refund at the given second. -/
def bookOf (created : Int) : List BalanceTransaction :=
  [balanceTransaction "charge" 1000 3600, balanceTransaction "refund" (-300) created]

theorem faithful_bookOf (created : Int) :
    Faithful (bookOf created) (holding (refundedAt created)) := by
  intro p hp pi hpi _
  obtain rfl : p = refundedAt created := List.mem_singleton.mp hp
  obtain rfl : "pi_1" = pi := Option.some.inj hpi
  simp [ofType, bookOf, isOf, btPaymentIntentId, balanceTransaction, net, refundedAt]

theorem no_false_alarm_same_day :
    OnlyUnknown (holding (refundedAt 7200)) (runOf (bookOf 7200) (holding (refundedAt 7200)) 0) ↔
      ∀ p ∈ (holding (refundedAt 7200)).paymentIntents, ∀ pi,
        p.stripePaymentIntentId = some pi → Settled (bookOf 7200) 0 p pi :=
  no_false_alarm_iff _ _ (faithful_bookOf 7200) 0

/-- When the refund falls on the second day, the run of either day reports the payment. -/
theorem next_day_refund_reported :
    Faithful (bookOf 90000) (holding (refundedAt 90000)) ∧
      (runOf (bookOf 90000) (holding (refundedAt 90000)) 0).mismatches =
        [.missingInternal "pi_1" 1000] ∧
      (runOf (bookOf 90000) (holding (refundedAt 90000)) 1).mismatches =
        [.amountMismatch "pi_1" (-300) 700 (-1000)] ∧
      ∀ day ∈ [0, 1], ¬ OnlyUnknown (holding (refundedAt 90000))
        (runOf (bookOf 90000) (holding (refundedAt 90000)) day) := by
  have h0 : (runOf (bookOf 90000) (holding (refundedAt 90000)) 0).mismatches =
      [.missingInternal "pi_1" 1000] := by decide +kernel
  have h1 : (runOf (bookOf 90000) (holding (refundedAt 90000)) 1).mismatches =
      [.amountMismatch "pi_1" (-300) 700 (-1000)] := by decide +kernel
  refine ⟨faithful_bookOf 90000, h0, h1, ?_⟩
  intro day hday hquiet
  obtain rfl | hday := List.mem_cons.mp hday
  · obtain ⟨pi, amount, heq, hunknown⟩ := hquiet _ (h0 ▸ List.mem_singleton_self _)
    cases heq
    exact hunknown _ (List.mem_singleton_self _) rfl
  · obtain rfl := List.mem_singleton.mp hday
    obtain ⟨pi, amount, heq, -⟩ := hquiet _ (h1 ▸ List.mem_singleton_self _)
    cases heq

end SixGateway.FalseAlarms
