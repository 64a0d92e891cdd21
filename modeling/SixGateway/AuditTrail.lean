import SixGateway.Drift
import SixGateway.Interleavings

namespace SixGateway.AuditTrail

open Library Models Database StripeClient PaymentService Gateway Queries Bookings Outcomes Effects
open Lifecycle Positions StripeContract Drift Transactions Interleavings

/-- One more occurrence in the life of a payment, where it can happen. -/
def occur (a : Payment) : Occurrence → Option Payment
  | .reversed => if h : a.phase = .authorised then some (a.reverse h) else none
  | .captured n => if h : a.phase = .authorised ∧ 0 < n then some (a.capture n h.1 h.2.le) else none
  | .refunded n _ _ =>
    if h : a.phase = .captured ∧ 0 < n ∧ n ≤ a.received - a.refunded then
      some (a.refund n h.2.1.le h.2.2)
    else none

def givenBack : Occurrence → Int
  | .refunded n _ _ => n
  | .reversed | .captured _ => 0

/-- The lives a payment can have: it stays authorised, it is reversed, or it is captured once and
then refunded within what was captured. -/
inductive Life : List Occurrence → Prop
  | authorised : Life []
  | reversed : Life [.reversed]
  | captured (n : Int) (positive : 0 < n) (refunds : List Occurrence)
      (only : ∀ o ∈ refunds, ∃ k refundId reason, o = .refunded k refundId reason ∧ 0 < k)
      (within : (refunds.map givenBack).sum ≤ n) : Life (.captured n :: refunds)

theorem life_captured {a b : Payment} {os : List Occurrence} (ha : a.phase = .captured)
    (h : Run.run occur a os = some b) :
    (∀ o ∈ os, ∃ k refundId reason, o = .refunded k refundId reason ∧ 0 < k) ∧
      b.received = a.received ∧ b.refunded = a.refunded + (os.map givenBack).sum := by
  induction os generalizing a with
  | nil =>
    obtain rfl : a = b := by simpa [Run.run] using h
    exact ⟨by simp, rfl, by simp⟩
  | cons o os ih =>
    obtain ⟨c, hc, hrest⟩ := Option.bind_eq_some_iff.mp h
    cases o with
    | reversed => simp [occur, ha] at hc
    | captured n => simp [occur, ha] at hc
    | refunded n refundId reason =>
      simp only [occur] at hc
      split at hc
      · next hn =>
        cases hc
        obtain ⟨honly, hrec, href⟩ := ih (a := a.refund n hn.2.1.le hn.2.2) ha hrest
        refine ⟨?_, hrec, ?_⟩
        · intro o ho
          obtain rfl | ho := List.mem_cons.mp ho
          · exact ⟨n, refundId, reason, rfl, hn.2.1⟩
          · exact honly o ho
        · rw [href, List.map_cons, List.sum_cons]
          exact Int.add_assoc ..
      · cases hc

/-- The runs of the payment from its authorisation on are the lives it can have. -/
theorem life_of_run {m : Int} {b : Payment} {os : List Occurrence}
    (h : Run.run occur (.authorise m) os = some b) : Life os := by
  cases os with
  | nil => exact .authorised
  | cons o os =>
    obtain ⟨a, ha, hrest⟩ := Option.bind_eq_some_iff.mp h
    cases o with
    | refunded n refundId reason => simp [occur, Payment.authorise] at ha
    | reversed =>
      obtain rfl : (Payment.authorise m).reverse rfl = a := by
        simpa [occur, Payment.authorise] using ha
      cases os with
      | nil => exact .reversed
      | cons o os =>
        obtain ⟨c, hc, -⟩ := Option.bind_eq_some_iff.mp hrest
        cases o <;> simp [occur, Payment.reverse] at hc
    | captured n =>
      simp only [occur] at ha
      split at ha
      · next hn =>
        cases ha
        obtain ⟨honly, hrec, href⟩ := life_captured rfl hrest
        refine .captured n hn.2 os honly ?_
        have hle := b.refunded_le
        rw [hrec, href] at hle
        simpa [Payment.capture, Payment.authorise] using hle
      · cases ha

section

variable [StrLower] {w : World} {r : Request} {p q dirty : PaymentIntent}
  {entries es : List LedgerEntry} {a b : Payment} {calls : Calls} {opened env : Env}
  {os : List (Occurrence × Env)}

/-- What a life books: the accrual, and one booking for each occurrence. -/
def trail (p : PaymentIntent) (opened : Env) (os : List (Occurrence × Env)) : List LedgerEntry :=
  accrual p opened ++ os.flatMap (fun o => o.1.entries p o.2)

/-- The journal of an intent is the trail of a life that a payment of its amount can have, and its
row shows what the life has come to. A confirmed payment may be known to have succeeded before its
capture is booked. -/
structure Tells (entries : List LedgerEntry) (p : PaymentIntent) (opened : Env)
    (os : List (Occurrence × Env)) (a : Payment) : Prop where
  journal : entriesOfIntent entries p.id = trail p opened os
  lived : Run.run occur (.authorise p.amount) (os.map Prod.fst) = some a
  received : p.amountReceived = a.received
  refunded : p.amountRefunded = a.refunded
  phase : a.phase = phaseOf p.status ∨ (p.status = .succeeded ∧ a.phase = .authorised)

theorem trail_append (p : PaymentIntent) (opened : Env) (os : List (Occurrence × Env))
    (o : Occurrence) (env : Env) :
    trail p opened (os ++ [(o, env)]) = trail p opened os ++ o.entries p env := by
  simp [trail]

theorem trail_sameRow (h : SameRow p q) : trail p opened os = trail q opened os := by
  obtain ⟨_, _, _, _, rfl⟩ := h
  refine congrArg (accrual p opened ++ ·) (List.flatMap_congr (fun o _ => ?_))
  cases o.1 <;> rfl

theorem Tells.other (h : Tells entries p opened os a)
    (hes : ∀ e ∈ es, e.paymentIntentId ≠ some p.id) : Tells (entries ++ es) p opened os a where
  journal := by rw [entriesOfIntent_append, entriesOfIntent_other hes, List.append_nil, h.journal]
  lived := h.lived
  received := h.received
  refunded := h.refunded
  phase := h.phase

theorem Tells.shown (h : Tells entries p opened os a) (hpq : SameRow p q)
    (received : q.amountReceived = a.received) (refunded : q.amountRefunded = a.refunded)
    (phase : a.phase = phaseOf q.status ∨ (q.status = .succeeded ∧ a.phase = .authorised)) :
    Tells entries q opened os a where
  journal := by rw [hpq.id_eq, h.journal, trail_sameRow hpq]
  lived := by
    obtain ⟨_, _, _, _, rfl⟩ := hpq
    exact h.lived
  received := received
  refunded := refunded
  phase := phase

theorem Tells.occurred (h : Tells entries p opened os a) (hpq : SameRow p q) (o : Occurrence)
    (hb : occur a o = some b) (received : q.amountReceived = b.received)
    (refunded : q.amountRefunded = b.refunded) (phase : b.phase = phaseOf q.status) :
    Tells (entries ++ o.entries p env) q opened (os ++ [(o, env)]) b where
  journal := by
    rw [hpq.id_eq, entriesOfIntent_append, h.journal,
      entriesOfIntent_own (fun _ => intent_of_occurrence), ← trail_append, trail_sameRow hpq]
  lived := by
    obtain ⟨_, _, _, _, rfl⟩ := hpq
    rw [List.map_append, Run.run_append, h.lived, Option.bind_some]
    simp [Run.run, hb]
  received := received
  refunded := refunded
  phase := .inl phase

theorem tells_created (hl : Lawful w r) {payload : Schemas.PaymentIntentCreate}
    {merchant : Option String} {o : StripeObject} {status : PaymentIntentStatus}
    (answered : r.answer (createCall payload) = .ok o)
    (parsed : PaymentIntentStatus.ofValue? o.status = some status)
    (hn : ∀ e ∈ entries, e.paymentIntentId ≠ some (newIntent payload merchant r.env o status).id) :
    Tells (entries ++ accrual (newIntent payload merchant r.env o status) r.env)
      (newIntent payload merchant r.env o status) r.env [] (.authorise payload.amount) where
  journal := by
    rw [entriesOfIntent_append, entriesOfIntent_other hn,
      entriesOfIntent_own (fun _ => intent_of_accrual), List.nil_append, trail, List.flatMap_nil,
      List.append_nil]
  lived := rfl
  received := rfl
  refunded := rfl
  phase := by
    obtain ⟨hs, hc⟩ := hl.answers _ _ answered
    exact .inl (phaseOf_authorised (ne_of_value parsed hs) (ne_of_value parsed hc)).symm

theorem Tells.authorised (h : Tells entries p opened os a) (hs : p.status ≠ .succeeded)
    (hc : p.status ≠ .canceled) : a.phase = .authorised := by
  obtain hphase | ⟨hstatus, -⟩ := h.phase
  · exact hphase.trans (phaseOf_authorised hs hc)
  · exact absurd hstatus hs

theorem tells_changed (hl : Lawful w r) (h : Tells entries p opened os a)
    (hcanceled : p.status = .canceled →
      ∃ stripeId, p.stripePaymentIntentId = some stripeId ∧ CancelAccepted w.calls stripeId)
    (hc : Changes r p dirty es calls) :
    ∃ os' b, Tells (entries ++ es) (p.flush dirty r.env.now p) opened os' b := by
  obtain ⟨hs, hrec, href⟩ := flush_loaded p dirty r.env.now
  have hsame : SameRow p (p.flush dirty r.env.now p) := stable_sameRow.flush ..
  cases hc with
  | confirmed id payload asked named live stripeId stripe o answered status parsed =>
    have ha := h.authorised (by simp_all) (by simp_all)
    have hstatus : status ≠ .canceled := ne_of_value parsed (hl.answers _ _ answered)
    refine ⟨os, a, ?_⟩
    rw [List.append_nil]
    refine h.shown hsame (hrec.trans h.received) (href.trans h.refunded) ?_
    rw [hs]
    by_cases hsucc : status = .succeeded
    · exact .inr ⟨hsucc, ha⟩
    · exact .inl (ha.trans (phaseOf_authorised hsucc hstatus).symm)
  | canceled id payload asked named pending stripeId stripe o answered status parsed positive =>
    have ha := h.authorised pending.2 pending.1
    have hstatus : status = .canceled := eq_of_value parsed (hl.answers _ _ answered)
    refine ⟨_, _, h.occurred hsame .reversed (dif_pos ha) (hrec.trans h.received)
      (href.trans h.refunded) ?_⟩
    rw [hs, hstatus]
    rfl
  | captured event asked succeeded stripeId named stripe pending n amount positive =>
    have hopen : p.status ≠ .canceled := by
      intro hcancel
      obtain ⟨sid, hsid, haccepted⟩ := hcanceled hcancel
      rw [stripe] at hsid
      cases hsid
      exact hl.emitted event stripeId asked ⟨succeeded, named⟩ haccepted
    have ha := h.authorised pending hopen
    refine ⟨_, _, h.occurred hsame (.captured n) (dif_pos ⟨ha, positive⟩) hrec
      (href.trans h.refunded) ?_⟩
    rw [hs]
    rfl
  | refunded id key amount reason asked named captured stripeId stripe n computed positive
      refundable o answered =>
    have hle : n ≤ a.received - a.refunded := by rwa [← h.received, ← h.refunded]
    have ha : a.phase = .captured := by
      by_contra hne
      have hzero := a.uncaptured hne
      have hnonneg := a.refunded_nonneg
      omega
    refine ⟨_, _, h.occurred hsame (.refunded n o.id reason) (dif_pos ⟨ha, positive, hle⟩)
      (hrec.trans h.received) ?_ ?_⟩
    · rw [href]
      exact congrArg (· + n) h.refunded
    · rw [hs]
      exact ha.trans (phaseOf_captured.mpr captured).symm

def Told (w : World) : Prop :=
  ∀ p ∈ w.db.paymentIntents, ∃ opened os a, Tells w.db.ledgerEntries p opened os a

theorem told_after (h : Told w) (hw : Sound w) (hl : Lawful w r) : Told (w.after r) := by
  intro q hq
  have he := request_effect r w
  change ∃ opened os a, Tells (r.outcome w).store.ledgerEntries q opened os a
  cases row_after he hq with
  | kept member es ledger others =>
    obtain ⟨opened, os, a, ht⟩ := h q member
    exact ⟨opened, os, a, ledger ▸ ht.other others⟩
  | created payload merchant fresh o answered status parsed row unknown called ledger =>
    subst row
    exact ⟨_, _, _, ledger ▸ tells_created hl answered parsed
      (unnamed_of_unknown hw.references (fun p hp => (unknown p hp).1))⟩
  | changed p member dirty es does row ledger =>
    subst row
    obtain ⟨opened, os, a, ht⟩ := h p member
    obtain ⟨os', b, hb⟩ := tells_changed hl ht (hw.canceled p member) does
    exact ⟨opened, os', b, ledger ▸ hb⟩

/-- The ledger tells the life of every intent. Whatever is served in whatever order, its journal is
the accrual and then the bookings of a life that it can have, and the amounts of its row are what
this life has come to. -/
theorem ledger_tells (rs : List Request) (h : Along Lawful World.empty rs) :
    ∀ p ∈ (World.empty.afterAll rs).db.paymentIntents, ∃ opened os a,
      Tells (World.empty.afterAll rs).db.ledgerEntries p opened os a ∧ Life (os.map Prod.fst) := by
  have hs : Sound (World.empty.afterAll rs) ∧ Told (World.empty.afterAll rs) :=
    afterAll_invariant (I := fun w => Sound w ∧ Told w)
      (fun w r hw hl => ⟨sound_after hw.1 hl, told_after hw.2 hw.1 hl⟩)
      ⟨sound_empty, fun _ hp => absurd hp Table.not_mem_empty⟩ h
  intro p hp
  obtain ⟨opened, os, a, ht⟩ := hs.2 p hp
  exact ⟨opened, os, a, ht, life_of_run ht.lived⟩

end

theorem ledger_tells_order :
    let rs : List Request := [
      ⟨.createIntent order (some "mer_1"), clock 0, accepting .requiresAction⟩,
      ⟨.confirmIntent "pi_local_i" confirmation, clock 1, accepting .requiresAction⟩,
      ⟨.deliver (paid "evt_1"), clock 2, accepting .requiresAction⟩,
      ⟨.refundIntent "pi_local_i" "refund-1" (some 300) none, clock 3, accepting .requiresAction⟩]
    ∀ p ∈ (World.empty.afterAll rs).db.paymentIntents, ∃ opened os a,
      Tells (World.empty.afterAll rs).db.ledgerEntries p opened os a ∧ Life (os.map Prod.fst) := by
  refine ledger_tells _ ?_
  simp only [along_cons]
  exact ⟨accepting_lawful (by decide) (by simp) _ _, accepting_lawful (by decide) (by simp) _ _,
    accepting_emitted (by decide) rfl (by decide +kernel) _,
    accepting_lawful (by decide) (by simp) _ _, trivial⟩

end SixGateway.AuditTrail
