import SixGateway.Positions
import SixGateway.StripeContract
import SixGateway.Reconciliation

namespace SixGateway.Drift

open Library Library.Journal Models Database StripeClient LedgerService PaymentService Gateway
open Queries Bookings Outcomes Effects Lifecycle Positions StripeContract Reconciliation

section

variable [StrLower]

/-- The books of an intent and its row, side by side. -/
structure Balanced (db : Db) (p : PaymentIntent) : Prop where
  captured : net db.ledgerEntries p.id "payments_captured" =
    if p.status = .succeeded then p.amountReceived - p.amountRefunded else 0
  refundable : 0 ≤ p.amountRefunded ∧ p.amountRefunded ≤ p.amountReceived
  unsettled : p.status ≠ .succeeded → p.amountReceived = 0 ∧ p.amountRefunded = 0
  customer : net db.ledgerEntries p.id (customerAccount p.customerId) = p.amountRefunded
  authorised : net db.ledgerEntries p.id "payments_authorised" =
    if p.status = .canceled then 0 else p.amount - p.amountReceived
  pending : net db.ledgerEntries p.id (pendingAccount p.customerId) =
    if p.status = .canceled then 0 else -p.amount

structure Sound (w : World) : Prop where
  references : ∀ e ∈ w.db.ledgerEntries, w.db.references e.paymentIntentId = true
  represented : ∀ p ∈ w.db.paymentIntents, ∃ a, Represents w.db.ledgerEntries p a
  canceled : ∀ p ∈ w.db.paymentIntents, p.status = .canceled →
    ∃ stripeId, p.stripePaymentIntentId = some stripeId ∧ CancelAccepted w.calls stripeId

variable {w : World} {r : Request} {p dirty : PaymentIntent} {entries es : List LedgerEntry}
  {a : Payment} {calls : Calls}

theorem represents_changed (hl : Lawful w r) (hr : Represents entries p a)
    (hc : p.status = .canceled →
      ∃ stripeId, p.stripePaymentIntentId = some stripeId ∧ CancelAccepted w.calls stripeId)
    (h : Changes r p dirty es calls) :
    ∃ b, Represents (entries ++ es) (p.flush dirty r.env.now p) b := by
  obtain ⟨hs, hrec, href⟩ := flush_loaded p dirty r.env.now
  cases h with
  | confirmed id payload asked named live stripeId stripe o answered status parsed =>
    have hphase : a.phase = .authorised := by
      rw [hr.phase]
      exact phaseOf_authorised (by simp_all) (by simp_all)
    have hstatus : status ≠ .canceled := ne_of_value parsed (hl.answers _ _ answered)
    by_cases hsucc : status = .succeeded
    · refine ⟨a.settle, hr.amount, hr.received.trans hrec.symm, hr.refunded.trans href.symm, ?_, ?_⟩
      · rw [hs, hsucc]
        rfl
      · intro role
        rw [List.append_nil, a.net_settle role hphase]
        exact hr.net role
    · refine ⟨a, hr.amount, hr.received.trans hrec.symm, hr.refunded.trans href.symm, ?_, ?_⟩
      · rw [hs, hphase, phaseOf_authorised hsucc hstatus]
      · intro role
        rw [List.append_nil]
        exact hr.net role
  | canceled id payload asked named pending stripeId stripe o answered status parsed positive =>
    have hphase : a.phase = .authorised := by
      rw [hr.phase]
      exact phaseOf_authorised pending.2 pending.1
    have hstatus : status = .canceled := eq_of_value parsed (hl.answers _ _ answered)
    refine ⟨a.reverse hphase, hr.step rfl .authorised .pending p.amount ?_ rfl rfl hr.amount
      (hr.received.trans hrec.symm) (hr.refunded.trans href.symm) ?_⟩
    · intro role
      rw [a.net_reverse role hphase, hr.amount]
    · rw [hs, hstatus]
      rfl
  | captured event asked succeeded stripeId named stripe pending n amount positive =>
    have hopen : p.status ≠ .canceled := by
      intro hcanceled
      obtain ⟨sid, hsid, haccepted⟩ := hc hcanceled
      rw [stripe] at hsid
      cases hsid
      exact hl.emitted event stripeId asked ⟨succeeded, named⟩ haccepted
    have hphase : a.phase = .authorised := by
      rw [hr.phase]
      exact phaseOf_authorised pending hopen
    refine ⟨a.capture n hphase positive.le, hr.step rfl .authorised .captured n
      (fun role => a.net_capture n role hphase positive.le) rfl rfl hr.amount hrec.symm
      (hr.refunded.trans href.symm) ?_⟩
    rw [hs]
    rfl
  | refunded id key amount reason asked named captured stripeId stripe n computed positive
      refundable o answered =>
    have hle : n ≤ a.received - a.refunded := by rwa [hr.received, hr.refunded]
    refine ⟨a.refund n positive.le hle, hr.step rfl .captured .customer n
      (fun role => a.net_refund n role positive.le hle) rfl rfl hr.amount
      (hr.received.trans hrec.symm) ?_ ?_⟩
    · rw [href]
      exact congrArg (· + n) hr.refunded
    · rw [hs]
      exact hr.phase

omit [StrLower] in
theorem sound_empty : Sound World.empty :=
  ⟨by simp [World.empty, Db.empty], by simp [World.empty, Db.empty],
    by simp [World.empty, Db.empty]⟩

theorem represents_created {payload : Schemas.PaymentIntentCreate} {merchant : Option String}
    {o : StripeObject} {status : PaymentIntentStatus} (hl : Lawful w r)
    (ha : r.answer (createCall payload) = .ok o)
    (hp : PaymentIntentStatus.ofValue? o.status = some status)
    (hn : ∀ e ∈ entries,
      e.paymentIntentId ≠ some (newIntent payload merchant r.env o status).id) :
    Represents (entries ++ accrual (newIntent payload merchant r.env o status) r.env)
      (newIntent payload merchant r.env o status) (.authorise payload.amount) := by
  obtain ⟨hs, hc⟩ := hl.answers _ _ ha
  refine ⟨rfl, rfl, rfl, (phaseOf_authorised (ne_of_value hp hs) (ne_of_value hp hc)).symm, ?_⟩
  intro role
  rw [net_append, net_eq_zero _ hn, zero_add, Payment.net_authorise]
  exact net_pairEntries rfl _ .pending .authorised role _

theorem canceled_changed (hl : Lawful w r) (h : Changes r p dirty es calls)
    (hd : dirty.status = .canceled) : ∃ stripeId, p.stripePaymentIntentId = some stripeId ∧
      CancelAccepted calls stripeId := by
  cases h with
  | confirmed id payload asked named live stripeId stripe o answered status parsed =>
    exact absurd hd (ne_of_value parsed (hl.answers _ _ answered))
  | canceled id payload asked named pending stripeId stripe o answered status parsed positive =>
    exact ⟨stripeId, truthy_some stripe, _, _, o, List.mem_singleton_self _⟩
  | captured => cases hd
  | refunded id key amount reason asked named captured => simp [captured] at hd

theorem sound_after (hw : Sound w) (hl : Lawful w r) : Sound (w.after r) := by
  have he := request_effect r w
  refine ⟨references_after he hw.references, fun q hq => ?_, fun q hq hs => ?_⟩
  · cases row_after he hq with
    | kept member es ledger others =>
      obtain ⟨a, ha⟩ := hw.represented q member
      exact ⟨a, ledger ▸ ha.other others⟩
    | created payload merchant fresh o answered status parsed row unknown called ledger =>
      subst row
      exact ⟨_, ledger ▸ represents_created hl answered parsed
        (unnamed_of_unknown hw.references (fun p hp => (unknown p hp).1))⟩
    | changed p member dirty es does row ledger =>
      subst row
      obtain ⟨a, ha⟩ := hw.represented p member
      obtain ⟨b, hb⟩ := represents_changed hl ha (hw.canceled p member) does
      exact ⟨b, ledger ▸ hb⟩
  · cases row_after he hq with
    | kept member =>
      obtain ⟨stripeId, hid, hc⟩ := hw.canceled q member hs
      exact ⟨stripeId, hid, hc.append _⟩
    | created payload merchant fresh o answered status parsed row =>
      subst row
      exact absurd hs (ne_of_value parsed (hl.answers _ _ answered).2)
    | changed p member dirty es does row =>
      subst row
      rw [(flush_loaded p dirty r.env.now).1] at hs
      obtain ⟨stripeId, hid, key, reason, o, hm⟩ := canceled_changed hl does hs
      exact ⟨stripeId, hid, key, reason, o, List.mem_append_right _ hm⟩

omit [StrLower] in
theorem balanced_of_represents {db : Db} (h : Represents db.ledgerEntries p a) : Balanced db p := by
  have hnonneg := a.refunded_nonneg
  have hle := a.refunded_le
  have huncaptured : p.status ≠ .succeeded → p.amountReceived = 0 ∧ p.amountRefunded = 0 := by
    intro hs
    rw [← h.received, ← h.refunded]
    exact a.received_eq_zero (fun hp => hs (phaseOf_captured.mp (h.phase.symm.trans hp)))
  have hreversed : a.phase = .reversed ↔ p.status = .canceled := by
    rw [h.phase, phaseOf_reversed]
  refine ⟨(h.net .captured).trans ?_, ?_, huncaptured, (h.net .customer).trans h.refunded,
    (h.net .authorised).trans ?_, (h.net .pending).trans ?_⟩
  · simp only [Payment.net, h.received, h.refunded]
    split
    · rfl
    · next hs =>
      obtain ⟨hr, hf⟩ := huncaptured hs
      rw [hr, hf]
      rfl
  · rw [← h.received, ← h.refunded]
    exact ⟨hnonneg, hle⟩
  · simp only [Payment.net, hreversed, h.amount, h.received]
  · simp only [Payment.net, hreversed, h.amount]

omit [StrLower] in
theorem capturedIn_listed (db : Db) (id : String) :
    capturedIn (listEntriesForIntent db id) = net db.ledgerEntries id "payments_captured" := by
  have hp := sumOver_perm (v := LedgerEntry.signed)
    (p := fun e => decide (e.account = "payments_captured"))
    (List.perm_insertionSort (fun a b : LedgerEntry => a.createdAt ≤ b.createdAt)
      (db.ledgerEntries.filter (fun e => decide (e.paymentIntentId = some id))))
  refine hp.trans ?_
  simp only [sumOver, net, List.filter_filter]
  congr 2
  refine List.filter_congr (fun e _ => ?_)
  simp [Bool.and_comm]

omit [StrLower] in
theorem driftOf_balanced {db : Db} (h : Balanced db p) : driftOf db p = none := by
  simp [driftOf, capturedIn_listed, h.captured, expectedCaptured]

omit [StrLower] in
theorem reconcileRecent_balanced {db : Db} (h : ∀ p ∈ db.paymentIntents, Balanced db p)
    (now window : Instant) : (reconcileRecent db now window).drift = [] := by
  simp only [reconcileRecent, List.filterMap_eq_nil_iff]
  intro p hp
  exact driftOf_balanced (h p (List.mem_filter.mp hp).1)

/-- The rows and the ledger never drift apart, whatever is served in whatever order. -/
theorem rows_match_ledger (rs : List Request) (h : Along Lawful World.empty rs) :
    (∀ p ∈ (World.empty.afterAll rs).db.paymentIntents, Balanced (World.empty.afterAll rs).db p) ∧
      ∀ now window, (reconcileRecent (World.empty.afterAll rs).db now window).drift = [] := by
  have hs := afterAll_invariant (fun _ _ => sound_after) sound_empty h
  have hb : ∀ p ∈ (World.empty.afterAll rs).db.paymentIntents,
      Balanced (World.empty.afterAll rs).db p := by
    intro p hp
    obtain ⟨a, ha⟩ := hs.represented p hp
    exact balanced_of_represents ha
  exact ⟨hb, reconcileRecent_balanced hb⟩

end

theorem rows_match_ledger_order :
    let rs : List Request := [
      ⟨.createIntent order (some "mer_1"), clock 0, accepting .requiresAction⟩,
      ⟨.confirmIntent "pi_local_i" confirmation, clock 1, accepting .requiresAction⟩,
      ⟨.deliver (paid "evt_1"), clock 2, accepting .requiresAction⟩,
      ⟨.refundIntent "pi_local_i" "refund-1" (some 300) none, clock 3, accepting .requiresAction⟩]
    (∀ p ∈ (World.empty.afterAll rs).db.paymentIntents, Balanced (World.empty.afterAll rs).db p) ∧
      ∀ now window, (reconcileRecent (World.empty.afterAll rs).db now window).drift = [] := by
  refine rows_match_ledger _ ?_
  simp only [along_cons]
  exact ⟨accepting_lawful (by decide) (by simp) _ _, accepting_lawful (by decide) (by simp) _ _,
    accepting_emitted (by decide) rfl (by decide +kernel) _,
    accepting_lawful (by decide) (by simp) _ _, trivial⟩

end SixGateway.Drift
