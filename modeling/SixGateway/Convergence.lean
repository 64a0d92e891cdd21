import SixGateway.BookingRace

namespace SixGateway.Convergence

open Library Library.Run Library.Pool Models Errors Database StripeClient LedgerService
open PaymentService Webhook Gateway Queries Bookings Effects StripeContract Concurrency
open Transactions BookingRace

def Returned (st : Handlers Reply) (i : Nat) : Prop := ∃ reply, st.threads[i]? = some (.ret reply)

structure Reversed (db : Db) (p : PaymentIntent) : Prop where
  canceled : p.status = .canceled
  once : reversals db.ledgerEntries p.id =
    pair "payments_authorised" (pendingAccount p.customerId) p.amount

/-- The columns of a payment that a booking is made from. -/
structure SamePayment (p q : PaymentIntent) : Prop where
  id : q.id = p.id
  stripeId : q.stripePaymentIntentId = p.stripePaymentIntentId
  amount : q.amount = p.amount
  customerId : q.customerId = p.customerId

theorem stable_samePayment : Stable SamePayment where
  refl _ := ⟨rfl, rfl, rfl, rfl⟩
  trans _ _ _ h h' := ⟨h'.id.trans h.id, h'.stripeId.trans h.stripeId, h'.amount.trans h.amount,
    h'.customerId.trans h.customerId⟩
  flush _ _ _ _ := ⟨rfl, rfl, rfl, rfl⟩

/-- A row that is CANCELED has been reversed once. -/
def CanceledReversed (db : Db) : Prop :=
  ∀ p ∈ db.paymentIntents, p.status = .canceled → Reversed db p

section

variable [StrLower]

def canceledId (rs : List (Op × Env)) (i : Nat) : Option String :=
  match rs[i]? with
  | some (.deliver event, _) =>
    if event.type = "payment_intent.canceled" then event.object.id else none
  | _ => none

/-- Wherever a canceled event has been processed, its intent is canceled here as well, if it is
known and has not succeeded. -/
def Converged (rs : List (Op × Env)) (st : Handlers Reply) : Prop :=
  ∀ i, ∀ stripeId ∈ canceledId rs i, Returned st i → ∀ p ∈ st.store.paymentIntents,
    p.stripePaymentIntentId = some stripeId → p.status ≠ .succeeded → Reversed st.store p

/-- A move that ends the delivery of a canceled event finds the intent CANCELED already. -/
def CanceledBefore (rs : List (Op × Env)) (st : Handlers Reply) (l : Label) : Prop :=
  ∀ st' ∈ step commit st l, ∀ stripeId ∈ canceledId rs l.1, Returned st' l.1 →
    ∀ p ∈ st.store.paymentIntents, p.stripePaymentIntentId = some stripeId →
      p.status ≠ .succeeded → p.status = .canceled

variable {rs : List (Op × Env)} {st st' : Handlers Reply} {l : Label} {i : Nat}
  {db db' : Db} {t : List Stmt} {r : Request} {p q loaded dirty : PaymentIntent}
  {entries es : List LedgerEntry} {calls : Calls}

theorem reversals_change (does : Changes r loaded dirty es calls)
    (answered : ∀ q o, (q, .ok o) ∈ calls → Answers q o) :
    (dirty.status ≠ loaded.status ∧ dirty.status = .canceled ∧ reversals es loaded.id =
        pair "payments_authorised" (pendingAccount loaded.customerId) loaded.amount) ∨
      ((dirty.status = loaded.status ∨ dirty.status ≠ .canceled) ∧ reversals es loaded.id = []) := by
  cases does with
  | confirmed id payload asked named live stripeId stripe o ans status parsed =>
    exact .inr ⟨.inr (ne_of_value parsed (answered _ o (List.mem_singleton_self _))), rfl⟩
  | canceled id payload asked named pending stripeId stripe o ans status parsed positive =>
    obtain rfl : status = .canceled :=
      eq_of_value parsed (answered _ o (List.mem_singleton_self _))
    refine .inl ⟨Ne.symm pending.1, rfl, ?_⟩
    rw [reversals, reversal, bookedAs_pairEntries rfl]
    rfl
  | captured =>
    refine .inr ⟨.inr (by simp), ?_⟩
    rw [reversals, capture, bookedAs_pairEntries rfl]
    rfl
  | refunded id key amount reason asked named captured stripeId stripe n computed positive
      refundable o =>
    refine .inr ⟨.inl rfl, ?_⟩
    rw [reversals, refundEntries, bookedAs_pairEntries rfl]
    exact if_neg (fun h => refund_description_ne o.id (by decide) (Option.some.inj h))

theorem reversed_changed (hs : Settled db.ledgerEntries p) (h : p.status = .canceled → Reversed db p)
    (hsame : SamePayment loaded p) (does : Changes r loaded dirty es calls)
    (answered : ∀ q o, (q, .ok o) ∈ calls → Answers q o) (hg : Rechecked loaded dirty p)
    (now : Instant) (hledger : db'.ledgerEntries = db.ledgerEntries ++ es)
    (hst : (loaded.flush dirty now p).status = .canceled) :
    Reversed db' (loaded.flush dirty now p) := by
  refine ⟨hst, ?_⟩
  have happ : reversals db'.ledgerEntries p.id =
      reversals db.ledgerEntries p.id ++ reversals es p.id := by
    rw [hledger]
    exact bookedAs_append
  change reversals db'.ledgerEntries p.id =
    pair "payments_authorised" (pendingAccount p.customerId) p.amount
  have hbooked : reversals es p.id = reversals es loaded.id := by rw [hsame.id]
  rw [happ, hbooked]
  obtain ⟨hne, hcanceled, hes⟩ | ⟨hstatus, hes⟩ := reversals_change does answered
  · obtain ⟨hopen, hpending⟩ := hg hne
    have hnone : reversals db.ledgerEntries p.id = [] := by
      by_contra hsome
      exact (hs.reversed hsome).elim (hpending (by simp [hcanceled])) hopen
    rw [hnone, List.nil_append, hes, hsame.customerId, hsame.amount]
  · have hp : p.status = .canceled := by
      by_cases heq : dirty.status = loaded.status
      · exact (if_pos heq).symm.trans hst
      · exact absurd ((if_neg heq).symm.trans hst) (hstatus.resolve_left heq)
    rw [hes, List.append_nil]
    exact (h hp).once

omit [StrLower] in
theorem reversed_other (h : Reversed db p) (hes : ∀ e ∈ es, e.paymentIntentId ≠ some p.id)
    (hledger : db'.ledgerEntries = db.ledgerEntries ++ es) : Reversed db' p := by
  refine ⟨h.canceled, ?_⟩
  rw [hledger, reversals, bookedAs_append, bookedAs_other hes, List.append_nil]
  exact h.once

theorem canceledReversed_after {w : World} (hw : Reached w) (h : CanceledReversed w.db)
    (hl : Lawful w r) : CanceledReversed (w.after r).db := by
  have he := request_effect r w
  intro q hq hst
  cases row_after he hq with
  | kept member es ledger others => exact reversed_other (h q member hst) others ledger
  | created payload merchant fresh o answered status parsed row unknown called ledger =>
    have hans := hl.answers _ o answered
    rw [row] at hst
    exact absurd hst (ne_of_value parsed hans.2)
  | changed p member dirty es does row ledger =>
    subst row
    exact reversed_changed (hw.settled p member) (h p member) (stable_samePayment.refl p) does
      (fun q o hm => hl.answers q o (answered_of_change does q o hm)) (rechecked_of_change does) _
      ledger hst

theorem canceledReversed_afterAll (pre : List Request) (h : Along Lawful World.empty pre) :
    CanceledReversed (World.empty.afterAll pre).db := by
  have hstart : Reached World.empty ∧ CanceledReversed World.empty.db :=
    ⟨reached_empty, by simp [CanceledReversed, World.empty, Db.empty]⟩
  exact (afterAll_invariant (I := fun w => Reached w ∧ CanceledReversed w.db)
    (fun _ _ hw hl => ⟨reached_after hw.1 hl, canceledReversed_after hw.1 hw.2 hl⟩) hstart h).2

theorem canceledReversed_commit (hs : AllSettled db) (h : CanceledReversed db)
    (ht : CommitsOfBy SamePayment Lawfully rs i db t) (hg : ToRechecked db t)
    (hc : commit t db = .ok db') : CanceledReversed db' := by
  obtain ⟨r, -, ht⟩ := ht
  intro q hq hst
  have hledger := commit_ledger hc
  cases ht with
  | aside touches =>
    rw [touches.entries] at hledger
    exact reversed_other (h q (commit_untouched hc touches ▸ hq) hst) (by simp) hledger
  | change answer loaded dirty es calls does answered touches known =>
    rw [touches.entries] at hledger
    obtain ⟨hq, hne⟩ | ⟨p, hp, hid, now, rfl⟩ := mem_committed hc touches hq
    · refine reversed_other (h q hq hst) (fun e he heq => hne ?_) hledger
      exact Option.some.inj (heq.symm.trans (intent_of_change does e he))
    · obtain ⟨p', hp', hsame⟩ := known
      obtain rfl := eq_of_id hp hp' (hid.trans hsame.id.symm)
      exact reversed_changed (hs p hp) (h p hp) hsame does (fun q o hm => answered q o hm o rfl)
        (hg (loaded, dirty) (by rw [touches.updates]; exact List.mem_singleton_self _) p hp hid)
        now hledger hst

/-- What becomes of a row in a commit that writes a status only to rows that pass the check
again: CANCELED gives way to SUCCEEDED only, and SUCCEEDED to nothing. -/
structure Outlives (p q : PaymentIntent) : Prop where
  stripeId : q.stripePaymentIntentId = p.stripePaymentIntentId
  canceled : p.status = .canceled → q.status = .canceled ∨ q.status = .succeeded
  succeeded : p.status = .succeeded → q.status = .succeeded

omit [StrLower] in
theorem Outlives.refl (p : PaymentIntent) : Outlives p p := ⟨rfl, .inl, id⟩

omit [StrLower] in
theorem outlives_flush (hg : Rechecked loaded dirty p) (now : Instant) :
    Outlives p (loaded.flush dirty now p) := by
  by_cases hs : dirty.status = loaded.status
  · have hst : (loaded.flush dirty now p).status = p.status := if_pos hs
    exact ⟨rfl, fun h => .inl (hst.trans h), fun h => hst.trans h⟩
  · have hst : (loaded.flush dirty now p).status = dirty.status := if_neg hs
    obtain ⟨hopen, hpending⟩ := hg hs
    refine ⟨rfl, fun h => .inr ?_, fun h => absurd h hopen⟩
    rw [hst]
    by_contra hd
    exact hpending hd h

theorem outlives_commit (ht : CommitsOfBy SamePayment Lawfully rs i db t) (hg : ToRechecked db t)
    (hc : commit t db = .ok db') (hq : q ∈ db'.paymentIntents) :
    ∃ p ∈ db.paymentIntents, Outlives p q := by
  obtain ⟨r, -, ht⟩ := ht
  cases ht with
  | aside touches => exact ⟨q, commit_untouched hc touches ▸ hq, .refl q⟩
  | change answer loaded dirty es calls does answered touches known =>
    obtain ⟨hq, -⟩ | ⟨p, hp, hid, now, rfl⟩ := mem_committed hc touches hq
    · exact ⟨q, hq, .refl q⟩
    · have hmem : (loaded, dirty) ∈ updates t := by
        rw [touches.updates]
        exact List.mem_singleton_self _
      exact ⟨p, hp, outlives_flush (hg _ hmem p hp hid) now⟩

theorem canceled_aside {stripeId : String} (hid : stripeId ∈ canceledId rs i)
    (ht : CommitsOfBy SamePayment Lawfully rs i db t) : Touches t [] [] := by
  obtain ⟨⟨op, env⟩, hr, ht⟩ := ht
  cases ht with
  | aside touches => exact touches
  | change answer loaded dirty es calls does =>
    simp only [canceledId, hr] at hid
    cases does with
    | confirmed id payload asked =>
      obtain rfl : op = _ := asked
      cases hid
    | canceled id payload asked =>
      obtain rfl : op = _ := asked
      cases hid
    | captured event asked succeeded =>
      obtain rfl : op = _ := asked
      simp [succeeded] at hid
    | refunded id key amount reason asked =>
      obtain rfl : op = _ := asked
      cases hid

structure Consistent (rs : List (Op × Env)) (st : Handlers Reply) : Prop where
  safe : AllSafe commit (KeepsBy SamePayment) Lawfully (fun _ => ToRechecked)
    (CommitsOfBy SamePayment Lawfully rs) (fun _ _ => True) st
  settled : AllSettled st.store
  reversed : CanceledReversed st.store

def Allowed (st : Handlers Reply) (l : Label) : Prop :=
  Meets commit Lawfully (fun _ => ToRechecked) st l

theorem consistent_step (h : Consistent rs st) (ha : Allowed st l)
    (hst : step commit st l = some st') : Consistent rs st' := by
  have hJ : ∀ i db t db', AllSettled db ∧ CanceledReversed db →
      CommitsOfBy SamePayment Lawfully rs i db t → ToRechecked db t → commit t db = .ok db' →
      AllSettled db' ∧ CanceledReversed db' := by
    rintro i db t db' ⟨hs, hr⟩ ht hg hc
    have hnamed : CommitsOf Lawfully rs i db t := by
      obtain ⟨r, hr, ht⟩ := ht
      exact ⟨r, hr, ht.commits (fun _ _ hn => ⟨hn.id, hn.stripeId⟩)⟩
    exact ⟨settled_commit hs hnamed hg hc, canceledReversed_commit hs hr ht hg hc⟩
  have hkeeps : ∀ i db t db', CommitsOfBy SamePayment Lawfully rs i db t → ToRechecked db t →
      commit t db = .ok db' → KeepsBy SamePayment db db' := by
    rintro i db t db' ⟨r, -, ht⟩ - hc
    exact ht.keeps stable_samePayment hc
  have hrefl := KeepsBy.refl stable_samePayment
  obtain ⟨hs, hr⟩ := step_commits hrefl hJ h.safe ⟨h.settled, h.reversed⟩ ha hst
  exact ⟨(step_safe hrefl (KeepsBy.trans stable_samePayment) hkeeps h.safe ha hst).1, hs, hr⟩

theorem outlives_step (h : Consistent rs st) (ha : Allowed st l)
    (hst : step commit st l = some st') (hq : q ∈ st'.store.paymentIntents) :
    ∃ p ∈ st.store.paymentIntents, Outlives p q := by
  cases step_moves hst with
  | read => exact ⟨q, hq, .refl q⟩
  | committed i t k hi db hdb =>
    exact outlives_commit (h.safe.commit (KeepsBy.refl stable_samePayment) hi) (ha t k db hi hdb)
      hdb hq
  | refused => exact ⟨q, hq, .refl q⟩
  | answered => exact ⟨q, hq, .refl q⟩

theorem canceled_step (h : Consistent rs st) {stripeId : String}
    (hid : stripeId ∈ canceledId rs l.1) (hst : step commit st l = some st') :
    st'.store.paymentIntents = st.store.paymentIntents := by
  cases step_moves hst with
  | read => rfl
  | committed i t k hi db hdb =>
    have ht := h.safe.commit (KeepsBy.refl stable_samePayment) hi
    exact commit_untouched hdb (canceled_aside hid ht)
  | refused => rfl
  | answered => rfl

omit [StrLower] in
theorem returned_step (hst : step commit st l = some st') (hr : Returned st' i) :
    i = l.1 ∨ Returned st i := by
  by_cases hi : i = l.1
  · exact .inl hi
  · right
    obtain ⟨reply, hr⟩ := hr
    refine ⟨reply, ?_⟩
    cases step_moves hst <;> simpa [List.getElem?_set, Ne.symm hi] using hr

theorem not_returned {calls : Calls} {stripeId : String} (hid : stripeId ∈ canceledId rs i) :
    ¬ Returned (serving db calls rs) i := by
  rintro ⟨reply, hr⟩
  simp only [serving, List.getElem?_map] at hr
  obtain ⟨⟨op, env⟩, hi, hp⟩ := Option.map_eq_some_iff.mp hr
  simp only [canceledId, hi] at hid
  split at hid
  · next event env' heq =>
    cases heq
    cases hp
  · cases hid

theorem converged_step (h : Consistent rs st) (ha : Allowed st l) (hc : Converged rs st)
    (hst : step commit st l = some st') : Converged rs st' ↔ CanceledBefore rs st l := by
  have h' := consistent_step h ha hst
  constructor
  · intro hc' u hu stripeId hid hr p hp hs hne
    obtain rfl : st' = u := Option.some.inj (hst.symm.trans hu)
    have hp' : p ∈ st'.store.paymentIntents := canceled_step h hid hst ▸ hp
    exact (hc' l.1 stripeId hid hr p hp' hs hne).canceled
  · intro hb i stripeId hid hr q hq hs hne
    refine h'.reversed q hq ?_
    obtain rfl | hr := returned_step hst hr
    · exact hb st' hst stripeId hid hr q (canceled_step h hid hst ▸ hq) hs hne
    · obtain ⟨p, hp, hpq⟩ := outlives_step h ha hst hq
      have hps := hpq.stripeId.symm.trans hs
      have hpc := (hc i stripeId hid hr p hp hps (fun hsp => hne (hpq.succeeded hsp))).canceled
      exact (hpq.canceled hpc).resolve_right hne

/-- However cancels, confirms, refunds and deliveries interleave, and wherever they die: if statuses
are written only to rows that pass the check of their handler again, every canceled event that
has been processed finds its intent canceled and reversed once exactly when the event was
handled after a cancel of the intent had been committed. -/
theorem converged_iff_canceled_before {rs : List (Op × Env)} (hrs : ∀ r ∈ rs, Later r.1)
    (pre : List Request) (lawful : Along Lawful World.empty pre) (ls : List Label)
    (answered : Along (step commit) Answered
      (serving (World.empty.afterAll pre).db (World.empty.afterAll pre).calls rs) ls)
    (guarded : Along (step commit) Guarded
      (serving (World.empty.afterAll pre).db (World.empty.afterAll pre).calls rs) ls) :
    Always (step commit) (Converged rs)
        (serving (World.empty.afterAll pre).db (World.empty.afterAll pre).calls rs) ls ↔
      Along (step commit) (CanceledBefore rs)
        (serving (World.empty.afterAll pre).db (World.empty.afterAll pre).calls rs) ls := by
  have hm : Along (step commit) Allowed
      (serving (World.empty.afterAll pre).db (World.empty.afterAll pre).calls rs) ls :=
    along_mono (fun st l hl => meets_of hl.1 hl.2) _ _ (along_and _ _ answered guarded)
  have hstart : Consistent rs
      (serving (World.empty.afterAll pre).db (World.empty.afterAll pre).calls rs) :=
    ⟨serving_safeBy stable_samePayment hrs _ _, allSettled_afterAll pre lawful,
      canceledReversed_afterAll pre lawful⟩
  refine always_iff_along (I := Consistent rs) (C := Allowed)
    (fun st l st' h ha hst => consistent_step h ha hst)
    (fun st l st' h ha hc hst => converged_step h ha hc hst) ?_ hstart ?_ hm
  · intro st l hst
    simp [CanceledBefore, hst]
  · intro i stripeId hid hr
    exact absurd hr (not_returned hid)

end

def canceledEvent : StripeEvent :=
  ⟨"evt_1", "payment_intent.canceled", none, ⟨some "pi_1", some 2500, none⟩⟩

def atStripe : List (Op × Env) := [(.deliver canceledEvent, clock 1)]

def atBoth : List (Op × Env) :=
  [(.cancelIntent "pi_local_i" cancellation, clock 1), (.deliver canceledEvent, clock 2)]

def unreversed (st : Handlers Reply) (i : Nat) : Bool :=
  match st.threads[i]? with
  | some (.ret _) => st.store.paymentIntents.rows.any (fun p =>
      decide (p.stripePaymentIntentId = some "pi_1" ∧ p.status = .requiresPaymentMethod))
  | _ => false

theorem not_converged {rs : List (Op × Env)} {st : Handlers Reply} {i : Nat}
    (hid : canceledId rs i = some "pi_1") (h : unreversed st i = true) : ¬ Converged rs st := by
  intro hc
  unfold unreversed at h
  split at h
  · next reply hi =>
    obtain ⟨p, hp, hpe⟩ := List.any_eq_true.mp h
    obtain ⟨hs, hst⟩ := of_decide_eq_true hpe
    have hr := hc i "pi_1" hid ⟨reply, hi⟩ p hp hs (by simp [hst])
    rw [hr.canceled] at hst
    cases hst
  · cases h

/-- An event of a cancellation begun at Stripe leaves the intent as it is, and so does one that
follows a local cancel that died once Stripe had accepted it. -/
theorem cancellation_not_synced :
    (Along (step commit) Answered (serving pending.db pending.calls atStripe)
        [(0, .run), (0, .run)] ∧
      Along (step commit) Guarded (serving pending.db pending.calls atStripe)
        [(0, .run), (0, .run)] ∧
      ¬ Always (step commit) (Converged atStripe) (serving pending.db pending.calls atStripe)
        [(0, .run), (0, .run)]) ∧
    Along (step commit) Answered (serving pending.db pending.calls atBoth)
        [(0, .run), (0, canceled), (1, .run), (1, .run)] ∧
      Along (step commit) Guarded (serving pending.db pending.calls atBoth)
        [(0, .run), (0, canceled), (1, .run), (1, .run)] ∧
      ¬ Always (step commit) (Converged atBoth) (serving pending.db pending.calls atBoth)
        [(0, .run), (0, canceled), (1, .run), (1, .run)] := by
  have hnot : ∀ (rs : List (Op × Env)) (ls : List Label) (i : Nat),
      canceledId rs i = some "pi_1" →
      (∃ st ∈ run (step commit) (serving pending.db pending.calls rs) ls, unreversed st i = true) →
      ¬ Always (step commit) (Converged rs) (serving pending.db pending.calls rs) ls := by
    rintro rs ls i hid ⟨st, hrun, hst⟩ h
    exact not_converged hid hst (always_end h hrun)
  refine ⟨⟨by decide +kernel, by decide +kernel, hnot _ _ 0 rfl (by decide +kernel)⟩,
    by decide +kernel, by decide +kernel, hnot _ _ 1 rfl (by decide +kernel)⟩

/-- The event is delivered once the local cancel has been committed. -/
theorem converged_iff_canceled_before_atBoth :
    Always (step commit) (Converged atBoth)
        (serving (World.empty.afterAll ordered).db (World.empty.afterAll ordered).calls atBoth)
        [(0, .run), (0, canceled), (0, .run), (1, .run), (1, .run)] ↔
      Along (step commit) (CanceledBefore atBoth)
        (serving (World.empty.afterAll ordered).db (World.empty.afterAll ordered).calls atBoth)
        [(0, .run), (0, canceled), (0, .run), (1, .run), (1, .run)] := by
  refine converged_iff_canceled_before (by simp [atBoth, Later]) ordered ?_ _ (by decide +kernel)
    (by decide +kernel)
  simp only [ordered, along_cons]
  exact ⟨accepting_lawful (by decide) (by simp) _ _, trivial⟩

end SixGateway.Convergence
