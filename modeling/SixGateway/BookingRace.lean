import SixGateway.StripeContract
import SixGateway.Transactions

namespace SixGateway.BookingRace

open Library Library.Run Library.Pool Models Errors Database StripeClient LedgerService
open PaymentService Gateway Queries Bookings Effects StripeContract Concurrency Transactions

def OnePair : List LedgerLeg → Prop
  | [] => True
  | [d, c] => d.direction = .debit ∧ c.direction = .credit ∧ d.amount = c.amount
  | _ => False

instance : DecidablePred OnePair
  | [] => isTrue trivial
  | [_] => isFalse id
  | [_, _] => inferInstanceAs (Decidable (_ ∧ _ ∧ _))
  | _ :: _ :: _ :: _ => isFalse id

def captures (entries : List LedgerEntry) (id : String) : List LedgerLeg :=
  bookedAs entries id "payment_intent.succeeded"

def reversals (entries : List LedgerEntry) (id : String) : List LedgerLeg :=
  bookedAs entries id "payment_intent.canceled"

def BookedOnce (db : Db) : Prop :=
  ∀ p ∈ db.paymentIntents, OnePair (captures db.ledgerEntries p.id) ∧
    OnePair (reversals db.ledgerEntries p.id)

instance (db : Db) : Decidable (BookedOnce db) :=
  inferInstanceAs (Decidable (∀ p ∈ db.paymentIntents, _))

/-- The bookings of an intent, and the status that shows that they have been made. -/
structure Settled (entries : List LedgerEntry) (p : PaymentIntent) : Prop where
  capturedOnce : OnePair (captures entries p.id)
  reversedOnce : OnePair (reversals entries p.id)
  captured : captures entries p.id ≠ [] → p.status = .succeeded
  reversed : reversals entries p.id ≠ [] → p.status = .canceled ∨ p.status = .succeeded

/-- A committed row still passes the check that its handler has made on the row it has read: it is
not SUCCEEDED, and CANCELED only if it is now captured. -/
def Rechecked (loaded dirty p : PaymentIntent) : Prop :=
  dirty.status ≠ loaded.status →
    p.status ≠ .succeeded ∧ (dirty.status ≠ .succeeded → p.status ≠ .canceled)

/-- What is assumed of Stripe: it answers in lawful statuses. -/
def Answered (st : Handlers Reply) (l : Label) : Prop := ∀ c ∈ granting st l, Answers c.1 c.2

/-- A transaction that writes a status only to a row that passes the check again. -/
def ToRechecked (db : Db) (t : List Stmt) : Prop :=
  ∀ u ∈ updates t, ∀ p ∈ db.paymentIntents, p.id = u.1.id → Rechecked u.1 u.2 p

def Guarded (st : Handlers Reply) (l : Label) : Prop := ToRechecked st.store (committing st l)

instance (loaded dirty p : PaymentIntent) : Decidable (Rechecked loaded dirty p) :=
  inferInstanceAs (Decidable (_ → _ ∧ _))

instance (st : Handlers Reply) (l : Label) : Decidable (Answered st l) :=
  inferInstanceAs (Decidable (∀ c ∈ granting st l, _))

instance (st : Handlers Reply) (l : Label) : Decidable (Guarded st l) :=
  inferInstanceAs (Decidable (∀ u ∈ updates (committing st l), ∀ p ∈ st.store.paymentIntents, _ → _))

section

variable [StrLower] {r : Request} {loaded dirty p : PaymentIntent} {es entries : List LedgerEntry}
  {calls : Calls} {db db' : Db} {t : List Stmt}

omit [StrLower] in
theorem Settled.flushed (h : Settled entries p) (hg : Rechecked loaded dirty p) (now : Instant) :
    Settled entries (loaded.flush dirty now p) := by
  by_cases hs : dirty.status = loaded.status
  · have hst : (loaded.flush dirty now p).status = p.status := if_pos hs
    exact ⟨h.capturedOnce, h.reversedOnce, fun hc => hst.trans (h.captured hc),
      fun hr => hst ▸ h.reversed hr⟩
  · have hst : (loaded.flush dirty now p).status = dirty.status := if_neg hs
    obtain ⟨hne, hopen⟩ := hg hs
    refine ⟨h.capturedOnce, h.reversedOnce, fun hc => absurd (h.captured hc) hne, fun hr => .inr ?_⟩
    rw [hst]
    by_contra hd
    exact (h.reversed hr).elim (hopen hd) hne

omit [StrLower] in
theorem Settled.booked (h : Settled entries p)
    (hc : captures es p.id = [] ∨ captures entries p.id = [] ∧ OnePair (captures es p.id) ∧
      p.status = .succeeded)
    (hr : reversals es p.id = [] ∨ reversals entries p.id = [] ∧ OnePair (reversals es p.id) ∧
      p.status = .canceled) : Settled (entries ++ es) p := by
  have happ : ∀ d, bookedAs (entries ++ es) p.id d = bookedAs entries p.id d ++ bookedAs es p.id d :=
    fun d => bookedAs_append
  obtain ⟨hcap, hrev, hcst, hrst⟩ := h
  simp only [captures, reversals] at hcap hrev hcst hrst hc hr
  constructor <;> simp only [captures, reversals, happ]
  · obtain hc | ⟨hn, hc, -⟩ := hc
    · rwa [hc, List.append_nil]
    · rwa [hn, List.nil_append]
  · obtain hr | ⟨hn, hr, -⟩ := hr
    · rwa [hr, List.append_nil]
    · rwa [hn, List.nil_append]
  · obtain hc | ⟨-, -, hs⟩ := hc
    · rwa [hc, List.append_nil]
    · exact fun _ => hs
  · obtain hr | ⟨-, -, hs⟩ := hr
    · rwa [hr, List.append_nil]
    · exact fun _ => .inl hs

omit [StrLower] in
theorem Settled.other (h : Settled entries p) (hes : ∀ e ∈ es, e.paymentIntentId ≠ some p.id) :
    Settled (entries ++ es) p :=
  h.booked (.inl (bookedAs_other hes)) (.inl (bookedAs_other hes))

theorem Settled.changed (h : Settled entries p) (hid : p.id = loaded.id)
    (does : Changes r loaded dirty es calls) (answered : ∀ q o, (q, .ok o) ∈ calls → Answers q o)
    (hg : Rechecked loaded dirty p) (now : Instant) :
    Settled (entries ++ es) (loaded.flush dirty now p) := by
  refine (h.flushed hg now).booked ?_ ?_ <;> simp only [flush_id, hid]
  · cases does with
    | confirmed => exact .inl rfl
    | canceled =>
      refine .inl ?_
      rw [captures, reversal, bookedAs_pairEntries rfl]
      rfl
    | captured event asked succeeded stripeId named stripe pending n amount positive =>
      have hs : PaymentIntentStatus.succeeded ≠ loaded.status := Ne.symm pending
      refine .inr ⟨?_, ?_, if_neg hs⟩
      · rw [← hid]
        exact not_not.mp (fun hc => (hg hs).1 (h.captured hc))
      · rw [captures, capture, bookedAs_pairEntries rfl]
        exact ⟨rfl, rfl, rfl⟩
    | refunded id key amount reason asked named captured stripeId stripe n computed positive
        refundable o =>
      refine .inl ?_
      rw [captures, refundEntries, bookedAs_pairEntries rfl]
      exact if_neg (fun h => refund_description_ne o.id (by decide) (Option.some.inj h))
  · cases does with
    | confirmed => exact .inl rfl
    | canceled id payload asked named pending stripeId stripe o ans status parsed positive =>
      have hcanceled : status = .canceled :=
        eq_of_value parsed (answered _ o (List.mem_singleton_self _))
      subst hcanceled
      have hs : PaymentIntentStatus.canceled ≠ loaded.status := Ne.symm pending.1
      obtain ⟨hne, hopen⟩ := hg hs
      refine .inr ⟨?_, ?_, if_neg hs⟩
      · rw [← hid]
        exact not_not.mp (fun hr => (h.reversed hr).elim (hopen (by simp)) hne)
      · rw [reversals, reversal, bookedAs_pairEntries rfl]
        exact ⟨rfl, rfl, rfl⟩
    | captured =>
      refine .inl ?_
      rw [reversals, capture, bookedAs_pairEntries rfl]
      rfl
    | refunded id key amount reason asked named captured stripeId stripe n computed positive
        refundable o =>
      refine .inl ?_
      rw [reversals, refundEntries, bookedAs_pairEntries rfl]
      exact if_neg (fun h => refund_description_ne o.id (by decide) (Option.some.inj h))

def AllSettled (db : Db) : Prop := ∀ p ∈ db.paymentIntents, Settled db.ledgerEntries p

omit [StrLower] in
theorem AllSettled.bookedOnce (h : AllSettled db) : BookedOnce db :=
  fun p hp => ⟨(h p hp).capturedOnce, (h p hp).reversedOnce⟩

def Lawfully (q : StripeCall) (a : StripeAnswer) : Prop := ∀ o, a = .ok o → Answers q o

theorem settled_commit {rs : List (Op × Env)} {i : Nat} (h : AllSettled db)
    (ht : CommitsOf Lawfully rs i db t) (hg : ToRechecked db t) (hc : commit t db = .ok db') :
    AllSettled db' := by
  obtain ⟨r, -, ht⟩ := ht
  intro q hq
  have hledger := commit_ledger hc
  cases ht with
  | aside touches =>
    rw [hledger, touches.entries, List.append_nil]
    exact h q (commit_untouched hc touches ▸ hq)
  | change answer loaded dirty es calls does answered touches known =>
    rw [hledger, touches.entries]
    obtain ⟨hq, hne⟩ | ⟨p, hp, hid, now, rfl⟩ := mem_committed hc touches hq
    · refine (h q hq).other (fun e he heq => hne ?_)
      exact Option.some.inj (heq.symm.trans (intent_of_change does e he))
    · refine (h p hp).changed hid does (fun q o hm => answered q o hm o rfl) ?_ now
      exact hg (loaded, dirty) (by rw [touches.updates]; exact List.mem_singleton_self _) p hp hid

structure Reached (w : World) : Prop where
  references : ∀ e ∈ w.db.ledgerEntries, w.db.references e.paymentIntentId = true
  settled : AllSettled w.db

theorem rechecked_of_change (does : Changes r p dirty es calls) : Rechecked p dirty p := by
  cases does with
  | confirmed id payload asked named live => simp_all [Rechecked]
  | canceled id payload asked named pending => exact fun _ => ⟨pending.2, fun _ => pending.1⟩
  | captured event asked succeeded stripeId named stripe pending =>
    exact fun _ => ⟨pending, fun h => absurd rfl h⟩
  | refunded => exact fun h => absurd rfl h

theorem answered_of_change (does : Changes r p dirty es calls) :
    ∀ q o, (q, .ok o) ∈ calls → r.answer q = .ok o := by
  cases does with
  | confirmed id payload asked named live stripeId stripe o answered =>
    intro q o' hm
    cases List.mem_singleton.mp hm
    exact answered
  | canceled id payload asked named pending stripeId stripe o answered =>
    intro q o' hm
    cases List.mem_singleton.mp hm
    exact answered
  | captured => simp
  | refunded id key amount reason asked named captured stripeId stripe n computed positive
      refundable o answered =>
    intro q o' hm
    cases List.mem_singleton.mp hm
    exact answered

theorem reached_after {w : World} (hw : Reached w) (hl : Lawful w r) : Reached (w.after r) := by
  have he := request_effect r w
  refine ⟨references_after he hw.references, fun q hq => ?_⟩
  cases row_after he hq with
  | kept member es ledger others => exact ledger ▸ (hw.settled q member).other others
  | created payload merchant fresh o answered status parsed row unknown called ledger =>
    have hnew : ∀ e ∈ w.db.ledgerEntries, e.paymentIntentId ≠ some q.id :=
      unnamed_of_unknown hw.references (fun p hp => (unknown p hp).1)
    have hnone : ∀ d, d ≠ "payment_intent.created" → bookedAs (w.after r).db.ledgerEntries q.id d =
        [] := by
      intro d hd
      rw [World.after, ledger, bookedAs_append, bookedAs_other hnew, accrual,
        bookedAs_pairEntries rfl]
      exact if_neg (fun h => hd (Option.some.inj h).symm)
    have hc : captures (w.after r).db.ledgerEntries q.id = [] := hnone _ (by decide)
    have hr : reversals (w.after r).db.ledgerEntries q.id = [] := hnone _ (by decide)
    exact ⟨by rw [hc]; trivial, by rw [hr]; trivial, absurd hc, absurd hr⟩
  | changed p member dirty es does row ledger =>
    subst row
    exact ledger ▸ (hw.settled p member).changed rfl does
      (fun q o hm => hl.answers q o (answered_of_change does q o hm)) (rechecked_of_change does) _

omit [StrLower] in
theorem reached_empty : Reached World.empty := by
  constructor <;> simp [World.empty, Db.empty, AllSettled]

theorem allSettled_afterAll (rs : List Request) (h : Along Lawful World.empty rs) :
    AllSettled (World.empty.afterAll rs).db :=
  (afterAll_invariant (fun _ _ => reached_after) reached_empty h).settled

/-- Captures and reversals are booked at most once for every intent, in every committed state of
every interleaving in which a status is committed only to a row that passes the check again. -/
theorem booked_once {rs : List (Op × Env)} (hrs : ∀ r ∈ rs, Later r.1) (h : AllSettled db)
    (calls : Calls) (ls : List Label)
    (answered : Along (step commit) Answered (serving db calls rs) ls)
    (guarded : Along (step commit) Guarded (serving db calls rs) ls) :
    Always (step commit) (fun st => BookedOnce st.store) (serving db calls rs) ls := by
  have hm : Along (step commit) (Meets commit Lawfully (fun _ => ToRechecked))
      (serving db calls rs) ls :=
    along_mono (fun st l hl => meets_of hl.1 hl.2) _ _ (along_and _ _ answered guarded)
  refine always_mono (fun st hst => AllSettled.bookedOnce hst.2) _ _
    (always_commits (P := CommitsOf Lawfully rs) Keeps.refl Keeps.trans ?_ ?_
      (serving_safe hrs db calls) h hm)
  · exact fun i db t db' ht _ hc => ht.keeps hc
  · exact fun i db t db' hj ht hg hc => settled_commit hj ht hg hc

end

def ordered : List Request :=
  [⟨.createIntent order (some "mer_1"), clock 0, accepting .requiresAction⟩]

def pending : World := World.empty.afterAll ordered

def cancels : List (Op × Env) :=
  [(.cancelIntent "pi_local_i" cancellation, clock 1),
    (.cancelIntent "pi_local_i" cancellation, clock 2)]

def deliveries : List (Op × Env) :=
  [(.deliver (paid "evt_1"), clock 1), (.deliver (paid "evt_2"), clock 2)]

def canceled : Act StripeAnswer :=
  .answer (.ok ⟨"pi_1", PaymentIntentStatus.canceled.value, none⟩)

/-- A cancel and its retry that both read before either commits reverse the authorisation twice,
and two deliveries that both read before either commits capture twice. -/
theorem booked_twice :
    let retried := [(0, .run), (1, .run), (0, canceled), (1, canceled), (0, .run), (1, .run)]
    let redelivered := [(0, .run), (0, .run), (0, .run), (1, .run), (1, .run), (1, .run),
      (0, .run), (1, .run)]
    (Along (step commit) Answered (serving pending.db pending.calls cancels) retried ∧
      ¬ Always (step commit) (fun st => BookedOnce st.store)
        (serving pending.db pending.calls cancels) retried) ∧
    Along (step commit) Answered (serving pending.db pending.calls deliveries) redelivered ∧
      ¬ Always (step commit) (fun st => BookedOnce st.store)
        (serving pending.db pending.calls deliveries) redelivered := by
  decide +kernel

/-- The retry reads after the first cancel has committed. -/
theorem booked_once_cancel :
    Always (step commit) (fun st => BookedOnce st.store)
      (serving pending.db pending.calls cancels)
      [(0, .run), (0, canceled), (0, .run), (1, .run)] := by
  refine booked_once (by simp [cancels, Later]) (allSettled_afterAll ordered ?_) _ _
    (by decide +kernel) (by decide +kernel)
  simp only [ordered, along_cons]
  exact ⟨accepting_lawful (by decide) (by simp) _ _, trivial⟩

end SixGateway.BookingRace
