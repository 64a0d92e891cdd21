import SixGateway.StripeContract

namespace SixGateway.Refunds

open Library Models Errors Database StripeClient LedgerService PaymentService Gateway
open Queries Bookings Outcomes Effects StripeContract

structure Refund where
  id : String
  paymentIntent : String
  amount : Int
  deriving DecidableEq

def acceptedRefunds (calls : Calls) : List Refund :=
  calls.filterMap fun c =>
    match c with
    | (.createRefund paymentIntent amount _ _, .ok o) => some ⟨o.id, paymentIntent, amount⟩
    | _ => none

/-- The distinct refunds of a payment that Stripe has made. -/
def refundsOf (calls : Calls) (stripeId : String) : List Refund :=
  (acceptedRefunds calls).dedup.filter (fun f => decide (f.paymentIntent = stripeId))

/-- The books hold one pair for every refund that Stripe has made and none for any other, and a
row counts each of its refunds once. -/
structure RefundsOnce (w : World) : Prop where
  booked : ∀ f ∈ acceptedRefunds w.calls, ∃ p ∈ w.db.paymentIntents,
    p.stripePaymentIntentId = some f.paymentIntent ∧
    bookedUnder w.db.ledgerEntries ("refund:" ++ f.id) =
      pair "payments_captured" (customerAccount p.customerId) f.amount
  unbooked : ∀ id, (∀ f ∈ acceptedRefunds w.calls, f.id ≠ id) →
    bookedUnder w.db.ledgerEntries ("refund:" ++ id) = []
  totals : ∀ p ∈ w.db.paymentIntents, ∀ stripeId, p.stripePaymentIntentId = some stripeId →
    p.amountRefunded = ((refundsOf w.calls stripeId).map Refund.amount).sum

theorem mem_acceptedRefunds {calls : Calls} {f : Refund} : f ∈ acceptedRefunds calls ↔
    ∃ key reason o, (.createRefund f.paymentIntent f.amount key reason, .ok o) ∈ calls ∧
      o.id = f.id := by
  simp only [acceptedRefunds, List.mem_filterMap]
  constructor
  · rintro ⟨⟨q, a⟩, hm, h⟩
    split at h
    · next paymentIntent amount key reason o heq =>
      cases heq
      cases h
      exact ⟨key, reason, o, hm, rfl⟩
    · cases h
  · rintro ⟨key, reason, o, hm, hid⟩
    exact ⟨_, hm, by simp [hid]⟩

theorem acceptedRefunds_append (calls more : Calls) :
    acceptedRefunds (calls ++ more) = acceptedRefunds calls ++ acceptedRefunds more :=
  List.filterMap_append

section

variable [StrLower]

/-- What is assumed of Stripe about refunds: a key that was used is answered with its refund, for
the same parameters only, and a new key makes a new refund. -/
structure Keyed (w : World) (r : Request) : Prop where
  same : ∀ stripeId n key reason o, r.answer (.createRefund stripeId n key reason) = .ok o →
    ∀ stripeId' n' reason' o', (.createRefund stripeId' n' key reason', .ok o') ∈ w.calls →
      stripeId' = stripeId ∧ n' = n ∧ reason' = reason ∧ o'.id = o.id
  fresh : ∀ stripeId n key reason o, r.answer (.createRefund stripeId n key reason) = .ok o →
    ∀ stripeId' n' key' reason' o', (.createRefund stripeId' n' key' reason', .ok o') ∈ w.calls →
      key' ≠ key → o'.id ≠ o.id

/-- A request that passes every check of `refund_intent` on the row `p` and for which Stripe
answers with the refund `f`. -/
def Makes (r : Request) (p : PaymentIntent) (f : Refund) (key : String) (reason : Option String) :
    Prop :=
  ∃ amount o, r.op = .refundIntent p.id key amount reason ∧ p.status = .succeeded ∧
    truthy p.stripePaymentIntentId = some f.paymentIntent ∧
    amount.getD (p.amountReceived - p.amountRefunded) = f.amount ∧
    0 < f.amount ∧ f.amount ≤ p.amountReceived - p.amountRefunded ∧
    r.answer (createRefund f.paymentIntent f.amount key reason) = .ok o ∧ o.id = f.id

def Rebooks (w : World) (r : Request) : Prop :=
  ∃ p ∈ w.db.paymentIntents, ∃ f key reason, Makes r p f key reason ∧
    ∃ o, (createRefund f.paymentIntent f.amount key reason, .ok o) ∈ w.calls

variable {w : World} {r : Request} {p dirty : PaymentIntent} {es : List LedgerEntry} {db db' : Db}
  {calls : Calls}

omit [StrLower] in
theorem acceptedRefunds_quiet (h : ∀ q o, (q, .ok o) ∈ calls → ¬ IsRefund q) :
    acceptedRefunds calls = [] := by
  refine List.eq_nil_iff_forall_not_mem.mpr (fun f hf => ?_)
  obtain ⟨key, reason, o, hm, -⟩ := mem_acceptedRefunds.mp hf
  exact h _ o hm ⟨_, _, key, reason, rfl⟩

theorem refunds_of_effect (h : Effect r db calls db') : ∃ es,
    db'.ledgerEntries = db.ledgerEntries ++ es ∧
    ((acceptedRefunds calls = [] ∧ ∀ id, bookedUnder es ("refund:" ++ id) = []) ∨
      ∃ p ∈ db.paymentIntents, ∃ f key reason, Makes r p f key reason ∧
        acceptedRefunds calls = [f] ∧
        ∀ id, bookedUnder es ("refund:" ++ id) = if id = f.id then
          pair "payments_captured" (customerAccount p.customerId) f.amount else []) := by
  have hfixed : ∀ (b : Booking) (env : Env) (debited credited d : String) (n : Int),
      b.description = some d → d.toList.head? = some 'p' → ∀ id,
      bookedUnder (pairEntries b env debited credited n) ("refund:" ++ id) = [] := by
    intro b env debited credited d n hb hd id
    rw [bookedUnder_pairEntries, hb]
    exact if_neg (fun h => refund_description_ne id hd (Option.some.inj h).symm)
  cases h with
  | still _ quiet _ intents ledger =>
    exact ⟨[], by simp [ledger], .inl ⟨acceptedRefunds_quiet quiet, fun _ => rfl⟩⟩
  | created payload merchant fresh o answered status parsed t inserted _ intents ledger =>
    exact ⟨_, ledger, .inl ⟨rfl, hfixed _ _ _ _ _ _ rfl (by decide)⟩⟩
  | changed p member dirty es _ does _ intents ledger =>
    refine ⟨es, ledger, ?_⟩
    cases does with
    | confirmed => exact .inl ⟨rfl, fun _ => rfl⟩
    | canceled => exact .inl ⟨rfl, hfixed _ _ _ _ _ _ rfl (by decide)⟩
    | captured => exact .inl ⟨rfl, hfixed _ _ _ _ _ _ rfl (by decide)⟩
    | refunded id key amount reason asked named captured stripeId stripe n computed positive
        refundable o answered =>
      subst named
      refine .inr ⟨p, member, ⟨o.id, stripeId, n⟩, key, reason, ⟨amount, o, asked, captured, stripe,
        computed, positive, refundable, answered, rfl⟩, rfl, bookedUnder_refund⟩

theorem acceptedRefunds_of_change (h : Changes r p dirty es calls) :
    (acceptedRefunds calls = [] ∧ dirty.amountRefunded = p.amountRefunded) ∨
      ∃ id stripeId n, p.stripePaymentIntentId = some stripeId ∧
        acceptedRefunds calls = [⟨id, stripeId, n⟩] ∧
        dirty.amountRefunded = p.amountRefunded + n := by
  cases h with
  | confirmed => exact .inl ⟨rfl, rfl⟩
  | canceled => exact .inl ⟨rfl, rfl⟩
  | captured => exact .inl ⟨rfl, rfl⟩
  | refunded id key amount reason asked named captured stripeId stripe n computed positive
      refundable o answered =>
    exact .inr ⟨o.id, stripeId, n, truthy_some stripe, rfl, rfl⟩

def refundedBy (calls : Calls) (stripeId : String) : Int :=
  (((acceptedRefunds calls).filter (fun f => decide (f.paymentIntent = stripeId))).map
    Refund.amount).sum

theorem amountRefunded_after {q : PaymentIntent} {stripeId : String} (h : Effect r db calls db')
    (hq : q ∈ db'.paymentIntents) (hs : q.stripePaymentIntentId = some stripeId) :
    (∃ p ∈ db.paymentIntents, p.stripePaymentIntentId = some stripeId ∧
      q.amountRefunded = p.amountRefunded + refundedBy calls stripeId) ∨
    (q.amountRefunded = 0 ∧ refundedBy calls stripeId = 0 ∧
      ∀ p ∈ db.paymentIntents, p.stripePaymentIntentId ≠ some stripeId) := by
  cases h with
  | still _ quiet _ intents =>
    exact .inl ⟨q, intents ▸ hq, hs, by simp [refundedBy, acceptedRefunds_quiet quiet]⟩
  | created payload merchant fresh o answered status parsed t inserted _ intents =>
    obtain h | rfl := (Table.mem_insert inserted).mp (intents ▸ hq)
    · exact .inl ⟨q, h, hs, by simp [refundedBy, acceptedRefunds, createCall]⟩
    · refine .inr ⟨rfl, rfl, fun p hp => ?_⟩
      rw [← hs]
      exact (insert_fresh inserted hp).2.2 (by simp [newIntent])
  | changed p member dirty es _ does _ intents =>
    refine .inl ?_
    obtain rfl | ⟨h, hne⟩ := (mem_updateIntent_loaded member).mp (intents ▸ hq)
    · refine ⟨p, member, hs, (flush_loaded p dirty r.env.now).2.2.trans ?_⟩
      obtain ⟨hc, hd⟩ | ⟨id, sid, n, hsid, hc, hd⟩ := acceptedRefunds_of_change does
      · simp [refundedBy, hc, hd]
      · obtain rfl : sid = stripeId := Option.some.inj (hsid.symm.trans hs)
        simp [refundedBy, hc, hd]
    · refine ⟨q, h, hs, ?_⟩
      obtain ⟨hc, hd⟩ | ⟨id, sid, n, hsid, hc, hd⟩ := acceptedRefunds_of_change does
      · simp [refundedBy, hc]
      · have hsne : sid ≠ stripeId := by
          rintro rfl
          exact hne (congrArg PaymentIntent.id (eq_of_stripeId h member hs hsid))
        simp [refundedBy, hc, hsne]

theorem fresh_refund (hk : Keyed w r) (hn : ¬ Rebooks w r) (hp : p ∈ w.db.paymentIntents)
    {f : Refund} {key : String} {reason : Option String} (hf : Makes r p f key reason) :
    ∀ g ∈ acceptedRefunds w.calls, g.id ≠ f.id := by
  intro g hg
  have hmakes := hf
  obtain ⟨amount, o, -, -, -, -, -, -, ho, hid⟩ := hf
  obtain ⟨key', reason', o', hm, hid'⟩ := mem_acceptedRefunds.mp hg
  rw [← hid, ← hid']
  by_cases hkey : key' = key
  · subst hkey
    obtain ⟨hstripe, hamount, hreason, -⟩ := hk.same _ _ _ _ _ ho _ _ _ _ hm
    rw [hstripe, hamount, hreason] at hm
    exact absurd ⟨p, hp, f, key', reason, hmakes, o', hm⟩ hn
  · exact hk.fresh _ _ _ _ _ ho _ _ _ _ _ hm hkey

structure Once (w : World) : Prop extends RefundsOnce w where
  distinct : ((acceptedRefunds w.calls).map Refund.id).Nodup

omit [StrLower] in
theorem refundsOf_eq (h : ((acceptedRefunds calls).map Refund.id).Nodup) (stripeId : String) :
    refundsOf calls stripeId =
      (acceptedRefunds calls).filter (fun f => decide (f.paymentIntent = stripeId)) := by
  rw [refundsOf, (List.Nodup.of_map _ h).dedup]

omit [StrLower] in
theorem once_empty : Once World.empty where
  booked := by simp [World.empty, acceptedRefunds]
  unbooked := fun _ _ => rfl
  totals := by simp [World.empty, Db.empty]
  distinct := List.nodup_nil

omit [StrLower] in
theorem refundsOf_sum (h : ((acceptedRefunds calls).map Refund.id).Nodup) (stripeId : String) :
    ((refundsOf calls stripeId).map Refund.amount).sum = refundedBy calls stripeId := by
  rw [refundsOf_eq h, refundedBy]

omit [StrLower] in
theorem refundedBy_append (more : Calls) (stripeId : String) :
    refundedBy (calls ++ more) stripeId = refundedBy calls stripeId + refundedBy more stripeId := by
  simp [refundedBy, acceptedRefunds_append]

theorem new_refunds (hk : Keyed w r) (hn : ¬ Rebooks w r) : ∃ es,
    (w.after r).db.ledgerEntries = w.db.ledgerEntries ++ es ∧
    ((acceptedRefunds (r.outcome w).calls).map Refund.id).Nodup ∧
    (∀ f ∈ acceptedRefunds (r.outcome w).calls, (∀ g ∈ acceptedRefunds w.calls, g.id ≠ f.id) ∧
      ∃ p ∈ w.db.paymentIntents, p.stripePaymentIntentId = some f.paymentIntent ∧
        bookedUnder es ("refund:" ++ f.id) =
          pair "payments_captured" (customerAccount p.customerId) f.amount) ∧
    ∀ id, (∀ f ∈ acceptedRefunds (r.outcome w).calls, f.id ≠ id) →
      bookedUnder es ("refund:" ++ id) = [] := by
  obtain ⟨es, hledger, hcases⟩ := refunds_of_effect (request_effect r w)
  refine ⟨es, hledger, ?_⟩
  obtain ⟨hc, hes⟩ | ⟨p, hp, f, key, reason, hmakes, hc, hes⟩ := hcases
  · exact ⟨by simp [hc], by simp [hc], fun id _ => hes id⟩
  · refine ⟨by simp [hc], fun g hg => ?_, fun id hid => ?_⟩
    · obtain rfl : g = f := List.mem_singleton.mp (hc ▸ hg)
      have hmade := hmakes
      obtain ⟨-, -, -, -, hs, -⟩ := hmade
      exact ⟨fresh_refund hk hn hp hmakes, p, hp, truthy_some hs, (hes g.id).trans (if_pos rfl)⟩
    · rw [hes, if_neg]
      rintro rfl
      exact hid _ (hc ▸ List.mem_singleton_self _) rfl

theorem once_after (hw : Once w) (hk : Keyed w r) (hn : ¬ Rebooks w r) : Once (w.after r) := by
  have he := request_effect r w
  obtain ⟨es, hledger, hnodup, hnew, hnone⟩ := new_refunds hk hn
  have hcalls : acceptedRefunds (w.after r).calls =
      acceptedRefunds w.calls ++ acceptedRefunds (r.outcome w).calls := acceptedRefunds_append ..
  have hdistinct : ((acceptedRefunds (w.after r).calls).map Refund.id).Nodup := by
    rw [hcalls, List.map_append, List.nodup_append]
    refine ⟨hw.distinct, hnodup, ?_⟩
    simp only [List.mem_map]
    rintro _ ⟨f, hf, rfl⟩ _ ⟨g, hg, rfl⟩
    exact (hnew g hg).1 f hf
  refine ⟨⟨fun f hf => ?_, fun id hid => ?_, fun q hq stripeId hs => ?_⟩, hdistinct⟩
  · rw [hledger, bookedUnder_append]
    obtain h | h := List.mem_append.mp (hcalls ▸ hf)
    · obtain ⟨p, hp, hs, hb⟩ := hw.booked f h
      obtain ⟨q, hq, -, hqs, hqc, -⟩ := row_remains he hp
      refine ⟨q, hq, hqs.trans hs, ?_⟩
      rw [hb, hqc, hnone f.id (fun g hg => (Ne.symm ((hnew g hg).1 f h))), List.append_nil]
    · obtain ⟨hfresh, p, hp, hs, hb⟩ := hnew f h
      obtain ⟨q, hq, -, hqs, hqc, -⟩ := row_remains he hp
      refine ⟨q, hq, hqs.trans hs, ?_⟩
      rw [hb, hqc, hw.unbooked f.id hfresh, List.nil_append]
  · simp only [hcalls, List.mem_append] at hid
    rw [hledger, bookedUnder_append, hw.unbooked id (fun f hf => hid f (.inl hf)),
      hnone id (fun f hf => hid f (.inr hf))]
    rfl
  · rw [refundsOf_sum hdistinct]
    refine Eq.trans ?_ (refundedBy_append (r.outcome w).calls stripeId).symm
    obtain ⟨p, hp, hps, h⟩ | ⟨h0, hnil, hunknown⟩ := amountRefunded_after he hq hs
    · rw [h, hw.totals p hp stripeId hps, refundsOf_sum hw.distinct]
    · have hz : refundedBy w.calls stripeId = 0 := by
        have hempty : (acceptedRefunds w.calls).filter
            (fun f => decide (f.paymentIntent = stripeId)) = [] := by
          refine List.filter_eq_nil_iff.mpr (fun f hf => ?_)
          obtain ⟨p, hp, hps, -⟩ := hw.booked f hf
          have hne := hunknown p hp
          simp_all
        simp [refundedBy, hempty]
      rw [h0, hz, hnil]
      rfl

theorem refund_outcome (id key : String) (amount : Option Int) (reason : Option String)
    (hop : r.op = .refundIntent id key amount reason) (w : World) :
    ∃ out, ByIdOutcome id w.db (fun _ => False) (fun _ _ _ => False)
      (Outcomes.Refunds key amount reason r.env r.answer w.db) out ∧
      (r.outcome w).store = out.store ∧ (r.outcome w).result = out.result.map .intent := by
  obtain ⟨op, env, answer⟩ := r
  cases hop
  refine ⟨serve answer (refundIntent id key amount reason env) w.db,
    refundIntent_outcome id key amount reason, ?_, ?_⟩ <;>
    rw [Request.outcome, Op.program, serve_map]

theorem makes_outcome {f : Refund} {key : String} {reason : Option String}
    (hp : p ∈ w.db.paymentIntents) (hf : Makes r p f key reason) :
    (r.outcome w).store.ledgerEntries =
        w.db.ledgerEntries ++ refundEntries p f.amount f.id reason r.env ∧
      ∃ reply, (r.outcome w).result = .ok reply := by
  obtain ⟨op, env, answer⟩ := r
  obtain ⟨amount, o, hop, hstatus, hs, hn, hpos, hle, ho, hid⟩ := hf
  cases hop
  rw [Request.outcome, Op.program, serve_map,
    refundIntent_passes (intentById_of_mem hp) hstatus hs hn hpos hle ho, ← hid]
  exact ⟨rfl, _, rfl⟩

theorem makes_of_ok {id key : String} {amount : Option Int} {reason : Option String}
    (hop : r.op = .refundIntent id key amount reason) {reply : Reply}
    (hr : (r.outcome w).result = .ok reply) :
    ∃ p ∈ w.db.paymentIntents, ∃ f, Makes r p f key reason := by
  obtain ⟨out, hout, -, hresult⟩ := refund_outcome id key amount reason hop w
  rw [hresult] at hr
  cases hout with
  | missing => cases hr
  | settled _ _ h => exact h.elim
  | raised => cases hr
  | done p looked out does =>
    obtain ⟨hp, rfl⟩ := intentById_some looked
    cases does with
    | mk captured stripeId named n asked positive refundable o answered =>
      exact ⟨p, hp, ⟨o.id, stripeId, n⟩, amount, o, hop, captured, named, asked, positive,
        refundable, answered, rfl⟩

theorem refund_books {id key : String} {amount : Option Int} {reason : Option String}
    (hop : r.op = .refundIntent id key amount reason) {reply : Reply}
    (hr : (r.outcome w).result = .ok reply) : (r.outcome w).store ≠ w.db := by
  intro h
  obtain ⟨p, hp, f, hf⟩ := makes_of_ok hop hr
  have hlen := congrArg List.length (makes_outcome hp hf).1
  simp [h, refundEntries, pairEntries] at hlen

/-- A retry of a refund request that returned success returns the intent and changes nothing. -/
def RetriesKept (rs : List Request) : Prop :=
  ∀ pre first mid retry post, rs = pre ++ first :: (mid ++ retry :: post) →
    ∀ id key amount reason, first.op = .refundIntent id key amount reason → retry.op = first.op →
      (∃ reply, (first.outcome (World.empty.afterAll pre)).result = .ok reply) →
      (∃ p, (retry.outcome (World.empty.afterAll (pre ++ first :: mid))).result = .ok (.intent p) ∧
        p.id = id) ∧
      (retry.outcome (World.empty.afterAll (pre ++ first :: mid))).store =
        (World.empty.afterAll (pre ++ first :: mid)).db

def Retried (rs : List Request) : Prop :=
  ∃ pre first mid retry post, rs = pre ++ first :: (mid ++ retry :: post) ∧ retry.op = first.op ∧
    ∃ p ∈ (World.empty.afterAll pre).db.paymentIntents, ∃ f key reason, Makes first p f key reason

theorem retriesKept_iff (rs : List Request) : RetriesKept rs ↔ ¬ Retried rs := by
  constructor
  · rintro h ⟨pre, first, mid, retry, post, heq, hr, p, hp, f, key, reason, hf⟩
    have hmakes := hf
    obtain ⟨amount, o, hop, -⟩ := hmakes
    obtain ⟨⟨q, hres, -⟩, hstore⟩ :=
      h pre first mid retry post heq p.id key amount reason hop hr (makes_outcome hp hf).2
    exact refund_books (hr.trans hop) hres hstore
  · intro h pre first mid retry post heq id key amount reason hop hr ⟨reply, hok⟩
    obtain ⟨p, hp, f, hf⟩ := makes_of_ok hop hok
    exact absurd ⟨pre, first, mid, retry, post, heq, hr, p, hp, f, key, reason, hf⟩ h

/-- A refund made before would be in the books twice. -/
theorem not_rebooks (hk : Keyed w r) (hw : RefundsOnce w) (hw' : RefundsOnce (w.after r)) :
    ¬ Rebooks w r := by
  rintro ⟨p, hp, f, key, reason, hmakes, o', hm⟩
  have hledger : (w.after r).db.ledgerEntries = _ := (makes_outcome hp hmakes).1
  obtain ⟨amount, o, -, -, -, -, -, -, ho, hid⟩ := hmakes
  have hid' : o'.id = f.id := (hk.same _ _ _ _ _ ho _ _ _ _ hm).2.2.2.trans hid
  have hf : f ∈ acceptedRefunds w.calls := mem_acceptedRefunds.mpr ⟨_, _, o', hm, hid'⟩
  have hf' : f ∈ acceptedRefunds (w.after r).calls := by
    rw [World.after, acceptedRefunds_append]
    exact List.mem_append_left _ hf
  obtain ⟨q, -, -, hb⟩ := hw.booked f hf
  obtain ⟨q', -, -, hb'⟩ := hw'.booked f hf'
  rw [hledger, bookedUnder_append, hb, bookedUnder_refund, if_pos rfl] at hb'
  have hlen := congrArg List.length hb'
  simp [pair] at hlen

/-- Refunds are idempotent in a run exactly when no request of it is answered with a refund made
before and no refund request that made one is sent again. -/
theorem refunds_idempotent_iff (rs : List Request) (keyed : Along Keyed World.empty rs) :
    ((∀ pre post, rs = pre ++ post → RefundsOnce (World.empty.afterAll pre)) ∧ RetriesKept rs) ↔
      (Along (fun w r => ¬ Rebooks w r) World.empty rs ∧ ¬ Retried rs) := by
  rw [retriesKept_iff]
  refine and_congr_left (fun _ => ⟨fun h => ?_, fun h pre post heq => ?_⟩)
  · refine (along_iff ..).mpr (fun pre r post heq => ?_)
    refine not_rebooks ((along_iff ..).mp keyed pre r post heq) (h pre _ heq) ?_
    have hr := h (pre ++ [r]) post (by simp [heq])
    rwa [afterAll_append] at hr
  · subst heq
    have hpre := ((along_append ..).mp (along_and keyed h)).1
    have hw := afterAll_invariant (fun w r hw hc => once_after hw hc.1 hc.2) once_empty hpre
    exact hw.toRefundsOnce

end

def settledOrder : List Request := [
  ⟨.createIntent order (some "mer_1"), clock 0, accepting .requiresAction⟩,
  ⟨.deliver (paid "evt_1"), clock 1, accepting .requiresAction⟩]

/-- A refund of 300 under a key, which Stripe answers with the refund of that key. -/
def refundOf300 (key : String) : Request where
  op := .refundIntent "pi_local_i" key (some 300) none
  env := clock 2
  answer q :=
    if q = createRefund "pi_1" 300 key none then .ok ⟨"re_" ++ key, "succeeded", none⟩
    else .error "declined"

def answeredBy300 : StripeCall × StripeAnswer → Bool
  | (.createRefund stripeId n key reason, .ok o) =>
    decide (stripeId = "pi_1" ∧ n = 300 ∧ reason = none ∧ o.id = "re_" ++ key)
  | _ => true

theorem keyed_refundOf300 {w : World} (h : w.calls.all answeredBy300 = true) (key : String) :
    Keyed w (refundOf300 key) := by
  have hq : ∀ stripeId n k reason o, (refundOf300 key).answer (.createRefund stripeId n k reason) =
      .ok o → stripeId = "pi_1" ∧ n = 300 ∧ k = key ∧ reason = none ∧ o.id = "re_" ++ key := by
    intro stripeId n k reason o ho
    by_cases heq : StripeCall.createRefund stripeId n k reason = createRefund "pi_1" 300 key none
    · cases (if_pos heq).symm.trans ho
      cases heq
      exact ⟨rfl, rfl, rfl, rfl, rfl⟩
    · cases (if_neg heq).symm.trans ho
  have hm : ∀ stripeId n k reason o, (StripeCall.createRefund stripeId n k reason, Except.ok o) ∈
      w.calls → stripeId = "pi_1" ∧ n = 300 ∧ reason = none ∧ o.id = "re_" ++ k :=
    fun _ _ _ _ _ hm => of_decide_eq_true (List.all_eq_true.mp h _ hm)
  constructor
  · intro stripeId n k reason o ho stripeId' n' reason' o' hmem
    obtain ⟨rfl, rfl, rfl, rfl, hid⟩ := hq _ _ _ _ _ ho
    obtain ⟨rfl, rfl, rfl, hid'⟩ := hm _ _ _ _ _ hmem
    exact ⟨rfl, rfl, rfl, hid'.trans hid.symm⟩
  · intro stripeId n k reason o ho stripeId' n' k' reason' o' hmem hne
    obtain ⟨rfl, rfl, rfl, rfl, hid⟩ := hq _ _ _ _ _ ho
    obtain ⟨rfl, rfl, rfl, hid'⟩ := hm _ _ _ _ _ hmem
    rw [hid, hid']
    intro heq
    have hl := congrArg String.toList heq
    rw [String.toList_append, String.toList_append] at hl
    exact hne (String.toList_injective (List.append_cancel_left hl))

theorem keyed_of_none [StrLower] {w : World} (hnone : acceptedRefunds w.calls = []) (r : Request) :
    Keyed w r := by
  have hno : ∀ stripeId n key reason o,
      (StripeCall.createRefund stripeId n key reason, Except.ok o) ∉ w.calls := by
    intro stripeId n key reason o hm
    have hf : (⟨o.id, stripeId, n⟩ : Refund) ∈ acceptedRefunds w.calls :=
      mem_acceptedRefunds.mpr ⟨key, reason, o, hm, rfl⟩
    rw [hnone] at hf
    cases hf
  exact ⟨fun _ _ _ _ _ _ _ _ _ _ hm => absurd hm (hno _ _ _ _ _),
    fun _ _ _ _ _ _ _ _ _ _ _ hm => absurd hm (hno _ _ _ _ _)⟩

theorem keyed_settledOrder (key key' : String) (h : (World.empty.afterAll
    (settledOrder ++ [refundOf300 key])).calls.all answeredBy300 = true) :
    Along Keyed World.empty (settledOrder ++ [refundOf300 key, refundOf300 key']) := by
  have hlast : Keyed (World.empty.afterAll (settledOrder ++ [refundOf300 key])) (refundOf300 key') :=
    keyed_refundOf300 h key'
  simp only [settledOrder, List.cons_append, List.nil_append, along_cons]
  exact ⟨keyed_of_none rfl _, keyed_of_none rfl _, keyed_of_none rfl _, hlast, trivial⟩

/-- The retry of a refund of 300 is answered with the refund made before, and books it again. -/
theorem refund_rebooked :
    Along Keyed World.empty (settledOrder ++ [refundOf300 "refund-1", refundOf300 "refund-1"]) ∧
      ¬ RefundsOnce (World.empty.afterAll
        (settledOrder ++ [refundOf300 "refund-1", refundOf300 "refund-1"])) ∧
      ¬ RetriesKept (settledOrder ++ [refundOf300 "refund-1", refundOf300 "refund-1"]) := by
  refine ⟨keyed_settledOrder _ _ (by decide +kernel), fun h => ?_, fun h => ?_⟩
  · obtain ⟨p, -, -, hb⟩ := h.booked ⟨"re_refund-1", "pi_1", 300⟩ (by decide +kernel)
    have htwice : (bookedUnder (World.empty.afterAll (settledOrder ++
        [refundOf300 "refund-1", refundOf300 "refund-1"])).db.ledgerEntries
        "refund:re_refund-1").length = 4 := by decide +kernel
    rw [show "refund:re_refund-1" = "refund:" ++ "re_refund-1" by decide, hb] at htwice
    cases htwice
  · have hkept := h settledOrder _ [] _ [] rfl _ _ _ _ rfl rfl ⟨_, rfl⟩
    exact refund_books rfl rfl hkept.2

/-- Two refunds of 300 under two keys. -/
theorem refunds_idempotent_two :
    let rs := settledOrder ++ [refundOf300 "refund-1", refundOf300 "refund-2"]
    ((∀ pre post, rs = pre ++ post → RefundsOnce (World.empty.afterAll pre)) ∧ RetriesKept rs) ↔
      (Along (fun w r => ¬ Rebooks w r) World.empty rs ∧ ¬ Retried rs) :=
  refunds_idempotent_iff _ (keyed_settledOrder _ _ (by decide +kernel))

end SixGateway.Refunds
