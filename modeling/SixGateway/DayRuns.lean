import SixGateway.Queries
import SixGateway.Reconciliation

namespace SixGateway.DayRuns

open Library Models Database StripeClient Reconciliation Queries

def net (bts : List BalanceTransaction) : Int := (bts.map BalanceTransaction.amount).sum

def isOf (pi : String) (bt : BalanceTransaction) : Bool :=
  decide (btPaymentIntentId bt = some pi)

variable {pi : String} {day : Int} {bts : List BalanceTransaction} {db : Db}

theorem stripeByPi_get (bts : List BalanceTransaction) (pi : String) :
    (stripeByPi bts).get? pi =
      if bts.filter (isOf pi) = [] then none else some (net (bts.filter (isOf pi))) := by
  rw [stripeByPi, Dict.get?_tally]
  have hsel : (bts.filterMap (fun bt => (btPaymentIntentId bt).map (fun i => (i, bt.amount)))).filter
      (fun e => decide (e.1 = pi)) = (bts.filter (isOf pi)).map (fun bt => (pi, bt.amount)) := by
    induction bts with
    | nil => rfl
    | cons bt bts ih =>
      cases hbt : btPaymentIntentId bt with
      | none => simp [hbt, isOf, ih]
      | some i =>
        by_cases hi : i = pi
        · subst hi
          simp [hbt, isOf, ih]
        · simp [hbt, isOf, ih, hi]
  have hmem : pi ∈ (bts.filterMap (fun bt =>
      (btPaymentIntentId bt).map (fun i => (i, bt.amount)))).map Prod.fst ↔
      bts.filter (isOf pi) ≠ [] := by
    rw [ne_eq, List.filter_eq_nil_iff]
    simp [isOf]
  rw [hsel]
  by_cases h : bts.filter (isOf pi) = []
  · rw [if_neg (fun hp => hmem.mp hp h), if_pos h]
  · rw [if_pos (hmem.mpr h), if_neg h]
    simp [net, Function.comp_def]

theorem mem_updatedOn {p : PaymentIntent} : p ∈ updatedOn day db ↔
    p ∈ db.paymentIntents ∧ p.stripePaymentIntentId.isSome ∧
      startOf day ≤ p.updatedAt ∧ p.updatedAt < startOf day + hours 24 := by
  simp [updatedOn, Table.select, Table.mem_def, and_assoc]

theorem nodup_stripeIds : (((updatedOn day db).filterMap (fun p =>
    p.stripePaymentIntentId.map (fun i => (i, p)))).map Prod.fst).Nodup := by
  have hu : (updatedOn day db).Pairwise (fun p q => clash p q = false) :=
    db.paymentIntents.unique.filter _
  rw [List.Nodup, List.pairwise_map, List.pairwise_filterMap]
  refine hu.imp (fun {p q} h a ha b hb heq => ?_)
  obtain ⟨i, hi, rfl⟩ := Option.map_eq_some_iff.mp ha
  obtain ⟨j, hj, rfl⟩ := Option.map_eq_some_iff.mp hb
  cases heq
  have hc : clash p q = true :=
    Table.clash_iff.mpr ⟨.stripePaymentIntentId i, by simp [Keyed.keys, hi],
      by simp [Keyed.keys, hj]⟩
  rw [h] at hc
  cases hc

theorem internalIntents_get {p : PaymentIntent} :
    (internalIntents (updatedOn day db)).get? pi = some p ↔
      p ∈ updatedOn day db ∧ p.stripePaymentIntentId = some pi := by
  rw [internalIntents, Dict.get?_ofList nodup_stripeIds]
  simp

theorem internalOn_get {n : Int} : (internalOn day db).get? pi = some n ↔
      ∃ p ∈ updatedOn day db, p.stripePaymentIntentId = some pi ∧ p.status = .succeeded ∧
        p.amountReceived - p.amountRefunded = n := by
  rw [internalOn, internalByPi, Dict.get?_ofList]
  · simp only [List.mem_map, List.mem_filter, decide_eq_true_eq, Prod.mk.injEq]
    constructor
    · rintro ⟨⟨i, p⟩, ⟨hp, hs⟩, rfl, rfl⟩
      obtain ⟨hp, hi⟩ := internalIntents_get.mp (Dict.get?_eq_some.mpr hp)
      exact ⟨p, hp, hi, hs, rfl⟩
    · rintro ⟨p, hp, hi, hs, rfl⟩
      exact ⟨(pi, p), ⟨Dict.get?_eq_some.mp (internalIntents_get.mpr ⟨hp, hi⟩), hs⟩, rfl, rfl⟩
  · have hk := (internalIntents (updatedOn day db)).nodup.sublist
      (List.filter_sublist (p := fun i => decide (i.2.status = .succeeded)) |>.map Prod.fst)
    simpa [List.map_map, Function.comp_def] using hk

theorem classify_id {stripe internal : Dict String Int} {m : Mismatch}
    (h : classify stripe internal pi = some m) : m.stripePaymentIntentId = pi := by
  unfold classify at h
  split at h
  · cases h
    rfl
  · cases h
    rfl
  · split at h <;> cases h
    rfl

theorem mem_mismatches {m : Mismatch} : m ∈ (reconcileDay day bts db).mismatches ↔
    ∃ pi, (((stripeByPi bts).get? pi).isSome ∨ ((internalOn day db).get? pi).isSome) ∧
      classify (stripeByPi bts) (internalOn day db) pi = some m := by
  simp [reconcileDay, Dict.mem_keys_iff]

/-- A payment is reported exactly when its two sides differ. -/
theorem reported_iff : (∃ m ∈ (reconcileDay day bts db).mismatches, m.stripePaymentIntentId = pi) ↔
    (stripeByPi bts).get? pi ≠ (internalOn day db).get? pi := by
  constructor
  · rintro ⟨m, hm, rfl⟩ heq
    obtain ⟨pi, hkey, hc⟩ := mem_mismatches.mp hm
    rw [classify_id hc] at heq
    rw [heq, or_self] at hkey
    obtain ⟨n, hn⟩ := Option.isSome_iff_exists.mp hkey
    simp [classify, heq, hn] at hc
  · intro hne
    have hreport : ∃ m, (((stripeByPi bts).get? pi).isSome ∨
        ((internalOn day db).get? pi).isSome) ∧
        classify (stripeByPi bts) (internalOn day db) pi = some m := by
      cases hs : (stripeByPi bts).get? pi with
      | none =>
        cases hi : (internalOn day db).get? pi with
        | none => exact absurd (hs.trans hi.symm) hne
        | some n => exact ⟨.missingStripe pi (some n), by simp, by simp [classify, hs, hi]⟩
      | some n =>
        cases hi : (internalOn day db).get? pi with
        | none => exact ⟨.missingInternal pi n, by simp, by simp [classify, hs, hi]⟩
        | some k =>
          have hnk : n ≠ k := fun h => hne (by rw [hs, hi, h])
          exact ⟨.amountMismatch pi n k (n - k), by simp, by simp [classify, hs, hi, hnk]⟩
    obtain ⟨m, hkey, hc⟩ := hreport
    exact ⟨m, mem_mismatches.mpr ⟨pi, hkey, hc⟩, classify_id hc⟩

end SixGateway.DayRuns
