import Mathlib.Data.String.Basic
import SixGateway.DayRuns
import SixGateway.Library.Rows

namespace SixGateway.Classification

open Library Models Database StripeClient Reconciliation Queries DayRuns

/-- What Stripe has of a payment in a list of transactions: their net, if there are any. -/
def stripeNet (bts : List BalanceTransaction) (pi : String) : Option Int :=
  if bts.filter (isOf pi) = [] then none else some (net (bts.filter (isOf pi)))

/-- What the gateway has of a payment on a day: the net of its row, if that has succeeded and was
last changed on the day. -/
def internalNet (day : Int) (db : Db) (pi : String) : Option Int :=
  (db.paymentIntents.find? (fun p => decide (p.stripePaymentIntentId = some pi ∧
    p.status = .succeeded ∧ startOf day ≤ p.updatedAt ∧ p.updatedAt < startOf day + hours 24))).map
    (fun p => p.amountReceived - p.amountRefunded)

/-- The record that is due for a payment, by what either side has of it. -/
def discrepancy (pi : String) : Option Int → Option Int → Option Mismatch
  | none, none => none
  | none, some i => some (.missingStripe pi (some i))
  | some s, none => some (.missingInternal pi s)
  | some s, some i => if s = i then none else some (.amountMismatch pi s i (s - i))

def internallyMissing : Mismatch → Option Int
  | .missingInternal _ stripeAmount => some stripeAmount
  | _ => none

def missingAtStripe : Mismatch → Option Int
  | .missingStripe _ internalAmount => internalAmount
  | _ => none

def differing : Mismatch → Option Int
  | .amountMismatch _ _ _ diff => some diff
  | _ => none

def total (amount : Mismatch → Option Int) (run : ReconciliationRun) : Int :=
  (run.mismatches.filterMap amount).sum

variable {day : Int} {bts bts' : List BalanceTransaction} {db db' : Db} {pi : String}
  {stripe internal : Dict String Int}

theorem internalOn_get_eq : (internalOn day db).get? pi = internalNet day db pi := by
  refine Option.ext (fun n => ?_)
  rw [internalOn_get, internalNet, Option.map_eq_some_iff]
  constructor
  · rintro ⟨p, hp, hpi, hs, rfl⟩
    obtain ⟨hp, -, hday⟩ := mem_updatedOn.mp hp
    refine ⟨p, ?_, rfl⟩
    generalize hfind : db.paymentIntents.find? _ = found
    cases found with
    | none =>
      have hno := Table.find?_none hfind hp
      exact absurd ⟨hpi, hs, hday⟩ (of_decide_eq_false hno)
    | some q =>
      obtain ⟨hq, h⟩ := Table.find?_some hfind
      rw [eq_of_stripeId hq hp (of_decide_eq_true h).1 hpi]
  · rintro ⟨p, hp, rfl⟩
    obtain ⟨hp, h⟩ := Table.find?_some hp
    obtain ⟨hpi, hs, hday⟩ := of_decide_eq_true h
    exact ⟨p, mem_updatedOn.mpr ⟨hp, by simp [hpi], hday⟩, hpi, hs, rfl⟩

def payments (stripe internal : Dict String Int) : List String :=
  (stripe.keys ++ internal.keys).dedup.insertionSort (· ≤ ·)

theorem mem_payments : pi ∈ payments stripe internal ↔
    (stripe.get? pi).isSome ∨ (internal.get? pi).isSome := by
  simp [payments, Dict.mem_keys_iff]

theorem nodup_payments : (payments stripe internal).Nodup :=
  (List.perm_insertionSort _ _).nodup_iff.mpr (List.nodup_dedup _)

theorem sorted_payments : (payments stripe internal).Pairwise (· < ·) := by
  have hle : (payments stripe internal).Pairwise (· ≤ ·) := List.pairwise_insertionSort _ _
  exact hle.imp₂ (fun _ _ h hne => lt_of_le_of_ne h hne) nodup_payments

theorem classify_eq (h : pi ∈ payments stripe internal) :
    classify stripe internal pi = discrepancy pi (stripe.get? pi) (internal.get? pi) := by
  have hkey := mem_payments.mp h
  unfold classify
  cases hs : stripe.get? pi with
  | none =>
    cases hi : internal.get? pi with
    | none => simp [hs, hi] at hkey
    | some i => rfl
  | some s =>
    cases hi : internal.get? pi with
    | none => rfl
    | some i =>
      by_cases heq : s = i
      · simp [discrepancy, heq]
      · simp [discrepancy, heq]

theorem filter_classified {f : String → Option Mismatch}
    (hf : ∀ k m, f k = some m → m.stripePaymentIntentId = k) {ks : List String} (hn : ks.Nodup) :
    (ks.filterMap f).filter (fun m => decide (m.stripePaymentIntentId = pi)) =
      if pi ∈ ks then (f pi).toList else [] := by
  induction ks with
  | nil => rfl
  | cons k ks ih =>
    obtain ⟨hk, hks⟩ := List.nodup_cons.mp hn
    by_cases heq : pi = k
    · subst heq
      cases hp : f pi with
      | none =>
        rw [List.filterMap_cons_none hp, ih hks, if_neg hk]
        simp
      | some m =>
        rw [List.filterMap_cons_some hp, List.filter_cons_of_pos (by simp [hf pi m hp]), ih hks,
          if_neg hk]
        simp
    · have hmem : pi ∈ k :: ks ↔ pi ∈ ks := by simp [heq]
      simp only [hmem]
      cases hp : f k with
      | none => rw [List.filterMap_cons_none hp, ih hks]
      | some m =>
        rw [List.filterMap_cons_some hp, List.filter_cons_of_neg, ih hks]
        simp [hf k m hp, Ne.symm heq]

theorem mismatches_eq : (reconcileDay day bts db).mismatches =
    (payments (stripeByPi bts) (internalOn day db)).filterMap
      (classify (stripeByPi bts) (internalOn day db)) := rfl

/-- What a record says of the difference between the two totals. -/
theorem contribution_classify :
    (stripe.get? pi).getD 0 - (internal.get? pi).getD 0 =
      ((classify stripe internal pi).bind internallyMissing).getD 0 -
        ((classify stripe internal pi).bind missingAtStripe).getD 0 +
        ((classify stripe internal pi).bind differing).getD 0 := by
  unfold classify
  cases hs : stripe.get? pi with
  | none =>
    cases hi : internal.get? pi with
    | none => simp [internallyMissing, missingAtStripe, differing]
    | some i => simp [internallyMissing, missingAtStripe, differing]
  | some s =>
    cases hi : internal.get? pi with
    | none => simp [internallyMissing, missingAtStripe, differing]
    | some i =>
      by_cases heq : s = i
      · simp [heq]
      · simp [heq, internallyMissing, missingAtStripe, differing]

theorem sum_amounts {f : String → Option Mismatch} (amount : Mismatch → Option Int)
    (ks : List String) : ((ks.filterMap f).filterMap amount).sum =
      (ks.map (fun k => ((f k).bind amount).getD 0)).sum := by
  induction ks with
  | nil => rfl
  | cons k ks ih =>
    rw [List.map_cons, List.sum_cons, ← ih]
    cases hk : f k with
    | none => simp [hk]
    | some m =>
      cases hm : amount m with
      | none => simp [hk, hm]
      | some n => simp [hk, hm]

theorem totals_differ : (reconcileDay day bts db).totalStripe -
      (reconcileDay day bts db).totalInternal =
    total internallyMissing (reconcileDay day bts db) -
      total missingAtStripe (reconcileDay day bts db) +
      total differing (reconcileDay day bts db) := by
  have hstripe : ∀ k ∈ (stripeByPi bts).keys, k ∈ payments (stripeByPi bts) (internalOn day db) :=
    fun k hk => mem_payments.mpr (.inl (Dict.mem_keys_iff.mp hk))
  have hinternal : ∀ k ∈ (internalOn day db).keys,
      k ∈ payments (stripeByPi bts) (internalOn day db) :=
    fun k hk => mem_payments.mpr (.inr (Dict.mem_keys_iff.mp hk))
  have hs := Dict.sum_values nodup_payments hstripe
  have hi := Dict.sum_values nodup_payments hinternal
  change (stripeByPi bts).values.sum - (internalOn day db).values.sum = _
  simp only [total, mismatches_eq, sum_amounts]
  rw [← hs, ← hi]
  generalize payments (stripeByPi bts) (internalOn day db) = ks
  induction ks with
  | nil => rfl
  | cons k ks ih =>
    have hk := @contribution_classify k (stripeByPi bts) (internalOn day db)
    simp only [List.map_cons, List.sum_cons]
    omega

theorem stripeByPi_perm (h : bts.Perm bts') :
    (stripeByPi bts').get? pi = (stripeByPi bts).get? pi := by
  have hf := h.filter (isOf pi)
  have hnil : bts'.filter (isOf pi) = [] ↔ bts.filter (isOf pi) = [] :=
    ⟨fun hn => List.perm_nil.mp (hn ▸ hf), fun hn => List.nil_perm.mp (hn ▸ hf)⟩
  have hnet : net (bts'.filter (isOf pi)) = net (bts.filter (isOf pi)) :=
    (hf.map BalanceTransaction.amount).sum_eq.symm
  rw [stripeByPi_get, stripeByPi_get, hnet]
  simp only [hnil]

theorem internalOn_perm (h : db.paymentIntents.rows.Perm db'.paymentIntents.rows) :
    (internalOn day db').get? pi = (internalOn day db).get? pi := by
  have hrows : ∀ p, p ∈ updatedOn day db' ↔ p ∈ updatedOn day db := by
    intro p
    rw [mem_updatedOn, mem_updatedOn, Table.mem_def, Table.mem_def, h.mem_iff]
  refine Option.ext (fun n => ?_)
  rw [internalOn_get, internalOn_get]
  simp only [hrows]

theorem reconcileDay_congr
    (hs : ∀ k, (stripeByPi bts').get? k = (stripeByPi bts).get? k)
    (hi : ∀ k, (internalOn day db').get? k = (internalOn day db).get? k) :
    reconcileDay day bts' db' = reconcileDay day bts db := by
  have hps := Dict.perm_of_get? hs
  have hpi := Dict.perm_of_get? hi
  have hkeys : payments (stripeByPi bts') (internalOn day db') =
      payments (stripeByPi bts) (internalOn day db) :=
    insertionSort_eq_of_perm (((hps.map Prod.fst).append (hpi.map Prod.fst)).dedup)
  have hclassify : classify (stripeByPi bts') (internalOn day db') =
      classify (stripeByPi bts) (internalOn day db) := by
    funext k
    unfold classify
    rw [hs, hi]
  have hmismatches :
      (reconcileDay day bts' db').mismatches = (reconcileDay day bts db).mismatches := by
    rw [mismatches_eq, mismatches_eq, hkeys, hclassify]
  have hstripe : (stripeByPi bts').values.sum = (stripeByPi bts).values.sum :=
    (hps.map Prod.snd).sum_eq
  have hinternal : (internalOn day db').values.sum = (internalOn day db).values.sum :=
    (hpi.map Prod.snd).sum_eq
  exact ReconciliationRun.mk.injEq .. |>.mpr
    ⟨rfl, hstripe, hinternal, congrArg List.length hmismatches, hmismatches⟩

theorem recorded : (reconcileDay day bts db).mismatches.filter
      (fun m => decide (m.stripePaymentIntentId = pi)) =
    (discrepancy pi (stripeNet bts pi) (internalNet day db pi)).toList := by
  rw [mismatches_eq, filter_classified (fun _ _ => classify_id) nodup_payments, stripeNet,
    ← stripeByPi_get, ← internalOn_get_eq]
  split
  · next h => rw [classify_eq h]
  · next h =>
    have hkey := mt mem_payments.mpr h
    simp only [not_or, Option.not_isSome_iff_eq_none] at hkey
    rw [hkey.1, hkey.2]
    rfl

theorem mismatches_sorted : (reconcileDay day bts db).mismatches.Pairwise
    (fun m n => m.stripePaymentIntentId < n.stripePaymentIntentId) := by
  rw [mismatches_eq, List.pairwise_filterMap]
  refine sorted_payments.imp (fun {j k} h m hm n hn => ?_)
  rw [classify_id hm, classify_id hn]
  exact h

end SixGateway.Classification
