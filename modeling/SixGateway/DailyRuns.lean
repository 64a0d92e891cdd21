import SixGateway.Classification
import SixGateway.Listing
import SixGateway.Library.Journal

namespace SixGateway.DailyRuns

open Library Library.Journal Models Database StripeClient Reconciliation DayRuns FalseAlarms Listing

def dayOf (t : Instant) : Int := t / hours 24

/-- `reconcile_yesterday` at some time of a day. -/
def reconcileYesterday (list : ListParams → ListAnswer) (fuel : Nat) (now : Instant) (db : Db) :
    Except ListError (Option ReconciliationRun) :=
  reconcileDayFrom list fuel (dayOf (now - hours 24)) db

structure Pass where
  now : Instant
  db : Db
  book : List BalanceTransaction
  list : ListParams → ListAnswer

def Pass.run (fuel : Nat) (p : Pass) : Except ListError (Option ReconciliationRun) :=
  reconcileYesterday p.list fuel p.now p.db

/-- One pass a day, at any time of it, from the day after `first` on. -/
def Daily : Int → List Pass → Prop
  | _, [] => True
  | first, p :: ps => dayOf p.now = first + 1 ∧ Daily (first + 1) ps

/-- Stripe serves its list, and what it holds of the days before the pass is what `book` holds of
them. -/
structure Settled (book : List BalanceTransaction) (fuel : Nat) (p : Pass) : Prop where
  distinct : (p.book.map BalanceTransaction.id).Nodup
  serves : Serves p.book p.list
  enough : p.book.length < fuel
  past : (p.book.filter (fun bt => decide (bt.created < timestamp (startOf (dayOf p.now))))).Perm
    (book.filter (fun bt => decide (bt.created < timestamp (startOf (dayOf p.now)))))

/-- The charges and refunds of intents that Stripe booked from one day until before another. -/
def inPeriod (first last : Int) (bt : BalanceTransaction) : Bool :=
  decide (bt.type ∈ reconciledTypes) && (btPaymentIntentId bt).isSome &&
    decide (timestamp (startOf first) ≤ bt.created ∧ bt.created < timestamp (startOf last))

variable {book bts : List BalanceTransaction} {first : Int} {fuel : Nat} {p : Pass}

theorem startOf_succ (day : Int) : startOf (day + 1) = startOf day + hours 24 := by
  rw [startOf, startOf, Int.add_mul, Int.one_mul]

theorem dayOf_yesterday (t : Instant) : dayOf (t - hours 24) = dayOf t - 1 := by
  have h : hours 24 = 86400000000 := rfl
  rw [dayOf, dayOf, h]
  omega

theorem timestamp_mono {a b : Int} (h : a ≤ b) : timestamp (startOf a) ≤ timestamp (startOf b) := by
  have h24 : hours 24 = 86400000000 := rfl
  rw [timestamp, timestamp, startOf, startOf, h24]
  omega

theorem sum_stripeByPi (bts : List BalanceTransaction) : (stripeByPi bts).values.sum =
    sumOver BalanceTransaction.amount (fun bt => (btPaymentIntentId bt).isSome) bts := by
  let pis := (bts.filterMap btPaymentIntentId).dedup
  have hpis : pis.Nodup := List.nodup_dedup _
  have hkeys : ∀ pi ∈ (stripeByPi bts).keys, pi ∈ pis := by
    intro pi hpi
    rw [Dict.mem_keys_iff, stripeByPi_get] at hpi
    split at hpi
    · cases hpi
    · next hne =>
      obtain ⟨bt, hbt⟩ := List.exists_mem_of_ne_nil _ hne
      obtain ⟨hmem, his⟩ := List.mem_filter.mp hbt
      exact List.mem_dedup.mpr (List.mem_filterMap.mpr ⟨bt, hmem, of_decide_eq_true his⟩)
  have hget : ∀ pi, ((stripeByPi bts).get? pi).getD 0 =
      sumOver BalanceTransaction.amount (isOf pi) bts := by
    intro pi
    rw [stripeByPi_get]
    split
    · next hnil =>
      rw [sumOver, hnil]
      rfl
    · rfl
  have hcover : ∀ bt ∈ bts, (btPaymentIntentId bt).isSome = true →
      btPaymentIntentId bt ∈ pis.map some := by
    intro bt hbt hsome
    obtain ⟨pi, hpi⟩ := Option.isSome_iff_exists.mp hsome
    rw [hpi]
    exact List.mem_map_of_mem (List.mem_dedup.mpr (List.mem_filterMap.mpr ⟨bt, hbt, hpi⟩))
  rw [← Dict.sum_values hpis hkeys,
    ← sum_groups btPaymentIntentId (hpis.map (Option.some_injective _)) hcover, List.map_map]
  refine congrArg List.sum (List.map_congr_left (fun pi _ => ?_))
  rw [hget, Function.comp_apply]
  refine sumOver_congr (fun bt _ => ?_)
  by_cases h : btPaymentIntentId bt = some pi <;> simp [isOf, h]

theorem totalStripe_runOf (book : List BalanceTransaction) (db : Db) (day : Int) :
    (runOf book db day).totalStripe =
      sumOver BalanceTransaction.amount (inPeriod day (day + 1)) book := by
  have hgroups := sum_groups (v := BalanceTransaction.amount) (l := book)
    (p := inPeriod day (day + 1)) BalanceTransaction.type (by decide : reconciledTypes.Nodup)
    (fun bt _ h => by
      simp only [inPeriod, Bool.and_eq_true, decide_eq_true_eq] at h
      exact h.1.1)
  change (stripeByPi _).values.sum = _
  rw [sum_stripeByPi, ← hgroups, ← startOf_succ, sumOver, listed, List.filter_flatMap,
    List.map_flatMap, List.flatMap_def, List.sum_flatten, List.map_map]
  refine congrArg List.sum (List.map_congr_left (fun t ht => ?_))
  rw [Function.comp_apply, List.filter_filter, sumOver]
  refine congrArg (fun l => (l.map BalanceTransaction.amount).sum) (List.filter_congr ?_)
  intro bt _
  by_cases h : bt.type = t
  · subst h
    simp [inPeriod, ht]
  · simp [h]

theorem sum_inPeriod {a b c : Int} (hab : a ≤ b) (hbc : b ≤ c) (bts : List BalanceTransaction) :
    sumOver BalanceTransaction.amount (inPeriod a b) bts +
        sumOver BalanceTransaction.amount (inPeriod b c) bts =
      sumOver BalanceTransaction.amount (inPeriod a c) bts := by
  have h₁ := timestamp_mono hab
  have h₂ := timestamp_mono hbc
  induction bts with
  | nil => rfl
  | cons bt bts ih =>
    simp only [sumOver_cons, ← ih, inPeriod, Bool.and_eq_true, decide_eq_true_eq]
    by_cases hkind : bt.type ∈ reconciledTypes ∧ (btPaymentIntentId bt).isSome = true
    · simp only [hkind, true_and, and_self]
      split_ifs <;> omega
    · simp only [hkind, false_and, if_false]
      omega

theorem totals_of_clean {day : Int} {db : Db} (h : (reconcileDay day bts db).mismatches = []) :
    (reconcileDay day bts db).totalInternal = (reconcileDay day bts db).totalStripe := by
  have hdiffer := @Classification.totals_differ day bts db
  simp only [Classification.total, h, List.filterMap_nil, List.sum_nil] at hdiffer
  omega

theorem run_of_settled (h : Settled book fuel p) (hday : dayOf p.now = first + 1) :
    ∃ run, p.run fuel = .ok (some run) ∧ run.runDate = first ∧
      run.totalStripe = sumOver BalanceTransaction.amount (inPeriod first (first + 1)) book ∧
      (run.mismatches = [] → run.totalInternal = run.totalStripe) := by
  have hyesterday : dayOf (p.now - hours 24) = first := by
    rw [dayOf_yesterday]
    omega
  refine ⟨runOf p.book p.db first, ?_, rfl, ?_, totals_of_clean⟩
  · rw [Pass.run, reconcileYesterday, hyesterday]
    exact reconcileDayFrom_eq h.distinct h.serves h.enough first p.db
  · have hpast : ∀ bts : List BalanceTransaction,
        sumOver BalanceTransaction.amount (inPeriod first (first + 1)) bts =
          sumOver BalanceTransaction.amount (inPeriod first (first + 1)) (bts.filter (fun bt =>
            decide (bt.created < timestamp (startOf (dayOf p.now))))) := by
      intro bts
      rw [sumOver, sumOver, List.filter_filter]
      refine congrArg (fun l => (l.map BalanceTransaction.amount).sum)
        (List.filter_congr (fun bt _ => ?_))
      rw [hday, inPeriod]
      by_cases hlt : bt.created < timestamp (startOf (first + 1)) <;> simp [hlt]
    rw [totalStripe_runOf, hpast, hpast book, sumOver_perm h.past]

/-- A worker that reconciles yesterday once a day, at any time of the day, leaves no day out and
takes none twice, and what it finds at Stripe adds up to the charges and refunds of intents that
Stripe booked in the period: none is lost or counted twice at midnight. When no pass reports a
mismatch, the books add up to the same. -/
theorem daily_runs (book : List BalanceTransaction) (fuel : Nat) (first : Int) (ps : List Pass)
    (daily : Daily first ps) (settled : ∀ p ∈ ps, Settled book fuel p) :
    ∃ runs : List ReconciliationRun, ps.mapM (Pass.run fuel) = .ok (runs.map some) ∧
      runs.map ReconciliationRun.runDate = (List.range ps.length).map (fun k : Nat => first + k) ∧
      (runs.map ReconciliationRun.totalStripe).sum =
        sumOver BalanceTransaction.amount (inPeriod first (first + ps.length)) book ∧
      ((∀ run ∈ runs, run.mismatches = []) → (runs.map ReconciliationRun.totalInternal).sum =
        sumOver BalanceTransaction.amount (inPeriod first (first + ps.length)) book) := by
  induction ps generalizing first with
  | nil =>
    have hnone : sumOver BalanceTransaction.amount (inPeriod first (first + (0 : Nat))) book = 0 := by
      refine sumOver_eq_zero (fun bt _ => ?_)
      have hempty : ¬ (timestamp (startOf first) ≤ bt.created ∧
          bt.created < timestamp (startOf (first + (0 : Nat)))) := by
        rw [Nat.cast_zero, add_zero]
        omega
      rw [inPeriod, decide_eq_false hempty, Bool.and_false]
    exact ⟨[], rfl, rfl, hnone.symm, fun _ => hnone.symm⟩
  | cons p ps ih =>
    obtain ⟨run, hrun, hdate, htotal, hclean⟩ := run_of_settled (settled p List.mem_cons_self) daily.1
    obtain ⟨runs, hruns, hdates, htotals, hinternal⟩ :=
      ih (first + 1) daily.2 (fun p hp => settled p (List.mem_cons_of_mem _ hp))
    have hperiod : sumOver BalanceTransaction.amount (inPeriod first (first + 1)) book +
        sumOver BalanceTransaction.amount (inPeriod (first + 1) (first + 1 + ps.length)) book =
        sumOver BalanceTransaction.amount (inPeriod first (first + (p :: ps).length)) book := by
      rw [sum_inPeriod (by omega) (by omega), List.length_cons, Nat.cast_succ, add_assoc, add_comm 1]
    refine ⟨run :: runs, ?_, ?_, ?_, fun hall => ?_⟩
    · rw [List.mapM_cons, hrun, hruns]
      rfl
    · rw [List.map_cons, hdates, hdate, List.length_cons, List.range_succ_eq_map, List.map_cons,
        List.map_map, Nat.cast_zero, add_zero]
      refine congrArg (first :: ·) (List.map_congr_left (fun k _ => ?_))
      rw [Function.comp_apply, Nat.cast_succ]
      omega
    · rw [List.map_cons, List.sum_cons, htotal, htotals, hperiod]
    · obtain ⟨hrun, hruns⟩ := List.forall_mem_cons.mp hall
      rw [List.map_cons, List.sum_cons, hclean hrun, htotal, hinternal hruns, hperiod]

/-- A charge in the last second of a day and its refund in the first second of the next. -/
def overMidnight : List BalanceTransaction :=
  [⟨"txn_1", "charge", 1000, 86399, .expanded (.id "pi_1")⟩,
    ⟨"txn_2", "refund", -300, 86400, .expanded (.id "pi_1")⟩]

def passAt (now : Instant) : Pass := ⟨now, .empty, overMidnight, stripeList overMidnight⟩

theorem daily_runs_midnight :
    let ps := [passAt (hours 32), passAt (hours 71)]
    ∃ runs : List ReconciliationRun, ps.mapM (Pass.run 3) = .ok (runs.map some) ∧
      runs.map ReconciliationRun.runDate = (List.range ps.length).map (fun k : Nat => 0 + k) ∧
      (runs.map ReconciliationRun.totalStripe).sum =
        sumOver BalanceTransaction.amount (inPeriod 0 (0 + ps.length)) overMidnight ∧
      ((∀ run ∈ runs, run.mismatches = []) → (runs.map ReconciliationRun.totalInternal).sum =
        sumOver BalanceTransaction.amount (inPeriod 0 (0 + ps.length)) overMidnight) := by
  refine daily_runs overMidnight 3 0 _ ⟨by decide, by decide, trivial⟩ (fun p hp => ?_)
  have hp : p.book = overMidnight ∧ p.list = stripeList overMidnight := by
    simp only [List.mem_cons, List.not_mem_nil, or_false] at hp
    rcases hp with rfl | rfl <;> exact ⟨rfl, rfl⟩
  refine ⟨?_, ?_, ?_, ?_⟩
  · rw [hp.1]
    decide
  · rw [hp.1, hp.2]
    exact fun _ => rfl
  · rw [hp.1]
    decide
  · rw [hp.1]

end SixGateway.DailyRuns
