import SixGateway.Dashboard
import SixGateway.Effects

namespace SixGateway.ZeroSum

open Library Library.Journal Models Errors Database StripeClient PaymentService
open Gateway Bookings Outcomes Effects Dashboard
open LedgerService hiding getBalance

section

variable [StrLower]

/-- A call of `record_transaction` from anywhere, committed by its caller. -/
def record (legs : List LedgerLeg) (b : Booking) (uuids : BookingUuids) (now : Instant) (db : Db) :
    Except Exn Db :=
  match recordTransaction legs b uuids now with
  | .error e => .error e
  | .ok entries => commit [.insertEntries entries] db

inductive LedgerOp where
  | request (r : Request)
  | record (legs : List LedgerLeg) (b : Booking) (uuids : BookingUuids) (now : Instant)

def afterOp (w : World) : LedgerOp → World
  | .request r => w.after r
  | .record legs b uuids now =>
    match record legs b uuids now w.db with
    | .ok db => { w with db := db }
    | .error _ => w

/-- A transaction of a ledger: its intent, its id and its currency. -/
def transactionOf (e : LedgerEntry) : Option String × String × String :=
  (e.paymentIntentId, e.transactionId, e.currency)

/-- The double-entry law of a list of entries. -/
structure DoubleEntry (entries : List LedgerEntry) : Prop where
  positive : ∀ e ∈ entries, 0 < e.amount
  settled : Settled transactionOf LedgerEntry.signed entries

variable {legs : List LedgerLeg} {b : Booking} {uuids : BookingUuids} {now : Instant} {db db' : Db}
  {entries es : List LedgerEntry} {w : World} {r : Request}

omit [StrLower] in
theorem doubleEntry_nil : DoubleEntry [] := ⟨by simp, settled_nil _⟩

omit [StrLower] in
theorem DoubleEntry.append (h : DoubleEntry entries) (h' : DoubleEntry es) :
    DoubleEntry (entries ++ es) := by
  refine ⟨fun e he => ?_, h.settled.append h'.settled⟩
  obtain he | he := List.mem_append.mp he
  · exact h.positive e he
  · exact h'.positive e he

omit [StrLower] in
theorem legTotal_signed (legs : List LedgerLeg) :
    (legs.map LedgerLeg.signed).sum = legTotal .credit legs - legTotal .debit legs := by
  induction legs with
  | nil => rfl
  | cons l legs ih =>
    obtain ⟨account, direction, amount⟩ := l
    simp only [legTotal, List.map_cons, List.sum_cons, sumOver_cons] at ih ⊢
    rw [ih]
    cases direction <;> simp [LedgerLeg.signed] <;> omega

theorem recordTransaction_ok (h : recordTransaction legs b uuids now = .ok entries) :
    legs.length ≥ 2 ∧ legTotal .debit legs = legTotal .credit legs ∧
      (∀ l ∈ legs, 0 < l.amount) ∧ entries = legs.mapIdx (b.entry uuids now) := by
  unfold recordTransaction at h
  split at h
  · cases h
  · next hlen =>
    simp only at h
    split at h
    · cases h
    · next hbal =>
      split at h
      · cases h
      · next hpos =>
        cases h
        refine ⟨by omega, not_not.mp hbal, fun l hl => ?_, rfl⟩
        have := List.any_eq_false.mp (Bool.not_eq_true _ |>.mp hpos) l hl
        simpa using this

theorem doubleEntry_recorded (h : recordTransaction legs b uuids now = .ok entries) :
    DoubleEntry entries := by
  obtain ⟨-, hbal, hpos, rfl⟩ := recordTransaction_ok h
  refine ⟨fun e he => ?_, settled_of_const (c := (b.paymentIntentId,
    (truthy b.transactionId).getD ("tx_" ++ uuids.transaction), lower b.currency)) (fun e he => ?_) ?_⟩
  · obtain ⟨k, hk, rfl⟩ := List.mem_mapIdx.mp he
    exact hpos _ (List.getElem_mem hk)
  · obtain ⟨k, hk, rfl⟩ := List.mem_mapIdx.mp he
    rfl
  · have hs : (legs.mapIdx (b.entry uuids now)).map LedgerEntry.signed =
        legs.map LedgerLeg.signed := by
      apply List.ext_getElem?
      intro k
      rw [List.getElem?_map, List.getElem?_mapIdx, List.getElem?_map, Option.map_map]
      rfl
    rw [hs, legTotal_signed, hbal, sub_self]

theorem doubleEntry_effect {calls : Calls} (h : Effect r db calls db') :
    ∃ es, db'.ledgerEntries = db.ledgerEntries ++ es ∧ DoubleEntry es := by
  cases h with
  | still _ _ _ _ ledger => exact ⟨[], by simp [ledger], doubleEntry_nil⟩
  | created payload merchant _ o _ status _ _ _ _ _ ledger =>
    exact ⟨_, ledger, doubleEntry_recorded (record_accrual payload merchant o status r.env)⟩
  | changed p _ _ es _ does _ _ ledger =>
    refine ⟨es, ledger, ?_⟩
    cases does with
    | confirmed => exact doubleEntry_nil
    | canceled _ _ _ _ _ _ _ _ _ _ _ positive =>
      exact doubleEntry_recorded (record_reversal positive r.env)
    | captured _ _ _ _ _ _ _ n _ positive =>
      exact doubleEntry_recorded (record_capture p positive r.env)
    | refunded _ _ _ reason _ _ _ _ _ n _ positive _ o =>
      exact doubleEntry_recorded (record_refund p positive o.id reason r.env)

theorem doubleEntry_afterOp (h : DoubleEntry w.db.ledgerEntries) (op : LedgerOp) :
    DoubleEntry (afterOp w op).db.ledgerEntries := by
  cases op with
  | request r =>
    obtain ⟨es, hes, hd⟩ := doubleEntry_effect (request_effect r w)
    change DoubleEntry (r.outcome w).store.ledgerEntries
    exact hes ▸ h.append hd
  | record legs b uuids now =>
    simp only [afterOp, record]
    cases hr : recordTransaction legs b uuids now with
    | error e => exact h
    | ok entries =>
      by_cases href : entries.all (fun e => w.db.references e.paymentIntentId) = true
      · simp only [commit, Stmt.apply, href, if_true, Queries.ledgerEntries_post]
        exact h.append (doubleEntry_recorded hr)
      · simp only [commit, Stmt.apply, href]
        exact h

theorem doubleEntry_afterOps (ops : List LedgerOp) :
    DoubleEntry (ops.foldl afterOp World.empty).db.ledgerEntries := by
  induction ops using List.reverseRecOn with
  | nil => exact doubleEntry_nil
  | append_singleton ops op ih =>
    rw [List.foldl_append]
    exact doubleEntry_afterOp ih op

/-- Credits and debits of one transaction in one currency. -/
def totalOf (direction : LedgerEntryDirection) (transactionId currency : String)
    (entries : List LedgerEntry) : Int :=
  sumOver LedgerEntry.amount (fun e => decide (e.transactionId = transactionId ∧
    e.currency = currency ∧ e.direction = direction)) entries

omit [StrLower] in
theorem totalOf_signed (t c : String) (entries : List LedgerEntry) :
    sumOver LedgerEntry.signed (fun e => decide (e.transactionId = t ∧ e.currency = c)) entries =
      totalOf .credit t c entries - totalOf .debit t c entries := by
  induction entries with
  | nil => rfl
  | cons e entries ih =>
    simp only [totalOf, sumOver_cons] at ih ⊢
    rw [ih]
    by_cases h : e.transactionId = t ∧ e.currency = c
    · cases hd : e.direction <;> simp [h, hd, LedgerEntry.signed] <;> omega
    · have hn : ∀ d, ¬ (e.transactionId = t ∧ e.currency = c ∧ e.direction = d) :=
        fun d hd => h ⟨hd.1, hd.2.1⟩
      simp [h, hn]

omit [StrLower] in
theorem DoubleEntry.balanced (h : DoubleEntry entries) (t c : String) :
    totalOf .credit t c entries = totalOf .debit t c entries := by
  have hz : sumOver LedgerEntry.signed
      (fun e => decide (e.transactionId = t ∧ e.currency = c)) entries = 0 :=
    h.settled.sumOver_eq_zero (fun k => decide (k.2.1 = t ∧ k.2.2 = c))
  rw [totalOf_signed] at hz
  omega

omit [StrLower] in
theorem nodup_balanceRows (db : Db) (merchantId : Option String) :
    ((balanceRows db merchantId).map (fun r => (r.1, r.2.1))).Nodup := by
  have hk : (fun r : String × String × Int => (r.1, r.2.1)) ∘ (fun k : String × String => (k.1, k.2,
      sumOver LedgerEntry.signed (fun e => decide (accountOf e = k)) (scope db merchantId))) = id := rfl
  rw [balanceRows, List.map_map, hk, List.map_id]
  exact (List.perm_insertionSort _ _).nodup_iff.mpr (List.nodup_dedup _)

omit [StrLower] in
theorem sum_balanceRows (db : Db) (merchantId : Option String) (currency : String) :
    (((balanceRows db merchantId).filter (fun r => decide (r.1 = currency))).map
      (fun r => r.2.2)).sum =
      sumOver LedgerEntry.signed (fun e => decide (e.currency = currency)) (scope db merchantId) := by
  let keys := ((scope db merchantId).map accountOf).dedup.insertionSort
    (fun a b => a.1 < b.1 ∨ (a.1 = b.1 ∧ a.2 ≤ b.2))
  have hp : keys.Perm ((scope db merchantId).map accountOf).dedup := List.perm_insertionSort _ _
  have hn : (keys.filter (fun k => decide (k.1 = currency))).Nodup :=
    (hp.nodup_iff.mpr (List.nodup_dedup _)).filter _
  have hcover : ∀ e ∈ scope db merchantId, decide (e.currency = currency) = true →
      accountOf e ∈ keys.filter (fun k => decide (k.1 = currency)) := by
    intro e he hc
    refine List.mem_filter.mpr ⟨hp.mem_iff.mpr (List.mem_dedup.mpr (List.mem_map_of_mem he)), hc⟩
  rw [← sum_groups accountOf hn hcover, balanceRows, List.filter_map, List.map_map]
  refine congrArg List.sum (List.map_congr_left (fun k hk => sumOver_congr (fun e _ => ?_)))
  have hkc : k.1 = currency := of_decide_eq_true (List.mem_filter.mp hk).2
  by_cases he : accountOf e = k
  · have hec : e.currency = currency := by
      rw [← hkc, ← he]
      rfl
    simp [he, hec]
  · simp [he]

omit [StrLower] in
theorem balances_sum_zero (h : DoubleEntry db.ledgerEntries) (merchantId : Option String)
    {currency : String} {accounts : Dict String Int}
    (hm : (currency, accounts) ∈ (getBalancesByCurrency db merchantId).items) :
    accounts.values.sum = 0 := by
  rw [Dict.group_sum _ (nodup_balanceRows db merchantId) hm, sum_balanceRows, scope_eq]
  have hz : sumOver LedgerEntry.signed (fun e =>
      inScope db merchantId e.paymentIntentId && decide (e.currency = currency)) db.ledgerEntries = 0 :=
    h.settled.sumOver_eq_zero (fun k => inScope db merchantId k.1 && decide (k.2.2 = currency))
  rw [← hz]
  simp [sumOver, List.filter_filter, Bool.and_comm]

/-- What `record_transaction` refuses: fewer than two legs, unbalanced ones, or one that is not
positive. -/
def Refused (legs : List LedgerLeg) : Prop :=
  legs.length < 2 ∨ legTotal .debit legs ≠ legTotal .credit legs ∨ ∃ l ∈ legs, l.amount ≤ 0

theorem record_refused (h : Refused legs) (b : Booking) (uuids : BookingUuids) (now : Instant) (db : Db) :
    ∃ message, record legs b uuids now db = .error (.ledgerError message) := by
  cases hr : recordTransaction legs b uuids now with
  | ok entries =>
    obtain ⟨hlen, hbal, hpos, -⟩ := recordTransaction_ok hr
    obtain h | h | ⟨l, hl, h⟩ := h
    · omega
    · exact absurd hbal h
    · have := hpos l hl
      omega
  | error e =>
    have he : ∃ message, e = .ledgerError message := by
      unfold recordTransaction at hr
      simp only at hr
      split at hr
      · cases hr; exact ⟨_, rfl⟩
      · split at hr
        · cases hr; exact ⟨_, rfl⟩
        · split at hr
          · cases hr; exact ⟨_, rfl⟩
          · cases hr
    obtain ⟨message, rfl⟩ := he
    exact ⟨message, by simp only [record, hr]⟩

/-- The double-entry zero-sum law: over every sequence of ledger calls and service operations,
entries are positive, every transaction balances in every currency, and so do the balances of the
whole ledger and of every merchant. A refused call adds nothing. -/
theorem double_entry_zero_sum (ops : List LedgerOp) :
    let w := ops.foldl afterOp World.empty
    (∀ e ∈ w.db.ledgerEntries, 0 < e.amount) ∧
    (∀ transactionId currency, totalOf .credit transactionId currency w.db.ledgerEntries =
      totalOf .debit transactionId currency w.db.ledgerEntries) ∧
    (∀ merchantId, ∀ item ∈ (getBalancesByCurrency w.db merchantId).items,
      item.2.values.sum = 0) ∧
    (∀ merchantId, ∀ balance ∈ (getBalance w.db merchantId).currencies, balance.net = 0) ∧
    ∀ legs b uuids now, Refused legs →
      (∃ message, record legs b uuids now w.db = .error (.ledgerError message)) ∧
      afterOp w (.record legs b uuids now) = w := by
  intro w
  have hw : DoubleEntry w.db.ledgerEntries := doubleEntry_afterOps ops
  refine ⟨hw.positive, hw.balanced, fun m item hi => balances_sum_zero hw m hi,
    fun m balance hb => ?_, fun legs b uuids now hr => ?_⟩
  · obtain ⟨item, hi, rfl⟩ := List.mem_map.mp hb
    exact balances_sum_zero hw (some m) ((List.perm_insertionSort _ _).mem_iff.mp hi)
  · obtain ⟨message, h⟩ := record_refused hr b uuids now w.db
    exact ⟨⟨message, h⟩, by simp only [afterOp, h]⟩

end

end SixGateway.ZeroSum
