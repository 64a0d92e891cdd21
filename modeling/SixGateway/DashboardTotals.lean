import SixGateway.AuditTrail
import SixGateway.BalanceViews
import SixGateway.Pagination
import SixGateway.TenantViews

namespace SixGateway.DashboardTotals

open Library Library.Journal Models Database StripeClient LedgerService PaymentService Gateway Api
open Queries Bookings Outcomes Effects Positions StripeContract Drift Interleavings AuditTrail
open BalanceViews Pagination TenantViews Tenancy
open Dashboard hiding getBalance

/-- What a payment, as the list of transactions shows it, puts on an account. -/
def position (t : PaymentIntentRead) (acct : String) : Int :=
  if acct = "payments_captured" then
    if t.status = .succeeded then t.amountReceived - t.amountRefunded else 0
  else if acct = "payments_authorised" then
    if t.status = .canceled then 0 else t.amount - t.amountReceived
  else if acct = customerAccount t.customerId then t.amountRefunded
  else if acct = pendingAccount t.customerId then if t.status = .canceled then 0 else -t.amount
  else 0

/-- The balance of an account on the dashboard, and 0 where it is not shown. -/
def shown (b : BalanceResponse) (currency acct : String) : Int :=
  ((b.currencies.find? (fun c => decide (c.currency = currency))).bind (fun c =>
    c.accounts.find? (fun a => decide (a.account = acct)))).elim 0 AccountBalance.balance

def signedRead (e : LedgerEntryRead) : Int :=
  match e.direction with
  | .credit => e.amount
  | .debit => -e.amount

section views

variable {ν : Type} {db : Db} {p : PaymentIntent} {m id acct currency : String}

theorem find?_sorted (d : Dict String ν) (k : String) :
    (sorted d).find? (fun e => decide (e.1 = k)) = (d.get? k).map (fun v => (k, v)) := by
  have hmem : ∀ e, e ∈ sorted d ↔ e ∈ d.items := fun e => (List.perm_insertionSort _ _).mem_iff
  cases h : d.get? k with
  | none =>
    refine List.find?_eq_none.mpr (fun e he heq => Dict.get?_none h ?_)
    exact Dict.mem_keys.mpr ⟨e.2, of_decide_eq_true heq ▸ (hmem e).mp he⟩
  | some v =>
    have hv : (k, v) ∈ sorted d := (hmem _).mpr (Dict.get?_some h)
    cases hf : (sorted d).find? (fun e => decide (e.1 = k)) with
    | none => exact absurd (List.find?_eq_none.mp hf _ hv) (by simp)
    | some e =>
      have hk : e.1 = k := by simpa using List.find?_some hf
      have he : (k, e.2) ∈ d.items := hk ▸ (hmem e).mp (List.mem_of_find?_eq_some hf)
      rw [Option.map_some, Dict.eq_of_mem (Dict.get?_some h) he, ← hk]

theorem shown_getBalance (db : Db) (m currency acct : String) :
    shown (Dashboard.getBalance db m) currency acct =
      ((getBalancesByCurrency db (some m)).lookup currency acct).getD 0 := by
  rw [shown, Dashboard.getBalance, List.find?_map]
  have hcurrency := find?_sorted (getBalancesByCurrency db (some m)) currency
  change ((((sorted (getBalancesByCurrency db (some m))).find?
    (fun e => decide (e.1 = currency))).map currencyBalance).bind _).elim 0 _ = _
  rw [hcurrency, Dict.lookup]
  cases (getBalancesByCurrency db (some m)).get? currency with
  | none => rfl
  | some accounts =>
    simp only [Option.map_some, Option.bind_some, currencyBalance, List.find?_map]
    change (((sorted accounts).find? (fun e => decide (e.1 = acct))).map _).elim 0 _ = _
    rw [find?_sorted]
    cases accounts.get? acct <;> rfl

theorem sum_details (db : Db) (id acct : String) :
    sumOver signedRead (fun e => decide (e.account = acct))
      ((listEntriesForIntent db id).map entryRead) = net db.ledgerEntries id acct := by
  have hsum : sumOver signedRead (fun e => decide (e.account = acct))
      ((listEntriesForIntent db id).map entryRead) =
      sumOver LedgerEntry.signed (fun e => decide (e.account = acct))
        (listEntriesForIntent db id) := by
    simp only [sumOver, List.filter_map, List.map_map]
    rfl
  rw [hsum, listEntriesForIntent, sumOver_perm (List.perm_insertionSort _ _), sumOver,
    List.filter_filter, net, sumOver]
  refine congrArg (fun l => (l.map LedgerEntry.signed).sum) (List.filter_congr (fun e _ => ?_))
  rw [← Bool.decide_and, decide_eq_decide, and_comm]

end views

section

variable [StrLower] {w : World} {r : Request} {p : PaymentIntent} {m acct currency : String}

/-- Every entry is in the currency of its intent and on one of the accounts of its customer. -/
structure Booked (entries : List LedgerEntry) (p : PaymentIntent) : Prop where
  currency : ∀ e ∈ entries, e.paymentIntentId = some p.id → e.currency = lower p.currency
  account : ∀ e ∈ entries, e.paymentIntentId = some p.id →
    ∃ role, e.account = account p.customerId role

theorem booked_pair {bk : Booking} {env : Env} {n : Int} {e : LedgerEntry}
    (debited credited : Lifecycle.Role) (hc : bk.currency = p.currency)
    (h : e ∈ pairEntries bk env (account p.customerId debited) (account p.customerId credited) n) :
    e.currency = lower p.currency ∧ ∃ role, e.account = account p.customerId role := by
  obtain rfl | rfl := List.mem_pair.mp h
  · exact ⟨congrArg lower hc, debited, rfl⟩
  · exact ⟨congrArg lower hc, credited, rfl⟩

theorem booked_occurrence {o : Occurrence} {env : Env} {e : LedgerEntry}
    (h : e ∈ o.entries p env) :
    e.currency = lower p.currency ∧ ∃ role, e.account = account p.customerId role := by
  cases o with
  | reversed => exact booked_pair .authorised .pending rfl h
  | captured n => exact booked_pair .authorised .captured rfl h
  | refunded n refundId reason =>
    exact booked_pair .captured .customer rfl h

theorem booked_of_tells {entries : List LedgerEntry} {opened : Env} {os : List (Occurrence × Env)}
    {a : Lifecycle.Payment} (h : Tells entries p opened os a) : Booked entries p := by
  have hall : ∀ e ∈ trail p opened os, e.currency = lower p.currency ∧
      ∃ role, e.account = account p.customerId role := by
    intro e he
    obtain he | he := List.mem_append.mp he
    · exact booked_pair .pending .authorised rfl he
    · obtain ⟨o, -, ho⟩ := List.mem_flatMap.mp he
      exact booked_occurrence ho
  have hown : ∀ e ∈ entries, e.paymentIntentId = some p.id → e ∈ trail p opened os := by
    intro e he hid
    rw [← h.journal]
    exact List.mem_filter.mpr ⟨he, by simpa using hid⟩
  exact ⟨fun e he hid => (hall e (hown e he hid)).1, fun e he hid => (hall e (hown e he hid)).2⟩

omit [StrLower] in
theorem net_position {db : Db} (hb : Balanced db p)
    (ha : ∀ e ∈ db.ledgerEntries, e.paymentIntentId = some p.id →
      ∃ role, e.account = account p.customerId role) (acct : String) :
    net db.ledgerEntries p.id acct = position (intentRead p) acct := by
  unfold position
  split_ifs with hcaptured hsucceeded hauthorised hcanceled hcustomer hpending hcanceled
  · rw [hcaptured, hb.captured]
    exact if_pos hsucceeded
  · rw [hcaptured, hb.captured]
    exact if_neg hsucceeded
  · rw [hauthorised, hb.authorised]
    exact if_pos hcanceled
  · rw [hauthorised, hb.authorised]
    exact if_neg hcanceled
  · rw [hcustomer]
    exact hb.customer
  · rw [hpending]
    exact hb.pending.trans (if_pos hcanceled)
  · rw [hpending]
    exact hb.pending.trans (if_neg hcanceled)
  · refine sumOver_eq_zero (fun e he => decide_eq_false ?_)
    rintro ⟨hid, rfl⟩
    obtain ⟨role, hrole⟩ := ha e he hid
    cases role with
    | authorised => exact hauthorised hrole
    | pending => exact hpending hrole
    | captured => exact hcaptured hrole
    | customer => exact hcustomer hrole

/-- The rows spell their currency as the ledger does. -/
def Spelled (w : World) : Prop := ∀ p ∈ w.db.paymentIntents, lower p.currency = p.currency

def Named (w : World) : Prop := ∀ e ∈ w.db.ledgerEntries, e.paymentIntentId ≠ none

theorem named_after (h : Named w) (r : Request) : Named (w.after r) := by
  obtain ⟨calls, he⟩ : ∃ calls, Effect r w.db calls (w.after r).db := ⟨_, request_effect r w⟩
  intro e hmem hnone
  cases he with
  | still _ _ _ _ ledger => exact h e (ledger ▸ hmem) hnone
  | created payload merchant fresh o answered status parsed t inserted _ _ ledger =>
    obtain hmem | hmem := List.mem_append.mp (ledger ▸ hmem)
    · exact h e hmem hnone
    · cases hnone.symm.trans (intent_of_accrual hmem)
  | changed p member dirty es _ does _ _ ledger =>
    obtain hmem | hmem := List.mem_append.mp (ledger ▸ hmem)
    · exact h e hmem hnone
    · cases hnone.symm.trans (intent_of_change does e hmem)

theorem spelled_after (h : Spelled w) (r : Request) : Spelled (w.after r) := by
  intro q hq
  cases row_after (request_effect r w) hq with
  | kept member => exact h q member
  | created payload merchant fresh o answered status parsed row =>
    rw [row]
    exact lower_lower _
  | changed p member dirty es does row =>
    obtain ⟨_, _, _, _, hsame⟩ := stable_sameRow.flush p dirty r.env.now p
    rw [row, hsame]
    exact h p member

omit [StrLower] in
theorem balance_by_intent {db : Db} (hrefs : ∀ e ∈ db.ledgerEntries,
    db.references e.paymentIntentId = true) (hnamed : ∀ e ∈ db.ledgerEntries,
      e.paymentIntentId ≠ none) (hcurrency : ∀ p ∈ db.paymentIntents, ∀ e ∈ db.ledgerEntries,
      e.paymentIntentId = some p.id → e.currency = p.currency) (m currency acct : String) :
    sumOver LedgerEntry.signed (fun e => decide (accountOf e = (currency, acct)))
        (scope db (some m)) =
      ((db.paymentIntents.select (fun p => decide (p.merchantId = some m) &&
        decide (p.currency = currency))).map (fun p => net db.ledgerEntries p.id acct)).sum := by
  have hids : (db.paymentIntents.rows.map (fun p => some p.id)).Nodup := by
    rw [List.Nodup, List.pairwise_map]
    refine db.paymentIntents.unique.imp (fun {p q} h heq => ?_)
    have hc : clash p q = true :=
      Table.clash_iff.mpr ⟨.id p.id, by simp [Keyed.keys], by simp [Keyed.keys, Option.some.inj heq]⟩
    rw [h] at hc
    cases hc
  have hcover : ∀ e ∈ db.ledgerEntries, e.paymentIntentId ∈
      db.paymentIntents.rows.map (fun p => some p.id) := by
    intro e he
    obtain ⟨id, hid⟩ := Option.ne_none_iff_exists'.mp (hnamed e he)
    have href := hrefs e he
    rw [hid] at href
    obtain ⟨p, hp⟩ := Option.isSome_iff_exists.mp href
    obtain ⟨hmem, rfl⟩ := intentById_some hp
    exact hid ▸ List.mem_map_of_mem hmem
  rw [sumOver_scope, ← sum_groups LedgerEntry.paymentIntentId hids (fun e he _ => hcover e he),
    List.map_map]
  have hgroup : ∀ p ∈ db.paymentIntents.rows,
      sumOver LedgerEntry.signed (fun e => decide (accountOf e = (currency, acct)) &&
        decide (ownerOf db e = some m) && decide (e.paymentIntentId = some p.id)) db.ledgerEntries =
      if p.merchantId = some m ∧ p.currency = currency then net db.ledgerEntries p.id acct
      else 0 := by
    intro p hp
    have howner : ∀ e, e.paymentIntentId = some p.id → ownerOf db e = p.merchantId := by
      intro e hid
      rw [ownerOf, hid, Option.bind_some, intentById_of_mem hp, Option.bind_some]
    split
    · next h =>
      refine sumOver_congr (fun e he => ?_)
      rw [← Bool.decide_and, ← Bool.decide_and, decide_eq_decide, accountOf_eq]
      constructor
      · exact fun hall => ⟨hall.2, hall.1.1.1⟩
      · exact fun hall => ⟨⟨⟨hall.2, (hcurrency p hp e he hall.1).trans h.2⟩,
          (howner e hall.1).trans h.1⟩, hall.1⟩
    · next h =>
      refine sumOver_eq_zero (fun e he => ?_)
      rw [← Bool.decide_and, ← Bool.decide_and]
      refine decide_eq_false (fun hall => h ⟨(howner e hall.2).symm.trans hall.1.2, ?_⟩)
      exact (hcurrency p hp e he hall.2).symm.trans (accountOf_eq.mp hall.1.1).2
  have hsum := sum_map_ite (fun p : PaymentIntent => net db.ledgerEntries p.id acct)
    (fun p => decide (p.merchantId = some m) && decide (p.currency = currency))
    db.paymentIntents.rows
  simp only [Bool.and_eq_true, decide_eq_true_eq] at hsum
  exact (congrArg List.sum (List.map_congr_left hgroup)).trans hsum

/-- The three screens of the dashboard agree. Whatever has been served in whatever order, the balance
of every account is what the listed transactions put on it, over all pages, and the entries of each
transaction put on every account what its row says. -/
theorem screens_agree (rs : List Request) (h : Along Lawful World.empty rs) (merchant : Merchant)
    (answer : StripeCall → StripeAnswer) (query : TransactionsQuery)
    (orders : Nat → RowOrder PaymentIntent) (hstatus : query.statusFilter = none)
    (hcurrency : query.currency = none)
    (hpages : Unbroken query.pageSize (query.base merchant (World.empty.afterAll rs).db)) :
    let db := (World.empty.afterAll rs).db
    (∃ responses, listing answer db merchant query orders = .ok responses ∧
      ∀ currency acct, shown (Dashboard.getBalance db merchant.id) currency acct =
        sumOver (fun t => position t acct) (fun t => decide (t.currency = currency))
          (responses.flatMap PaginatedTransactions.items)) ∧
    ∀ intentId detail, (serve answer (getTransaction intentId merchant) db).result = .ok detail →
      ∀ acct, sumOver signedRead (fun e => decide (e.account = acct)) detail.ledgerEntries =
        position detail.toPaymentIntentRead acct := by
  intro db
  have hinv : (Sound (World.empty.afterAll rs) ∧ Told (World.empty.afterAll rs)) ∧
      Spelled (World.empty.afterAll rs) ∧ Named (World.empty.afterAll rs) := by
    refine afterAll_invariant (I := fun w => (Sound w ∧ Told w) ∧ Spelled w ∧ Named w)
      (fun w r hw hl => ⟨⟨sound_after hw.1.1 hl, told_after hw.1.2 hw.1.1 hl⟩,
        spelled_after hw.2.1 r, named_after hw.2.2 r⟩) ?_ h
    exact ⟨⟨sound_empty, fun _ hp => absurd hp Table.not_mem_empty⟩,
      fun _ hp => absurd hp Table.not_mem_empty, fun _ he => absurd he List.not_mem_nil⟩
  obtain ⟨⟨hsound, htold⟩, hspelled, hnamed⟩ := hinv
  have hbooked : ∀ p ∈ db.paymentIntents, Booked db.ledgerEntries p := by
    intro p hp
    obtain ⟨opened, os, a, ht⟩ := htold p hp
    exact booked_of_tells ht
  have hnet : ∀ p ∈ db.paymentIntents, ∀ acct,
      net db.ledgerEntries p.id acct = position (intentRead p) acct := by
    intro p hp acct
    obtain ⟨a, ha⟩ := hsound.represented p hp
    exact net_position (balanced_of_represents ha) (hbooked p hp).account acct
  refine ⟨?_, fun intentId detail hdetail acct => ?_⟩
  · have hcomplete : Complete answer db merchant query orders := complete_of_unbroken hpages
    obtain ⟨responses, hlisted, hperm, -⟩ := hcomplete
    refine ⟨responses, hlisted, fun currency acct => ?_⟩
    have hbalance := balance_by_intent hsound.references hnamed (fun p hp e he hid =>
      ((hbooked p hp).currency e he hid).trans (hspelled p hp)) merchant.id currency acct
    rw [shown_getBalance, lookup_balances, hbalance, sumOver_perm hperm]
    simp only [TransactionsQuery.base, TransactionsQuery.selects, hstatus, hcurrency, Table.select,
      Option.all_none, Bool.and_true, sumOver, List.filter_map, List.filter_filter, List.map_map]
    refine congrArg List.sum ?_
    rw [List.filter_congr (fun p _ => Bool.and_comm _ _)]
    exact List.map_congr_left (fun p hp => hnet p (List.mem_filter.mp hp).1 acct)
  · by_cases hown : ∃ p, db.intentById intentId = some p ∧ p.merchantId = some merchant.id
    · obtain ⟨p, looked, hm⟩ := hown
      rw [getTransaction_owned looked hm] at hdetail
      cases hdetail
      obtain ⟨hp, rfl⟩ := intentById_some looked
      exact (sum_details db p.id acct).trans (hnet p hp acct)
    · rw [← owns_iff, ← getTransaction_hides answer] at hown
      cases hown.symm.trans hdetail

end

def firstPage : TransactionsQuery :=
  { oneByOne with pageSize := 50, page_size_range := by decide }

/-- An order that is paid, and of which 300 cents are given back. -/
theorem screens_agree_order :
    let rs : List Request := [
      ⟨.createIntent order (some "mer_1"), clock 0, accepting .requiresAction⟩,
      ⟨.confirmIntent "pi_local_i" confirmation, clock 1, accepting .requiresAction⟩,
      ⟨.deliver (paid "evt_1"), clock 2, accepting .requiresAction⟩,
      ⟨.refundIntent "pi_local_i" "refund-1" (some 300) none, clock 3, accepting .requiresAction⟩]
    let db := (World.empty.afterAll rs).db
    (∃ responses, listing (accepting .requiresAction) db payee firstPage (fun _ => .stored) =
        .ok responses ∧
      ∀ currency acct, shown (Dashboard.getBalance db payee.id) currency acct =
        sumOver (fun t => position t acct) (fun t => decide (t.currency = currency))
          (responses.flatMap PaginatedTransactions.items)) ∧
    ∀ intentId detail, (serve (accepting .requiresAction) (getTransaction intentId payee) db).result =
        .ok detail →
      ∀ acct, sumOver signedRead (fun e => decide (e.account = acct)) detail.ledgerEntries =
        position detail.toPaymentIntentRead acct := by
  intro rs
  refine screens_agree rs ?_ payee _ firstPage _ rfl rfl (unbroken_of_distinct ?_)
  · simp only [rs, along_cons]
    exact ⟨accepting_lawful (by decide) (by simp) _ _, accepting_lawful (by decide) (by simp) _ _,
      accepting_emitted (by decide) rfl (by decide +kernel) _,
      accepting_lawful (by decide) (by simp) _ _, trivial⟩
  · decide +kernel

end SixGateway.DashboardTotals
