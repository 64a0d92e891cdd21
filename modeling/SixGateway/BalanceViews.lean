import SixGateway.ApiKeyService
import SixGateway.ZeroSum

namespace SixGateway.BalanceViews

open Library Library.Journal Models Database LedgerService Queries Bookings Api ApiKeyService ZeroSum

/-- The tables that a balance is computed from, with the foreign keys between them. -/
structure Books where
  db : Db
  merchants : Table Merchant
  entries_reference : ∀ e ∈ db.ledgerEntries, db.references e.paymentIntentId = true
  intents_reference : ∀ p ∈ db.paymentIntents, ∀ m, p.merchantId = some m →
    ∃ merchant ∈ merchants, merchant.id = m

/-- An entry without an intent, or of an intent without a merchant. -/
def unowned (db : Db) (e : LedgerEntry) : Bool :=
  decide (e.paymentIntentId = none ∨
    ∃ p ∈ db.paymentIntents, e.paymentIntentId = some p.id ∧ p.merchantId = none)

def ownerOf (db : Db) (e : LedgerEntry) : Option String :=
  (e.paymentIntentId.bind db.intentById).bind PaymentIntent.merchantId

variable {db : Db} {books : Books} {e : LedgerEntry} {merchantId : Option String} {m : String}
  {account currency : String} {balance : Int}

theorem inScope_eq : inScope db (some m) e.paymentIntentId = decide (ownerOf db e = some m) := by
  unfold inScope ownerOf
  cases e.paymentIntentId.bind db.intentById with
  | none => rfl
  | some p => rfl

theorem ownerOf_eq_some : ownerOf db e = some m ↔
    ∃ p ∈ db.paymentIntents, e.paymentIntentId = some p.id ∧ p.merchantId = some m := by
  simp only [ownerOf, Option.bind_eq_some_iff]
  constructor
  · rintro ⟨p, ⟨id, hid, hp⟩, hm⟩
    obtain ⟨hmem, rfl⟩ := intentById_some hp
    exact ⟨p, hmem, hid, hm⟩
  · rintro ⟨p, hp, hid, hm⟩
    exact ⟨p, ⟨p.id, hid, intentById_of_mem hp⟩, hm⟩

theorem ownerOf_eq_none (h : db.references e.paymentIntentId = true) :
    decide (ownerOf db e = none) = unowned db e := by
  rw [unowned, decide_eq_decide]
  cases hid : e.paymentIntentId with
  | none => simp [ownerOf, hid]
  | some id =>
    rw [hid] at h
    obtain ⟨p, hp⟩ := Option.isSome_iff_exists.mp h
    obtain ⟨hmem, rfl⟩ := intentById_some hp
    have howner : ownerOf db e = p.merchantId := by simp [ownerOf, hid, hp]
    rw [howner]
    constructor
    · exact fun hm => .inr ⟨p, hmem, rfl, hm⟩
    · rintro (hnone | ⟨q, hq, heq, hm⟩)
      · cases hnone
      · rw [eq_of_id hmem hq (Option.some.inj heq), hm]

theorem accountOf_eq :
    accountOf e = (currency, account) ↔ e.account = account ∧ e.currency = currency := by
  rw [accountOf, Prod.mk.injEq]
  exact and_comm

theorem mem_balanceRows : (currency, account, balance) ∈ balanceRows db merchantId ↔
    (∃ e ∈ scope db merchantId, accountOf e = (currency, account)) ∧
      balance = sumOver LedgerEntry.signed (fun e => decide (accountOf e = (currency, account)))
        (scope db merchantId) := by
  simp only [balanceRows, List.mem_map, List.mem_insertionSort, List.mem_dedup]
  constructor
  · rintro ⟨k, hk, heq⟩
    cases heq
    exact ⟨hk, rfl⟩
  · rintro ⟨hk, rfl⟩
    exact ⟨(currency, account), hk, rfl⟩

theorem shown_iff : ((getBalancesByCurrency db merchantId).lookup currency account).isSome ↔
    ∃ e ∈ scope db merchantId, accountOf e = (currency, account) := by
  rw [Option.isSome_iff_exists, getBalancesByCurrency]
  simp only [Dict.lookup_group _ (nodup_balanceRows db merchantId), mem_balanceRows]
  simp

theorem lookup_balances :
    ((getBalancesByCurrency db merchantId).lookup currency account).getD 0 =
      sumOver LedgerEntry.signed (fun e => decide (accountOf e = (currency, account)))
        (scope db merchantId) := by
  cases h : (getBalancesByCurrency db merchantId).lookup currency account with
  | some balance =>
    exact (mem_balanceRows.mp ((Dict.lookup_group _ (nodup_balanceRows db merchantId)).mp h)).2
  | none =>
    refine (sumOver_eq_zero (fun e he => decide_eq_false (fun heq => ?_))).symm
    have hshown := shown_iff.mpr ⟨e, he, heq⟩
    rw [h] at hshown
    cases hshown

theorem sumOver_scope (p : LedgerEntry → Bool) :
    sumOver LedgerEntry.signed p (scope db (some m)) =
      sumOver LedgerEntry.signed (fun e => p e && decide (ownerOf db e = some m))
        db.ledgerEntries := by
  rw [scope_eq, sumOver, List.filter_filter]
  simp only [inScope_eq]
  rfl

theorem nodup_owners (merchants : Table Merchant) :
    (none :: merchants.rows.map (fun m => some m.id)).Nodup := by
  refine List.nodup_cons.mpr ⟨by simp, ?_⟩
  rw [List.Nodup, List.pairwise_map]
  refine merchants.unique.imp (fun {a b} h heq => ?_)
  have hc : clash a b = true :=
    Table.clash_iff.mpr ⟨.id a.id, by simp [Keyed.keys], by simp [Keyed.keys, Option.some.inj heq]⟩
  rw [h] at hc
  cases hc

theorem owner_listed (books : Books) (e : LedgerEntry) :
    ownerOf books.db e ∈ none :: books.merchants.rows.map (fun m => some m.id) := by
  cases h : ownerOf books.db e with
  | none => exact List.mem_cons_self
  | some m =>
    obtain ⟨p, hp, -, hm⟩ := ownerOf_eq_some.mp h
    obtain ⟨merchant, hmerchant, rfl⟩ := books.intents_reference p hp m hm
    exact List.mem_cons_of_mem _ (List.mem_map_of_mem hmerchant)

section

variable [StrLower]

theorem getBalance_eq (db : Db) (account currency : String) : getBalance db account currency =
    sumOver LedgerEntry.signed (fun e => decide (accountOf e = (lower currency, account)))
      db.ledgerEntries :=
  sumOver_congr (fun _ _ => decide_eq_decide.mpr accountOf_eq.symm)

/-- The three views of a balance agree: the filtered sum, the entry of the whole ledger, and the
entries of the merchants with what no merchant owns. What a merchant is shown has an entry of
theirs behind it. -/
theorem balance_views_agree (books : Books) (account currency : String) :
    let db := books.db
    getBalance db account currency =
      ((getBalancesByCurrency db none).lookup (lower currency) account).getD 0 ∧
    getBalance db account currency =
      (books.merchants.rows.map (fun m =>
        ((getBalancesByCurrency db (some m.id)).lookup (lower currency) account).getD 0)).sum +
      sumOver LedgerEntry.signed (fun e => decide (e.account = account ∧
        e.currency = lower currency) && unowned db e) db.ledgerEntries ∧
    ∀ merchantId shownCurrency shownAccount,
      ((getBalancesByCurrency db (some merchantId)).lookup shownCurrency shownAccount).isSome ↔
        ∃ e ∈ db.ledgerEntries, e.currency = shownCurrency ∧ e.account = shownAccount ∧
          ∃ p ∈ db.paymentIntents, e.paymentIntentId = some p.id ∧
            p.merchantId = some merchantId := by
  intro db
  refine ⟨?_, ?_, fun merchantId shownCurrency shownAccount => ?_⟩
  · rw [lookup_balances, getBalance_eq]
    rfl
  · have hsum := sum_groups (v := LedgerEntry.signed)
      (p := fun e => decide (accountOf e = (lower currency, account))) (l := db.ledgerEntries)
      (ownerOf db) (nodup_owners books.merchants) (fun e _ _ => owner_listed books e)
    rw [getBalance_eq, ← hsum, List.map_cons, List.sum_cons, add_comm, List.map_map]
    congr 1
    · refine congrArg List.sum (List.map_congr_left (fun m _ => ?_))
      rw [lookup_balances, sumOver_scope]
      rfl
    · refine sumOver_congr (fun e he => ?_)
      rw [ownerOf_eq_none (books.entries_reference e he)]
      simp only [accountOf_eq]
      rfl
  · rw [shown_iff, scope_eq]
    simp only [List.mem_filter, inScope_eq, decide_eq_true_eq, ownerOf_eq_some, accountOf,
      Prod.mk.injEq]
    constructor
    · rintro ⟨e, ⟨he, hp⟩, hc, ha⟩
      exact ⟨e, he, hc, ha, hp⟩
    · rintro ⟨e, he, hc, ha, hp⟩
      exact ⟨e, ⟨he, hp⟩, hc, ha⟩

end

def capturedLegs (uuid : String) (intent : Option String) (amount : Int) : List LedgerEntry :=
  [⟨"le_1" ++ uuid, "tx_" ++ uuid, "payments_authorised", .debit, amount, "usd", intent, none, [], 0⟩,
    ⟨"le_2" ++ uuid, "tx_" ++ uuid, "payments_captured", .credit, amount, "usd", intent, none, [], 0⟩]

def paymentTo (id : String) (merchantId : Option String) : PaymentIntent :=
  ⟨id, none, id, 100, "usd", 0, 0, .processing, merchantId, none, none, none, [], 0, 0⟩

/-- A payment to Carol, one to no merchant, and an entry of neither. -/
def mixedBooks : Books where
  db := { Db.empty with
    paymentIntents := ⟨[paymentTo "pi_a" (some "mer_carol"), paymentTo "pi_b" none], by decide⟩
    ledgerEntries := capturedLegs "a" (some "pi_a") 100 ++ capturedLegs "b" (some "pi_b") 20 ++
      capturedLegs "c" none 3 }
  merchants := ⟨[⟨"mer_carol", "Carol", "carol@shop.test", true, 0⟩,
    ⟨"mer_dave", "Dave", "dave@shop.test", true, 0⟩], by decide⟩
  entries_reference := by decide
  intents_reference p hp m hm := by
    obtain rfl | rfl : p = paymentTo "pi_a" (some "mer_carol") ∨ p = paymentTo "pi_b" none := by
      simpa using List.mem_pair.mp hp
    · cases hm
      exact ⟨_, List.mem_cons_self, rfl⟩
    · cases hm

theorem balance_views_agree_mixed :
    let db := mixedBooks.db
    getBalance db "payments_captured" "USD" = 123 ∧
    getBalance db "payments_captured" "USD" =
      ((getBalancesByCurrency db none).lookup (lower "USD") "payments_captured").getD 0 ∧
    getBalance db "payments_captured" "USD" =
      (mixedBooks.merchants.rows.map (fun m =>
        ((getBalancesByCurrency db (some m.id)).lookup (lower "USD") "payments_captured").getD
          0)).sum +
      sumOver LedgerEntry.signed (fun e => decide (e.account = "payments_captured" ∧
        e.currency = lower "USD") && unowned db e) db.ledgerEntries ∧
    ∀ merchantId shownCurrency shownAccount,
      ((getBalancesByCurrency db (some merchantId)).lookup shownCurrency shownAccount).isSome ↔
        ∃ e ∈ db.ledgerEntries, e.currency = shownCurrency ∧ e.account = shownAccount ∧
          ∃ p ∈ db.paymentIntents, e.paymentIntentId = some p.id ∧
            p.merchantId = some merchantId :=
  ⟨by decide +kernel, balance_views_agree mixedBooks "payments_captured" "USD"⟩

end SixGateway.BalanceViews
