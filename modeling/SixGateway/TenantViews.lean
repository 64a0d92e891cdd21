import SixGateway.Dashboard
import SixGateway.Tenancy
import Mathlib.Data.Prod.Lex
import Mathlib.Data.String.Basic

namespace SixGateway.TenantViews

open Library Library.Journal Models Errors Database StripeClient PaymentService Queries Bookings
open Sessions StripeContract Api Dashboard Tenancy
open Gateway hiding Along
open LedgerService hiding getBalance

def entriesOf (db : Db) (merchant : Merchant) : List LedgerEntry :=
  db.ledgerEntries.filter (fun e =>
    (intentsOf db merchant).any (fun p => decide (e.paymentIntentId = some p.id)))

def sessionsOf (db : Db) (merchant : Merchant) : List CheckoutSession :=
  db.checkoutSessions.select (fun cs => decide (cs.merchantId = merchant.id))

/-- The rows of a merchant are the same in two states. Everything else may differ. -/
structure Agree (merchant : Merchant) (db db' : Db) : Prop where
  intents : (intentsOf db merchant).Perm (intentsOf db' merchant)
  entries : (entriesOf db merchant).Perm (entriesOf db' merchant)
  sessions : (sessionsOf db merchant).Perm (sessionsOf db' merchant)

def oldestFirst (e f : LedgerEntry) : Prop := e.createdAt ≤ f.createdAt

instance : DecidableRel oldestFirst :=
  fun e f => inferInstanceAs (Decidable (e.createdAt ≤ f.createdAt))

/-- The state of the database and the way in which it orders the intents of one instant. Entries
of one instant come in the order in which they are stored. -/
structure Source where
  db : Db
  order : RowOrder PaymentIntent

section

variable [StrLower]

structure BreaksTiesAlike (merchant : Merchant) (s s' : Source) : Prop where
  pages : ∀ query : TransactionsQuery,
    TiesAlike newestFirst (s.order.arrange (query.base merchant s.db))
      (s'.order.arrange (query.base merchant s'.db))
  details : ∀ intentId : String,
    TiesAlike oldestFirst
      ((entriesOf s.db merchant).filter (fun e => decide (e.paymentIntentId = some intentId)))
      ((entriesOf s'.db merchant).filter (fun e => decide (e.paymentIntentId = some intentId)))

inductive Get where
  | balance
  | transactions (query : TransactionsQuery)
  | transaction (intentId : String)
  | session (sessionId : String)

inductive Response where
  | balance (r : BalanceResponse)
  | transactions (r : PaginatedTransactions)
  | transaction (r : TransactionDetail)
  | session (r : CheckoutSessionRead)
  deriving DecidableEq

def Get.program (g : Get) (merchant : Merchant) (order : RowOrder PaymentIntent) (env : Env) :
    Service Response :=
  match g with
  | .balance => .read fun db => .ret (.balance (getBalance db merchant.id))
  | .transactions query => respond .transactions (transactionsPage merchant query order)
  | .transaction intentId => respond .transaction (getTransaction intentId merchant)
  | .session sessionId => respond .session (retrieveCheckoutSession sessionId merchant env)

def Get.response (g : Get) (merchant : Merchant) (answer : StripeCall → StripeAnswer) (env : Env)
    (s : Source) : Except Exn Response :=
  (serve answer (g.program merchant s.order env) s.db).result

end

section

variable {db db' : Db} {merchant : Merchant}

theorem mem_intentsOf {p : PaymentIntent} : p ∈ intentsOf db merchant ↔
    p ∈ db.paymentIntents ∧ p.merchantId = some merchant.id := by
  simp [intentsOf, Table.select, Table.mem_def]

theorem mem_sessionsOf {cs : CheckoutSession} : cs ∈ sessionsOf db merchant ↔
    cs ∈ db.checkoutSessions ∧ cs.merchantId = merchant.id := by
  simp [sessionsOf, Table.select, Table.mem_def]

theorem owns_iff_mem {intentId : String} :
    Owns db merchant intentId ↔ ∃ p ∈ intentsOf db merchant, p.id = intentId := by
  constructor
  · rintro ⟨p, hp, hid, hm⟩
    exact ⟨p, mem_intentsOf.mpr ⟨hp, hm⟩, hid⟩
  · rintro ⟨p, hp, hid⟩
    obtain ⟨hp, hm⟩ := mem_intentsOf.mp hp
    exact ⟨p, hp, hid, hm⟩

theorem Agree.owns (h : Agree merchant db db') {intentId : String} :
    Owns db merchant intentId ↔ Owns db' merchant intentId := by
  simp only [owns_iff_mem, h.intents.mem_iff]

theorem scope_eq_entriesOf : scope db (some merchant.id) = entriesOf db merchant := by
  rw [scope_eq]
  refine List.filter_congr (fun e _ => ?_)
  rw [Bool.eq_iff_iff, List.any_eq_true]
  simp only [decide_eq_true_eq]
  cases he : e.paymentIntentId with
  | none => simp [inScope]
  | some i =>
    have hs : inScope db (some merchant.id) (some i) = true ↔ Owns db merchant i := by
      rw [owns_iff, inScope]
      cases h : db.intentById i with
      | none => simp [h]
      | some p => simp [h]
    rw [hs, owns_iff_mem]
    simp only [Option.some.injEq, eq_comm]

section order

variable (a b c : String × String)

def accountLe : Prop := a.1 < b.1 ∨ (a.1 = b.1 ∧ a.2 ≤ b.2)

instance : DecidableRel accountLe := fun a b => inferInstanceAs (Decidable (a.1 < b.1 ∨ _))

theorem accountLe_iff : accountLe a b ↔ toLex a ≤ toLex b := Prod.Lex.toLex_le_toLex.symm

instance : Std.Total accountLe where
  total a b := by
    simp only [accountLe_iff]
    exact le_total _ _

instance : IsTrans (String × String) accountLe where
  trans a b c := by
    simp only [accountLe_iff]
    exact le_trans

instance : Std.Antisymm accountLe where
  antisymm a b := by
    simp only [accountLe_iff]
    exact fun h h' => toLex.injective (le_antisymm h h')

end order

theorem balanceRows_perm {m : Option String} (h : (scope db m).Perm (scope db' m)) :
    balanceRows db m = balanceRows db' m := by
  have hk : ((scope db m).map accountOf).dedup.insertionSort accountLe =
      ((scope db' m).map accountOf).dedup.insertionSort accountLe :=
    insertionSort_eq_of_perm (h.map accountOf).dedup
  calc balanceRows db m
      = (((scope db m).map accountOf).dedup.insertionSort accountLe).map (fun k => (k.1, k.2,
          sumOver LedgerEntry.signed (fun e => decide (accountOf e = k)) (scope db m))) := rfl
    _ = balanceRows db' m := by
      rw [hk]
      exact List.map_congr_left (fun k _ => by rw [sumOver_perm h])

theorem Agree.balance (h : Agree merchant db db') :
    getBalance db merchant.id = getBalance db' merchant.id := by
  have hs : (scope db (some merchant.id)).Perm (scope db' (some merchant.id)) := by
    rw [scope_eq_entriesOf, scope_eq_entriesOf]
    exact h.entries
  simp only [getBalance, getBalancesByCurrency, balanceRows_perm hs]

theorem Agree.symm (h : Agree merchant db db') : Agree merchant db' db :=
  ⟨h.intents.symm, h.entries.symm, h.sessions.symm⟩

theorem Agree.intentById (h : Agree merchant db db') {intentId : String} {p : PaymentIntent}
    (looked : db.intentById intentId = some p) (hm : p.merchantId = some merchant.id) :
    db'.intentById intentId = some p := by
  obtain ⟨hp, rfl⟩ := intentById_some looked
  have hp' : p ∈ intentsOf db' merchant := h.intents.mem_iff.mp (mem_intentsOf.mpr ⟨hp, hm⟩)
  exact intentById_of_mem (mem_intentsOf.mp hp').1

theorem Agree.sessionById (h : Agree merchant db db') {sessionId : String} {cs : CheckoutSession}
    (looked : db.sessionById sessionId = some cs) (hm : cs.merchantId = merchant.id) :
    db'.sessionById sessionId = some cs := by
  obtain ⟨hcs, rfl⟩ := sessionById_some looked
  have hcs' : cs ∈ sessionsOf db' merchant := h.sessions.mem_iff.mp (mem_sessionsOf.mpr ⟨hcs, hm⟩)
  exact sessionById_of_mem (mem_sessionsOf.mp hcs').1

theorem listEntriesForIntent_owned {intentId : String} (h : Owns db merchant intentId) :
    listEntriesForIntent db intentId =
      ((entriesOf db merchant).filter
        (fun e => decide (e.paymentIntentId = some intentId))).insertionSort oldestFirst := by
  obtain ⟨p, hp, rfl⟩ := owns_iff_mem.mp h
  have hf : (entriesOf db merchant).filter (fun e => decide (e.paymentIntentId = some p.id)) =
      db.ledgerEntries.filter (fun e => decide (e.paymentIntentId = some p.id)) := by
    rw [entriesOf, List.filter_filter]
    refine List.filter_congr (fun e _ => ?_)
    by_cases he : e.paymentIntentId = some p.id
    · have ha : (intentsOf db merchant).any (fun q => decide (e.paymentIntentId = some q.id)) :=
        List.any_eq_true.mpr ⟨p, hp, decide_eq_true he⟩
      simp only [ha, Bool.and_true]
    · simp [he]
  rw [hf]
  rfl

instance : Std.Total oldestFirst := ⟨fun e f => le_total e.createdAt f.createdAt⟩

instance : IsTrans LedgerEntry oldestFirst := ⟨fun _ _ _ h h' => le_trans h h'⟩

end

section

variable {answer : StripeCall → StripeAnswer} {env : Env} {merchant : Merchant} {db : Db}

def refreshed (cs : CheckoutSession) (env : Env) : CheckoutSession :=
  if cs.status = .opened ∧ cs.expiresAt < env.now then
    cs.flush { cs with status := .expired } env.now cs
  else cs

theorem retrieveCheckoutSession_owned {sessionId : String} {cs : CheckoutSession}
    (looked : db.sessionById sessionId = some cs) (hm : cs.merchantId = merchant.id) :
    (serve answer (retrieveCheckoutSession sessionId merchant env) db).result =
      .ok (sessionRead (refreshed cs env)) := by
  have h : OpenOutcome sessionId env db (serve answer _ db) := getOpenSession_outcome sessionId
  rw [retrieveCheckoutSession, serve, Program.exec_bind, ← serve]
  generalize serve _ _ _ = out at h ⊢
  cases h with
  | missing none => simp [looked] at none
  | returned cs' looked' kept =>
    obtain rfl : cs = cs' := Option.some.inj (looked.symm.trans looked')
    simp [refreshed, kept, hm]
  | expired cs' looked' open_ past =>
    obtain rfl : cs = cs' := Option.some.inj (looked.symm.trans looked')
    simp [refreshed, open_, past, hm, CheckoutSession.flush]

theorem getTransaction_owned {intentId : String} {p : PaymentIntent}
    (looked : db.intentById intentId = some p) (hm : p.merchantId = some merchant.id) :
    (serve answer (getTransaction intentId merchant) db).result =
      .ok ⟨intentRead p, (listEntriesForIntent db intentId).map entryRead⟩ := by
  simp [getTransaction, serve, looked, transactionLoaded, hm]

variable [StrLower]

theorem base_eq (query : TransactionsQuery) : query.base merchant db =
    (intentsOf db merchant).filter (fun p =>
      query.statusFilter.all (fun s => decide (p.status = s)) &&
        query.currency.all (fun c => decide (p.currency = lower c))) := by
  rw [TransactionsQuery.base, intentsOf, Table.select, Table.select, List.filter_filter]
  refine List.filter_congr (fun p _ => ?_)
  simp only [TransactionsQuery.selects, Bool.and_comm, Bool.and_left_comm]

variable {s s' : Source}

theorem response_balance (h : Agree merchant s.db s'.db) :
    Get.balance.response merchant answer env s = Get.balance.response merchant answer env s' := by
  simp [Get.response, Get.program, serve, h.balance]

theorem response_transactions (h : Agree merchant s.db s'.db)
    (ties : BreaksTiesAlike merchant s s') (query : TransactionsQuery) :
    (Get.transactions query).response merchant answer env s =
      (Get.transactions query).response merchant answer env s' := by
  have htotal : (query.base merchant s.db).length = (query.base merchant s'.db).length := by
    rw [base_eq, base_eq]
    exact (h.intents.filter _).length_eq
  have hrows : s.order.orderBy newestFirst (query.base merchant s.db) =
      s'.order.orderBy newestFirst (query.base merchant s'.db) :=
    insertionSort_eq_of_ties (ties.pages query)
  simp only [Get.response, Get.program, transactionsPage]
  split <;> simp [respond, listTransactions, serve, Program.bind, htotal, hrows]

theorem response_transaction (h : Agree merchant s.db s'.db)
    (ties : BreaksTiesAlike merchant s s') (intentId : String) :
    (Get.transaction intentId).response merchant answer env s =
      (Get.transaction intentId).response merchant answer env s' := by
  simp only [Get.response, Get.program, respond, serve_map]
  refine congrArg _ ?_
  by_cases hown : Owns s.db merchant intentId
  · have hentries : listEntriesForIntent s.db intentId = listEntriesForIntent s'.db intentId := by
      rw [listEntriesForIntent_owned hown, listEntriesForIntent_owned (h.owns.mp hown)]
      exact insertionSort_eq_of_ties (ties.details intentId)
    obtain ⟨p, looked, hm⟩ := owns_iff.mp hown
    rw [getTransaction_owned looked hm, getTransaction_owned (h.intentById looked hm) hm, hentries]
  · rw [(getTransaction_hides ..).mpr hown, (getTransaction_hides ..).mpr (h.owns.not.mp hown)]

theorem response_session (h : Agree merchant s.db s'.db) (sessionId : String) :
    (Get.session sessionId).response merchant answer env s =
      (Get.session sessionId).response merchant answer env s' := by
  simp only [Get.response, Get.program, respond, serve_map]
  refine congrArg _ ?_
  by_cases hown : ∃ cs, s.db.sessionById sessionId = some cs ∧ cs.merchantId = merchant.id
  · obtain ⟨cs, looked, hm⟩ := hown
    rw [retrieveCheckoutSession_owned looked hm,
      retrieveCheckoutSession_owned (h.sessionById looked hm) hm]
  · have hown' : ¬ ∃ cs, s'.db.sessionById sessionId = some cs ∧ cs.merchantId = merchant.id := by
      rintro ⟨cs, looked, hm⟩
      exact hown ⟨cs, h.symm.sessionById looked hm, hm⟩
    rw [(retrieveCheckoutSession_hides ..).mpr hown, (retrieveCheckoutSession_hides ..).mpr hown']

/-- What a merchant reads on the dashboard and of checkout sessions depends on its own rows only. -/
theorem reads_own_rows (g : Get) (merchant : Merchant) (answer : StripeCall → StripeAnswer)
    (env : Env) (s s' : Source) (h : Agree merchant s.db s'.db)
    (ties : BreaksTiesAlike merchant s s') :
    g.response merchant answer env s = g.response merchant answer env s' := by
  cases g with
  | balance => exact response_balance h
  | transactions query => exact response_transactions h ties query
  | transaction intentId => exact response_transaction h ties intentId
  | session sessionId => exact response_session h sessionId

end

def strangersIntent : PaymentIntent where
  id := "pi_local_x"
  stripePaymentIntentId := some "pi_x"
  idempotencyKey := "order-0009"
  amount := 700
  currency := "eur"
  status := .requiresAction
  merchantId := some stranger.id
  customerId := none
  description := none
  clientSecret := none
  paymentMetadata := []
  createdAt := 0
  updatedAt := 0

def adjustment : LedgerEntry where
  id := "le_x"
  transactionId := "tx_x"
  account := "payments_captured"
  direction := .credit
  amount := 300
  currency := "usd"
  paymentIntentId := none
  description := none
  entryMetadata := []
  createdAt := 0

/-- The gateway with the order of the payee, a payment of the stranger and a manual adjustment. -/
def crowded : Db :=
  { ordered.db with
    paymentIntents := (ordered.db.paymentIntents.insert strangersIntent).getD .empty
    ledgerEntries := adjustment ::
      ordered.db.ledgerEntries ++ accrual strangersIntent (clock 0) }

theorem reads_own_rows_crowded :
    (Get.transaction strangersIntent.id).response payee (accepting .requiresAction) (clock 1)
        ⟨ordered.db, .stored⟩ =
      (Get.transaction strangersIntent.id).response payee (accepting .requiresAction) (clock 1)
        ⟨crowded, .stored⟩ := by
  have hi : intentsOf ordered.db payee = intentsOf crowded payee := by decide +kernel
  have he : entriesOf ordered.db payee = entriesOf crowded payee := by decide +kernel
  have hs : sessionsOf ordered.db payee = sessionsOf crowded payee := by decide +kernel
  refine reads_own_rows _ payee _ _ _ _ ⟨.of_eq hi, .of_eq he, .of_eq hs⟩ ⟨fun query => ?_, ?_⟩
  · rw [base_eq, base_eq, hi]
    exact fun _ => rfl
  · rw [he]
    exact fun _ _ => rfl

end SixGateway.TenantViews
