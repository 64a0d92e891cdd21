import SixGateway.Pagination
import SixGateway.Sessions
import SixGateway.Provenance

namespace SixGateway.Disclosure

open Library Library.Run Models Errors Database StripeClient LedgerService PaymentService
open CheckoutService Api ApiKeyService Gateway Queries Concurrency Transactions Interleavings MerchantService
open Server StripeContract Provenance Sessions
open Dashboard hiding getBalance

section

variable [StrLower] {a b c db : Db} {t : List Stmt} {m : Merchant} {site : Site}

/-- What a run has committed to the payments at each of its times. -/
structure History (At : Nat → Db → Prop) : Prop where
  grown : ∀ i j a b, At i a → At j b → i ≤ j → Grown a b
  books : ∀ i a, At i a → Books a

/-- What a route of the dashboard, or the one that reads a session, may show a merchant of what has
been committed at times of `At`: the balance over the entries of the merchant's intents; a page of
the merchant's intents, all of them counted before; an intent of the merchant's with whole bookings
of it, all that there were a little later; a session of the merchant's. -/
inductive Shown (At : Nat → Db → Prop) (m : Merchant) : MerchantRoute → Content → Prop
  | balance (i : Nat) (past : Db) (read : At i past)
      (owned : ∀ e ∈ scope past (some m.id), ∃ p ∈ past.paymentIntents,
        e.paymentIntentId = some p.id ∧ p.merchantId = some m.id) :
      Shown At m .getBalance (.balance (Dashboard.getBalance past m.id))
  | transactions (query : TransactionsQuery) (order : RowOrder PaymentIntent) (i j : Nat)
      (counted past : Db) (first : At i counted) (before : i ≤ j) (second : At j past)
      (owned : ∀ p ∈ query.base m counted ++ query.base m past, p.merchantId = some m.id)
      (items : List PaymentIntent) (page : items =
        ((order.orderBy newestFirst (query.base m past)).drop query.offset).take query.pageSize) :
      Shown At m (.listTransactions query) (.transactions ⟨items.map intentRead, query.page,
        query.pageSize, (query.base m counted).length⟩)
  | transaction (intentId : String) (i j : Nat) (loaded past : Db) (first : At i loaded)
      (before : i ≤ j) (second : At j past) (p : PaymentIntent)
      (row : loaded.intentById intentId = some p) (owner : p.merchantId = some m.id)
      (q : PaymentIntent) (kept : q ∈ past.paymentIntents) (same : SameRow p q)
      (es : List LedgerEntry) (journal : Journal q es)
      (listed : (listEntriesForIntent past intentId).Perm es) :
      Shown At m (.getTransaction intentId) (.transaction ⟨intentRead p,
        (listEntriesForIntent past intentId).map entryRead⟩)
  | session (sessionId : String) (i : Nat) (past : Db) (read : At i past) (cs : CheckoutSession)
      (row : past.sessionById sessionId = some cs) (owner : cs.merchantId = m.id) :
      Shown At m (.retrieveCheckoutSession sessionId) (.session (sessionRead cs))

variable {At : Nat → Db → Prop} {route : MerchantRoute} {content : Content} {n : Nat}

theorem shown_getBalance {past : Db} (read : At n past) :
    Shown At m .getBalance (.balance (Dashboard.getBalance past m.id)) := by
  refine .balance n past read (fun e he => ?_)
  obtain ⟨-, hscope⟩ := List.mem_filter.mp he
  split at hscope
  · next p hp =>
    obtain ⟨id, hid, hl⟩ := Option.bind_eq_some_iff.mp hp
    obtain ⟨hmem, rfl⟩ := intentById_some hl
    exact ⟨p, hmem, hid, of_decide_eq_true hscope⟩
  · cases hscope

theorem base_owned {query : TransactionsQuery} {p : PaymentIntent} (hp : p ∈ query.base m db) :
    p.merchantId = some m.id := by
  obtain ⟨-, hselected⟩ := List.mem_filter.mp hp
  simp only [TransactionsQuery.selects, Bool.and_eq_true, decide_eq_true_eq] at hselected
  exact hselected.1.1

theorem sees_transactionsPage (query : TransactionsQuery) (order : RowOrder PaymentIntent) (n : Nat) :
    (transactionsPage m query order).Sees At
      (fun _ t => Shown At m (.listTransactions query) (.transactions t)) n := by
  unfold transactionsPage
  split
  · intro i _ counted first j before past second
    refine .transactions query order i j counted past first before second (fun p hp => ?_) _ rfl
    exact (List.mem_append.mp hp).elim base_owned base_owned
  · exact fun _ _ _ _ => trivial

theorem sees_getTransaction (hist : History At) (intentId : String) (n : Nat) :
    (Api.getTransaction intentId m).Sees At
      (fun _ t => Shown At m (.getTransaction intentId) (.transaction t)) n := by
  intro i _ loaded first
  change (transactionLoaded intentId m (loaded.intentById intentId)).Sees At _ i
  cases hl : loaded.intentById intentId with
  | none => trivial
  | some p =>
    simp only [transactionLoaded]
    split
    · trivial
    · next howner =>
      intro j before past second
      obtain ⟨hp, rfl⟩ := intentById_some hl
      obtain ⟨q, hq, hpq⟩ := (hist.grown i j loaded past first second before).rows p hp
      have hjournal := (hist.books j past second).journal q hq
      rw [hpq.id_eq] at hjournal
      exact .transaction _ i j loaded past first before second p hl (not_not.mp howner) q hq hpq _
        hjournal (List.perm_insertionSort _ _)

theorem sees_retrieveSession (sessionId : String) (env : Env) (n : Nat) :
    (Api.retrieveCheckoutSession sessionId m env).Sees At
      (fun _ cs => Shown At m (.retrieveCheckoutSession sessionId) (.session cs)) n := by
  refine (sees_getOpenSession sessionId env n).bind ?_
  rintro k cs - ⟨i, db, -, -, read, row⟩
  split
  · trivial
  · next howner => exact .session sessionId i db read cs row (not_not.mp howner)

/-- A disclosing route is one that reads on behalf of a merchant. -/
def Discloses : MerchantRoute → Prop
  | .getBalance | .listTransactions _ | .getTransaction _ | .retrieveCheckoutSession _ => True
  | _ => False

variable {d : Deployment} {sha256 : String → String} {h : Headers} {Seen : Nat → Site → Prop}

def Since (Seen : Nat → Site → Prop) (n k : Nat) (db : Db) : Prop :=
  n ≤ k ∧ ∃ site, Seen k site ∧ site.db = db

/-- At time `n` the merchant was active, and by then the request had presented a key of the
merchant's that was active. -/
structure Vouched (sha256 : String → String) (Seen : Nat → Site → Prop) (h : Headers) (m : Merchant)
    (n : Nat) : Prop where
  key : ∃ i site, i ≤ n ∧ Seen i site ∧ ∃ rawKey, presented h = some rawKey ∧
    ∃ k ∈ site.accounts.apiKeys, k.keyHash = sha256 rawKey ∧ k.isActive = true ∧
      k.merchantId = m.id
  merchant : ∃ site, Seen n site ∧ m ∈ site.accounts.merchants ∧ m.isActive = true

theorem sees_answered {α : Type} {statusCode : Nat} {content : α → Content} {p : Service α}
    (hp : p.Sees (Since Seen n) (fun _ a => Shown (Since Seen n) m route (content a)) n) :
    (answered statusCode content p).Sees Seen
      (fun _ a => Shown (Since Seen n) m route a.content) n :=
  (hp.embed onPayments (fun _ site hn hsite => ⟨hn, site, hsite, rfl⟩)).bind (fun _ _ _ ha => ha)

theorem sees_endpoint (hroute : Discloses route) (s : Surroundings)
    (hist : History (Since Seen n)) :
    (route.endpoint m s).Sees Seen (fun _ a => Shown (Since Seen n) m route a.content) n := by
  cases route with
  | getBalance => exact fun k hk site hsite => shown_getBalance ⟨hk, site, hsite, rfl⟩
  | listTransactions query => exact sees_answered (sees_transactionsPage query _ n)
  | getTransaction intentId => exact sees_answered (sees_getTransaction hist intentId n)
  | retrieveCheckoutSession sessionId => exact sees_answered (sees_retrieveSession sessionId s.env n)
  | createPaymentIntent | confirmPaymentIntent | cancelPaymentIntent | retrievePaymentIntent
  | refundPaymentIntent | createCheckoutSession => exact hroute.elim

section accounts

variable {AtAccounts : Nat → Accounts → Prop} {rawKey : String} {env : KeyEnv}

/-- A merchant who is active at time `n`, and for whom an active key with the hash of `rawKey` has
been found by then. -/
def Verified (sha256 : String → String) (rawKey : String) (AtAccounts : Nat → Accounts → Prop)
    (n : Nat) (m : Merchant) : Prop :=
  (∃ i accounts, i ≤ n ∧ AtAccounts i accounts ∧ ∃ k ∈ accounts.apiKeys,
    k.keyHash = sha256 rawKey ∧ k.isActive = true ∧ k.merchantId = m.id) ∧
  ∃ accounts, AtAccounts n accounts ∧ m ∈ accounts.merchants ∧ m.isActive = true

omit [StrLower] in
theorem sees_verifyMatched {i : Nat} {accounts : Accounts} (hi : AtAccounts i accounts)
    {found : Option APIKey}
    (hfound : ∀ k, found = some k → k ∈ accounts.apiKeys ∧ k.keyHash = sha256 rawKey) :
    (verifyMatched env found).Sees AtAccounts (Verified sha256 rawKey AtAccounts) i := by
  cases found with
  | none => trivial
  | some k =>
    obtain ⟨hk, hhash⟩ := hfound k rfl
    simp only [verifyMatched]
    split
    · next active =>
      intro j hj later hlater
      change (verifyOwner env k (later.merchantById k.merchantId)).Sees AtAccounts _ j
      cases howner : later.merchantById k.merchantId with
      | none => trivial
      | some m =>
        obtain ⟨hm, hid⟩ := Authentication.merchantById_some howner
        simp only [verifyOwner]
        split
        · next inUse =>
          exact ⟨⟨i, accounts, hj, hi, k, hk, hhash, active, hid.symm⟩, later, hlater, hm, inUse⟩
        · trivial
    · trivial

omit [StrLower] in
theorem sees_verifyApiKey (n : Nat) :
    (verifyApiKey sha256 rawKey env).Sees AtAccounts (Verified sha256 rawKey AtAccounts) n := by
  simp only [verifyApiKey]
  split
  · trivial
  · split
    · trivial
    · intro i _ accounts hi
      refine sees_verifyMatched hi (fun k hk => ?_)
      have hmem := env.order.mem_arrange.mp (List.mem_of_find?_eq_some hk)
      exact ⟨(List.mem_filter.mp hmem).1, by simpa using List.find?_some hk⟩

end accounts

variable [StrRepr]

theorem sees_requireApiKey (h : Headers) (env : KeyEnv) :
    (requireApiKey sha256 h.authorization env).Sees Seen
      (fun n m => Vouched sha256 Seen h m n) 0 := by
  cases hauth : h.authorization with
  | none => trivial
  | some c =>
    simp only [requireApiKey]
    split
    · trivial
    · next hscheme =>
      have hpresented : presented h = some c.credentials := by
        simp only [presented, hauth, Option.bind_some]
        exact if_pos (not_not.mp hscheme)
      have hverified : (verifyApiKey sha256 c.credentials env).Sees
          (fun n accounts => ∃ site, Seen n site ∧ site.accounts = accounts) _ 0 :=
        sees_verifyApiKey 0
      refine (hverified.embed onAccounts (fun _ site _ hsite => ⟨site, hsite, rfl⟩)).weaken ?_
      rintro n m ⟨⟨i, _, hi, ⟨site, hsite, rfl⟩, k, hk, hhash, active, owner⟩, _,
        ⟨site', hsite', rfl⟩, hm, inUse⟩
      exact ⟨⟨i, site, hi, hsite, c.credentials, hpresented, k, hk, hhash, active, owner⟩, site',
        hsite', hm, inUse⟩

theorem sees_route (sha256 : String → String) (h : Headers) (hroute : Discloses route)
    (s : Surroundings) (hist : ∀ n, History (Since Seen n)) :
    ((requireApiKey sha256 h.authorization s.keyEnv).bind fun m => route.endpoint m s).Sees Seen
      (fun _ a => ∃ m n, Vouched sha256 Seen h m n ∧ Shown (Since Seen n) m route a.content) 0 := by
  refine (sees_requireApiKey h s.keyEnv).bind (fun n m _ vouched => ?_)
  exact (sees_endpoint hroute s (hist n)).weaken (fun _ _ hshown => ⟨m, n, vouched, hshown⟩)

variable [Rendering.StrUpper]

theorem history_serving (d : Deployment) (start : Site) (calls : List (StripeCall × StripeAnswer))
    (rs : List HttpRequest) (ls : List Label) (hbooks : Books start.db) (n : Nat) :
    History (Since (SiteAt d start calls rs ls) n) := by
  have hall := growing_serving d start calls rs
  constructor
  · rintro i j _ _ ⟨-, _, ⟨u, hu, rfl⟩, rfl⟩ ⟨-, _, ⟨v, hv, rfl⟩, rfl⟩ hij
    obtain ⟨ms, hms⟩ := hu.between hv hij
    exact (growing_run (growing_run hall hu.2).1 hms).2.payments
  · rintro i _ ⟨-, _, ⟨u, hu, rfl⟩, rfl⟩
    exact (growing_run hall hu.2).2.payments.books hbooks

end

/-- Alice looks at her payments while the first of them is being created. -/
def lookingOn : List HttpRequest :=
  openingDay ++ [⟨.merchant (.listTransactions Pagination.oneByOne),
    Contract.bearer Authentication.aliceToken, Contract.moment 3⟩]

/-- The payment is created after the rows have been counted and before they are listed. -/
def lookingMoves : List Label :=
  openingMoves.take 9 ++ List.replicate 4 (3, .run) ++ openingMoves.drop 9 ++ [(3, .run)]

end SixGateway.Disclosure
