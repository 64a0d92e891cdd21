import SixGateway.Interleavings
import SixGateway.Contract
import SixGateway.Library.Delegation
import SixGateway.Library.Commits
import SixGateway.Library.Assurance
import Mathlib.Data.List.Perm.Subperm

namespace SixGateway.Provenance

open Library Library.Run Models Errors Database Schemas StripeClient PaymentService CheckoutService
open Api ApiKeyService Gateway Concurrency Interleavings MerchantService Server StripeContract
open Transactions (KeepsBy commit_ledger)

/-- Merchants stay, and keys stay what they are, but for whether and when they are used. -/
structure Persists (a b : Site) : Prop where
  merchants : ∀ m ∈ a.accounts.merchants, ∃ n ∈ b.accounts.merchants, n.id = m.id
  keys : ∀ k ∈ a.accounts.apiKeys, ∃ l ∈ b.accounts.apiKeys,
    l.id = k.id ∧ l.merchantId = k.merchantId ∧ l.keyHash = k.keyHash

variable {a b c site : Site} {t : SiteStmt}

theorem Persists.refl (a : Site) : Persists a a :=
  ⟨fun m hm => ⟨m, hm, rfl⟩, fun k hk => ⟨k, hk, rfl, rfl, rfl⟩⟩

theorem Persists.trans (h : Persists a b) (h' : Persists b c) : Persists a c where
  merchants m hm := by
    obtain ⟨n, hn, hmn⟩ := h.merchants m hm
    obtain ⟨o, ho, hno⟩ := h'.merchants n hn
    exact ⟨o, ho, hno.trans hmn⟩
  keys k hk := by
    obtain ⟨l, hl, hid, howner, hhash⟩ := h.keys k hk
    obtain ⟨m, hm, hid', howner', hhash'⟩ := h'.keys l hl
    exact ⟨m, hm, hid'.trans hid, howner'.trans howner, hhash'.trans hhash⟩

theorem persists_updateKey {id : String} {f : APIKey → APIKey} {hf : ∀ k, (f k).id = k.id}
    (howner : ∀ k, (f k).merchantId = k.merchantId) (hhash : ∀ k, (f k).keyHash = k.keyHash) :
    Persists site { site with accounts := site.accounts.updateKey id f hf } where
  merchants m hm := ⟨m, hm, rfl⟩
  keys k hk := by
    have hmem : ∀ l, (∃ x ∈ site.accounts.apiKeys, (if x.id = id then f x else x) = l) →
        l ∈ (site.accounts.updateKey id f hf).apiKeys :=
      fun l hl => Authentication.mem_updateKey.mpr hl
    by_cases hid : k.id = id
    · exact ⟨f k, hmem _ ⟨k, hk, if_pos hid⟩, hf k,
        howner k, hhash k⟩
    · exact ⟨k, hmem _ ⟨k, hk, if_neg hid⟩, rfl, rfl, rfl⟩

theorem persists_apply (h : t.apply a = .ok b) : Persists a b := by
  cases t with
  | insertMerchant row refusal =>
    simp only [SiteStmt.apply] at h
    split at h
    · next u hu =>
      cases h
      exact ⟨fun m hm => ⟨m, (Table.mem_insert hu).mpr (.inl hm), rfl⟩,
        fun k hk => ⟨k, hk, rfl, rfl, rfl⟩⟩
    · cases h
  | payment t =>
    simp only [SiteStmt.apply] at h
    split at h
    · cases h
      exact ⟨fun m hm => ⟨m, hm, rfl⟩, fun k hk => ⟨k, hk, rfl, rfl, rfl⟩⟩
    · cases h
  | account s =>
    simp only [SiteStmt.apply] at h
    split at h
    · next accounts hs =>
      cases h
      cases s with
      | insertKey row =>
        simp only [AccountStmt.apply] at hs
        split at hs
        · next u _ hu =>
          cases hs
          exact ⟨fun m hm => ⟨m, hm, rfl⟩,
            fun k hk => ⟨k, (Table.mem_insert hu).mpr (.inl hk), rfl, rfl, rfl⟩⟩
        · cases hs
      | deactivateKey id =>
        cases hs
        exact persists_updateKey (fun _ => rfl) (fun _ => rfl)
      | touchKey id now =>
        cases hs
        exact persists_updateKey (fun _ => rfl) (fun _ => rfl)
      | setActive merchantId isActive =>
        cases hs
        refine ⟨fun m hm => ?_, fun k hk => ⟨k, hk, rfl, rfl, rfl⟩⟩
        have hmem := Table.mem_modify (s := if m.id = merchantId then { m with isActive := isActive }
          else m) (t := a.accounts.merchants) (p := fun m => decide (m.id = merchantId))
          (f := fun m => { m with isActive := isActive }) (fun _ => rfl)
        refine ⟨_, hmem.mpr ⟨m, hm, by simp⟩, ?_⟩
        split <;> rfl
    · cases h

theorem silent_account (s : AccountStmt) : Silent onPayments SiteStmt.apply (.account s) := by
  intro site site' h
  simp only [SiteStmt.apply] at h
  split at h <;> cases h
  rfl

theorem silent_insertMerchant (row : Merchant) (refusal : Responses.Failure) :
    Silent onPayments SiteStmt.apply (.insertMerchant row refusal) := by
  intro site site' h
  simp only [SiteStmt.apply] at h
  split at h <;> cases h
  rfl

theorem plain_onPayments : onPayments.Plain := ⟨rfl, rfl⟩

theorem reads_retrieveIntent (intentId : String) (m : Merchant) :
    (Api.retrievePaymentIntent intentId m).Reads := by
  have h : ∀ found, (intentRetrieved intentId found).Reads := by
    rintro (_ | intent) <;> trivial
  exact fun _ => h _

theorem reads_getTransaction (intentId : String) (m : Merchant) :
    (Api.getTransaction intentId m).Reads := by
  have h : ∀ found, (transactionLoaded intentId m found).Reads := by
    rintro (_ | intent)
    · trivial
    · simp only [transactionLoaded]
      split
      · trivial
      · exact fun _ => trivial
  exact fun _ => h _

theorem reads_transactionsPage [StrLower] (m : Merchant) (query : Dashboard.TransactionsQuery)
    (order : RowOrder PaymentIntent) : (Dashboard.transactionsPage m query order).Reads := by
  unfold Dashboard.transactionsPage
  split
  · exact fun _ _ => trivial
  · exact fun _ => trivial

abbrev Prepared {α : Type} (p : SiteService α) (site : Site) : Prop :=
  p.Prepares onPayments SiteStmt.apply Persists (fun _ _ => True) site

theorem prepared_getMerchant (merchantId : String) (site : Site) :
    Prepared (getMerchant merchantId) site := by
  have h : ∀ found w, Prepared (merchantLooked merchantId found) w := by
    rintro (_ | m) w <;> trivial
  exact fun w _ => h _ w

theorem prepared_createApiKey {sha256 : String → String} (merchantId name : String) (env : KeyEnv)
    (site : Site) : Prepared ((createApiKey sha256 merchantId name env).embed onAccounts) site := by
  simp only [createApiKey]
  split
  · trivial
  · exact ⟨silent_account _, fun _ _ _ _ _ _ => trivial⟩

theorem prepared_revokeLooked (keyId : String) (found : Option APIKey) (site : Site) :
    Prepared ((revokeLooked keyId found).embed onAccounts) site := by
  cases found with
  | none => trivial
  | some k => exact ⟨silent_account _, fun _ _ _ _ _ _ => trivial⟩

section

variable [StrLower]

/-- The request of the gateway that a route hands on for the merchant. -/
def MerchantRoute.op? (merchantId : String) : MerchantRoute → Option Op
  | .createPaymentIntent payload => some (.createIntent payload (some merchantId))
  | .confirmPaymentIntent intentId payload => some (.confirmIntent intentId payload)
  | .cancelPaymentIntent intentId payload => some (.cancelIntent intentId payload)
  | .refundPaymentIntent intentId payload =>
    some (.refundIntent intentId payload.idempotencyKey payload.amount payload.reason)
  | .createCheckoutSession payload => some (.createSession merchantId payload)
  | .retrieveCheckoutSession sessionId => some (.getOpenSession sessionId)
  | .retrievePaymentIntent _ | .getBalance | .listTransactions _ | .getTransaction _ => none

def presented (h : Headers) : Option String :=
  h.authorization.bind fun c => if lower c.scheme = "bearer" then some c.credentials else none

/-- The headers present a key whose hash is on record for the merchant. -/
def Keyholder (sha256 : String → String) (site : Site) (h : Headers) (merchantId : String) : Prop :=
  (∃ m ∈ site.accounts.merchants, m.id = merchantId) ∧ ∃ rawKey, presented h = some rawKey ∧
    ∃ k ∈ site.accounts.apiKeys, k.merchantId = merchantId ∧ k.keyHash = sha256 rawKey

/-- Who may ask for what: merchants with a key of theirs, Stripe with events that the SDK has
verified, and anyone for a session by its id. -/
inductive Sanctioned (d : Deployment) (site : Site) (r : HttpRequest) : Op → Prop
  | merchant {route : MerchantRoute} {merchantId : String} {op : Op}
      (asked : r.route = .merchant route) (key : Keyholder d.sha256 site r.headers merchantId)
      (handed : MerchantRoute.op? merchantId route = some op) : Sanctioned d site r op
  | webhook {payload : List UInt8} {signature : String} {event : StripeEvent}
      (asked : r.route = .stripeWebhook payload)
      (signed : truthy r.headers.stripeSignature = some signature)
      (verified : d.constructEvent payload signature = .ok event) :
      Sanctioned d site r (.deliver event)
  | page {sessionId : String} (asked : r.route = .hostedCheckoutPage sessionId) :
      Sanctioned d site r (.getOpenSession sessionId)

variable {d : Deployment} {r : HttpRequest} {op : Op} {sha256 : String → String} {h : Headers}
  {merchantId : String}

theorem Keyholder.later (hk : Keyholder sha256 a h merchantId) (hp : Persists a b) :
    Keyholder sha256 b h merchantId := by
  obtain ⟨⟨m, hm, hid⟩, rawKey, hpresented, k, hkey, howner, hhash⟩ := hk
  obtain ⟨n, hn, hmn⟩ := hp.merchants m hm
  obtain ⟨l, hl, -, howner', hhash'⟩ := hp.keys k hkey
  exact ⟨⟨n, hn, hmn.trans hid⟩, rawKey, hpresented, l, hl, howner'.trans howner,
    hhash'.trans hhash⟩

theorem Sanctioned.later (hs : Sanctioned d a r op) (hp : Persists a b) : Sanctioned d b r op := by
  cases hs with
  | merchant asked key handed => exact .merchant asked (key.later hp) handed
  | webhook asked signed verified => exact .webhook asked signed verified
  | page asked => exact .page asked

def Handed (d : Deployment) (r : HttpRequest) (site : Site) (q : Service Reply) : Prop :=
  ∃ op, Sanctioned d site r op ∧ q = op.program r.surroundings.env

abbrev SiteAwaits {α : Type} (d : Deployment) (r : HttpRequest) (p : SiteService α) (site : Site) :
    Prop :=
  p.Awaits onPayments SiteStmt.apply Persists (Handed d r) site

theorem prepares_verifyMatched {rawKey : String} (hpresented : presented h = some rawKey)
    (env : KeyEnv) (found : Option APIKey)
    (hfound : ∀ k, found = some k → k ∈ site.accounts.apiKeys ∧ k.keyHash = sha256 rawKey) :
    ((verifyMatched env found).embed onAccounts).Prepares onPayments SiteStmt.apply Persists
      (fun m w => Keyholder sha256 w h m.id) site := by
  cases found with
  | none => trivial
  | some k =>
    obtain ⟨hk, hhash⟩ := hfound k rfl
    simp only [verifyMatched]
    split
    · intro w hw
      have howner : ∀ owner, (∀ m, owner = some m → m ∈ w.accounts.merchants ∧ m.id = k.merchantId) →
          ((verifyOwner env k owner).embed onAccounts).Prepares onPayments SiteStmt.apply Persists
            (fun m w => Keyholder sha256 w h m.id) w := by
        rintro (_ | m) hm
        · trivial
        · simp only [verifyOwner]
          split
          · refine ⟨silent_account _, fun w' hw' w'' ht => ?_⟩
            obtain ⟨hmember, hid⟩ := hm m rfl
            obtain ⟨l, hl, -, howner, hhash'⟩ := hw.keys k hk
            have hkey : Keyholder sha256 w h m.id :=
              ⟨⟨m, hmember, rfl⟩, rawKey, hpresented, l, hl, howner.trans hid.symm,
                hhash'.trans hhash⟩
            exact hkey.later (hw'.trans (persists_apply ht))
          · trivial
      exact howner _ (fun m hm => Authentication.merchantById_some hm)
    · trivial

theorem prepares_verifyApiKey {rawKey : String} (hpresented : presented h = some rawKey)
    (env : KeyEnv) (site : Site) :
    ((verifyApiKey sha256 rawKey env).embed onAccounts).Prepares onPayments SiteStmt.apply Persists
      (fun m w => Keyholder sha256 w h m.id) site := by
  simp only [verifyApiKey]
  split
  · trivial
  · split
    · trivial
    · next lookup _ =>
      intro w _
      refine prepares_verifyMatched hpresented env _ (fun k hk => ?_)
      have hmem := env.order.mem_arrange.mp (List.mem_of_find?_eq_some hk)
      exact ⟨(List.mem_filter.mp hmem).1, by simpa using List.find?_some hk⟩

omit [StrLower] in
theorem answered_follows {α β : Type} (statusCode : Nat) (content : β → Content) (p : Service α)
    (f : α → Service β) (g : α → Reply) (hf : ∀ a, (f a).Reads) :
    (answered statusCode content (p.bind f)).Follows onPayments SiteStmt.apply
      (p.bind (fun a => .ret (g a))) := by
  rw [answered, Program.embed_bind, Program.bind_assoc]
  exact Program.follows_embed plain_onPayments p (fun a => (hf a).follows (fun _ => trivial))

theorem awaits_endpoint {route : MerchantRoute} (asked : r.route = .merchant route) (m : Merchant)
    (site : Site) (key : Keyholder d.sha256 site r.headers m.id) :
    SiteAwaits d r (route.endpoint m r.surroundings) site := by
  have hhanded : ∀ op, MerchantRoute.op? m.id route = some op →
      Handed d r site (op.program r.surroundings.env) :=
    fun op hop => ⟨op, .merchant asked key hop, rfl⟩
  -- What the services behind the routes return is at most copied into a response.
  have hresponds : ∀ {α β : Type} (statusCode : Nat) (content : β → Content) (p : Service α)
      (f : α → β) (g : α → Reply), Handed d r site (p.bind (fun a => .ret (g a))) →
      SiteAwaits d r (answered statusCode content (respond f p)) site :=
    fun statusCode content p f g hq =>
      (answered_follows statusCode content p (fun a => .ret (f a)) g (fun _ => trivial)).awaits hq
  have hreads : ∀ {α : Type} (statusCode : Nat) (content : α → Content) (p : Service α), p.Reads →
      SiteAwaits d r (answered statusCode content p) site := by
    intro α statusCode content p hp
    exact Program.Reads.awaits hp (fun _ _ => by trivial) site
  cases route with
  | createPaymentIntent payload =>
    exact hresponds 201 .intent (createIntent payload (some m.id) _) intentRead .intent
      (hhanded _ rfl)
  | confirmPaymentIntent intentId payload =>
    exact hresponds 200 .intent (confirmIntent intentId payload _) intentRead .intent
      (hhanded _ rfl)
  | cancelPaymentIntent intentId payload =>
    exact hresponds 200 .intent (cancelIntent intentId payload _) intentRead .intent (hhanded _ rfl)
  | refundPaymentIntent intentId payload =>
    exact hresponds 201 .intent (refundIntent intentId _ _ _ _) intentRead .intent (hhanded _ rfl)
  | createCheckoutSession payload =>
    exact hresponds 201 .session (createSession m.id payload _) sessionRead .session (hhanded _ rfl)
  | retrieveCheckoutSession sessionId =>
    refine Program.Follows.awaits ?_ (hhanded _ rfl)
    refine answered_follows 200 .session (getOpenSession sessionId r.surroundings.env) _ .session
      (fun cs => ?_)
    by_cases h : cs.merchantId ≠ m.id
    · simp only [if_pos h]
      trivial
    · simp only [if_neg h]
      trivial
  | retrievePaymentIntent intentId => exact hreads 200 .intent _ (reads_retrieveIntent intentId m)
  | getBalance => exact .inr fun _ _ => trivial
  | listTransactions query =>
    exact hreads 200 .transactions _ (reads_transactionsPage m query r.surroundings.intentOrder)
  | getTransaction intentId => exact hreads 200 .transaction _ (reads_getTransaction intentId m)

theorem awaits_stripeWebhook {payload : List UInt8} (asked : r.route = .stripeWebhook payload)
    (site : Site) : SiteAwaits d r
      (Server.stripeWebhook d payload r.headers.stripeSignature r.surroundings.env) site := by
  rw [Server.stripeWebhook]
  split
  · trivial
  · next signature hsigned =>
    split
    · trivial
    · trivial
    · next event hverified =>
      have hhanded : Handed d r site ((Op.deliver event).program r.surroundings.env) :=
        ⟨_, .webhook asked hsigned hverified, rfl⟩
      refine Program.Follows.awaits ?_ hhanded
      exact Program.follows_embed plain_onPayments _ (fun _ => trivial)

theorem handed_owned {rs : List HttpRequest} {site : Site} {js : List Nat}
    {qs : List (Service Reply)}
    (h : List.Forall₂ (fun i q => ∃ r, rs[i]? = some r ∧ Handed d r site q) js qs) :
    ∃ ops : List (HttpRequest × Op), js.map (rs[·]?) = (ops.map Prod.fst).map some ∧
      (∀ o ∈ ops, Sanctioned d site o.1 o.2) ∧
      qs = ops.map (fun o => o.2.program o.1.surroundings.env) := by
  induction h with
  | nil => exact ⟨[], rfl, fun o ho => absurd ho List.not_mem_nil, rfl⟩
  | @cons i q js qs hq _ ih =>
    obtain ⟨r, hr, op, hop, rfl⟩ := hq
    obtain ⟨ops, hjs, hops, rfl⟩ := ih
    exact ⟨(r, op) :: ops, by simp [hr, hjs], List.forall_mem_cons.mpr ⟨hop, hops⟩, rfl⟩

omit [StrLower] in
theorem subperm_of_places {α : Type} {rs os : List α} {js : List Nat} (hjs : js.Nodup)
    (hos : js.map (rs[·]?) = os.map some) : os.Subperm rs := by
  have hbound : js ⊆ List.range rs.length := by
    intro j hj
    have hmem : rs[j]? ∈ os.map some := hos ▸ List.mem_map_of_mem hj
    obtain ⟨r, -, hr⟩ := List.mem_map.mp hmem
    exact List.mem_range.mpr (List.getElem?_eq_some_iff.mp hr.symm).1
  obtain ⟨is, hperm, hsub⟩ := hjs.subperm hbound
  have hall : (List.range rs.length).map (rs[·]?) = rs.map some := by
    apply List.ext_getElem
    · simp
    · intro n _ hn
      simp at hn
      simp [hn]
  have hsome : (os.map some).Subperm (rs.map some) :=
    ⟨is.map (rs[·]?), hos ▸ hperm.map _, hall ▸ hsub.map _⟩
  exact (List.map_subperm_map_iff (Option.some_injective _)).mp hsome

/-- On the payments and towards Stripe, what the server has done is what the gateway has done when it
served, interleaved likewise, requests that each come from one HTTP request of its own, which was
entitled to it. -/
def Backed (d : Deployment) (site : Site) (calls : List (StripeCall × StripeAnswer))
    (rs : List HttpRequest)
    (st : Pool Site StripeCall StripeAnswer SiteStmt Responses.Failure Answer) : Prop :=
  ∃ ops : List (HttpRequest × Op), (ops.map Prod.fst).Subperm rs ∧
    (∀ o ∈ ops, Sanctioned d st.store o.1 o.2) ∧
    ∃ ms u, run (Pool.step commit)
        (Transactions.serving site.db calls (ops.map fun o => (o.2, o.1.surroundings.env))) ms =
          some u ∧
      u.store = st.store.db ∧ u.calls = st.calls

/-- What a request has asked for in an intent. -/
def Asked (body : PaymentIntentCreate) (owner : Option String) (p : PaymentIntent) : Prop :=
  p.merchantId = owner ∧ p.idempotencyKey = body.idempotencyKey ∧ p.amount = body.amount ∧
    p.currency = lower body.currency ∧ p.description = body.description

def Opened (ops : List (Op × Env)) (db : Db) : Prop :=
  ∀ p ∈ db.paymentIntents, ∃ o ∈ ops, ∃ body owner, Opens o.1 body owner ∧ Asked body owner p

theorem opened_commit {ops : List (Op × Env)} {o : Op × Env} (ho : o ∈ ops) {db db' : Db}
    {t : List Stmt} (h : Opened ops db) (ht : Writes o.1 o.2 db t) (hc : commit t db = .ok db') :
    Opened ops db' := by
  cases ht with
  | creates body owner opens creates =>
    obtain ⟨s, status, table, -, -, inserted, rfl⟩ := creates.committed hc
    intro p hp
    obtain hp | rfl := (Table.mem_insert inserted).mp hp
    · exact h p hp
    · exact ⟨o, ho, body, owner, opens, rfl, rfl, rfl, rfl, rfl⟩
  | later commits =>
    cases commits with
    | aside touches =>
      intro p hp
      exact h p (Transactions.commit_untouched hc touches ▸ hp)
    | change answer loaded dirty es calls does _ touches known =>
      intro q hq
      obtain ⟨hq, -⟩ | ⟨p, hp, -, now, rfl⟩ := Transactions.mem_committed hc touches hq
      · exact h q hq
      · obtain ⟨_, _, _, _, hsame⟩ : SameRow p (loaded.flush dirty now p) :=
          stable_sameRow.flush ..
        rw [hsame]
        exact h p hp

def Orders : Route → PaymentIntent → Prop
  | .merchant (.createPaymentIntent payload), p => Asked payload p.merchantId p
  | .merchant (.createCheckoutSession payload), p =>
    ∃ body, intentPayload payload = .ok body ∧ Asked body p.merchantId p
  | _, _ => False

theorem orders_of_sanctioned (hs : Sanctioned d site r op) {body : PaymentIntentCreate}
    {owner : Option String} (ho : Opens op body owner) {p : PaymentIntent}
    (hp : Asked body owner p) :
    Orders r.route p ∧ ∃ merchantId, p.merchantId = some merchantId ∧
      Keyholder d.sha256 site r.headers merchantId := by
  cases hs with
  | webhook | page => exact ho.elim
  | @merchant route merchantId op asked key handed =>
    rw [asked]
    cases route with
    | createPaymentIntent payload =>
      cases handed
      obtain ⟨rfl, rfl⟩ := ho
      exact ⟨⟨rfl, hp.2⟩, merchantId, hp.1, key⟩
    | createCheckoutSession payload =>
      cases handed
      obtain ⟨hbody, rfl⟩ := ho
      exact ⟨⟨body, hbody, rfl, hp.2⟩, merchantId, hp.1, key⟩
    | confirmPaymentIntent | cancelPaymentIntent | refundPaymentIntent
    | retrieveCheckoutSession =>
      cases handed
      exact ho.elim
    | retrievePaymentIntent | getBalance | listTransactions | getTransaction => cases handed

/-- In whatever order the steps of HTTP requests are taken from a database without payments, the
books are in order, and each intent is what some request has asked for, which presented a key of
the merchant that owns it. -/
theorem intents_ordered {accounts : Accounts} {rs : List HttpRequest}
    {st : Pool Site StripeCall StripeAnswer SiteStmt Responses.Failure Answer}
    (hb : Backed d ⟨accounts, .empty⟩ [] rs st) :
    Books st.store.db ∧ ∀ p ∈ st.store.db.paymentIntents, ∃ r ∈ rs, Orders r.route p ∧
      ∃ merchantId, p.merchantId = some merchantId ∧
        Keyholder d.sha256 st.store r.headers merchantId := by
  obtain ⟨ops, hops, hsanctioned, ms, u, hu, hstore, -⟩ := hb
  rw [← hstore]
  refine ⟨always_end (P := fun u : Handlers Reply => Books u.store) (books_always _ ms) hu,
    fun p hp => ?_⟩
  have hempty : Opened (ops.map fun o => (o.2, o.1.surroundings.env)) Db.empty :=
    fun p hp => absurd hp Table.not_mem_empty
  have hopened := always_of_writes (I := Opened (ops.map fun o => (o.2, o.1.surroundings.env)))
    (fun o ho _ _ _ => opened_commit ho) hempty [] ms
  obtain ⟨o, ho, body, owner, hopens, hasked⟩ := always_end hopened hu p hp
  obtain ⟨x, hx, rfl⟩ := List.mem_map.mp ho
  exact ⟨x.1, hops.subset (List.mem_map_of_mem hx),
    orders_of_sanctioned (hsanctioned x hx) hopens hasked⟩

def Admin (d : Deployment) (h : Headers) : Prop :=
  h.xAdminKey = some d.adminApiKey ∧ d.adminApiKey ≠ ""

omit [StrLower] in
theorem admin_of_key {h : Headers} (hkey : (truthy h.xAdminKey).any
    (fun key => constantTimeEq key d.adminApiKey) = true) : Admin d h := by
  obtain ⟨key, htruthy, heq⟩ := (Option.any_eq_true _ _).mp hkey
  obtain rfl : key = d.adminApiKey := of_decide_eq_true heq
  have hsome := truthy_some htruthy
  refine ⟨hsome, fun hempty => ?_⟩
  rw [hsome, hempty] at htruthy
  cases htruthy

def Entered (d : Deployment) (r : HttpRequest) : SiteStmt → Prop
  | .insertMerchant row _ => Admin d r.headers ∧ ∃ payload,
    r.route = .admin (.createMerchant payload) ∧
      row = newMerchant payload.name payload.email r.surroundings.merchantUuid
        r.surroundings.env.now
  | .account (.insertKey row) => Admin d r.headers ∧ ∃ payload,
    r.route = .admin (.issueApiKey row.merchantId payload) ∧
      row.keyHash = d.sha256 (generateKey r.surroundings.keyEnv.token)
  | .account (.setActive ..) => False
  | .account (.deactivateKey _) | .account (.touchKey ..) | .payment _ => True

theorem commitsOnly_answered {α : Type} (statusCode : Nat) (content : α → Content)
    (p : Service α) : (answered statusCode content p).CommitsOnly (Entered d r) :=
  (Program.commitsOnly_embed onPayments (fun _ => trivial) p).bind (fun _ => trivial)

theorem commitsOnly_endpoint (m : Merchant) (s : Surroundings) (route : MerchantRoute) :
    (route.endpoint m s).CommitsOnly (Entered d r) := by
  cases route with
  | getBalance => exact fun _ => trivial
  | _ => exact commitsOnly_answered ..

/-- The request in which the admin has entered a merchant. -/
def Enrols (d : Deployment) (r : HttpRequest) (m : Merchant) : Prop :=
  Admin d r.headers ∧ ∃ payload, r.route = .admin (.createMerchant payload) ∧
    m = newMerchant payload.name payload.email r.surroundings.merchantUuid r.surroundings.env.now

/-- The request in which the admin has issued a key, which has the given hash, to a merchant. -/
def IssuesKey (d : Deployment) (r : HttpRequest) (merchantId keyHash : String) : Prop :=
  Admin d r.headers ∧ ∃ payload, r.route = .admin (.issueApiKey merchantId payload) ∧
    keyHash = d.sha256 (generateKey r.surroundings.keyEnv.token)

/-- Every merchant and every key on record is there by the admin. -/
structure Chartered (d : Deployment) (rs : List HttpRequest) (site : Site) : Prop where
  merchants : ∀ m ∈ site.accounts.merchants, ∃ r ∈ rs, Enrols d r m
  keys : ∀ k ∈ site.accounts.apiKeys, ∃ r ∈ rs, IssuesKey d r k.merchantId k.keyHash

theorem chartered_updateKey {rs : List HttpRequest} {id : String} {f : APIKey → APIKey}
    {hf : ∀ k, (f k).id = k.id} (howner : ∀ k, (f k).merchantId = k.merchantId)
    (hhash : ∀ k, (f k).keyHash = k.keyHash) (h : Chartered d rs site) :
    Chartered d rs { site with accounts := site.accounts.updateKey id f hf } where
  merchants := h.merchants
  keys k hk := by
    have hmem : k ∈ (site.accounts.updateKey id f hf).apiKeys := hk
    obtain ⟨l, hl, rfl⟩ := Authentication.mem_updateKey.mp hmem
    split
    · rw [howner, hhash]
      exact h.keys l hl
    · exact h.keys l hl

theorem chartered_apply {rs : List HttpRequest} (hr : r ∈ rs) (h : Chartered d rs a)
    (ht : Entered d r t) (hs : t.apply a = .ok b) : Chartered d rs b := by
  cases t with
  | insertMerchant row refusal =>
    simp only [SiteStmt.apply] at hs
    split at hs
    · next u hu =>
      cases hs
      refine ⟨fun m hm => ?_, h.keys⟩
      obtain hm | rfl := (Table.mem_insert hu).mp hm
      · exact h.merchants m hm
      · exact ⟨r, hr, ht⟩
    · cases hs
  | payment t =>
    simp only [SiteStmt.apply] at hs
    split at hs
    · cases hs
      exact ⟨h.merchants, h.keys⟩
    · cases hs
  | account s =>
    simp only [SiteStmt.apply] at hs
    split at hs
    · next accounts happly =>
      cases hs
      cases s with
      | insertKey row =>
        simp only [AccountStmt.apply] at happly
        split at happly
        · next u _ hu =>
          cases happly
          refine ⟨h.merchants, fun k hk => ?_⟩
          obtain hk | rfl := (Table.mem_insert hu).mp hk
          · exact h.keys k hk
          · exact ⟨r, hr, ht⟩
        · cases happly
      | deactivateKey id =>
        cases happly
        exact chartered_updateKey (fun _ => rfl) (fun _ => rfl) h
      | touchKey id now =>
        cases happly
        exact chartered_updateKey (fun _ => rfl) (fun _ => rfl) h
      | setActive => exact ht.elim
    · cases hs

section growth

variable {a b c : Db} {t : List Stmt}

/-- How the payments may have gone on: rows and entries stay, and so do the books if they are in
order. -/
structure Grown (a b : Db) : Prop where
  rows : KeepsBy SameRow a b
  ledger : a.ledgerEntries <+: b.ledgerEntries
  books : Books a → Books b

structure SiteGrown (a b : Site) : Prop where
  accounts : Persists a b
  payments : Grown a.db b.db

theorem Grown.refl (a : Db) : Grown a a := ⟨KeepsBy.refl stable_sameRow a, List.prefix_rfl, id⟩

theorem Grown.trans (h : Grown a b) (h' : Grown b c) : Grown a c where
  rows := KeepsBy.trans stable_sameRow a b c h.rows h'.rows
  ledger := h.ledger.trans h'.ledger
  books hb := h'.books (h.books hb)

theorem SiteGrown.refl (a : Site) : SiteGrown a a := ⟨.refl a, .refl a.db⟩

theorem SiteGrown.trans {a b c : Site} (h : SiteGrown a b) (h' : SiteGrown b c) : SiteGrown a c :=
  ⟨h.accounts.trans h'.accounts, h.payments.trans h'.payments⟩

def Writing (db : Db) (t : List Stmt) : Prop := ∃ op env, Writes op env db t

theorem Writing.grown (h : Writing a t) (hc : commit t a = .ok b) : Grown a b := by
  obtain ⟨op, env, h⟩ := h
  refine ⟨h.keeps hc, ?_, fun hb => books_commit hb h hc⟩
  rw [commit_ledger hc]
  exact List.prefix_append ..

abbrev SiteWriting : Site → SiteStmt → Prop := Lifted onPayments SiteStmt.apply Writing

theorem siteGrown_apply {t : SiteStmt} {a b : Site} (h : SiteWriting a t)
    (hs : t.apply a = .ok b) : SiteGrown a b := by
  refine ⟨persists_apply hs, ?_⟩
  obtain hsilent | ⟨t', rfl, ht⟩ := h
  · have hsame : b.db = a.db := hsilent a b hs
    rw [hsame]
    exact .refl a.db
  · exact ht.grown (onPayments_faithful.part_ok hs)

abbrev Assured {α : Type} (p : Service α) (db : Db) : Prop :=
  p.Assured commit Grown Writing (fun _ _ => True) db

abbrev SiteAssured {α : Type} (p : SiteService α) (site : Site) : Prop :=
  p.Assured SiteStmt.apply SiteGrown SiteWriting (fun _ _ => True) site

theorem op_assured (op : Op) (env : Env) (db : Db) : Assured (op.program env) db :=
  Program.Assured.shrink (fun _ _ h => h.rows)
    ((op_safe op env db).weaken (fun _ _ h => ⟨op, env, h⟩))

abbrev AllGrowing (st : Pool Site StripeCall StripeAnswer SiteStmt Responses.Failure Answer) : Prop :=
  st.AllSafe SiteStmt.apply SiteGrown (fun _ _ => True) (fun _ _ _ => True) (fun _ => SiteWriting)
    (fun _ _ => True)

theorem growing_run {u v : Pool Site StripeCall StripeAnswer SiteStmt Responses.Failure Answer}
    {ls : List Label} (h : AllGrowing u) (hr : run (Pool.step SiteStmt.apply) u ls = some v) :
    AllGrowing v ∧ SiteGrown u.store v.store :=
  Pool.grown_run SiteGrown.refl (fun _ _ _ => SiteGrown.trans)
    (fun _ _ _ _ ht _ hok => siteGrown_apply ht hok) h
    (along_of_forall (Pool.meets_of_forall (fun _ _ _ => trivial) (fun _ _ => trivial)) _ ls) hr

end growth

variable [StrRepr]

theorem prepares_requireApiKey (h : Headers) (env : KeyEnv) (site : Site) :
    (requireApiKey sha256 h.authorization env).Prepares onPayments SiteStmt.apply Persists
      (fun m w => Keyholder sha256 w h m.id) site := by
  cases hauth : h.authorization with
  | none => trivial
  | some c =>
    simp only [requireApiKey]
    split
    · trivial
    · next hscheme =>
      refine prepares_verifyApiKey ?_ env site
      simp only [presented, hauth, Option.bind_some]
      exact if_pos (not_not.mp hscheme)

theorem awaits_endpoint_admin (route : AdminRoute) (s : Surroundings) (site : Site) :
    SiteAwaits d r (route.endpoint d.sha256 s) site := by
  cases route with
  | createMerchant payload =>
    have h : Prepared (MerchantService.createMerchant payload.name payload.email s.merchantUuid
        s.env.now) site := ⟨silent_insertMerchant _ _, fun _ _ _ _ _ _ => trivial⟩
    exact h.bind (fun _ _ _ => trivial)
  | issueApiKey merchantId payload =>
    refine (prepared_getMerchant merchantId site).bind (fun _ w _ => ?_)
    refine (prepared_createApiKey merchantId payload.name s.keyEnv w).bind (fun _ _ _ => trivial)
  | listApiKeys merchantId =>
    refine (prepared_getMerchant merchantId site).bind (fun _ w _ => ?_)
    exact .inr fun _ _ => trivial
  | revokeApiKey merchantId keyId =>
    have h : Prepared ((ApiKeyService.revokeApiKey keyId merchantId).embed onAccounts) site :=
      fun w _ => prepared_revokeLooked keyId _ w
    exact h.bind (fun _ _ _ => trivial)

theorem commitsOnly_requireApiKey (env : KeyEnv) :
    (requireApiKey d.sha256 r.headers.authorization env).CommitsOnly (Entered d r) := by
  cases r.headers.authorization with
  | none => trivial
  | some c =>
    simp only [requireApiKey]
    have howner : ∀ k owner,
        ((verifyOwner env k owner).embed onAccounts).CommitsOnly (Entered d r) := by
      rintro k (_ | m)
      · trivial
      · simp only [verifyOwner]
        split
        · exact ⟨trivial, trivial⟩
        · trivial
    have hmatched : ∀ found,
        ((verifyMatched env found).embed onAccounts).CommitsOnly (Entered d r) := by
      rintro (_ | k)
      · trivial
      · simp only [verifyMatched]
        split
        · exact fun _ => howner k _
        · trivial
    split
    · trivial
    · simp only [verifyApiKey]
      split
      · trivial
      · split
        · trivial
        · exact fun _ => hmatched _

theorem commitsOnly_endpoint_admin {route : AdminRoute} (asked : r.route = .admin route)
    (admin : Admin d r.headers) :
    (route.endpoint d.sha256 r.surroundings).CommitsOnly (Entered d r) := by
  have hmerchant : ∀ merchantId, (getMerchant merchantId).CommitsOnly (Entered d r) := by
    have h : ∀ merchantId found, (merchantLooked merchantId found).CommitsOnly (Entered d r) := by
      rintro merchantId (_ | m) <;> trivial
    exact fun merchantId _ => h merchantId _
  cases route with
  | createMerchant payload => exact ⟨⟨admin, payload, asked, rfl⟩, fun _ => trivial⟩
  | issueApiKey merchantId payload =>
    refine (hmerchant merchantId).bind (fun _ => ?_)
    have h : ((createApiKey d.sha256 merchantId payload.name r.surroundings.keyEnv).embed
        onAccounts).CommitsOnly (Entered d r) := by
      simp only [createApiKey]
      split
      · trivial
      · exact ⟨⟨admin, payload, asked, rfl⟩, fun _ => trivial⟩
    exact h.bind (fun _ => trivial)
  | listApiKeys merchantId => exact (hmerchant merchantId).bind (fun _ _ => trivial)
  | revokeApiKey merchantId keyId =>
    have h : ∀ found, ((revokeLooked keyId found).embed onAccounts).CommitsOnly (Entered d r) := by
      rintro (_ | k)
      · trivial
      · exact ⟨trivial, fun _ => trivial⟩
    have hrevoke : ((ApiKeyService.revokeApiKey keyId merchantId).embed onAccounts).CommitsOnly
        (Entered d r) := fun _ => h _
    exact hrevoke.bind (fun _ => trivial)

variable [Rendering.StrUpper]

omit [StrRepr] in
theorem awaits_hostedCheckoutPage {sessionId : String}
    (asked : r.route = .hostedCheckoutPage sessionId) (site : Site) :
    SiteAwaits d r (Server.hostedCheckoutPage d sessionId r.surroundings.env) site := by
  have hhanded : Handed d r site ((Op.getOpenSession sessionId).program r.surroundings.env) :=
    ⟨_, .page asked, rfl⟩
  refine Program.Follows.awaits ?_ hhanded
  rw [Server.hostedCheckoutPage, HostedPage.hostedCheckoutPage, Program.embed_bind,
    Program.bind_assoc]
  refine Program.follows_embed plain_onPayments _ (fun cs => Program.Reads.follows ?_ (fun page => ?_))
  · simp only [HostedPage.sessionPage]
    split
    · trivial
    · trivial
    · split
      · trivial
      · exact fun _ => trivial
  · simp only [servePage]
    split <;> trivial

/-- A request leaves the payments and Stripe alone until it hands on what it may. -/
theorem request_awaits (r : HttpRequest) (site : Site) : SiteAwaits d r (r.program d) site := by
  rw [HttpRequest.program]
  cases asked : r.route with
  | merchant route =>
    exact (prepares_requireApiKey r.headers r.surroundings.keyEnv site).bind
      (fun m w key => awaits_endpoint asked m w key)
  | admin route =>
    simp only [Route.program, requireAdminApiKey]
    split
    · exact awaits_endpoint_admin route r.surroundings site
    · trivial
  | stripeWebhook payload => exact awaits_stripeWebhook asked site
  | hostedCheckoutPage sessionId => exact awaits_hostedCheckoutPage asked site

theorem backed_run {site : Site} {calls : List (StripeCall × StripeAnswer)}
    {rs : List HttpRequest} {ls : List Label}
    {st : Pool Site StripeCall StripeAnswer SiteStmt Responses.Failure Answer}
    (hrun : run (Pool.step SiteStmt.apply) (Server.serving d site calls rs) ls = some st) :
    Backed d site calls rs st := by
  have hawaits : ∀ (i : Nat) (p : SiteService Answer),
      (Server.serving d site calls rs).threads[i]? = some p →
      p.Awaits onPayments SiteStmt.apply Persists
        (fun w q => ∃ r, rs[i]? = some r ∧ Handed d r w q) site := by
    intro i p hp
    obtain ⟨r, hr, rfl⟩ : ∃ r, rs[i]? = some r ∧ r.program d = p := by
      simpa [Server.serving, List.getElem?_map] using hp
    exact (request_awaits r site).weaken (fun w q hq => ⟨r, hr, hq⟩)
  have hlater : ∀ (i : Nat) a b q, Persists a b → (∃ r, rs[i]? = some r ∧ Handed d r a q) →
      ∃ r, rs[i]? = some r ∧ Handed d r b q := by
    rintro i a b q hp ⟨r, hr, op, hop, hq⟩
    exact ⟨r, hr, op, hop.later hp, hq⟩
  obtain ⟨js, qs, ms, u, hjs, hqs, hu, hstore, hcalls⟩ :=
    Pool.delegated_run (G := Persists) onPayments_faithful (fun _ _ _ => Persists.trans)
      Persists.refl (fun _ _ _ => persists_apply) hlater hawaits hrun
  obtain ⟨ops, hops, hsanctioned, rfl⟩ := handed_owned hqs
  refine ⟨ops, subperm_of_places hjs hops, hsanctioned, ms, u, ?_, hstore, hcalls⟩
  rw [Transactions.serving, List.map_map]
  exact hu

/-- However the steps of HTTP requests are interleaved, the server refines the gateway. -/
theorem server_backed (d : Deployment) (site : Site) (calls : List (StripeCall × StripeAnswer))
    (rs : List HttpRequest) (ls : List Label)
    {st : Pool Site StripeCall StripeAnswer SiteStmt Responses.Failure Answer}
    (hrun : run (Pool.step SiteStmt.apply) (Server.serving d site calls rs) ls = some st) :
    Backed d site calls rs st := backed_run hrun

theorem request_commitsOnly (d : Deployment) (r : HttpRequest) :
    (r.program d).CommitsOnly (Entered d r) := by
  rw [HttpRequest.program]
  cases asked : r.route with
  | merchant route =>
    exact (commitsOnly_requireApiKey _).bind (fun m => commitsOnly_endpoint m _ route)
  | admin route =>
    simp only [Route.program, requireAdminApiKey]
    split
    · next hkey => exact commitsOnly_endpoint_admin asked (admin_of_key hkey)
    · trivial
  | stripeWebhook payload =>
    simp only [Route.program, Server.stripeWebhook]
    split
    · trivial
    · split
      · trivial
      · trivial
      · exact commitsOnly_answered ..
  | hostedCheckoutPage sessionId =>
    refine (Program.commitsOnly_embed onPayments (fun _ => trivial) _).bind (fun page => ?_)
    simp only [servePage]
    split <;> trivial

theorem serving_only (d : Deployment) (site : Site) (calls : List (StripeCall × StripeAnswer))
    (rs : List HttpRequest) :
    Pool.AllOnly (fun i t => ∃ r, rs[i]? = some r ∧ Entered d r t)
      (Server.serving d site calls rs) := by
  intro i p hp
  obtain ⟨r, hr, rfl⟩ : ∃ r, rs[i]? = some r ∧ r.program d = p := by
    simpa [Server.serving, List.getElem?_map] using hp
  exact (request_commitsOnly d r).weaken (fun t ht => ⟨r, hr, ht⟩)

theorem server_chartered {rs : List HttpRequest} {site : Site}
    {calls : List (StripeCall × StripeAnswer)} {ls : List Label}
    {st : Pool Site StripeCall StripeAnswer SiteStmt Responses.Failure Answer}
    (h : Chartered d rs site)
    (hrun : run (Pool.step SiteStmt.apply) (Server.serving d site calls rs) ls = some st) :
    Chartered d rs st.store := by
  have hJ : ∀ (i : Nat) t a b, Chartered d rs a → (∃ r, rs[i]? = some r ∧ Entered d r t) →
      t.apply a = .ok b → Chartered d rs b := by
    rintro i t a b ha ⟨r, hr, ht⟩ hs
    exact chartered_apply (List.mem_of_getElem? hr) ha ht hs
  exact always_end (P := fun u : Pool Site StripeCall StripeAnswer SiteStmt Responses.Failure Answer =>
    Chartered d rs u.store) ((serving_only d site calls rs).always hJ h) hrun

theorem assured_request (r : HttpRequest) (site : Site) : SiteAssured (r.program d) site := by
  have hops : ∀ w q, Handed d r w q → Assured q w.db := by
    rintro w q ⟨op, -, rfl⟩
    exact op_assured op _ w.db
  exact (request_awaits r site).assured (G := Grown) onPayments_faithful
    (fun _ _ _ => Grown.trans) (fun _ _ hg => hg.payments) (fun _ _ hg => hg.accounts) hops

theorem growing_serving (d : Deployment) (start : Site) (calls : List (StripeCall × StripeAnswer))
    (rs : List HttpRequest) : AllGrowing (Server.serving d start calls rs) := by
  intro j p hp
  obtain ⟨q, -, rfl⟩ : ∃ q, rs[j]? = some q ∧ q.program d = p := by
    simpa [Server.serving, List.getElem?_map] using hp
  exact assured_request q start

omit [StrLower] [StrRepr] [Rendering.StrUpper] in
/-- A move that changes the payments leaves the accounts alone. -/
theorem accounts_step {u v : Pool Site StripeCall StripeAnswer SiteStmt Responses.Failure Answer}
    {l : Label} (hst : Pool.step SiteStmt.apply u l = some v) (h : v.store.db ≠ u.store.db) :
    v.store.accounts = u.store.accounts := by
  cases Pool.step_moves hst with
  | read | refused | answered => exact absurd rfl h
  | committed i t k hi s hs =>
    cases t with
    | payment t =>
      simp only [SiteStmt.apply] at hs
      split at hs <;> cases hs
      rfl
    | account | insertMerchant =>
      simp only [SiteStmt.apply] at hs
      split at hs <;> cases hs
      exact absurd rfl h

omit [StrRepr] [Rendering.StrUpper] in
theorem Orders.later {route : Route} {p q : PaymentIntent} (h : Orders route p)
    (hpq : SameRow p q) : Orders route q := by
  obtain ⟨_, _, _, _, rfl⟩ := hpq
  cases route with
  | merchant route => cases route <;> exact h
  | admin | stripeWebhook | hostedCheckoutPage => exact h

/-- Nothing comes of nothing: in whatever order the steps of HTTP requests are taken from an empty
database, the books are in order, and each intent is what a request has asked for that presented
a key with the hash of one which the admin had issued to the intent's owner, a merchant that the
admin had enrolled. The merchant and the key were on record when the intent was not yet. -/
theorem intents_owned (d : Deployment) (rs : List HttpRequest) (ls : List Label)
    {st : Pool Site StripeCall StripeAnswer SiteStmt Responses.Failure Answer}
    (hrun : run (Pool.step SiteStmt.apply) (Server.serving d Site.empty [] rs) ls = some st) :
    Books st.store.db ∧ ∀ p ∈ st.store.db.paymentIntents, ∃ r ∈ rs, Orders r.route p ∧
      ∃ rawKey, presented r.headers = some rawKey ∧
        ∃ m, p.merchantId = some m.id ∧ (∃ i ∈ rs, IssuesKey d i m.id (d.sha256 rawKey)) ∧
          (∃ e ∈ rs, Enrols d e m) ∧
          ∃ n before, SiteAt d .empty [] rs ls n before ∧
            (∀ q ∈ before.db.paymentIntents, q.id ≠ p.id) ∧ m ∈ before.accounts.merchants ∧
            ∃ k ∈ before.accounts.apiKeys, k.merchantId = m.id ∧ k.keyHash = d.sha256 rawKey := by
  have hempty : Chartered d rs Site.empty :=
    ⟨fun m hm => absurd hm Table.not_mem_empty, fun k hk => absurd hk Table.not_mem_empty⟩
  refine ⟨(intents_ordered (backed_run hrun)).1, fun p hp => ?_⟩
  -- the move with which an intent of this id has come onto the record
  obtain ⟨n, u, l, v, hu, hstep, hv, hnew, q, hq, hqp⟩ := After.crossing
    (P := fun w : Pool Site StripeCall StripeAnswer SiteStmt Responses.Failure Answer =>
      ∃ q ∈ w.store.db.paymentIntents, q.id = p.id)
    (fun hnone => absurd hnone.choose_spec.1 Table.not_mem_empty) hrun ⟨p, hp, rfl⟩
  have haccounts : v.store.accounts = u.store.accounts :=
    accounts_step hstep (fun hsame => hnew ⟨q, hsame ▸ hq, hqp⟩)
  have hchartered := server_chartered hempty hv.2
  obtain ⟨r, hr, horders, merchantId, howner, ⟨m, hm, rfl⟩, rawKey, hpresented, k, hk, hkm, hkh⟩ :=
    (intents_ordered (backed_run hv.2)).2 q hq
  -- it is this intent, as it was then
  have hsame : SameRow q p := by
    obtain ⟨ms, hms⟩ := hv.between (After.whole hrun) hv.1
    have hgrown := (growing_run (growing_run (growing_serving d _ _ rs) hv.2).1 hms).2
    obtain ⟨p', hp', hqp'⟩ := hgrown.payments.rows q hq
    rwa [Queries.eq_of_id hp' hp (hqp'.id_eq.trans hqp)] at hqp'
  have howner' : p.merchantId = some m.id := by
    obtain ⟨_, _, _, _, rfl⟩ := hsame
    exact howner
  obtain ⟨i, hi, hissues⟩ := hchartered.keys k hk
  rw [hkm, hkh] at hissues
  rw [haccounts] at hm hk
  exact ⟨r, hr, horders.later hsame, rawKey, hpresented, m, howner', ⟨i, hi, hissues⟩,
    hchartered.merchants m (haccounts ▸ hm), n, u.store, ⟨u, hu, rfl⟩,
    fun q hq heq => hnew ⟨q, hq, heq⟩, hm, k, hk, hkm, hkh⟩

end

def adminHeaders : Headers := ⟨none, some "admin", none⟩

/-- Alice is enrolled and gets a key, with which an intent is created. -/
def openingDay : List HttpRequest := [
  ⟨.admin (.createMerchant ⟨"Alice", "alice@shop.test", by decide, by decide⟩), adminHeaders,
    ⟨clock 0, ⟨0, "", Authentication.spareToken, .stored⟩, "alice", .stored⟩⟩,
  ⟨.admin (.issueApiKey "mer_alice" ⟨"a", by decide⟩), adminHeaders,
    ⟨clock 1, ⟨1, "k1", Authentication.aliceToken, .stored⟩, "", .stored⟩⟩,
  ⟨.merchant (.createPaymentIntent order), Contract.bearer Authentication.aliceToken,
    Contract.moment 2⟩]

/-- The first two requests overlap, and the last one begins before the second has ended. -/
def openingMoves : List Label :=
  [(0, .run), (1, .run), (1, .run), (2, .run), (0, .run), (2, .run), (2, .run), (1, .run),
    (2, .run), (2, .answer (.ok ⟨"pi_1", "processing", none⟩)), (2, .run), (2, .run)]

theorem server_backed_opening :
    ∃ st, run (Pool.step SiteStmt.apply) (Server.serving Contract.deployment .empty [] openingDay)
        openingMoves = some st ∧
      st.store.db.paymentIntents.rows.length = 1 ∧
      Backed Contract.deployment .empty [] openingDay st := by
  have hrun : (run (Pool.step SiteStmt.apply) (Server.serving Contract.deployment .empty []
      openingDay) openingMoves).map (fun st => st.store.db.paymentIntents.rows.length) = some 1 := by
    decide +kernel
  obtain ⟨st, hst, hlen⟩ := Option.map_eq_some_iff.mp hrun
  exact ⟨st, hst, hlen, server_backed Contract.deployment .empty [] openingDay openingMoves hst⟩

theorem intents_owned_opening :
    ∃ st, run (Pool.step SiteStmt.apply) (Server.serving Contract.deployment .empty [] openingDay)
        openingMoves = some st ∧
      Books st.store.db ∧ ∀ p ∈ st.store.db.paymentIntents, ∃ r ∈ openingDay, Orders r.route p ∧
        ∃ rawKey, presented r.headers = some rawKey ∧
          ∃ m, p.merchantId = some m.id ∧
            (∃ i ∈ openingDay, IssuesKey Contract.deployment i m.id
              (Contract.deployment.sha256 rawKey)) ∧
            (∃ e ∈ openingDay, Enrols Contract.deployment e m) ∧
            ∃ n before, SiteAt Contract.deployment .empty [] openingDay openingMoves n before ∧
              (∀ q ∈ before.db.paymentIntents, q.id ≠ p.id) ∧ m ∈ before.accounts.merchants ∧
              ∃ k ∈ before.accounts.apiKeys, k.merchantId = m.id ∧
                k.keyHash = Contract.deployment.sha256 rawKey := by
  have hrun : (run (Pool.step SiteStmt.apply) (Server.serving Contract.deployment .empty []
      openingDay) openingMoves).isSome = true := by
    decide +kernel
  obtain ⟨st, hst⟩ := Option.isSome_iff_exists.mp hrun
  exact ⟨st, hst, intents_owned Contract.deployment openingDay openingMoves hst⟩

end SixGateway.Provenance
