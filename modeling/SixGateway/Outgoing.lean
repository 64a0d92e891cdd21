import SixGateway.Provenance
import SixGateway.Library.Calls

namespace SixGateway.Outgoing

open Library Library.Run Models Errors Database Schemas StripeClient PaymentService CheckoutService
open Webhook Queries Outcomes Gateway Concurrency Transactions Interleavings MerchantService Server
open Effects Provenance

section

variable [StrLower]

/-- The call that a request may make, where `db` holds the row that it names. -/
def Makes (db : Db) : Op → StripeCall → Prop
  | .createIntent payload _, q => q = createCall payload
  | .createSession _ payload, q => ∃ body, intentPayload payload = .ok body ∧ q = createCall body
  | .confirmIntent id payload, q => ∃ p ∈ db.paymentIntents, p.id = id ∧ ∃ stripeId,
    truthy p.stripePaymentIntentId = some stripeId ∧
      q = .confirmPaymentIntent stripeId payload.paymentMethodId payload.idempotencyKey
  | .cancelIntent id payload, q => ∃ p ∈ db.paymentIntents, p.id = id ∧ ∃ stripeId,
    truthy p.stripePaymentIntentId = some stripeId ∧
      q = cancelPaymentIntent stripeId payload.idempotencyKey payload.reason
  | .refundIntent id key amount reason, q => ∃ p ∈ db.paymentIntents, p.id = id ∧ ∃ stripeId n,
    truthy p.stripePaymentIntentId = some stripeId ∧ 0 < n ∧ (∀ a, amount = some a → n = a) ∧
      q = createRefund stripeId n key reason
  | .getOpenSession _, _ | .deliver _, _ => False

variable {db db' : Db} {op : Op} {env : Env} {q : StripeCall}

theorem Makes.later (h : Makes db op q) (hk : KeepsBy SameRow db db') : Makes db' op q := by
  have hrow : ∀ p ∈ db.paymentIntents, ∃ p' ∈ db'.paymentIntents, p'.id = p.id ∧
      p'.stripePaymentIntentId = p.stripePaymentIntentId := by
    intro p hp
    obtain ⟨p', hp', _, _, _, _, rfl⟩ := hk p hp
    exact ⟨_, hp', rfl, rfl⟩
  cases op with
  | createIntent | createSession => exact h
  | getOpenSession | deliver => exact h.elim
  | confirmIntent | cancelIntent =>
    obtain ⟨p, hp, hid, stripeId, hstripe, hq⟩ := h
    obtain ⟨p', hp', hid', hstripe'⟩ := hrow p hp
    exact ⟨p', hp', hid'.trans hid, stripeId, hstripe' ▸ hstripe, hq⟩
  | refundIntent =>
    obtain ⟨p, hp, hid, stripeId, n, hstripe, hq⟩ := h
    obtain ⟨p', hp', hid', hstripe'⟩ := hrow p hp
    exact ⟨p', hp', hid'.trans hid, stripeId, n, hstripe' ▸ hstripe, hq⟩

abbrev OneCall {α : Type} (op : Op) (p : Service α) (db : Db) : Prop :=
  p.CallsOnce commit (KeepsBy SameRow) (fun db q => Makes db op q) db

omit [StrLower] in
theorem mute_refresh (p : PaymentIntent) : (refresh p).Mute := fun _ => trivial

theorem oneCall_create {payload : PaymentIntentCreate} (h : ∀ db, Makes db op (createCall payload))
    (merchant : Option String) (db : Db) : OneCall op (createIntent payload merchant env) db := by
  intro db₁ _
  change OneCall op (createLooked payload merchant env (db₁.intentByKey payload.idempotencyKey)) db₁
  cases db₁.intentByKey payload.idempotencyKey with
  | some existing =>
    simp only [createLooked]
    split <;> trivial
  | none =>
    refine ⟨h db₁, fun r => ?_⟩
    cases r with
    | error message => trivial
    | ok o =>
      simp only [createAnswered]
      split
      · trivial
      · split
        · trivial
        · exact mute_refresh _

theorem mute_linkSession (merchant : String) (payload : CheckoutSessionCreate) (env : Env)
    (intent : PaymentIntent) : (linkSession merchant payload env intent).Mute := by
  intro db
  change (sessionLooked merchant payload intent env (findByPaymentIntent db intent.id)).Mute
  cases findByPaymentIntent db intent.id with
  | error e => trivial
  | ok found =>
    cases found with
    | some existing => trivial
    | none => exact fun _ => trivial

theorem oneCall_confirm (id : String) (payload : PaymentIntentConfirm) (db : Db) :
    OneCall (.confirmIntent id payload) (confirmIntent id payload env) db := by
  intro db₁ _
  change OneCall _ (confirmLoaded id payload env (db₁.intentById id)) db₁
  cases hl : db₁.intentById id with
  | none => trivial
  | some p =>
    obtain ⟨hp, hid⟩ := intentById_some hl
    simp only [confirmLoaded]
    split
    · trivial
    · split
      · trivial
      · next stripeId stripe =>
        refine ⟨⟨p, hp, hid, stripeId, stripe, rfl⟩, fun r => ?_⟩
        cases r with
        | error message => trivial
        | ok o =>
          simp only [confirmAnswered]
          split
          · trivial
          · exact mute_refresh _

theorem oneCall_cancel (id : String) (payload : PaymentIntentCancel) (db : Db) :
    OneCall (.cancelIntent id payload) (cancelIntent id payload env) db := by
  intro db₁ _
  change OneCall _ (cancelLoaded id payload env (db₁.intentById id)) db₁
  cases hl : db₁.intentById id with
  | none => trivial
  | some p =>
    obtain ⟨hp, hid⟩ := intentById_some hl
    simp only [cancelLoaded]
    split
    · trivial
    · split
      · trivial
      · split
        · trivial
        · next stripeId stripe =>
          refine ⟨⟨p, hp, hid, stripeId, stripe, rfl⟩, fun r => ?_⟩
          cases r with
          | error message => trivial
          | ok o =>
            simp only [cancelAnswered]
            split
            · trivial
            · split
              · trivial
              · exact mute_refresh _

theorem oneCall_refund (id key : String) (amount : Option Int) (reason : Option String) (db : Db) :
    OneCall (.refundIntent id key amount reason) (refundIntent id key amount reason env) db := by
  intro db₁ _
  change OneCall _ (refundLoaded id key amount reason env (db₁.intentById id)) db₁
  cases hl : db₁.intentById id with
  | none => trivial
  | some p =>
    obtain ⟨hp, hid⟩ := intentById_some hl
    simp only [refundLoaded]
    split
    · trivial
    · split
      · trivial
      · next stripeId stripe =>
        split
        · trivial
        · split
          · trivial
          · next hn =>
            obtain ⟨positive, -⟩ := not_or.mp hn
            refine ⟨⟨p, hp, hid, stripeId, _, stripe, Int.not_le.mp positive, ?_, rfl⟩, fun r => ?_⟩
            · rintro a rfl
              rfl
            · cases r with
              | error message => trivial
              | ok o =>
                simp only [refundAnswered]
                split
                · trivial
                · exact mute_refresh _

theorem oneCall_session (merchant : String) (payload : CheckoutSessionCreate) (db : Db) :
    OneCall (.createSession merchant payload) (createSession merchant payload env) db := by
  rw [createSession]
  cases hb : intentPayload payload with
  | error e => trivial
  | ok body =>
    have hmakes : ∀ db, Makes db (.createSession merchant payload) (createCall body) :=
      fun _ => ⟨body, hb, rfl⟩
    exact (oneCall_create hmakes (some merchant) db).bind (mute_linkSession merchant payload env)

omit [StrLower] in
theorem mute_getOpenSession (id : String) (env : Env) : (getOpenSession id env).Mute := by
  intro db
  change (openLoaded id env (db.sessionById id)).Mute
  cases db.sessionById id with
  | none => trivial
  | some cs =>
    simp only [openLoaded]
    split
    · exact fun _ => trivial
    · trivial

omit [StrLower] in
theorem mute_failed {α : Type} (event : StripeEvent) (exn : Exn) :
    (failed event exn : Service α).Mute := by
  intro db
  change (failedLooked event exn (db.eventById event.id) : Service α).Mute
  cases db.eventById event.id <;> trivial

omit [StrLower] in
theorem mute_dispatchSession (event : StripeEvent) (env : Env) (work : List Stmt)
    (found : Except Exn (Option CheckoutSession)) : (dispatchSession event env work found).Mute := by
  cases found with
  | error e => exact mute_failed event e
  | ok found =>
    cases found with
    | none => trivial
    | some cs =>
      simp only [dispatchSession, completeLoaded]
      split <;> trivial

theorem mute_dispatch (event : StripeEvent) (env : Env) (work : List Stmt) :
    (dispatch event env work).Mute := by
  have hloaded : ∀ n found, (dispatchLoaded event env work n found).Mute := by
    rintro n (_ | p)
    · trivial
    · simp only [dispatchLoaded]
      split
      · exact mute_failed event _
      · exact fun _ => mute_dispatchSession ..
  simp only [dispatch]
  split
  · split
    · exact mute_failed event _
    · split
      · exact mute_failed event _
      · exact fun _ => hloaded _ _
  · trivial

theorem mute_stripeWebhook (event : StripeEvent) (env : Env) : (stripeWebhook event env).Mute := by
  intro db
  change (webhookLooked event env (db.eventById event.id)).Mute
  cases db.eventById event.id with
  | none => exact mute_dispatch event env _
  | some existing =>
    simp only [webhookLooked]
    split
    · trivial
    · exact mute_dispatch event env _

theorem op_oneCall (op : Op) (env : Env) (db : Db) : OneCall op (op.program env) db := by
  cases op with
  | createIntent payload merchant =>
    have hmakes : ∀ db, Makes db (.createIntent payload merchant) (createCall payload) :=
      fun _ => rfl
    exact (oneCall_create hmakes merchant db).bind (fun _ => trivial)
  | createSession merchant payload =>
    exact (oneCall_session merchant payload db).bind (fun _ => trivial)
  | confirmIntent id payload => exact (oneCall_confirm id payload db).bind (fun _ => trivial)
  | cancelIntent id payload => exact (oneCall_cancel id payload db).bind (fun _ => trivial)
  | refundIntent id key amount reason =>
    exact (oneCall_refund id key amount reason db).bind (fun _ => trivial)
  | getOpenSession id =>
    have h : ((Op.getOpenSession id).program env).Mute :=
      (mute_getOpenSession id env).bind (fun _ => trivial)
    exact h.callsOnce db
  | deliver event =>
    have h : ((Op.deliver event).program env).Mute :=
      (mute_stripeWebhook event env).bind (fun _ => trivial)
    exact h.callsOnce db

theorem along_keeps (rs : List (Op × Env)) (db : Db) (calls : Calls) (ls : List Label) :
    Run.Along (Pool.step commit)
      (fun u l => ∀ v, Pool.step commit u l = some v → KeepsBy SameRow u.store v.store)
      (Transactions.serving db calls rs) ls := by
  have hstep : ∀ u l v, Safely rs u → Pool.step commit u l = some v →
      Safely rs v ∧ KeepsBy SameRow u.store v.store :=
    fun u l v hu hv => Pool.step_safe (KeepsBy.refl stable_sameRow) (KeepsBy.trans stable_sameRow)
      writesOf_keeps hu (meets_any u l) hv
  exact along_of_invariant (fun u l v hu _ hv => (hstep u l v hu hv).1)
    (fun u l hu _ v hv => (hstep u l v hu hv).2) (serving_safely rs db calls)
    (along_of_forall meets_any _ ls)

/-- What an HTTP request may ask of Stripe: the call of an operation that it is entitled to. -/
def MadeFor (d : Deployment) (site : Site) (r : HttpRequest) (q : StripeCall) : Prop :=
  ∃ op, Sanctioned d site r op ∧ Makes site.db op q

variable [StrRepr] [Rendering.StrUpper]

/-- However the steps of HTTP requests are interleaved, every call to Stripe is made for an HTTP
request of its own, which was entitled to it, under the idempotency key of that request. -/
theorem calls_owned (d : Deployment) (site : Site) (calls : Calls) (rs : List HttpRequest)
    (ls : List Label)
    {st : Pool Site StripeCall StripeAnswer SiteStmt Responses.Failure Answer}
    (hrun : run (Pool.step SiteStmt.apply) (Server.serving d site calls rs) ls = some st) :
    ∃ os new, os.Subperm rs ∧ st.calls = calls ++ new ∧
      List.Forall₂ (fun r c => MadeFor d st.store r c.1) os new := by
  obtain ⟨ops, hops, hsanctioned, ms, u, hu, hstore, hcalls⟩ := backed_run hrun
  have honce : ∀ (i : Nat) (p : Service Reply), (Transactions.serving site.db calls
      (ops.map fun o => (o.2, o.1.surroundings.env))).threads[i]? = some p →
      p.CallsOnce commit (KeepsBy SameRow)
        (fun db q => ∃ o, ops[i]? = some o ∧ Makes db o.2 q) site.db := by
    intro i p hp
    obtain ⟨o, ho, rfl⟩ : ∃ o, ops[i]? = some o ∧ o.2.program o.1.surroundings.env = p := by
      simpa [Transactions.serving, List.getElem?_map] using hp
    exact (op_oneCall o.2 _ site.db).weaken (fun db q hq => ⟨o, ho, hq⟩)
  obtain ⟨js, new, hjs, hnew, hmade⟩ := Pool.calls_run (KeepsBy.refl stable_sameRow)
    (KeepsBy.trans stable_sameRow) (fun i a b q hk hq => hq.imp fun o h => ⟨h.1, h.2.later hk⟩)
    honce (along_keeps _ _ _ ms) hu
  obtain ⟨xs, hxs, hforall⟩ : ∃ xs, js.map (ops[·]?) = xs.map some ∧
      List.Forall₂ (fun o c => Makes u.store o.2 c.1) xs new := by
    clear hnew
    induction hmade with
    | nil => exact ⟨[], rfl, .nil⟩
    | @cons i c js new hc _ ih =>
      obtain ⟨o, ho, hq⟩ := hc
      obtain ⟨xs, hxs, hforall⟩ := ih (List.nodup_cons.mp hjs).2
      exact ⟨o :: xs, by simp [ho, hxs], .cons hq hforall⟩
  obtain ⟨ys, hperm, hsub⟩ := subperm_of_places hjs hxs
  have hsubperm : (xs.map Prod.fst).Subperm (ops.map Prod.fst) :=
    ⟨ys.map Prod.fst, hperm.map _, hsub.map _⟩
  refine ⟨xs.map Prod.fst, new, hsubperm.trans hops, by rw [← hcalls, hnew]; rfl, ?_⟩
  rw [List.forall₂_map_left_iff]
  have hmem : ∀ o ∈ xs, Sanctioned d st.store o.1 o.2 := by
    intro o ho
    refine hsanctioned o ?_
    exact (List.Subperm.subset ⟨ys, hperm, hsub⟩) ho
  rw [hstore] at hforall
  exact ((List.forall₂_and_left xs new).mpr ⟨hmem, hforall⟩).imp
    (fun o c h => ⟨o.2, h.1, h.2⟩)

end

theorem calls_owned_opening :
    ∃ st, run (Pool.step SiteStmt.apply) (Server.serving Contract.deployment .empty [] openingDay)
        openingMoves = some st ∧
      st.calls.length = 1 ∧ ∃ os new, os.Subperm openingDay ∧ st.calls = [] ++ new ∧
        List.Forall₂ (fun r c => MadeFor Contract.deployment st.store r c.1) os new := by
  have hrun : (run (Pool.step SiteStmt.apply) (Server.serving Contract.deployment .empty []
      openingDay) openingMoves).map (fun st => st.calls.length) = some 1 := by
    decide +kernel
  obtain ⟨st, hst, hlen⟩ := Option.map_eq_some_iff.mp hrun
  exact ⟨st, hst, hlen, calls_owned Contract.deployment .empty [] openingDay openingMoves hst⟩

end SixGateway.Outgoing
