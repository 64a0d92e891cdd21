import SixGateway.Creations
import SixGateway.StripeContract

namespace SixGateway.CreateRace

open Library Library.Run Library.Pool Models Errors Database Schemas StripeClient LedgerService
open PaymentService Queries Bookings Outcomes Gateway Effects Concurrency Creations StripeContract

/-- Under a key there is one intent, and it has been accrued once, with its amount. -/
structure OneIntent (key : String) (db : Db) : Prop where
  byKey : ∀ p ∈ db.paymentIntents, ∀ q ∈ db.paymentIntents, p.idempotencyKey = key →
    q.idempotencyKey = key → p = q
  byStripeId : ∀ p ∈ db.paymentIntents, ∀ q ∈ db.paymentIntents, ∀ stripeId,
    p.stripePaymentIntentId = some stripeId → q.stripePaymentIntentId = some stripeId → p = q
  accrued : ∀ p ∈ db.paymentIntents, p.idempotencyKey = key →
    bookedAs db.ledgerEntries p.id "payment_intent.created" =
      pair (pendingAccount p.customerId) "payments_authorised" p.amount

/-- All requests that have returned a row have returned the same one, and it is stored. -/
def SameReturned (st : Handlers PaymentIntent) : Prop :=
  ∀ p, .ret p ∈ st.threads → p ∈ st.store.paymentIntents ∧ ∀ q, .ret q ∈ st.threads → p = q

/-- Once the row of the key is there, a move commits nothing. -/
def Settled (key : String) (st : Handlers PaymentIntent) (l : Label) : Prop :=
  (∃ p ∈ st.store.paymentIntents, p.idempotencyKey = key) →
    ∀ st' ∈ step commit st l, st'.store = st.store

/-- Every intent has been accrued once, and nothing is booked for an intent that is not there. -/
structure Accrued (db : Db) : Prop where
  references : ∀ e ∈ db.ledgerEntries, db.references e.paymentIntentId = true
  accrual : ∀ p ∈ db.paymentIntents, bookedAs db.ledgerEntries p.id "payment_intent.created" =
    pair (pendingAccount p.customerId) "payments_authorised" p.amount

def Persists (db db' : Db) : Prop := ∀ p ∈ db.paymentIntents, p ∈ db'.paymentIntents

theorem bookedAs_unknown {db : Db} (h : Accrued db) {id : String}
    (hid : ∀ p ∈ db.paymentIntents, p.id ≠ id) (description : String) :
    bookedAs db.ledgerEntries id description = [] :=
  bookedAs_other (unnamed_of_unknown h.references hid)

theorem accrued_empty : Accrued World.empty.db := by
  constructor <;> simp [World.empty, Db.empty]

theorem Accrued.oneIntent {db : Db} (h : Accrued db) (key : String) : OneIntent key db where
  byKey _ hp _ hq h h' := eq_of_idempotencyKey hp hq (h.trans h'.symm)
  byStripeId _ hp _ hq _ h h' := eq_of_stripeId hp hq h h'
  accrued p hp _ := h.accrual p hp

section

variable [StrLower]

structure CreateRequest where
  payload : PaymentIntentCreate
  merchant : Option String
  env : Env

def creating (db : Db) (calls : Calls) (rs : List CreateRequest) : Handlers PaymentIntent :=
  ⟨db, calls, rs.map (fun r => createIntent r.payload r.merchant r.env)⟩

variable {db db' : Db} {t : List Stmt} {key : String} {rs : List CreateRequest} {r : Request}
  {w : World} {st st' : Handlers PaymentIntent} {l : Label} {i : Nat}
  {A : StripeCall → StripeAnswer → Prop}

theorem bookedAs_accrual (p : PaymentIntent) (env : Env) :
    bookedAs (accrual p env) p.id "payment_intent.created" =
      pair (pendingAccount p.customerId) "payments_authorised" p.amount := by
  rw [accrual, bookedAs_pairEntries rfl]
  rfl

theorem bookedAs_change {p dirty : PaymentIntent} {es : List LedgerEntry} {calls : Calls}
    (h : Changes r p dirty es calls) (id : String) :
    bookedAs es id "payment_intent.created" = [] := by
  by_cases hid : p.id = id
  · subst hid
    cases h with
    | confirmed => rfl
    | canceled => rw [reversal, bookedAs_pairEntries rfl]; rfl
    | captured => rw [capture, bookedAs_pairEntries rfl]; rfl
    | refunded _ _ _ _ _ _ _ _ _ _ _ _ _ o =>
      rw [refundEntries, bookedAs_pairEntries rfl]
      exact if_neg (fun h => refund_description_ne o.id (by decide) (Option.some.inj h))
  · refine bookedAs_other (fun e he heq => hid ?_)
    rw [intent_of_change h e he] at heq
    exact Option.some.inj heq

theorem accrued_after (h : Accrued w.db) (r : Request) : Accrued (w.after r).db := by
  have he := request_effect r w
  refine ⟨references_after he h.references, fun q hq => ?_⟩
  change bookedAs (r.outcome w).store.ledgerEntries q.id _ = _
  cases row_after he hq with
  | kept member es ledger others =>
    rw [ledger, bookedAs_append, bookedAs_other others, List.append_nil, h.accrual q member]
  | created payload merchant fresh o answered status parsed row unknown called ledger =>
    rw [ledger, bookedAs_append, bookedAs_unknown h (fun p hp => (unknown p hp).1),
      List.nil_append, bookedAs_accrual]
  | changed p member dirty es does row ledger =>
    subst row
    rw [ledger, bookedAs_append, bookedAs_change does, List.append_nil]
    exact h.accrual p member

theorem accrued_afterAll (rs : List Request) : Accrued (World.empty.afterAll rs).db :=
  afterAll_invariant (I := fun w => Accrued w.db) (C := fun _ _ => True) (fun _ r h _ => accrued_after h r) accrued_empty
    (along_of_forall (fun _ _ => trivial) _ rs)

def CreatesOf (A : StripeCall → StripeAnswer → Prop) (rs : List CreateRequest) (i : Nat)
    (_ : Db) (t : List Stmt) : Prop :=
  ∃ r, rs[i]? = some r ∧ Creates A r.payload r.merchant r.env t

theorem CreatesOf.persists (h : CreatesOf A rs i db t) (hc : commit t db = .ok db') :
    Persists db db' := by
  obtain ⟨r, -, h⟩ := h
  obtain ⟨o, status, table, -, -, inserted, rfl⟩ := h.committed hc
  exact fun p hp => (Table.mem_insert inserted).mpr (.inl hp)

theorem accrued_commit (h : Accrued db) (ht : CreatesOf A rs i db t)
    (hc : commit t db = .ok db') : Accrued db' := by
  obtain ⟨r, -, ht⟩ := ht
  obtain ⟨o, status, table, -, -, inserted, rfl⟩ := ht.committed hc
  have hold : ∀ p ∈ db.paymentIntents, p ∈ table := fun p hp =>
    (Table.mem_insert inserted).mpr (.inl hp)
  have hnew : newIntent r.payload r.merchant r.env o status ∈ table :=
    (Table.mem_insert inserted).mpr (.inr rfl)
  refine ⟨fun e he => ?_, fun q hq => ?_⟩
  · obtain he | he := List.mem_append.mp he
    · exact references_mono (fun p hp => ⟨p, hold p hp, rfl⟩) (h.references e he)
    · rw [intent_of_accrual he]
      exact references_of_mem hnew
  · rw [ledgerEntries_post, bookedAs_append]
    obtain hq | rfl := (Table.mem_insert inserted).mp hq
    · rw [h.accrual q hq, bookedAs_other, List.append_nil]
      intro e he heq
      rw [intent_of_accrual he] at heq
      exact (insert_fresh inserted hq).1 (Option.some.inj heq).symm
    · rw [bookedAs_unknown h (fun p hp => (insert_fresh inserted hp).1), List.nil_append,
        bookedAs_accrual]

def Stored (key : String) (p : PaymentIntent) (db : Db) : Prop :=
  p ∈ db.paymentIntents ∧ p.idempotencyKey = key

abbrev Safely (key : String) (rs : List CreateRequest) (st : Handlers PaymentIntent) : Prop :=
  AllSafe commit Persists (fun _ _ => True) (fun _ _ _ => True) (CreatesOf (fun _ _ => True) rs)
    (Stored key) st

theorem creating_safe (hrs : ∀ r ∈ rs, r.payload.idempotencyKey = key) (db : Db) (calls : Calls) :
    Safely key rs (creating db calls rs) := by
  intro i p hp
  obtain ⟨r, hr, rfl⟩ : ∃ r, rs[i]? = some r ∧ createIntent r.payload r.merchant r.env = p := by
    simpa [creating, List.getElem?_map] using hp
  have hkey := hrs r (List.mem_of_getElem? hr)
  refine (create_safe ?_ ?_ db).weaken (fun s t ht => ⟨r, hr, ht⟩)
  · exact fun p s s' hp hk hg => ⟨hg p hp, hk.trans hkey⟩
  · intro p s s' s'' hp hk hg hg'
    rw [intentById_of_mem (hg p hp)]
    exact ⟨hg' p (hg p hp), hk.trans hkey⟩

theorem sameReturned_of_safely (h : Safely key rs st) : SameReturned st := by
  intro p hp
  obtain ⟨hmem, hkey⟩ := h.returned (fun _ _ h => h) hp
  refine ⟨hmem, fun q hq => ?_⟩
  obtain ⟨hmem', hkey'⟩ := h.returned (fun _ _ h => h) hq
  exact eq_of_idempotencyKey hmem hmem' (hkey.trans hkey'.symm)

theorem settled_of_safely (hrs : ∀ r ∈ rs, r.payload.idempotencyKey = key)
    (h : Safely key rs st) : Settled key st l := by
  rintro ⟨p, hp, hkey⟩ st' hst
  cases step_moves hst with
  | read => rfl
  | committed i t k hi s hs =>
    obtain ⟨r, hr, ht⟩ := h.commit (fun _ _ h => h) hi
    obtain ⟨o, status, table, -, -, inserted, -⟩ := ht.committed hs
    have hne := (insert_fresh inserted hp).2.1
    exact absurd (hkey.trans (hrs r (List.mem_of_getElem? hr)).symm) hne
  | refused => rfl
  | answered => rfl

/-- However the steps of requests with one key interleave, and wherever they die, the key ends up
with one intent that has been accrued once, and whoever returns a row returns that one. -/
theorem one_intent_created (hrs : ∀ r ∈ rs, r.payload.idempotencyKey = key) (pre : List Request)
    (ls : List Label) :
    let start := creating (World.empty.afterAll pre).db (World.empty.afterAll pre).calls rs
    Always (step commit) (fun st => OneIntent key st.store ∧ SameReturned st) start ls ∧
      Along (step commit) (Settled key) start ls := by
  intro start
  have hsafe : Safely key rs start := creating_safe hrs _ _
  have hm : Along (step commit) (Meets commit (fun _ _ => True) (fun _ _ _ => True)) start ls :=
    along_of_forall (meets_of_forall (fun _ _ _ => trivial) (fun _ _ => trivial)) start ls
  have hgrow : ∀ i s t s', CreatesOf (fun _ _ => True) rs i s t → True → commit t s = .ok s' →
      Persists s s' := fun _ _ _ _ ht _ hc => ht.persists hc
  refine ⟨always_mono (fun st hst => ⟨Accrued.oneIntent hst.2 key, sameReturned_of_safely hst.1⟩) _ _
    (always_commits (fun _ _ h => h) (fun _ _ _ h h' p hp => h' p (h p hp)) hgrow
      (fun _ _ _ _ hj ht _ hc => accrued_commit hj ht hc) hsafe (accrued_afterAll pre) hm), ?_⟩
  refine along_of_invariant (I := Safely key rs) ?_ (fun st l h _ => settled_of_safely hrs h) hsafe hm
  exact fun st l st' h hl hst => (step_safe (fun _ _ h => h) (fun _ _ _ h h' p hp => h' p (h p hp))
    hgrow h hl hst).1

end

/-- Two requests for the same order, both of which look the key up before either commits. -/
def twice : List CreateRequest :=
  [⟨order, some "mer_1", clock 0⟩, ⟨order, some "mer_1", ⟨1, "i2", "s2", "t2"⟩⟩]

def stripeAnswers : Act StripeAnswer :=
  .answer (.ok ⟨"pi_1", PaymentIntentStatus.requiresPaymentMethod.value, some "secret"⟩)

theorem one_intent_created_twice :
    let start := creating (World.empty.afterAll []).db (World.empty.afterAll []).calls twice
    let ls := [(0, .run), (1, .run), (0, stripeAnswers), (1, stripeAnswers), (1, .run), (0, .run),
      (1, .run)]
    Always (step commit) (fun st => OneIntent "order-0001" st.store ∧ SameReturned st) start ls ∧
      Along (step commit) (Settled "order-0001") start ls :=
  one_intent_created (by decide) [] _

end SixGateway.CreateRace
