import SixGateway.SessionSteps
import SixGateway.Creations
import SixGateway.StripeContract

namespace SixGateway.SessionRace

open Library Library.Run Library.Pool Models Errors Database Schemas StripeClient PaymentService
open CheckoutService Webhook Queries Bookings Outcomes Sessions Gateway Effects SessionSteps Concurrency
open Creations StripeContract

def insertedSessions (t : List Stmt) : List CheckoutSession :=
  t.filterMap fun s =>
    match s with
    | .insertSession row => some row
    | _ => none

/-- When a move commits a session, no session of its intent has been committed before. -/
def First (st : Handlers CheckoutSession) (l : Label) : Prop :=
  ∀ row ∈ insertedSessions (committing st l), ∀ cs ∈ st.store.checkoutSessions,
    cs.paymentIntentId ≠ row.paymentIntentId

abbrev WatchedRequests := Watched Db StripeCall StripeAnswer (List Stmt) Exn CheckoutSession

/-- Where a request commits a session, nobody has committed a session of the same intent since the
request last moved, which is when it looked that session up. -/
def NotOvertaken (w : WatchedRequests) (l : Label) : Prop :=
  ∀ row ∈ insertedSessions (committing w.pool l), ∀ t ∈ w.since l.1,
    ∀ other ∈ insertedSessions t, other.paymentIntentId ≠ row.paymentIntentId

/-- No intent has two sessions, and no lookup of the session of an intent can fail. -/
structure OneSession (db : Db) : Prop where
  single : SingleSession db
  found : ∀ id, ∃ found, findByPaymentIntent db id = .ok found

instance (db : Db) : Decidable (SingleSession db) :=
  decidable_of_iff (∀ cs ∈ db.checkoutSessions, ∀ cs' ∈ db.checkoutSessions,
    cs.paymentIntentId.isSome = true → cs.paymentIntentId = cs'.paymentIntentId → cs = cs') (by
      constructor
      · intro h cs hcs cs' hcs' id hid hid'
        exact h cs hcs cs' hcs' (by simp [hid]) (hid.trans hid'.symm)
      · intro h cs hcs cs' hcs' hsome heq
        obtain ⟨id, hid⟩ := Option.isSome_iff_exists.mp hsome
        exact h cs hcs cs' hcs' id hid (heq ▸ hid))

inductive Opens (t : List Stmt) : Prop
  | aside (kept : ∀ db db', commit t db = .ok db' → db'.checkoutSessions = db.checkoutSessions)
      (inserts : insertedSessions t = [])
  | session (row : CheckoutSession) (linked : row.paymentIntentId.isSome = true)
      (inserts : t = [.insertSession row])

variable {db db' : Db} {t : List Stmt} {st st' : Handlers CheckoutSession} {l : Label}

def Linked (x : Option String) (db : Db) : Prop :=
  ∃ cs ∈ db.checkoutSessions, cs.paymentIntentId = x

theorem linked_apply {x : Option String} (s : Stmt) (db db' : Db) (h : s.apply db = .ok db') :
    Linked x db' ↔ Linked x db ∨ ∃ row ∈ insertedSessions [s], row.paymentIntentId = x := by
  have hsame : db'.checkoutSessions = db.checkoutSessions → insertedSessions [s] = [] →
      (Linked x db' ↔ Linked x db ∨ ∃ row ∈ insertedSessions [s], row.paymentIntentId = x) := by
    intro heq hnone
    simp [Linked, heq, hnone]
  cases s with
  | updateSession loaded dirty now =>
    cases h
    rw [or_iff_left (by simp [insertedSessions])]
    constructor
    · rintro ⟨cs, hcs, rfl⟩
      obtain ⟨old, hold, rfl⟩ := mem_updateSession.mp hcs
      exact ⟨old, hold, by split <;> rfl⟩
    · rintro ⟨old, hold, rfl⟩
      exact ⟨_, mem_updateSession.mpr ⟨old, hold, rfl⟩, by split <;> rfl⟩
  | insertSession row =>
    simp only [Stmt.apply] at h
    split at h
    · split at h
      · next inserted =>
        cases h
        have hone : insertedSessions [.insertSession row] = [row] := rfl
        simp only [Linked, hone, Table.mem_insert inserted, or_and_right, exists_or,
          List.mem_singleton]
      · cases h
    · cases h
  | insertIntent | insertEvent | insertEntries =>
    simp only [Stmt.apply] at h
    split at h <;> cases h
    exact hsame rfl rfl
  | updateIntent | setProcessedAt | setProcessingError =>
    cases h
    exact hsame rfl rfl

theorem exists_inserted {x : Option String} : (∃ s ∈ t, ∃ row ∈ insertedSessions [s],
    row.paymentIntentId = x) ↔ ∃ row ∈ insertedSessions t, row.paymentIntentId = x := by
  simp only [insertedSessions, List.mem_filterMap, List.mem_singleton, exists_eq_left]
  constructor
  · rintro ⟨s, hs, row, hrow, hx⟩
    exact ⟨row, ⟨s, hs, hrow⟩, hx⟩
  · rintro ⟨row, ⟨s, hs, hrow⟩, hx⟩
    exact ⟨s, hs, row, hrow, hx⟩

theorem linked_applied {ts : List (List Stmt)} {x : Option String} (h : Applied commit ts db db') :
    Linked x db' ↔ Linked x db ∨ ∃ t ∈ ts, ∃ row ∈ insertedSessions t, row.paymentIntentId = x := by
  refine h.made_iff (fun t a b hc => ?_)
  rw [(applied_of_commit hc).made_iff linked_apply, exists_inserted]

theorem OneSession.of_single (h : SingleSession db) : OneSession db := ⟨h, found_of_single h⟩

theorem insertSession_committed {row : CheckoutSession}
    (hc : commit [.insertSession row] db = .ok db') :
    db.checkoutSessions.insert row = some db'.checkoutSessions := by
  simp only [commit, Stmt.apply] at hc
  split at hc
  · next hr =>
    split at hr
    · split at hr
      · next inserted =>
        cases hr
        cases hc
        exact inserted
      · cases hr
    · cases hr
  · cases hc

theorem single_insert (h : SingleSession db) {row : CheckoutSession}
    (linked : row.paymentIntentId.isSome = true)
    (inserted : db.checkoutSessions.insert row = some db'.checkoutSessions) :
    SingleSession db' ↔
      ∀ cs ∈ db.checkoutSessions, cs.paymentIntentId ≠ row.paymentIntentId := by
  have hm : ∀ cs, cs ∈ db'.checkoutSessions ↔ cs ∈ db.checkoutSessions ∨ cs = row := fun cs =>
    Table.mem_insert inserted
  constructor
  · intro hs cs hcs hlink
    obtain ⟨id, hid⟩ := Option.isSome_iff_exists.mp linked
    have heq := hs cs ((hm cs).mpr (.inl hcs)) row ((hm row).mpr (.inr rfl)) id
      (hlink.trans hid) hid
    have hclash := (Table.insert_eq_some inserted).2 cs hcs
    simp [heq, clash, Keyed.keys] at hclash
  · intro hf cs hcs cs' hcs' id hid hid'
    obtain hcs | rfl := (hm cs).mp hcs
    · obtain hcs' | rfl := (hm cs').mp hcs'
      · exact h cs hcs cs' hcs' id hid hid'
      · exact absurd (hid.trans hid'.symm) (hf cs hcs)
    · obtain hcs' | rfl := (hm cs').mp hcs'
      · exact absurd (hid'.trans hid.symm) (hf cs' hcs')
      · rfl

/-- A commit keeps the sessions single exactly when those it inserts are the first of their
intents. -/
theorem single_commit (h : SingleSession db) (ht : Opens t) (hc : commit t db = .ok db') :
    SingleSession db' ↔ ∀ row ∈ insertedSessions t, ∀ cs ∈ db.checkoutSessions,
      cs.paymentIntentId ≠ row.paymentIntentId := by
  cases ht with
  | aside kept inserts =>
    rw [inserts]
    refine iff_of_true ?_ (by simp)
    simpa only [SingleSession, kept db db' hc] using h
  | session row linked inserts =>
    subst inserts
    have hone : insertedSessions [.insertSession row] = [row] := rfl
    simp only [hone, List.mem_singleton, forall_eq]
    exact single_insert h linked (insertSession_committed hc)

abbrev Safely (st : Handlers CheckoutSession) : Prop :=
  AllSafe commit (fun _ _ => True) (fun _ _ => True) (fun _ _ _ => True) (fun _ _ => Opens)
    (fun _ _ => True) st

theorem safely_step (h : Safely st) (hst : step commit st l = some st') : Safely st' :=
  (step_safe (fun _ => trivial) (fun _ _ _ _ _ => trivial) (fun _ _ _ _ _ _ _ => trivial) h
    (meets_of_forall (fun _ _ _ => trivial) (fun _ _ => trivial) st l) hst).1

theorem single_step (h : Safely st) (hs : SingleSession st.store)
    (hst : step commit st l = some st') : SingleSession st'.store ↔ First st l := by
  cases step_moves hst with
  | read i k hi => exact iff_of_true hs (by simp [First, committing_read hi, insertedSessions])
  | committed i t k hi db hdb =>
    rw [First, committing_commit hi hdb]
    exact single_commit hs (h.commit (fun _ => trivial) hi) hdb
  | refused i t k hi e he =>
    exact iff_of_true hs (by simp [First, committing_refused hi he, insertedSessions])
  | answered i q k hi r => exact iff_of_true hs (by simp [First, committing, insertedSessions])

section

variable [StrLower] {A : StripeCall → StripeAnswer → Prop}

structure SessionRequest where
  merchant : String
  payload : CheckoutSessionCreate
  env : Env

def opening (db : Db) (calls : Calls) (rs : List SessionRequest) : Handlers CheckoutSession :=
  ⟨db, calls, rs.map (fun r => createSession r.merchant r.payload r.env)⟩

theorem Creates.opens {payload : PaymentIntentCreate} {merchant : Option String} {env : Env}
    (h : Creates A payload merchant env t) : Opens t := by
  refine .aside (fun db db' hc => ?_) ?_
  · obtain ⟨o, status, table, -, -, -, rfl⟩ := h.committed hc
    rfl
  · cases h
    rfl

abbrev SafeHere {α : Type} (p : Service α) (db : Db) : Prop :=
  Program.Safe commit (fun _ _ => True) (fun _ _ => True) (fun _ _ => True) (fun _ => Opens)
    (fun _ _ => True) p db

theorem link_safe (r : SessionRequest) (intent : PaymentIntent) (db : Db) :
    SafeHere (linkSession r.merchant r.payload r.env intent) db := by
  intro db₁ _
  change SafeHere (sessionLooked r.merchant r.payload intent r.env
    (findByPaymentIntent db₁ intent.id)) db₁
  cases findByPaymentIntent db₁ intent.id with
  | error e => trivial
  | ok found =>
    cases found with
    | some cs => exact fun _ _ => trivial
    | none => exact fun _ _ => ⟨.session _ rfl rfl, fun _ _ _ _ _ _ _ => trivial⟩

theorem session_safe (r : SessionRequest) (db : Db) :
    SafeHere (createSession r.merchant r.payload r.env) db := by
  rw [createSession]
  cases intentPayload r.payload with
  | error e => trivial
  | ok body =>
    have hcreate : SafeHere (createIntent body (some r.merchant) r.env) db :=
      (create_safe (fun _ _ _ _ _ _ => trivial) (fun _ _ _ _ _ _ _ _ => trivial) db).weaken
        (fun _ _ h => Creates.opens h)
    exact hcreate.bind (fun _ => trivial) (fun intent s _ => link_safe r intent s)

/-- A request inserts only a session that it has looked up in vain. -/
def Looked (db : Db) (t : List Stmt) : Prop :=
  ∀ row ∈ insertedSessions t, ¬ Linked row.paymentIntentId db

theorem link_prepared (r : SessionRequest) (intent : PaymentIntent) (db : Db) :
    (linkSession r.merchant r.payload r.env intent).Prepared Looked db := by
  intro db
  change (sessionLooked r.merchant r.payload intent r.env
    (findByPaymentIntent db intent.id)).Prepared Looked db
  cases hf : findByPaymentIntent db intent.id with
  | error e => trivial
  | ok found =>
    cases found with
    | some cs => trivial
    | none =>
      refine ⟨fun row hrow => ?_, fun _ _ => trivial⟩
      obtain rfl : row = newSession r.merchant r.payload intent r.env := List.mem_singleton.mp hrow
      rintro ⟨cs, hcs, hlink⟩
      have hnone : db.sessionsByIntent intent.id = [] := scalarOneOrNone_ok hf
      have hmem : cs ∈ db.sessionsByIntent intent.id := mem_sessionsByIntent.mpr ⟨hcs, hlink⟩
      rw [hnone] at hmem
      cases hmem

theorem create_prepared (payload : PaymentIntentCreate) (merchant : Option String) (env : Env)
    (db : Db) : (createIntent payload merchant env).Prepared Looked db := by
  intro db
  change (createLooked payload merchant env (db.intentByKey payload.idempotencyKey)).Prepared _ db
  cases db.intentByKey payload.idempotencyKey with
  | some existing =>
    simp only [createLooked]
    split <;> trivial
  | none =>
    intro answer db
    cases answer with
    | error message => trivial
    | ok o =>
      simp only [createAnswered]
      split
      · trivial
      · split
        · trivial
        · exact ⟨fun row hrow => absurd hrow List.not_mem_nil, fun _ _ => trivial⟩

theorem session_prepared (r : SessionRequest) (db : Db) :
    (createSession r.merchant r.payload r.env).Prepared Looked db := by
  rw [createSession]
  cases intentPayload r.payload with
  | error e => trivial
  | ok body => exact (create_prepared body (some r.merchant) r.env db).bind (link_prepared r)

omit [StrLower] in
/-- When a request commits a session, it is the first of its intent exactly if nobody has committed
another since the request looked. -/
theorem first_iff {w : WatchedRequests} (hp : AllPrepared commit (fun _ => Looked) w) (l : Label) :
    First w.pool l ↔ NotOvertaken w l := by
  obtain hnone | ⟨k, hi⟩ := committing_cases w.pool l
  · simp [First, NotOvertaken, hnone, insertedSessions]
  · obtain ⟨db, hlooked, happ⟩ := hp.commit hi
    refine forall₂_congr (fun row hrow => ?_)
    have hlinked := linked_applied (x := row.paymentIntentId) happ
    rw [or_iff_right (hlooked row hrow)] at hlinked
    simpa only [Linked, not_exists, not_and] using not_congr hlinked

/-- Every committed state of an interleaving has at most one session an intent exactly when nobody
commits a session of an intent between a request's lookup of that session and its commit of
one. -/
theorem one_session_iff (pre : List Request) (rs : List SessionRequest) (ls : List Label) :
    let start := opening (World.empty.afterAll pre).db (World.empty.afterAll pre).calls rs
    Always (step commit) (fun st => OneSession st.store) start ls ↔
      Along (watch commit) NotOvertaken (watching start) ls := by
  intro start
  have hmem : ∀ (i : Nat) p, start.threads[i]? = some p →
      ∃ r : SessionRequest, createSession r.merchant r.payload r.env = p := by
    intro i p hp
    obtain ⟨r, -, hr⟩ : ∃ r, rs[i]? = some r ∧ createSession r.merchant r.payload r.env = p := by
      simpa [start, opening, List.getElem?_map] using hp
    exact ⟨r, hr⟩
  have hsafe : Safely start := by
    intro i p hp
    obtain ⟨r, rfl⟩ := hmem i p hp
    exact session_safe r _
  have hprepared : AllPrepared commit (fun _ => Looked) (watching start) := by
    refine allPrepared_watching (fun i p hp => ?_)
    obtain ⟨r, rfl⟩ := hmem i p hp
    exact session_prepared r _
  have hone : ∀ st : Handlers CheckoutSession, OneSession st.store ↔ SingleSession st.store :=
    fun st => ⟨OneSession.single, OneSession.of_single⟩
  simp only [hone]
  have hfirst : Always (step commit) (fun st => SingleSession st.store) start ls ↔
      Along (step commit) First start ls := by
    refine always_iff_along (I := Safely) (C := fun _ _ => True)
      (fun st l st' h _ hst => safely_step h hst)
      (fun st l st' h _ hs hst => single_step h hs hst) ?_ hsafe (singleSession_afterAll pre)
      (along_of_forall (fun _ _ => trivial) start ls)
    intro st l hst
    simp [First, committing_idle hst, insertedSessions]
  refine hfirst.trans ((along_watch (w := watching start)).symm.trans ?_)
  exact along_congr (C := fun _ _ => True) (fun _ _ _ h _ _ hst => h.step hst)
    (fun _ l h _ => first_iff h l) hprepared (along_of_forall (fun _ _ => trivial) _ ls)

end

def ordered : List Request :=
  [⟨.createIntent order (some "mer_1"), clock 0, accepting .requiresAction⟩]

def doubled : List SessionRequest :=
  [⟨"mer_1", checkout, clock 1⟩, ⟨"mer_1", checkout, ⟨2, "i2", "s2", "t2"⟩⟩]

/-- A request and its retry both look the session up before either commits. The intent has two
sessions then, and the delivery of its event fails on their lookup. -/
theorem session_doubled :
    let start := opening (World.empty.afterAll ordered).db (World.empty.afterAll ordered).calls doubled
    let ls := [(0, .run), (1, .run), (0, .run), (1, .run), (0, .run), (1, .run)]
    ¬ Always (step commit) (fun st => OneSession st.store) start ls ∧
      ∃ st ∈ run (step commit) start ls,
        (serve (accepting .requiresAction) (stripeWebhook (paid "evt_1") (clock 3)) st.store).result =
          .error (handlerFailed (paid "evt_1") .multipleResultsFound) := by
  refine ⟨fun h => absurd (always_mono (fun _ => OneSession.single) _ _ h) (by decide +kernel), ?_⟩
  decide +kernel

end SixGateway.SessionRace
