import SixGateway.SessionSteps
import SixGateway.Concurrency
import SixGateway.StripeContract

namespace SixGateway.ExpiryRace

open Library Library.Run Library.Pool Models Errors Database StripeClient PaymentService
open CheckoutService Queries Sessions SessionSteps Gateway Effects Concurrency StripeContract

inductive SessionCall where
  | getOpen (sessionId : String) (env : Env)
  | complete (sessionId : String) (env : Env)

def SessionCall.program : SessionCall → Service CheckoutSession
  | .getOpen sessionId env => getOpenSession sessionId env
  | .complete sessionId env => completeSession sessionId env

def viewing (db : Db) (calls : Calls) (rs : List SessionCall) : Handlers CheckoutSession :=
  ⟨db, calls, rs.map SessionCall.program⟩

def sessionUpdates (t : List Stmt) : List (CheckoutSession × CheckoutSession) :=
  t.filterMap fun s =>
    match s with
    | .updateSession loaded dirty _ => some (loaded, dirty)
    | _ => none

/-- A move leaves a COMPLETED session COMPLETED, makes none OPEN that is EXPIRED, and writes EXPIRED
only for a call whose clock is past the session's expiry. -/
structure Kept (rs : List SessionCall) (st : Handlers CheckoutSession) (l : Label) : Prop where
  completed : ∀ st' ∈ step commit st l, ∀ cs ∈ st.store.checkoutSessions,
    cs.status = .completed → ∃ cs' ∈ st'.store.checkoutSessions, cs'.id = cs.id ∧
      cs'.status = .completed
  expired : ∀ st' ∈ step commit st l, ∀ cs ∈ st.store.checkoutSessions, cs.status = .expired →
    ∃ cs' ∈ st'.store.checkoutSessions, cs'.id = cs.id ∧ cs'.status ≠ .opened
  past : ∀ u ∈ sessionUpdates (committing st l), u.2.status = .expired →
    ∃ id env, rs[l.1]? = some (.getOpen id env) ∧
      ∃ cs ∈ st.store.checkoutSessions, cs.id = u.1.id ∧ cs.expiresAt < env.now

/-- Where a move writes EXPIRED, the committed session is not COMPLETED. -/
def Unpaid (st : Handlers CheckoutSession) (l : Label) : Prop :=
  ∀ u ∈ sessionUpdates (committing st l), u.2.status = .expired →
    ∀ cs ∈ st.store.checkoutSessions, cs.id = u.1.id → cs.status ≠ .completed

def completed? : Stmt → Option String
  | .updateSession loaded dirty _ => if dirty.status = .completed then some loaded.id else none
  | .insertSession row => if row.status = .completed then some row.id else none
  | _ => none

def completions (t : List Stmt) : List String := t.filterMap completed?

/-- Where a view of a session commits, nobody has completed the session since the view read it. -/
def NotOvertaken (rs : List SessionCall)
    (w : Watched Db StripeCall StripeAnswer (List Stmt) Exn CheckoutSession) (l : Label) : Prop :=
  ∀ id env, rs[l.1]? = some (.getOpen id env) → committing w.pool l ≠ [] →
    ∀ t ∈ w.since l.1, id ∉ completions t

def Remains (db db' : Db) : Prop :=
  ∀ cs ∈ db.checkoutSessions, ∃ cs' ∈ db'.checkoutSessions,
    cs'.id = cs.id ∧ cs'.expiresAt = cs.expiresAt

/-- What a call commits: EXPIRED over a session that it has read as OPEN and past its expiry, or
COMPLETED. -/
inductive Writes (call : SessionCall) (db : Db) : List Stmt → Prop
  | expired (id : String) (env : Env) (asked : call = .getOpen id env) (loaded : CheckoutSession)
      (named : loaded.id = id) (live : loaded.status = .opened) (past : loaded.expiresAt < env.now)
      (known : ∃ cs ∈ db.checkoutSessions, cs.id = loaded.id ∧ cs.expiresAt = loaded.expiresAt) :
      Writes call db [.updateSession loaded { loaded with status := .expired } env.now]
  | completed (id : String) (env : Env) (asked : call = .complete id env)
      (loaded : CheckoutSession) (pending : loaded.status ≠ .completed) (now : Instant)
      (known : ∃ cs ∈ db.checkoutSessions, cs.id = loaded.id) :
      Writes call db [.updateSession loaded { loaded with status := .completed } now]

variable {db db' : Db} {call : SessionCall} {t : List Stmt} {loaded : CheckoutSession}
  {status : CheckoutSessionStatus} {now : Instant} {rs : List SessionCall}
  {st st' : Handlers CheckoutSession} {l : Label} {i : Nat}

theorem Remains.refl (db : Db) : Remains db db := fun cs hcs => ⟨cs, hcs, rfl, rfl⟩

theorem Remains.trans (a b c : Db) (h : Remains a b) (h' : Remains b c) : Remains a c := by
  intro cs hcs
  obtain ⟨mid, hmid, hid, he⟩ := h cs hcs
  obtain ⟨cs', hcs', hid', he'⟩ := h' mid hmid
  exact ⟨cs', hcs', hid'.trans hid, he'.trans he⟩

theorem status_updated (hs : status ≠ loaded.status) {cs : CheckoutSession}
    (hcs : cs ∈ db.checkoutSessions) :
    ∃ cs' ∈ (db.updateSession loaded { loaded with status := status } now).checkoutSessions,
      cs'.id = cs.id ∧ cs'.expiresAt = cs.expiresAt ∧
        cs'.status = if cs.id = loaded.id then status else cs.status := by
  refine ⟨_, mem_updateSession.mpr ⟨cs, hcs, rfl⟩, ?_, ?_, ?_⟩ <;> split <;>
    simp [CheckoutSession.flush, hs]

theorem Writes.remains (h : Writes call db t) (hc : commit t db = .ok db') : Remains db db' := by
  intro cs hcs
  cases h with
  | expired id env asked loaded named live past known =>
    cases hc
    have hs : CheckoutSessionStatus.expired ≠ loaded.status := by simp [live]
    obtain ⟨cs', hcs', hid, he, -⟩ := status_updated hs hcs
    exact ⟨cs', hcs', hid, he⟩
  | completed id env asked loaded pending now known =>
    cases hc
    obtain ⟨cs', hcs', hid, he, -⟩ := status_updated pending.symm hcs
    exact ⟨cs', hcs', hid, he⟩

abbrev SafeCall {α : Type} (call : SessionCall) (p : Service α) (db : Db) : Prop :=
  Program.Safe commit Remains (fun _ _ => True) (fun _ _ => True) (Writes call) (fun _ _ => True)
    p db

theorem refreshSession_safe (cs : CheckoutSession) : SafeCall call (refreshSession cs) db :=
  fun _ _ _ _ => trivial

theorem call_safe (call : SessionCall) (db : Db) : SafeCall call call.program db := by
  cases call with
  | getOpen id env =>
    intro db₁ _
    change SafeCall _ (openLoaded id env (db₁.sessionById id)) db₁
    cases hl : db₁.sessionById id with
    | none => trivial
    | some cs =>
      simp only [openLoaded]
      split
      · next h =>
        intro db₂ hk
        exact ⟨.expired id env rfl cs (sessionById_some hl).2 h.1 h.2 (hk cs (sessionById_some hl).1),
          fun _ _ _ => refreshSession_safe cs⟩
      · exact fun _ _ => trivial
  | complete id env =>
    intro db₁ _
    change SafeCall _ (completeFound id env (db₁.sessionById id)) db₁
    cases hl : db₁.sessionById id with
    | none => trivial
    | some cs =>
      simp only [completeFound, completeLoaded]
      by_cases h : cs.status = .completed
      · simp only [h, ne_eq, not_true_eq_false, if_false, Program.bind, if_true]
        exact fun _ _ => trivial
      · simp only [h, ne_eq, not_false_eq_true, if_true, Program.bind, if_false]
        intro db₂ hk
        obtain ⟨cs', hcs', hid, -⟩ := hk cs (sessionById_some hl).1
        exact ⟨.completed id env rfl cs h env.now ⟨cs', hcs', hid⟩, fun _ _ _ => refreshSession_safe cs⟩

def WritesOf (rs : List SessionCall) (i : Nat) (db : Db) (t : List Stmt) : Prop :=
  ∃ call, rs[i]? = some call ∧ Writes call db t

abbrev Safely (rs : List SessionCall) (st : Handlers CheckoutSession) : Prop :=
  AllSafe commit Remains (fun _ _ => True) (fun _ _ _ => True) (WritesOf rs) (fun _ _ => True) st

theorem safely_step (h : Safely rs st) (hst : step commit st l = some st') : Safely rs st' :=
  (step_safe Remains.refl Remains.trans (fun _ _ _ _ ⟨_, _, ht⟩ _ hc => ht.remains hc) h
    (meets_of_forall (fun _ _ _ => trivial) (fun _ _ => trivial) st l) hst).1

/-- Only a completed session that EXPIRED is written over loses its status. -/
theorem completed_commit (ht : Writes call db t) (hc : commit t db = .ok db') :
    (∀ cs ∈ db.checkoutSessions, cs.status = .completed →
      ∃ cs' ∈ db'.checkoutSessions, cs'.id = cs.id ∧ cs'.status = .completed) ↔
    ∀ u ∈ sessionUpdates t, u.2.status = .expired →
      ∀ cs ∈ db.checkoutSessions, cs.id = u.1.id → cs.status ≠ .completed := by
  cases ht with
  | expired id env asked loaded named live past known =>
    cases hc
    have hs : CheckoutSessionStatus.expired ≠ loaded.status := by simp [live]
    constructor
    · intro hkept u hu _ cs hcs hid hdone
      obtain rfl : u = (loaded, { loaded with status := .expired }) := by
        simpa [sessionUpdates] using hu
      obtain ⟨cs', hcs', hid', hdone'⟩ := hkept cs hcs hdone
      obtain ⟨now, hnow, hnid, -, hstatus⟩ := status_updated hs hcs
      rw [if_pos hid, session_eq_of_id hnow hcs' (hnid.trans hid'.symm), hdone'] at hstatus
      cases hstatus
    · intro hunpaid cs hcs hdone
      obtain ⟨cs', hcs', hid', -, hstatus⟩ := status_updated hs hcs
      have hne : cs.id ≠ loaded.id := fun hid =>
        hunpaid _ (List.mem_singleton_self _) rfl cs hcs hid hdone
      rw [if_neg hne] at hstatus
      exact ⟨cs', hcs', hid', hstatus.trans hdone⟩
  | completed id env asked loaded pending now known =>
    cases hc
    refine iff_of_true (fun cs hcs hdone => ?_) ?_
    · obtain ⟨cs', hcs', hid', -, hstatus⟩ := status_updated pending.symm hcs
      refine ⟨cs', hcs', hid', hstatus.trans ?_⟩
      split
      · rfl
      · exact hdone
    · simp [sessionUpdates]

theorem expired_commit (ht : Writes call db t) (hc : commit t db = .ok db')
    {cs : CheckoutSession} (hcs : cs ∈ db.checkoutSessions) (he : cs.status = .expired) :
    ∃ cs' ∈ db'.checkoutSessions, cs'.id = cs.id ∧ cs'.status ≠ .opened := by
  have hne : ∀ {loaded : CheckoutSession} {status now}, status ≠ loaded.status →
      status ≠ .opened → ∃ cs' ∈ (db.updateSession loaded { loaded with status := status }
        now).checkoutSessions, cs'.id = cs.id ∧ cs'.status ≠ .opened := by
    intro loaded status now hs hopen
    obtain ⟨cs', hcs', hid, -, hstatus⟩ := status_updated hs hcs
    refine ⟨cs', hcs', hid, ?_⟩
    rw [hstatus]
    split
    · exact hopen
    · simp [he]
  cases ht with
  | expired id env asked loaded named live past known =>
    cases hc
    exact hne (by simp [live]) (by simp)
  | completed id env asked loaded pending now known =>
    cases hc
    exact hne pending.symm (by simp)

/-- EXPIRED is written for a call whose clock is past the expiry of the session. -/
theorem past_commit (ht : Writes call db t) {u : CheckoutSession × CheckoutSession}
    (hu : u ∈ sessionUpdates t) (he : u.2.status = .expired) :
    ∃ id env, call = .getOpen id env ∧
      ∃ cs ∈ db.checkoutSessions, cs.id = u.1.id ∧ cs.expiresAt < env.now := by
  cases ht with
  | expired id env asked loaded named live past known =>
    obtain rfl : u = (loaded, { loaded with status := .expired }) := by
      simpa [sessionUpdates] using hu
    obtain ⟨cs, hcs, hid, hexp⟩ := known
    exact ⟨id, env, asked, cs, hcs, hid, hexp ▸ past⟩
  | completed id env asked loaded pending now known =>
    obtain rfl : u = (loaded, { loaded with status := .completed }) := by
      simpa [sessionUpdates] using hu
    cases he

theorem kept_idle (hc : committing st l = [])
    (hs : ∀ st' ∈ step commit st l, st'.store = st.store) : Kept rs st l where
  completed st' hst cs hcs hdone := ⟨cs, hs st' hst ▸ hcs, rfl, hdone⟩
  expired st' hst cs hcs he := ⟨cs, hs st' hst ▸ hcs, rfl, by simp [he]⟩
  past u hu := by simp [hc, sessionUpdates] at hu

theorem unpaid_idle (hc : committing st l = []) : Unpaid st l := by
  simp [Unpaid, hc, sessionUpdates]

theorem kept_step (h : Safely rs st) (l : Label) : Kept rs st l ↔ Unpaid st l := by
  cases hst : step commit st l with
  | none =>
    have hc := committing_idle hst
    exact iff_of_true (kept_idle hc (by simp [hst])) (unpaid_idle hc)
  | some st' =>
    have hsame : st'.store = st.store → ∀ st'' ∈ step commit st l, st''.store = st.store := by
      intro heq st'' hst''
      obtain rfl := Option.some.inj (hst.symm.trans hst'')
      exact heq
    cases step_moves hst with
    | read i k hi =>
      have hc := committing_read hi
      exact iff_of_true (kept_idle hc (hsame rfl)) (unpaid_idle hc)
    | refused i t k hi e he =>
      have hc := committing_refused hi he
      exact iff_of_true (kept_idle hc (hsame rfl)) (unpaid_idle hc)
    | answered i q k hi r => exact iff_of_true (kept_idle rfl (hsame rfl)) (unpaid_idle rfl)
    | committed i t k hi db hdb =>
      obtain ⟨call, hcall, ht⟩ := h.commit Remains.refl hi
      have hc := committing_commit hi hdb
      constructor
      · intro hk
        rw [Unpaid, hc]
        exact (completed_commit ht hdb).mp (hk.completed _ hst)
      · intro hu
        rw [Unpaid, hc] at hu
        refine ⟨fun st'' hst'' => ?_, fun st'' hst'' cs hcs he => ?_, fun u hu he => ?_⟩
        · obtain rfl := Option.some.inj (hst.symm.trans hst'')
          exact (completed_commit ht hdb).mpr hu
        · obtain rfl := Option.some.inj (hst.symm.trans hst'')
          exact expired_commit ht hdb hcs he
        · rw [hc] at hu
          obtain ⟨id, env, rfl, hpast⟩ := past_commit ht hu he
          exact ⟨id, env, hcall, hpast⟩

theorem viewing_safe (db : Db) (calls : Calls) (rs : List SessionCall) :
    Safely rs (viewing db calls rs) := by
  intro i p hp
  obtain ⟨call, hcall, rfl⟩ : ∃ call, rs[i]? = some call ∧ call.program = p := by
    simpa [viewing, List.getElem?_map] using hp
  exact (call_safe call db).weaken (fun s t ht => ⟨call, hcall, ht⟩)

def Completed (id : String) (db : Db) : Prop :=
  ∃ cs ∈ db.checkoutSessions, cs.id = id ∧ cs.status = .completed

theorem completed_apply {id : String} (s : Stmt) (db db' : Db) (h : s.apply db = .ok db')
    (hdone : Completed id db') : Completed id db ∨ completed? s = some id := by
  obtain ⟨cs, hcs, rfl, hdone⟩ := hdone
  have hsame : db'.checkoutSessions = db.checkoutSessions → Completed cs.id db :=
    fun heq => ⟨cs, heq ▸ hcs, rfl, hdone⟩
  cases s with
  | updateSession loaded dirty now =>
    cases h
    obtain ⟨old, hold, rfl⟩ := mem_updateSession.mp hcs
    split at hdone
    · next hid =>
      rw [if_pos hid]
      by_cases hs : dirty.status = loaded.status
      · exact .inl ⟨old, hold, rfl, (if_pos hs).symm.trans hdone⟩
      · have hd : dirty.status = .completed := (if_neg hs).symm.trans hdone
        exact .inr ((if_pos hd).trans (congrArg some hid.symm))
    · next hid => exact .inl ⟨old, hold, by rw [if_neg hid], hdone⟩
  | insertSession row =>
    simp only [Stmt.apply] at h
    split at h
    · split at h
      · next inserted =>
        cases h
        obtain hcs | rfl := (Table.mem_insert inserted).mp hcs
        · exact .inl ⟨cs, hcs, rfl, hdone⟩
        · exact .inr (if_pos hdone)
      · cases h
    · cases h
  | insertIntent | insertEvent | insertEntries =>
    simp only [Stmt.apply] at h
    split at h <;> cases h
    exact .inl (hsame rfl)
  | updateIntent | setProcessedAt | setProcessingError =>
    cases h
    exact .inl (hsame rfl)

theorem completed_applied {ts : List (List Stmt)} {id : String} (h : Applied commit ts db db')
    (hdone : Completed id db') : Completed id db ∨ ∃ t ∈ ts, id ∈ completions t := by
  refine h.made (fun t a b hc hd => ?_) hdone
  exact ((applied_of_commit hc).made completed_apply hd).imp_right List.mem_filterMap.mpr

/-- A view is about to expire only a session that it has not read as COMPLETED. -/
def Looked (rs : List SessionCall) (i : Nat) (db : Db) (_ : List Stmt) : Prop :=
  ∀ id env, rs[i]? = some (.getOpen id env) →
    ∀ cs ∈ db.checkoutSessions, cs.id = id → cs.status ≠ .completed

theorem call_prepared {call : SessionCall} (hi : rs[i]? = some call) (db : Db) :
    call.program.Prepared (Looked rs i) db := by
  cases call with
  | complete id env =>
    refine Program.prepared_of_forall (fun db t id' env' hi' => ?_) _ db
    rw [hi] at hi'
    cases hi'
  | getOpen id env =>
    intro db
    change (openLoaded id env (db.sessionById id)).Prepared _ db
    cases hl : db.sessionById id with
    | none => trivial
    | some cs =>
      simp only [openLoaded]
      split
      · next h =>
        refine ⟨fun id' env' hi' cs' hcs' hid => ?_, fun _ _ => trivial⟩
        obtain ⟨hcs, rfl⟩ := sessionById_some hl
        rw [hi] at hi'
        cases hi'
        rw [session_eq_of_id hcs' hcs hid, h.1]
        simp
      · trivial

abbrev WatchedCalls := Watched Db StripeCall StripeAnswer (List Stmt) Exn CheckoutSession

/-- What others have completed since a call last moved is COMPLETED still. -/
def StillCompleted (w : WatchedCalls) : Prop :=
  ∀ i, ∀ t ∈ w.since i, ∀ id ∈ completions t, Completed id w.pool.store

variable {w w' : WatchedCalls}

theorem completed_writes (ht : Writes call db t) (hc : commit t db = .ok db') {id : String}
    (hid : id ∈ completions t) : Completed id db' := by
  cases ht with
  | expired id env asked loaded named live past known => simp [completions, completed?] at hid
  | completed id' env asked loaded pending now known =>
    cases hc
    obtain rfl : id = loaded.id := by simpa [completions, completed?] using hid
    obtain ⟨cs, hcs, hcid⟩ := known
    obtain ⟨cs', hcs', hid', -, hstatus⟩ := status_updated pending.symm hcs
    exact ⟨cs', hcs', hid'.trans hcid, hstatus.trans (if_pos hcid)⟩

theorem stillCompleted_step (hs : Safely rs w.pool) (h : StillCompleted w) (hk : Kept rs w.pool l)
    (hst : watch commit w l = some w') : StillCompleted w' := by
  obtain ⟨hmove, hsince⟩ := watch_moves hst
  intro i t ht id hid
  rw [hsince] at ht
  split at ht
  · cases ht
  · obtain ht | ht := List.mem_append.mp ht
    · obtain ⟨cs, hcs, rfl, hdone⟩ := h i t ht id hid
      exact hk.completed _ hmove cs hcs hdone
    · obtain ⟨k, hi, hc⟩ := commits_of_mem hmove ht
      obtain ⟨call, -, hw⟩ := hs.commit Remains.refl hi
      exact completed_writes hw hc hid

/-- When a view commits, its session is COMPLETED exactly if somebody has completed it since the
view read it. -/
theorem unpaid_iff (hs : Safely rs w.pool) (hp : AllPrepared commit (Looked rs) w)
    (h : StillCompleted w) (l : Label) : Unpaid w.pool l ↔ NotOvertaken rs w l := by
  obtain hnone | ⟨k, hi⟩ := committing_cases w.pool l
  · exact iff_of_true (unpaid_idle hnone) (fun _ _ _ hc => absurd hnone hc)
  · obtain ⟨call, hcall, hw⟩ := hs.commit Remains.refl hi
    obtain ⟨db, hlooked, happ⟩ := hp.commit hi
    rw [Unpaid]
    generalize ht : committing w.pool l = t at hw hlooked
    cases hw with
    | completed id env asked loaded pending now known =>
      subst asked
      refine iff_of_true (by simp [sessionUpdates]) (fun id' env' hi' => ?_)
      rw [hcall] at hi'
      cases hi'
    | expired id env asked loaded named live past known =>
      subst asked named
      constructor
      · intro hunpaid id' env' hi' _ t ht hmem
        rw [hcall] at hi'
        cases hi'
        obtain ⟨cs, hcs, hid, hdone⟩ := h l.1 t ht _ hmem
        exact hunpaid _ (List.mem_singleton_self _) rfl cs hcs hid hdone
      · intro hnot u hu _ cs hcs hid hdone
        obtain rfl : u = (loaded, { loaded with status := .expired }) := by
          simpa [sessionUpdates] using hu
        obtain ⟨old, hold, hoid, hst⟩ | ⟨t, ht', hmem⟩ := completed_applied happ ⟨cs, hcs, hid, hdone⟩
        · exact hlooked _ env hcall old hold hoid hst
        · exact hnot _ env hcall (by simp [ht]) t ht' hmem

/-- Expiries and completions interleave without harm exactly when no session is completed between
the moment a view reads it and the moment the view commits. -/
theorem sessions_kept_iff (db : Db) (calls : Calls) (rs : List SessionCall) (ls : List Label) :
    Along (step commit) (Kept rs) (viewing db calls rs) ls ↔
      Along (watch commit) (NotOvertaken rs) (watching (viewing db calls rs)) ls := by
  have hprepared : AllPrepared commit (Looked rs) (watching (viewing db calls rs)) := by
    refine allPrepared_watching (fun i p hp => ?_)
    obtain ⟨call, hcall, rfl⟩ : ∃ call, rs[i]? = some call ∧ call.program = p := by
      simpa [viewing, List.getElem?_map] using hp
    exact call_prepared hcall db
  refine (along_watch (w := watching (viewing db calls rs))).symm.trans ?_
  refine along_congr (C := fun _ _ => True) (I := fun w => Safely rs w.pool ∧
    AllPrepared commit (Looked rs) w ∧ StillCompleted w) ?_ ?_ ⟨viewing_safe db calls rs, hprepared,
      fun i t ht => absurd ht List.not_mem_nil⟩ (along_of_forall (fun _ _ => trivial) _ ls)
  · rintro w l w' ⟨hs, hp, h⟩ _ hk hst
    exact ⟨safely_step hs (watch_moves hst).1, hp.step hst, stillCompleted_step hs h hk hst⟩
  · rintro w l ⟨hs, hp, h⟩ _
    exact (kept_step hs l).trans (unpaid_iff hs hp h l)

def checkedOut : Db :=
  (World.empty.afterAll [⟨.createSession "mer_1" checkout, clock 0, accepting .requiresAction⟩]).db

/-- A page view and the webhook on the session once its time is over. -/
def overlapping : List SessionCall :=
  [.getOpen "cs_s" (clock 86400000001), .complete "cs_s" (clock 86400000001)]

/-- The view has found the session past its expiry when the payment completes it, and writes
EXPIRED over COMPLETED. -/
theorem completion_overwritten :
    ¬ Along (step commit) (Kept overlapping) (viewing checkedOut [] overlapping)
        [(0, .run), (1, .run), (1, .run), (0, .run)] :=
  fun h => absurd (along_mono (fun _ _ hk => hk.completed) _ _ h) (by decide +kernel)

end SixGateway.ExpiryRace
