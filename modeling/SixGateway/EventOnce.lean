import SixGateway.DeliveryRace
import SixGateway.StripeContract

namespace SixGateway.EventOnce

open Library Library.Run Library.Pool Models Errors Database StripeClient PaymentService Webhook
open Queries Gateway Deliveries Effects StripeContract Concurrency Transactions Redelivery
open DeliveryRace

/-- A transaction of a delivery that has gone through. -/
structure Committed where
  env : Env
  before : Db
  after : Db

/-- Any number of deliveries of one event, with the transactions they have committed so far. A
delivery that has died is one that never moves again. -/
structure Deliveries where
  pool : Handlers WebhookReply
  commits : List Committed

section

variable [StrLower]

inductive Move where
  | run (i : Nat)
  | raises (i : Nat) (exn : Exn)
  | request (r : Request)

/-- Where a delivery can still raise. -/
def live (s : Deliveries) (i : Nat) : Bool :=
  match s.pool.threads[i]? with
  | some (.read _) | some (.commit _ _) => true
  | _ => false

/-- One node of a delivery; a raise in a delivery, which rolls back what it has not committed and
goes on with the `except` branch; or a confirm, a cancel or a refund, served in one piece. -/
def move (event : StripeEvent) (envs : List Env) (s : Deliveries) : Move → Option Deliveries
  | .run i =>
    match step commit s.pool (i, .run) with
    | none => none
    | some pool => some ⟨pool, s.commits ++
        if (committing s.pool (i, .run)).isEmpty then []
        else (envs[i]?.map (fun env => ⟨env, s.pool.store, pool.store⟩)).toList⟩
  | .raises i exn =>
    if live s i then
      some ⟨⟨s.pool.store, s.pool.calls, s.pool.threads.set i (failed event exn)⟩, s.commits⟩
    else none
  | .request r =>
    if OnIntent r.op then
      let o := r.outcome ⟨s.pool.store, s.pool.calls⟩
      some ⟨⟨o.store, s.pool.calls ++ o.calls, s.pool.threads⟩, s.commits⟩
    else none

def deliveries (db : Db) (calls : Calls) (event : StripeEvent) (envs : List Env) : Deliveries :=
  ⟨⟨db, calls, envs.map (stripeWebhook event)⟩, []⟩

def uninterrupted (event : StripeEvent) (env : Env) (db : Db) : Db :=
  (serve (fun _ => .error "") (stripeWebhook event env) db).store

/-- The event has taken effect at most once, and once a delivery has returned, the one commit that
has done so has done what an uninterrupted delivery does at that point. -/
structure TookEffect (event : StripeEvent) (s : Deliveries) : Prop where
  once : s.commits.Pairwise
    (fun c c' => SameTables c.before c.after ∨ SameTables c'.before c'.after)
  finished : ∀ reply, .ret reply ∈ s.pool.threads → ∃ pre c post, s.commits = pre ++ c :: post ∧
    SameTables (uninterrupted event c.env c.before) c.after ∧
    ∀ c' ∈ pre ++ post, SameTables c'.before c'.after

/-- Where a delivery commits, its intent has not become SUCCEEDED since the delivery read it. -/
def Unraced (s : Deliveries) : Move → Prop
  | .run i => NotStale s.pool.store (committing s.pool (i, .run))
  | .raises .. => True
  | .request _ => True

instance (s : Deliveries) : (l : Move) → Decidable (Unraced s l)
  | .run i => inferInstanceAs (Decidable (NotStale s.pool.store (committing s.pool (i, .run))))
  | .raises .. => isTrue trivial
  | .request _ => isTrue trivial

variable {event : StripeEvent} {env : Env} {envs : List Env} {s s' : Deliveries} {l : Move}
  {db db' : Db} {cs : List Committed}

/-- The commits so far, told apart by whether the row of the event is there. -/
structure Logged (event : StripeEvent) (db : Db) (cs : List Committed) : Prop where
  absent : ¬ Present event db → ∀ c ∈ cs, SameTables c.before c.after
  present : Present event db → ∃ pre c post, cs = pre ++ c :: post ∧
    SameTables (uninterrupted event c.env c.before) c.after ∧
    ∀ c' ∈ pre ++ post, SameTables c'.before c'.after

theorem Logged.moved (h : Logged event db cs) (hiff : Present event db' ↔ Present event db) :
    Logged event db' cs :=
  ⟨fun hn => h.absent (fun hp => hn (hiff.mpr hp)), fun hp => h.present (hiff.mp hp)⟩

theorem uninterrupted_dispatched (hn : ¬ Present event db) {d : Db}
    (hd : dispatched event env (opened db event) = .ok d) :
    SameTables (uninterrupted event env db) d := by
  have hs : uninterrupted event env db = d.setProcessedAt event.id env.now := by
    rw [uninterrupted, stripeWebhook_serves]
    simp only [not_present_iff.mp hn, handled, hd]
  rw [hs]
  exact ⟨rfl, rfl, rfl⟩

theorem Logged.committed (h : Logged event db cs) (he : Exact event env db db') :
    Logged event db' (cs ++ [⟨env, db, db'⟩]) := by
  obtain ⟨hn, hp, d, hd, hs⟩ | ⟨hiff, hs⟩ := he
  · refine ⟨fun hn' => absurd hp hn', fun _ => ⟨cs, _, [], rfl,
      (uninterrupted_dispatched hn hd).trans hs, ?_⟩⟩
    rw [List.append_nil]
    exact h.absent hn
  · refine ⟨fun hn c hc => ?_, fun hp => ?_⟩
    · obtain hc | hc := List.mem_append.mp hc
      · exact h.absent (fun hp => hn (hiff.mpr hp)) c hc
      · rw [List.mem_singleton.mp hc]
        exact hs
    · obtain ⟨pre, c, post, rfl, hc, hrest⟩ := h.present (hiff.mp hp)
      refine ⟨pre, c, post ++ [⟨env, db, db'⟩], by simp, hc, fun c' hc' => ?_⟩
      rw [← List.append_assoc] at hc'
      obtain hc' | hc' := List.mem_append.mp hc'
      · exact hrest c' hc'
      · rw [List.mem_singleton.mp hc']
        exact hs

def CommitsAt (event : StripeEvent) (envs : List Env) (i : Nat) (db : Db) (t : List Stmt) : Prop :=
  ∃ env, envs[i]? = some env ∧ CommitsExactly event env db t

structure Delivering (event : StripeEvent) (envs : List Env) (s : Deliveries) : Prop where
  size : s.pool.threads.length = envs.length
  safe : AllSafe commit (Rely event) (fun _ _ => True) (fun _ => NotStale) (CommitsAt event envs)
    (fun _ => Present event) s.pool
  idle : Present event s.pool.store → Idle event s.pool.store
  logged : Logged event s.pool.store s.commits

omit [StrLower] in
theorem pairwise_one {P : Committed → Prop} {pre post : List Committed} {c : Committed}
    (h : ∀ c' ∈ pre ++ post, P c') : (pre ++ c :: post).Pairwise (fun a b => P a ∨ P b) := by
  have hpre : ∀ c' ∈ pre, P c' := fun c' hc' => h c' (List.mem_append_left _ hc')
  have hpost : ∀ c' ∈ post, P c' := fun c' hc' => h c' (List.mem_append_right _ hc')
  rw [List.pairwise_append, List.pairwise_cons]
  refine ⟨?_, ⟨fun b hb => .inr (hpost b hb), ?_⟩, fun a ha b _ => .inl (hpre a ha)⟩
  · exact List.pairwise_of_forall_mem_list (fun a ha b _ => .inl (hpre a ha))
  · exact List.pairwise_of_forall_mem_list (fun a ha b _ => .inl (hpost a ha))

theorem Delivering.tookEffect (h : Delivering event envs s) : TookEffect event s := by
  refine ⟨?_, fun reply hr => h.logged.present (h.safe.returned (Rely.refl event) hr)⟩
  by_cases hp : Present event s.pool.store
  · obtain ⟨pre, c, post, heq, -, hrest⟩ := h.logged.present hp
    rw [heq]
    exact pairwise_one hrest
  · exact List.pairwise_of_forall_mem_list (fun c hc _ _ => .inl (h.logged.absent hp c hc))

theorem delivering_run (h : Delivering event envs s) {i : Nat} (hu : Unraced s (.run i))
    (hst : move event envs s (.run i) = some s') : Delivering event envs s' := by
  simp only [move] at hst
  split at hst
  · cases hst
  · next pool hpool =>
    cases hst
    have hm : Meets commit (fun _ _ => True) (fun _ => NotStale) s.pool (i, .run) := by
      intro t k db hi hdb
      rwa [Unraced, committing_commit hi hdb] at hu
    have hg : ∀ i db t db', CommitsAt event envs i db t → NotStale db t → commit t db = .ok db' →
        Rely event db db' := by
      rintro i db t db' ⟨env, -, hex⟩ hns hc
      exact (hex db' hc hns).rely
    obtain ⟨hsafe, hrely⟩ := step_safe (Rely.refl event) (Rely.trans event) hg h.safe hm hpool
    refine ⟨?_, hsafe, hrely.idle h.idle, ?_⟩
    · rw [← h.size]
      cases step_moves hpool <;> simp
    cases step_moves hpool with
    | read i k hi =>
      simp only [committing_read hi, List.isEmpty_nil, if_true, List.append_nil]
      exact h.logged
    | committed i t k hi db hdb =>
      obtain ⟨env, henv, hex⟩ := h.safe.commit (Rely.refl event) hi
      rw [Unraced, committing_commit hi hdb] at hu
      rw [committing_commit hi hdb]
      cases t with
      | nil =>
        cases hdb
        simpa using h.logged
      | cons x t =>
        simp only [List.isEmpty_cons, henv, Option.map_some, Option.toList_some]
        exact h.logged.committed (hex db hdb hu)
    | refused i t k hi e he =>
      simp only [committing_refused hi he, List.isEmpty_nil, if_true, List.append_nil]
      exact h.logged

theorem delivery_safe {α : Type} {Post : α → Db → Prop} {p : Service α} {i : Nat}
    (hi : ∃ env, envs[i]? = some env) (hp : ∀ env, SafeFor event env Post p db) :
    Program.Safe commit (Rely event) (fun _ _ => True) NotStale (CommitsAt event envs i) Post p
      db := by
  obtain ⟨env, henv⟩ := hi
  exact (hp env).weaken (fun db t ht => ⟨env, henv, ht⟩)

theorem delivering_env (h : Delivering event envs s) {i : Nat} (hl : live s i) :
    ∃ env, envs[i]? = some env := by
  have hlt : i < s.pool.threads.length := by
    by_contra hn
    simp [live, List.getElem?_eq_none (Nat.not_lt.mp hn)] at hl
  exact ⟨_, List.getElem?_eq_getElem (h.size ▸ hlt)⟩

theorem delivering_move (h : Delivering event envs s) (hu : Unraced s l)
    (hst : move event envs s l = some s') : Delivering event envs s' := by
  cases l with
  | run i => exact delivering_run h hu hst
  | raises i exn =>
    simp only [move] at hst
    split at hst
    · next hlive =>
      cases hst
      exact ⟨by simpa using h.size, h.safe.set (delivery_safe (delivering_env h hlive)
        (fun env => DeliveryRace.failed_safe exn _)) _, h.idle, h.logged⟩
    · cases hst
  | request r =>
    simp only [move] at hst
    split at hst
    · next hop =>
      cases hst
      have hrely : Rely event s.pool.store _ := request_rely hop ⟨s.pool.store, s.pool.calls⟩
      refine ⟨h.size, h.safe.mono (Rely.trans event) hrely _, hrely.idle h.idle, h.logged.moved ?_⟩
      have hev := webhookEvents_after (r := r) (by
        rintro e he
        rw [he] at hop
        exact hop) ⟨s.pool.store, s.pool.calls⟩
      simp only [Present]
      rw [← hev]
      rfl
    · cases hst

/-- However often an event is delivered, however its deliveries overlap, raise or die, and
whatever confirms, cancels and refunds are served in between: it takes effect once, as an
uninterrupted delivery would, if no capture is committed to a row that has become SUCCEEDED since
it was read. -/
theorem event_takes_effect_once (hnew : ¬ Present event db) (calls : Calls) (envs : List Env)
    (ls : List Move) (unraced : Along (move event envs) Unraced (deliveries db calls event envs) ls) :
    Always (move event envs) (TookEffect event) (deliveries db calls event envs) ls := by
  have hstart : Delivering event envs (deliveries db calls event envs) := by
    refine ⟨by simp [deliveries], fun i p hp => ?_, fun hp => absurd hp hnew,
      ⟨fun _ => by simp [deliveries], fun hp => absurd hp hnew⟩⟩
    obtain ⟨env, henv, rfl⟩ : ∃ env, envs[i]? = some env ∧ stripeWebhook event env = p := by
      simpa [deliveries, List.getElem?_map] using hp
    exact (deliver_exact (fun hp => absurd hp hnew)).weaken (fun db t ht => ⟨env, henv, ht⟩)
  exact always_mono (fun _ h => h.tookEffect) _ _
    (always_of_invariant (fun _ _ _ h hu hst => delivering_move h hu hst) hstart unraced)

end

def ordered : World :=
  World.empty.after ⟨.createIntent order (some "mer_1"), clock 0, accepting .requiresAction⟩

def delivered : Deliveries := deliveries ordered.db ordered.calls (paid "evt_1") [clock 1, clock 3]

def confirming (status : PaymentIntentStatus) : Move :=
  .request ⟨.confirmIntent "pi_local_i" confirmation, clock 2, accepting status⟩

def returned (s : Deliveries) (i : Nat) : Bool :=
  match s.pool.threads[i]? with
  | some (.ret _) => true
  | _ => false

theorem returned_reply {s : Deliveries} {i : Nat} (h : returned s i) :
    ∃ reply, .ret reply ∈ s.pool.threads := by
  unfold returned at h
  split at h
  · next reply hi => exact ⟨reply, List.mem_of_getElem? hi⟩
  · cases h

/-- A confirmation answered `succeeded` is committed between the reading and the commit of a
delivery: the delivery captures, which an uninterrupted one would not do there. -/
theorem event_raced :
    let ls := [.run 0, .run 0, confirming .succeeded, .run 0, .run 0]
    ¬ Present (paid "evt_1") ordered.db ∧
      ¬ Always (move (paid "evt_1") [clock 1, clock 3]) (TookEffect (paid "evt_1")) delivered ls := by
  intro ls
  refine ⟨by rw [not_present_iff]; rfl, fun h => ?_⟩
  obtain ⟨s, hs⟩ : ∃ s, run (move (paid "evt_1") [clock 1, clock 3]) delivered ls = some s :=
    Option.isSome_iff_exists.mp (by decide +kernel)
  have hend : ∀ s ∈ run (move (paid "evt_1") [clock 1, clock 3]) delivered ls, returned s 0 ∧
      ∀ c ∈ s.commits, c.after.ledgerEntries.length ≠
        (uninterrupted (paid "evt_1") c.env c.before).ledgerEntries.length := by
    decide +kernel
  obtain ⟨hret, hdiff⟩ := hend s hs
  obtain ⟨reply, hr⟩ := returned_reply hret
  obtain ⟨pre, c, post, heq, hc, -⟩ := (always_end h hs).finished reply hr
  exact hdiff c (by simp [heq]) (congrArg List.length hc.ledger)

/-- The gateway once a hosted checkout has been created. -/
def checkedOut : World :=
  World.empty.after ⟨.createSession "mer_1" checkout, clock 0, accepting .requiresAction⟩

def thrice : List Env := [clock 1, clock 3, clock 4]

/-- The first delivery raises before its commit, the second dies after the commit that completes the
session, and the third finds the event there, not processed, and finishes. -/
theorem event_takes_effect_once_retried :
    Always (move (paid "evt_1") thrice) (TookEffect (paid "evt_1"))
      (deliveries checkedOut.db checkedOut.calls (paid "evt_1") thrice)
      [.run 0, .run 0, .run 0, confirming .requiresAction, .raises 0 (.keyError "id"), .run 0,
        .run 1, .run 1, .run 1, .run 1, .run 2, .run 2, .run 2, .run 2] := by
  refine event_takes_effect_once (by rw [not_present_iff]; rfl) _ _ _ ?_
  decide +kernel

end SixGateway.EventOnce
