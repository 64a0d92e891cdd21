import SixGateway.Outcomes
import SixGateway.Library.Sightings

namespace SixGateway.Sessions

open Library Models Errors Database Schemas StripeClient PaymentService CheckoutService Queries
open Outcomes Gateway

variable {answer : StripeCall → StripeAnswer} {db : Db} {env : Env}

theorem sessionById_of_mem {cs : CheckoutSession} (h : cs ∈ db.checkoutSessions) :
    db.sessionById cs.id = some cs :=
  Table.find?_eq h (k := cs.id) (by simp [Keyed.keys]) (by simp [Keyed.keys, eq_comm])

theorem scalarOneOrNone_ok {ρ : Type} {rs : List ρ} {r : Option ρ}
    (h : scalarOneOrNone rs = .ok r) : rs = r.toList := by
  match rs with
  | [] => cases h; rfl
  | [x] => cases h; rfl
  | _ :: _ :: _ => cases h

theorem mem_sessionsByIntent {cs : CheckoutSession} {id : String} : cs ∈ db.sessionsByIntent id ↔
    cs ∈ db.checkoutSessions ∧ cs.paymentIntentId = some id := by
  simp [Db.sessionsByIntent, Table.select, Table.mem_def]

theorem findByPaymentIntent_some {id : String} {cs : CheckoutSession}
    (h : findByPaymentIntent db id = .ok (some cs)) :
    cs ∈ db.checkoutSessions ∧ cs.paymentIntentId = some id := by
  have hm : cs ∈ db.sessionsByIntent id := by
    rw [scalarOneOrNone_ok h]
    exact List.mem_singleton_self cs
  exact mem_sessionsByIntent.mp hm

theorem serve_refreshSession {cs dirty : CheckoutSession} (h : cs ∈ db.checkoutSessions)
    (hid : dirty.id = cs.id) : serve answer (refreshSession dirty) db = ⟨db, [], .ok cs⟩ := by
  have hs : db.sessionById dirty.id = some cs := hid ▸ sessionById_of_mem h
  simp [serve, refreshSession, hs]

theorem mem_updateSession {loaded dirty s : CheckoutSession} {now : Instant} :
    s ∈ (db.updateSession loaded dirty now).checkoutSessions ↔
      ∃ r ∈ db.checkoutSessions, (if r.id = loaded.id then loaded.flush dirty now r else r) = s := by
  have h : s ∈ (db.updateSession loaded dirty now).checkoutSessions ↔ _ :=
    Table.mem_modify (f := loaded.flush dirty now) (fun _ => rfl)
  simpa only [decide_eq_true_eq] using h

inductive OpenOutcome (sessionId : String) (env : Env) (db : Db) :
    Outcome Db StripeCall StripeAnswer Exn CheckoutSession → Prop
  | missing (looked : db.sessionById sessionId = none) :
      OpenOutcome sessionId env db ⟨db, [], .error (sessionNotFound sessionId)⟩
  | returned (cs : CheckoutSession) (looked : db.sessionById sessionId = some cs)
      (kept : ¬ (cs.status = .opened ∧ cs.expiresAt < env.now)) :
      OpenOutcome sessionId env db ⟨db, [], .ok cs⟩
  | expired (cs : CheckoutSession) (looked : db.sessionById sessionId = some cs)
      (open_ : cs.status = .opened) (past : cs.expiresAt < env.now) :
      OpenOutcome sessionId env db
        ⟨db.updateSession cs { cs with status := .expired } env.now, [],
          .ok (cs.flush { cs with status := .expired } env.now cs)⟩

theorem getOpenSession_outcome (sessionId : String) :
    OpenOutcome sessionId env db (serve answer (getOpenSession sessionId env) db) := by
  change OpenOutcome sessionId env db
    (serve answer (openLoaded sessionId env (db.sessionById sessionId)) db)
  cases hl : db.sessionById sessionId with
  | none => exact .missing hl
  | some cs =>
    simp only [openLoaded]
    split
    · next h =>
      have hm : cs.flush { cs with status := .expired } env.now cs ∈
          (db.updateSession cs { cs with status := .expired } env.now).checkoutSessions :=
        mem_updateSession.mpr ⟨cs, (sessionById_some hl).1, if_pos rfl⟩
      have hr : serve answer (refreshSession cs) _ = _ := serve_refreshSession hm rfl
      have hc : commit [.updateSession cs { cs with status := .expired } env.now] db =
          .ok (db.updateSession cs { cs with status := .expired } env.now) := rfl
      rw [serve, Program.exec_commit_ok hc]
      rw [serve] at hr
      rw [hr]
      exact .expired cs hl h.1 h.2
    · next h => exact .returned cs hl h

theorem sees_getOpenSession {At : Nat → Db → Prop} (sessionId : String) (env : Env) (n : Nat) :
    (getOpenSession sessionId env).Sees At
      (fun k cs => ∃ i db, n ≤ i ∧ i ≤ k ∧ At i db ∧ db.sessionById sessionId = some cs) n := by
  intro i hi db hdb
  change (openLoaded sessionId env (db.sessionById sessionId)).Sees At _ i
  cases hl : db.sessionById sessionId with
  | none => trivial
  | some row =>
    simp only [openLoaded]
    split
    · -- the row is read again after the commit, by whose time another request may have changed it
      intro k hk later hlater
      obtain rfl : row.id = sessionId := (sessionById_some hl).2
      change ∃ i' db', n ≤ i' ∧ i' ≤ k ∧ At i' db' ∧
        db'.sessionById row.id = some ((later.sessionById row.id).getD row)
      cases hr : later.sessionById row.id with
      | none => exact ⟨i, db, hi, hk, hdb, hl⟩
      | some r => exact ⟨k, later, hi.trans hk, le_rfl, hlater, hr⟩
    · exact ⟨i, db, hi, le_rfl, hdb, hl⟩

variable [StrLower]

inductive LinkOutcome (merchant : String) (payload : CheckoutSessionCreate)
    (intent : PaymentIntent) (env : Env) (db : Db) :
    Outcome Db StripeCall StripeAnswer Exn CheckoutSession → Prop
  | found (cs : CheckoutSession) (member : cs ∈ db.checkoutSessions)
      (linked : cs.paymentIntentId = some intent.id) :
      LinkOutcome merchant payload intent env db ⟨db, [], .ok cs⟩
  | refused (e : Exn) : LinkOutcome merchant payload intent env db ⟨db, [], .error e⟩
  | opened (unlinked : db.sessionsByIntent intent.id = []) (t : Table CheckoutSession)
      (inserted : db.checkoutSessions.insert (newSession merchant payload intent env) = some t) :
      LinkOutcome merchant payload intent env db
        ⟨{ db with checkoutSessions := t }, [], .ok (newSession merchant payload intent env)⟩

theorem linkSession_outcome (merchant : String) (payload : CheckoutSessionCreate)
    (intent : PaymentIntent) : LinkOutcome merchant payload intent env db
      (serve answer (linkSession merchant payload env intent) db) := by
  change LinkOutcome merchant payload intent env db (serve answer
    (sessionLooked merchant payload intent env (findByPaymentIntent db intent.id)) db)
  cases hf : findByPaymentIntent db intent.id with
  | error e => exact .refused e
  | ok found =>
    cases found with
    | some cs =>
      obtain ⟨hm, hid⟩ := findByPaymentIntent_some hf
      exact .found cs hm hid
    | none =>
      simp only [sessionLooked]
      by_cases hr : db.references (some intent.id) = true
      · cases hi : db.checkoutSessions.insert (newSession merchant payload intent env) with
        | none =>
          have hc : commit [.insertSession (newSession merchant payload intent env)] db =
              .error .integrityError := by simp [commit, Stmt.apply, hi]
          rw [serve, Program.exec_commit_error hc]
          exact .refused _
        | some t =>
          have hc : commit [.insertSession (newSession merchant payload intent env)] db =
              .ok { db with checkoutSessions := t } := by
            have hr' : db.references (newSession merchant payload intent env).paymentIntentId =
              true := hr
            simp [commit, Stmt.apply, hi, hr']
          have hs : serve answer (refreshSession (newSession merchant payload intent env))
              { db with checkoutSessions := t } = _ :=
            serve_refreshSession ((Table.mem_insert hi).mpr (.inr rfl)) rfl
          rw [serve, Program.exec_commit_ok hc]
          rw [serve] at hs
          rw [hs]
          exact .opened (scalarOneOrNone_ok hf) t hi
      · have hc : commit [.insertSession (newSession merchant payload intent env)] db =
            .error .integrityError := by simp [commit, Stmt.apply, newSession, hr]
        rw [serve, Program.exec_commit_error hc]
        exact .refused _

/-- Every way in which `create_session` can end: its body is refused, `create_intent` raises, or
the session of the intent it returns is looked up. -/
inductive SessionOutcome (merchant : String) (payload : CheckoutSessionCreate) (env : Env)
    (answer : StripeCall → StripeAnswer) (db : Db) :
    Outcome Db StripeCall StripeAnswer Exn CheckoutSession → Prop
  | invalid (e : Exn) (body : intentPayload payload = .error e) :
      SessionOutcome merchant payload env answer db ⟨db, [], .error e⟩
  | stopped (p : PaymentIntentCreate) (body : intentPayload payload = .ok p)
      (store : Db) (calls : List (StripeCall × StripeAnswer)) (e : Exn)
      (creates : CreateOutcome p (some merchant) env answer db ⟨store, calls, .error e⟩) :
      SessionOutcome merchant payload env answer db ⟨store, calls, .error e⟩
  | linked (p : PaymentIntentCreate) (body : intentPayload payload = .ok p)
      (store : Db) (calls : List (StripeCall × StripeAnswer)) (intent : PaymentIntent)
      (creates : CreateOutcome p (some merchant) env answer db ⟨store, calls, .ok intent⟩)
      (out : Outcome Db StripeCall StripeAnswer Exn CheckoutSession)
      (links : LinkOutcome merchant payload intent env store out) :
      SessionOutcome merchant payload env answer db ⟨out.store, calls ++ out.calls, out.result⟩

theorem createSession_outcome (merchant : String) (payload : CheckoutSessionCreate) :
    SessionOutcome merchant payload env answer db
      (serve answer (createSession merchant payload env) db) := by
  unfold createSession
  cases hb : intentPayload payload with
  | error e => exact .invalid e hb
  | ok p =>
    simp only [Program.ofExcept, Program.bind]
    rw [serve, Program.exec_bind]
    have hc : CreateOutcome p (some merchant) env answer db (Program.exec commit answer _ db) :=
      createIntent_outcome p (some merchant)
    generalize Program.exec commit answer (createIntent p (some merchant) env) db = o at hc ⊢
    obtain ⟨store, calls, result⟩ := o
    cases result with
    | error e => exact .stopped p hb store calls e hc
    | ok intent =>
      exact .linked p hb store calls intent hc _ (linkSession_outcome merchant payload intent)

end SixGateway.Sessions
