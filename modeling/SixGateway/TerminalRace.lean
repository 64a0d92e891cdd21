import SixGateway.StripeContract
import SixGateway.Transactions

namespace SixGateway.TerminalRace

open Library Library.Run Library.Pool Models Errors Database StripeClient LedgerService
open PaymentService Gateway Queries Effects StripeContract Concurrency Transactions

def Terminal (s : PaymentIntentStatus) : Prop := s = .succeeded ∨ s = .canceled

/-- A move commits no other status for an intent that is SUCCEEDED or CANCELED. -/
def Kept (st : Handlers Reply) (l : Label) : Prop :=
  ∀ st' ∈ step commit st l, ∀ p ∈ st.store.paymentIntents, Terminal p.status →
    ∃ q ∈ st'.store.paymentIntents, q.id = p.id ∧ q.status = p.status

section

variable [StrLower]

/-- The requests that write the status of Stripe's answer. -/
def WritesStatus : Op → Bool
  | .confirmIntent .. | .cancelIntent .. => true
  | _ => false

def succeededIds (rs : List (Op × Env)) : List String :=
  rs.filterMap fun r =>
    match r.1 with
    | .deliver event => if event.type = "payment_intent.succeeded" then event.object.id else none
    | _ => none

/-- What is assumed of Stripe: it answers in lawful statuses, and accepts no cancel of an intent
for which it emits a succeeded event. -/
def Exclusive (rs : List (Op × Env)) (st : Handlers Reply) (l : Label) : Prop :=
  ∀ c ∈ granting st l, Answers c.1 c.2 ∧
    ∀ stripeId ∈ succeededIds rs, ¬ CancelAccepted [(c.1, .ok c.2)] stripeId

def Unemitted (rs : List (Op × Env)) (db : Db) : Prop :=
  ∀ p ∈ db.paymentIntents, p.status = .canceled →
    ∀ stripeId ∈ succeededIds rs, p.stripePaymentIntentId ≠ some stripeId

/-- A confirm or a cancel whose row is terminal at its commit has read it with that status. -/
def ReadsTerminal (rs : List (Op × Env)) (i : Nat) (db : Db) (t : List Stmt) : Prop :=
  ∀ r ∈ rs[i]?, WritesStatus r.1 → ∀ u ∈ updates t, ∀ p ∈ db.paymentIntents,
    p.id = u.1.id → Terminal p.status → u.1.status = p.status

/-- No terminal status is committed between the reading and the commit of a confirm or a cancel. -/
def Fresh (rs : List (Op × Env)) (st : Handlers Reply) (l : Label) : Prop :=
  ReadsTerminal rs l.1 st.store (committing st l)

instance : DecidablePred Terminal := fun s => inferInstanceAs (Decidable (s = _ ∨ s = _))

instance (st : Handlers Reply) (l : Label) : Decidable (Kept st l) :=
  inferInstanceAs (Decidable (∀ st' ∈ step commit st l, ∀ p ∈ st.store.paymentIntents, _ →
    ∃ q ∈ st'.store.paymentIntents, _))

instance (rs : List (Op × Env)) (st : Handlers Reply) (l : Label) : Decidable (Fresh rs st l) :=
  inferInstanceAs (Decidable (∀ r ∈ rs[l.1]?, _ → ∀ u ∈ updates (committing st l),
    ∀ p ∈ st.store.paymentIntents, _ → _ → _))

instance (rs : List (Op × Env)) (st : Handlers Reply) (l : Label) : Decidable (Exclusive rs st l) :=
  inferInstanceAs (Decidable (∀ c ∈ granting st l, _ ∧ ∀ stripeId ∈ succeededIds rs, _))

instance (rs : List (Op × Env)) (db : Db) : Decidable (Unemitted rs db) :=
  inferInstanceAs (Decidable (∀ p ∈ db.paymentIntents, _ → ∀ stripeId ∈ succeededIds rs, _))

variable {rs : List (Op × Env)} {st st' : Handlers Reply} {l : Label} {db db' : Db}
  {t : List Stmt} {i : Nat} {loaded dirty p : PaymentIntent} {es : List LedgerEntry} {calls : Calls}

def Granted (rs : List (Op × Env)) (q : StripeCall) (a : StripeAnswer) : Prop :=
  ∀ o, a = .ok o → Answers q o ∧ ∀ stripeId ∈ succeededIds rs, ¬ CancelAccepted [(q, .ok o)] stripeId

theorem mem_succeededIds {r : Op × Env} (hr : r ∈ rs) {event : StripeEvent}
    (hop : r.1 = .deliver event) {stripeId : String} (he : SucceededEvent event stripeId) :
    stripeId ∈ succeededIds rs :=
  List.mem_filterMap.mpr ⟨r, hr, by simp [hop, he.1, he.2]⟩

omit [StrLower] in
theorem status_committed (h : commit t db = .ok db') (ht : Touches t [(loaded, dirty)] es)
    (hp : p ∈ db.paymentIntents) : ∃ q ∈ db'.paymentIntents, q.id = p.id ∧
      q.status = if p.id = loaded.id ∧ dirty.status ≠ loaded.status then dirty.status
        else p.status := by
  obtain ⟨now, hnow⟩ := commit_updated h ht
  have hm := (@mem_updateIntent db _ loaded dirty now).mpr ⟨p, hp, rfl⟩
  rw [← hnow] at hm
  refine ⟨_, hm, ?_, ?_⟩
  · split <;> rfl
  · by_cases hid : p.id = loaded.id <;> by_cases hs : dirty.status = loaded.status <;>
      simp [hid, hs, PaymentIntent.flush]

theorem unemitted_commit (h : Unemitted rs db) (ht : CommitsOf (Granted rs) rs i db t)
    (hc : commit t db = .ok db') : Unemitted rs db' := by
  obtain ⟨r, hr, ht⟩ := ht
  intro q hq hst stripeId hid
  cases ht with
  | aside touches => exact h q (commit_untouched hc touches ▸ hq) hst stripeId hid
  | change answer loaded dirty es calls does answered touches known =>
    obtain ⟨hq, -⟩ | ⟨p, hp, hpid, now, rfl⟩ := mem_committed hc touches hq
    · exact h q hq hst stripeId hid
    · by_cases hs : dirty.status = loaded.status
      · exact h p hp ((if_pos hs).symm.trans hst) stripeId hid
      · have hd : dirty.status = .canceled := (if_neg hs).symm.trans hst
        obtain ⟨p', hp', hpid', hps⟩ := known
        obtain rfl := eq_of_id hp hp' (hpid.trans hpid'.symm)
        rw [flush_stripeId, hps]
        cases does with
        | confirmed id payload asked named live sid stripe o ans status parsed =>
          have ha := (answered _ o (List.mem_singleton_self _) o rfl).1
          exact absurd hd (ne_of_value parsed ha)
        | canceled id payload asked named pending sid stripe o ans status parsed positive =>
          have ha := (answered _ o (List.mem_singleton_self _) o rfl).2 stripeId hid
          rw [truthy_some stripe]
          rintro ⟨⟩
          exact ha ⟨_, _, o, List.mem_singleton_self _⟩
        | captured => cases hd
        | refunded => exact absurd rfl hs

/-- What a request commits keeps the terminal statuses, if it has read none but the committed ones:
it has checked the status that it has read. -/
theorem kept_commit (h : Unemitted rs db) (ht : CommitsOf (Granted rs) rs i db t)
    (hfresh : ReadsTerminal rs i db t) (hc : commit t db = .ok db') (hp : p ∈ db.paymentIntents)
    (hterm : Terminal p.status) : ∃ q ∈ db'.paymentIntents, q.id = p.id ∧ q.status = p.status := by
  obtain ⟨r, hr, ht⟩ := ht
  cases ht with
  | aside touches => exact ⟨p, commit_untouched hc touches ▸ hp, rfl, rfl⟩
  | change answer loaded dirty es calls does answered touches known =>
    obtain ⟨q, hq, hqid, hqs⟩ := status_committed hc touches hp
    refine ⟨q, hq, hqid, hqs.trans (ite_eq_right_iff.mpr ?_)⟩
    rintro ⟨hid, hs⟩
    have hread : WritesStatus r.1 → loaded.status = p.status := fun hw =>
      hfresh r hr hw (loaded, dirty) (by rw [touches.updates]; exact List.mem_singleton_self _) p hp
        hid hterm
    cases does with
    | confirmed id payload asked named live =>
      have hl : Terminal loaded.status := hread (by rw [show r.1 = _ from asked]; rfl) ▸ hterm
      exact absurd (hl.elim (fun h => by simp [h]) (fun h => by simp [h])) live
    | canceled id payload asked named pending =>
      have hl : Terminal loaded.status := hread (by rw [show r.1 = _ from asked]; rfl) ▸ hterm
      exact (hl.elim pending.2 pending.1).elim
    | captured event asked succeeded stripeId named stripe =>
      obtain ⟨p', hp', hpid', hps⟩ := known
      obtain rfl := eq_of_id hp hp' (hid.trans hpid'.symm)
      refine hterm.elim Eq.symm (fun hcanceled => ?_)
      have hm := mem_succeededIds (List.mem_of_getElem? hr) asked ⟨succeeded, named⟩
      exact absurd (hps.trans stripe) (h p hp hcanceled stripeId hm)
    | refunded => exact absurd rfl hs

def Safely (rs : List (Op × Env)) (st : Handlers Reply) : Prop :=
  AllSafe commit Keeps (Granted rs) (fun _ _ _ => True) (CommitsOf (Granted rs) rs)
    (fun _ _ => True) st ∧
    Unemitted rs st.store

theorem safely_step (h : Safely rs st) (he : Exclusive rs st l) (hst : step commit st l = some st') :
    Safely rs st' := by
  have hm : Meets commit (Granted rs) (fun _ _ _ => True) st l := meets_of he trivial
  refine ⟨(step_safe Keeps.refl Keeps.trans (fun i db t db' ht _ hc => ht.keeps hc) h.1 hm hst).1, ?_⟩
  have hJ : ∀ i db t db', Unemitted rs db → CommitsOf (Granted rs) rs i db t → True →
      commit t db = .ok db' → Unemitted rs db' := fun _ _ _ _ hu ht _ hc => unemitted_commit hu ht hc
  exact step_commits Keeps.refl hJ h.1 h.2 hm hst

theorem kept_step (h : Safely rs st) (hfresh : Fresh rs st l) : Kept st l := by
  intro st' hst p hp hterm
  cases step_moves hst with
  | read | refused | answered => exact ⟨p, hp, rfl, rfl⟩
  | committed i t k hi db hdb =>
    rw [Fresh, committing_commit hi hdb] at hfresh
    exact kept_commit h.2 (h.1.commit Keeps.refl hi) hfresh hdb hp hterm

omit [StrLower] in
theorem rows_refl (db : Db) : KeepsBy Eq db db := fun p hp => ⟨p, hp, rfl⟩

theorem readsTerminal_of_commits {op : Op} {env : Env}
    (ht : CommitsBy Eq (fun _ _ => True) op env db t) : ReadsTerminal rs i db t := by
  intro r _ _ u hu p hp hid _
  cases ht with
  | aside touches =>
    rw [touches.updates] at hu
    cases hu
  | change answer loaded dirty es calls does answered touches known =>
    rw [touches.updates] at hu
    obtain rfl := List.mem_singleton.mp hu
    obtain ⟨q, hq, rfl⟩ := known
    rw [eq_of_id hp hq hid]

theorem readsTerminal_safe {r : Op × Env} (hr : rs[i]? = some r) (db : Db) :
    Program.Safe commit (KeepsBy Eq) (fun _ _ => True) (fun _ _ => True) (ReadsTerminal rs i)
      (fun _ _ => True) (r.1.program r.2) db := by
  obtain ⟨op, env⟩ := r
  have hother : WritesStatus op = false → Program.Safe commit (KeepsBy Eq) (fun _ _ => True)
      (fun _ _ => True) (ReadsTerminal rs i) (fun _ _ => True) (op.program env) db := by
    refine fun hw => Program.safe_of_forall (fun db t r hr' hw' => ?_) (fun _ _ => trivial) _ db
    obtain rfl := Option.some.inj (hr.symm.trans hr')
    rw [hw] at hw'
    cases hw'
  have hby : ∀ {α : Type} (p : Service α) (f : α → Reply),
      SafeBy Eq (fun _ _ => True) (fun _ _ => True) op env p db →
      Program.Safe commit (KeepsBy Eq) (fun _ _ => True) (fun _ _ => True) (ReadsTerminal rs i)
        (fun _ _ => True) (p.bind (fun a => .ret (f a))) db := by
    intro α p f hp
    have hbind : SafeBy Eq (fun _ _ => True) (fun _ _ => True) op env
        (p.bind (fun a => .ret (f a))) db := hp.bind rows_refl (fun _ _ _ _ _ => trivial)
    exact hbind.weaken (fun db t ht => readsTerminal_of_commits ht)
  cases op with
  | confirmIntent id payload => exact hby _ _ (confirm_safe id payload db)
  | cancelIntent id payload => exact hby _ _ (cancel_safe id payload db)
  | createIntent | createSession | refundIntent | deliver | getOpenSession => exact hother rfl

/-- Where requests are served one after another, a row is at a commit as the request has read it. -/
theorem fresh_of_serial {calls : Calls} {ls : List Label} (hserial : Serial ls) :
    Along (step commit) (Fresh rs) (serving db calls rs) ls := by
  have hsafe : ∀ i p, (serving db calls rs).threads[i]? = some p → ∀ db, Program.Safe commit
      (KeepsBy Eq) (fun _ _ => True) (fun _ _ => True) (ReadsTerminal rs i) (fun _ _ => True) p db := by
    intro i p hp db
    obtain ⟨r, hr, rfl⟩ : ∃ r, rs[i]? = some r ∧ r.1.program r.2 = p := by
      simpa [serving, List.getElem?_map] using hp
    exact readsTerminal_safe hr db
  have halong := serial_commits (C := fun _ _ _ => True) rows_refl hsafe hserial (along_of_forall
    (meets_of_forall (fun _ _ _ => trivial) (fun _ _ => trivial)) _ _)
  refine along_mono (fun st l h => ?_) _ _ halong
  obtain hnone | ⟨k, hi⟩ := committing_cases st l
  · rw [Fresh, hnone]
    simp [ReadsTerminal, updates]
  · exact h _ k hi

/-- Terminal statuses are kept by every move of an interleaving in which no confirm and no cancel
commits to a row that has become terminal since it was read; so they are where requests are served
one after another. -/
theorem terminal_kept (hrs : ∀ r ∈ rs, Later r.1) (h : Unemitted rs db) (calls : Calls)
    (ls : List Label) (exclusive : Along (step commit) (Exclusive rs) (serving db calls rs) ls) :
    (Along (step commit) (Fresh rs) (serving db calls rs) ls →
      Along (step commit) Kept (serving db calls rs) ls) ∧
    (Serial ls → Along (step commit) (Fresh rs) (serving db calls rs) ls) := by
  refine ⟨fun hfresh => ?_, fresh_of_serial⟩
  exact along_of_invariant (I := Safely rs) (fun _ _ _ hs he hst => safely_step hs he.1 hst)
    (fun _ _ hs he => kept_step hs he.2) ⟨serving_safe hrs db calls, h⟩
    (along_and _ _ exclusive hfresh)

end

def started : World :=
  World.empty.after ⟨.createIntent order (some "mer_1"), clock 0, accepting .requiresAction⟩

def confirmAndDeliver : List (Op × Env) :=
  [(.confirmIntent "pi_local_i" confirmation, clock 1), (.deliver (paid "evt_1"), clock 2)]

def requiresAction : Act StripeAnswer :=
  .answer (.ok ⟨"pi_1", PaymentIntentStatus.requiresAction.value, none⟩)

/-- The event commits between the reading and the commit of a confirm, and the status goes back. -/
theorem terminal_regresses :
    let ls := [(0, .run), (0, requiresAction), (1, .run), (1, .run), (1, .run), (1, .run), (0, .run)]
    Unemitted confirmAndDeliver started.db ∧
      Along (step commit) (Exclusive confirmAndDeliver)
        (serving started.db started.calls confirmAndDeliver) ls ∧
      ¬ Along (step commit) Kept (serving started.db started.calls confirmAndDeliver) ls := by
  decide +kernel

/-- The event commits after the confirm. -/
theorem terminal_kept_order :
    let ls := [(0, .run), (0, requiresAction), (0, .run), (1, .run), (1, .run), (1, .run), (1, .run)]
    Along (step commit) Kept (serving started.db started.calls confirmAndDeliver) ls :=
  (terminal_kept (by simp [confirmAndDeliver, Later]) (by decide +kernel) _ _
    (by decide +kernel)).1 (by decide +kernel)

end SixGateway.TerminalRace
