import SixGateway.Concurrency
import SixGateway.Effects

namespace SixGateway.Transactions

open Library Models Errors Database Schemas StripeClient LedgerService PaymentService
open CheckoutService Webhook Queries Bookings Gateway Effects Concurrency

def entriesOf (t : List Stmt) : List LedgerEntry :=
  t.flatMap fun s =>
    match s with
    | .insertEntries es => es
    | _ => []

/-- All that a transaction does to the intents and the ledger. -/
structure Touches (t : List Stmt) (us : List (PaymentIntent × PaymentIntent))
    (es : List LedgerEntry) : Prop where
  updates : updates t = us
  entries : entriesOf t = es
  creates : ∀ row, .insertIntent row ∉ t

def Keeps (db db' : Db) : Prop :=
  ∀ p ∈ db.paymentIntents, ∃ q ∈ db'.paymentIntents,
    q.id = p.id ∧ q.stripePaymentIntentId = p.stripePaymentIntentId

/-- What `R` says of a row and of what becomes of it holds whatever is written. -/
structure Stable (R : PaymentIntent → PaymentIntent → Prop) : Prop where
  refl : ∀ p, R p p
  trans : ∀ p q r, R p q → R q r → R p r
  flush : ∀ loaded dirty now p, R p (PaymentIntent.flush loaded dirty now p)

/-- The rows of a store are still there, as far as `R` tells. -/
def KeepsBy (R : PaymentIntent → PaymentIntent → Prop) (db db' : Db) : Prop :=
  ∀ p ∈ db.paymentIntents, ∃ q ∈ db'.paymentIntents, R p q

def SameNames (p q : PaymentIntent) : Prop :=
  q.id = p.id ∧ q.stripePaymentIntentId = p.stripePaymentIntentId

variable {t t' : List Stmt} {us us' : List (PaymentIntent × PaymentIntent)}
  {es es' : List LedgerEntry} {db db' : Db} {loaded dirty : PaymentIntent}

theorem Touches.append (h : Touches t us es) (h' : Touches t' us' es') :
    Touches (t ++ t') (us ++ us') (es ++ es') where
  updates := by
    rw [← h.updates, ← h'.updates]
    simp [Concurrency.updates]
  entries := by
    rw [← h.entries, ← h'.entries]
    simp [entriesOf]
  creates row hm := (List.mem_append.mp hm).elim (h.creates row) (h'.creates row)

theorem stable_sameNames : Stable SameNames where
  refl _ := ⟨rfl, rfl⟩
  trans _ _ _ h h' := ⟨h'.1.trans h.1, h'.2.trans h.2⟩
  flush _ _ _ _ := ⟨rfl, rfl⟩

theorem KeepsBy.refl {R : PaymentIntent → PaymentIntent → Prop} (hR : Stable R) (db : Db) :
    KeepsBy R db db := fun p hp => ⟨p, hp, hR.refl p⟩

theorem KeepsBy.trans {R : PaymentIntent → PaymentIntent → Prop} (hR : Stable R) (a b c : Db)
    (h : KeepsBy R a b) (h' : KeepsBy R b c) : KeepsBy R a c := by
  intro p hp
  obtain ⟨q, hq, hpq⟩ := h p hp
  obtain ⟨r, hr, hqr⟩ := h' q hq
  exact ⟨r, hr, hR.trans p q r hpq hqr⟩

theorem Keeps.refl (db : Db) : Keeps db db := KeepsBy.refl stable_sameNames db

theorem Keeps.trans (a b c : Db) (h : Keeps a b) (h' : Keeps b c) : Keeps a c :=
  KeepsBy.trans stable_sameNames a b c h h'

theorem apply_ledger {s : Stmt} (h : s.apply db = .ok db') :
    db'.ledgerEntries = db.ledgerEntries ++ entriesOf [s] := by
  cases s with
  | insertIntent row =>
    simp only [Stmt.apply] at h
    split at h <;> cases h
    simp [entriesOf]
  | updateIntent => cases h; simp [entriesOf]
  | insertEntries es =>
    simp only [Stmt.apply] at h
    split at h <;> cases h
    simp [entriesOf]
  | insertSession row =>
    simp only [Stmt.apply] at h
    split at h
    · split at h <;> cases h
      simp [entriesOf]
    · cases h
  | updateSession => cases h; simp [entriesOf, Db.updateSession]
  | insertEvent row =>
    simp only [Stmt.apply] at h
    split at h <;> cases h
    simp [entriesOf]
  | setProcessedAt => cases h; simp [entriesOf, Db.setProcessedAt]
  | setProcessingError => cases h; simp [entriesOf, Db.setProcessingError]

theorem commit_ledger (h : commit t db = .ok db') :
    db'.ledgerEntries = db.ledgerEntries ++ entriesOf t := by
  induction t generalizing db with
  | nil =>
    cases h
    simp [entriesOf]
  | cons s t ih =>
    rw [commit_cons] at h
    split at h
    · next db₁ hs =>
      rw [ih h, apply_ledger hs]
      simp [entriesOf]
    · cases h

theorem apply_intents {s : Stmt} (h : s.apply db = .ok db') (hu : Concurrency.updates [s] = [])
    (hn : ∀ row, s ≠ .insertIntent row) : db'.paymentIntents = db.paymentIntents := by
  cases s with
  | insertIntent row => exact absurd rfl (hn row)
  | updateIntent => simp [Concurrency.updates] at hu
  | insertEntries es =>
    simp only [Stmt.apply] at h
    split at h <;> cases h
    rfl
  | insertSession row =>
    simp only [Stmt.apply] at h
    split at h
    · split at h <;> cases h
      rfl
    · cases h
  | updateSession => cases h; rfl
  | insertEvent row =>
    simp only [Stmt.apply] at h
    split at h <;> cases h
    rfl
  | setProcessedAt => cases h; rfl
  | setProcessingError => cases h; rfl

theorem updates_cons (s : Stmt) (t : List Stmt) :
    Concurrency.updates (s :: t) = Concurrency.updates [s] ++ Concurrency.updates t := by
  simp only [Concurrency.updates, ← List.filterMap_append, List.singleton_append]

theorem commit_untouched (h : commit t db = .ok db') (ht : Touches t [] es) :
    db'.paymentIntents = db.paymentIntents := by
  obtain ⟨hu, -, hn⟩ := ht
  induction t generalizing db with
  | nil => cases h; rfl
  | cons s t ih =>
    rw [commit_cons] at h
    rw [updates_cons, List.append_eq_nil_iff] at hu
    split at h
    · next db₁ hs =>
      have hi := apply_intents hs hu.1 (fun row he => hn row (he ▸ List.mem_cons_self))
      rw [ih h hu.2 (fun row hm => hn row (List.mem_cons_of_mem _ hm)), hi]
    · cases h

theorem commit_updated (h : commit t db = .ok db') (ht : Touches t [(loaded, dirty)] es) :
    ∃ now, db'.paymentIntents = (db.updateIntent loaded dirty now).paymentIntents := by
  obtain ⟨hu, -, hn⟩ := ht
  induction t generalizing db with
  | nil => simp [Concurrency.updates] at hu
  | cons s t ih =>
    rw [commit_cons] at h
    have hn' : ∀ row, .insertIntent row ∉ t := fun row hm => hn row (List.mem_cons_of_mem _ hm)
    split at h
    · next db₁ hs =>
      by_cases hsu : Concurrency.updates [s] = []
      · have hi := apply_intents hs hsu (fun row he => hn row (he ▸ List.mem_cons_self))
        rw [updates_cons, hsu] at hu
        obtain ⟨now, hnow⟩ := ih h hu hn'
        exact ⟨now, by simp only [hnow, Db.updateIntent, hi]⟩
      · cases s with
        | updateIntent l d now =>
          rw [updates_cons] at hu
          obtain ⟨⟨rfl, rfl⟩, ht⟩ : (l = loaded ∧ d = dirty) ∧ Concurrency.updates t = [] := by
            simpa [Concurrency.updates] using hu
          cases hs
          exact ⟨now, commit_untouched h ⟨ht, rfl, hn'⟩⟩
        | _ => simp [Concurrency.updates] at hsu
    · cases h

theorem mem_committed {q : PaymentIntent} (h : commit t db = .ok db')
    (ht : Touches t [(loaded, dirty)] es) (hq : q ∈ db'.paymentIntents) :
    (q ∈ db.paymentIntents ∧ q.id ≠ loaded.id) ∨
      ∃ p ∈ db.paymentIntents, p.id = loaded.id ∧ ∃ now, q = loaded.flush dirty now p := by
  obtain ⟨now, hnow⟩ := commit_updated h ht
  obtain ⟨p, hp, rfl⟩ := mem_updateIntent.mp (hnow ▸ hq)
  by_cases hid : p.id = loaded.id
  · exact .inr ⟨p, hp, hid, now, if_pos hid⟩
  · rw [if_neg hid]
    exact .inl ⟨hp, hid⟩

variable [StrLower] {A : StripeCall → StripeAnswer → Prop} {C : Db → List Stmt → Prop} {op : Op}
  {env : Env}

/-- What a handler may commit: nothing about the intents, or what is a change of the row as it
was when the handler loaded it. -/
inductive Commits (A : StripeCall → StripeAnswer → Prop) (op : Op) (env : Env) (db : Db)
    (t : List Stmt) : Prop
  | aside (touches : Touches t [] [])
  | change (answer : StripeCall → StripeAnswer) (loaded dirty : PaymentIntent)
      (es : List LedgerEntry) (calls : Calls) (does : Changes ⟨op, env, answer⟩ loaded dirty es calls)
      (answered : ∀ q o, (q, .ok o) ∈ calls → A q (.ok o))
      (touches : Touches t [(loaded, dirty)] es)
      (known : ∃ p ∈ db.paymentIntents, p.id = loaded.id ∧
        p.stripePaymentIntentId = loaded.stripePaymentIntentId)

/-- What a handler may commit, where `R` tells what remains of the row that it loaded. -/
inductive CommitsBy (R : PaymentIntent → PaymentIntent → Prop)
    (A : StripeCall → StripeAnswer → Prop) (op : Op) (env : Env) (db : Db) (t : List Stmt) : Prop
  | aside (touches : Touches t [] [])
  | change (answer : StripeCall → StripeAnswer) (loaded dirty : PaymentIntent)
      (es : List LedgerEntry) (calls : Calls) (does : Changes ⟨op, env, answer⟩ loaded dirty es calls)
      (answered : ∀ q o, (q, .ok o) ∈ calls → A q (.ok o))
      (touches : Touches t [(loaded, dirty)] es)
      (known : ∃ p ∈ db.paymentIntents, R loaded p)

section

variable {R : PaymentIntent → PaymentIntent → Prop}

theorem CommitsBy.mono (hR : Stable R) (h : CommitsBy R A op env db t) (hk : KeepsBy R db db') :
    CommitsBy R A op env db' t := by
  cases h with
  | aside touches => exact .aside touches
  | change answer loaded dirty es calls does answered touches known =>
    obtain ⟨p, hp, hlp⟩ := known
    obtain ⟨q, hq, hpq⟩ := hk p hp
    exact .change answer loaded dirty es calls does answered touches
      ⟨q, hq, hR.trans loaded p q hlp hpq⟩

theorem CommitsBy.append (h : CommitsBy R A op env db t) (h' : Touches t' [] []) :
    CommitsBy R A op env db (t ++ t') := by
  cases h with
  | aside touches => exact .aside (touches.append h')
  | change answer loaded dirty es calls does answered touches known =>
    exact .change answer loaded dirty es calls does answered (by simpa using touches.append h') known

theorem CommitsBy.keeps (hR : Stable R) (h : CommitsBy R A op env db t)
    (hc : commit t db = .ok db') : KeepsBy R db db' := by
  cases h with
  | aside touches =>
    intro p hp
    exact ⟨p, by rwa [commit_untouched hc touches], hR.refl p⟩
  | change answer loaded dirty es calls does answered touches known =>
    obtain ⟨now, hnow⟩ := commit_updated hc touches
    intro p hp
    have hm := (@mem_updateIntent db _ loaded dirty now).mpr ⟨p, hp, rfl⟩
    rw [← hnow] at hm
    refine ⟨_, hm, ?_⟩
    split
    · exact hR.flush loaded dirty now p
    · exact hR.refl p

theorem CommitsBy.commits (hn : ∀ p q, R p q → SameNames p q) (h : CommitsBy R A op env db t) :
    Commits A op env db t := by
  cases h with
  | aside touches => exact .aside touches
  | change answer loaded dirty es calls does answered touches known =>
    obtain ⟨p, hp, hlp⟩ := known
    exact .change answer loaded dirty es calls does answered touches ⟨p, hp, hn loaded p hlp⟩

end

theorem Commits.byNames (h : Commits A op env db t) : CommitsBy SameNames A op env db t := by
  cases h with
  | aside touches => exact .aside touches
  | change answer loaded dirty es calls does answered touches known =>
    exact .change answer loaded dirty es calls does answered touches known

theorem Commits.keeps (h : Commits A op env db t) (hc : commit t db = .ok db') : Keeps db db' :=
  CommitsBy.keeps stable_sameNames h.byNames hc

section

variable {R : PaymentIntent → PaymentIntent → Prop}

abbrev SafeBy {α : Type} (R : PaymentIntent → PaymentIntent → Prop)
    (A : StripeCall → StripeAnswer → Prop) (C : Db → List Stmt → Prop) (op : Op) (env : Env)
    (p : Service α) (db : Db) : Prop :=
  Program.Safe commit (KeepsBy R) A C (CommitsBy R A op env) (fun _ _ => True) p db

omit [StrLower] in
theorem updated_touches (loaded dirty : PaymentIntent) (now : Instant) :
    Touches [.updateIntent loaded dirty now] [(loaded, dirty)] [] := ⟨rfl, rfl, by simp⟩

omit [StrLower] in
theorem booked_touches (loaded dirty : PaymentIntent) (now : Instant) (es : List LedgerEntry) :
    Touches [.updateIntent loaded dirty now, .insertEntries es] [(loaded, dirty)] es :=
  ⟨rfl, by simp [entriesOf], by simp⟩

theorem refresh_safe (p : PaymentIntent) : SafeBy R A C op env (refresh p) db :=
  fun _ _ _ _ => trivial

theorem confirm_safe (id : String) (payload : PaymentIntentConfirm) (db : Db) :
    SafeBy R A C (.confirmIntent id payload) env (confirmIntent id payload env) db := by
  intro db₁ _
  change SafeBy R A C _ env (confirmLoaded id payload env (db₁.intentById id)) db₁
  cases hl : db₁.intentById id with
  | none => trivial
  | some p =>
    obtain ⟨hp, hid⟩ := intentById_some hl
    simp only [confirmLoaded]
    split
    · exact fun _ _ => trivial
    · next live =>
      split
      · trivial
      · next stripeId stripe =>
        intro r hr
        cases r with
        | error m => trivial
        | ok o =>
          simp only [confirmAnswered]
          split
          · trivial
          · next status parsed =>
            intro db₂ hk
            refine ⟨.change (fun _ => .ok o) p _ [] _
              (.confirmed id payload rfl hid live stripeId stripe o rfl status parsed) ?_
              (updated_touches _ _ _) (hk p hp), fun _ db₃ _ => refresh_safe p⟩
            simpa using hr

theorem cancel_safe (id : String) (payload : PaymentIntentCancel) (db : Db) :
    SafeBy R A C (.cancelIntent id payload) env (cancelIntent id payload env) db := by
  intro db₁ _
  change SafeBy R A C _ env (cancelLoaded id payload env (db₁.intentById id)) db₁
  cases hl : db₁.intentById id with
  | none => trivial
  | some p =>
    obtain ⟨hp, hid⟩ := intentById_some hl
    simp only [cancelLoaded]
    split
    · exact fun _ _ => trivial
    · next hc =>
      split
      · trivial
      · next hs =>
        split
        · trivial
        · next stripeId stripe =>
          intro r hr
          cases r with
          | error m => trivial
          | ok o =>
            simp only [cancelAnswered]
            split
            · trivial
            · next status parsed =>
              obtain hn | hn := Int.lt_or_le 0 p.amount
              · rw [record_reversal hn]
                intro db₂ hk
                refine ⟨.change (fun _ => .ok o) p _ _ _
                  (.canceled id payload rfl hid ⟨hc, hs⟩ stripeId stripe o rfl status parsed hn) ?_
                  (booked_touches _ _ _ _) (hk p hp), fun _ db₃ _ => refresh_safe p⟩
                simpa using hr
              · rw [recordTransaction_pair_error _ _ _ _ hn]
                trivial

theorem refund_safe (id key : String) (amount : Option Int) (reason : Option String) (db : Db) :
    SafeBy R A C (.refundIntent id key amount reason) env (refundIntent id key amount reason env)
      db := by
  intro db₁ _
  change SafeBy R A C _ env (refundLoaded id key amount reason env (db₁.intentById id)) db₁
  cases hl : db₁.intentById id with
  | none => trivial
  | some p =>
    obtain ⟨hp, hid⟩ := intentById_some hl
    simp only [refundLoaded]
    split
    · trivial
    · next hs =>
      split
      · trivial
      · next stripeId stripe =>
        split
        · trivial
        · split
          · trivial
          · next hn =>
            obtain ⟨hpos, hle⟩ := not_or.mp hn
            intro r hr
            cases r with
            | error m => trivial
            | ok o =>
              simp only [refundAnswered, record_refund p (Int.not_le.mp hpos)]
              intro db₂ hk
              refine ⟨.change (fun _ => .ok o) p _ _ _ (.refunded id key amount reason rfl hid
                (not_not.mp hs) stripeId stripe _ rfl (Int.not_le.mp hpos) (Int.not_lt.mp hle) o
                rfl) ?_ (booked_touches _ _ _ _) (hk p hp), fun _ db₃ _ => refresh_safe p⟩
              simpa using hr

section delivery

variable {event : StripeEvent} {work : List Stmt}

omit [StrLower] in
theorem aside_touches (s : Stmt) (hu : Concurrency.updates [s] = []) (he : entriesOf [s] = [])
    (hn : ∀ row, s ≠ .insertIntent row) : Touches [s] [] [] :=
  ⟨hu, he, by simpa using fun row => Ne.symm (hn row)⟩

theorem failed_safe {α : Type} (exn : Exn) (db : Db) :
    SafeBy R A C op env (failed event exn : Service α) db := by
  intro db₁ _
  change SafeBy R A C op env (failedLooked event exn (db₁.eventById event.id)) db₁
  cases db₁.eventById event.id with
  | some e => exact fun _ _ => ⟨.aside (aside_touches _ rfl rfl (by simp)), fun _ _ _ => trivial⟩
  | none => trivial

theorem finish_safe (hR : Stable R) (h : CommitsBy R A op env db work) :
    SafeBy R A C op env (finish event env work) db :=
  fun _ hk => ⟨(h.mono hR hk).append (aside_touches _ rfl rfl (by simp)), fun _ _ _ _ _ => trivial⟩

theorem dispatchSession_safe (hR : Stable R) (h : CommitsBy R A op env db work)
    (found : Except Exn (Option CheckoutSession)) :
    SafeBy R A C op env (dispatchSession event env work found) db := by
  cases found with
  | error e => exact failed_safe e db
  | ok found =>
    cases found with
    | none => exact finish_safe hR h
    | some cs =>
      simp only [dispatchSession, completeLoaded]
      split
      · exact fun _ hk => ⟨(h.mono hR hk).append (aside_touches _ rfl rfl (by simp)),
          fun _ _ _ => finish_safe hR (.aside ⟨rfl, rfl, by simp⟩)⟩
      · exact finish_safe hR h

theorem dispatchLoaded_safe (hR : Stable R) (ht : event.type = "payment_intent.succeeded") {stripeId : String}
    (hid : event.object.id = some stripeId) {n : Int} (hn : eventAmount event.object = .ok n)
    (hw : Touches work [] []) :
    SafeBy R A C (.deliver event) env (dispatchLoaded event env work n (db.intentByStripeId stripeId))
      db := by
  cases hl : db.intentByStripeId stripeId with
  | none => exact finish_safe hR (.aside hw)
  | some p =>
    obtain ⟨hp, hs⟩ := intentByStripeId_some hl
    simp only [dispatchLoaded, applySucceeded]
    by_cases hst : p.status = .succeeded
    · simp only [hst, if_true]
      exact fun db₁ _ => dispatchSession_safe hR (.aside (by simpa using hw)) _
    · simp only [hst, if_false]
      obtain hpos | hle := Int.lt_or_le 0 n
      · rw [record_capture p hpos]
        intro db₁ hk
        refine dispatchSession_safe hR (.change (fun _ => .error "") p _ _ []
          (.captured event rfl ht stripeId hid hs hst n hn hpos) (by simp)
          (hw.append (booked_touches _ _ _ _)) (hk p hp)) _
      · rw [recordTransaction_pair_error _ _ _ _ hle]
        exact failed_safe _ db

theorem dispatch_safe (hR : Stable R) (hw : Touches work [] []) (db : Db) :
    SafeBy R A C (.deliver event) env (dispatch event env work) db := by
  unfold dispatch
  split
  · next ht =>
    cases hid : event.object.id with
    | none => exact failed_safe _ db
    | some stripeId =>
      cases hn : eventAmount event.object with
      | error e => exact failed_safe _ db
      | ok n => exact fun db₁ _ => dispatchLoaded_safe hR ht hid hn hw
  · exact finish_safe hR (.aside hw)

theorem deliver_safe (hR : Stable R) (event : StripeEvent) (db : Db) :
    SafeBy R A C (.deliver event) env (stripeWebhook event env) db := by
  intro db₁ _
  change SafeBy R A C _ env (webhookLooked event env (db₁.eventById event.id)) db₁
  cases db₁.eventById event.id with
  | none => exact dispatch_safe hR (aside_touches _ rfl rfl (by simp)) db₁
  | some existing =>
    simp only [webhookLooked]
    split
    · exact fun _ _ => trivial
    · exact dispatch_safe hR ⟨rfl, rfl, by simp⟩ db₁

end delivery

def Later : Op → Prop
  | .confirmIntent .. | .cancelIntent .. | .refundIntent .. | .deliver .. => True
  | .createIntent .. | .createSession .. | .getOpenSession .. => False

theorem op_safeBy (hR : Stable R) (h : Later op) (db : Db) :
    SafeBy R A C op env (op.program env) db := by
  cases op with
  | confirmIntent id payload =>
    exact (confirm_safe id payload db).bind (KeepsBy.refl hR) (fun _ _ _ _ _ => trivial)
  | cancelIntent id payload =>
    exact (cancel_safe id payload db).bind (KeepsBy.refl hR) (fun _ _ _ _ _ => trivial)
  | refundIntent id key amount reason =>
    exact (refund_safe id key amount reason db).bind (KeepsBy.refl hR) (fun _ _ _ _ _ => trivial)
  | deliver event =>
    exact (deliver_safe hR event db).bind (KeepsBy.refl hR) (fun _ _ _ _ _ => trivial)
  | createIntent => exact h.elim
  | createSession => exact h.elim
  | getOpenSession => exact h.elim

end

def serving (db : Db) (calls : Calls) (rs : List (Op × Env)) : Handlers Reply :=
  ⟨db, calls, rs.map (fun r => r.1.program r.2)⟩

def CommitsOf (A : StripeCall → StripeAnswer → Prop) (rs : List (Op × Env)) (i : Nat) (db : Db)
    (t : List Stmt) : Prop :=
  ∃ r, rs[i]? = some r ∧ Commits A r.1 r.2 db t

def CommitsOfBy (R : PaymentIntent → PaymentIntent → Prop) (A : StripeCall → StripeAnswer → Prop)
    (rs : List (Op × Env)) (i : Nat) (db : Db) (t : List Stmt) : Prop :=
  ∃ r, rs[i]? = some r ∧ CommitsBy R A r.1 r.2 db t

theorem serving_safeBy {R : PaymentIntent → PaymentIntent → Prop} (hR : Stable R)
    {C : Nat → Db → List Stmt → Prop} {rs : List (Op × Env)} (h : ∀ r ∈ rs, Later r.1) (db : Db)
    (calls : Calls) : Pool.AllSafe commit (KeepsBy R) A C (CommitsOfBy R A rs) (fun _ _ => True)
      (serving db calls rs) := by
  intro i p hp
  obtain ⟨r, hr, rfl⟩ : ∃ r, rs[i]? = some r ∧ r.1.program r.2 = p := by
    simpa [serving, List.getElem?_map] using hp
  exact (op_safeBy hR (h r (List.mem_of_getElem? hr)) db).weaken (fun s t ht => ⟨r, hr, ht⟩)

theorem serving_safe {C : Nat → Db → List Stmt → Prop} {rs : List (Op × Env)}
    (h : ∀ r ∈ rs, Later r.1) (db : Db) (calls : Calls) :
    Pool.AllSafe commit Keeps A C (CommitsOf A rs) (fun _ _ => True) (serving db calls rs) := by
  intro i p hp
  refine (serving_safeBy stable_sameNames h db calls i p hp).weaken (fun s t ht => ?_)
  obtain ⟨r, hr, ht⟩ := ht
  exact ⟨r, hr, ht.commits (fun _ _ hn => hn)⟩

theorem CommitsOf.keeps {rs : List (Op × Env)} {i : Nat} (h : CommitsOf A rs i db t)
    (hc : commit t db = .ok db') : Keeps db db' := by
  obtain ⟨r, -, h⟩ := h
  exact h.keeps hc

end SixGateway.Transactions
