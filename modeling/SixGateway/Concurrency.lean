import SixGateway.Gateway
import SixGateway.Library.Schedule

namespace SixGateway.Concurrency

open Library Library.Run Library.Pool Models Errors Database StripeClient

/-- Handlers at work side by side on the gateway's database. -/
abbrev Handlers (α : Type) := Pool Db StripeCall StripeAnswer (List Stmt) Exn α

abbrev Label := Nat × Act StripeAnswer

/-- The updates of a transaction: each row as it was loaded and as it is held now. -/
def updates (t : List Stmt) : List (PaymentIntent × PaymentIntent) :=
  t.filterMap fun s =>
    match s with
    | .updateIntent loaded dirty _ => some (loaded, dirty)
    | _ => none

variable {α : Type}

/-- The transaction that a move commits, if it goes through. -/
def committing (st : Handlers α) : Label → List Stmt
  | (i, .run) =>
    match st.threads[i]? with
    | some (.commit t _) =>
      match commit t st.store with
      | .ok _ => t
      | .error _ => []
    | _ => []
  | (_, .answer _) => []

/-- The call that a move finds accepted, with the object it is answered with. -/
def granting (st : Handlers α) : Label → Option (StripeCall × StripeObject)
  | (i, .answer (.ok o)) =>
    match st.threads[i]? with
    | some (.call q _) => some (q, o)
    | _ => none
  | _ => none

variable {st : Handlers α} {i : Nat}

theorem committing_commit {t : List Stmt} {k : Program Db StripeCall StripeAnswer (List Stmt) Exn α}
    {db : Db} (h : st.threads[i]? = some (.commit t k)) (hc : commit t st.store = .ok db) :
    committing st (i, .run) = t := by
  simp only [committing, h, hc]

theorem committing_refused {t : List Stmt}
    {k : Program Db StripeCall StripeAnswer (List Stmt) Exn α} {e : Exn}
    (h : st.threads[i]? = some (.commit t k)) (hc : commit t st.store = .error e) :
    committing st (i, .run) = [] := by
  simp only [committing, h, hc]

theorem committing_read {k : Db → Program Db StripeCall StripeAnswer (List Stmt) Exn α}
    (h : st.threads[i]? = some (.read k)) : committing st (i, .run) = [] := by
  simp only [committing, h]

theorem granting_call {q : StripeCall} {o : StripeObject}
    {k : StripeAnswer → Program Db StripeCall StripeAnswer (List Stmt) Exn α}
    (h : st.threads[i]? = some (.call q k)) : granting st (i, .answer (.ok o)) = some (q, o) := by
  simp only [granting, h]

/-- What a pool is supposed to meet, put in terms of what its moves commit and are granted. -/
theorem meets_of {R : StripeCall → StripeObject → Prop} {C : Nat → Db → List Stmt → Prop}
    {l : Label} (hr : ∀ c ∈ granting st l, R c.1 c.2) (hc : C l.1 st.store (committing st l)) :
    Meets commit (fun q a => ∀ o, a = .ok o → R q o) C st l := by
  obtain ⟨i, a⟩ := l
  cases a with
  | run =>
    intro t k db hi hdb
    rwa [committing_commit hi hdb] at hc
  | answer r =>
    rintro q k hi o rfl
    exact hr (q, o) (granting_call hi)

theorem applied_of_commit {t : List Stmt} {db db' : Db} (h : commit t db = .ok db') :
    Applied Stmt.apply t db db' := by
  induction t generalizing db with
  | nil => exact Except.ok.inj h
  | cons s t ih =>
    simp only [commit] at h
    split at h
    · next u hu => exact ⟨u, hu, ih h⟩
    · cases h

theorem committing_cases (st : Handlers α) (l : Label) : committing st l = [] ∨
    ∃ k, st.threads[l.1]? = some (.commit (committing st l) k) := by
  obtain ⟨i, a⟩ := l
  cases a with
  | answer r => exact .inl rfl
  | run =>
    simp only [committing]
    split
    · next t k hi =>
      split
      · exact .inr ⟨k, hi⟩
      · exact .inl rfl
    · exact .inl rfl

theorem committing_idle {l : Label} (h : step commit st l = none) : committing st l = [] := by
  obtain ⟨i, a⟩ := l
  cases a with
  | answer r => rfl
  | run =>
    simp only [step] at h
    simp only [committing]
    split at h
    · cases h
    · split at h <;> cases h
    · next hread hcommit =>
      split
      · next t k hi => exact absurd hi (hcommit t k)
      · rfl

end SixGateway.Concurrency
