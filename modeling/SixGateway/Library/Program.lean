import Mathlib.Data.List.Basic

namespace SixGateway.Library

/-- A request handler over a store `S`. Between two of its nodes it runs without interruption:
it reads the committed store, waits for the answer of an outside service, or commits a
transaction, and ends by returning or raising. -/
inductive Program (S Q R T ε α : Type) where
  | ret (a : α)
  | raise (e : ε)
  | read (k : S → Program S Q R T ε α)
  | call (q : Q) (k : R → Program S Q R T ε α)
  | commit (t : T) (k : Program S Q R T ε α)

structure Outcome (S Q R ε α : Type) where
  store : S
  calls : List (Q × R)
  result : Except ε α

def Outcome.called {S Q R ε α : Type} (o : Outcome S Q R ε α) (q : Q) (r : R) :
    Outcome S Q R ε α := ⟨o.store, (q, r) :: o.calls, o.result⟩

namespace Program

variable {S Q R T ε α β : Type}

def bind : Program S Q R T ε α → (α → Program S Q R T ε β) → Program S Q R T ε β
  | ret a, f => f a
  | raise e, _ => raise e
  | read k, f => read (fun s => (k s).bind f)
  | call q k, f => call q (fun r => (k r).bind f)
  | commit t k, f => commit t (k.bind f)

def ofExcept : Except ε α → Program S Q R T ε α
  | .ok a => ret a
  | .error e => raise e

variable (apply : T → S → Except ε S) (answer : Q → R)

/-- Run a handler to its end with nobody else in between. A transaction that is refused leaves
the store as the previous commit left it. -/
def exec : Program S Q R T ε α → S → Outcome S Q R ε α
  | ret a, s => ⟨s, [], .ok a⟩
  | raise e, s => ⟨s, [], .error e⟩
  | read k, s => exec (k s) s
  | call q k, s => (exec (k (answer q)) s).called q (answer q)
  | commit t k, s =>
    match apply t s with
    | .ok s' => exec k s'
    | .error e => ⟨s, [], .error e⟩

variable {apply answer}

@[simp] theorem exec_ret (a : α) (s : S) :
    exec apply answer (ret a : Program S Q R T ε α) s = ⟨s, [], .ok a⟩ := rfl

@[simp] theorem exec_raise (e : ε) (s : S) :
    exec apply answer (raise e : Program S Q R T ε α) s = ⟨s, [], .error e⟩ := rfl

@[simp] theorem exec_read (k : S → Program S Q R T ε α) (s : S) :
    exec apply answer (read k) s = exec apply answer (k s) s := rfl

@[simp] theorem exec_call (q : Q) (k : R → Program S Q R T ε α) (s : S) :
    exec apply answer (call q k) s =
      (exec apply answer (k (answer q)) s).called q (answer q) := rfl

theorem exec_commit_ok {t : T} {s s' : S} (h : apply t s = .ok s')
    (k : Program S Q R T ε α) : exec apply answer (commit t k) s = exec apply answer k s' := by
  simp only [exec, h]

theorem exec_commit_error {t : T} {s : S} {e : ε} (h : apply t s = .error e)
    (k : Program S Q R T ε α) : exec apply answer (commit t k) s = ⟨s, [], .error e⟩ := by
  simp only [exec, h]

theorem exec_bind (p : Program S Q R T ε α) (f : α → Program S Q R T ε β) (s : S) :
    exec apply answer (p.bind f) s =
      match (exec apply answer p s).result with
      | .error e => ⟨(exec apply answer p s).store, (exec apply answer p s).calls, .error e⟩
      | .ok a =>
        let o := exec apply answer (f a) (exec apply answer p s).store
        ⟨o.store, (exec apply answer p s).calls ++ o.calls, o.result⟩ := by
  induction p generalizing s with
  | ret a => simp [bind]
  | raise e => simp [bind]
  | read k ih => simpa [bind] using ih s s
  | call q k ih =>
    simp only [bind, exec_call, ih (answer q) s, Outcome.called]
    cases (exec apply answer (k (answer q)) s).result <;> rfl
  | commit t k ih =>
    cases h : apply t s with
    | ok s' => simpa only [bind, exec_commit_ok h] using ih s'
    | error e => simp only [bind, exec_commit_error h]

end Program

end SixGateway.Library
