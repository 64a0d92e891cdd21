import SixGateway.Library.Program
import SixGateway.Library.Run
import Mathlib.Algebra.BigOperators.Group.List.Basic
import Mathlib.Tactic.Abel

namespace SixGateway.Library

open Run

/-- Handlers that serve requests side by side on one committed store. A handler that has died is
one that is never scheduled again. -/
structure Pool (S Q R T ε α : Type) where
  store : S
  calls : List (Q × R)
  threads : List (Program S Q R T ε α)

inductive Act (R : Type) where
  | run
  | answer (r : R)

namespace Pool

variable {S Q R T ε α : Type} (apply : T → S → Except ε S)

/-- One node of one handler. A read or a commit is the handler's own move; the answer to a call
comes from outside and may be any value. -/
def step (st : Pool S Q R T ε α) : Nat × Act R → Option (Pool S Q R T ε α)
  | (i, .run) =>
    match st.threads[i]? with
    | some (.read k) => some ⟨st.store, st.calls, st.threads.set i (k st.store)⟩
    | some (.commit t k) =>
      match apply t st.store with
      | .ok s => some ⟨s, st.calls, st.threads.set i k⟩
      | .error e => some ⟨st.store, st.calls, st.threads.set i (.raise e)⟩
    | _ => none
  | (i, .answer r) =>
    match st.threads[i]? with
    | some (.call q k) => some ⟨st.store, st.calls ++ [(q, r)], st.threads.set i (k r)⟩
    | _ => none

inductive Moves (st : Pool S Q R T ε α) : Nat × Act R → Pool S Q R T ε α → Prop
  | read (i : Nat) (k : S → Program S Q R T ε α) (next : st.threads[i]? = some (.read k)) :
      Moves st (i, .run) ⟨st.store, st.calls, st.threads.set i (k st.store)⟩
  | committed (i : Nat) (t : T) (k : Program S Q R T ε α)
      (next : st.threads[i]? = some (.commit t k)) (s : S) (applied : apply t st.store = .ok s) :
      Moves st (i, .run) ⟨s, st.calls, st.threads.set i k⟩
  | refused (i : Nat) (t : T) (k : Program S Q R T ε α)
      (next : st.threads[i]? = some (.commit t k)) (e : ε)
      (applied : apply t st.store = .error e) :
      Moves st (i, .run) ⟨st.store, st.calls, st.threads.set i (.raise e)⟩
  | answered (i : Nat) (q : Q) (k : R → Program S Q R T ε α)
      (next : st.threads[i]? = some (.call q k)) (r : R) :
      Moves st (i, .answer r) ⟨st.store, st.calls ++ [(q, r)], st.threads.set i (k r)⟩

variable {apply}

theorem step_moves {st st' : Pool S Q R T ε α} {l : Nat × Act R}
    (h : step apply st l = some st') : Moves apply st l st' := by
  obtain ⟨i, a⟩ := l
  cases a with
  | run =>
    simp only [step] at h
    split at h
    · next k hi =>
      cases h
      exact .read i k hi
    · next t k hi =>
      split at h
      · next s hs =>
        cases h
        exact .committed i t k hi s hs
      · next e he =>
        cases h
        exact .refused i t k hi e he
    · cases h
  | answer r =>
    simp only [step] at h
    split at h
    · next q k hi =>
      cases h
      exact .answered i q k hi r
    · cases h

theorem sum_set {M : Type} [AddCommGroup M] (f : Program S Q R T ε α → M)
    {ts : List (Program S Q R T ε α)} {i : Nat} {p q : Program S Q R T ε α}
    (hi : ts[i]? = some p) : ((ts.set i q).map f).sum = (ts.map f).sum - f p + f q := by
  obtain ⟨hlt, rfl⟩ := List.getElem?_eq_some_iff.mp hi
  rw [List.map_set, List.sum_set']
  simp [hlt]
  abel

end Pool

namespace Program

variable {S Q R T ε α : Type} (apply : T → S → Except ε S)

/-- From store `s` on, as long as everybody else moves the store along `G` and calls are answered
within `A`, every transaction `t` the handler commits satisfies `P` at the store it is committed
to, and what it returns satisfies `Post` from then on. `C` is what may be supposed of a commit
that goes through. -/
def Safe (G : S → S → Prop) (A : Q → R → Prop) (C P : S → T → Prop) (Post : α → S → Prop) :
    Program S Q R T ε α → S → Prop
  | ret a, s => ∀ s', G s s' → Post a s'
  | raise _, _ => True
  | read k, s => ∀ s', G s s' → Safe G A C P Post (k s') s'
  | call q k, s => ∀ r, A q r → Safe G A C P Post (k r) s
  | commit t k, s => ∀ s', G s s' → P s' t ∧
      (C s' t → ∀ s'', apply t s' = .ok s'' → Safe G A C P Post k s'')

variable {apply} {G : S → S → Prop} {A : Q → R → Prop} {C P : S → T → Prop} {Post : α → S → Prop}

theorem Safe.mono (htr : ∀ a b c, G a b → G b c → G a c) {p : Program S Q R T ε α} {s s' : S}
    (hp : Safe apply G A C P Post p s) (hs : G s s') : Safe apply G A C P Post p s' := by
  induction p with
  | ret a => exact fun u hu => hp u (htr _ _ _ hs hu)
  | raise e => trivial
  | read k ih => exact fun u hu => hp u (htr _ _ _ hs hu)
  | call q k ih => exact fun r hr => ih r (hp r hr)
  | commit t k ih => exact fun u hu => hp u (htr _ _ _ hs hu)

theorem Safe.weaken {P' : S → T → Prop} (hP : ∀ s t, P s t → P' s t) {p : Program S Q R T ε α}
    {s : S} (hp : Safe apply G A C P Post p s) : Safe apply G A C P' Post p s := by
  induction p generalizing s with
  | ret a => exact hp
  | raise e => trivial
  | read k ih => exact fun u hu => ih u (hp u hu)
  | call q k ih => exact fun r hr => ih r (hp r hr)
  | commit t k ih =>
    exact fun u hu => ⟨hP u t (hp u hu).1, fun hc v hv => ih ((hp u hu).2 hc v hv)⟩

theorem Safe.bind (hrefl : ∀ s, G s s) {β : Type} {Post' : β → S → Prop}
    {p : Program S Q R T ε α} {f : α → Program S Q R T ε β} {s : S}
    (hp : Safe apply G A C P Post p s)
    (hf : ∀ a s, Post a s → Safe apply G A C P Post' (f a) s) :
    Safe apply G A C P Post' (p.bind f) s := by
  induction p generalizing s with
  | ret a => exact hf a s (hp s (hrefl s))
  | raise e => trivial
  | read k ih => exact fun u hu => ih u (hp u hu)
  | call q k ih => exact fun r hr => ih r (hp r hr)
  | commit t k ih => exact fun u hu => ⟨(hp u hu).1, fun hc v hv => ih ((hp u hu).2 hc v hv)⟩

end Program

namespace Pool

variable {S Q R T ε α : Type} (apply : T → S → Except ε S)
  (G : S → S → Prop) (A : Q → R → Prop) (C P : Nat → S → T → Prop)
  (Post : α → S → Prop)

def AllSafe (st : Pool S Q R T ε α) : Prop :=
  ∀ i p, st.threads[i]? = some p → Program.Safe apply G A (C i) (P i) Post p st.store

/-- What is supposed of a move: an answer lies within `A`, and a commit that goes through
meets `C`. -/
def Meets (st : Pool S Q R T ε α) : Nat × Act R → Prop
  | (i, .run) => ∀ t k s, st.threads[i]? = some (.commit t k) → apply t st.store = .ok s →
    C i st.store t
  | (i, .answer r) => ∀ q k, st.threads[i]? = some (.call q k) → A q r

variable {apply G A C P Post}

theorem meets_of_forall (hC : ∀ i s t, C i s t) (hA : ∀ q r, A q r) (st : Pool S Q R T ε α)
    (l : Nat × Act R) : Meets apply A C st l := by
  obtain ⟨i, a⟩ := l
  cases a with
  | run => exact fun t _ _ _ _ => hC i st.store t
  | answer r => exact fun q _ _ => hA q r

theorem AllSafe.mono (htr : ∀ a b c, G a b → G b c → G a c) {st : Pool S Q R T ε α} {s : S}
    (h : AllSafe apply G A C P Post st) (hs : G st.store s) (cs : List (Q × R)) :
    AllSafe apply G A C P Post ⟨s, cs, st.threads⟩ :=
  fun i p hp => (h i p hp).mono htr hs

theorem AllSafe.set {st : Pool S Q R T ε α} (h : AllSafe apply G A C P Post st) {i : Nat}
    {p : Program S Q R T ε α} (hp : Program.Safe apply G A (C i) (P i) Post p st.store)
    (cs : List (Q × R)) : AllSafe apply G A C P Post ⟨st.store, cs, st.threads.set i p⟩ := by
  intro j q hq
  rw [List.getElem?_set] at hq
  split at hq
  · next hij =>
    subst hij
    split at hq
    · cases hq
      exact hp
    · cases hq
  · exact h j q hq

theorem AllSafe.commit (hrefl : ∀ s, G s s) {st : Pool S Q R T ε α}
    (h : AllSafe apply G A C P Post st) {i : Nat} {t : T} {k : Program S Q R T ε α}
    (hi : st.threads[i]? = some (.commit t k)) : P i st.store t :=
  (h i _ hi st.store (hrefl _)).1

theorem AllSafe.returned (hrefl : ∀ s, G s s) {st : Pool S Q R T ε α}
    (h : AllSafe apply G A C P Post st) {a : α} (ha : .ret a ∈ st.threads) : Post a st.store := by
  obtain ⟨i, hi⟩ := List.getElem?_of_mem ha
  exact h i _ hi st.store (hrefl _)

/-- Rely and guarantee for one move: if the guarantee of every commit lies within the rely of the
others, a safe pool stays safe and its store moves along the rely. -/
theorem step_safe (hrefl : ∀ s, G s s) (htr : ∀ a b c, G a b → G b c → G a c)
    (hg : ∀ i s t s', P i s t → C i s t → apply t s = .ok s' → G s s')
    {st st' : Pool S Q R T ε α} {l : Nat × Act R} (h : AllSafe apply G A C P Post st)
    (hm : Meets apply A C st l) (hst : step apply st l = some st') :
    AllSafe apply G A C P Post st' ∧ G st.store st'.store := by
  cases step_moves hst with
  | read i k hi => exact ⟨h.set (h i _ hi st.store (hrefl _)) _, hrefl _⟩
  | committed i t k hi s hs =>
    have hp := h i _ hi st.store (hrefl _)
    have hc := hm t k s hi hs
    have hgs := hg i _ t s hp.1 hc hs
    exact ⟨(h.mono htr hgs st.calls).set (hp.2 hc s hs) _, hgs⟩
  | refused i t k hi e he => exact ⟨h.set (p := .raise _) trivial _, hrefl _⟩
  | answered i q k hi r => exact ⟨h.set (h i _ hi r (hm q k hi)) _, hrefl _⟩

theorem step_commits (hrefl : ∀ s, G s s) {J : S → Prop}
    (hJ : ∀ i s t s', J s → P i s t → C i s t → apply t s = .ok s' → J s')
    {st st' : Pool S Q R T ε α} {l : Nat × Act R} (h : AllSafe apply G A C P Post st)
    (hj : J st.store) (hm : Meets apply A C st l) (hst : step apply st l = some st') : J st'.store := by
  cases step_moves hst with
  | read => exact hj
  | committed i t k hi s hs => exact hJ i _ t s hj (h.commit hrefl hi) (hm t k s hi hs) hs
  | refused => exact hj
  | answered => exact hj

theorem always_commits (hrefl : ∀ s, G s s) (htr : ∀ a b c, G a b → G b c → G a c)
    (hg : ∀ i s t s', P i s t → C i s t → apply t s = .ok s' → G s s') {J : S → Prop}
    (hJ : ∀ i s t s', J s → P i s t → C i s t → apply t s = .ok s' → J s')
    {st : Pool S Q R T ε α} {ls : List (Nat × Act R)} (h : AllSafe apply G A C P Post st)
    (hj : J st.store) (hm : Along (step apply) (Meets apply A C) st ls) :
    Always (step apply) (fun u => AllSafe apply G A C P Post u ∧ J u.store) st ls := by
  refine always_of_invariant (C := Meets apply A C) ?_ ⟨h, hj⟩ hm
  intro u l v hu hl hv
  exact ⟨(step_safe hrefl htr hg hu.1 hl hv).1, step_commits hrefl hJ hu.1 hu.2 hl hv⟩

end Pool

end SixGateway.Library
