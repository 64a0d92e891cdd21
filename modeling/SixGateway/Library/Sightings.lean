import SixGateway.Library.Refusal

namespace SixGateway.Library

open Run

variable {S Q R T ε α β : Type}

namespace Program

/-- From time `n` on the handler reads stores as `Seen` has them at these times, and what it returns
satisfies `Post`, at the time of the last read. -/
def Sees (Seen : Nat → S → Prop) (Post : Nat → α → Prop) : Program S Q R T ε α → Nat → Prop
  | ret a, n => Post n a
  | raise _, _ => True
  | read k, n => ∀ m, n ≤ m → ∀ s, Seen m s → (k s).Sees Seen Post m
  | call _ k, n => ∀ r, (k r).Sees Seen Post n
  | commit _ k, n => k.Sees Seen Post n

variable {Seen : Nat → S → Prop} {Post : Nat → α → Prop}
  {p : Program S Q R T ε α} {n : Nat}

theorem Sees.weaken {Post' : Nat → α → Prop} (h : ∀ m a, Post m a → Post' m a)
    (hp : p.Sees Seen Post n) : p.Sees Seen Post' n := by
  induction p generalizing n with
  | ret a => exact h n a hp
  | raise e => trivial
  | read k ih => exact fun m hm s hs => ih s (hp m hm s hs)
  | call q k ih => exact fun r => ih r (hp r)
  | commit t k ih => exact ih hp

theorem Sees.bind {Post' : Nat → β → Prop} {f : α → Program S Q R T ε β}
    (hp : p.Sees Seen Post n) (hf : ∀ m a, n ≤ m → Post m a → (f a).Sees Seen Post' m) :
    (p.bind f).Sees Seen Post' n := by
  induction p generalizing n with
  | ret a => exact hf n a le_rfl hp
  | raise e => trivial
  | read k ih =>
    exact fun m hm s hs => ih s (hp m hm s hs) (fun m' a hm' ha => hf m' a (hm.trans hm') ha)
  | call q k ih => exact fun r => ih r (hp r) hf
  | commit t k ih => exact ih hp hf

theorem Sees.embed {W Q' R' T' ε' : Type} (E : Embedding S Q R T ε W Q' R' T' ε')
    {SeenW : Nat → W → Prop} (hE : ∀ m w, n ≤ m → SeenW m w → Seen m (E.part.get w))
    (hp : p.Sees Seen Post n) : (p.embed E).Sees SeenW Post n := by
  induction p generalizing n with
  | ret a => exact hp
  | raise e => trivial
  | read k ih =>
    exact fun m hm w hw =>
      ih _ (fun m' w' hm' => hE m' w' (hm.trans hm')) (hp m hm _ (hE m w hm hw))
  | call q k ih => exact fun r => ih _ hE (hp _)
  | commit t k ih => exact ih hE hp

end Program

namespace Pool

variable {apply : T → S → Except ε S} {Seen : Nat → S → Prop} {Post : Nat → α → Prop}
  {st st' : Pool S Q R T ε α} {ls : List (Nat × Act R)} {i n t : Nat} {p : Program S Q R T ε α}

/-- What a handler has returned is made of the stores that the pool has been in, read one after the
other. -/
theorem sees_run (hp : st.threads[i]? = some p) (hs : p.Sees Seen Post t) (htn : t ≤ n)
    (hseen : ∀ k u, After (step apply) st ls k u → Seen (n + k) u.store)
    (hr : run (step apply) st ls = some st') {a : α} (ha : st'.threads[i]? = some (.ret a)) :
    ∃ m, Post m a := by
  induction ls generalizing st p n t with
  | nil =>
    obtain rfl : st = st' := by simpa [run] using hr
    obtain rfl := Option.some.inj (hp.symm.trans ha)
    exact ⟨t, hs⟩
  | cons l ls ih =>
    obtain ⟨u, hu, hr⟩ := Option.bind_eq_some_iff.mp hr
    obtain ⟨q, cs, ts, hq, -, -, hprog⟩ := step_progress hp hu
    have hlater : ∀ k v, After (step apply) u ls k v → Seen (n + 1 + k) v.store := by
      intro k v hv
      rw [Nat.add_assoc, Nat.add_comm 1 k]
      exact hseen (k + 1) v (hv.cons hu)
    have hnow : Seen n st.store := hseen 0 st (After.zero st _)
    cases hprog with
    | idle => exact ih hq hs (Nat.le_succ_of_le htn) hlater hr
    | read k hk =>
      subst hk
      exact ih hq (hs n htn _ hnow) n.le_succ hlater hr
    | answered q k hk r =>
      subst hk
      exact ih hq (hs r) (Nat.le_succ_of_le htn) hlater hr
    | committed t k hk =>
      subst hk
      exact ih hq hs (Nat.le_succ_of_le htn) hlater hr
    | refused => exact ih (t := t) hq trivial (Nat.le_succ_of_le htn) hlater hr

end Pool

end SixGateway.Library
