import SixGateway.Library.Refusal

namespace SixGateway.Library

open Run

variable {S Q R T ε α β : Type} {apply : T → S → Except ε S}

namespace Program

def CommitsOnly (P : T → Prop) : Program S Q R T ε α → Prop
  | ret _ => True
  | raise _ => True
  | read k => ∀ s, (k s).CommitsOnly P
  | call _ k => ∀ r, (k r).CommitsOnly P
  | commit t k => P t ∧ k.CommitsOnly P

variable {P P' : T → Prop} {p : Program S Q R T ε α} {f : α → Program S Q R T ε β}

theorem CommitsOnly.bind (hp : p.CommitsOnly P) (hf : ∀ a, (f a).CommitsOnly P) :
    (p.bind f).CommitsOnly P := by
  induction p with
  | ret a => exact hf a
  | raise e => trivial
  | read k ih => exact fun s => ih s (hp s)
  | call q k ih => exact fun r => ih r (hp r)
  | commit t k ih => exact ⟨hp.1, ih hp.2⟩

theorem CommitsOnly.weaken (hp : p.CommitsOnly P) (h : ∀ t, P t → P' t) : p.CommitsOnly P' := by
  induction p with
  | ret a | raise e => trivial
  | read k ih => exact fun s => ih s (hp s)
  | call q k ih => exact fun r => ih r (hp r)
  | commit t k ih => exact ⟨h t hp.1, ih hp.2⟩

theorem CommitsOnly.and (hp : p.CommitsOnly P) (hp' : p.CommitsOnly P') :
    p.CommitsOnly (fun t => P t ∧ P' t) := by
  induction p with
  | ret a | raise e => trivial
  | read k ih => exact fun s => ih s (hp s) (hp' s)
  | call q k ih => exact fun r => ih r (hp r) (hp' r)
  | commit t k ih => exact ⟨⟨hp.1, hp'.1⟩, ih hp.2 hp'.2⟩

theorem commitsOnly_ended (h : p.result?.isSome) : p.CommitsOnly P := by
  cases p with
  | ret a | raise e => trivial
  | read | call | commit => cases h

theorem commitsOnly_embed {S' Q' R' T' ε' : Type} (E : Embedding S' Q' R' T' ε' S Q R T ε)
    (hP : ∀ t, P (E.lift t)) (p : Program S' Q' R' T' ε' α) : (p.embed E).CommitsOnly P := by
  induction p with
  | ret a | raise e => trivial
  | read k ih => exact fun s => ih (E.part.get s)
  | call q k ih => exact fun r => ih (E.hear q r)
  | commit t k ih => exact ⟨hP t, ih⟩

end Program

namespace Pool

variable {st st' : Pool S Q R T ε α} {l : Nat × Act R} {ls : List (Nat × Act R)}
  {P : Nat → T → Prop} {J : S → Prop}

theorem idle_run {i : Nat} (h : ∀ l ∈ ls, l.1 ≠ i) (hr : Run.run (Pool.step apply) st ls = some st') :
    st'.threads[i]? = st.threads[i]? := by
  induction ls generalizing st with
  | nil =>
    obtain rfl : st = st' := by simpa [Run.run] using hr
    rfl
  | cons l ls ih =>
    obtain ⟨u, hu, hr⟩ := Option.bind_eq_some_iff.mp hr
    have hne : l.1 ≠ i := h l List.mem_cons_self
    rw [ih (fun m hm => h m (List.mem_cons_of_mem l hm)) hr]
    cases step_moves hu <;> exact List.getElem?_set_ne hne

def AllOnly (P : Nat → T → Prop) (st : Pool S Q R T ε α) : Prop :=
  ∀ (i : Nat) (p : Program S Q R T ε α), st.threads[i]? = some p → p.CommitsOnly (P i)

theorem AllOnly.step (h : AllOnly P st) (hst : Pool.step apply st l = some st') : AllOnly P st' := by
  intro i p' hp'
  have hlt : i < st.threads.length := by
    have hlen : st'.threads.length = st.threads.length := by cases step_moves hst <;> simp
    exact hlen ▸ (List.getElem?_eq_some_iff.mp hp').1
  obtain ⟨q, cs, ts, hq, -, -, hprog⟩ := step_progress (List.getElem?_eq_getElem hlt) hst
  obtain rfl := Option.some.inj (hq.symm.trans hp')
  have hp := h i _ (List.getElem?_eq_getElem hlt)
  cases hprog with
  | idle => exact hp
  | read k hk =>
    rw [hk] at hp
    exact hp _
  | answered q k hk r =>
    rw [hk] at hp
    exact hp r
  | committed t k hk =>
    rw [hk] at hp
    exact hp.2
  | refused => trivial

theorem AllOnly.run (h : AllOnly P st) (hr : Run.run (Pool.step apply) st ls = some st') :
    AllOnly P st' := by
  induction ls generalizing st with
  | nil =>
    obtain rfl : st = st' := by simpa [Run.run] using hr
    exact h
  | cons l ls ih =>
    obtain ⟨u, hu, hr⟩ := Option.bind_eq_some_iff.mp hr
    exact ih (h.step hu) hr

/-- What every transaction that some handler may commit preserves holds throughout. -/
theorem AllOnly.always (h : AllOnly P st)
    (hJ : ∀ i t a b, J a → P i t → apply t a = .ok b → J b) (hj : J st.store) :
    Always (Pool.step apply) (fun u => J u.store) st ls := by
  induction ls generalizing st with
  | nil => exact hj
  | cons l ls ih =>
    refine ⟨hj, fun u hu => ih (h.step hu) ?_⟩
    cases step_moves hu with
    | read | refused | answered => exact hj
    | committed i t k hi s hs => exact hJ i t _ _ hj (h i _ hi).1 hs

end Pool

end SixGateway.Library
