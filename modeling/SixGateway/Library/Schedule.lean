import SixGateway.Library.Commits

namespace SixGateway.Library

open Run

variable {S Q R T ε α β : Type} {apply : T → S → Except ε S}

namespace Program

/-- Whatever the handler commits satisfies `P` at the store as it was at the move before. -/
def Prepared (P : S → T → Prop) : Program S Q R T ε α → S → Prop
  | ret _, _ => True
  | raise _, _ => True
  | read k, _ => ∀ s, (k s).Prepared P s
  | call _ k, _ => ∀ r s, (k r).Prepared P s
  | commit t k, s => P s t ∧ ∀ s', k.Prepared P s'

variable {P : S → T → Prop} {p : Program S Q R T ε α} {s : S}

theorem prepared_of_forall (h : ∀ s t, P s t) (p : Program S Q R T ε α) (s : S) :
    p.Prepared P s := by
  induction p generalizing s with
  | ret a | raise e => trivial
  | read k ih => exact fun s => ih s s
  | call q k ih => exact fun r s => ih r s
  | commit t k ih => exact ⟨h s t, ih⟩

theorem Prepared.bind {f : α → Program S Q R T ε β} (hp : p.Prepared P s)
    (hf : ∀ a s, (f a).Prepared P s) : (p.bind f).Prepared P s := by
  induction p generalizing s with
  | ret a => exact hf a s
  | raise e => trivial
  | read k ih => exact fun s => ih s (hp s)
  | call q k ih => exact fun r s => ih r (hp r s)
  | commit t k ih => exact ⟨hp.1, fun s => ih (hp.2 s)⟩

theorem safe_of_forall {G : S → S → Prop} {A : Q → R → Prop} {C : S → T → Prop}
    {Post : α → S → Prop} (hP : ∀ s t, P s t) (hPost : ∀ a s, Post a s) (p : Program S Q R T ε α)
    (s : S) : Safe apply G A C P Post p s := by
  induction p generalizing s with
  | ret a => exact fun s _ => hPost a s
  | raise e => trivial
  | read k ih => exact fun s _ => ih s s
  | call q k ih => exact fun r _ => ih r s
  | commit t k ih => exact fun s _ => ⟨hP s t, fun _ u _ => ih u⟩

end Program

namespace Pool

/-- A schedule in which no handler moves again once another has moved after it. -/
def Serial : List (Nat × Act R) → Prop
  | [] => True
  | l :: ls => (∀ m ∈ ls.dropWhile (fun m => m.1 = l.1), m.1 ≠ l.1) ∧ Serial ls

section serial

variable {G : S → S → Prop} {A : Q → R → Prop} {C P : Nat → S → T → Prop} {Post : α → S → Prop}
  {st st' : Pool S Q R T ε α} {l : Nat × Act R} {ls : List (Nat × Act R)} {p : Program S Q R T ε α}

theorem step_own (hrefl : ∀ s, G s s) (hp : st.threads[l.1]? = some p)
    (hs : Program.Safe apply G A (C l.1) (P l.1) Post p st.store) (hm : Meets apply A C st l)
    (hst : step apply st l = some st') :
    (∃ q, st'.threads[l.1]? = some q ∧
      Program.Safe apply G A (C l.1) (P l.1) Post q st'.store) ∧
    ∀ j, j ≠ l.1 → st'.threads[j]? = st.threads[j]? := by
  have hlt := (List.getElem?_eq_some_iff.mp hp).1
  refine ⟨?_, fun j hj => by cases step_moves hst <;> exact List.getElem?_set_ne hj.symm⟩
  cases step_moves hst with
  | read i k hi =>
    obtain rfl := Option.some.inj (hi.symm.trans hp)
    exact ⟨_, List.getElem?_set_self hlt, hs st.store (hrefl _)⟩
  | committed i t k hi s ha =>
    obtain rfl := Option.some.inj (hi.symm.trans hp)
    exact ⟨_, List.getElem?_set_self hlt, (hs st.store (hrefl _)).2 (hm t k s hi ha) s ha⟩
  | refused i t k hi e he => exact ⟨.raise e, List.getElem?_set_self hlt, trivial⟩
  | answered i q k hi r =>
    obtain rfl := Option.some.inj (hi.symm.trans hp)
    exact ⟨_, List.getElem?_set_self hlt, hs r (hm q k hi)⟩

/-- Where the handlers move one after another, each of them commits what it would commit alone. -/
theorem serial_commits (hrefl : ∀ s, G s s)
    (h : ∀ i p, st.threads[i]? = some p → ∀ s, Program.Safe apply G A (C i) (P i) Post p s)
    (hserial : Serial ls) (hm : Along (step apply) (Meets apply A C) st ls) :
    Along (step apply)
      (fun u l => ∀ t k, u.threads[l.1]? = some (.commit t k) → P l.1 u.store t) st ls := by
  have hstart : ∀ i p, st.threads[i]? = some p → (∃ m ∈ ls, m.1 = i) →
      Program.Safe apply G A (C i) (P i) Post p st.store ∧
        (ls.head?.map Prod.fst ≠ some i → ∀ s, Program.Safe apply G A (C i) (P i) Post p s) :=
    fun i p hp _ => ⟨h i p hp st.store, fun _ => h i p hp⟩
  clear h
  induction ls generalizing st with
  | nil => trivial
  | cons l ls ih =>
    refine ⟨fun t k hi => ?_, fun u hu => ih hserial.2 (hm.2 u hu) (fun i p hp hlater => ?_)⟩
    · exact ((hstart l.1 _ hi ⟨l, List.mem_cons_self, rfl⟩).1 st.store (hrefl _)).1
    · by_cases hil : i = l.1
      · subst hil
        have hlt : l.1 < st.threads.length := by
          have hlen : u.threads.length = st.threads.length := by cases step_moves hu <;> simp
          exact hlen ▸ (List.getElem?_eq_some_iff.mp hp).1
        have hown := List.getElem?_eq_getElem hlt
        obtain ⟨⟨q, hq, hs⟩, -⟩ := step_own hrefl hown
          (hstart l.1 _ hown ⟨l, List.mem_cons_self, rfl⟩).1 hm.1 hu
        obtain rfl := Option.some.inj (hq.symm.trans hp)
        refine ⟨hs, fun hhead => ?_⟩
        -- the next move is another handler's, so this one never moves again
        obtain ⟨m, hmem, hml⟩ := hlater
        have hdrop : ls.dropWhile (fun m => m.1 = l.1) = ls := by
          cases ls with
          | nil => rfl
          | cons n ns =>
            have hne : n.1 ≠ l.1 := fun he => hhead (by rw [List.head?_cons, Option.map_some, he])
            exact List.dropWhile_cons_of_neg (by simpa using hne)
        exact absurd hml (hserial.1 m (by rwa [hdrop]))
      · have hsame : u.threads[i]? = st.threads[i]? := by
          cases step_moves hu <;> exact List.getElem?_set_ne (Ne.symm hil)
        obtain ⟨m, hmem, hmi⟩ := hlater
        have hall := (hstart i p (hsame ▸ hp) ⟨m, List.mem_cons_of_mem l hmem, hmi⟩).2
          (fun he => hil (Option.some.inj he).symm)
        exact ⟨hall u.store, fun _ => hall⟩

end serial

theorem set_self_eq {ts : List (Program S Q R T ε α)} {i : Nat} {p q r : Program S Q R T ε α}
    (hi : ts[i]? = some p) (h : (ts.set i q)[i]? = some r) : q = r := by
  rw [List.getElem?_set_self (List.getElem?_eq_some_iff.mp hi).1] at h
  exact Option.some.inj h

/-- A pool, with what others have committed since each handler made its last move. -/
structure Watched (S Q R T ε α : Type) where
  pool : Pool S Q R T ε α
  since : Nat → List T

def watching (st : Pool S Q R T ε α) : Watched S Q R T ε α := ⟨st, fun _ => []⟩

def watch (apply : T → S → Except ε S) (w : Watched S Q R T ε α) (l : Nat × Act R) :
    Option (Watched S Q R T ε α) :=
  (step apply w.pool l).map (fun st =>
    ⟨st, fun i => if i = l.1 then [] else w.since i ++ committed apply w.pool l⟩)

def Applied (apply : T → S → Except ε S) : List T → S → S → Prop
  | [], s, s' => s = s'
  | t :: ts, s, s' => ∃ u, apply t s = .ok u ∧ Applied apply ts u s'

/-- Every handler stands where `P` has prepared it, and the store has come from there by what
others have committed. -/
def AllPrepared (apply : T → S → Except ε S) (P : Nat → S → T → Prop)
    (w : Watched S Q R T ε α) : Prop :=
  ∀ (i : Nat) (p : Program S Q R T ε α), w.pool.threads[i]? = some p →
    ∃ s, p.Prepared (P i) s ∧ Applied apply (w.since i) s w.pool.store

variable {P : Nat → S → T → Prop} {w w' : Watched S Q R T ε α} {l : Nat × Act R}
  {ls : List (Nat × Act R)} {s s' u : S} {t : T} {ts : List T}

theorem Applied.append {ts' : List T} (h : Applied apply ts s u) (h' : Applied apply ts' u s') :
    Applied apply (ts ++ ts') s s' := by
  induction ts generalizing s with
  | nil =>
    obtain rfl : s = u := h
    exact h'
  | cons t ts ih =>
    obtain ⟨v, hv, h⟩ := h
    exact ⟨v, hv, ih h⟩

section made

variable {D : S → Prop} {M : T → Prop}

theorem Applied.made (hD : ∀ t s s', apply t s = .ok s' → D s' → D s ∨ M t)
    (h : Applied apply ts s s') (hd : D s') : D s ∨ ∃ t ∈ ts, M t := by
  induction ts generalizing s with
  | nil =>
    obtain rfl : s = s' := h
    exact .inl hd
  | cons t ts ih =>
    obtain ⟨u, hu, h⟩ := h
    obtain hdu | ⟨t', ht', hm⟩ := ih h
    · exact (hD t s u hu hdu).imp_right (fun hm => ⟨t, List.mem_cons_self, hm⟩)
    · exact .inr ⟨t', List.mem_cons_of_mem t ht', hm⟩

theorem Applied.made_iff (hD : ∀ t s s', apply t s = .ok s' → (D s' ↔ D s ∨ M t))
    (h : Applied apply ts s s') : D s' ↔ D s ∨ ∃ t ∈ ts, M t := by
  induction ts generalizing s with
  | nil =>
    obtain rfl : s = s' := h
    simp
  | cons t ts ih =>
    obtain ⟨u, hu, h⟩ := h
    rw [ih h, hD t s u hu, or_assoc]
    simp only [List.mem_cons, exists_eq_or_imp]

end made

theorem applied_committed {st st' : Pool S Q R T ε α} (h : step apply st l = some st') :
    Applied apply (committed apply st l) st.store st'.store := by
  cases step_moves h with
  | read i k hi =>
    rw [committed, hi]
    rfl
  | committed i t k hi s hs =>
    simp only [committed, hi, hs]
    exact ⟨s, hs, rfl⟩
  | refused i t k hi e he =>
    simp only [committed, hi, he]
    rfl
  | answered => rfl

theorem commits_of_mem {st st' : Pool S Q R T ε α} (h : step apply st l = some st')
    (ht : t ∈ committed apply st l) :
    ∃ k, st.threads[l.1]? = some (.commit t k) ∧ apply t st.store = .ok st'.store := by
  cases step_moves h with
  | read i k hi =>
    rw [committed, hi] at ht
    cases ht
  | committed i t' k hi s hs =>
    simp only [committed, hi, hs, List.mem_singleton] at ht
    subst ht
    exact ⟨k, hi, hs⟩
  | refused i t' k hi e he =>
    simp only [committed, hi, he] at ht
    cases ht
  | answered => cases ht

theorem watch_moves (h : watch apply w l = some w') : step apply w.pool l = some w'.pool ∧
    ∀ i, w'.since i = if i = l.1 then [] else w.since i ++ committed apply w.pool l := by
  obtain ⟨st, hst, rfl⟩ := Option.map_eq_some_iff.mp h
  exact ⟨hst, fun _ => rfl⟩

theorem along_watch {C : Pool S Q R T ε α → Nat × Act R → Prop} :
    Along (watch apply) (fun w l => C w.pool l) w ls ↔ Along (step apply) C w.pool ls := by
  induction ls generalizing w with
  | nil => exact Iff.rfl
  | cons l ls ih =>
    cases h : step apply w.pool l with
    | none => simp [Along, watch, h]
    | some st => simp [Along, watch, h, ih]

theorem AllPrepared.step (h : AllPrepared apply P w) (hst : watch apply w l = some w') :
    AllPrepared apply P w' := by
  obtain ⟨pool, since⟩ := w'
  obtain ⟨hmove, hsince⟩ := watch_moves hst
  intro i p hp
  by_cases hil : i = l.1
  · refine ⟨pool.store, ?_, by rw [hsince, if_pos hil]; rfl⟩
    subst hil
    cases step_moves hmove with
    | read i k hi =>
      obtain ⟨s, hk, -⟩ := h i _ hi
      obtain rfl := set_self_eq hi hp
      exact hk w.pool.store
    | committed i t k hi s' ht =>
      obtain ⟨s, hk, -⟩ := h i _ hi
      obtain rfl := set_self_eq hi hp
      exact hk.2 s'
    | refused i t k hi e he =>
      obtain rfl := set_self_eq hi hp
      trivial
    | answered i q k hi r =>
      obtain ⟨s, hk, -⟩ := h i _ hi
      obtain rfl := set_self_eq hi hp
      exact hk r w.pool.store
  · have hsame : pool.threads[i]? = w.pool.threads[i]? := by
      cases step_moves hmove <;> exact List.getElem?_set_ne (Ne.symm hil)
    obtain ⟨s, hs, happ⟩ := h i p (hsame ▸ hp)
    refine ⟨s, hs, ?_⟩
    rw [hsince, if_neg hil]
    exact happ.append (applied_committed hmove)

theorem AllPrepared.commit (h : AllPrepared apply P w) {i : Nat} {k : Program S Q R T ε α}
    (hi : w.pool.threads[i]? = some (.commit t k)) :
    ∃ s, P i s t ∧ Applied apply (w.since i) s w.pool.store := by
  obtain ⟨s, hs, happ⟩ := h i _ hi
  exact ⟨s, hs.1, happ⟩

theorem allPrepared_watching {st : Pool S Q R T ε α}
    (h : ∀ (i : Nat) (p : Program S Q R T ε α), st.threads[i]? = some p → p.Prepared (P i) st.store) :
    AllPrepared apply P (watching st) := fun i p hp => ⟨st.store, h i p hp, rfl⟩

end Pool

end SixGateway.Library
