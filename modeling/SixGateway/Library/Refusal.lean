import SixGateway.Library.Isolation
import SixGateway.Library.Embedding

namespace SixGateway.Library

open Run

variable {S Q R T ε α β : Type} (apply : T → S → Except ε S) (early late : ε → Prop)
  (done fine : α → Prop) (mild : T → Prop)

def Ends (error : ε → Prop) (result : α → Prop) : Except ε α → Prop
  | .ok a => result a
  | .error e => error e

namespace Program

/-- Every error of the handler is late, and every result fine. -/
def Settled : Program S Q R T ε α → Prop
  | ret a => fine a
  | raise e => late e
  | read k => ∀ s, (k s).Settled
  | call _ k => ∀ r, (k r).Settled
  | commit t k => (∀ s e, apply t s = .error e → late e) ∧ k.Settled

/-- Before its first call and its first transaction that is not mild, the errors of the handler are
early and its results done; after that it is settled. -/
def Careful : Program S Q R T ε α → Prop
  | ret a => done a
  | raise e => early e
  | read k => ∀ s, (k s).Careful
  | call _ k => ∀ r, (k r).Settled apply late fine
  | commit t k => (∀ s e, apply t s = .error e → early e) ∧
      ((mild t ∧ k.Careful) ∨ k.Settled apply late fine)

variable {apply early late done fine mild} {p : Program S Q R T ε α}
  {f : α → Program S Q R T ε β} {done' fine' : β → Prop}

theorem Settled.mono {late' : ε → Prop} (hl : ∀ e, late e → late' e)
    (hp : p.Settled apply late fine) : p.Settled apply late' fine := by
  induction p with
  | ret a => exact hp
  | raise e => exact hl e hp
  | read k ih => exact fun s => ih s (hp s)
  | call q k ih => exact fun r => ih r (hp r)
  | commit t k ih => exact ⟨fun s e h => hl e (hp.1 s e h), ih hp.2⟩

theorem Careful.mono {early' late' : ε → Prop} (he : ∀ e, early e → early' e)
    (hl : ∀ e, late e → late' e) (hp : p.Careful apply early late done fine mild) :
    p.Careful apply early' late' done fine mild := by
  induction p with
  | ret a => exact hp
  | raise e => exact he e hp
  | read k ih => exact fun s => ih s (hp s)
  | call q k ih => exact fun r => (hp r).mono hl
  | commit t k ih =>
    exact ⟨fun s e h => he e (hp.1 s e h),
      hp.2.imp (fun h => ⟨h.1, ih h.2⟩) (fun h => h.mono hl)⟩

theorem Settled.bind (hp : p.Settled apply late fine)
    (hf : ∀ a, fine a → (f a).Settled apply late fine') : (p.bind f).Settled apply late fine' := by
  induction p with
  | ret a => exact hf a hp
  | raise e => exact hp
  | read k ih => exact fun s => ih s (hp s)
  | call q k ih => exact fun r => ih r (hp r)
  | commit t k ih => exact ⟨hp.1, ih hp.2⟩

theorem Careful.bind (hp : p.Careful apply early late done fine mild)
    (hdone : ∀ a, done a → (f a).Careful apply early late done' fine' mild)
    (hfine : ∀ a, fine a → (f a).Settled apply late fine') :
    (p.bind f).Careful apply early late done' fine' mild := by
  induction p with
  | ret a => exact hdone a hp
  | raise e => exact hp
  | read k ih => exact fun s => ih s (hp s)
  | call q k ih => exact fun r => (hp r).bind hfine
  | commit t k ih =>
    exact ⟨hp.1, hp.2.imp (fun h => ⟨h.1, ih h.2⟩) (fun h => h.bind hfine)⟩

section

variable {W Q' R' T' ε' : Type} {E : Embedding S Q R T ε W Q' R' T' ε'}
  {apply' : T' → W → Except ε' W} {early' late' : ε' → Prop} {mild' : T' → Prop}

theorem Embedding.refused (h : E.Faithful apply apply') {t : T} {P : ε → Prop} {P' : ε' → Prop}
    (hP : ∀ e, P e → P' (E.fail e)) (ht : ∀ s e, apply t s = .error e → P e) (w : W) (e : ε')
    (he : apply' (E.lift t) w = .error e) : P' e := by
  cases ha : apply t (E.part.get w) with
  | ok s =>
    rw [h.ok ha] at he
    cases he
  | error e' =>
    rw [h.error ha] at he
    cases he
    exact hP e' (ht _ e' ha)

theorem Settled.embed (h : E.Faithful apply apply') (hl : ∀ e, late e → late' (E.fail e))
    (hp : p.Settled apply late fine) : (p.embed E).Settled apply' late' fine := by
  induction p with
  | ret a => exact hp
  | raise e => exact hl e hp
  | read k ih => exact fun w => ih _ (hp _)
  | call q k ih => exact fun r => ih _ (hp _)
  | commit t k ih => exact ⟨Embedding.refused h hl hp.1, ih hp.2⟩

theorem Careful.embed (h : E.Faithful apply apply') (he : ∀ e, early e → early' (E.fail e))
    (hl : ∀ e, late e → late' (E.fail e)) (hmild : ∀ t, mild t → mild' (E.lift t))
    (hp : p.Careful apply early late done fine mild) :
    (p.embed E).Careful apply' early' late' done fine mild' := by
  induction p with
  | ret a => exact hp
  | raise e => exact he e hp
  | read k ih => exact fun w => ih _ (hp _)
  | call q k ih => exact fun r => (hp _).embed h hl
  | commit t k ih =>
    exact ⟨Embedding.refused h he hp.1,
      hp.2.imp (fun hk => ⟨hmild t hk.1, ih hk.2⟩) (fun hk => hk.embed h hl)⟩

end

variable (answer : Q → R)

theorem Settled.exec (hp : p.Settled apply late fine) (s : S) :
    Ends late fine (exec apply answer p s).result := by
  induction p generalizing s with
  | ret a | raise e => exact hp
  | read k ih => exact ih s (hp s) s
  | call q k ih => exact ih (answer q) (hp (answer q)) s
  | commit t k ih =>
    cases h : apply t s with
    | ok s' =>
      rw [exec_commit_ok h]
      exact ih hp.2 s'
    | error e =>
      rw [exec_commit_error h]
      exact hp.1 s e h

theorem Careful.exec (hp : p.Careful apply early late done fine mild) (s : S) :
    Ends early done (Program.exec apply answer p s).result ∨
      Ends late fine (Program.exec apply answer p s).result := by
  induction p generalizing s with
  | ret a | raise e => exact .inl hp
  | read k ih => exact ih s (hp s) s
  | call q k ih => exact .inr ((hp (answer q)).exec answer s)
  | commit t k ih =>
    cases h : apply t s with
    | ok s' =>
      rw [exec_commit_ok h]
      cases hp.2 with
      | inl hk => exact ih hk.2 s'
      | inr hk => exact .inr (hk.exec answer s')
    | error e =>
      rw [exec_commit_error h]
      exact .inl (hp.1 s e h)

/-- A handler that only reads and then raises, as long as what it reads satisfies `J`. -/
def Barred (J : S → Prop) (E : ε → Prop) : Program S Q R T ε α → Prop
  | ret _ => False
  | raise e => E e
  | read k => ∀ s, J s → (k s).Barred J E
  | call _ _ => False
  | commit _ _ => False

theorem Barred.bind {J : S → Prop} {E : ε → Prop} {p : Program S Q R T ε α}
    (h : p.Barred J E) (f : α → Program S Q R T ε β) : (p.bind f).Barred J E := by
  induction p with
  | ret a => exact h.elim
  | raise e => exact h
  | read k ih => exact fun s hs => ih s (h s hs)
  | call q k => exact h.elim
  | commit t k => exact h.elim

theorem Barred.weaken {J J' : S → Prop} {E : ε → Prop} {p : Program S Q R T ε α}
    (h : p.Barred J E) (hJ : ∀ s, J' s → J s) : p.Barred J' E := by
  induction p with
  | ret a => exact h.elim
  | raise e => exact h
  | read k ih => exact fun s hs => ih s (h s (hJ s hs))
  | call q k => exact h.elim
  | commit t k => exact h.elim

end Program

namespace Pool

def committed (apply : T → S → Except ε S) (st : Pool S Q R T ε α) : Nat × Act R → List T
  | (i, .run) =>
    match st.threads[i]? with
    | some (.commit t _) =>
      match apply t st.store with
      | .ok _ => [t]
      | .error _ => []
    | _ => []
  | (_, .answer _) => []

def commitsOf (apply : T → S → Except ε S) (i : Nat) :
    Pool S Q R T ε α → List (Nat × Act R) → List T
  | _, [] => []
  | st, l :: ls => (if l.1 = i then committed apply st l else []) ++
    match step apply st l with
    | some st' => commitsOf apply i st' ls
    | none => []

variable {apply early late done fine mild} {st st' : Pool S Q R T ε α} {l : Nat × Act R}
  {ls : List (Nat × Act R)} {i : Nat} {p : Program S Q R T ε α}

/-- The program of a handler after a move, its own or that of another, from store `s`. -/
inductive Progress (apply : T → S → Except ε S) (s : S) (p : Program S Q R T ε α) :
    List (Q × R) → List T → Program S Q R T ε α → Prop
  | idle : Progress apply s p [] [] p
  | read (k : S → Program S Q R T ε α) (at_read : p = .read k) : Progress apply s p [] [] (k s)
  | answered (q : Q) (k : R → Program S Q R T ε α) (at_call : p = .call q k) (r : R) :
      Progress apply s p [(q, r)] [] (k r)
  | committed (t : T) (k : Program S Q R T ε α) (at_commit : p = .commit t k) :
      Progress apply s p [] [t] k
  | refused (t : T) (k : Program S Q R T ε α) (at_commit : p = .commit t k) (e : ε)
      (applied : apply t s = .error e) : Progress apply s p [] [] (.raise e)

theorem step_progress (hp : st.threads[i]? = some p) (h : step apply st l = some st') :
    ∃ p' cs ts, st'.threads[i]? = some p' ∧ (if l.1 = i then answering st l else []) = cs ∧
      (if l.1 = i then committed apply st l else []) = ts ∧ Progress apply st.store p cs ts p' := by
  have hset : ∀ (j : Nat) (q : Program S Q R T ε α), j ≠ i →
      (st.threads.set j q)[i]? = some p := fun j q hj => by rw [List.getElem?_set_ne hj, hp]
  have hown : ∀ q : Program S Q R T ε α, (st.threads.set i q)[i]? = some q := fun q =>
    List.getElem?_set_self (List.getElem?_eq_some_iff.mp hp).1
  by_cases hi : l.1 = i
  · simp only [if_pos hi]
    cases step_moves h with
    | read j k hj =>
      obtain rfl := hi
      obtain rfl := Option.some.inj (hj.symm.trans hp)
      refine ⟨k st.store, [], [], hown _, ?_, ?_, .read k rfl⟩
      · rfl
      · simp only [committed, hj]
    | committed j t k hj s hs =>
      obtain rfl := hi
      obtain rfl := Option.some.inj (hj.symm.trans hp)
      refine ⟨k, [], [t], hown _, ?_, ?_, .committed t k rfl⟩
      · rfl
      · simp only [committed, hj, hs]
    | refused j t k hj e he =>
      obtain rfl := hi
      obtain rfl := Option.some.inj (hj.symm.trans hp)
      refine ⟨.raise e, [], [], hown _, ?_, ?_, .refused t k rfl e he⟩
      · rfl
      · simp only [committed, hj, he]
    | answered j q k hj r =>
      obtain rfl := hi
      obtain rfl := Option.some.inj (hj.symm.trans hp)
      refine ⟨k r, [(q, r)], [], hown _, ?_, ?_, .answered q k rfl r⟩
      · simp only [answering, hj]
      · rfl
  · simp only [if_neg hi]
    refine ⟨p, [], [], ?_, rfl, rfl, .idle⟩
    cases step_moves h with
    | read j k hj => exact hset j _ hi
    | committed j t k hj s hs => exact hset j _ hi
    | refused j t k hj e he => exact hset j _ hi
    | answered j q k hj r => exact hset j _ hi

/-- A barred handler gets nowhere as long as the store satisfies `J`. -/
theorem barred_run {J : S → Prop} {E : ε → Prop} (hp : st.threads[i]? = some p)
    (hb : p.Barred J E) (hJ : Always (step apply) (fun u => J u.store) st ls)
    (hr : run (step apply) st ls = some st') :
    callsOf apply i st ls = [] ∧ commitsOf apply i st ls = [] ∧
      ∃ p', st'.threads[i]? = some p' ∧ p'.Barred J E := by
  induction ls generalizing st p with
  | nil =>
    obtain rfl : st = st' := by simpa [run] using hr
    exact ⟨rfl, rfl, p, hp, hb⟩
  | cons l ls ih =>
    obtain ⟨u, hu, hr⟩ := Option.bind_eq_some_iff.mp hr
    obtain ⟨q, cs, ts, hq, hcs, hts, hprog⟩ := step_progress hp hu
    simp only [callsOf, commitsOf, hu, hcs, hts]
    cases hprog with
    | idle => exact ih hq hb (hJ.2 u hu) hr
    | read k hk =>
      subst hk
      exact ih hq (hb _ hJ.1) (hJ.2 u hu) hr
    | answered q k hk r =>
      subst hk
      exact hb.elim
    | committed t k hk | refused t k hk =>
      subst hk
      exact hb.elim

theorem settled_run (hp : st.threads[i]? = some p) (hs : p.Settled apply late fine)
    (hr : run (step apply) st ls = some st') {p' : Program S Q R T ε α}
    (hp' : st'.threads[i]? = some p') {x : Except ε α} (hx : p'.result? = some x) :
    Ends late fine x := by
  induction ls generalizing st p with
  | nil =>
    obtain rfl : st = st' := by simpa [run] using hr
    obtain rfl := Option.some.inj (hp.symm.trans hp')
    cases p with
    | ret a | raise e =>
      cases hx
      exact hs
    | read | call | commit => cases hx
  | cons l ls ih =>
    obtain ⟨u, hu, hr⟩ := Option.bind_eq_some_iff.mp hr
    obtain ⟨q, cs, ts, hq, -, -, hprog⟩ := step_progress hp hu
    refine ih hq ?_ hr
    cases hprog with
    | idle => exact hs
    | read k hk =>
      subst hk
      exact hs _
    | answered q k hk r =>
      subst hk
      exact hs r
    | committed t k hk =>
      subst hk
      exact hs.2
    | refused t k hk e ha =>
      subst hk
      exact hs.1 _ e ha

/-- A careful handler that has ended early has called nobody and committed mild transactions only,
in whatever way its steps interleave with those of the others. -/
theorem careful_run (hp : st.threads[i]? = some p)
    (hc : p.Careful apply early late done fine mild) (hr : run (step apply) st ls = some st')
    {p' : Program S Q R T ε α} (hp' : st'.threads[i]? = some p') {x : Except ε α}
    (hx : p'.result? = some x) :
    (Ends early done x ∧ callsOf apply i st ls = [] ∧ ∀ t ∈ commitsOf apply i st ls, mild t) ∨
      Ends late fine x := by
  induction ls generalizing st p with
  | nil =>
    obtain rfl : st = st' := by simpa [run] using hr
    obtain rfl := Option.some.inj (hp.symm.trans hp')
    refine .inl ⟨?_, rfl, fun t ht => absurd ht List.not_mem_nil⟩
    cases p with
    | ret a | raise e =>
      cases hx
      exact hc
    | read | call | commit => cases hx
  | cons l ls ih =>
    obtain ⟨u, hu, hr⟩ := Option.bind_eq_some_iff.mp hr
    obtain ⟨q, cs, ts, hq, hcs, hts, hprog⟩ := step_progress hp hu
    simp only [callsOf, commitsOf, hu, hcs, hts]
    cases hprog with
    | idle => exact ih hq hc hr
    | read k hk =>
      subst hk
      exact ih hq (hc _) hr
    | answered q k hk r =>
      subst hk
      exact .inr (settled_run hq (hc r) hr hp' hx)
    | committed t k hk =>
      subst hk
      cases hc.2 with
      | inl h =>
        obtain ⟨hend, hcalls, hcommits⟩ | hlate := ih hq h.2 hr
        · refine .inl ⟨hend, hcalls, fun t' ht' => ?_⟩
          obtain rfl | ht' := List.mem_cons.mp ht'
          · exact h.1
          · exact hcommits t' ht'
        · exact .inr hlate
      | inr h => exact .inr (settled_run hq h hr hp' hx)
    | refused t k hk e ha =>
      subst hk
      exact ih hq (p := .raise e) (hc.1 _ e ha) hr

end Pool

end SixGateway.Library
