import SixGateway.Library.Commits

namespace SixGateway.Library

open Run

variable {S Q R T ε α : Type}

/-- Claims to a thing of which there is one: a claim goes through only while the thing is free, and
nothing else changes whether it is. -/
structure Exclusive (apply : T → S → Except ε S) (Claim : T → Prop) (Taken : S → Prop) : Prop where
  takes : ∀ t s s', Claim t → apply t s = .ok s' → ¬ Taken s ∧ Taken s'
  stays : ∀ t s s', ¬ Claim t → apply t s = .ok s' → (Taken s' ↔ Taken s)

namespace Program

/-- A handler that commits nothing more and returns what satisfies `Won`. -/
def Wins (Won : α → Prop) : Program S Q R T ε α → Prop
  | ret a => Won a
  | raise _ => False
  | read k => ∀ s, (k s).Wins Won
  | call _ k => ∀ r, (k r).Wins Won
  | commit _ _ => False

/-- A handler that makes one claim, which satisfies `P`, and wins if it goes through. -/
def Claims (P : T → Prop) (Won : α → Prop) : Program S Q R T ε α → Prop
  | ret _ => False
  | raise _ => False
  | read k => ∀ s, (k s).Claims P Won
  | call _ k => ∀ r, (k r).Claims P Won
  | commit t k => P t ∧ k.Wins Won

theorem Claims.weaken {P P' : T → Prop} {Won : α → Prop} {p : Program S Q R T ε α}
    (hp : p.Claims P Won) (h : ∀ t, P t → P' t) : p.Claims P' Won := by
  induction p with
  | ret a | raise e => exact hp
  | read k ih => exact fun s => ih s (hp s)
  | call q k ih => exact fun r => ih r (hp r)
  | commit t k => exact ⟨h t hp.1, hp.2⟩

end Program

namespace Pool

theorem getElem?_set_cases {ts : List (Program S Q R T ε α)} {i j : Nat}
    {p q : Program S Q R T ε α} (h : (ts.set i p)[j]? = some q) :
    (j = i ∧ q = p) ∨ (j ≠ i ∧ ts[j]? = some q) := by
  by_cases hij : j = i
  · subst hij
    have hlt : j < ts.length := by
      simpa using (List.getElem?_eq_some_iff.mp h).1
    rw [List.getElem?_set_self hlt] at h
    exact .inl ⟨rfl, (Option.some.inj h).symm⟩
  · rw [List.getElem?_set_ne (Ne.symm hij)] at h
    exact .inr ⟨hij, h⟩

/-- A claim that is refused is refused because the thing is taken. -/
def Fair (apply : T → S → Except ε S) (Claim : T → Prop) (Taken : S → Prop)
    (st : Pool S Q R T ε α) : Nat × Act R → Prop
  | (i, .run) => ∀ t k e, st.threads[i]? = some (.commit t k) → Claim t →
    apply t st.store = .error e → Taken st.store
  | (_, .answer _) => True

/-- How a contest of the handlers in `J` stands: `winner` has won it, if anybody has, and every other one
is still to make its claim or has been turned down. -/
structure Standing (Taken : S → Prop) (J : Nat → Prop) (P : Nat → T → Prop)
    (Lost : Nat → ε → Prop) (Won : α → Prop) (st : Pool S Q R T ε α) (winner : Option Nat) :
    Prop where
  taken : Taken st.store ↔ winner.isSome = true
  won : ∀ i, winner = some i → J i ∧ ∃ p, st.threads[i]? = some p ∧ p.Wins Won
  others : ∀ i p, st.threads[i]? = some p → J i → winner ≠ some i →
    p.Claims (P i) Won ∨ ∃ e, p = .raise e ∧ Lost i e ∧ winner.isSome = true

variable {apply : T → S → Except ε S} {Claim : T → Prop} {Taken : S → Prop} {J : Nat → Prop}
  {P : Nat → T → Prop} {Lost : Nat → ε → Prop} {Won : α → Prop} {st st' : Pool S Q R T ε α}
  {winner : Option Nat} {l : Nat × Act R} {ls : List (Nat × Act R)} {i : Nat}
  {p q : Program S Q R T ε α}

theorem Standing.moved (h : Standing Taken J P Lost Won st winner) (hi : st.threads[i]? = some p)
    (hset : st'.threads = st.threads.set i q) (htaken : Taken st'.store ↔ Taken st.store)
    (hwins : p.Wins Won → q.Wins Won) (hraise : ∀ e, p ≠ .raise e)
    (hclaims : p.Claims (P i) Won → q.Claims (P i) Won ∨
      ∃ e, q = .raise e ∧ Lost i e ∧ Taken st.store) :
    Standing Taken J P Lost Won st' winner where
  taken := htaken.trans h.taken
  won j hj := by
    obtain ⟨hJ, p', hp', hw⟩ := h.won j hj
    refine ⟨hJ, ?_⟩
    rw [hset]
    by_cases hij : j = i
    · subst hij
      obtain rfl := Option.some.inj (hi.symm.trans hp')
      exact ⟨q, List.getElem?_set_self (List.getElem?_eq_some_iff.mp hi).1, hwins hw⟩
    · exact ⟨p', by rw [List.getElem?_set_ne (Ne.symm hij), hp'], hw⟩
  others j p' hp' hJ hne := by
    rw [hset] at hp'
    obtain ⟨rfl, rfl⟩ | ⟨-, hp'⟩ := getElem?_set_cases hp'
    · obtain hc | ⟨e, he, -⟩ := h.others j p hi hJ hne
      · obtain hc' | ⟨e, he, hl, ht⟩ := hclaims hc
        · exact .inl hc'
        · exact .inr ⟨e, he, hl, h.taken.mp ht⟩
      · exact absurd he (hraise e)
    · exact h.others j p' hp' hJ hne

theorem Standing.step (hx : Exclusive apply Claim Taken) (hP : ∀ i t, P i t → Claim t)
    (hlost : ∀ i t s e, P i t → apply t s = .error e → Lost i e)
    (h : Standing Taken J P Lost Won st winner) (honly : AllOnly (fun i t => Claim t → J i) st)
    (hf : Fair apply Claim Taken st l) (hst : Pool.step apply st l = some st') :
    ∃ winner', Standing Taken J P Lost Won st' winner' := by
  cases step_moves hst with
  | read i k hi =>
    refine ⟨winner, h.moved hi rfl Iff.rfl (fun hw => hw _) ?_ (fun hc => .inl (hc _))⟩
    exact fun _ he => nomatch he
  | answered i q k hi r =>
    refine ⟨winner, h.moved hi rfl Iff.rfl (fun hw => hw r) ?_ (fun hc => .inl (hc r))⟩
    exact fun _ he => nomatch he
  | refused i t k hi e he =>
    refine ⟨winner, h.moved hi rfl Iff.rfl (fun hw => hw.elim) (fun _ he => nomatch he) ?_⟩
    exact fun hc => .inr ⟨e, rfl, hlost i t _ e hc.1 he, hf t k e hi (hP i t hc.1) he⟩
  | committed i t k hi s hs =>
    by_cases hclaim : Claim t
    · obtain ⟨hfree, htaken⟩ := hx.takes t _ _ hclaim hs
      have hnone : winner = none := by
        rw [h.taken, Bool.not_eq_true, Option.isSome_eq_false_iff, Option.isNone_iff_eq_none] at hfree
        exact hfree
      subst hnone
      have hJ : J i := (honly i _ hi).1 hclaim
      have hwins : k.Wins Won := by
        obtain hc | ⟨e, he, -⟩ := h.others i _ hi hJ (by simp)
        · exact hc.2
        · cases he
      refine ⟨some i, iff_of_true htaken rfl, ?_, fun j p' hp' hJ' hne => ?_⟩
      · rintro _ ⟨⟩
        exact ⟨hJ, k, List.getElem?_set_self (List.getElem?_eq_some_iff.mp hi).1, hwins⟩
      · obtain ⟨rfl, -⟩ | ⟨-, hp'⟩ := getElem?_set_cases hp'
        · exact absurd rfl hne
        · obtain hc | ⟨_, _, _, hsome⟩ := h.others j p' hp' hJ' (by simp)
          · exact .inl hc
          · cases hsome
    · refine ⟨winner, h.moved hi rfl (hx.stays t _ _ hclaim hs) (fun hw => hw.elim) ?_ ?_⟩
      · exact fun _ he => nomatch he
      · exact fun hc => absurd (hP i t hc.1) hclaim

/-- A contest of handlers that make one claim each has one winner at most, whatever else goes on. -/
theorem standing_run (hx : Exclusive apply Claim Taken) (hP : ∀ i t, P i t → Claim t)
    (hlost : ∀ i t s e, P i t → apply t s = .error e → Lost i e)
    (honly : AllOnly (fun i t => Claim t → J i) st) (hfree : ¬ Taken st.store)
    (hstart : ∀ i p, st.threads[i]? = some p → J i → p.Claims (P i) Won)
    (hf : Along (Pool.step apply) (Fair apply Claim Taken) st ls)
    (hr : run (Pool.step apply) st ls = some st') :
    ∃ winner, Standing Taken J P Lost Won st' winner := by
  have h : ∃ winner, Standing Taken J P Lost Won st winner :=
    ⟨none, iff_of_false hfree Bool.false_ne_true, (fun _ hi => nomatch hi),
      fun i p hp hJ _ => .inl (hstart i p hp hJ)⟩
  have hstep : ∀ (u : Pool S Q R T ε α) (l : Nat × Act R) (v : Pool S Q R T ε α),
      ((∃ winner, Standing Taken J P Lost Won u winner) ∧ AllOnly (fun i t => Claim t → J i) u) →
      Fair apply Claim Taken u l → Pool.step apply u l = some v →
      (∃ winner, Standing Taken J P Lost Won v winner) ∧ AllOnly (fun i t => Claim t → J i) v := by
    rintro u l v ⟨⟨winner, hu⟩, ho⟩ hl hv
    exact ⟨hu.step hx hP hlost ho hl hv, ho.step hv⟩
  exact (Run.invariant hstep ⟨h, honly⟩ hf hr).1

section ended

variable (h : Standing Taken J P Lost Won st winner)

include h

theorem Standing.returned {a : α} (hi : st.threads[i]? = some (.ret a)) (hJ : J i) :
    winner = some i ∧ Won a := by
  by_cases hw : winner = some i
  · obtain ⟨-, p', hp', hwins⟩ := h.won i hw
    obtain rfl := Option.some.inj (hi.symm.trans hp')
    exact ⟨hw, hwins⟩
  · obtain hc | ⟨e, he, -⟩ := h.others i _ hi hJ hw
    · exact hc.elim
    · cases he

theorem Standing.raised {e : ε} (hi : st.threads[i]? = some (.raise e)) (hJ : J i) :
    Lost i e ∧ Taken st.store := by
  by_cases hw : winner = some i
  · obtain ⟨-, p', hp', hwins⟩ := h.won i hw
    obtain rfl := Option.some.inj (hi.symm.trans hp')
    exact hwins.elim
  · obtain hc | ⟨e', he, hl, hsome⟩ := h.others i _ hi hJ hw
    · exact hc.elim
    · cases he
      exact ⟨hl, h.taken.mpr hsome⟩

theorem Standing.somebody {x : Except ε α} (hi : st.threads[i]? = some p) (hJ : J i)
    (hx : p.result? = some x)
    (hall : ∀ j q, st.threads[j]? = some q → J j → ∃ x, q.result? = some x) :
    ∃ j a, J j ∧ st.threads[j]? = some (.ret a) ∧ Won a := by
  cases winner with
  | none =>
    obtain hc | ⟨_, _, _, hsome⟩ := h.others i p hi hJ (by simp)
    · cases p with
      | ret a | raise e => exact hc.elim
      | read | call | commit => cases hx
    · cases hsome
  | some j =>
    obtain ⟨hJ', q, hq, hwins⟩ := h.won j rfl
    obtain ⟨y, hy⟩ := hall j q hq hJ'
    cases q with
    | ret a => exact ⟨j, a, hJ', hq, hwins⟩
    | raise e => exact hwins.elim
    | read | call | commit => cases hy

end ended

end Pool

end SixGateway.Library
