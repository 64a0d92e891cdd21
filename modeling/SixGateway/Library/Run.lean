import Mathlib.Data.List.Basic

namespace SixGateway.Library.Run

variable {σ ℓ : Type} (step : σ → ℓ → Option σ)

def run : σ → List ℓ → Option σ
  | s, [] => some s
  | s, l :: ls => (step s l).bind (fun t => run t ls)

/-- Every label of a run meets `C` in the state in which it is taken. -/
def Along (C : σ → ℓ → Prop) : σ → List ℓ → Prop
  | _, [] => True
  | s, l :: ls => C s l ∧ ∀ t, step s l = some t → Along C t ls

/-- `P` holds in every state that a run passes through, its ends included. -/
def Always (P : σ → Prop) : σ → List ℓ → Prop
  | s, [] => P s
  | s, l :: ls => P s ∧ ∀ t, step s l = some t → Always P t ls

def alongDecidable (C : σ → ℓ → Prop) [∀ s l, Decidable (C s l)] :
    (s : σ) → (ls : List ℓ) → Decidable (Along step C s ls)
  | _, [] => isTrue trivial
  | s, l :: ls =>
    have : Decidable (∀ t, step s l = some t → Along step C t ls) :=
      match step s l with
      | none => isTrue (fun _ ht => nomatch ht)
      | some t => @decidable_of_iff _ (Along step C t ls)
        ⟨fun ha _ ht => Option.some.inj ht ▸ ha, fun ha => ha t rfl⟩ (alongDecidable C t ls)
    inferInstanceAs (Decidable (_ ∧ _))

instance (C : σ → ℓ → Prop) [∀ s l, Decidable (C s l)] (s : σ) (ls : List ℓ) :
    Decidable (Along step C s ls) := alongDecidable step C s ls

def alwaysDecidable (P : σ → Prop) [DecidablePred P] :
    (s : σ) → (ls : List ℓ) → Decidable (Always step P s ls)
  | s, [] => inferInstanceAs (Decidable (P s))
  | s, l :: ls =>
    have : Decidable (∀ t, step s l = some t → Always step P t ls) :=
      match step s l with
      | none => isTrue (fun _ ht => nomatch ht)
      | some t => @decidable_of_iff _ (Always step P t ls)
        ⟨fun ha _ ht => Option.some.inj ht ▸ ha, fun ha => ha t rfl⟩ (alwaysDecidable P t ls)
    inferInstanceAs (Decidable (_ ∧ _))

instance (P : σ → Prop) [DecidablePred P] (s : σ) (ls : List ℓ) :
    Decidable (Always step P s ls) := alwaysDecidable step P s ls

variable {step} {C D E : σ → ℓ → Prop} {I P : σ → Prop}

theorem run_append (s : σ) (ls ms : List ℓ) :
    run step s (ls ++ ms) = (run step s ls).bind (fun t => run step t ms) := by
  induction ls generalizing s with
  | nil => rfl
  | cons l ls ih =>
    cases h : step s l with
    | none => simp [run, h]
    | some t => simp [run, h, ih]

theorem along_append (s : σ) (ls ms : List ℓ) :
    Along step C s (ls ++ ms) ↔
      Along step C s ls ∧ ∀ t, run step s ls = some t → Along step C t ms := by
  induction ls generalizing s with
  | nil => simp [Along, run]
  | cons l ls ih =>
    cases h : step s l with
    | none => simp [Along, run, h]
    | some t => simp [Along, run, h, ih, and_assoc]

theorem along_of_forall (h : ∀ s l, C s l) (s : σ) (ls : List ℓ) : Along step C s ls := by
  induction ls generalizing s with
  | nil => trivial
  | cons l ls ih => exact ⟨h s l, fun t _ => ih t⟩

theorem along_mono (h : ∀ s l, C s l → D s l) (s : σ) (ls : List ℓ) :
    Along step C s ls → Along step D s ls := by
  induction ls generalizing s with
  | nil => exact id
  | cons l ls ih => exact fun hc => ⟨h s l hc.1, fun t ht => ih t (hc.2 t ht)⟩

theorem along_and (s : σ) (ls : List ℓ) (hc : Along step C s ls) (hd : Along step D s ls) :
    Along step (fun s l => C s l ∧ D s l) s ls := by
  induction ls generalizing s with
  | nil => trivial
  | cons l ls ih => exact ⟨⟨hc.1, hd.1⟩, fun t ht => ih t (hc.2 t ht) (hd.2 t ht)⟩

theorem invariant (hI : ∀ s l t, I s → C s l → step s l = some t → I t) {s t : σ}
    {ls : List ℓ} (hs : I s) (hc : Along step C s ls) (hr : run step s ls = some t) : I t := by
  induction ls generalizing s with
  | nil =>
    obtain rfl : s = t := by simpa [run] using hr
    exact hs
  | cons l ls ih =>
    obtain ⟨u, hu, hr'⟩ := Option.bind_eq_some_iff.mp hr
    exact ih (hI s l u hs hc.1 hu) (hc.2 u hu) hr'

theorem always_of_invariant (hI : ∀ s l t, I s → C s l → step s l = some t → I t) {s : σ}
    {ls : List ℓ} (hs : I s) (hc : Along step C s ls) : Always step I s ls := by
  induction ls generalizing s with
  | nil => exact hs
  | cons l ls ih => exact ⟨hs, fun t ht => ih (hI s l t hs hc.1 ht) (hc.2 t ht)⟩

theorem along_of_invariant (hI : ∀ s l t, I s → C s l → step s l = some t → I t)
    (hD : ∀ s l, I s → C s l → D s l) {s : σ} {ls : List ℓ} (hs : I s)
    (hc : Along step C s ls) : Along step D s ls := by
  induction ls generalizing s with
  | nil => trivial
  | cons l ls ih =>
    exact ⟨hD s l hs hc.1, fun t ht => ih (hI s l t hs hc.1 ht) (hc.2 t ht)⟩

/-- Two conditions that agree wherever the invariant holds are met by the same runs. The invariant
may rest on the condition that has been met so far. -/
theorem along_congr (hI : ∀ s l t, I s → C s l → D s l → step s l = some t → I t)
    (hD : ∀ s l, I s → C s l → (D s l ↔ E s l)) {s : σ} {ls : List ℓ} (hs : I s)
    (hc : Along step C s ls) : Along step D s ls ↔ Along step E s ls := by
  induction ls generalizing s with
  | nil => exact Iff.rfl
  | cons l ls ih =>
    constructor
    · intro hd
      refine ⟨(hD s l hs hc.1).mp hd.1, fun t ht => ?_⟩
      exact (ih (hI s l t hs hc.1 hd.1 ht) (hc.2 t ht)).mp (hd.2 t ht)
    · intro he
      have hd := (hD s l hs hc.1).mpr he.1
      exact ⟨hd, fun t ht => (ih (hI s l t hs hc.1 hd ht) (hc.2 t ht)).mpr (he.2 t ht)⟩

theorem always_mono (h : ∀ s, I s → P s) (s : σ) (ls : List ℓ) :
    Always step I s ls → Always step P s ls := by
  induction ls generalizing s with
  | nil => exact h s
  | cons l ls ih => exact fun hi => ⟨h s hi.1, fun t ht => ih t (hi.2 t ht)⟩

theorem always_head {s : σ} {ls : List ℓ} (h : Always step P s ls) : P s := by
  cases ls with
  | nil => exact h
  | cons l ls => exact h.1

theorem always_end {s t : σ} {ls : List ℓ} (h : Always step P s ls)
    (hr : run step s ls = some t) : P t := by
  induction ls generalizing s with
  | nil =>
    obtain rfl : s = t := by simpa [run] using hr
    exact h
  | cons l ls ih =>
    obtain ⟨u, hu, hr'⟩ := Option.bind_eq_some_iff.mp hr
    exact ih (h.2 u hu) hr'

/-- Where `D` says of each step whether it keeps `P`, a run keeps `P` throughout exactly when it
meets `D` throughout. -/
theorem always_iff_along (hI : ∀ s l t, I s → C s l → step s l = some t → I t)
    (hD : ∀ s l t, I s → C s l → P s → step s l = some t → (P t ↔ D s l))
    (hidle : ∀ s l, step s l = none → D s l) {s : σ} {ls : List ℓ} (hs : I s) (hp : P s)
    (hc : Along step C s ls) : Always step P s ls ↔ Along step D s ls := by
  induction ls generalizing s with
  | nil => simp [Always, Along, hp]
  | cons l ls ih =>
    cases h : step s l with
    | none => simp [Always, Along, hp, h, hidle s l h]
    | some t =>
      have ht := hI s l t hs hc.1 h
      have hpd := hD s l t hs hc.1 hp h
      constructor
      · intro ha
        have hat := ha.2 t h
        have hpt := always_head hat
        exact ⟨hpd.mp hpt, fun u hu => by
          obtain rfl : t = u := Option.some.inj (h.symm.trans hu)
          exact (ih ht hpt (hc.2 t h)).mp hat⟩
      · intro hd
        have hpt := hpd.mpr hd.1
        exact ⟨hp, fun u hu => by
          obtain rfl : t = u := Option.some.inj (h.symm.trans hu)
          exact (ih ht hpt (hc.2 t h)).mpr (hd.2 t h)⟩

/-- The state of a run after its first `n` steps. -/
def After (step : σ → ℓ → Option σ) (s : σ) (ls : List ℓ) (n : Nat) (t : σ) : Prop :=
  n ≤ ls.length ∧ run step s (ls.take n) = some t

theorem After.zero (s : σ) (ls : List ℓ) : After step s ls 0 s := ⟨Nat.zero_le _, rfl⟩

theorem After.cons {s t u : σ} {l : ℓ} {ls : List ℓ} {n : Nat} (ht : step s l = some t)
    (hu : After step t ls n u) : After step s (l :: ls) (n + 1) u := by
  refine ⟨Nat.succ_le_succ hu.1, ?_⟩
  rw [List.take_succ_cons, run, ht]
  exact hu.2

theorem After.whole {s t : σ} {ls : List ℓ} (hr : run step s ls = some t) :
    After step s ls ls.length t := ⟨Nat.le_refl _, by rw [List.take_length, hr]⟩

/-- What a run brings about comes about in one of its steps. -/
theorem After.crossing {s t : σ} {ls : List ℓ} (hs : ¬ P s) (hr : run step s ls = some t)
    (ht : P t) : ∃ n u l v, After step s ls n u ∧ step u l = some v ∧ After step s ls (n + 1) v ∧
      ¬ P u ∧ P v := by
  induction ls generalizing s with
  | nil =>
    obtain rfl : s = t := by simpa [run] using hr
    exact absurd ht hs
  | cons l ls ih =>
    obtain ⟨w, hw, hr⟩ := Option.bind_eq_some_iff.mp hr
    by_cases hp : P w
    · exact ⟨0, s, l, w, After.zero s _, hw, (After.zero w ls).cons hw, hs, hp⟩
    · obtain ⟨n, u, l', v, hu, hstep, hv, hnew⟩ := ih hp hr
      exact ⟨n + 1, u, l', v, hu.cons hw, hstep, hv.cons hw, hnew⟩

theorem After.between {s t u : σ} {ls : List ℓ} {i j : Nat} (ht : After step s ls i t)
    (hu : After step s ls j u) (hij : i ≤ j) : ∃ ms, run step t ms = some u := by
  refine ⟨(ls.take j).drop i, ?_⟩
  have hsplit : ls.take j = ls.take i ++ (ls.take j).drop i := by
    conv_lhs => rw [← List.take_append_drop i (ls.take j), List.take_take, Nat.min_eq_left hij]
  have hrun := hu.2
  rwa [hsplit, run_append, ht.2, Option.bind_some] at hrun

theorem run_total (f : σ → ℓ → σ) (s : σ) (ls : List ℓ) :
    run (fun s l => some (f s l)) s ls = some (ls.foldl f s) := by
  induction ls generalizing s with
  | nil => rfl
  | cons l ls ih => simpa [run] using ih (f s l)

end SixGateway.Library.Run
