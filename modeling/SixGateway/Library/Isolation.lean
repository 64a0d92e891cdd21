import SixGateway.Library.Pool
import Mathlib.Data.Set.Lattice
import Mathlib.Order.CompletePartialOrder
import Mathlib.Data.List.Perm.Basic
import Mathlib.Data.List.Range

namespace SixGateway.Library

variable {S Q R T ε α κ P : Type} (apply : T → S → Except ε S) (part : κ → S → P)

/-- Two stores agree on the parts of a footprint. -/
def Agree (K : Set κ) (s s' : S) : Prop := ∀ k ∈ K, part k s = part k s'

/-- What one transaction comes to at two stores is the same, as far as the footprint goes. -/
def SameEnd (K : Set κ) : Except ε S → Except ε S → Prop
  | .ok u, .ok v => Agree part K u v
  | .error e, .error f => e = f
  | _, _ => False

/-- A transaction works within a footprint: it writes no other part, and what it comes to depends
on no other part. Both are asked of the stores that satisfy `J`. -/
structure Within (J : S → Prop) (K : Set κ) (t : T) : Prop where
  keeps : ∀ s s', J s → apply t s = .ok s' → J s'
  frame : ∀ s s', J s → apply t s = .ok s' → ∀ k ∉ K, part k s' = part k s
  agrees : ∀ s s', J s → J s' → Agree part K s s' → SameEnd part K (apply t s) (apply t s')

def Program.Confined (J : S → Prop) (K : Set κ) : Program S Q R T ε α → Prop
  | ret _ => True
  | raise _ => True
  | read k => (∀ s s', J s → J s' → Agree part K s s' → k s = k s') ∧
      ∀ s, J s → (k s).Confined J K
  | call _ k => ∀ r, (k r).Confined J K
  | commit t k => Within apply part J K t ∧ k.Confined J K

def Outcome.calledAll (o : Outcome S Q R ε α) (cs : List (Q × R)) : Outcome S Q R ε α :=
  ⟨o.store, cs ++ o.calls, o.result⟩

variable {apply part} {J : S → Prop} {K : Set κ} {s s' u : S}

@[simp] theorem Outcome.calledAll_nil (o : Outcome S Q R ε α) : o.calledAll [] = o := rfl

theorem Agree.refl (K : Set κ) (s : S) : Agree part K s s := fun _ _ => rfl

theorem Agree.symm (h : Agree part K s s') : Agree part K s' s := fun k hk => (h k hk).symm

theorem Agree.trans (h : Agree part K s s') (h' : Agree part K s' u) : Agree part K s u :=
  fun k hk => (h k hk).trans (h' k hk)

theorem Agree.framed {L : Set κ} (h : Agree part K u s) (hd : Disjoint K L)
    (hf : ∀ k ∉ L, part k s' = part k s) : Agree part K u s' :=
  fun k hk => (h k hk).trans (hf k (Set.disjoint_left.mp hd hk)).symm

theorem Within.ok {t : T} (ht : Within apply part J K t) (hs : J s) (hu : J u)
    (h : Agree part K u s) (ha : apply t s = .ok s') :
    ∃ u', apply t u = .ok u' ∧ Agree part K u' s' := by
  have he := ht.agrees u s hu hs h
  rw [ha] at he
  cases hu' : apply t u with
  | ok u' => exact ⟨u', rfl, by rwa [hu'] at he⟩
  | error e => rw [hu'] at he; exact he.elim

theorem Within.error {t : T} (ht : Within apply part J K t) (hs : J s) (hu : J u)
    (h : Agree part K u s) {e : ε} (ha : apply t s = .error e) : apply t u = .error e := by
  have he := ht.agrees u s hu hs h
  rw [ha] at he
  cases hu' : apply t u with
  | ok u' => rw [hu'] at he; exact he.elim
  | error f =>
    rw [hu'] at he
    exact congrArg Except.error he

/-- A transaction rewrites one part by `w`, if `c` holds of it, and is refused with `e` otherwise. -/
structure Rewrites (apply : T → S → Except ε S) (part : κ → S → P) (J : S → Prop) (k₀ : κ) (t : T)
    (c : P → Bool) (w : P → P) (e : ε) : Prop where
  accepts : ∀ s, J s → c (part k₀ s) = true → ∃ s', apply t s = .ok s'
  refuses : ∀ s, J s → c (part k₀ s) = false → apply t s = .error e
  keeps : ∀ s s', J s → apply t s = .ok s' → J s'
  own : ∀ s s', J s → apply t s = .ok s' → part k₀ s' = w (part k₀ s)
  other : ∀ s s', J s → apply t s = .ok s' → ∀ k, k ≠ k₀ → part k s' = part k s

theorem Rewrites.within {k₀ : κ} {t : T} {c : P → Bool} {w : P → P} {e : ε}
    (h : Rewrites apply part J k₀ t c w e) (hk : k₀ ∈ K) : Within apply part J K t where
  keeps := h.keeps
  frame s s' hs ha k hn := h.other s s' hs ha k (fun he => hn (he ▸ hk))
  agrees s s' hs hs' hag := by
    cases hc : c (part k₀ s) with
    | false =>
      rw [h.refuses s hs hc, h.refuses s' hs' (by rw [← hag k₀ hk, hc])]
      rfl
    | true =>
      obtain ⟨u, hu⟩ := h.accepts s hs hc
      obtain ⟨u', hu'⟩ := h.accepts s' hs' (by rw [← hag k₀ hk, hc])
      rw [hu, hu']
      intro k hkK
      by_cases he : k = k₀
      · rw [he, h.own s u hs hu, h.own s' u' hs' hu', hag k₀ hk]
      · rw [h.other s u hs hu k he, h.other s' u' hs' hu' k he, hag k hkK]

namespace Program

def result? : Program S Q R T ε α → Option (Except ε α)
  | ret a => some (.ok a)
  | raise e => some (.error e)
  | read _ | call _ _ | commit _ _ => none

theorem exec_ended {answer : Q → R} {p : Program S Q R T ε α} {x : Except ε α}
    (h : p.result? = some x) (s : S) : exec apply answer p s = ⟨s, [], x⟩ := by
  cases p <;> cases h <;> rfl

variable {p : Program S Q R T ε α}

theorem Confined.bind {β : Type} {f : α → Program S Q R T ε β} (hp : p.Confined apply part J K)
    (hf : ∀ a, (f a).Confined apply part J K) : (p.bind f).Confined apply part J K := by
  induction p with
  | ret a => exact hf a
  | raise e => trivial
  | read k ih =>
    exact ⟨fun s s' hs hs' h => congrArg (fun q => q.bind f) (hp.1 s s' hs hs' h),
      fun s hs => ih s (hp.2 s hs)⟩
  | call q k ih => exact fun r => ih r (hp r)
  | commit t k ih => exact ⟨hp.1, ih hp.2⟩

theorem Confined.exec_frame (answer : Q → R) (hp : p.Confined apply part J K) (hs : J s) :
    J (exec apply answer p s).store ∧
      ∀ k ∉ K, part k (exec apply answer p s).store = part k s := by
  induction p generalizing s with
  | ret a => exact ⟨hs, fun _ _ => rfl⟩
  | raise e => exact ⟨hs, fun _ _ => rfl⟩
  | read k ih => exact ih s (hp.2 s hs) hs
  | call q k ih => exact ih (answer q) (hp (answer q)) hs
  | commit t k ih =>
    cases h : apply t s with
    | ok s' =>
      obtain ⟨hj, hf⟩ := ih hp.2 (hp.1.keeps s s' hs h)
      rw [exec_commit_ok h]
      exact ⟨hj, fun k hk => (hf k hk).trans (hp.1.frame s s' hs h k hk)⟩
    | error e =>
      rw [exec_commit_error h]
      exact ⟨hs, fun _ _ => rfl⟩

/-- Alone, a confined handler ends the same way wherever its footprint is the same. -/
theorem Confined.exec_agrees (answer : Q → R) (hp : p.Confined apply part J K) (hs : J s)
    (hu : J u) (h : Agree part K u s) :
    (exec apply answer p u).result = (exec apply answer p s).result ∧
      (exec apply answer p u).calls = (exec apply answer p s).calls ∧
      Agree part K (exec apply answer p u).store (exec apply answer p s).store := by
  induction p generalizing s u with
  | ret a => exact ⟨rfl, rfl, h⟩
  | raise e => exact ⟨rfl, rfl, h⟩
  | read k ih =>
    rw [exec_read, exec_read, hp.1 u s hu hs h]
    exact ih s (hp.2 s hs) hs hu h
  | call q k ih =>
    obtain ⟨hr, hc, hst⟩ := ih (answer q) (hp (answer q)) hs hu h
    exact ⟨hr, congrArg (List.cons _) hc, hst⟩
  | commit t k ih =>
    cases hs' : apply t s with
    | ok s' =>
      obtain ⟨u', hu', hag⟩ := hp.1.ok hs hu h hs'
      rw [exec_commit_ok hs', exec_commit_ok hu']
      exact ih hp.2 (hp.1.keeps s s' hs hs') (hp.1.keeps u u' hu hu') hag
    | error e =>
      rw [exec_commit_error hs', exec_commit_error (hp.1.error hs hu h hs')]
      exact ⟨rfl, rfl, h⟩

end Program

namespace Pool

def answering (st : Pool S Q R T ε α) : Nat × Act R → List (Q × R)
  | (_, .run) => []
  | (i, .answer r) =>
    match st.threads[i]? with
    | some (.call q _) => [(q, r)]
    | _ => []

/-- The calls of handler `i` get the answers that `answer` has for them. -/
def AnsweredBy (i : Nat) (answer : Q → R) (st : Pool S Q R T ε α) (l : Nat × Act R) : Prop :=
  l.1 = i → ∀ c ∈ answering st l, c.2 = answer c.1

instance (i : Nat) (answer : Q → R) [DecidableEq R] (st : Pool S Q R T ε α) (l : Nat × Act R) :
    Decidable (AnsweredBy i answer st l) := inferInstanceAs (Decidable (_ → _))

def callsOf (apply : T → S → Except ε S) (i : Nat) :
    Pool S Q R T ε α → List (Nat × Act R) → List (Q × R)
  | _, [] => []
  | st, l :: ls => (if l.1 = i then answering st l else []) ++
    match step apply st l with
    | some st' => callsOf apply i st' ls
    | none => []

variable {answer : Q → R} {st st' : Pool S Q R T ε α} {l : Nat × Act R} {ls : List (Nat × Act R)}
  {F : Nat → Set κ}

def AllConfined (apply : T → S → Except ε S) (part : κ → S → P) (J : S → Prop) (F : Nat → Set κ)
    (st : Pool S Q R T ε α) : Prop :=
  J st.store ∧ ∀ i (p : Program S Q R T ε α), st.threads[i]? = some p →
    p.Confined apply part J (F i)

theorem AllConfined.set (h : AllConfined apply part J F st) {i : Nat} {p : Program S Q R T ε α}
    (hp : p.Confined apply part J (F i)) {s : S} (hs : J s) (cs : List (Q × R)) :
    AllConfined apply part J F ⟨s, cs, st.threads.set i p⟩ := by
  refine ⟨hs, fun j q hq => ?_⟩
  rw [List.getElem?_set] at hq
  split at hq
  · next hij =>
    subst hij
    split at hq
    · cases hq
      exact hp
    · cases hq
  · exact h.2 j q hq

theorem AllConfined.step (h : AllConfined apply part J F st) (hst : step apply st l = some st') :
    AllConfined apply part J F st' ∧ ∀ k ∉ F l.1, part k st'.store = part k st.store := by
  cases step_moves hst with
  | read i k hi =>
    exact ⟨h.set ((h.2 i _ hi).2 st.store h.1) h.1 _, fun _ _ => rfl⟩
  | committed i t k hi s hs =>
    obtain ⟨ht, hk⟩ := h.2 i _ hi
    exact ⟨h.set hk (ht.keeps st.store s h.1 hs) _, ht.frame st.store s h.1 hs⟩
  | refused i t k hi e he => exact ⟨h.set (p := .raise e) trivial h.1 _, fun _ _ => rfl⟩
  | answered i q k hi r => exact ⟨h.set (h.2 i _ hi r) h.1 _, fun _ _ => rfl⟩

theorem run_confined (h : AllConfined apply part J F st)
    (hr : Run.run (Pool.step apply) st ls = some st') :
    AllConfined apply part J F st' ∧
      ∀ k, (∀ i, k ∉ F i) → part k st'.store = part k st.store := by
  have hany : Run.Along (Pool.step apply) (fun _ _ => True) st ls :=
    Run.along_of_forall (fun _ _ => trivial) st ls
  refine Run.invariant (I := fun u : Pool S Q R T ε α => AllConfined apply part J F u ∧
    ∀ k, (∀ i, k ∉ F i) → part k u.store = part k st.store) ?_ ⟨h, fun _ _ => rfl⟩ hany hr
  intro s l t hs _ hst
  obtain ⟨hc, hf⟩ := hs.1.step hst
  exact ⟨hc, fun k hk => (hf k (hk l.1)).trans (hs.2 k hk)⟩

/-- What is left of handler `i` after a move of the pool: run alone from a store that agrees with
the pool's on its footprint, it ends as it would have before the move. -/
theorem step_alone (hd : ∀ i j, i ≠ j → Disjoint (F i) (F j))
    (h : AllConfined apply part J F st) (hst : step apply st l = some st') {i : Nat}
    (ha : AnsweredBy i answer st l) {p : Program S Q R T ε α} (hp : st.threads[i]? = some p)
    (hu : J u) (hag : Agree part (F i) u st.store) :
    ∃ p' u', st'.threads[i]? = some p' ∧ J u' ∧ Agree part (F i) u' st'.store ∧
      Program.exec apply answer p u = (Program.exec apply answer p' u').calledAll
        (if l.1 = i then answering st l else []) := by
  have hconf := h.2 i p hp
  obtain ⟨hlt, -⟩ := List.getElem?_eq_some_iff.mp hp
  by_cases hi : l.1 = i
  · subst hi
    cases step_moves hst with
    | read i k hi =>
      cases hp.symm.trans hi
      refine ⟨k st.store, u, List.getElem?_set_self hlt, hu, hag, ?_⟩
      rw [Program.exec_read, hconf.1 u st.store hu h.1 hag]
      simp [answering]
    | committed i t k hi s hs =>
      cases hp.symm.trans hi
      obtain ⟨u', hu', hag'⟩ := hconf.1.ok h.1 hu hag hs
      refine ⟨k, u', List.getElem?_set_self hlt, hconf.1.keeps u u' hu hu', hag', ?_⟩
      rw [Program.exec_commit_ok hu']
      simp [answering]
    | refused i t k hi e he =>
      cases hp.symm.trans hi
      refine ⟨.raise e, u, List.getElem?_set_self hlt, hu, hag, ?_⟩
      rw [Program.exec_commit_error (hconf.1.error h.1 hu hag he)]
      simp [answering]
    | answered i q k hi r =>
      cases hp.symm.trans hi
      have hcall : answering st (i, .answer r) = [(q, r)] := by simp only [answering, hi]
      obtain rfl : r = answer q := ha rfl (q, r) (hcall ▸ List.mem_singleton_self _)
      refine ⟨k (answer q), u, List.getElem?_set_self hlt, hu, hag, ?_⟩
      rw [if_pos rfl, hcall, Program.exec_call]
      rfl
  · refine ⟨p, u, ?_, hu, hag.framed (hd i l.1 (Ne.symm hi)) (h.step hst).2, ?_⟩
    · cases step_moves hst <;> exact (List.getElem?_set_ne hi).trans hp
    · rw [if_neg hi]
      rfl

/-- A handler among others whose footprints are disjoint from its own makes the very calls that it
makes alone, and what is left of it ends as it ends alone. -/
theorem run_alone (hd : ∀ i j, i ≠ j → Disjoint (F i) (F j))
    (h : AllConfined apply part J F st) (hr : Run.run (step apply) st ls = some st') {i : Nat}
    (ha : Run.Along (step apply) (AnsweredBy i answer) st ls) {p : Program S Q R T ε α}
    (hp : st.threads[i]? = some p) (hu : J u) (hag : Agree part (F i) u st.store) :
    ∃ p' u', st'.threads[i]? = some p' ∧ J u' ∧ Agree part (F i) u' st'.store ∧
      Program.exec apply answer p u =
        (Program.exec apply answer p' u').calledAll (callsOf apply i st ls) := by
  induction ls generalizing st p u with
  | nil =>
    obtain rfl : st = st' := by simpa [Run.run] using hr
    exact ⟨p, u, hp, hu, hag, rfl⟩
  | cons l ls ih =>
    obtain ⟨mid, hmid, hr'⟩ := Option.bind_eq_some_iff.mp hr
    obtain ⟨p₁, u₁, hp₁, hu₁, hag₁, he₁⟩ := step_alone hd h hmid ha.1 hp hu hag
    obtain ⟨p₂, u₂, hp₂, hu₂, hag₂, he₂⟩ := ih (h.step hmid).1 hr' (ha.2 mid hmid) hp₁ hu₁ hag₁
    refine ⟨p₂, u₂, hp₂, hu₂, hag₂, ?_⟩
    rw [he₁, he₂]
    simp only [Outcome.calledAll, callsOf, hmid, List.append_assoc]

end Pool

section jobs

open Pool

/-- Handlers that are served, each with what its calls are answered and its footprint. -/
structure Job (S Q R T ε α κ : Type) where
  program : Program S Q R T ε α
  answer : Q → R
  footprint : Set κ

def Job.outcome (apply : T → S → Except ε S) (j : Job S Q R T ε α κ) (s : S) :
    Outcome S Q R ε α := Program.exec apply j.answer j.program s

/-- The store after jobs done one after another, each of them alone. -/
def serial (apply : T → S → Except ε S) : List (Job S Q R T ε α κ) → S → S
  | [], s => s
  | j :: js, s => serial apply js (j.outcome apply s).store

variable {j : Job S Q R T ε α κ} {js pre post : List (Job S Q R T ε α κ)}

/-- Jobs confined to footprints of which no two overlap. -/
structure Apart (apply : T → S → Except ε S) (part : κ → S → P) (J : S → Prop)
    (js : List (Job S Q R T ε α κ)) : Prop where
  confined : ∀ j ∈ js, j.program.Confined apply part J j.footprint
  disjoint : js.Pairwise (fun i j => Disjoint i.footprint j.footprint)

theorem Apart.perm {js' : List (Job S Q R T ε α κ)} (h : Apart apply part J js)
    (hp : js'.Perm js) : Apart apply part J js' where
  confined j hj := h.confined j (hp.mem_iff.mp hj)
  disjoint := (hp.pairwise_iff (fun h => h.symm)).mpr h.disjoint

theorem Apart.left (h : Apart apply part J (pre ++ post)) : Apart apply part J pre where
  confined j hj := h.confined j (List.mem_append_left _ hj)
  disjoint := (List.pairwise_append.mp h.disjoint).1

theorem Apart.right (h : Apart apply part J (pre ++ post)) : Apart apply part J post where
  confined j hj := h.confined j (List.mem_append_right _ hj)
  disjoint := (List.pairwise_append.mp h.disjoint).2.1

theorem Apart.tail (h : Apart apply part J (j :: js)) : Apart apply part J js :=
  @Apart.right _ _ _ _ _ _ _ _ _ _ _ [j] js h

theorem serial_append (s : S) :
    serial apply (pre ++ post) s = serial apply post (serial apply pre s) := by
  induction pre generalizing s with
  | nil => rfl
  | cons i is ih => exact ih _

theorem Apart.serial_frame (h : Apart apply part J js) (hs : J s) :
    J (serial apply js s) ∧
      ∀ k, (∀ j ∈ js, k ∉ j.footprint) → part k (serial apply js s) = part k s := by
  induction js generalizing s with
  | nil => exact ⟨hs, fun _ _ => rfl⟩
  | cons j js ih =>
    obtain ⟨hj, hf⟩ := (h.confined j List.mem_cons_self).exec_frame j.answer hs
    obtain ⟨hj', hf'⟩ := ih h.tail hj
    exact ⟨hj', fun k hk => (hf' k (fun i hm => hk i (List.mem_cons_of_mem _ hm))).trans
      (hf k (hk j List.mem_cons_self))⟩

theorem Apart.serial_alone (h : Apart apply part J (pre ++ j :: post)) (hs : J s) :
    (j.outcome apply (serial apply pre s)).result = (j.outcome apply s).result ∧
      (j.outcome apply (serial apply pre s)).calls = (j.outcome apply s).calls ∧
      Agree part j.footprint (serial apply (pre ++ j :: post) s) (j.outcome apply s).store := by
  obtain ⟨-, hd, hne⟩ := List.pairwise_append.mp h.disjoint
  obtain ⟨hjpre, hpre⟩ := h.left.serial_frame hs
  have hag : Agree part j.footprint (serial apply pre s) s := fun k hk =>
    hpre k (fun i hi hki => Set.disjoint_left.mp (hne i hi j List.mem_cons_self) hki hk)
  have hconf := h.confined j (List.mem_append_right _ List.mem_cons_self)
  obtain ⟨hr, hc, hst⟩ := hconf.exec_agrees j.answer hs hjpre hag
  refine ⟨hr, hc, fun k hk => Eq.trans ?_ (hst k hk)⟩
  rw [serial_append]
  have hpost : Apart apply part J post := h.right.tail
  exact (hpost.serial_frame (hconf.exec_frame j.answer hjpre).1).2 k (fun i hi hki =>
    Set.disjoint_left.mp ((List.pairwise_cons.mp hd).1 i hi) hk hki)

/-- Jobs taken up side by side, none of them begun. -/
def started (js : List (Job S Q R T ε α κ)) (s : S) (calls : List (Q × R)) :
    Pool S Q R T ε α := ⟨s, calls, js.map (fun j => j.program)⟩

def footprintAt (js : List (Job S Q R T ε α κ)) (i : Nat) : Set κ :=
  match js[i]? with
  | some j => j.footprint
  | none => ∅

theorem footprintAt_eq {i : Nat} (h : js[i]? = some j) : footprintAt js i = j.footprint := by
  simp only [footprintAt, h]

theorem footprintAt_none {i : Nat} (h : js[i]? = none) :
    footprintAt js i = (∅ : Set κ) := by
  simp only [footprintAt, h]

theorem Apart.footprints (h : Apart apply part J js) (i n : Nat) (hne : i ≠ n) :
    Disjoint (footprintAt js i) (footprintAt js n) := by
  cases hi : js[i]? with
  | none =>
    rw [footprintAt_none hi]
    exact Set.disjoint_left.mpr (fun _ hk => hk.elim)
  | some a =>
    cases hn : js[n]? with
    | none =>
      rw [footprintAt_none hn]
      exact Set.disjoint_left.mpr (fun _ _ hk => hk.elim)
    | some b =>
      rw [footprintAt_eq hi, footprintAt_eq hn]
      obtain ⟨hil, rfl⟩ := List.getElem?_eq_some_iff.mp hi
      obtain ⟨hnl, rfl⟩ := List.getElem?_eq_some_iff.mp hn
      have hp := List.pairwise_iff_getElem.mp h.disjoint
      obtain hlt | hlt := Nat.lt_or_gt_of_ne hne
      · exact hp i n hil hnl hlt
      · exact (hp n i hnl hil hlt).symm

theorem Apart.started (h : Apart apply part J js) (hs : J s) (calls : List (Q × R)) :
    AllConfined apply part J (footprintAt js) (started js s calls) := by
  refine ⟨hs, fun i p hp => ?_⟩
  obtain ⟨j, hj, rfl⟩ : ∃ j, js[i]? = some j ∧ j.program = p := by
    simpa [Library.started, List.getElem?_map] using hp
  rw [footprintAt_eq hj]
  exact h.confined j (List.mem_of_getElem? hj)

variable {calls : List (Q × R)} {ls : List (Nat × Act R)} {st : Pool S Q R T ε α}

/-- However the moves of jobs with disjoint footprints are interleaved, each job goes as it goes
alone: it makes the same calls, comes to the same result, and leaves the same in its footprint. -/
theorem Apart.run_alone (h : Apart apply part J js) (hs : J s)
    (hr : Run.run (step apply) (Library.started js s calls) ls = some st) {i : Nat}
    (hj : js[i]? = some j)
    (ha : Run.Along (step apply) (AnsweredBy i j.answer) (Library.started js s calls) ls) :
    ∃ p, st.threads[i]? = some p ∧ ∀ x, p.result? = some x →
      (j.outcome apply s).result = x ∧
        (j.outcome apply s).calls = callsOf apply i (Library.started js s calls) ls ∧
        Agree part j.footprint (j.outcome apply s).store st.store := by
  have hjp : (Library.started js s calls).threads[i]? = some j.program := by
    simp [Library.started, List.getElem?_map, hj]
  obtain ⟨p, u, hp, -, hag, he⟩ := Pool.run_alone h.footprints (h.started hs calls) hr ha hjp hs
    (Agree.refl _ s)
  refine ⟨p, hp, fun x hx => ?_⟩
  rw [Program.exec_ended hx] at he
  rw [footprintAt_eq hj] at hag
  rw [Job.outcome, he]
  exact ⟨rfl, List.append_nil _, hag⟩

def Pool.Ended (st : Pool S Q R T ε α) : Prop := ∀ p ∈ st.threads, ∃ x, p.result? = some x

/-- Every interleaving of jobs with disjoint footprints that has come to its end leaves what the
jobs leave when they are done one after another, in whatever order. -/
theorem Apart.serializable (h : Apart apply part J js) (hs : J s)
    (hr : Run.run (step apply) (Library.started js s calls) ls = some st)
    (ha : ∀ (i : Nat) (j : Job S Q R T ε α κ), js[i]? = some j →
      Run.Along (step apply) (AnsweredBy i j.answer) (Library.started js s calls) ls)
    (hend : st.Ended) {order : List (Job S Q R T ε α κ)} (ho : order.Perm js) (k : κ) :
    part k st.store = part k (serial apply order s) := by
  by_cases hk : ∃ j ∈ js, k ∈ j.footprint
  · obtain ⟨j, hj, hkj⟩ := hk
    obtain ⟨i, hi⟩ := List.getElem?_of_mem hj
    obtain ⟨p, hp, hres⟩ := h.run_alone hs hr hi (ha i j hi)
    obtain ⟨x, hx⟩ := hend p (List.mem_of_getElem? hp)
    obtain ⟨-, -, hag⟩ := hres x hx
    obtain ⟨pre, post, rfl⟩ := List.append_of_mem (ho.mem_iff.mpr hj)
    obtain ⟨-, -, hag'⟩ := (h.perm ho).serial_alone hs
    exact (hag k hkj).symm.trans (hag' k hkj).symm
  · have hn : ∀ j ∈ js, k ∉ j.footprint := fun j hj hkj => hk ⟨j, hj, hkj⟩
    have hfoot : ∀ i, k ∉ footprintAt js i := by
      intro i hki
      cases hi : js[i]? with
      | none =>
        rw [footprintAt_none hi] at hki
        exact hki
      | some j =>
        rw [footprintAt_eq hi] at hki
        exact hn j (List.mem_of_getElem? hi) hki
    have hpool := (run_confined (h.started hs calls) hr).2 k hfoot
    have hser := ((h.perm ho).serial_frame hs).2 k (fun j hj => hn j (ho.mem_iff.mp hj))
    exact hpool.trans hser.symm

end jobs

end SixGateway.Library
