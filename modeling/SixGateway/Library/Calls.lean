import SixGateway.Library.Pool

namespace SixGateway.Library

open Run

variable {S Q R T ε α β : Type} (apply : T → S → Except ε S) (G : S → S → Prop)

namespace Program

def Mute : Program S Q R T ε α → Prop
  | ret _ => True
  | raise _ => True
  | read k => ∀ s, (k s).Mute
  | call _ _ => False
  | commit _ k => k.Mute

/-- From store `s` on, as long as everybody else moves the store along `G`, the handler makes one
call at most, which satisfies `C` at that time. -/
def CallsOnce (C : S → Q → Prop) : Program S Q R T ε α → S → Prop
  | ret _, _ => True
  | raise _, _ => True
  | read k, s => ∀ s', G s s' → (k s').CallsOnce C s'
  | call q k, s => C s q ∧ ∀ r, (k r).Mute
  | commit t k, s => ∀ s', G s s' → ∀ s'', apply t s' = .ok s'' → k.CallsOnce C s''

variable {apply G} {C : S → Q → Prop} {p : Program S Q R T ε α} {f : α → Program S Q R T ε β}
  {s s' : S}

theorem Mute.bind (hp : p.Mute) (hf : ∀ a, (f a).Mute) : (p.bind f).Mute := by
  induction p with
  | ret a => exact hf a
  | raise e => trivial
  | read k ih => exact fun s => ih s (hp s)
  | call q k => exact hp.elim
  | commit t k ih => exact ih hp

theorem Mute.callsOnce (hp : p.Mute) (s : S) : p.CallsOnce apply G C s := by
  induction p generalizing s with
  | ret a | raise e => trivial
  | read k ih => exact fun s' _ => ih s' (hp s') s'
  | call q k => exact hp.elim
  | commit t k ih => exact fun _ _ s'' _ => ih hp s''

theorem CallsOnce.bind (hp : p.CallsOnce apply G C s) (hf : ∀ a, (f a).Mute) :
    (p.bind f).CallsOnce apply G C s := by
  induction p generalizing s with
  | ret a => exact (hf a).callsOnce s
  | raise e => trivial
  | read k ih => exact fun s' hs => ih s' (hp s' hs)
  | call q k => exact ⟨hp.1, fun r => (hp.2 r).bind hf⟩
  | commit t k ih => exact fun s' hs s'' ht => ih (hp s' hs s'' ht)

theorem CallsOnce.weaken {C' : S → Q → Prop} (hp : p.CallsOnce apply G C s)
    (hC : ∀ s q, C s q → C' s q) : p.CallsOnce apply G C' s := by
  induction p generalizing s with
  | ret a | raise e => trivial
  | read k ih => exact fun s' hs => ih s' (hp s' hs)
  | call q k => exact ⟨hC s q hp.1, hp.2⟩
  | commit t k ih => exact fun s' hs s'' ht => ih (hp s' hs s'' ht)

theorem CallsOnce.mono (htr : ∀ a b c, G a b → G b c → G a c)
    (hC : ∀ a b q, G a b → C a q → C b q) (hp : p.CallsOnce apply G C s) (hs : G s s') :
    p.CallsOnce apply G C s' := by
  cases p with
  | ret a | raise e => trivial
  | read k => exact fun u hu => hp u (htr _ _ _ hs hu)
  | call q k => exact ⟨hC s s' q hs hp.1, hp.2⟩
  | commit t k => exact fun u hu => hp u (htr _ _ _ hs hu)

end Program

namespace Pool

variable {apply G} {C : Nat → S → Q → Prop} {st st' : Pool S Q R T ε α} {l : Nat × Act R}
  {ls : List (Nat × Act R)} {js : List Nat} {old new : List (Q × R)}

/-- The calls since `old` are those of the handlers in `js`, one of each. -/
structure CalledBy (apply : T → S → Except ε S) (G : S → S → Prop) (C : Nat → S → Q → Prop)
    (old new : List (Q × R)) (st : Pool S Q R T ε α) (js : List Nat) : Prop where
  once : js.Nodup
  calls : st.calls = old ++ new
  made : List.Forall₂ (fun i c => C i st.store c.1) js new
  before : ∀ (i : Nat) (p : Program S Q R T ε α), st.threads[i]? = some p → i ∉ js →
    p.CallsOnce apply G (C i) st.store
  after : ∀ (i : Nat) (p : Program S Q R T ε α), st.threads[i]? = some p → i ∈ js → p.Mute

theorem CalledBy.moved (htr : ∀ a b c, G a b → G b c → G a c)
    (hC : ∀ i a b q, G a b → C i a q → C i b q) (h : CalledBy apply G C old new st js)
    (hs : G st.store st'.store) {i : Nat} {p : Program S Q R T ε α}
    (hcalls : st'.calls = st.calls) (hthreads : st'.threads = st.threads.set i p)
    (hbefore : i ∉ js → p.CallsOnce apply G (C i) st'.store) (hafter : i ∈ js → p.Mute) :
    CalledBy apply G C old new st' js where
  once := h.once
  calls := hcalls.trans h.calls
  made := h.made.imp fun i (c : Q × R) => hC i _ _ c.1 hs
  before n q hq hn := by
    rw [hthreads, List.getElem?_set] at hq
    split at hq
    · next hin =>
      subst hin
      split at hq
      · obtain rfl := Option.some.inj hq
        exact hbefore hn
      · cases hq
    · exact (h.before n q hq hn).mono htr (hC n) hs
  after n q hq hn := by
    rw [hthreads, List.getElem?_set] at hq
    split at hq
    · next hin =>
      subst hin
      split at hq
      · obtain rfl := Option.some.inj hq
        exact hafter hn
      · cases hq
    · exact h.after n q hq hn

theorem CalledBy.step (hrefl : ∀ a, G a a) (htr : ∀ a b c, G a b → G b c → G a c)
    (hC : ∀ i a b q, G a b → C i a q → C i b q) (h : CalledBy apply G C old new st js)
    (hst : Pool.step apply st l = some st') (hs : G st.store st'.store) :
    ∃ js' new', CalledBy apply G C old new' st' js' := by
  cases step_moves hst with
  | read i k hi =>
    exact ⟨js, new, h.moved htr hC hs rfl rfl (fun hn => h.before i _ hi hn _ (hrefl _))
      (fun hn => h.after i _ hi hn _)⟩
  | committed i t k hi s ht =>
    exact ⟨js, new, h.moved htr hC hs rfl rfl
      (fun hn => h.before i _ hi hn _ (hrefl _) s ht) (fun hn => h.after i (.commit t k) hi hn)⟩
  | refused i t k hi e he =>
    exact ⟨js, new, h.moved htr hC hs rfl rfl (fun _ => trivial) (fun _ => trivial)⟩
  | answered i q k hi r =>
    have hn : i ∉ js := fun hn => h.after i _ hi hn
    obtain ⟨hq, hk⟩ := h.before i _ hi hn
    have hmoved : CalledBy apply G C old new ⟨st.store, st.calls, st.threads.set i (k r)⟩ js :=
      h.moved htr hC hs rfl rfl (fun _ => (hk r).callsOnce _) (fun _ => hk r)
    refine ⟨js ++ [i], new ++ [(q, r)], ?_, ?_, ?_, fun n p hp hn' => ?_, fun n p hp hn' => ?_⟩
    · exact List.nodup_append.mpr ⟨h.once, List.nodup_cons.mpr ⟨List.not_mem_nil, List.nodup_nil⟩,
        fun a ha b hb hab => hn (List.mem_singleton.mp hb ▸ hab ▸ ha)⟩
    · rw [h.calls, List.append_assoc]
    · exact List.rel_append h.made (.cons hq .nil)
    · exact hmoved.before n p hp (fun hm => hn' (List.mem_append.mpr (.inl hm)))
    · obtain hm | hm := List.mem_append.mp hn'
      · exact hmoved.after n p hp hm
      · obtain rfl := List.mem_singleton.mp hm
        rw [List.getElem?_set_self (List.getElem?_eq_some_iff.mp hi).1] at hp
        exact Option.some.inj hp ▸ hk r

/-- Where every handler makes one call at most and the store moves along `G`, the calls of a run
belong to different handlers, and each satisfies in the end what is known of the calls of its
handler. -/
theorem calls_run (hrefl : ∀ a, G a a) (htr : ∀ a b c, G a b → G b c → G a c)
    (hC : ∀ i a b q, G a b → C i a q → C i b q)
    (h : ∀ (i : Nat) (p : Program S Q R T ε α), st.threads[i]? = some p →
      p.CallsOnce apply G (C i) st.store)
    (hG : Along (Pool.step apply)
      (fun u l => ∀ v, Pool.step apply u l = some v → G u.store v.store) st ls)
    (hr : run (Pool.step apply) st ls = some st') :
    ∃ js new, js.Nodup ∧ st'.calls = st.calls ++ new ∧
      List.Forall₂ (fun i c => C i st'.store c.1) js new := by
  have hstart : CalledBy apply G C st.calls [] st [] :=
    ⟨List.nodup_nil, (List.append_nil _).symm, .nil, fun i p hp _ => h i p hp,
      fun i p _ hn => absurd hn List.not_mem_nil⟩
  have hstep : ∀ (u : Pool S Q R T ε α) (l : Nat × Act R) (v : Pool S Q R T ε α),
      (∃ js new, CalledBy apply G C st.calls new u js) →
      (∀ v, Pool.step apply u l = some v → G u.store v.store) → Pool.step apply u l = some v →
      ∃ js new, CalledBy apply G C st.calls new v js := by
    rintro u l v ⟨js, new, hu⟩ hs hv
    exact hu.step hrefl htr hC hv (hs v hv)
  obtain ⟨js, new, hend⟩ := Run.invariant hstep ⟨[], [], hstart⟩ hG hr
  exact ⟨js, new, hend.once, hend.calls, hend.made⟩

end Pool

end SixGateway.Library
