import SixGateway.Library.Embedding
import SixGateway.Library.Isolation

namespace SixGateway.Library

open Run

variable {S Q R T ε W T' ε' α β : Type} (E : Embedding S Q R T ε W Q R T' ε')
  (apply : T → S → Except ε S) (apply' : T' → W → Except ε' W) (G : W → W → Prop)

/-- An embedding that leaves the calls and their answers as they are. -/
def Embedding.Plain : Prop := E.ask = id ∧ E.hear = fun _ r => r

/-- A transaction of the whole that does not touch the part. -/
def Silent (t : T') : Prop := ∀ w w', apply' t w = .ok w' → E.part.get w' = E.part.get w

namespace Program

/-- On the part, the handler does what `q` does, step by step; what it does elsewhere and what it
ends with is left open. -/
def Follows : Program W Q R T' ε' α → Program S Q R T ε β → Prop
  | ret _, _ => True
  | raise _, _ => True
  | read k, q => (∀ w, (k w).Follows q) ∨
      ∃ k', q = .read k' ∧ ∀ w, (k w).Follows (k' (E.part.get w))
  | call c k, q => ∃ k', q = .call c k' ∧ ∀ r, (k r).Follows (k' r)
  | commit t k, q => (Silent E apply' t ∧ k.Follows q) ∨
      ∃ t' k', q = .commit t' k' ∧ t = E.lift t' ∧ k.Follows k'

/-- The handler leaves the part alone until it begins to follow a handler that satisfies `D` at
that time. Meanwhile the store moves along `G`. -/
def Awaits (D : W → Program S Q R T ε β → Prop) : Program W Q R T' ε' α → W → Prop
  | ret _, _ => True
  | raise _, _ => True
  | read k, w => (∃ q, D w q ∧ (read k).Follows E apply' q) ∨ ∀ w', G w w' → (k w').Awaits D w'
  | call c k, w => ∃ q, D w q ∧ (call c k).Follows E apply' q
  | commit t k, w => (∃ q, D w q ∧ (commit t k).Follows E apply' q) ∨
      (Silent E apply' t ∧ ∀ w', G w w' → ∀ w'', apply' t w' = .ok w'' → k.Awaits D w'')

/-- The handler leaves the part alone and calls nobody, and what it returns satisfies `Post` at that
time. Meanwhile the store moves along `G`. -/
def Prepares (Post : α → W → Prop) : Program W Q R T' ε' α → W → Prop
  | ret a, w => Post a w
  | raise _, _ => True
  | read k, w => ∀ w', G w w' → (k w').Prepares Post w'
  | call _ _, _ => False
  | commit t k, w => Silent E apply' t ∧
      ∀ w', G w w' → ∀ w'', apply' t w' = .ok w'' → k.Prepares Post w''

variable {E apply apply' G} {D : W → Program S Q R T ε β → Prop} {p : Program W Q R T' ε' α}
  {q : Program S Q R T ε β} {w w' : W}

theorem Awaits.weaken {D' : W → Program S Q R T ε β → Prop} (hp : p.Awaits E apply' G D w)
    (hD : ∀ w q, D w q → D' w q) : p.Awaits E apply' G D' w := by
  induction p generalizing w with
  | ret a | raise e => trivial
  | read k ih =>
    exact Or.imp (fun ⟨q, hq, hf⟩ => ⟨q, hD w q hq, hf⟩) (fun h u hu => ih u (h u hu)) hp
  | call c k =>
    obtain ⟨q, hq, hf⟩ := hp
    exact ⟨q, hD w q hq, hf⟩
  | commit t k ih =>
    exact Or.imp (fun ⟨q, hq, hf⟩ => ⟨q, hD w q hq, hf⟩)
      (fun h => ⟨h.1, fun u hu v hv => ih (h.2 u hu v hv)⟩) hp

theorem Follows.awaits (h : p.Follows E apply' q) (hq : D w q) : p.Awaits E apply' G D w := by
  cases p with
  | ret a | raise e => trivial
  | read k => exact .inl ⟨q, hq, h⟩
  | call c k => exact ⟨q, hq, h⟩
  | commit t k => exact .inl ⟨q, hq, h⟩

theorem Prepares.bind {γ : Type} {Post : γ → W → Prop} {p : Program W Q R T' ε' γ}
    {f : γ → Program W Q R T' ε' α} (hp : p.Prepares E apply' G Post w)
    (hf : ∀ a w, Post a w → (f a).Awaits E apply' G D w) : (p.bind f).Awaits E apply' G D w := by
  induction p generalizing w with
  | ret a => exact hf a w hp
  | raise e => trivial
  | read k ih => exact .inr fun w' hw => ih w' (hp w' hw)
  | call c k => exact hp.elim
  | commit t k ih => exact .inr ⟨hp.1, fun w' hw w'' ht => ih (hp.2 w' hw w'' ht)⟩

theorem Reads.follows {γ : Type} {p : Program S Q R T ε γ} (hp : p.Reads)
    {f : γ → Program W Q R T' ε' α} (hf : ∀ a, (f a).Follows E apply' q) :
    ((p.embed E).bind f).Follows E apply' q := by
  induction p with
  | ret a => exact hf a
  | raise e => trivial
  | read k ih => exact .inl fun w => ih (E.part.get w) (hp _)
  | call c k => exact hp.elim
  | commit t k => exact hp.elim

theorem Reads.awaits {γ : Type} {p : Program S Q R T ε γ} (hp : p.Reads)
    {f : γ → Program W Q R T' ε' α} (hf : ∀ a w, (f a).Awaits E apply' G D w) (w : W) :
    ((p.embed E).bind f).Awaits E apply' G D w := by
  induction p generalizing w with
  | ret a => exact hf a w
  | raise e => trivial
  | read k ih => exact .inr fun w' _ => ih (E.part.get w') (hp _) w'
  | call c k => exact hp.elim
  | commit t k => exact hp.elim

theorem Awaits.mono (htr : ∀ a b c, G a b → G b c → G a c)
    (hD : ∀ a b q, G a b → D a q → D b q) (hp : p.Awaits E apply' G D w) (hw : G w w') :
    p.Awaits E apply' G D w' := by
  cases p with
  | ret a | raise e => trivial
  | read k =>
    exact Or.imp (fun ⟨q, hq, hf⟩ => ⟨q, hD _ _ _ hw hq, hf⟩)
      (fun h u hu => h u (htr _ _ _ hw hu)) hp
  | call c k =>
    obtain ⟨q, hq, hf⟩ := hp
    exact ⟨q, hD _ _ _ hw hq, hf⟩
  | commit t k =>
    exact Or.imp (fun ⟨q, hq, hf⟩ => ⟨q, hD _ _ _ hw hq, hf⟩)
      (fun h => ⟨h.1, fun u hu => h.2 u (htr _ _ _ hw hu)⟩) hp

/-- An embedded handler follows the handler it embeds, and so it does when something follows it
that follows what it still has to do. -/
theorem follows_embed (hE : E.Plain) {γ : Type} (q : Program S Q R T ε γ)
    {f : γ → Program W Q R T' ε' α} {g : γ → Program S Q R T ε β}
    (hf : ∀ a, (f a).Follows E apply' (g a)) :
    ((q.embed E).bind f).Follows E apply' (q.bind g) := by
  obtain ⟨hask, hhear⟩ := hE
  induction q with
  | ret a => exact hf a
  | raise e => trivial
  | read k ih => exact .inr ⟨_, rfl, fun w => ih (E.part.get w)⟩
  | call c k ih =>
    refine ⟨fun r => (k r).bind g, by rw [hask]; rfl, fun r => ?_⟩
    have hr := ih r
    simp only [hhear]
    exact hr
  | commit t k ih => exact .inr ⟨t, k.bind g, rfl, rfl, ih⟩

end Program

namespace Pool

variable {E apply apply' G} {D : Nat → W → Program S Q R T ε β → Prop}
  {st st' : Pool W Q R T' ε' α} {u u' : Pool S Q R T ε β} {l : Nat × Act R}
  {ls : List (Nat × Act R)}

theorem step_append (us : List (Program S Q R T ε β)) (h : step apply u l = some u') :
    step apply ⟨u.store, u.calls, u.threads ++ us⟩ l =
      some ⟨u'.store, u'.calls, u'.threads ++ us⟩ := by
  have hget : ∀ {i : Nat} {q : Program S Q R T ε β}, u.threads[i]? = some q →
      (u.threads ++ us)[i]? = some q ∧ ∀ q', (u.threads ++ us).set i q' = u.threads.set i q' ++ us := by
    intro i q hi
    have hlt := (List.getElem?_eq_some_iff.mp hi).1
    exact ⟨by rw [List.getElem?_append_left hlt, hi], fun q' => List.set_append_left _ _ hlt⟩
  cases step_moves h with
  | read i k hi => simp only [step, hget hi]
  | committed i t k hi s hs => simp only [step, hget hi, hs]
  | refused i t k hi e he => simp only [step, hget hi, he]
  | answered i c k hi r => simp only [step, hget hi]

theorem run_append_threads (us : List (Program S Q R T ε β))
    (h : run (step apply) u ls = some u') :
    run (step apply) ⟨u.store, u.calls, u.threads ++ us⟩ ls =
      some ⟨u'.store, u'.calls, u'.threads ++ us⟩ := by
  induction ls generalizing u with
  | nil =>
    obtain rfl : u = u' := by simpa [run] using h
    rfl
  | cons l ls ih =>
    obtain ⟨v, hv, hr⟩ := Option.bind_eq_some_iff.mp h
    simp only [run, step_append us hv, Option.bind_some]
    exact ih hr

/-- How a pool over the whole stands to a pool over the part: the handlers in `js` follow, in that
order, the handlers over the part; the others still await their turn. -/
structure Delegated (E : Embedding S Q R T ε W Q R T' ε') (apply' : T' → W → Except ε' W)
    (G : W → W → Prop) (D : Nat → W → Program S Q R T ε β → Prop) (st : Pool W Q R T' ε' α)
    (u : Pool S Q R T ε β) (js : List Nat) : Prop where
  store : u.store = E.part.get st.store
  calls : u.calls = st.calls
  once : js.Nodup
  length : u.threads.length = js.length
  awaits : ∀ i p, st.threads[i]? = some p → i ∉ js → p.Awaits E apply' G (D i) st.store
  follows : ∀ i p, st.threads[i]? = some p → ∀ (j : Nat), js[j]? = some i →
    ∃ q, u.threads[j]? = some q ∧ Program.Follows E apply' p q

variable {js : List Nat} {i j : Nat}

theorem once_inj (h : js.Nodup) {m : Nat} (hj : js[j]? = some i) (hm : js[m]? = some i) : j = m :=
  (List.getElem?_inj (List.getElem?_eq_some_iff.mp hj).1 h).mp (hj.trans hm.symm)

theorem Delegated.start (h : Delegated E apply' G D st u js) (hi : i ∉ js)
    {p : Program W Q R T' ε' α} (hp : st.threads[i]? = some p) {q : Program S Q R T ε β}
    (hq : p.Follows E apply' q) :
    Delegated E apply' G D st ⟨u.store, u.calls, u.threads ++ [q]⟩ (js ++ [i]) where
  store := h.store
  calls := h.calls
  once := List.nodup_append.mpr ⟨h.once, List.nodup_cons.mpr ⟨List.not_mem_nil, List.nodup_nil⟩, fun a ha b hb hab =>
    hi (List.mem_singleton.mp hb ▸ hab ▸ ha)⟩
  length := by simp [h.length]
  awaits n p' hp' hn := h.awaits n p' hp' (fun hmem => hn (List.mem_append.mpr (.inl hmem)))
  follows n p' hp' j hj := by
    by_cases hlt : j < js.length
    · rw [List.getElem?_append_left hlt] at hj
      obtain ⟨q', hq', hf⟩ := h.follows n p' hp' j hj
      exact ⟨q', by rwa [List.getElem?_append_left (h.length ▸ hlt)], hf⟩
    · rw [List.getElem?_append_right (Nat.le_of_not_lt hlt)] at hj
      obtain ⟨hj0, rfl⟩ : j - js.length = 0 ∧ i = n := by
        simpa [List.getElem?_singleton] using hj
      obtain rfl := Option.some.inj (hp.symm.trans hp')
      refine ⟨q, ?_, hq⟩
      rw [List.getElem?_append_right (h.length ▸ Nat.le_of_not_lt hlt), h.length, hj0]
      rfl

theorem Delegated.moved (h : Delegated E apply' G D st u js)
    (hmono : ∀ (n : Nat) (p : Program W Q R T' ε' α), p.Awaits E apply' G (D n) st.store →
      p.Awaits E apply' G (D n) st'.store)
    (hstore : u'.store = E.part.get st'.store) (hcalls : u'.calls = st'.calls)
    {p' : Program W Q R T' ε' α} (hthreads : st'.threads = st.threads.set i p')
    (hothers : ∀ (j : Nat), js[j]? ≠ some i → u'.threads[j]? = u.threads[j]?)
    (hlen : u'.threads.length = u.threads.length)
    (hawaits : i ∉ js → p'.Awaits E apply' G (D i) st'.store)
    (hfollows : ∀ (j : Nat), js[j]? = some i → ∃ q, u'.threads[j]? = some q ∧ p'.Follows E apply' q) :
    Delegated E apply' G D st' u' js := by
  have hcases : ∀ n p, st'.threads[n]? = some p →
      (n = i ∧ p = p') ∨ (n ≠ i ∧ st.threads[n]? = some p) := by
    intro n p hp
    rw [hthreads, List.getElem?_set] at hp
    by_cases hin : i = n
    · rw [if_pos hin] at hp
      split at hp
      · exact .inl ⟨hin.symm, (Option.some.inj hp).symm⟩
      · cases hp
    · rw [if_neg hin] at hp
      exact .inr ⟨fun hni => hin hni.symm, hp⟩
  refine ⟨hstore, hcalls, h.once, hlen.trans h.length, fun n p hp hn => ?_, fun n p hp m hm => ?_⟩
  · obtain ⟨rfl, rfl⟩ | ⟨-, hold⟩ := hcases n p hp
    · exact hawaits hn
    · exact hmono n p (h.awaits n p hold hn)
  · obtain ⟨rfl, rfl⟩ | ⟨hne, hold⟩ := hcases n p hp
    · exact hfollows m hm
    · obtain ⟨q, hq, hf⟩ := h.follows n p hold m hm
      refine ⟨q, ?_, hf⟩
      rw [hothers m (fun hi => hne (Option.some.inj (hm.symm.trans hi))), hq]

/-- One move of a pool over the whole is at most one move of a pool over the part, once the mover
follows a handler of its own. -/
theorem Delegated.step_follows (hF : E.Faithful apply apply')
    (h : Delegated E apply' G D st u js)
    (hmono : ∀ (n : Nat) (p : Program W Q R T' ε' α), p.Awaits E apply' G (D n) st.store →
      p.Awaits E apply' G (D n) st'.store)
    (hst : step apply' st l = some st') (hj : js[j]? = some l.1) :
    ∃ ms u', run (step apply) u ms = some u' ∧ Delegated E apply' G D st' u' js := by
  have hmem : l.1 ∈ js := List.mem_of_getElem? hj
  have hskip : ∀ {p' : Program W Q R T' ε' α}, E.part.get st'.store = E.part.get st.store →
      st'.calls = st.calls → st'.threads = st.threads.set l.1 p' →
      (∃ q, u.threads[j]? = some q ∧ p'.Follows E apply' q) →
      ∃ ms u', run (step apply) u ms = some u' ∧ Delegated E apply' G D st' u' js := by
    intro p' hstore hcalls hthreads hq
    refine ⟨[], u, rfl, h.moved hmono (h.store.trans hstore.symm) (h.calls.trans hcalls.symm)
      hthreads (fun _ _ => rfl) rfl (fun hn => absurd hmem hn) (fun m hm => ?_)⟩
    obtain rfl := once_inj h.once hj hm
    exact hq
  have hmove : ∀ {p' : Program W Q R T' ε' α} {q' : Program S Q R T ε β} (s : S)
      (cs : List (Q × R)) (a : Act R),
      step apply u (j, a) = some ⟨s, cs, u.threads.set j q'⟩ → s = E.part.get st'.store →
      cs = st'.calls → st'.threads = st.threads.set l.1 p' → p'.Follows E apply' q' →
      ∃ ms u', run (step apply) u ms = some u' ∧ Delegated E apply' G D st' u' js := by
    intro p' q' s cs a hu hstore hcalls hthreads hf
    have hlt : j < u.threads.length := h.length ▸ (List.getElem?_eq_some_iff.mp hj).1
    refine ⟨[(j, a)], ⟨s, cs, u.threads.set j q'⟩, by simp [run, hu],
      h.moved hmono hstore hcalls hthreads (fun m hm => ?_) (by simp)
      (fun hn => absurd hmem hn) (fun m hm => ?_)⟩
    · refine List.getElem?_set_ne ?_
      rintro rfl
      exact hm hj
    · obtain rfl := once_inj h.once hj hm
      exact ⟨q', List.getElem?_set_self hlt, hf⟩
  cases step_moves hst with
  | read i k hi =>
    obtain ⟨q, hq, hf⟩ := h.follows i _ hi j hj
    obtain hf | ⟨k', rfl, hf⟩ := hf
    · exact hskip rfl rfl rfl ⟨q, hq, hf _⟩
    · refine hmove u.store u.calls .run ?_ h.store h.calls rfl (hf st.store)
      simp only [step, hq, h.store]
  | committed i t k hi w hw =>
    obtain ⟨q, hq, hf⟩ := h.follows i _ hi j hj
    obtain ⟨hsilent, hf⟩ | ⟨t', k', rfl, rfl, hf⟩ := hf
    · exact hskip (hsilent _ _ hw) rfl rfl ⟨q, hq, hf⟩
    · cases ht : apply t' (E.part.get st.store) with
      | ok s =>
        rw [hF.ok ht] at hw
        obtain rfl := Except.ok.inj hw
        refine hmove s u.calls .run ?_ (E.part.get_put s _).symm h.calls rfl hf
        simp only [step, hq, h.store, ht]
      | error e =>
        rw [hF.error ht] at hw
        cases hw
  | refused i t k hi e he =>
    obtain ⟨q, hq, -⟩ := h.follows i _ hi j hj
    exact hskip rfl rfl rfl ⟨q, hq, trivial⟩
  | answered i c k hi r =>
    obtain ⟨q, hq, k', rfl, hf⟩ := h.follows i _ hi j hj
    refine hmove u.store (u.calls ++ [(c, r)]) (.answer r) ?_ h.store (by rw [h.calls]) rfl (hf r)
    simp only [step, hq]

theorem step_along (hrefl : ∀ a, G a a) (hG : ∀ t w w', apply' t w = .ok w' → G w w')
    (h : Pool.step apply' st l = some st') : G st.store st'.store := by
  cases step_moves h with
  | read | refused | answered => exact hrefl _
  | committed i t k hi w hw => exact hG t _ _ hw

theorem run_along (htr : ∀ a b c, G a b → G b c → G a c) (hrefl : ∀ a, G a a)
    (hG : ∀ t w w', apply' t w = .ok w' → G w w') (h : run (Pool.step apply') st ls = some st') :
    G st.store st'.store := by
  induction ls generalizing st with
  | nil =>
    obtain rfl : st = st' := by simpa [run] using h
    exact hrefl _
  | cons l ls ih =>
    obtain ⟨v, hv, hr⟩ := Option.bind_eq_some_iff.mp h
    exact htr _ _ _ (step_along hrefl hG hv) (ih hr)

theorem Delegated.step (hF : E.Faithful apply apply')
    (htr : ∀ a b c, G a b → G b c → G a c) (hrefl : ∀ a, G a a)
    (hG : ∀ t w w', apply' t w = .ok w' → G w w')
    (hD : ∀ n a b q, G a b → D n a q → D n b q) (h : Delegated E apply' G D st u js)
    (hst : Pool.step apply' st l = some st') :
    ∃ is qs ms u', run (Pool.step apply) ⟨u.store, u.calls, u.threads ++ qs⟩ ms = some u' ∧
      Delegated E apply' G D st' u' (js ++ is) ∧
      List.Forall₂ (fun i q => D i st'.store q) is qs := by
  have hgs : G st.store st'.store := step_along hrefl hG hst
  have hmono : ∀ (n : Nat) (p : Program W Q R T' ε' α), p.Awaits E apply' G (D n) st.store →
      p.Awaits E apply' G (D n) st'.store := fun n p hp => hp.mono htr (hD n) hgs
  -- A handler that has just begun to follow another is as good as one that did so before.
  have hstart : ∀ {p : Program W Q R T' ε' α}, l.1 ∉ js → st.threads[l.1]? = some p →
      (∃ q, D l.1 st.store q ∧ p.Follows E apply' q) →
      ∃ is qs ms u', run (Pool.step apply) ⟨u.store, u.calls, u.threads ++ qs⟩ ms = some u' ∧
        Delegated E apply' G D st' u' (js ++ is) ∧
        List.Forall₂ (fun i q => D i st'.store q) is qs := by
    rintro p hn hp ⟨q, hq, hf⟩
    have hstarted := h.start hn hp hf
    have hj : (js ++ [l.1])[js.length]? = some l.1 := by simp
    obtain ⟨ms, u', hu', hd⟩ := hstarted.step_follows hF hmono hst hj
    exact ⟨[l.1], [q], ms, u', hu', hd, .cons (hD l.1 _ _ q hgs hq) .nil⟩
  have hskip : ∀ {p' : Program W Q R T' ε' α}, l.1 ∉ js →
      E.part.get st'.store = E.part.get st.store → st'.calls = st.calls →
      st'.threads = st.threads.set l.1 p' → p'.Awaits E apply' G (D l.1) st'.store →
      ∃ is qs ms u', run (Pool.step apply) ⟨u.store, u.calls, u.threads ++ qs⟩ ms = some u' ∧
        Delegated E apply' G D st' u' (js ++ is) ∧
        List.Forall₂ (fun i q => D i st'.store q) is qs := by
    intro p' hn hstore hcalls hthreads hp'
    refine ⟨[], [], [], u, by simp [run], ?_, .nil⟩
    rw [List.append_nil]
    refine h.moved hmono (h.store.trans hstore.symm) (h.calls.trans hcalls.symm) hthreads
      (fun _ _ => rfl) rfl (fun _ => hp') (fun m hm => ?_)
    exact absurd (List.mem_of_getElem? hm) hn
  by_cases hown : l.1 ∈ js
  · obtain ⟨j, hj⟩ := List.mem_iff_getElem?.mp hown
    obtain ⟨ms, u', hu', hd⟩ := h.step_follows hF hmono hst hj
    exact ⟨[], [], ms, u', by rwa [List.append_nil], by rwa [List.append_nil], .nil⟩
  · cases step_moves hst with
    | read i k hi =>
      obtain hq | hk := h.awaits i _ hi hown
      · exact hstart hown hi hq
      · exact hskip hown rfl rfl rfl (hk _ (hrefl _))
    | committed i t k hi w hw =>
      obtain hq | ⟨hsilent, hk⟩ := h.awaits i _ hi hown
      · exact hstart hown hi hq
      · exact hskip hown (hsilent _ _ hw) rfl rfl (hk _ (hrefl _) _ hw)
    | refused i t k hi e he =>
      obtain hq | - := h.awaits i _ hi hown
      · exact hstart hown hi hq
      · exact hskip hown rfl rfl rfl trivial
    | answered i c k hi r => exact hstart hown hi (h.awaits i _ hi hown)

theorem Delegated.run (hF : E.Faithful apply apply')
    (htr : ∀ a b c, G a b → G b c → G a c) (hrefl : ∀ a, G a a)
    (hG : ∀ t w w', apply' t w = .ok w' → G w w')
    (hD : ∀ n a b q, G a b → D n a q → D n b q) (h : Delegated E apply' G D st u js)
    (hr : Run.run (Pool.step apply') st ls = some st') :
    ∃ is qs ms u', Run.run (Pool.step apply) ⟨u.store, u.calls, u.threads ++ qs⟩ ms = some u' ∧
      Delegated E apply' G D st' u' (js ++ is) ∧
      List.Forall₂ (fun i q => D i st'.store q) is qs := by
  induction ls generalizing st u js with
  | nil =>
    obtain rfl : st = st' := by simpa [Run.run] using hr
    exact ⟨[], [], [], u, by simp [Run.run], by rwa [List.append_nil], .nil⟩
  | cons l ls ih =>
    obtain ⟨v, hv, hrest⟩ := Option.bind_eq_some_iff.mp hr
    obtain ⟨is, qs, ms, u₁, hu₁, h₁, hqs⟩ := h.step hF htr hrefl hG hD hv
    obtain ⟨is', qs', ms', u₂, hu₂, h₂, hqs'⟩ := ih h₁ hrest
    have hrun := run_append_threads qs' hu₁
    have hlater := run_along htr hrefl hG hrest
    refine ⟨is ++ is', qs ++ qs', ms ++ ms', u₂, ?_, by rwa [← List.append_assoc],
      List.rel_append (hqs.imp fun i q => hD i _ _ q hlater) hqs'⟩
    rw [run_append, ← List.append_assoc, hrun]
    exact hu₂

/-- A run of a pool over the whole is, on the part, a run of a pool of handlers that were each
followed by one handler of the whole, no two of them by the same, and that satisfy `D` in the
end. -/
theorem delegated_run (hF : E.Faithful apply apply')
    (htr : ∀ a b c, G a b → G b c → G a c) (hrefl : ∀ a, G a a)
    (hG : ∀ t w w', apply' t w = .ok w' → G w w')
    (hD : ∀ n a b q, G a b → D n a q → D n b q)
    (ha : ∀ (i : Nat) (p : Program W Q R T' ε' α), st.threads[i]? = some p →
      p.Awaits E apply' G (D i) st.store)
    (hr : Run.run (Pool.step apply') st ls = some st') :
    ∃ js qs ms u, js.Nodup ∧ List.Forall₂ (fun i q => D i st'.store q) js qs ∧
      Run.run (Pool.step apply) ⟨E.part.get st.store, st.calls, qs⟩ ms = some u ∧
      u.store = E.part.get st'.store ∧ u.calls = st'.calls := by
  have h : Delegated E apply' G D st ⟨E.part.get st.store, st.calls, []⟩ [] :=
    ⟨rfl, rfl, List.nodup_nil, rfl, fun i p hp _ => ha i p hp, fun i p _ j hj => nomatch hj⟩
  obtain ⟨js, qs, ms, u, hu, hd, hqs⟩ := h.run hF htr hrefl hG hD hr
  exact ⟨js, qs, ms, u, hd.once, hqs, hu, hd.store, hd.calls⟩

end Pool

end SixGateway.Library
