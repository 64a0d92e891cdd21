import SixGateway.Library.Pool
import SixGateway.Library.Delegation

namespace SixGateway.Library

open Run

namespace Program

variable {S Q R T ε α : Type} {apply : T → S → Except ε S} {G : S → S → Prop} {P : S → T → Prop}
  {Post : α → S → Prop} {p : Program S Q R T ε α} {s : S}

abbrev Assured (apply : T → S → Except ε S) (G : S → S → Prop) (P : S → T → Prop)
    (Post : α → S → Prop) : Program S Q R T ε α → S → Prop :=
  Safe apply G (fun _ _ => True) (fun _ _ => True) P Post

theorem Assured.shrink {G' : S → S → Prop} (hG : ∀ a b, G' a b → G a b)
    (hp : p.Assured apply G P Post s) : p.Assured apply G' P Post s := by
  induction p generalizing s with
  | ret a => exact fun u hu => hp u (hG _ _ hu)
  | raise e => trivial
  | read k ih => exact fun u hu => ih u (hp u (hG _ _ hu))
  | call q k ih => exact fun r hr => ih r (hp r hr)
  | commit t k ih =>
    intro u hu
    obtain ⟨ht, hk⟩ := hp u (hG _ _ hu)
    exact ⟨ht, fun hc v hv => ih (hk hc v hv)⟩

end Program

section

variable {S Q R T ε W T' ε' α β : Type} {E : Embedding S Q R T ε W Q R T' ε'}
  {apply : T → S → Except ε S} {apply' : T' → W → Except ε' W} {G : S → S → Prop}
  {G' H : W → W → Prop} {P : S → T → Prop}

/-- A transaction of the whole that is nothing to the part, or one of the part that satisfies `P`. -/
def Lifted (E : Embedding S Q R T ε W Q R T' ε') (apply' : T' → W → Except ε' W)
    (P : S → T → Prop) (w : W) (t : T') : Prop :=
  Silent E apply' t ∨ ∃ t', t = E.lift t' ∧ P (E.part.get w) t'

theorem Embedding.Faithful.part_ok (h : E.Faithful apply apply') {t : T} {w w' : W}
    (ht : apply' (E.lift t) w = .ok w') : apply t (E.part.get w) = .ok (E.part.get w') := by
  cases ha : apply t (E.part.get w) with
  | ok s =>
    rw [h.ok ha] at ht
    cases ht
    rw [E.part.get_put]
  | error e =>
    rw [h.error ha] at ht
    cases ht

namespace Program

variable {w : W}

theorem Follows.assured (h : E.Faithful apply apply') (htr : ∀ a b c, G a b → G b c → G a c)
    (hG : ∀ a b, G' a b → G (E.part.get a) (E.part.get b)) {Post : β → S → Prop}
    {p : Program W Q R T' ε' α} {q : Program S Q R T ε β} (hf : p.Follows E apply' q)
    (hq : q.Assured apply G P Post (E.part.get w)) :
    p.Assured apply' G' (Lifted E apply' P) (fun _ _ => True) w := by
  induction p generalizing q w with
  | ret a => exact fun _ _ => trivial
  | raise e => trivial
  | read k ih =>
    intro u hu
    obtain hf | ⟨k', rfl, hf⟩ := hf
    · exact ih u (hf u) (hq.mono htr (hG _ _ hu))
    · exact ih u (hf u) (hq _ (hG _ _ hu))
  | call c k ih =>
    obtain ⟨k', rfl, hf⟩ := hf
    exact fun r _ => ih r (hf r) (hq r trivial)
  | commit t k ih =>
    intro u hu
    obtain ⟨hsilent, hf⟩ | ⟨t', k', rfl, rfl, hf⟩ := hf
    · refine ⟨.inl hsilent, fun _ v hv => ih hf ?_⟩
      rw [hsilent u v hv]
      exact hq.mono htr (hG _ _ hu)
    · obtain ⟨ht, hk⟩ := hq _ (hG _ _ hu)
      exact ⟨.inr ⟨t', rfl, ht⟩, fun _ v hv => ih hf (hk trivial _ (h.part_ok hv))⟩

theorem Awaits.assured (h : E.Faithful apply apply') (htr : ∀ a b c, G a b → G b c → G a c)
    (hG : ∀ a b, G' a b → G (E.part.get a) (E.part.get b)) (hH : ∀ a b, G' a b → H a b)
    {D : W → Program S Q R T ε β → Prop} {Post : β → S → Prop}
    (hD : ∀ w q, D w q → q.Assured apply G P Post (E.part.get w)) {p : Program W Q R T' ε' α}
    (hp : p.Awaits E apply' H D w) :
    p.Assured apply' G' (Lifted E apply' P) (fun _ _ => True) w := by
  induction p generalizing w with
  | ret a => exact fun _ _ => trivial
  | raise e => trivial
  | read k ih =>
    obtain ⟨q, hq, hf⟩ | hk := hp
    · exact hf.assured h htr hG (hD w q hq)
    · exact fun u hu => ih u (hk u (hH _ _ hu))
  | call c k =>
    obtain ⟨q, hq, hf⟩ := hp
    exact hf.assured h htr hG (hD w q hq)
  | commit t k ih =>
    obtain ⟨q, hq, hf⟩ | ⟨hsilent, hk⟩ := hp
    · exact hf.assured h htr hG (hD w q hq)
    · exact fun u hu => ⟨.inl hsilent, fun _ v hv => ih (hk u (hH _ _ hu) v hv)⟩

end Program

end

namespace Pool

variable {S Q R T ε α : Type} {apply : T → S → Except ε S} {G : S → S → Prop}
  {A : Q → R → Prop} {C P : Nat → S → T → Prop} {Post : α → S → Prop}
  {st st' : Pool S Q R T ε α} {ls : List (Nat × Act R)}

theorem grown_run (hrefl : ∀ s, G s s) (htr : ∀ a b c, G a b → G b c → G a c)
    (hg : ∀ i s t s', P i s t → C i s t → apply t s = .ok s' → G s s')
    (h : AllSafe apply G A C P Post st) (hm : Along (step apply) (Meets apply A C) st ls)
    (hr : run (step apply) st ls = some st') :
    AllSafe apply G A C P Post st' ∧ G st.store st'.store := by
  refine invariant (C := Meets apply A C)
    (I := fun u => AllSafe apply G A C P Post u ∧ G st.store u.store) ?_ ⟨h, hrefl _⟩ hm hr
  intro u l v hu hl hv
  obtain ⟨hsafe, hgrown⟩ := step_safe hrefl htr hg hu.1 hl hv
  exact ⟨hsafe, htr _ _ _ hu.2 hgrown⟩

end Pool

end SixGateway.Library
