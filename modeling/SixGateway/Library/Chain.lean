import SixGateway.Library.Template

namespace SixGateway.Library.Template

variable {α : Type} [DecidableEq α] {T : Meanings α} {t w s : List α} {c : α}

/-- A placeholder, what is put in for it and what it is meant to stand for. -/
structure Slot (α : Type) where
  token : List α
  value : List α
  meant : List α

/-- One substitution after another, each of them over the whole text that the one before has left. -/
def chain (slots : List (Slot α)) (s : List α) : List α :=
  slots.foldl (fun out e => subst [(e.token, e.value)] out) s

def meanings (slots : List (Slot α)) : Meanings α := slots.map (fun e => (e.token, e.meant))

def tokens (slots : List (Slot α)) : List (List α) := slots.map Slot.token

/-- The substitutions that follow on a value leave of it what is meant. -/
def Survives : List (Slot α) → Prop
  | [] => True
  | e :: later => chain later e.value = e.meant ∧ Survives later

/-- Every value is apart from each later placeholder that does not stand for itself. -/
def ApartLater : List (Slot α) → Prop
  | [] => True
  | e :: later => (∀ e' ∈ later, e'.meant ≠ e'.token → Apart e.value e'.token) ∧ ApartLater later

section chain

variable {slots later : List (Slot α)} {e e' : Slot α}

omit [DecidableEq α] in
theorem placeholders_meanings (slots : List (Slot α)) :
    placeholders (meanings slots) = tokens slots := by
  simp [placeholders, meanings, tokens]

omit [DecidableEq α] in
theorem mem_tokens {f : List α × List α} (h : f ∈ meanings slots) : f.1 ∈ tokens slots := by
  obtain ⟨slot, hslot, rfl⟩ := List.mem_map.mp h
  exact List.mem_map_of_mem hslot

omit [DecidableEq α] in
theorem separated_meanings (hs : Separated (tokens slots)) :
    Separated (placeholders (meanings slots)) := (placeholders_meanings slots).symm ▸ hs

omit [DecidableEq α] in
theorem first_mem : ∀ f ∈ [(e.token, e.value)], f.1 ∈ tokens (e :: later) :=
  fun _ hf => List.mem_singleton.mp hf ▸ List.mem_cons_self

omit [DecidableEq α] in
theorem first_separated (hs : Separated (tokens (e :: later))) :
    Separated (placeholders [(e.token, e.value)]) := hs.of_subset (by simp [placeholders, tokens])

omit [DecidableEq α] in
theorem first_ne (hs : Separated (tokens (e :: later))) (he' : e' ∈ later) :
    ∀ f ∈ [(e.token, e.value)], f.1 ≠ e'.token := by
  intro f hf heq
  obtain rfl := List.mem_singleton.mp hf
  have hnot : e.token ∉ tokens later := (List.nodup_cons.mp hs.1).1
  exact hnot (List.mem_map.mpr ⟨e', he', heq.symm⟩)

omit [DecidableEq α] in
theorem later_separated (hs : Separated (tokens (e :: later))) : Separated (tokens later) :=
  hs.of_subset (List.sublist_cons_self _ _)

theorem chain_of_apart (hs : Separated (tokens slots)) (h : Survives slots) (ha : ApartLater slots)
    (s : List α) : chain slots s = subst (meanings slots) s := by
  induction slots generalizing s with
  | nil =>
    have habsent : subst ([] : Meanings α) s = s := subst_absent (by simp)
    exact habsent.symm
  | cons e later ih =>
    obtain ⟨hvalue, hlater⟩ := h
    obtain ⟨hapart, halater⟩ := ha
    have hlaterSep := later_separated hs
    rw [ih hlaterSep hlater halater] at hvalue
    have hM := separated_meanings hlaterSep
    have hall : Separated (placeholders ((e.token, e.meant) :: meanings later)) :=
      separated_meanings hs
    let F := (meanings later).filter (fun e => decide (e.2 ≠ e.1))
    have hFsub : (e.token :: placeholders F).Sublist (tokens (e :: later)) :=
      placeholders_meanings (e :: later) ▸ (List.filter_sublist.map Prod.fst).cons_cons e.token
    have hF : Separated (placeholders ((e.token, e.meant) :: F)) := hs.of_subset hFsub
    have hFapart : ∀ f ∈ F, Apart e.value f.1 := by
      intro f hf
      obtain ⟨hmem, hne⟩ := List.mem_filter.mp hf
      obtain ⟨e', he', rfl⟩ := List.mem_map.mp hmem
      exact hapart e' he' (of_decide_eq_true hne)
    calc chain (e :: later) s
        = chain later (subst [(e.token, e.value)] s) := rfl
      _ = subst (meanings later) (subst [(e.token, e.value)] s) := ih hlaterSep hlater halater _
      _ = subst F (subst [(e.token, e.value)] s) := (subst_filter hM _).symm
      _ = subst ((e.token, subst F e.value) :: F) s := subst_subst hF hFapart s
      _ = subst ((e.token, e.meant) :: F) s := by rw [subst_filter hM, hvalue]
      _ = subst ((e.token, e.meant) :: meanings later) s := by
        rw [← subst_filter hF, ← subst_filter hall]
        simp only [F, List.filter_cons, List.filter_filter, Bool.and_self]

/-- The text around a placeholder in which pieces of another one stand on either side. -/
def Framed (ts : List (List α)) (s : List α) : Prop :=
  ∃ t ∈ ts, ∃ t' ∈ ts, ∃ a b, a <+: t' ∧ a ≠ t' ∧ b <:+ t' ∧ b ≠ t' ∧ s = a ++ t ++ b

end chain

section frames

variable {slots later : List (Slot α)} {ts : List (List α)} {t' a b : List α}

theorem subst_framed (hs : Separated ts) (hin : ∀ e ∈ T, e.1 ∈ ts) (ht : t ∈ ts) (ht' : t' ∈ ts)
    (ha : a <+: t') (ha' : a ≠ t') (hb : b <:+ t') (hb' : b ≠ t') :
    subst T (a ++ t ++ b) = a ++ subst T t ++ b := by
  have hne : ∀ e ∈ T, e.1 ≠ [] := fun e he => hs.ne_nil (hin e he)
  have hleft : subst T a = a :=
    subst_absent (fun e he => hs.not_infix_part ht' (hin e he) ha.isInfix ha')
  have hright : subst T b = b :=
    subst_absent (fun e he => hs.not_infix_part ht' (hin e he) hb.isInfix hb')
  rw [List.append_assoc, subst_append hne (hs.noStraddle_right hin ht (.inr (List.prefix_append t b)) a),
    subst_append hne (hs.noStraddle_left hin ht List.suffix_rfl b), hleft, hright, List.append_assoc]

theorem subst_token (hT : Separated (placeholders T)) (h : (t, w) ∈ T) : subst T t = w := by
  have htoken := subst_of_mem hT h []
  rwa [subst_nil, List.append_nil, List.append_nil] at htoken

theorem subst_other (hs : Separated ts) (hin : ∀ e ∈ T, e.1 ∈ ts) (ht : t ∈ ts)
    (h : ∀ e ∈ T, e.1 ≠ t) : subst T t = t :=
  subst_absent (fun e he hinf => h e he (hs.infix_eq ht (hin e he) hinf))

section agreement

variable {e e' : Slot α} (hs : Separated (tokens (e :: later)))
  (h : ∀ s, Framed (tokens (e :: later)) s →
    subst (meanings later) (subst [(e.token, e.value)] s) = subst (meanings (e :: later)) s)

include hs h

theorem value_framed (ht' : t' ∈ tokens (e :: later)) (ha : a <+: t') (ha' : a ≠ t')
    (hb : b <:+ t') (hb' : b ≠ t') :
    subst (meanings later) (a ++ e.value ++ b) = a ++ e.meant ++ b := by
  have ht : e.token ∈ tokens (e :: later) := List.mem_cons_self
  have hframe := h _ ⟨_, ht, _, ht', a, b, ha, ha', hb, hb', rfl⟩
  rwa [subst_framed hs first_mem ht ht' ha ha' hb hb',
    subst_framed hs (fun _ => mem_tokens) ht ht' ha ha' hb hb',
    subst_token (first_separated hs) List.mem_cons_self,
    subst_token (separated_meanings hs) List.mem_cons_self] at hframe

theorem value_of_frames : e.meant = subst (meanings later) e.value := by
  have ht : e.token ∈ tokens (e :: later) := List.mem_cons_self
  have hnil : [] ≠ e.token := (hs.ne_nil ht).symm
  simpa using (value_framed hs h ht List.nil_prefix hnil List.nil_suffix hnil).symm

theorem apart_of_frames (he' : e' ∈ later) (hne : e'.meant ≠ e'.token) :
    Apart e.value e'.token := by
  have hR : Separated (placeholders (meanings later)) :=
    separated_meanings (later_separated hs)
  have hin : ∀ f ∈ meanings later, f.1 ∈ tokens (e :: later) :=
    fun f hf => List.mem_cons_of_mem _ (mem_tokens hf)
  have ht' : e'.token ∈ tokens (e :: later) := List.mem_cons_of_mem _ (List.mem_map_of_mem he')
  have hmem : (e'.token, e'.meant) ∈ meanings later := List.mem_map_of_mem he'
  have hneR := placeholders_ne_nil hR
  have hnil : [] ≠ e'.token := (hs.ne_nil ht').symm
  have hvalue := value_of_frames hs h
  intro k hk hpos
  have hab := List.take_append_drop k e'.token
  have ha := List.take_prefix k e'.token
  have hb := List.drop_suffix k e'.token
  have ha' : e'.token.take k ≠ e'.token := fun heq => by
    have hlen := congrArg List.length heq
    rw [List.length_take] at hlen
    omega
  have hb' : e'.token.drop k ≠ e'.token := fun heq => by
    have hlen := congrArg List.length heq
    rw [List.length_drop] at hlen
    omega
  generalize e'.token.take k = a at *
  generalize e'.token.drop k = b at *
  have hleft : subst (meanings later) a = a :=
    subst_absent (fun f hf => hs.not_infix_part ht' (hin f hf) ha.isInfix ha')
  have hright : subst (meanings later) b = b :=
    subst_absent (fun f hf => hs.not_infix_part ht' (hin f hf) hb.isInfix hb')
  refine ⟨?_, ?_, ?_⟩
  · rintro ⟨v, hv⟩
    have hframe := value_framed hs h ht' List.nil_prefix hnil hb hb'
    rw [List.nil_append, List.nil_append, hvalue, ← hv, List.append_assoc, hab,
      subst_append hneR (hs.noStraddle_right hin ht' (.inl List.prefix_rfl) v),
      subst_append hneR (hs.noStraddle_right hin ht' (.inl ha) v), subst_token hR hmem, hleft,
      List.append_assoc, hab] at hframe
    exact hne (List.append_cancel_left hframe)
  · rintro ⟨v, hv⟩
    have hframe := value_framed hs h ht' ha ha' List.nil_suffix hnil
    rw [List.append_nil, List.append_nil, hvalue, ← hv, ← List.append_assoc, hab,
      subst_append hneR (hs.noStraddle_left hin ht' hb v), hright, subst_of_mem hR hmem,
      ← List.append_assoc, hab] at hframe
    exact hne (List.append_cancel_right hframe)
  · rintro ⟨c, hc⟩
    have hsuf : c <:+ b := hc ▸ List.suffix_append e.value c
    have hpre : e.value <+: b := hc ▸ List.prefix_append e.value c
    have hcne : c ≠ e'.token := fun heq => hb' (hb.eq_of_length_le (heq ▸ hsuf.length_le))
    have hvne : e.value ≠ e'.token := fun heq => hb' (hb.eq_of_length_le (heq ▸ hpre.length_le))
    have hvsub : subst (meanings later) e.value = e.value :=
      subst_absent (fun f hf =>
        hs.not_infix_part ht' (hin f hf) (hpre.isInfix.trans hb.isInfix) hvne)
    have hframe := value_framed hs h ht' ha ha' (hsuf.trans hb) hcne
    rw [hvalue, hvsub, List.append_assoc, hc, hab, subst_token hR hmem] at hframe
    exact hne hframe

end agreement

omit [DecidableEq α] in
theorem framed_tail {e : Slot α} {s : List α} (h : Framed (tokens later) s) :
    Framed (tokens (e :: later)) s := by
  obtain ⟨t, ht, t', ht', rest⟩ := h
  exact ⟨t, List.mem_cons_of_mem _ ht, t', List.mem_cons_of_mem _ ht', rest⟩

/-- Where a chain is the simultaneous substitution in every frame, its values survive and are apart.
The induction is on the slots: a frame of later placeholders passes the first slot unchanged. -/
theorem apart_of_chain (hs : Separated (tokens slots))
    (h : ∀ s, Framed (tokens slots) s → chain slots s = subst (meanings slots) s) :
    Survives slots ∧ ApartLater slots := by
  induction slots with
  | nil => exact ⟨trivial, trivial⟩
  | cons e later ih =>
    have hsep := later_separated hs
    obtain ⟨hlater, halater⟩ : Survives later ∧ ApartLater later := by
      refine ih hsep (fun s hs' => ?_)
      have hchain := h s (framed_tail hs')
      obtain ⟨t, ht, t', ht', a, b, ha, ha', hb, hb', rfl⟩ := hs'
      obtain ⟨slot, hslot, rfl⟩ := List.mem_map.mp ht
      have hmem : (slot.token, slot.meant) ∈ meanings later := List.mem_map_of_mem hslot
      have ht := List.mem_cons_of_mem e.token ht
      have ht' := List.mem_cons_of_mem e.token ht'
      have hpass : subst [(e.token, e.value)] (a ++ slot.token ++ b) = a ++ slot.token ++ b := by
        rw [subst_framed hs first_mem ht ht' ha ha' hb hb',
          subst_other hs first_mem ht (first_ne hs hslot)]
      have hsame : subst (meanings (e :: later)) (a ++ slot.token ++ b) =
          subst (meanings later) (a ++ slot.token ++ b) := by
        rw [subst_framed hs (fun f hf => mem_tokens hf) ht ht' ha ha' hb hb',
          subst_framed hs (fun f hf => List.mem_cons_of_mem _ (mem_tokens hf)) ht ht' ha ha' hb hb',
          subst_token (separated_meanings hs) (List.mem_cons_of_mem _ hmem),
          subst_token (separated_meanings hsep) hmem]
      calc chain later (a ++ slot.token ++ b)
          = chain later (subst [(e.token, e.value)] (a ++ slot.token ++ b)) := by rw [hpass]
        _ = subst (meanings (e :: later)) (a ++ slot.token ++ b) := hchain
        _ = subst (meanings later) (a ++ slot.token ++ b) := hsame
    have hchain := chain_of_apart hsep hlater halater
    have hagree : ∀ s, Framed (tokens (e :: later)) s →
        subst (meanings later) (subst [(e.token, e.value)] s) = subst (meanings (e :: later)) s :=
      fun s hs' => (hchain _).symm.trans (h s hs')
    exact ⟨⟨(hchain _).trans (value_of_frames hs hagree).symm, hlater⟩,
      fun e' he' hne => apart_of_frames hs hagree he' hne, halater⟩

/-- A chain of substitutions is the simultaneous one for every text exactly when its values survive
the later substitutions and are apart from the later placeholders. -/
theorem chain_iff (hs : Separated (tokens slots)) :
    (∀ s, chain slots s = subst (meanings slots) s) ↔ Survives slots ∧ ApartLater slots :=
  ⟨fun h => apart_of_chain hs (fun s _ => h s), fun h => chain_of_apart hs h.1 h.2⟩

end frames

def Outside (ts : List (List α)) (c : α) : Prop := ∀ t ∈ ts, c ∉ t

/-- What stands next to a placeholder in a text is a letter of no placeholder. -/
def Delimited (ts : List (List α)) (s : List α) : Prop :=
  ∀ t ∈ ts, ∀ x y, s = x ++ t ++ y → (∀ c ∈ x.getLast?, Outside ts c) ∧ ∀ c ∈ y.head?, Outside ts c

omit [DecidableEq α] in
theorem forall_split_nil {P : List α → List α → Prop} :
    (∀ x y, [] = x ++ t ++ y → P x y) ↔ (t = [] → P [] []) := by
  constructor
  · rintro h rfl
    exact h [] [] rfl
  · intro h x y heq
    obtain ⟨hxt, rfl⟩ := List.append_eq_nil_iff.mp heq.symm
    obtain ⟨rfl, ht⟩ := List.append_eq_nil_iff.mp hxt
    exact h ht

omit [DecidableEq α] in
theorem forall_split_cons {P : List α → List α → Prop} : (∀ x y, c :: s = x ++ t ++ y → P x y) ↔
    (t <+: c :: s → P [] ((c :: s).drop t.length)) ∧ ∀ x y, s = x ++ t ++ y → P (c :: x) y := by
  constructor
  · refine fun h => ⟨?_, fun x y heq => h (c :: x) y (congrArg (c :: ·) heq)⟩
    rintro ⟨y, hy⟩
    refine h [] _ ?_
    rw [← hy, List.drop_left, List.nil_append]
  · rintro ⟨hhere, hlater⟩ x y heq
    cases x with
    | nil =>
      rw [List.nil_append] at heq
      have hP := hhere (heq ▸ List.prefix_append t y)
      rwa [heq, List.drop_left] at hP
    | cons d x =>
      obtain ⟨rfl, hs⟩ := List.cons.inj heq
      exact hlater x y hs

def decideForallSplit (t : List α) : (s : List α) → (P : List α → List α → Prop) →
    [∀ x y, Decidable (P x y)] → Decidable (∀ x y, s = x ++ t ++ y → P x y)
  | [], _, _ => decidable_of_iff' _ forall_split_nil
  | c :: s, P, _ =>
    haveI := decideForallSplit t s (fun x y => P (c :: x) y)
    decidable_of_iff' _ forall_split_cons

instance decidableForallSplit {P : List α → List α → Prop} [∀ x y, Decidable (P x y)] :
    Decidable (∀ x y, s = x ++ t ++ y → P x y) := decideForallSplit t s P

instance (ts : List (List α)) (c : α) : Decidable (Outside ts c) :=
  inferInstanceAs (Decidable (∀ t ∈ ts, c ∉ t))

instance (ts : List (List α)) (s : List α) : Decidable (Delimited ts s) :=
  inferInstanceAs (Decidable (∀ t ∈ ts, ∀ x y, s = x ++ t ++ y →
    (∀ c ∈ x.getLast?, Outside ts c) ∧ ∀ c ∈ y.head?, Outside ts c))

section delimited

variable {slots : List (Slot α)} {ts : List (List α)} {e : Slot α}

theorem chain_outside (hs : Separated (tokens slots)) (hc : Outside (tokens slots) c)
    (x y : List α) : chain slots (x ++ c :: y) = chain slots x ++ c :: chain slots y := by
  induction slots generalizing x y with
  | nil => rfl
  | cons e later ih =>
    have hfirst := subst_outside (fun f hf => hs.ne_nil (first_mem f hf))
      (fun f hf => hc _ (first_mem f hf)) x y
    have hlater := ih (later_separated hs) (fun t ht => hc t (List.mem_cons_of_mem _ ht))
    simp only [chain, List.foldl_cons, hfirst] at hlater ⊢
    exact hlater _ _

theorem chain_absent (h : ∀ t ∈ tokens slots, ¬ t <:+: s) : chain slots s = s := by
  induction slots with
  | nil => rfl
  | cons e later ih =>
    have hfirst : subst [(e.token, e.value)] s = s :=
      subst_absent (fun f hf => h _ (first_mem f hf))
    simp only [chain, List.foldl_cons, hfirst] at ih ⊢
    exact ih (fun t ht => h t (List.mem_cons_of_mem _ ht))

theorem survives_iff (hs : Separated (tokens slots)) :
    Survives slots ↔ ∀ e ∈ slots, chain slots e.token = e.meant := by
  induction slots with
  | nil => simp [Survives]
  | cons f later ih =>
    have hhead : chain (f :: later) f.token = chain later f.value := by
      rw [chain, List.foldl_cons, subst_token (first_separated hs) List.mem_cons_self, chain]
    have htail : ∀ e ∈ later, chain (f :: later) e.token = chain later e.token := by
      intro e he
      have ht : e.token ∈ tokens (f :: later) := List.mem_cons_of_mem _ (List.mem_map_of_mem he)
      rw [chain, List.foldl_cons, subst_other hs first_mem ht (first_ne hs he), chain]
    rw [Survives, ih (later_separated hs), List.forall_mem_cons, hhead]
    exact and_congr_right (fun _ => forall₂_congr (fun e he => by rw [htail e he]))

omit [DecidableEq α] in
theorem exists_first (p : α → Prop) (s : List α) : (∀ c ∈ s, ¬ p c) ∨
    ∃ x c y, s = x ++ c :: y ∧ (∀ d ∈ x, ¬ p d) ∧ p c := by
  induction s with
  | nil => exact .inl (by simp)
  | cons d s ih =>
    by_cases hd : p d
    · exact .inr ⟨[], d, s, rfl, by simp, hd⟩
    · obtain hall | ⟨x, c, y, rfl, hx, hc⟩ := ih
      · exact .inl (List.forall_mem_cons.mpr ⟨hd, hall⟩)
      · exact .inr ⟨d :: x, c, y, rfl, List.forall_mem_cons.mpr ⟨hd, hx⟩, hc⟩

section pieces

variable {x y : List α}

omit [DecidableEq α] in
theorem Delimited.left (h : Delimited ts (x ++ c :: y)) : Delimited ts x := by
  rintro t ht u v rfl
  obtain ⟨hu, hv⟩ := h t ht u (v ++ c :: y) (by simp)
  refine ⟨hu, fun d hdv => hv d ?_⟩
  cases v with
  | nil => cases hdv
  | cons => exact hdv

omit [DecidableEq α] in
theorem Delimited.right (h : Delimited ts (x ++ c :: y)) : Delimited ts y := by
  rintro t ht u v rfl
  obtain ⟨hu, hv⟩ := h t ht (x ++ c :: u) v (by simp)
  refine ⟨fun d hdu => hu d ?_, hv⟩
  rw [List.getLast?_append_cons, List.getLast?_cons, hdu]
  rfl

end pieces

omit [DecidableEq α] in
theorem delimited_word (h : Delimited ts s) (hs : ∀ c ∈ s, ¬ Outside ts c) :
    s ∈ ts ∨ ∀ t ∈ ts, ¬ t <:+: s := by
  by_cases hex : ∃ t ∈ ts, t <:+: s
  · obtain ⟨t, ht, x, y, rfl⟩ := hex
    obtain ⟨hx, hy⟩ := h t ht x y rfl
    have hxnil : x = [] := by
      by_contra hne
      exact hs (x.getLast hne) (by simp) (hx _ (List.getLast?_eq_getLast_of_ne_nil hne))
    have hynil : y = [] := by
      by_contra hne
      exact hs (y.head hne) (by simp) (hy _ (List.head?_eq_some_head hne))
    subst hxnil hynil
    exact .inl (by simpa using ht)
  · exact .inr (fun t ht hinf => hex ⟨t, ht, hinf⟩)

theorem chain_of_delimited (hs : Separated (tokens slots)) (h : Survives slots)
    (hd : Delimited (tokens slots) s) : chain slots s = subst (meanings slots) s := by
  have hM := separated_meanings hs
  induction hlen : s.length using Nat.strong_induction_on generalizing s with
  | _ n ih =>
    subst hlen
    have word : ∀ {u}, Delimited (tokens slots) u → (∀ c ∈ u, ¬ Outside (tokens slots) c) →
        chain slots u = subst (meanings slots) u := by
      intro u hu hall
      obtain hu | habsent := delimited_word hu hall
      · obtain ⟨e, he, rfl⟩ := List.mem_map.mp hu
        rw [(survives_iff hs).mp h e he, subst_token hM (List.mem_map_of_mem he)]
      · rw [chain_absent habsent, subst_absent (fun f hf => habsent _ (mem_tokens hf))]
    obtain hall | ⟨x, c, y, rfl, hx, hc⟩ := exists_first (Outside (tokens slots)) s
    · exact word hd hall
    · rw [chain_outside hs hc, subst_outside (placeholders_ne_nil hM)
        (fun f hf => hc _ (mem_tokens hf)), word hd.left hx,
        ih y.length (by rw [List.length_append, List.length_cons]; omega) hd.right rfl]

/-- A chain of substitutions is the simultaneous one for every delimited text exactly when its values
survive the later substitutions. -/
theorem chain_delimited_iff (hs : Separated (tokens slots)) :
    (∀ s, Delimited (tokens slots) s → chain slots s = subst (meanings slots) s) ↔
      Survives slots := by
  refine ⟨fun h => (survives_iff hs).mpr (fun e he => ?_), fun h s => chain_of_delimited hs h⟩
  have ht : e.token ∈ tokens slots := List.mem_map_of_mem he
  have hd : Delimited (tokens slots) e.token := by
    intro t ht' x y heq
    have hinf : t <:+: e.token := ⟨x, y, heq.symm⟩
    have hwhole := hs.infix_eq ht ht' hinf
    have hlen := congrArg List.length heq
    simp only [List.length_append, hwhole] at hlen
    obtain rfl : x = [] := List.length_eq_zero_iff.mp (by omega)
    obtain rfl : y = [] := List.length_eq_zero_iff.mp (by omega)
    exact ⟨by simp, by simp⟩
  rw [h _ hd, subst_token (separated_meanings hs) (List.mem_map_of_mem he)]

end delimited

/-- Two placeholders of a text have a wall between them. -/
def Walled (ts : List (List α)) (walls s : List α) : Prop :=
  ∀ t ∈ ts, ∀ x y, s = x ++ t ++ y → ∀ t' ∈ ts, ∀ u v, y = u ++ t' ++ v → ∃ c ∈ u, c ∈ walls

instance (ts : List (List α)) (walls s : List α) : Decidable (Walled ts walls s) :=
  inferInstanceAs (Decidable (∀ t ∈ ts, ∀ x y, s = x ++ t ++ y → ∀ t' ∈ ts, ∀ u v,
    y = u ++ t' ++ v → ∃ c ∈ u, c ∈ walls))

section walled

variable {slots : List (Slot α)} {ts : List (List α)} {x y walls : List α}

omit [DecidableEq α] in
theorem Walled.left (h : Walled ts walls (x ++ c :: y)) : Walled ts walls x := by
  rintro t ht u v rfl t' ht' u' v' rfl
  exact h t ht u (u' ++ t' ++ (v' ++ c :: y)) (by simp) t' ht' u' (v' ++ c :: y) rfl

omit [DecidableEq α] in
theorem Walled.right (h : Walled ts walls (x ++ c :: y)) : Walled ts walls y := by
  rintro t ht u v rfl t' ht' u' v' rfl
  exact h t ht (x ++ c :: u) (u' ++ t' ++ v') (by simp) t' ht' u' v' rfl

omit [DecidableEq α] in
theorem infix_append_of_last (hx : ∀ c ∈ x.getLast?, c ∉ t) (h : t <:+: x ++ y) :
    t <:+: x ∨ t <:+: y := by
  obtain hleft | hright | ⟨p, q, hp, -, rfl, ⟨u, rfl⟩, -⟩ := List.infix_append_iff_ne_nil.mp h
  · exact .inl hleft
  · exact .inr hright
  · refine absurd (List.mem_append_left q (p.getLast_mem hp)) (hx _ ?_)
    simp [List.getLast?_append, List.getLast?_eq_getLast_of_ne_nil hp]

omit [DecidableEq α] in
theorem infix_append_of_head (hy : ∀ c ∈ y.head?, c ∉ t) (h : t <:+: x ++ y) :
    t <:+: x ∨ t <:+: y := by
  obtain hleft | hright | ⟨p, q, -, hq, rfl, -, ⟨u, rfl⟩⟩ := List.infix_append_iff_ne_nil.mp h
  · exact .inl hleft
  · exact .inr hright
  · refine absurd (List.mem_append_right p (q.head_mem hq)) (hy _ ?_)
    simp [List.head?_append, List.head?_eq_some_head hq]

omit [DecidableEq α] in
theorem infix_around (ht : t ≠ []) (hc : c ∉ t) :
    t <:+: x ++ c :: y ↔ t <:+: x ∨ t <:+: y := by
  constructor
  · intro h
    obtain hx | hy := infix_append_of_head (by simpa using hc) h
    · exact .inl hx
    · obtain hpre | hy := List.infix_cons_iff.mp hy
      · obtain ⟨d, t, rfl⟩ := List.exists_cons_of_ne_nil ht
        obtain ⟨rfl, -⟩ := List.cons_prefix_cons.mp hpre
        exact absurd List.mem_cons_self hc
      · exact .inr hy
  · rintro (h | h)
    · exact h.trans (List.prefix_append x (c :: y)).isInfix
    · exact h.trans ((List.suffix_cons c y).trans (List.suffix_append x (c :: y))).isInfix

theorem le_count_chain (hs : Separated (tokens slots)) (hc : Outside (tokens slots) c) (s : List α) :
    s.count c ≤ (chain slots s).count c := by
  induction slots generalizing s with
  | nil => exact le_rfl
  | cons e later ih =>
    have hfirst := le_count_subst (fun f hf => hs.ne_nil (first_mem f hf))
      (fun f hf => hc _ (first_mem f hf)) s
    have hlater := ih (later_separated hs) (fun t ht => hc t (List.mem_cons_of_mem _ ht))
    exact hfirst.trans (hlater _)

omit [DecidableEq α] in
theorem split_unique {x' y' : List α} (h : x ++ c :: y = x' ++ c :: y') (hx : c ∉ x)
    (hx' : c ∉ x') : x = x' ∧ y = y' := by
  obtain ⟨w, rfl, hw⟩ | ⟨w, rfl, hw⟩ := List.append_eq_append_iff.mp h
  · cases w with
    | nil => simpa using hw
    | cons d w =>
      obtain ⟨rfl, -⟩ := List.cons.inj hw
      simp at hx'
  · cases w with
    | nil => simpa using hw.symm
    | cons d w =>
      obtain ⟨rfl, -⟩ := List.cons.inj hw
      simp at hx

/-- A letter that is neither in a placeholder nor in what one is meant to stand for parts a text in
two: a substitution before it cannot make up for one after it. -/
theorem chain_wall (hs : Separated (tokens slots)) (hc : Outside (tokens slots) c)
    (hm : ∀ e ∈ slots, c ∉ e.meant) (hx : c ∉ x) :
    chain slots (x ++ c :: y) = subst (meanings slots) (x ++ c :: y) ↔
      chain slots x = subst (meanings slots) x ∧ chain slots y = subst (meanings slots) y := by
  have hne := placeholders_ne_nil (separated_meanings hs)
  have hout : ∀ f ∈ meanings slots, c ∉ f.1 := fun f hf => hc _ (mem_tokens hf)
  have hcount : ∀ s, (subst (meanings slots) s).count c = s.count c := by
    refine count_subst_of_not_mem hne hout (fun f hf => ?_)
    obtain ⟨e, he, rfl⟩ := List.mem_map.mp hf
    exact hm e he
  rw [chain_outside hs hc, subst_outside hne hout]
  constructor
  · intro heq
    have hzero := List.count_eq_zero.mpr hx
    have htotal := congrArg (List.count c) heq
    simp only [List.count_append, List.count_cons_self, hcount] at htotal
    have hle := le_count_chain hs hc y
    refine split_unique heq (List.count_eq_zero.mp (by omega)) (List.count_eq_zero.mp ?_)
    rw [hcount, hzero]
  · rintro ⟨hleft, hright⟩
    rw [hleft, hright]

theorem chain_nil (hs : Separated (tokens slots)) : chain slots [] = [] :=
  chain_absent (fun _ ht hinf => hs.ne_nil ht (List.infix_nil.mp hinf))

theorem chain_append_left (hs : Separated (tokens slots))
    (hx : ∀ c ∈ x.getLast?, Outside (tokens slots) c) (y : List α) :
    chain slots (x ++ y) = chain slots x ++ chain slots y := by
  cases x using List.reverseRecOn with
  | nil => simp [chain_nil hs]
  | append_singleton u c =>
    have hc : Outside (tokens slots) c := hx c (by simp)
    rw [List.append_assoc, List.singleton_append, chain_outside hs hc, chain_outside hs hc,
      chain_nil hs, List.append_assoc]
    rfl

theorem chain_append_right (hs : Separated (tokens slots))
    (hy : ∀ c ∈ y.head?, Outside (tokens slots) c) (x : List α) :
    chain slots (x ++ y) = chain slots x ++ chain slots y := by
  cases y with
  | nil => simp [chain_nil hs]
  | cons c v =>
    have hc : Outside (tokens slots) c := hy c (by simp)
    rw [chain_outside hs hc, ← List.nil_append (c :: v), chain_outside hs hc, chain_nil hs]
    rfl

theorem chain_lone (hs : Separated (tokens slots)) {s : List α} (hd : Delimited (tokens slots) s)
    (hone : ∀ t ∈ tokens slots, ∀ x y, s = x ++ t ++ y → ∀ t' ∈ tokens slots, ¬ t' <:+: y) :
    chain slots s = subst (meanings slots) s ↔
      ∀ e ∈ slots, e.token <:+: s → chain slots e.token = e.meant := by
  have hM := separated_meanings hs
  have hmeant : ∀ e ∈ slots, subst (meanings slots) e.token = e.meant :=
    fun e he => subst_token hM (List.mem_map_of_mem he)
  by_cases hex : ∃ e ∈ slots, e.token <:+: s
  · obtain ⟨e, he, x, y, rfl⟩ := hex
    have ht : e.token ∈ tokens slots := List.mem_map_of_mem he
    obtain ⟨hlast, hhead⟩ := hd e.token ht x y rfl
    have hx : ∀ t ∈ tokens slots, ¬ t <:+: x := by
      rintro t ht' ⟨u, v, rfl⟩
      exact hone t ht' u (v ++ e.token ++ y) (by simp) e.token ht ⟨v, y, rfl⟩
    have hy := hone e.token ht x y rfl
    have hchain : chain slots (x ++ e.token ++ y) = x ++ chain slots e.token ++ y := by
      rw [chain_append_right hs hhead, chain_append_left hs hlast, chain_absent hx,
        chain_absent hy]
    have hsubst : subst (meanings slots) (x ++ e.token ++ y) = x ++ e.meant ++ y := by
      have hin : ∀ f ∈ meanings slots, f.1 ∈ tokens slots := fun f hf => mem_tokens hf
      have hne := placeholders_ne_nil hM
      rw [List.append_assoc,
        subst_append hne (hs.noStraddle_right hin ht (.inr (List.prefix_append _ y)) x),
        subst_append hne (hs.noStraddle_left hin ht List.suffix_rfl y), hmeant e he,
        subst_absent (fun f hf => hx _ (hin f hf)), subst_absent (fun f hf => hy _ (hin f hf)),
        List.append_assoc]
    -- No other placeholder stands in the text, as letters of none stand around this one.
    have hothers : ∀ t ∈ tokens slots, t <:+: x ++ e.token ++ y → t = e.token := by
      intro t ht' hinf
      obtain hinf | hright := infix_append_of_head (fun c hc => hhead c hc t ht') hinf
      · obtain hleft | hmiddle := infix_append_of_last (fun c hc => hlast c hc t ht') hinf
        · exact absurd hleft (hx t ht')
        · exact hs.infix_eq ht ht' hmiddle
      · exact absurd hright (hy t ht')
    rw [hchain, hsubst, List.append_left_inj, List.append_right_inj]
    constructor
    · intro heq f hf hinf
      rw [← hmeant f hf, hothers _ (List.mem_map_of_mem hf) hinf, heq, hmeant e he]
    · exact fun hall => hall e he ⟨x, y, rfl⟩
  · have habsent : ∀ t ∈ tokens slots, ¬ t <:+: s := by
      intro t ht hinf
      obtain ⟨e, he, rfl⟩ := List.mem_map.mp ht
      exact hex ⟨e, he, hinf⟩
    rw [chain_absent habsent, subst_absent (fun f hf => habsent _ (mem_tokens hf))]
    exact iff_of_true rfl (fun e he hinf => absurd ⟨e, he, hinf⟩ hex)

/-- Where every two placeholders have a wall between them, a chain of substitutions is the
simultaneous one exactly when each placeholder of the text becomes what it is meant to. -/
theorem chain_walled_iff (hs : Separated (tokens slots))
    (hwalls : ∀ c ∈ walls, Outside (tokens slots) c ∧ ∀ e ∈ slots, c ∉ e.meant) {s : List α}
    (hd : Delimited (tokens slots) s) (hw : Walled (tokens slots) walls s) :
    chain slots s = subst (meanings slots) s ↔
      ∀ e ∈ slots, e.token <:+: s → chain slots e.token = e.meant := by
  induction hlen : s.length using Nat.strong_induction_on generalizing s with
  | _ n ih =>
    subst hlen
    have lone : ∀ {u}, Delimited (tokens slots) u → Walled (tokens slots) walls u →
        (∀ c ∈ u, ¬ c ∈ walls) → (chain slots u = subst (meanings slots) u ↔
          ∀ e ∈ slots, e.token <:+: u → chain slots e.token = e.meant) := by
      intro u hdu hwu hall
      refine chain_lone hs hdu (fun t ht x y heq t' ht' hinf => ?_)
      obtain ⟨v, w, rfl⟩ := hinf
      obtain ⟨c, hc, hwall⟩ := hwu t ht x _ heq t' ht' v w rfl
      exact hall c (heq ▸ by simp [hc]) hwall
    obtain hall | ⟨x, c, y, rfl, hx, hc⟩ := exists_first (· ∈ walls) s
    · exact lone hd hw hall
    · obtain ⟨hout, hmeant⟩ := hwalls c hc
      rw [chain_wall hs hout hmeant (fun h => hx c h hc), lone hd.left hw.left hx,
        ih y.length (by rw [List.length_append, List.length_cons]; omega) hd.right hw.right rfl,
        ← forall₂_and]
      refine forall₂_congr (fun e he => ?_)
      have ht : e.token ∈ tokens slots := List.mem_map_of_mem he
      rw [infix_around (hs.ne_nil ht) (hout _ ht), or_imp]

end walled

end SixGateway.Library.Template
