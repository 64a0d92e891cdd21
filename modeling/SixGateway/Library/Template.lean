import Mathlib.Data.List.Find
import Mathlib.Data.List.Infix
import Mathlib.Data.List.Nodup

namespace SixGateway.Library.Template

variable {α : Type} [DecidableEq α]

abbrev Meanings (α : Type) := List (List α × List α)

def match? (T : Meanings α) (s : List α) : Option (List α × List α) :=
  T.find? (fun e => decide (e.1 <+: s))

def substFrom (T : Meanings α) : Nat → List α → List α
  | _, [] => []
  | k + 1, _ :: s => substFrom T k s
  | 0, c :: s =>
    match match? T (c :: s) with
    | some e => e.2 ++ substFrom T (e.1.length - 1) s
    | none => c :: substFrom T 0 s

/-- Read from left to right, every placeholder is replaced by what stands for it. What has been put
in is not read again. -/
def subst (T : Meanings α) (s : List α) : List α := substFrom T 0 s

variable {T R : Meanings α} {t v w x y s : List α} {c : α}

@[simp] theorem subst_nil : subst T [] = [] := rfl

theorem substFrom_eq (k : Nat) (s : List α) : substFrom T k s = subst T (s.drop k) := by
  induction k generalizing s with
  | zero => rfl
  | succ k ih =>
    cases s with
    | nil => rfl
    | cons c s => exact ih s

theorem subst_letter (h : match? T (c :: s) = none) : subst T (c :: s) = c :: subst T s := by
  rw [subst, substFrom, h]
  rfl

theorem subst_placeholder (h : match? T (t ++ s) = some (t, v)) (ht : t ≠ []) :
    subst T (t ++ s) = v ++ subst T s := by
  cases t with
  | nil => exact absurd rfl ht
  | cons c t =>
    rw [List.cons_append] at h ⊢
    rw [subst, substFrom, h]
    simp [substFrom_eq]

theorem match?_some {e : List α × List α} (h : match? T s = some e) : e ∈ T ∧ e.1 <+: s :=
  ⟨List.mem_of_find?_eq_some h, by simpa using List.find?_some h⟩

theorem match?_eq_none : match? T s = none ↔ ∀ e ∈ T, ¬ e.1 <+: s := by
  simp [match?]

/-- A text is read letter by letter and placeholder by placeholder. -/
theorem reading_induction {P : List α → Prop} (T : Meanings α) (hT : ∀ e ∈ T, e.1 ≠ [])
    (nil : P []) (letter : ∀ c s, match? T (c :: s) = none → P s → P (c :: s))
    (placeholder : ∀ t v s, match? T (t ++ s) = some (t, v) → P s → P (t ++ s)) (s : List α) :
    P s := by
  induction h : s.length using Nat.strong_induction_on generalizing s with
  | _ n ih =>
    subst h
    cases s with
    | nil => exact nil
    | cons c s =>
      cases hm : match? T (c :: s) with
      | none => exact letter c s hm (ih _ (by simp) s rfl)
      | some e =>
        obtain ⟨he, rest, hrest⟩ := match?_some hm
        rw [← hrest] at hm ⊢
        have hpos := List.length_pos_iff.mpr (hT e he)
        have hlen := congrArg List.length hrest
        rw [List.length_append] at hlen
        exact placeholder e.1 e.2 rest hm (ih _ (by omega) rest rfl)

omit [DecidableEq α] in
theorem prefix_append_cases {p : List α} (h : p <+: x ++ y) :
    p <+: x ∨ ∃ q, p = x ++ q ∧ q <+: y := by
  obtain hp | ⟨q, rfl⟩ := List.prefix_or_prefix_of_prefix h (List.prefix_append x y)
  · exact .inl hp
  · exact .inr ⟨q, rfl, (List.prefix_append_right_inj x).mp h⟩

/-- No placeholder begins in one text and ends in the next. -/
def NoStraddle (T : Meanings α) (x y : List α) : Prop :=
  ∀ e ∈ T, ∀ p q, e.1 = p ++ q → p ≠ [] → q ≠ [] → p <:+ x → ¬ q <+: y

omit [DecidableEq α] in
theorem NoStraddle.of_suffix (h : NoStraddle T (x ++ y) s) : NoStraddle T y s :=
  fun e he p q heq hp hq hs => h e he p q heq hp hq (hs.trans (List.suffix_append x y))

theorem match?_append (h : NoStraddle T x y) (hx : x ≠ []) : match? T (x ++ y) = match? T x := by
  refine List.find?_congr (fun e he => decide_eq_decide.mpr ⟨fun hp => ?_, fun hp => ?_⟩)
  · obtain hp | ⟨q, heq, hq⟩ := prefix_append_cases hp
    · exact hp
    · by_cases hnil : q = []
      · rw [heq, hnil, List.append_nil]
      · exact absurd hq (h e he x q heq hx hnil List.suffix_rfl)
  · exact hp.trans (List.prefix_append x y)

theorem subst_append (hT : ∀ e ∈ T, e.1 ≠ []) (h : NoStraddle T x y) :
    subst T (x ++ y) = subst T x ++ subst T y := by
  induction x using reading_induction T hT with
  | nil => rfl
  | letter c s hm ih =>
    have hy := match?_append h (List.cons_ne_nil c s)
    rw [hm, List.cons_append] at hy
    have hs : NoStraddle T s y := NoStraddle.of_suffix (x := [c]) h
    rw [subst_letter hm, List.cons_append, subst_letter hy, ih hs, List.cons_append]
  | placeholder t v s hm ih =>
    have ht : t ≠ [] := hT _ (match?_some hm).1
    have hy := match?_append h (by simp [ht])
    rw [hm, List.append_assoc] at hy
    rw [subst_placeholder hm ht, List.append_assoc, subst_placeholder hy ht, ih h.of_suffix,
      List.append_assoc]

theorem subst_absent (h : ∀ e ∈ T, ¬ e.1 <:+: s) : subst T s = s := by
  induction s with
  | nil => rfl
  | cons c s ih =>
    have hm : match? T (c :: s) = none :=
      match?_eq_none.mpr (fun e he hp => h e he hp.isInfix)
    rw [subst_letter hm, ih (fun e he hs => h e he (hs.trans (List.suffix_cons c s).isInfix))]

/-- No placeholder is empty, stands inside another one, or ends where another one begins. -/
def Separated (ts : List (List α)) : Prop :=
  ts.Nodup ∧ ∀ t ∈ ts, t ≠ [] ∧ ∀ t' ∈ ts, (t' <:+: t → t' = t) ∧
    ∀ p ∈ t.tails, p ≠ [] → p <+: t' → p = t

def placeholders (T : Meanings α) : List (List α) := T.map Prod.fst

/-- A text does not overlap a placeholder, whatever stands around the text. -/
def Apart (v t : List α) : Prop :=
  ∀ k < t.length, 0 < k → ¬ t.take k <:+ v ∧ ¬ t.drop k <+: v ∧ ¬ v <+: t.drop k

instance (ts : List (List α)) : Decidable (Separated ts) := inferInstanceAs (Decidable (_ ∧ _))

instance (v t : List α) : Decidable (Apart v t) := inferInstanceAs (Decidable (∀ k < t.length, _))

section separated

variable {ts : List (List α)} {t' p : List α} (hs : Separated ts)

include hs

omit [DecidableEq α]

theorem Separated.ne_nil (ht : t ∈ ts) : t ≠ [] := (hs.2 t ht).1

theorem Separated.infix_eq (ht : t ∈ ts) (ht' : t' ∈ ts) (h : t' <:+: t) : t' = t :=
  ((hs.2 t ht).2 t' ht').1 h

theorem Separated.overlap (ht : t ∈ ts) (ht' : t' ∈ ts) (hp : p ≠ []) (h : p <:+ t)
    (h' : p <+: t') : p = t ∧ p = t' := by
  have heq : p = t := ((hs.2 t ht).2 t' ht').2 p (List.mem_tails _ _ |>.mpr h) hp h'
  exact ⟨heq, heq.trans (hs.infix_eq ht' ht (heq ▸ h'.isInfix))⟩

theorem Separated.of_subset {us : List (List α)} (h : us.Sublist ts) : Separated us := by
  refine ⟨hs.1.sublist h, fun t ht => ⟨hs.ne_nil (h.subset ht), fun t' ht' => ⟨?_, ?_⟩⟩⟩
  · exact hs.infix_eq (h.subset ht) (h.subset ht')
  · intro p hp hne hpre
    exact (hs.overlap (h.subset ht) (h.subset ht') hne ((List.mem_tails _ _).mp hp) hpre).1

theorem Separated.noStraddle_left (hT : ∀ e ∈ T, e.1 ∈ ts) (ht : t ∈ ts) (hx : x <:+ t)
    (y : List α) : NoStraddle T x y := by
  intro e he p q heq hp hq hpx _
  have hwhole := (hs.overlap ht (hT e he) hp (hpx.trans hx) (heq ▸ List.prefix_append p q)).2
  exact hq (List.append_right_eq_self.mp (heq.symm.trans hwhole.symm))

theorem Separated.noStraddle_right (hT : ∀ e ∈ T, e.1 ∈ ts) (ht : t ∈ ts)
    (hy : y <+: t ∨ t <+: y) (x : List α) : NoStraddle T x y := by
  intro e he p q heq hp hq _ hqy
  have hsuf : q <:+ e.1 := heq ▸ List.suffix_append p q
  have hqt : q <+: t := by
    obtain hy | hy := hy
    · exact hqy.trans hy
    · obtain hqt | htq := List.prefix_or_prefix_of_prefix hqy hy
      · exact hqt
      · have heq' : t = e.1 := hs.infix_eq (hT e he) ht (htq.isInfix.trans hsuf.isInfix)
        exact (htq.eq_of_length_le (heq' ▸ hsuf.length_le)) ▸ List.prefix_rfl
  have hwhole := (hs.overlap (hT e he) ht hq hsuf hqt).1
  exact hp (List.append_left_eq_self.mp (heq.symm.trans hwhole.symm))

theorem Separated.not_infix_part (ht : t ∈ ts) (ht' : t' ∈ ts) (hp : p <:+: t) (hne : p ≠ t) :
    ¬ t' <:+: p := by
  intro h
  have heq : t' = t := hs.infix_eq ht ht' (h.trans hp)
  exact hne (hp.eq_of_length_le (heq ▸ h.length_le))

end separated

section table

variable (hT : Separated (placeholders T))

include hT

omit [DecidableEq α] in
theorem placeholders_ne_nil : ∀ e ∈ T, e.1 ≠ [] :=
  fun _ he => hT.ne_nil (List.mem_map_of_mem he)

theorem match?_of_mem (h : (t, v) ∈ T) (s : List α) : match? T (t ++ s) = some (t, v) := by
  have ht : t ∈ placeholders T := List.mem_map_of_mem h
  cases hm : match? T (t ++ s) with
  | none => exact absurd (List.prefix_append t s) (match?_eq_none.mp hm _ h)
  | some e =>
    obtain ⟨he, hpre⟩ := match?_some hm
    have he' : e.1 ∈ placeholders T := List.mem_map_of_mem he
    have heq : e.1 = t := by
      obtain hp | hp := List.prefix_or_prefix_of_prefix hpre (List.prefix_append t s)
      · exact hT.infix_eq ht he' hp.isInfix
      · exact (hT.infix_eq he' ht hp.isInfix).symm
    exact congrArg some (List.inj_on_of_nodup_map hT.1 he h heq)

theorem subst_of_mem (h : (t, v) ∈ T) (s : List α) : subst T (t ++ s) = v ++ subst T s :=
  subst_placeholder (match?_of_mem hT h s) (placeholders_ne_nil hT _ h)

theorem subst_perm {T' : Meanings α} (h : T'.Perm T) (s : List α) : subst T' s = subst T s := by
  have hkeys : (placeholders T').Perm (placeholders T) := h.map _
  have hT' : Separated (placeholders T') :=
    ⟨hkeys.nodup_iff.mpr hT.1, fun t ht => ⟨hT.ne_nil (hkeys.mem_iff.mp ht), fun t' ht' =>
      (hT.2 t (hkeys.mem_iff.mp ht)).2 t' (hkeys.mem_iff.mp ht')⟩⟩
  induction s using reading_induction T (placeholders_ne_nil hT) with
  | nil => rfl
  | letter c s hm ih =>
    have hm' : match? T' (c :: s) = none :=
      match?_eq_none.mpr (fun e he => match?_eq_none.mp hm e (h.mem_iff.mp he))
    rw [subst_letter hm, subst_letter hm', ih]
  | placeholder t v s hm ih =>
    have hmem := (match?_some hm).1
    rw [subst_of_mem hT hmem, subst_of_mem hT' (h.mem_iff.mpr hmem), ih]

theorem subst_filter (s : List α) : subst (T.filter (fun e => decide (e.2 ≠ e.1))) s = subst T s := by
  have hF : Separated (placeholders (T.filter (fun e => decide (e.2 ≠ e.1)))) :=
    hT.of_subset (List.filter_sublist.map _)
  have hin : ∀ e ∈ T.filter (fun e => decide (e.2 ≠ e.1)), e.1 ∈ placeholders T :=
    fun e he => List.mem_map_of_mem (List.mem_of_mem_filter he)
  induction s using reading_induction T (placeholders_ne_nil hT) with
  | nil => rfl
  | letter c s hm ih =>
    have hF' : match? (T.filter (fun e => decide (e.2 ≠ e.1))) (c :: s) = none :=
      match?_eq_none.mpr (fun e he => match?_eq_none.mp hm e (List.mem_of_mem_filter he))
    rw [subst_letter hm, subst_letter hF', ih]
  | placeholder t v s hm ih =>
    have hmem := (match?_some hm).1
    have ht : t ∈ placeholders T := List.mem_map_of_mem hmem
    rw [subst_of_mem hT hmem]
    by_cases hv : v = t
    · have habsent : ∀ e ∈ T.filter (fun e => decide (e.2 ≠ e.1)), ¬ e.1 <:+: t := by
        intro e he hinf
        have heq : e = (t, v) :=
          List.inj_on_of_nodup_map hT.1 (List.mem_of_mem_filter he) hmem
            (hT.infix_eq ht (hin e he) hinf)
        have hne := of_decide_eq_true (List.mem_filter.mp he).2
        rw [heq] at hne
        exact hne hv
      rw [subst_append (placeholders_ne_nil hF) (hT.noStraddle_left hin ht List.suffix_rfl s),
        subst_absent habsent, ih, hv]
    · rw [subst_of_mem hF (List.mem_filter.mpr ⟨hmem, by simpa using hv⟩), ih]

end table

section apart

variable {t' a b : List α}

omit [DecidableEq α] in
theorem Apart.split (h : Apart v t) (heq : t = a ++ b) (ha : a ≠ []) (hb : b ≠ []) :
    ¬ a <:+ v ∧ ¬ b <+: v ∧ ¬ v <+: b := by
  subst heq
  have hpos := List.length_pos_iff.mpr ha
  have hlen := List.length_pos_iff.mpr hb
  simpa using h a.length (by rw [List.length_append]; omega) hpos

/-- A text that is apart from a placeholder does not help to complete it. -/
theorem prefix_of_replaced (h : Apart v t') (ht : t ≠ []) (heq : t' = a ++ b) (ha : a ≠ [])
    (hb : b <+: subst [(t, v)] s) : b <+: s := by
  induction b generalizing a s with
  | nil => exact List.nil_prefix
  | cons d b ih =>
    cases s with
    | nil => exact hb
    | cons c s =>
      by_cases hpre : t <+: c :: s
      · obtain ⟨rest, hrest⟩ := hpre
        have hm : match? [(t, v)] (t ++ rest) = some (t, v) := by simp [match?]
        rw [← hrest, subst_placeholder hm ht] at hb
        obtain ⟨-, hbegins, hinside⟩ := h.split heq ha (List.cons_ne_nil d b)
        obtain hb | ⟨q, hq, -⟩ := prefix_append_cases hb
        · exact absurd hb hbegins
        · exact absurd (hq ▸ List.prefix_append v q) hinside
      · have hm : match? [(t, v)] (c :: s) = none := by simp [match?, hpre]
        rw [subst_letter hm, List.cons_prefix_cons] at hb
        obtain ⟨rfl, hb⟩ := hb
        rw [List.cons_prefix_cons]
        exact ⟨rfl, ih (a := a ++ [d]) (by simp [heq]) (by simp) hb⟩

/-- Two substitutions after one another are one, where what the first puts in is apart from the
placeholders of the second. -/
theorem subst_subst (hT : Separated (t :: placeholders R)) (hv : ∀ e ∈ R, Apart v e.1)
    (s : List α) : subst R (subst [(t, v)] s) = subst ((t, subst R v) :: R) s := by
  have hT' : Separated (placeholders ((t, subst R v) :: R)) := hT
  have hR : Separated (placeholders R) := hT.of_subset (List.sublist_cons_self _ _)
  have ht : t ≠ [] := hT.ne_nil List.mem_cons_self
  have hin : ∀ e ∈ R, e.1 ∈ t :: placeholders R :=
    fun e he => List.mem_cons_of_mem _ (List.mem_map_of_mem he)
  have hone : ∀ e ∈ [(t, v)], e.1 ∈ t :: placeholders R :=
    fun e he => List.mem_singleton.mp he ▸ List.mem_cons_self
  have hne : ∀ e ∈ [(t, v)], e.1 ≠ [] := fun e he => List.mem_singleton.mp he ▸ ht
  induction s using reading_induction _ (placeholders_ne_nil hT') with
  | nil => rfl
  | letter c s hm ih =>
    have hno := match?_eq_none.mp hm
    have hm₁ : match? [(t, v)] (c :: s) = none :=
      match?_eq_none.mpr (fun e he =>
        List.mem_singleton.mp he ▸ hno (t, subst R v) List.mem_cons_self)
    have hm₂ : match? R (c :: subst [(t, v)] s) = none := by
      refine match?_eq_none.mpr (fun e he hpre => ?_)
      obtain ⟨t', v'⟩ := e
      cases t' with
      | nil => exact absurd rfl (hR.ne_nil (List.mem_map_of_mem he))
      | cons d b =>
        obtain ⟨rfl, hb⟩ := List.cons_prefix_cons.mp hpre
        have hbs := prefix_of_replaced (a := [d]) (hv _ he) ht rfl (by simp) hb
        exact hno _ (List.mem_cons_of_mem _ he) (List.cons_prefix_cons.mpr ⟨rfl, hbs⟩)
    rw [subst_letter hm₁, subst_letter hm₂, subst_letter hm, ih]
  | placeholder t' v' s hm ih =>
    have hmem := (match?_some hm).1
    rw [subst_of_mem hT' hmem]
    obtain heq | he := List.mem_cons.mp hmem
    · cases heq
      have hm₁ : match? [(t, v)] (t ++ s) = some (t, v) := by simp [match?]
      have hends : NoStraddle R v (subst [(t, v)] s) := fun e he p q heq hp hq hpv _ =>
        ((hv e he).split heq hp hq).1 hpv
      rw [subst_placeholder hm₁ ht, subst_append (placeholders_ne_nil hR) hends, ih]
    · have ht' : t' ∈ t :: placeholders R := hin _ he
      have habsent : ∀ e ∈ [(t, v)], ¬ e.1 <:+: t' := by
        intro e hmem hinf
        obtain rfl := List.mem_singleton.mp hmem
        have heq : t = t' := hT.infix_eq ht' List.mem_cons_self hinf
        exact (List.nodup_cons.mp hT.1).1 (heq ▸ List.mem_map_of_mem he)
      rw [subst_append hne (hT.noStraddle_left hone ht' List.suffix_rfl s), subst_absent habsent,
        subst_of_mem hR he, ih]

end apart

theorem subst_outside (hT : ∀ e ∈ T, e.1 ≠ []) (hc : ∀ e ∈ T, c ∉ e.1) (x y : List α) :
    subst T (x ++ c :: y) = subst T x ++ c :: subst T y := by
  have hbegins : ∀ {p : List α}, p ≠ [] → p <+: c :: y → c ∈ p := by
    intro p hp hpre
    obtain ⟨d, q, rfl⟩ := List.exists_cons_of_ne_nil hp
    exact (List.cons_prefix_cons.mp hpre).1 ▸ List.mem_cons_self
  have hstraddle : NoStraddle T x (c :: y) := by
    intro e he p q heq _ hq _ hpre
    exact hc e he (heq ▸ List.mem_append_right p (hbegins hq hpre))
  have hm : match? T (c :: y) = none :=
    match?_eq_none.mpr (fun e he hpre => hc e he (hbegins (hT e he) hpre))
  rw [subst_append hT hstraddle, subst_letter hm]

section counts

theorem count_subst_of_not_mem (hT : ∀ e ∈ T, e.1 ≠ []) (hc : ∀ e ∈ T, c ∉ e.1)
    (hv : ∀ e ∈ T, c ∉ e.2) (s : List α) : (subst T s).count c = s.count c := by
  induction s using reading_induction T hT with
  | nil => rfl
  | letter d s hm ih => rw [subst_letter hm, List.count_cons, List.count_cons, ih]
  | placeholder t v s hm ih =>
    have he := (match?_some hm).1
    rw [subst_placeholder hm (hT _ he), List.count_append, List.count_append, ih,
      List.count_eq_zero.mpr (hc _ he), List.count_eq_zero.mpr (hv _ he)]

theorem le_count_subst (hT : ∀ e ∈ T, e.1 ≠ []) (hc : ∀ e ∈ T, c ∉ e.1) (s : List α) :
    s.count c ≤ (subst T s).count c := by
  induction s using reading_induction T hT with
  | nil => exact le_rfl
  | letter d s hm ih =>
    rw [subst_letter hm, List.count_cons, List.count_cons]
    omega
  | placeholder t v s hm ih =>
    have he := (match?_some hm).1
    rw [subst_placeholder hm (hT _ he), List.count_append, List.count_append,
      List.count_eq_zero.mpr (hc _ he)]
    omega

theorem count_subst_of_infix (ht : t ≠ []) (hc : c ∉ t) (h : t <:+: s) :
    s.count c + v.count c ≤ (subst [(t, v)] s).count c := by
  have hT : ∀ e ∈ [(t, v)], e.1 ≠ [] := fun e he => List.mem_singleton.mp he ▸ ht
  have hT' : ∀ e ∈ [(t, v)], c ∉ e.1 := fun e he => List.mem_singleton.mp he ▸ hc
  induction s using reading_induction _ hT with
  | nil => exact absurd (List.infix_nil.mp h) ht
  | letter d s hm ih =>
    have hs : t <:+: s := (List.infix_cons_iff.mp h).resolve_left
      (match?_eq_none.mp hm _ List.mem_cons_self)
    have hle := ih hs
    rw [subst_letter hm, List.count_cons, List.count_cons]
    omega
  | placeholder t' v' s hm =>
    obtain ⟨he, -⟩ := match?_some hm
    cases List.mem_singleton.mp he
    have hle := le_count_subst hT hT' s
    rw [subst_placeholder hm ht, List.count_append, List.count_append, List.count_eq_zero.mpr hc]
    omega

end counts

end SixGateway.Library.Template
