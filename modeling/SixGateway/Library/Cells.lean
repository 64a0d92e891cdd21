import SixGateway.Library.Chain

namespace SixGateway.Library.Template

variable {α : Type}

/-- The marks of a text stay as they are, in their order, and what stands between two of them is
rewritten by itself. -/
structure ByCells (p : α → Bool) (f : List α → List α) (s : List α) : Prop where
  marks : (f s).filter p = s.filter p
  cells : (f s).splitOnP p = (s.splitOnP p).map f

section

variable {p : α → Bool} {f : List α → List α} {s : List α}

theorem byCells (hout : ∀ c, p c = true → ∀ x y, f (x ++ c :: y) = f x ++ c :: f y)
    (hin : ∀ s, (∀ c ∈ s, p c = false) → ∀ c ∈ f s, p c = false) (s : List α) : ByCells p f s := by
  induction hlen : s.length using Nat.strong_induction_on generalizing s with
  | _ n ih =>
    obtain hall | ⟨x, c, y, rfl, hx, hc⟩ := exists_first (fun c => p c = true) s
    · have hs : ∀ c ∈ s, p c = false := fun c hc => Bool.eq_false_iff.mpr (hall c hc)
      constructor
      · rw [List.filter_eq_nil_iff.mpr hall,
          List.filter_eq_nil_iff.mpr (fun c hc => Bool.eq_false_iff.mp (hin s hs c hc))]
      · rw [List.splitOnP_eq_singleton hs, List.splitOnP_eq_singleton (hin s hs)]
        rfl
    · have hleft : ByCells p f x := ih _ (by simp [← hlen]) x rfl
      have hright : ByCells p f y := ih _ (by simp [← hlen]; omega) y rfl
      constructor
      · rw [hout c hc, List.filter_append, List.filter_append, List.filter_cons_of_pos hc,
          List.filter_cons_of_pos hc, hleft.marks, hright.marks]
      · rw [hout c hc, List.splitOnP_append_cons _ _ hc, List.splitOnP_append_cons _ _ hc,
          List.map_append, hleft.cells, hright.cells]

theorem ByCells.count [DecidableEq α] (h : ByCells p f s) {c : α} (hc : p c = true) :
    (f s).count c = s.count c := by
  rw [← List.count_filter hc, h.marks, List.count_filter hc]

end

section chain

variable [DecidableEq α] {slots : List (Slot α)} {ts : List (List α)} {T : Meanings α} {c : α}
  {e : Slot α} {s t : List α} {p : α → Bool}

theorem not_mem_chain (hs : Separated (tokens slots)) (hc : Outside (tokens slots) c)
    (hv : ∀ e ∈ slots, c ∉ e.value) (h : c ∉ s) : c ∉ chain slots s := by
  induction slots generalizing s with
  | nil => exact h
  | cons e later ih =>
    rw [chain, List.foldl_cons, ← chain]
    refine ih (later_separated hs) (fun t ht => hc t (List.mem_cons_of_mem _ ht))
      (fun e he => hv e (List.mem_cons_of_mem _ he)) ?_
    have hcount := count_subst_of_not_mem (fun f hf => hs.ne_nil (first_mem f hf))
      (fun f hf => hc _ (first_mem f hf))
      (fun f hf => List.mem_singleton.mp hf ▸ hv e List.mem_cons_self) s
    rw [← List.count_eq_zero, hcount, List.count_eq_zero]
    exact h

theorem chain_byCells (hs : Separated (tokens slots))
    (hout : ∀ c, p c = true → Outside (tokens slots) c)
    (hv : ∀ e ∈ slots, ∀ c ∈ e.value, p c = false) (s : List α) : ByCells p (chain slots) s := by
  refine byCells (fun c hc x y => chain_outside hs (hout c hc) x y) (fun s hs' c hc => ?_) s
  by_contra hmark
  have hc' : p c = true := eq_true_of_ne_false hmark
  refine not_mem_chain hs (hout c hc') (fun e he hmem => hmark (hv e he c hmem)) ?_ hc
  exact fun hmem => hmark (hs' c hmem)

theorem infix_subst (hs : Separated ts) (hT : ∀ e ∈ T, e.1 ∈ ts) (ht : t ∈ ts)
    (hne : ∀ e ∈ T, e.1 ≠ t) (h : t <:+: s) : t <:+: subst T s := by
  obtain ⟨x, y, rfl⟩ := h
  have hnil : ∀ e ∈ T, e.1 ≠ [] := fun e he => hs.ne_nil (hT e he)
  have hright : NoStraddle T x (t ++ y) :=
    hs.noStraddle_right hT ht (.inr (List.prefix_append t y)) x
  rw [List.append_assoc, subst_append hnil hright,
    subst_append hnil (hs.noStraddle_left hT ht List.suffix_rfl y), subst_other hs hT ht hne]
  exact ⟨_, _, List.append_assoc ..⟩

theorem lt_count_chain (hs : Separated (tokens slots)) (hc : Outside (tokens slots) c)
    (he : e ∈ slots) (hv : c ∈ e.value) (h : e.token <:+: s) :
    s.count c < (chain slots s).count c := by
  induction slots generalizing s with
  | nil => cases he
  | cons f later ih =>
    have hlater : Outside (tokens later) c := fun t ht => hc t (List.mem_cons_of_mem _ ht)
    rw [chain, List.foldl_cons, ← chain]
    obtain rfl | he := List.mem_cons.mp he
    · have hin := count_subst_of_infix (v := e.value) (hs.ne_nil List.mem_cons_self)
        (hc e.token List.mem_cons_self) h
      have hrest := le_count_chain (later_separated hs) hlater (subst [(e.token, e.value)] s)
      have hpos := List.count_pos_iff.mpr hv
      omega
    · have ht : e.token ∈ tokens (f :: later) := List.mem_cons_of_mem _ (List.mem_map_of_mem he)
      have hstill := infix_subst hs first_mem ht (first_ne hs he) h
      exact (le_count_subst (fun g hg => hs.ne_nil (first_mem g hg))
        (fun g hg => hc _ (first_mem g hg)) s).trans_lt (ih (later_separated hs) hlater he hstill)

/-- A chain of which all placeholders stand in the text goes cell by cell exactly when none of its
values has a mark. -/
theorem chain_byCells_iff (hs : Separated (tokens slots))
    (hout : ∀ c, p c = true → Outside (tokens slots) c) (hin : ∀ t ∈ tokens slots, t <:+: s) :
    ByCells p (chain slots) s ↔ ∀ e ∈ slots, ∀ c ∈ e.value, p c = false := by
  refine ⟨fun h e he c hc => ?_, fun h => chain_byCells hs hout h s⟩
  by_contra hmark
  have hc' : p c = true := eq_true_of_ne_false hmark
  exact (lt_count_chain hs (hout c hc') he hc (hin _ (List.mem_map_of_mem he))).ne' (h.count hc')

end chain

end SixGateway.Library.Template
