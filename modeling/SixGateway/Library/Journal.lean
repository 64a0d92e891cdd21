import Mathlib.Algebra.BigOperators.Group.List.Basic
import Mathlib.Algebra.Ring.Int.Defs
import Mathlib.Data.List.Dedup

namespace SixGateway.Library.Journal

variable {ε γ κ M : Type} [DecidableEq γ] [DecidableEq κ] [AddCommMonoid M]

/-- The sum of `v` over the entries that satisfy `p`. -/
def sumOver (v : ε → M) (p : ε → Bool) (l : List ε) : M := ((l.filter p).map v).sum

variable (v : ε → M) (p q : ε → Bool) (l m : List ε)

@[simp] theorem sumOver_nil : sumOver v p ([] : List ε) = 0 := rfl

@[simp] theorem sumOver_append : sumOver v p (l ++ m) = sumOver v p l + sumOver v p m := by
  simp [sumOver]

theorem sumOver_cons (e : ε) : sumOver v p (e :: l) = (if p e then v e else 0) + sumOver v p l := by
  by_cases h : p e <;> simp [sumOver, h]

variable {v p q l m}

theorem sumOver_congr (h : ∀ e ∈ l, p e = q e) : sumOver v p l = sumOver v q l := by
  rw [sumOver, sumOver, List.filter_congr h]

theorem sumOver_eq_zero (h : ∀ e ∈ l, p e = false) : sumOver v p l = 0 := by
  have : l.filter p = [] := List.filter_eq_nil_iff.mpr (by simpa using h)
  simp [sumOver, this]

theorem sumOver_of_forall (h : ∀ e ∈ l, p e = true) : sumOver v p l = (l.map v).sum := by
  rw [sumOver, List.filter_eq_self.mpr h]

theorem sumOver_perm (h : l.Perm m) : sumOver v p l = sumOver v p m :=
  ((h.filter p).map v).sum_eq

theorem sum_map_ite (v : ε → M) (p : ε → Bool) (l : List ε) :
    (l.map (fun e => if p e then v e else 0)).sum = sumOver v p l := by
  induction l with
  | nil => rfl
  | cons e l ih => rw [List.map_cons, List.sum_cons, sumOver_cons, ih]

omit [DecidableEq γ] in
theorem sum_indicator {ks : List κ} (hn : ks.Nodup) {k : κ} (hk : k ∈ ks) (x : M) :
    (ks.map (fun j => if k = j then x else 0)).sum = x := by
  induction ks with
  | nil => cases hk
  | cons j ks ih =>
    obtain ⟨hj, hn'⟩ := List.nodup_cons.mp hn
    by_cases h : k = j
    · subst h
      have hz : (ks.map (fun i => if k = i then x else 0)).sum = 0 :=
        List.sum_eq_zero (fun y hy => by
          obtain ⟨i, hi, rfl⟩ := List.mem_map.mp hy
          exact if_neg (by rintro rfl; exact hj hi))
      simp [hz]
    · simpa [h] using ih hn' ((List.mem_cons.mp hk).resolve_left h)

/-- Summing group by group over a list of distinct keys that covers every entry satisfying `p`
gives the whole sum over `p`. -/
theorem sum_groups (key : ε → κ) {ks : List κ} (hn : ks.Nodup)
    (hc : ∀ e ∈ l, p e = true → key e ∈ ks) :
    (ks.map (fun k => sumOver v (fun e => p e && decide (key e = k)) l)).sum = sumOver v p l := by
  induction l with
  | nil => simp
  | cons e l ih =>
    have hl := ih (fun e' he' => hc e' (List.mem_cons_of_mem _ he'))
    simp only [sumOver_cons, List.sum_map_add, hl]
    congr 1
    by_cases he : p e = true
    · simpa only [he, Bool.true_and, decide_eq_true_eq, if_true] using
        sum_indicator hn (hc e List.mem_cons_self he) (v e)
    · simp [he]

/-- The groups of a journal are settled when the entries of each of them sum to zero. -/
def Settled (g : ε → γ) (v : ε → M) (l : List ε) : Prop :=
  ∀ c, sumOver v (fun e => decide (g e = c)) l = 0

theorem settled_nil (g : ε → γ) : Settled g v [] := fun _ => rfl

theorem Settled.append {g : ε → γ} (hl : Settled g v l) (hm : Settled g v m) :
    Settled g v (l ++ m) := fun c => by rw [sumOver_append, hl c, hm c, add_zero]

theorem settled_of_const {g : ε → γ} {c : γ} (hg : ∀ e ∈ l, g e = c) (hz : (l.map v).sum = 0) :
    Settled g v l := by
  intro d
  by_cases h : c = d
  · subst h
    rw [sumOver_of_forall (fun e he => by simpa using hg e he), hz]
  · exact sumOver_eq_zero (fun e he => by simpa [hg e he] using h)

/-- In a settled journal every selection that goes by the group alone sums to zero. -/
theorem Settled.sumOver_eq_zero {g : ε → γ} (h : Settled g v l) (f : γ → Bool) :
    sumOver v (fun e => f (g e)) l = 0 := by
  rw [← sum_groups (v := v) (p := fun e => f (g e)) g (List.nodup_dedup (l.map g))
    (fun e he _ => List.mem_dedup.mpr (List.mem_map_of_mem he))]
  apply List.sum_eq_zero
  intro x hx
  obtain ⟨c, -, rfl⟩ := List.mem_map.mp hx
  by_cases hf : f c = true
  · rw [← h c]
    refine sumOver_congr (fun e _ => ?_)
    by_cases hc : g e = c <;> simp [hc, hf]
  · exact Journal.sumOver_eq_zero (fun e _ => by
      by_cases hc : g e = c <;> simp [hc, hf])

end SixGateway.Library.Journal
