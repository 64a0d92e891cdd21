import Mathlib.Data.List.Sort

namespace SixGateway.Library

/-- The order in which a database returns the rows of a query that does not ask for one. -/
structure RowOrder (ρ : Type) where
  arrange : List ρ → List ρ
  perm : ∀ rows, (arrange rows).Perm rows

namespace RowOrder

variable {ρ : Type} (o : RowOrder ρ) {rows : List ρ} {r : ρ} {p : ρ → Bool}

def stored : RowOrder ρ := ⟨id, fun _ => .rfl⟩

def reversed : RowOrder ρ := ⟨List.reverse, List.reverse_perm⟩

theorem mem_arrange : r ∈ o.arrange rows ↔ r ∈ rows := (o.perm rows).mem_iff

theorem find?_arrange (hr : r ∈ rows) (hp : p r = true) (hu : ∀ s ∈ rows, p s = true → s = r) :
    (o.arrange rows).find? p = some r := by
  cases h : (o.arrange rows).find? p with
  | none => exact absurd hp (List.find?_eq_none.mp h r (o.mem_arrange.mpr hr))
  | some s =>
    rw [hu s (o.mem_arrange.mp (List.mem_of_find?_eq_some h)) (List.find?_some h)]

end RowOrder

section ties

variable {ρ : Type} (r : ρ → ρ → Prop) [DecidableRel r]

/-- Rows between which an `ORDER BY` does not decide. -/
def tied (a b : ρ) : Bool := decide (r a b ∧ r b a)

/-- The rows that an `ORDER BY` leaves tied stand in the same order in both lists. -/
def TiesAlike (l m : List ρ) : Prop := ∀ a, l.filter (tied r a) = m.filter (tied r a)

/-- The rows that a query with an `ORDER BY` returns, where `o` decides between tied rows. -/
def RowOrder.orderBy (o : RowOrder ρ) (rows : List ρ) : List ρ := (o.arrange rows).insertionSort r

variable {r} {l m : List ρ} {a b : ρ}

theorem tied_iff : tied r a b = true ↔ r a b ∧ r b a := decide_eq_true_iff

theorem tied_self [Std.Refl r] (a : ρ) : tied r a a = true := tied_iff.mpr ⟨refl a, refl a⟩

theorem TiesAlike.symm (h : TiesAlike r l m) : TiesAlike r m l := fun a => (h a).symm

theorem TiesAlike.mem [Std.Refl r] (h : TiesAlike r l m) (ha : a ∈ l) : a ∈ m := by
  have hf : a ∈ l.filter (tied r a) := List.mem_filter.mpr ⟨ha, tied_self a⟩
  rw [h a] at hf
  exact List.mem_of_mem_filter hf

omit [DecidableRel r] in
theorem rel_head [Std.Refl r] (hl : (a :: l).Pairwise r) (hb : b ∈ a :: l) : r a b := by
  obtain rfl | hb := List.mem_cons.mp hb
  · exact refl b
  · exact List.rel_of_pairwise_cons hl hb

theorem TiesAlike.eq [Std.Refl r] (h : TiesAlike r l m) (hl : l.Pairwise r) (hm : m.Pairwise r) :
    l = m := by
  induction l generalizing m with
  | nil =>
    cases m with
    | nil => rfl
    | cons b m => cases h.symm.mem List.mem_cons_self
  | cons a l ih =>
    cases m with
    | nil => cases h.mem List.mem_cons_self
    | cons b m =>
      have hab : r a b := rel_head hl (h.symm.mem List.mem_cons_self)
      have hba : r b a := rel_head hm (h.mem List.mem_cons_self)
      have hf := h a
      rw [List.filter_cons_of_pos (tied_self a),
        List.filter_cons_of_pos (tied_iff.mpr ⟨hab, hba⟩)] at hf
      obtain rfl := (List.cons.inj hf).1
      refine congrArg _ (ih (fun c => ?_) hl.of_cons hm.of_cons)
      have hc := h c
      by_cases ht : tied r c a = true
      · rw [List.filter_cons_of_pos ht, List.filter_cons_of_pos ht] at hc
        exact (List.cons.inj hc).2
      · rwa [List.filter_cons_of_neg ht, List.filter_cons_of_neg ht] at hc

theorem tiesAlike_insertionSort [IsTrans ρ r] (l : List ρ) :
    TiesAlike r (l.insertionSort r) l := by
  intro a
  have hr : (l.filter (tied r a)).Pairwise r := by
    refine List.pairwise_of_forall_mem_list (fun b hb c hc => ?_)
    exact trans_of r (tied_iff.mp (List.mem_filter.mp hb).2).2
      (tied_iff.mp (List.mem_filter.mp hc).2).1
  have hs := (List.sublist_insertionSort hr List.filter_sublist).filter (tied r a)
  rw [List.filter_filter] at hs
  simp only [Bool.and_self] at hs
  exact (hs.eq_of_length ((List.perm_insertionSort r l).filter _).length_eq.symm).symm

theorem insertionSort_eq_of_ties [Std.Total r] [IsTrans ρ r] (h : TiesAlike r l m) :
    l.insertionSort r = m.insertionSort r := by
  have : Std.Refl r := ⟨fun a => (total_of r a a).elim id id⟩
  refine TiesAlike.eq (fun a => ?_) (List.pairwise_insertionSort r l)
    (List.pairwise_insertionSort r m)
  rw [tiesAlike_insertionSort l a, tiesAlike_insertionSort m a, h a]

theorem insertionSort_eq_of_perm [Std.Antisymm r] [Std.Total r] [IsTrans ρ r] (h : l.Perm m) :
    l.insertionSort r = m.insertionSort r :=
  List.Perm.eq_of_pairwise' (List.pairwise_insertionSort r l) (List.pairwise_insertionSort r m)
    ((List.perm_insertionSort r l).trans (h.trans (List.perm_insertionSort r m).symm))

end ties

end SixGateway.Library
