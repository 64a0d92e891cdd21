import SixGateway.Library.Rows

namespace SixGateway.Library

variable {ρ : Type} (r : ρ → ρ → Prop) [DecidableRel r]

/-- A page of `n` rows, the first of them being page 0. -/
def page (n i : Nat) (l : List ρ) : List ρ := (l.drop (i * n)).take n

/-- The first `k` pages of an ordered query, each of them from a query of its own. -/
def pages (orders : Nat → RowOrder ρ) (n k : Nat) (rows : List ρ) : List ρ :=
  (List.range k).flatMap (fun i => page n i ((orders i).orderBy r rows))

def before (rows : List ρ) (a : ρ) : Nat := rows.countP (fun b => decide (r b a ∧ ¬ r a b))

def upTo (rows : List ρ) (a : ρ) : Nat := rows.countP (fun b => decide (r b a))

/-- No end of a page falls between tied rows. -/
def Undivided (n : Nat) (rows : List ρ) : Prop :=
  ∀ a ∈ rows, ∀ i, i * n ≤ before r rows a ∨ upTo r rows a ≤ i * n

variable {r} {rows s u v : List ρ} {a x y : ρ} {p : ρ → Bool} {n b : Nat} {o : RowOrder ρ}

theorem perm_orderBy (o : RowOrder ρ) (rows : List ρ) : (o.orderBy r rows).Perm rows :=
  (List.perm_insertionSort r _).trans (o.perm rows)

theorem pairwise_orderBy [Std.Total r] [IsTrans ρ r] (o : RowOrder ρ) (rows : List ρ) :
    (o.orderBy r rows).Pairwise r := List.pairwise_insertionSort r _

omit [DecidableRel r] in
theorem filter_append_filter_not (hs : s.Pairwise r)
    (hp : ∀ a b, r a b → p b = true → p a = true) :
    s.filter p ++ s.filter (fun a => !p a) = s := by
  induction s with
  | nil => rfl
  | cons a s ih =>
    by_cases ha : p a = true
    · rw [List.filter_cons_of_pos ha, List.filter_cons_of_neg (by simp [ha]), List.cons_append,
        ih hs.of_cons]
    · have hnone : ∀ b ∈ a :: s, p b = false := by
        intro b hb
        obtain rfl | hb := List.mem_cons.mp hb
        · simpa using ha
        · simpa using fun hpb => ha (hp a b (List.rel_of_pairwise_cons hs hb) hpb)
      have hnil : (a :: s).filter p = [] := List.filter_eq_nil_iff.mpr (by simpa using hnone)
      have hall : (a :: s).filter (fun b => !p b) = a :: s :=
        List.filter_eq_self.mpr (by simpa using hnone)
      rw [hnil, hall, List.nil_append]

omit [DecidableRel r] in
theorem take_countP (hs : s.Pairwise r) (hp : ∀ a b, r a b → p b = true → p a = true) :
    s.take (s.countP p) = s.filter p := by
  have h := filter_append_filter_not hs hp
  rw [List.countP_eq_length_filter]
  nth_rewrite 2 [← h]
  exact List.take_left

theorem before_perm (h : s.Perm rows) (a : ρ) : before r s a = before r rows a := h.countP_eq _

theorem upTo_perm (h : s.Perm rows) (a : ρ) : upTo r s a = upTo r rows a := h.countP_eq _

theorem position_between [Std.Refl r] (hs : (u ++ a :: v).Pairwise r) :
    before r (u ++ a :: v) a ≤ u.length ∧ u.length < upTo r (u ++ a :: v) a := by
  obtain ⟨-, hav, hua⟩ := List.pairwise_append.mp hs
  have hafter : (a :: v).countP (fun b => decide (r b a ∧ ¬ r a b)) = 0 := by
    refine List.countP_eq_zero.mpr (fun b hb => ?_)
    simp [rel_head hav hb]
  have hbefore : u.countP (fun b => decide (r b a)) = u.length :=
    List.countP_eq_length.mpr (fun b hb => by simpa using hua b hb a List.mem_cons_self)
  have hself : 0 < (a :: v).countP (fun b => decide (r b a)) :=
    List.countP_pos_iff.mpr ⟨a, List.mem_cons_self, by simpa using refl (r := r) a⟩
  rw [before, upTo, List.countP_append, List.countP_append, hafter, hbefore]
  exact ⟨List.countP_le_length, by omega⟩

/-- Where no end of a page falls between tied rows, the rows up to it do not depend on the order. -/
theorem take_perm [Std.Total r] [IsTrans ρ r] {s' : List ρ} (h : Undivided r n rows) {i : Nat}
    (hs : s.Pairwise r) (hs' : s'.Pairwise r) (hp : s.Perm rows) (hp' : s'.Perm rows) :
    (s.take (i * n)).Perm (s'.take (i * n)) := by
  have : Std.Refl r := ⟨fun a => (total_of r a a).elim id id⟩
  obtain hlen | hlen := Nat.lt_or_ge (i * n) s.length
  · have hsplit : s.take (i * n) ++ s[i * n] :: s.drop (i * n + 1) = s := by
      rw [List.getElem_cons_drop, List.take_append_drop]
    generalize ha : s[i * n] = a at hsplit
    have hmem : a ∈ rows := hp.mem_iff.mp (ha ▸ List.getElem_mem hlen)
    obtain ⟨hle, hlt⟩ := position_between (r := r) (hsplit.symm ▸ hs)
    rw [hsplit, List.length_take_of_le hlen.le] at hle hlt
    have hbefore : before r rows a = i * n := by
      have hone := h a hmem i
      rw [← before_perm hp, ← upTo_perm hp] at hone
      rw [← before_perm hp]
      omega
    have hdown : ∀ c b, r c b → decide (r b a ∧ ¬ r a b) = true →
        decide (r c a ∧ ¬ r a c) = true := by
      intro c b hcb hb
      obtain ⟨hba, hab⟩ := of_decide_eq_true hb
      exact decide_eq_true ⟨trans_of r hcb hba, fun hac => hab (trans_of r hac hcb)⟩
    have htake := take_countP hs hdown
    have htake' := take_countP hs' hdown
    rw [← before, before_perm hp, hbefore] at htake
    rw [← before, before_perm hp', hbefore] at htake'
    rw [htake, htake']
    exact (hp.trans hp'.symm).filter _
  · rw [List.take_of_length_le hlen, List.take_of_length_le (by
      rw [hp'.length_eq, ← hp.length_eq]
      exact hlen)]
    exact hp.trans hp'.symm

theorem pages_succ (orders : Nat → RowOrder ρ) (n k : Nat) (rows : List ρ) :
    pages r orders n (k + 1) rows =
      pages r orders n k rows ++ page n k ((orders k).orderBy r rows) := by
  rw [pages, pages, List.range_succ, List.flatMap_append, List.flatMap_singleton]

theorem take_append_page (n k : Nat) (l : List ρ) :
    l.take (k * n) ++ page n k l = l.take ((k + 1) * n) := by
  rw [page, ← List.take_add, Nat.succ_mul]

theorem pages_perm_take [Std.Total r] [IsTrans ρ r] (orders : Nat → RowOrder ρ)
    (h : Undivided r n rows) (k : Nat) (hs : s.Pairwise r) (hp : s.Perm rows) :
    (pages r orders n k rows).Perm (s.take (k * n)) := by
  induction k generalizing s with
  | zero => simp [pages]
  | succ k ih =>
    have hk := pairwise_orderBy (r := r) (orders k) rows
    have hkp := perm_orderBy (r := r) (orders k) rows
    have hpages := (ih hk hkp).append_right (page n k ((orders k).orderBy r rows))
    rw [take_append_page] at hpages
    rw [pages_succ]
    exact hpages.trans (take_perm h hk hs hkp hp)

/-- Where no end of a page falls between tied rows, the pages hold every row once, whatever order
each of their queries takes. -/
theorem pages_perm [Std.Total r] [IsTrans ρ r] (orders : Nat → RowOrder ρ)
    (h : Undivided r n rows) {k : Nat} (hk : rows.length ≤ k * n) :
    (pages r orders n k rows).Perm rows := by
  have hp := perm_orderBy (r := r) .stored rows
  have htake := pages_perm_take orders h k (pairwise_orderBy .stored rows) hp
  rw [List.take_of_length_le (hp.length_eq.trans_le hk)] at htake
  exact htake.trans hp

theorem pages_same {orders : Nat → RowOrder ρ} {k : Nat} (h : ∀ j < k, orders j = o) :
    pages r orders n k rows = (o.orderBy r rows).take (k * n) := by
  induction k with
  | zero => simp [pages]
  | succ k ih =>
    rw [pages_succ, ih (fun j hj => h j (by omega)), h k (by omega), take_append_page]

theorem pages_switched (o o' : RowOrder ρ) {i k : Nat} (hik : i ≤ k) :
    pages r (fun j => if j < i then o else o') n k rows =
      (o.orderBy r rows).take (i * n) ++ ((o'.orderBy r rows).take (k * n)).drop (i * n) := by
  induction k, hik using Nat.le_induction with
  | base =>
    rw [pages_same (o := o) (fun j hj => if_pos hj), List.drop_eq_nil_of_le (List.length_take_le ..),
      List.append_nil]
  | succ k hik ih =>
    rw [pages_succ, ih, if_neg (by omega), List.append_assoc, ← take_append_page n k]
    congr 1
    have hle : i * n ≤ k * n := Nat.mul_le_mul_right n hik
    obtain hlen | hlen := Nat.lt_or_ge ((o'.orderBy r rows).take (k * n)).length (i * n)
    · have hempty : page n k (o'.orderBy r rows) = [] := by
        rw [List.length_take] at hlen
        rw [page, List.drop_eq_nil_of_le (by omega), List.take_nil]
      rw [hempty, List.append_nil, List.append_nil]
    · rw [List.drop_append_of_le_length hlen]

theorem tied_at_end [Std.Total r] [IsTrans ρ r] (hs : (u ++ x :: y :: v).Pairwise r)
    (hbefore : before r (u ++ x :: y :: v) a < u.length + 1)
    (hupTo : u.length + 1 < upTo r (u ++ x :: y :: v) a) : r y x := by
  have : Std.Refl r := ⟨fun a => (total_of r a a).elim id id⟩
  obtain ⟨-, hxy, hu⟩ := List.pairwise_append.mp hs
  have hax : r a x := by
    by_contra hno
    have hall : (u ++ [x]).countP (fun b => decide (r b a ∧ ¬ r a b)) = (u ++ [x]).length := by
      refine List.countP_eq_length.mpr (fun b hb => decide_eq_true ?_)
      have hbx : r b x := by
        obtain hb | hb := List.mem_append.mp hb
        · exact hu b hb x List.mem_cons_self
        · obtain rfl := List.mem_singleton.mp hb
          exact refl b
      have hab : ¬ r a b := fun hab => hno (trans_of r hab hbx)
      exact ⟨(total_of r a b).resolve_left hab, hab⟩
    rw [before, List.append_cons, List.countP_append, hall, List.length_append,
      List.length_singleton] at hbefore
    omega
  have hya : r y a := by
    by_contra hno
    have hnone : (y :: v).countP (fun b => decide (r b a)) = 0 := by
      refine List.countP_eq_zero.mpr (fun b hb hba => hno ?_)
      exact trans_of r (rel_head hxy.of_cons hb) (of_decide_eq_true hba)
    have hle := List.countP_le_length (p := fun b => decide (r b a)) (l := u ++ [x])
    rw [upTo, List.append_cons, List.countP_append, hnone] at hupTo
    rw [List.length_append, List.length_singleton] at hle
    omega
  exact trans_of r hya hax

omit [DecidableRel r] in
theorem pairwise_swapped (hs : (u ++ x :: y :: v).Pairwise r) (hyx : r y x) :
    (u ++ y :: x :: v).Pairwise r := by
  simp only [List.pairwise_append, List.pairwise_cons, List.mem_cons] at hs ⊢
  obtain ⟨hu, ⟨hx, hy, hv⟩, hcross⟩ := hs
  refine ⟨hu, ⟨?_, fun b hb => hx b (.inr hb), hv⟩, fun b hb c hc => hcross b hb c ?_⟩
  · rintro b (rfl | hb)
    · exact hyx
    · exact hy b hb
  · exact or_left_comm.mp hc

/-- Where an end of a page falls between tied rows, some orders make the pages repeat a row. -/
theorem pages_repeat [Std.Total r] [IsTrans ρ r] [DecidableEq ρ] (h : ¬ Undivided r n rows) {k : Nat}
    (hk : rows.length ≤ k * n) : ∃ orders, ¬ (pages r orders n k rows).Nodup := by
  simp only [Undivided, not_forall, not_or, Nat.not_le] at h
  obtain ⟨a, ha, i, hbefore, hupTo⟩ := h
  have hs := pairwise_orderBy (r := r) .stored rows
  have hp := perm_orderBy (r := r) .stored rows
  generalize hsorted : RowOrder.stored.orderBy r rows = s at hs hp
  rw [← before_perm hp] at hbefore
  rw [← upTo_perm hp] at hupTo
  have hlen : i * n < s.length := hupTo.trans_le List.countP_le_length
  obtain ⟨m, hm⟩ := Nat.exists_eq_succ_of_ne_zero (n := i * n) (by omega)
  obtain ⟨u, x, y, v, rfl, hu⟩ : ∃ u x y v, s = u ++ x :: y :: v ∧ u.length + 1 = i * n := by
    refine ⟨s.take m, s[m], s[m + 1], s.drop (m + 2), ?_, ?_⟩
    · rw [← List.drop_eq_getElem_cons, ← List.drop_eq_getElem_cons, List.take_append_drop]
    · rw [List.length_take_of_le (by omega), hm]
  have hyx := tied_at_end (a := a) hs (by omega) (by omega)
  have hswap : (u ++ y :: x :: v).Perm rows := (List.Perm.append_left u (.swap x y v)).trans hp
  let o : RowOrder ρ := ⟨fun l => if l = rows then u ++ y :: x :: v else l, fun l => by
    split
    · next heq => exact heq ▸ hswap
    · exact .rfl⟩
  have ho : o.orderBy r rows = u ++ y :: x :: v := by
    rw [RowOrder.orderBy, show o.arrange rows = u ++ y :: x :: v from if_pos rfl]
    exact (pairwise_swapped hs hyx).insertionSort_eq
  have hik : i ≤ k := by
    by_contra hlt
    have := Nat.mul_le_mul_right n (Nat.le_of_not_le hlt)
    rw [hp.length_eq] at hlen
    omega
  refine ⟨fun j => if j < i then .stored else o, fun hn => ?_⟩
  rw [pages_switched .stored o hik, ho, hsorted, List.take_of_length_le (l := u ++ y :: x :: v)
    (hswap.length_eq.trans_le hk), ← hu] at hn
  have htake : (u ++ x :: y :: v).take (u.length + 1) = u ++ [x] :=
    List.take_length_add_append 1
  have hdrop : (u ++ y :: x :: v).drop (u.length + 1) = x :: v :=
    List.drop_length_add_append 1
  rw [htake, hdrop, List.append_assoc] at hn
  exact (List.nodup_cons.mp hn.of_append_right).1 List.mem_cons_self

end SixGateway.Library
