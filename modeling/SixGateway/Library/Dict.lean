import Mathlib.Algebra.BigOperators.Group.Finset.Basic
import Mathlib.Algebra.BigOperators.Group.List.Basic
import Mathlib.Algebra.Ring.Int.Defs
import Mathlib.Data.List.Induction
import Mathlib.Data.List.Nodup

namespace SixGateway.Library

variable {κ α ν : Type} [DecidableEq κ] [DecidableEq α]

/-- A dictionary that keeps its items in the order in which their keys were first set. -/
structure Dict (κ ν : Type) where
  items : List (κ × ν)
  nodup : (items.map Prod.fst).Nodup

namespace Dict

def empty : Dict κ ν := ⟨[], List.nodup_nil⟩

def keys (d : Dict κ ν) : List κ := d.items.map Prod.fst

def values (d : Dict κ ν) : List ν := d.items.map Prod.snd

def get? (d : Dict κ ν) (k : κ) : Option ν :=
  (d.items.find? (fun e => decide (e.1 = k))).map Prod.snd

def put (k : κ) (v : ν) (e : κ × ν) : κ × ν := if e.1 = k then (k, v) else e

theorem put_fst (k : κ) (v : ν) (e : κ × ν) : (put k v e).1 = e.1 := by
  unfold put
  split
  · next h => exact h.symm
  · rfl

def set (d : Dict κ ν) (k : κ) (v : ν) : Dict κ ν :=
  if h : k ∈ d.keys then
    ⟨d.items.map (put k v), by
      have hf : Prod.fst ∘ put k v = Prod.fst := funext (put_fst k v)
      rw [List.map_map, hf]
      exact d.nodup⟩
  else
    ⟨d.items ++ [(k, v)], by
      rw [List.map_append, List.nodup_append]
      refine ⟨d.nodup, List.nodup_singleton _, ?_⟩
      rintro a ha _ hb rfl
      obtain rfl : a = k := List.mem_singleton.mp hb
      exact h ha⟩

variable {d : Dict κ ν} {k : κ} {v : ν} {e : κ × ν}

omit [DecidableEq κ] in
@[simp] theorem items_empty : (empty : Dict κ ν).items = [] := rfl

omit [DecidableEq κ] in
theorem mem_keys : k ∈ d.keys ↔ ∃ v, (k, v) ∈ d.items := by
  simp [keys]

theorem mem_set : e ∈ (d.set k v).items ↔ e = (k, v) ∨ (e ∈ d.items ∧ e.1 ≠ k) := by
  unfold set
  split
  · next h =>
    obtain ⟨u, hu⟩ := mem_keys.mp h
    simp only [List.mem_map]
    constructor
    · rintro ⟨x, hx, rfl⟩
      by_cases hk : x.1 = k
      · exact .inl (if_pos hk)
      · rw [put, if_neg hk]
        exact .inr ⟨hx, hk⟩
    · rintro (rfl | ⟨he, hk⟩)
      · exact ⟨(k, u), hu, if_pos rfl⟩
      · exact ⟨e, he, if_neg hk⟩
  · next h =>
    simp only [List.mem_append, List.mem_singleton]
    constructor
    · rintro (he | rfl)
      · exact .inr ⟨he, fun hk => h (mem_keys.mpr ⟨e.2, hk ▸ he⟩)⟩
      · exact .inl rfl
    · rintro (rfl | ⟨he, -⟩)
      · exact .inr rfl
      · exact .inl he

theorem get?_some (h : d.get? k = some v) : (k, v) ∈ d.items := by
  obtain ⟨e, he, rfl⟩ := Option.map_eq_some_iff.mp h
  have hk : e.1 = k := by simpa using List.find?_some he
  exact hk ▸ List.mem_of_find?_eq_some he

theorem get?_none (h : d.get? k = none) : k ∉ d.keys := by
  intro hk
  obtain ⟨v, hv⟩ := mem_keys.mp hk
  have hn := List.find?_eq_none.mp (Option.map_eq_none_iff.mp h) _ hv
  simp at hn

omit [DecidableEq κ] in
theorem eq_of_mem {u : ν} (hv : (k, v) ∈ d.items) (hu : (k, u) ∈ d.items) : v = u :=
  congrArg Prod.snd (List.inj_on_of_nodup_map d.nodup hv hu rfl)

theorem get?_eq_some : d.get? k = some v ↔ (k, v) ∈ d.items := by
  refine ⟨get?_some, fun hv => ?_⟩
  cases h : d.get? k with
  | none => exact absurd (mem_keys.mpr ⟨v, hv⟩) (get?_none h)
  | some u => rw [eq_of_mem hv (get?_some h)]

theorem mem_keys_iff : k ∈ d.keys ↔ (d.get? k).isSome := by
  rw [mem_keys, Option.isSome_iff_exists]
  exact exists_congr (fun _ => get?_eq_some.symm)

theorem get?_set (j : κ) : (d.set k v).get? j = if j = k then some v else d.get? j := by
  refine Option.ext (fun u => ?_)
  rw [get?_eq_some, mem_set]
  by_cases h : j = k
  · simp [h, eq_comm]
  · simp [h, get?_eq_some]

@[simp] theorem get?_empty (k : κ) : (empty : Dict κ ν).get? k = none := rfl

theorem perm_of_get? {d' : Dict κ ν} (h : ∀ k, d.get? k = d'.get? k) : d.items.Perm d'.items := by
  refine (List.perm_ext_iff_of_nodup (d.nodup.of_map _) (d'.nodup.of_map _)).mpr (fun e => ?_)
  rw [← Prod.mk.eta (p := e), ← get?_eq_some, ← get?_eq_some, h]

theorem sum_values [AddCommMonoid ν] {ks : List κ} (hn : ks.Nodup) (hk : ∀ k ∈ d.keys, k ∈ ks) :
    (ks.map (fun k => (d.get? k).getD 0)).sum = d.values.sum := by
  have hvalues : d.values = d.keys.map (fun k => (d.get? k).getD 0) := by
    rw [values, keys, List.map_map]
    refine List.map_congr_left (fun e he => ?_)
    rw [Function.comp_apply, get?_eq_some.mpr he, Option.getD_some]
  have hkeys : d.keys.toFinset ⊆ ks.toFinset := fun k hin =>
    List.mem_toFinset.mpr (hk k (List.mem_toFinset.mp hin))
  have hdistinct : d.keys.Nodup := d.nodup
  rw [hvalues, ← List.sum_toFinset _ hn, ← List.sum_toFinset _ hdistinct]
  refine (Finset.sum_subset hkeys (fun k _ hout => ?_)).symm
  cases hg : d.get? k with
  | none => rfl
  | some v => exact absurd (List.mem_toFinset.mpr (mem_keys_iff.mpr (by simp [hg]))) hout

/-- The dictionary `{k: v for k, v in l}`. -/
def ofList (l : List (κ × ν)) : Dict κ ν := l.foldl (fun d e => d.set e.1 e.2) empty

theorem get?_ofList {l : List (κ × ν)} (hn : (l.map Prod.fst).Nodup) :
    (ofList l).get? k = some v ↔ (k, v) ∈ l := by
  induction l using List.reverseRecOn with
  | nil => simp [ofList]
  | append_singleton l e ih =>
    rw [List.map_append, List.nodup_append] at hn
    obtain ⟨hn, -, hnew⟩ := hn
    have hset : ofList (l ++ [e]) = (ofList l).set e.1 e.2 := by simp [ofList]
    rw [hset, get?_set, List.mem_append, List.mem_singleton]
    split
    · next h =>
      have hk : (k, v) ∉ l := fun hl =>
        hnew _ (List.mem_map_of_mem hl) _ (List.mem_singleton_self _) h
      rw [or_iff_right hk, Prod.ext_iff, Option.some.injEq]
      exact ⟨fun hv => ⟨h, hv.symm⟩, fun hv => hv.2.symm⟩
    · next h => simp [ih hn, Prod.ext_iff, h]

/-- The loop `totals[k] = totals.get(k, 0) + v` over a list of rows. -/
def tally [AddCommMonoid ν] (l : List (κ × ν)) : Dict κ ν :=
  l.foldl (fun d e => d.set e.1 ((d.get? e.1).getD 0 + e.2)) empty

theorem get?_tally [AddCommMonoid ν] (l : List (κ × ν)) (k : κ) :
    (tally l).get? k = if k ∈ l.map Prod.fst then
      some ((l.filter (fun e => decide (e.1 = k))).map Prod.snd).sum else none := by
  induction l using List.reverseRecOn with
  | nil => simp [tally]
  | append_singleton l e ih =>
    have hset : tally (l ++ [e]) =
        (tally l).set e.1 (((tally l).get? e.1).getD 0 + e.2) := by simp [tally]
    rw [hset, get?_set]
    by_cases h : k = e.1
    · subst h
      have hsum : ((tally l).get? e.1).getD 0 =
          ((l.filter (fun f => decide (f.1 = e.1))).map Prod.snd).sum := by
        rw [ih]
        split
        · rfl
        · next hk =>
          have hnil : l.filter (fun f => decide (f.1 = e.1)) = [] := by
            refine List.filter_eq_nil_iff.mpr (fun f hf heq => hk ?_)
            exact List.mem_map.mpr ⟨f, hf, of_decide_eq_true heq⟩
          simp [hnil]
      simp [hsum]
    · have hfilter : [e].filter (fun f => decide (f.1 = k)) = [] := by simp [Ne.symm h]
      rw [if_neg h, ih, List.filter_append, hfilter, List.append_nil]
      simp only [List.map_append, List.mem_append, List.map_cons, List.map_nil,
        List.mem_singleton, h, or_false]

theorem sum_set_new [AddCommMonoid ν] (h : k ∉ d.keys) :
    (d.set k v).values.sum = d.values.sum + v := by
  simp [set, h, values]

/-- The loop `grouped.setdefault(k, {})[a] = v` over a list of rows. -/
def group (rows : List (κ × α × ν)) : Dict κ (Dict α ν) :=
  rows.foldl (fun d r => d.set r.1 (((d.get? r.1).getD empty).set r.2.1 r.2.2)) empty

theorem group_append (rows : List (κ × α × ν)) (r : κ × α × ν) :
    group (rows ++ [r]) =
      (group rows).set r.1 ((((group rows).get? r.1).getD empty).set r.2.1 r.2.2) := by
  simp [group]

theorem mem_group_keys (rows : List (κ × α × ν)) {r : κ × α × ν} (hr : r ∈ rows) :
    r.1 ∈ (group rows).keys := by
  induction rows using List.reverseRecOn with
  | nil => cases hr
  | append_singleton rows r' ih =>
    rw [group_append]
    by_cases h : r.1 = r'.1
    · exact mem_keys.mpr ⟨_, mem_set.mpr (.inl (by rw [h]))⟩
    · obtain hr | hr := List.mem_append.mp hr
      · obtain ⟨v, hv⟩ := mem_keys.mp (ih hr)
        exact mem_keys.mpr ⟨v, mem_set.mpr (.inr ⟨hv, h⟩)⟩
      · exact absurd (congrArg Prod.fst (List.mem_singleton.mp hr)) h

def lookup (d : Dict κ (Dict α ν)) (k : κ) (a : α) : Option ν := (d.get? k).bind (fun e => e.get? a)

theorem lookup_set (d : Dict κ (Dict α ν)) (r : κ × α × ν) (k : κ) (a : α) :
    (d.set r.1 (((d.get? r.1).getD empty).set r.2.1 r.2.2)).lookup k a =
      if k = r.1 ∧ a = r.2.1 then some r.2.2 else d.lookup k a := by
  rw [lookup, get?_set]
  by_cases hk : k = r.1
  · subst hk
    rw [if_pos rfl, Option.bind_some, get?_set]
    by_cases ha : a = r.2.1
    · simp [ha]
    · cases hg : d.get? r.1 with
      | none => simp [lookup, hg, ha]
      | some e => simp [lookup, hg, ha]
  · simp [lookup, hk]

theorem lookup_group (rows : List (κ × α × ν)) (hn : (rows.map (fun r => (r.1, r.2.1))).Nodup)
    {a : α} : (group rows).lookup k a = some v ↔ (k, a, v) ∈ rows := by
  induction rows using List.reverseRecOn with
  | nil => simp [group, lookup]
  | append_singleton rows r ih =>
    rw [List.map_append, List.nodup_append] at hn
    obtain ⟨hn, -, hnew⟩ := hn
    obtain ⟨k', a', v'⟩ := r
    rw [group_append, lookup_set, List.mem_append, List.mem_singleton]
    by_cases h : k = k' ∧ a = a'
    · obtain ⟨rfl, rfl⟩ := h
      have hfresh : (k, a, v) ∉ rows := fun hv =>
        hnew _ (List.mem_map_of_mem hv) _ (List.mem_singleton_self _) rfl
      simp [hfresh, eq_comm]
    · rw [if_neg h, ih hn]
      have hne : (k, a, v) ≠ (k', a', v') := fun heq => by
        cases heq
        exact h ⟨rfl, rfl⟩
      simp [hne]

theorem group_rows (rows : List (κ × α × ν)) {accts : Dict α ν}
    (h : (k, accts) ∈ (group rows).items) {a : α} (ha : a ∈ accts.keys) :
    ∃ v, (k, a, v) ∈ rows := by
  induction rows using List.reverseRecOn generalizing accts with
  | nil => cases h
  | append_singleton rows r ih =>
    rw [group_append] at h
    obtain heq | ⟨h, -⟩ := mem_set.mp h
    · cases heq
      obtain ⟨v, hv⟩ := mem_keys.mp ha
      obtain heq | ⟨hv, -⟩ := mem_set.mp hv
      · cases heq
        exact ⟨r.2.2, by simp⟩
      · cases hg : (group rows).get? r.1 with
        | none =>
          rw [hg] at hv
          cases hv
        | some inner =>
          rw [hg] at hv
          obtain ⟨v', hv'⟩ := ih (get?_some hg) (mem_keys.mpr ⟨v, hv⟩)
          exact ⟨v', List.mem_append_left _ hv'⟩
    · obtain ⟨v, hv⟩ := ih h ha
      exact ⟨v, List.mem_append_left _ hv⟩

theorem group_sum [AddCommMonoid ν] (rows : List (κ × α × ν))
    (hn : (rows.map (fun r => (r.1, r.2.1))).Nodup) {accts : Dict α ν}
    (h : (k, accts) ∈ (group rows).items) :
    accts.values.sum = ((rows.filter (fun r => decide (r.1 = k))).map (fun r => r.2.2)).sum := by
  induction rows using List.reverseRecOn generalizing accts with
  | nil => cases h
  | append_singleton rows r ih =>
    rw [List.map_append, List.nodup_append] at hn
    obtain ⟨hn, -, hnew⟩ := hn
    have hfresh : ∀ v, (r.1, r.2.1, v) ∉ rows := fun v hv =>
      hnew _ (List.mem_map_of_mem hv) _ (List.mem_singleton_self _) rfl
    rw [group_append] at h
    obtain heq | ⟨h, hk⟩ := mem_set.mp h
    · cases heq
      have hself : [r].filter (fun r' => decide (r'.1 = r.1)) = [r] := by simp
      rw [List.filter_append, hself, List.map_append, List.sum_append]
      cases hg : (group rows).get? r.1 with
      | none =>
        have hnone : rows.filter (fun r' => decide (r'.1 = r.1)) = [] := by
          refine List.filter_eq_nil_iff.mpr (fun r' hr' heq => get?_none hg ?_)
          exact of_decide_eq_true heq ▸ mem_group_keys rows hr'
        rw [Option.getD_none, sum_set_new (by simp [keys]), hnone]
        simp [values]
      | some inner =>
        have hin := get?_some hg
        rw [Option.getD_some, sum_set_new, ih hn hin]
        · simp
        · intro ha
          obtain ⟨v, hv⟩ := group_rows rows hin ha
          exact hfresh v hv
    · have hother : [r].filter (fun r' => decide (r'.1 = k)) = [] := by
        simpa using fun heq => hk heq.symm
      rw [List.filter_append, hother, List.append_nil, ih hn h]

end Dict

end SixGateway.Library
