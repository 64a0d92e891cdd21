import Mathlib.Data.List.Basic
import Mathlib.Data.List.Pairwise

namespace SixGateway.Library

/-- A row type with the values it holds in its unique columns. A null in a unique column
contributes no value, so it conflicts with nothing. -/
class Keyed (ρ : Type) (κ : outParam Type) where
  keys : ρ → List κ

variable {ρ κ : Type} [DecidableEq κ] [Keyed ρ κ]

def clash (r s : ρ) : Bool := (Keyed.keys r).any (fun k => decide (k ∈ Keyed.keys s))

/-- The rows of a table: no two of them share a unique value. -/
structure Table (ρ : Type) {κ : Type} [DecidableEq κ] [Keyed ρ κ] where
  rows : List ρ
  unique : rows.Pairwise (fun r s => clash r s = false)

namespace Table

instance : Membership ρ (Table ρ) := ⟨fun t r => r ∈ t.rows⟩

instance (t : Table ρ) (P : ρ → Prop) [DecidablePred P] : Decidable (∃ r ∈ t, P r) :=
  inferInstanceAs (Decidable (∃ r ∈ t.rows, P r))

instance (t : Table ρ) (P : ρ → Prop) [DecidablePred P] : Decidable (∀ r ∈ t, P r) :=
  inferInstanceAs (Decidable (∀ r ∈ t.rows, P r))

def empty : Table ρ := ⟨[], List.Pairwise.nil⟩

/-- Insertion is refused when the new row shares a unique value with a row of the table. -/
def insert (t : Table ρ) (r : ρ) : Option (Table ρ) :=
  if h : ∀ s ∈ t.rows, clash s r = false then
    some ⟨t.rows ++ [r], by
      rw [List.pairwise_append]
      exact ⟨t.unique, List.pairwise_singleton _ _, by simpa using h⟩⟩
  else none

/-- Apply `f` to the rows satisfying `p`. Unique columns are not written. -/
def modify (t : Table ρ) (p : ρ → Bool) (f : ρ → ρ)
    (hf : ∀ r, Keyed.keys (f r) = Keyed.keys r) : Table ρ where
  rows := t.rows.map (fun r => if p r then f r else r)
  unique := by
    have hk : ∀ r, Keyed.keys (if p r then f r else r) = Keyed.keys r := by
      intro r
      split
      · exact hf r
      · rfl
    rw [List.pairwise_map]
    exact t.unique.imp (fun {r s} h => by simpa only [clash, hk] using h)

def find? (t : Table ρ) (p : ρ → Bool) : Option ρ := t.rows.find? p

def select (t : Table ρ) (p : ρ → Bool) : List ρ := t.rows.filter p

variable {t u : Table ρ} {r s : ρ} {p : ρ → Bool} {f : ρ → ρ}

theorem mem_def : r ∈ t ↔ r ∈ t.rows := Iff.rfl

@[simp] theorem not_mem_empty : ¬ r ∈ (empty : Table ρ) := List.not_mem_nil

@[simp] theorem rows_empty : (empty : Table ρ).rows = [] := rfl

theorem clash_iff : clash r s = true ↔ ∃ k ∈ Keyed.keys r, k ∈ Keyed.keys s := by
  simp [clash]

theorem clash_comm (r s : ρ) : clash r s = clash s r := by
  rw [Bool.eq_iff_iff, clash_iff, clash_iff]
  exact ⟨fun ⟨k, h, h'⟩ => ⟨k, h', h⟩, fun ⟨k, h, h'⟩ => ⟨k, h', h⟩⟩

theorem eq_of_key (hr : r ∈ t) (hs : s ∈ t) {k : κ} (hkr : k ∈ Keyed.keys r)
    (hks : k ∈ Keyed.keys s) : r = s := by
  by_contra hne
  have : Std.Symm (fun r s : ρ => clash r s = false) := ⟨fun r s h => (clash_comm s r).trans h⟩
  have hc := t.unique.forall hr hs hne
  rw [clash_iff.mpr ⟨k, hkr, hks⟩] at hc
  cases hc

theorem insert_eq_some (h : t.insert r = some u) :
    u.rows = t.rows ++ [r] ∧ ∀ s ∈ t, clash s r = false := by
  unfold insert at h
  split at h
  · next hc =>
    cases h
    exact ⟨rfl, hc⟩
  · cases h

theorem insert_isSome (h : ∀ s ∈ t, clash s r = false) : ∃ u, t.insert r = some u := by
  unfold insert
  exact ⟨_, dif_pos h⟩

theorem mem_insert (h : t.insert r = some u) : s ∈ u ↔ s ∈ t ∨ s = r := by
  simp [mem_def, (insert_eq_some h).1]

theorem mem_modify (hf : ∀ r, Keyed.keys (f r) = Keyed.keys r) :
    s ∈ t.modify p f hf ↔ ∃ r ∈ t, (if p r then f r else r) = s := by
  simp [mem_def, modify]

theorem modify_congr {q : ρ → Bool} {g : ρ → ρ} (hf : ∀ r, Keyed.keys (f r) = Keyed.keys r)
    (hg : ∀ r, Keyed.keys (g r) = Keyed.keys r)
    (h : ∀ r ∈ t, (if p r then f r else r) = if q r then g r else r) :
    t.modify p f hf = t.modify q g hg := by
  simp only [modify, mk.injEq]
  exact List.map_congr_left h

theorem select_modify {q : ρ → Bool} (hf : ∀ r, Keyed.keys (f r) = Keyed.keys r)
    (hq : ∀ r ∈ t, p r = true → q r = false ∧ q (f r) = false) :
    (t.modify p f hf).select q = t.select q := by
  simp only [select, modify, List.filter_map]
  have hg : ∀ r ∈ t.rows, q (if p r then f r else r) = q r := by
    intro r hr
    cases hp : p r with
    | false => simp
    | true => simp [hq r hr hp]
  have hsel : t.rows.filter (q ∘ fun r => if p r then f r else r) = t.rows.filter q :=
    List.filter_congr hg
  rw [hsel, List.map_congr_left (g := id) (fun r hr => ?_), List.map_id]
  obtain ⟨hr, hqr⟩ := List.mem_filter.mp hr
  cases hp : p r with
  | false => simp
  | true =>
    rw [(hq r hr hp).1] at hqr
    cases hqr

theorem find?_some (h : t.find? p = some r) : r ∈ t ∧ p r = true :=
  ⟨List.mem_of_find?_eq_some h, List.find?_some h⟩

theorem find?_none (h : t.find? p = none) (hr : r ∈ t) : p r = false := by
  simpa using List.find?_eq_none.mp h r hr

theorem find?_modify {q : ρ → Bool} (hf : ∀ r, Keyed.keys (f r) = Keyed.keys r)
    (hq : ∀ r, q (f r) = q r) :
    (t.modify p f hf).find? q = (t.find? q).map (fun r => if p r then f r else r) := by
  have hg : (q ∘ fun r => if p r then f r else r) = q := by
    funext r
    simp only [Function.comp_apply]
    split
    · exact hq r
    · rfl
  simp only [find?, modify, List.find?_map, hg]

theorem find?_eq (hr : r ∈ t) {k : κ} (hk : k ∈ Keyed.keys r)
    (hp : ∀ s, p s = true ↔ k ∈ Keyed.keys s) : t.find? p = some r := by
  cases h : t.find? p with
  | none =>
    have hn := find?_none h hr
    rw [(hp r).mpr hk] at hn
    cases hn
  | some s =>
    obtain ⟨hs, hps⟩ := find?_some h
    rw [eq_of_key hs hr ((hp s).mp hps) hk]

end Table

end SixGateway.Library
