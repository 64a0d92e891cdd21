import Mathlib.Data.List.Nodup

namespace SixGateway.Library.Cursor

variable {ρ κ : Type} [DecidableEq κ] (key : ρ → κ)

/-- The rows that a listing puts after the one with a given key, or all of them. -/
def following (rows : List ρ) : Option κ → List ρ
  | none => rows
  | some k => (rows.dropWhile (fun r => decide (key r ≠ k))).tail

variable {key} {rows : List ρ} {p : ρ → Bool}

theorem following_append_cons {before after : List ρ} {r : ρ} (h : key r ∉ before.map key) :
    following key (before ++ r :: after) (some (key r)) = after := by
  have hskip : ∀ s ∈ before, decide (key s ≠ key r) = true := fun s hs =>
    decide_eq_true (fun heq => h (heq ▸ List.mem_map_of_mem hs))
  rw [following, List.dropWhile_append_of_pos hskip, List.dropWhile_cons_of_neg (by simp)]
  rfl

theorem filter_following (hn : (rows.map key).Nodup) {before after : List ρ} {r : ρ}
    (h : rows.filter p = before ++ r :: after) :
    (following key rows (some (key r))).filter p = after := by
  obtain ⟨left, right, rfl, -, hright⟩ := List.filter_eq_append_iff.mp h
  obtain ⟨skipped, rest, rfl, hskipped, -, hrest⟩ := List.filter_eq_cons_iff.mp hright
  have hr : key r ∉ (left ++ skipped).map key := by
    rw [← List.append_assoc, List.map_append, List.nodup_append] at hn
    intro hin
    exact hn.2.2 _ hin _ (by simp) rfl
  rw [← List.append_assoc, following_append_cons hr, hrest]

theorem getLast?_take {n : Nat} (hn : 0 < n) {rest : List ρ} (hmore : n < rest.length) :
    ∃ before r, rest.take n = before ++ [r] ∧ rest = before ++ r :: rest.drop n := by
  have hne : rest.take n ≠ [] := by
    rw [ne_eq, List.take_eq_nil_iff]
    rintro (rfl | rfl)
    · exact absurd hn (Nat.lt_irrefl 0)
    · exact absurd hmore (Nat.not_lt_zero n)
  refine ⟨(rest.take n).dropLast, (rest.take n).getLast hne, ?_, ?_⟩
  · exact (List.dropLast_append_getLast hne).symm
  · calc rest = rest.take n ++ rest.drop n := (List.take_append_drop n rest).symm
      _ = ((rest.take n).dropLast ++ [(rest.take n).getLast hne]) ++ rest.drop n := by
        rw [List.dropLast_append_getLast hne]
      _ = _ := by rw [List.append_assoc]; rfl

end SixGateway.Library.Cursor
