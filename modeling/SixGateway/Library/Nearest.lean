import Mathlib.Tactic.Linarith

namespace SixGateway.Library

/-- `r` is an integer nearest to `num / den`. -/
def Nearest (num den r : Nat) : Prop := 2 * num ≤ den * (2 * r + 1) ∧ den * (2 * r) ≤ 2 * num + den

variable {num den n m r a b : Nat}

theorem Nearest.eq (h : Nearest num den r) (hlow : den * (2 * n) < 2 * num + den)
    (hhigh : 2 * num < den * (2 * n + 1)) : r = n := by
  obtain ⟨hup, hdown⟩ := h
  have hrn : den * (2 * r) < den * (2 * n + 2) := by linarith
  have hnr : den * (2 * n) < den * (2 * r + 2) := by linarith
  have hle := Nat.lt_of_mul_lt_mul_left hrn
  have hge := Nat.lt_of_mul_lt_mul_left hnr
  omega

/-- Rounding to multiples of `a / b` and then back to integers is exact where the multiples lie
closer together than the integers. -/
theorem Nearest.back (h : Nearest (n * b) a m) (hr : Nearest (m * a) b r) (hab : a < b) : r = n := by
  obtain ⟨hup, hdown⟩ := h
  apply hr.eq
  · linarith
  · linarith

theorem nearest_floor (h : 2 * (num % den) ≤ den) : Nearest num den (num / den) := by
  have hdiv := Nat.div_add_mod num den
  have hle := Nat.mul_div_le num den
  constructor <;> linarith

theorem nearest_ceil (hden : 0 < den) (h : den ≤ 2 * (num % den)) :
    Nearest num den (num / den + 1) := by
  have hdiv := Nat.div_add_mod num den
  have hmod := Nat.mod_lt num hden
  constructor <;> linarith

end SixGateway.Library
