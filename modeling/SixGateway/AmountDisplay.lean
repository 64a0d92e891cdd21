import SixGateway.Substitution
import SixGateway.Library.Nearest

namespace SixGateway.AmountDisplay

open Library Models Rendering

theorem roundHalfEven_nearest (num : Nat) {den : Nat} (h : 0 < den) :
    Nearest num den (roundHalfEven num den) := by
  unfold roundHalfEven
  split
  · next hdown =>
    apply nearest_floor
    omega
  · next hup =>
    apply nearest_ceil h
    omega

/-- Below this, hundredths lie further apart than the floats next to them. -/
def exactBound : Nat := 100 * 2 ^ 46

theorem hundredths_hundredth {n : Nat} (h : n < exactBound) :
    (hundredth n).map Magnitude.hundredths = some n := by
  by_cases hn : n = 0
  · subst hn
    rfl
  · have hhuge : ¬ 100 * (2 ^ 1024 - 2 ^ 970) ≤ n := by
      simp only [exactBound] at h
      omega
    have hlog : (128 * n / 100).log2 < 53 := by
      apply (Nat.log2_lt (by omega)).mpr
      simp only [exactBound] at h
      omega
    simp only [hundredth, if_neg hn, if_neg hhuge]
    generalize (128 * n / 100).log2 = k at hlog
    have hneg : ¬ (0 : Int) ≤ (k : Int) - 59 := by omega
    have hexp : (-((k : Int) - 59)).toNat = 59 - k := by omega
    simp only [if_neg hneg, Option.map_some, Magnitude.hundredths, hexp]
    have hpow : 100 < 2 ^ (59 - k) := by
      have h7 : 2 ^ 7 ≤ 2 ^ (59 - k) := Nat.pow_le_pow_right (by omega) (by omega)
      omega
    exact congrArg some ((roundHalfEven_nearest _ (by omega)).back
      (roundHalfEven_nearest _ (by omega)) hpow)

/-- The number that the digits of a text spell, whatever stands between them. -/
def digitsOf (s : List Char) : Nat := Nat.ofDigitChars 10 (s.filter Char.isDigit) 0

theorem isDigit_digitChar {k : Nat} (h : k < 10) : (Nat.digitChar k).isDigit = true := by
  apply Nat.isDigit_of_mem_toDigits (by omega : 0 < 10) (by omega) (n := k)
  rw [Nat.toDigits_of_lt_base h]
  exact List.mem_singleton_self _

theorem digitsOf_pair {a b : Nat} (ha : a < 10) (hb : b < 10) :
    digitsOf [Nat.digitChar a, Nat.digitChar b] = 10 * a + b := by
  rw [digitsOf, List.filter_cons_of_pos (isDigit_digitChar ha),
    List.filter_cons_of_pos (isDigit_digitChar hb), List.filter_nil,
    Nat.ofDigitChars_cons_digitChar_of_lt_ten ha, Nat.ofDigitChars_cons_digitChar_of_lt_ten hb,
    Nat.ofDigitChars_nil]
  omega

/-- The digits of a whole number as they are shown: up to three of them, and three more after each
comma. -/
def Grouped (digits shown : List Char) : Prop :=
  ∃ (first : List Char) (groups : List (List Char)),
    shown = first ++ groups.flatMap (fun g => ',' :: g) ∧ 1 ≤ first.length ∧ first.length ≤ 3 ∧
      (∀ g ∈ groups, g.length = 3) ∧ first ++ groups.flatten = digits

theorem grouped_reverse {ds : List Char} (h : ds ≠ []) :
    Grouped ds.reverse (Rendering.grouped ds).reverse := by
  fun_induction Rendering.grouped ds with
  | case1 a b c d ds ih =>
    obtain ⟨first, groups, hshown, hpos, hle, hgroups, hdigits⟩ := ih (List.cons_ne_nil _ _)
    refine ⟨first, groups ++ [[c, b, a]], ?_, hpos, hle, ?_, ?_⟩
    · simp [hshown]
    · simpa [or_imp, forall_and] using hgroups
    · rw [List.flatten_append, ← List.append_assoc, hdigits]
      simp
  | case2 ds hshort =>
    have hle : ds.length ≤ 3 := by
      match ds, hshort with
      | [], _ | [_], _ | [_, _], _ | [_, _, _], _ => simp
      | a :: b :: c :: d :: ds, hshort => exact (hshort a b c d ds rfl).elim
    exact ⟨ds.reverse, [], by simp, by simpa [Nat.one_le_iff_ne_zero] using h, by simpa using hle,
      by simp, by simp⟩

theorem grouped_thousands (n : Nat) : Grouped (Nat.toDigits 10 n) (thousands n) := by
  have hne : (Nat.toDigits 10 n).reverse ≠ [] := by simp
  simpa [thousands] using grouped_reverse hne

theorem filter_groups {gs : List (List Char)} (h : ∀ c ∈ gs.flatten, c.isDigit = true) :
    (gs.flatMap (fun g => ',' :: g)).filter Char.isDigit = gs.flatten := by
  induction gs with
  | nil => rfl
  | cons g gs ih =>
    have hcomma : ¬ Char.isDigit ',' = true := by decide
    have hg : ∀ c ∈ g, c.isDigit = true := fun c hc => h c (List.mem_append_left _ hc)
    have hgs : ∀ c ∈ gs.flatten, c.isDigit = true := fun c hc => h c (List.mem_append_right _ hc)
    rw [List.flatMap_cons, List.filter_append, List.filter_cons_of_neg hcomma,
      List.filter_eq_self.mpr hg, ih hgs, List.flatten_cons]

section

variable {n : Nat} {shown : List Char}

theorem Grouped.spells (h : Grouped (Nat.toDigits 10 n) shown) :
    digitsOf shown = n ∧ ∃ c cs, shown = c :: cs ∧ c.isDigit = true := by
  obtain ⟨first, groups, rfl, hpos, -, -, hdigits⟩ := h
  have hall : ∀ c ∈ first ++ groups.flatten, c.isDigit = true := by
    rw [hdigits]
    exact fun c hc => Nat.isDigit_of_mem_toDigits (by omega) (by omega) hc
  have hfirst : ∀ c ∈ first, c.isDigit = true := fun c hc => hall c (List.mem_append_left _ hc)
  constructor
  · rw [digitsOf, List.filter_append, List.filter_eq_self.mpr hfirst,
      filter_groups (fun c hc => hall c (List.mem_append_right _ hc)), hdigits,
      Nat.ofDigitChars_ten_toDigits]
  · obtain ⟨c, cs, rfl⟩ := List.exists_cons_of_length_pos hpos
    exact ⟨c, _, rfl, hfirst c List.mem_cons_self⟩

end

/-- A text shows an amount of cents: its sign, the digits of its whole part in groups of three, and
the two digits of its cents. -/
def Shows (text : String) (amountCents : Int) : Prop :=
  ∃ whole tens ones, text.toList =
      (if amountCents < 0 then ['-'] else []) ++ whole ++ ['.', tens, ones] ∧
    Grouped (Nat.toDigits 10 (amountCents.natAbs / 100)) whole ∧
    tens.isDigit = true ∧ ones.isDigit = true ∧ digitsOf [tens, ones] = amountCents.natAbs % 100

theorem shows_fixed2 (amountCents : Int) :
    Shows (String.ofList ((if amountCents < 0 then ['-'] else []) ++ fixed2 amountCents.natAbs))
      amountCents := by
  let n := amountCents.natAbs
  refine ⟨thousands (n / 100), Nat.digitChar (n % 100 / 10), Nat.digitChar (n % 10), ?_,
    grouped_thousands _, isDigit_digitChar (by omega), isDigit_digitChar (by omega), ?_⟩
  · rw [String.toList_ofList, fixed2, List.append_assoc]
  · rw [digitsOf_pair (by omega) (by omega)]
    omega

theorem Shows.unique {text : String} {a b : Int} (ha : Shows text a) (hb : Shows text b) :
    a = b := by
  obtain ⟨w, t, o, htext, hw, -, -, hcents⟩ := ha
  obtain ⟨w', t', o', htext', hw', -, -, hcents'⟩ := hb
  obtain ⟨hhead, htail⟩ := List.append_inj' (htext.symm.trans htext') rfl
  cases htail
  obtain ⟨hwhole, c, cs, rfl, hc⟩ := hw.spells
  obtain ⟨hwhole', c', cs', rfl, hc'⟩ := hw'.spells
  have hsign : ¬ Char.isDigit '-' = true := by decide
  have hparts : (a < 0 ↔ b < 0) ∧ c :: cs = c' :: cs' := by
    by_cases hna : a < 0 <;> by_cases hnb : b < 0
    · simp only [if_pos hna, if_pos hnb] at hhead
      exact ⟨iff_of_true hna hnb, (List.cons.inj hhead).2⟩
    · simp only [if_pos hna, if_neg hnb] at hhead
      exact absurd ((List.cons.inj hhead).1 ▸ hc') hsign
    · simp only [if_neg hna, if_pos hnb] at hhead
      exact absurd ((List.cons.inj hhead).1 ▸ hc) hsign
    · simp only [if_neg hna, if_neg hnb] at hhead
      exact ⟨iff_of_false hna hnb, hhead⟩
  obtain ⟨hneg, hsame⟩ := hparts
  rw [hsame] at hwhole
  omega

def label [StrUpper] (currency : String) : String :=
  if upper currency = "USD" then "$" else upper currency ++ " "

/-- Although the amount of a page is divided as a float, what is shown up to the bound is that amount
to the cent, and no other. -/
theorem amount_exact [StrUpper] (amountCents : Int) (currency : String)
    (h : amountCents.natAbs < exactBound) :
    ∃ major, formatAmount amountCents currency = some (label currency ++ major) ∧
      Shows major amountCents ∧ ∀ other, Shows major other → other = amountCents := by
  obtain ⟨x, hx, hcents⟩ := Option.map_eq_some_iff.mp (hundredths_hundredth h)
  have hshows := shows_fixed2 amountCents
  refine ⟨_, ?_, hshows, fun other hother => hother.unique hshows⟩
  simp only [formatAmount, formatMajor, hx, Option.map_some, hcents, label]
  split <;> rfl

theorem amount_exact_largest :
    ∃ major, formatAmount 7036874417766399 "usd" = some (label "usd" ++ major) ∧
      Shows major 7036874417766399 ∧ ∀ other, Shows major other → other = 7036874417766399 :=
  amount_exact 7036874417766399 "usd" (by decide)

/-- One cent further the page shows a cent too much. -/
example : formatMajor 7036874417766401 = some "70,368,744,177,664.02" := by decide +kernel

end SixGateway.AmountDisplay
