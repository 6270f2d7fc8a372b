import Mathlib.Data.Rat.Floor
import Mathlib.Tactic.FieldSimp
import Mathlib.Tactic.Positivity
import Godwit.Lib.Rounding
import Godwit.Providers.Usage

set_option autoImplicit false

/-! # Two decimal libraries

One never rounds: an operation whose exact result is no decimal panics. The other does: a result keeps as many of
its places as fit, the rest is rounded to the nearest, ties to even, and what does not fit without places panics. -/

namespace Godwit

/-! ## Checked decimals -/

/-- The value, if it is a decimal. -/
def Decimal.checked (q : ℚ) : Option Decimal := if h : IsDecimal q then some ⟨q, h⟩ else none

theorem Decimal.checked_of_isDecimal {q : ℚ} (h : IsDecimal q) : Decimal.checked q = some ⟨q, h⟩ := by
  simp [Decimal.checked, h]

theorem Decimal.checked_val {q : ℚ} {d : Decimal} (h : Decimal.checked q = some d) : d.1 = q := by
  unfold Decimal.checked at h
  split_ifs at h
  cases h
  rfl

/-- The number of the digits. -/
def digitsValue (digits : List Char) : ℚ :=
  digits.foldl (fun acc c => acc * 10 + ((c.toNat - '0'.toNat : Nat) : ℚ)) 0

/-- Digits, with a sign before them and a point in them if need be. -/
def parseDecimal (s : String) : Option ℚ :=
  let (sign, chars) : ℚ × List Char := match s.toList with
    | '-' :: rest => (-1, rest)
    | '+' :: rest => (1, rest)
    | chars => (1, chars)
  let (whole, fraction) := chars.span (· ≠ '.')
  let fraction := fraction.drop 1
  if (whole ++ fraction).isEmpty || !(whole ++ fraction).all Char.isDigit then none
  else some (sign * (digitsValue whole + digitsValue fraction / 10 ^ fraction.length))

/-- An arithmetic that refuses whatever is not exact. -/
def checkedDecimal : DecimalArith where
  add a b := Decimal.checked (a.1 + b.1)
  mul a b := Decimal.checked (a.1 * b.1)
  div a b := Decimal.checked (a.1 / b.1)
  fromStrExact s := (parseDecimal s).bind Decimal.checked
  fromF64Retain := Decimal.checked
  add_exact _ _ h := Decimal.checked_of_isDecimal h
  mul_exact _ _ h := Decimal.checked_of_isDecimal h
  div_exact _ _ h _ := Decimal.checked_of_isDecimal h

example : parseDecimal "-12.50" = some (-25 / 2) := by decide +kernel

/-! ## Rounded decimals -/

/-- The coefficient with `s` places. -/
def coefficientAt (q : ℚ) (s : ℕ) : ℤ := roundHalfEven (q * 10 ^ s)

/-- The decimal with a coefficient and a scale, if the coefficient fits. -/
def Decimal.ofCoefficient (n : ℤ) (s : ℕ) (hs : s ≤ 28) : Option Decimal :=
  if h : n.natAbs < 2 ^ 96 then some ⟨n / 10 ^ s, isDecimal_of_scaled hs (by field_simp) h⟩ else none

/-- The value with the most places, up to `s`, that fit. -/
def Decimal.roundTo (q : ℚ) : (s : ℕ) → s ≤ 28 → Option Decimal
  | 0, hs => Decimal.ofCoefficient (coefficientAt q 0) 0 hs
  | s + 1, hs => Decimal.ofCoefficient (coefficientAt q (s + 1)) (s + 1) hs <|> Decimal.roundTo q s (by omega)

/-- The value with as many places as fit. -/
def Decimal.rounded (q : ℚ) : Option Decimal := Decimal.roundTo q 28 le_rfl

section Coefficients

variable {n : ℤ} {s : ℕ} {hs : s ≤ 28} {d : Decimal}

theorem Decimal.ofCoefficient_eq_some :
    Decimal.ofCoefficient n s hs = some d ↔ n.natAbs < 2 ^ 96 ∧ d.1 = n / 10 ^ s := by
  unfold Decimal.ofCoefficient
  split_ifs with h
  · rw [Option.some_inj, Subtype.ext_iff, eq_comm]
    exact ⟨fun hd => ⟨h, hd⟩, And.right⟩
  · exact ⟨fun hnone => (by cases hnone), fun hfits => absurd hfits.1 h⟩

theorem Decimal.ofCoefficient_eq_none : Decimal.ofCoefficient n s hs = none ↔ 2 ^ 96 ≤ n.natAbs := by
  unfold Decimal.ofCoefficient
  split_ifs with h
  · exact ⟨fun hsome => (by cases hsome), fun hlarge => by omega⟩
  · exact ⟨fun _ => not_lt.1 h, fun _ => rfl⟩

theorem Decimal.roundTo_succ {q : ℚ} (hsucc : s + 1 ≤ 28) : Decimal.roundTo q (s + 1) hsucc = some d ↔
    Decimal.ofCoefficient (coefficientAt q (s + 1)) (s + 1) hsucc = some d
      ∨ 2 ^ 96 ≤ (coefficientAt q (s + 1)).natAbs ∧ Decimal.roundTo q s (Nat.le_of_succ_le hsucc) = some d := by
  rw [Decimal.roundTo, ← @Decimal.ofCoefficient_eq_none _ _ hsucc]
  cases Decimal.ofCoefficient (coefficientAt q (s + 1)) (s + 1) hsucc <;> simp

end Coefficients

/-! ## A decimal is kept -/

theorem coefficientAt_exact {q : ℚ} {s t : ℕ} {n : ℤ} (h : q * 10 ^ s = n) (hst : s ≤ t) :
    (coefficientAt q t : ℚ) = q * 10 ^ t := by
  have hscaled : q * 10 ^ t = ((n * 10 ^ (t - s) : ℤ) : ℚ) := by
    push_cast
    rw [← h, mul_assoc, ← pow_add, Nat.add_sub_cancel' hst]
  rw [coefficientAt, hscaled, roundHalfEven_intCast]

theorem Decimal.roundTo_exact {q : ℚ} {s : ℕ} {n : ℤ} (h : q * 10 ^ s = n) (hn : n.natAbs < 2 ^ 96) (hq : IsDecimal q)
    (t : ℕ) (ht : t ≤ 28) (hst : s ≤ t) : Decimal.roundTo q t ht = some ⟨q, hq⟩ := by
  have hvalue : ∀ t, s ≤ t → q = coefficientAt q t / 10 ^ t := by
    intro t hst
    rw [coefficientAt_exact h hst]
    field_simp
  have hfits : (coefficientAt q s).natAbs < 2 ^ 96 := by
    have hn' : coefficientAt q s = n := by exact_mod_cast (coefficientAt_exact h le_rfl).trans h
    rwa [hn']
  induction t with
  | zero =>
      obtain rfl : s = 0 := by omega
      exact Decimal.ofCoefficient_eq_some.2 ⟨hfits, hvalue 0 hst⟩
  | succ t ih =>
      rw [Decimal.roundTo_succ]
      by_cases hlarge : 2 ^ 96 ≤ (coefficientAt q (t + 1)).natAbs
      · -- the value fits with fewer places
        have hlt : s ≠ t + 1 := by
          rintro rfl
          omega
        exact .inr ⟨hlarge, ih _ (by omega)⟩
      · exact .inl (Decimal.ofCoefficient_eq_some.2 ⟨not_le.1 hlarge, hvalue _ hst⟩)

theorem Decimal.rounded_of_isDecimal {q : ℚ} (h : IsDecimal q) : Decimal.rounded q = some ⟨q, h⟩ := by
  obtain ⟨s, hs, hden, hnum⟩ := id h
  have hscaled : q * 10 ^ s = (q * 10 ^ s).num := (Rat.coe_int_num_of_den_eq_one hden).symm
  exact Decimal.roundTo_exact hscaled hnum h 28 le_rfl hs

/-! ## The order is kept -/

section Order

variable {x y : ℚ} {d : Decimal}

theorem coefficientAt_mono (h : x ≤ y) (s : ℕ) : coefficientAt x s ≤ coefficientAt y s :=
  roundHalfEven_mono (mul_le_mul_of_nonneg_right h (by positivity))

theorem coefficientAt_nonneg (h : 0 ≤ x) (s : ℕ) : 0 ≤ coefficientAt x s := by
  have hmono := coefficientAt_mono h s
  have hzero : coefficientAt 0 s = 0 := by
    rw [coefficientAt, zero_mul]
    exact roundHalfEven_intCast 0
  rwa [hzero] at hmono

/-- The largest coefficient ends in five, so what does not fit with one more place is rounded past all that does. -/
theorem coefficientAt_of_large {s : ℕ} (hlarge : 2 ^ 96 ≤ coefficientAt y (s + 1)) :
    (2 ^ 96 - 1 : ℚ) / 10 ^ (s + 1) ≤ coefficientAt y s / 10 ^ s := by
  have hlt : 2 ^ 96 - 1 < roundHalfEven (y * 10 ^ (s + 1)) := by
    rw [coefficientAt] at hlarge
    omega
  have hscaled : 2 * ((2 ^ 96 - 1 : ℤ) : ℚ) + 1 ≤ 2 * (y * 10 ^ (s + 1)) := le_of_lt_roundHalfEven hlt
  have htenth : y * 10 ^ (s + 1) = 10 * (y * 10 ^ s) := by ring
  have hup : (2 ^ 96 - 6) / 10 < coefficientAt y s := by
    refine lt_roundHalfEven ?_
    rw [htenth] at hscaled
    norm_num at hscaled ⊢
    linarith
  have hup' : (2 ^ 96 - 1 : ℚ) ≤ coefficientAt y s * 10 := by
    have hint : (2 ^ 96 - 1 : ℤ) ≤ coefficientAt y s * 10 := by omega
    exact_mod_cast hint
  rw [div_le_div_iff₀ (by positivity) (by positivity)]
  calc (2 ^ 96 - 1 : ℚ) * 10 ^ s ≤ coefficientAt y s * 10 * 10 ^ s :=
        mul_le_mul_of_nonneg_right hup' (by positivity)
    _ = coefficientAt y s * 10 ^ (s + 1) := by ring

theorem Decimal.le_roundTo (hy : 0 ≤ y) (s : ℕ) (hs : s ≤ 28) (hlarge : 2 ^ 96 ≤ coefficientAt y (s + 1))
    (h : Decimal.roundTo y s hs = some d) : (2 ^ 96 - 1 : ℚ) / 10 ^ (s + 1) ≤ d.1 := by
  induction s with
  | zero =>
      rw [(Decimal.ofCoefficient_eq_some.1 h).2]
      exact coefficientAt_of_large hlarge
  | succ s ih =>
      rcases (Decimal.roundTo_succ hs).1 h with hfits | ⟨hlarge', hrest⟩
      · rw [(Decimal.ofCoefficient_eq_some.1 hfits).2]
        exact coefficientAt_of_large hlarge
      · have hnonneg := coefficientAt_nonneg hy (s + 1)
        calc (2 ^ 96 - 1 : ℚ) / 10 ^ (s + 1 + 1) ≤ (2 ^ 96 - 1) / 10 ^ (s + 1) := by
              gcongr
              · norm_num
              · norm_num
          _ ≤ d.1 := ih _ (by omega) hrest

theorem Decimal.roundTo_mono (hx : 0 ≤ x) (hxy : x ≤ y) (s : ℕ) (hs : s ≤ 28)
    (h : Decimal.roundTo y s hs = some d) : ∃ c, Decimal.roundTo x s hs = some c ∧ c.1 ≤ d.1 := by
  -- where the larger one fits, so does the smaller
  have hboth : ∀ s hs, Decimal.ofCoefficient (coefficientAt y s) s hs = some d →
      ∃ c, Decimal.ofCoefficient (coefficientAt x s) s hs = some c ∧ c.1 ≤ d.1 := by
    intro s hs hy
    obtain ⟨hfits, hd⟩ := Decimal.ofCoefficient_eq_some.1 hy
    have hcoefficient := coefficientAt_mono hxy s
    have hnonneg := coefficientAt_nonneg hx s
    have hfits' : (coefficientAt x s).natAbs < 2 ^ 96 := by omega
    refine ⟨_, dif_pos hfits', ?_⟩
    rw [hd]
    exact div_le_div_of_nonneg_right (by exact_mod_cast hcoefficient) (by positivity)
  induction s with
  | zero => exact hboth 0 hs h
  | succ s ih =>
      rcases (Decimal.roundTo_succ hs).1 h with hy | ⟨hlarge, hrest⟩
      · obtain ⟨c, hc, hle⟩ := hboth (s + 1) hs hy
        exact ⟨c, (Decimal.roundTo_succ hs).2 (.inl hc), hle⟩
      · cases hx' : Decimal.ofCoefficient (coefficientAt x (s + 1)) (s + 1) hs with
        | none =>
            obtain ⟨c, hc, hle⟩ := ih _ hrest
            exact ⟨c, (Decimal.roundTo_succ hs).2 (.inr ⟨Decimal.ofCoefficient_eq_none.1 hx', hc⟩), hle⟩
        | some c =>
            refine ⟨c, (Decimal.roundTo_succ hs).2 (.inl hx'), ?_⟩
            obtain ⟨hfits, hc⟩ := Decimal.ofCoefficient_eq_some.1 hx'
            have hy := coefficientAt_nonneg (hx.trans hxy) (s + 1)
            have hcoefficient : (coefficientAt x (s + 1) : ℚ) ≤ 2 ^ 96 - 1 := by
              have hint : coefficientAt x (s + 1) ≤ 2 ^ 96 - 1 := by omega
              exact_mod_cast hint
            calc c.1 = coefficientAt x (s + 1) / 10 ^ (s + 1) := hc
              _ ≤ (2 ^ 96 - 1) / 10 ^ (s + 1) := div_le_div_of_nonneg_right hcoefficient (by positivity)
              _ ≤ d.1 := Decimal.le_roundTo (hx.trans hxy) s _ (by omega) hrest

theorem Decimal.rounded_mono (hx : 0 ≤ x) (hxy : x ≤ y) (h : Decimal.rounded y = some d) :
    ∃ c, Decimal.rounded x = some c ∧ c.1 ≤ d.1 :=
  Decimal.roundTo_mono hx hxy 28 le_rfl h

end Order

/-- An arithmetic that rounds. -/
def roundedDecimal : DecimalArith where
  add a b := Decimal.rounded (a.1 + b.1)
  mul a b := Decimal.rounded (a.1 * b.1)
  div a b := if b.1 = 0 then none else Decimal.rounded (a.1 / b.1)
  fromStrExact s := (parseDecimal s).bind Decimal.checked
  fromF64Retain := Decimal.rounded
  add_exact _ _ h := Decimal.rounded_of_isDecimal h
  mul_exact _ _ h := Decimal.rounded_of_isDecimal h
  div_exact _ _ h hb := by rw [if_neg hb, Decimal.rounded_of_isDecimal h]

end Godwit
