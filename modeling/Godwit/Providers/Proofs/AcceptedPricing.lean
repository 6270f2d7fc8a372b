import Mathlib.Tactic.LinearCombination
import Godwit.Db.Catalog
import Godwit.Providers.DecimalLibraries
import Godwit.Providers.Proofs.Prices

set_option autoImplicit false

/-! # Which accepted prices can be charged

A new model is accepted with its two prices whatever they are. A chat is charged when the text of both is that of an
amount, and the amounts are not negative and not too large. -/

namespace Godwit

/-! ## The library -/

/-- A result is the exact one rounded, so the operations keep the order of amounts that are not negative, and they
    panic only on what is too large. -/
structure DecimalArith.KeepsOrder (D : DecimalArith) : Prop where
  add_mono : ∀ {a a' b b' c' : Decimal}, 0 ≤ a.1 → a.1 ≤ a'.1 → 0 ≤ b.1 → b.1 ≤ b'.1 → D.add a' b' = some c' →
    ∃ c, D.add a b = some c ∧ c.1 ≤ c'.1
  mul_mono : ∀ {a a' b c' : Decimal}, 0 ≤ a.1 → a.1 ≤ a'.1 → 0 ≤ b.1 → D.mul a' b = some c' →
    ∃ c, D.mul a b = some c ∧ c.1 ≤ c'.1
  div_mono : ∀ {a a' b c' : Decimal}, 0 ≤ a.1 → a.1 ≤ a'.1 → 0 < b.1 → D.div a' b = some c' →
    ∃ c, D.div a b = some c ∧ c.1 ≤ c'.1

theorem roundedDecimal_keepsOrder : roundedDecimal.KeepsOrder where
  add_mono ha ha' hb hb' h := Decimal.rounded_mono (add_nonneg ha hb) (add_le_add ha' hb') h
  mul_mono ha ha' hb h := Decimal.rounded_mono (mul_nonneg ha hb) (mul_le_mul_of_nonneg_right ha' hb) h
  div_mono {a a' b c'} ha ha' hb h := by
    have hround : roundedDecimal.div a' b = Decimal.rounded (a'.1 / b.1) := if_neg hb.ne'
    rw [hround] at h
    obtain ⟨c, hc, hle⟩ := Decimal.rounded_mono (div_nonneg ha hb.le) (div_le_div_of_nonneg_right ha' hb.le) h
    exact ⟨c, (if_neg hb.ne').trans hc, hle⟩

section Amounts

variable {D : DecimalArith} {a b c : Decimal}

theorem DecimalArith.KeepsOrder.add_nonneg (hD : D.KeepsOrder) (ha : 0 ≤ a.1) (hb : 0 ≤ b.1)
    (h : D.add a b = some c) : 0 ≤ c.1 := by
  have hsum : IsDecimal (Decimal.zero.1 + Decimal.zero.1) := by
    rw [Decimal.zero_val, add_zero, ← Decimal.zero_val]
    exact Decimal.zero.2
  obtain ⟨c₀, hc₀, hle⟩ := hD.add_mono Decimal.zero_val.ge (Decimal.zero_val.trans_le ha) Decimal.zero_val.ge
    (Decimal.zero_val.trans_le hb) h
  rw [D.add_exact _ _ hsum] at hc₀
  obtain rfl := Option.some.inj hc₀
  simpa [Decimal.zero_val] using hle

theorem DecimalArith.KeepsOrder.mul_nonneg (hD : D.KeepsOrder) (ha : 0 ≤ a.1) (hb : 0 ≤ b.1)
    (h : D.mul a b = some c) : 0 ≤ c.1 := by
  have hproduct : IsDecimal (Decimal.zero.1 * b.1) := by
    rw [Decimal.zero_val, zero_mul, ← Decimal.zero_val]
    exact Decimal.zero.2
  obtain ⟨c₀, hc₀, hle⟩ := hD.mul_mono Decimal.zero_val.ge (Decimal.zero_val.trans_le ha) hb h
  rw [D.mul_exact _ _ hproduct] at hc₀
  obtain rfl := Option.some.inj hc₀
  simpa [Decimal.zero_val] using hle

theorem Decimal.le_max (d : Decimal) : d.1 ≤ 2 ^ 96 - 1 := by
  obtain ⟨q, s, -, hden, hnum⟩ := d
  have hscaled : q * 10 ^ s = (q * 10 ^ s).num := (Rat.coe_int_num_of_den_eq_one hden).symm
  have hle : q * 10 ^ s ≤ 2 ^ 96 - 1 := by
    rw [hscaled]
    have hint : (q * 10 ^ s).num ≤ 2 ^ 96 - 1 := by omega
    exact_mod_cast hint
  rcases le_total q 0 with hq | hq
  · exact hq.trans (by norm_num)
  · exact (le_mul_of_one_le_right hq (one_le_pow₀ (by norm_num))).trans hle

theorem isDecimal_max : IsDecimal (2 ^ 96 - 1) :=
  isDecimal_of_scaled (s := 0) (n := 2 ^ 96 - 1) (by omega) (by norm_num) (by norm_num)

theorem isDecimal_max_div_million : IsDecimal ((2 ^ 96 - 1) / 1000000) :=
  isDecimal_of_scaled (s := 6) (n := 2 ^ 96 - 1) (by omega) (by norm_num) (by norm_num)

/-- An amount can be divided by a million. -/
theorem DecimalArith.KeepsOrder.div_million (hD : D.KeepsOrder) (ha : 0 ≤ a.1) :
    ∃ cost, D.div a .million = some cost ∧ 0 ≤ cost.1 := by
  have hpos : 0 < Decimal.million.1 := by rw [Decimal.million_val]; norm_num
  have hmax := D.div_million ⟨_, isDecimal_max⟩ isDecimal_max_div_million
  obtain ⟨cost, hcost, -⟩ := hD.div_mono ha a.le_max hpos hmax
  have hzero : IsDecimal (Decimal.zero.1 / 1000000) := by
    rw [Decimal.zero_val, zero_div, ← Decimal.zero_val]
    exact Decimal.zero.2
  obtain ⟨c₀, hc₀, hle⟩ := hD.div_mono Decimal.zero_val.ge (Decimal.zero_val.trans_le ha) hpos hcost
  rw [D.div_million _ hzero] at hc₀
  obtain rfl := Option.some.inj hc₀
  exact ⟨cost, hcost, by simpa [Decimal.zero_val] using hle⟩

/-- Some positive count of tokens has an exact cost, product and quotient. -/
theorem Decimal.exists_exact_count (d : Decimal) :
    ∃ n : Int32, 0 < n.toInt ∧ IsDecimal (n.toInt * d.1) ∧ IsDecimal (n.toInt * d.1 / 1000000) := by
  obtain ⟨q, s, hs, hden, hnum⟩ := d
  have hscaled : q * 10 ^ s = (q * 10 ^ s).num := (Rat.coe_int_num_of_den_eq_one hden).symm
  have hcount : ∀ k ≤ 6, (Int32.ofNat (10 ^ k)).toInt = (10 ^ k : ℕ) := fun k hk =>
    Int32.toInt_ofNat_of_lt ((Nat.pow_le_pow_right (by norm_num) hk).trans_lt (by norm_num))
  rcases le_total s 6 with hsmall | hlarge
  · refine ⟨Int32.ofNat (10 ^ s), ?_, ?_, ?_⟩ <;> rw [hcount s hsmall]
    · positivity
    · refine isDecimal_of_scaled (s := 0) (by omega) ?_ hnum
      rw [← hscaled]
      push_cast
      ring
    · refine isDecimal_of_scaled (s := 6) (by omega) ?_ hnum
      rw [← hscaled]
      push_cast
      ring
  · refine ⟨Int32.ofNat (10 ^ 6), ?_, ?_, ?_⟩ <;> rw [hcount 6 le_rfl]
    · norm_num
    · refine isDecimal_of_scaled (s := s - 6) (by omega) ?_ hnum
      have hpow : (10 : ℚ) ^ 6 * 10 ^ (s - 6) = 10 ^ s := by rw [← pow_add, Nat.add_sub_cancel' hlarge]
      rw [← hscaled]
      push_cast
      linear_combination q * hpow
    · refine isDecimal_of_scaled (s := s) hs ?_ hnum
      rw [← hscaled]
      push_cast
      ring

end Amounts

/-! ## Prices -/

/-- What a price is read from: a text as it is, anything else as it is printed. -/
def Pricing.priceText (P : Pricing) : Json → String
  | .str s => s
  | value => P.json.toString value

/-- The field has the text of an amount that is not negative. -/
def Pricing.Priced (P : Pricing) (pricing : Json) (key : String) (price : Decimal) : Prop :=
  ∃ v, pricing.get key = some v ∧ P.decimal.fromStrExact (P.priceText v) = some price ∧ 0 ≤ price.1

/-- The largest counts are charged without a panic. -/
def DecimalArith.Affords (D : DecimalArith) (inputPrice outputPrice : Decimal) : Prop :=
  ∃ input output total, D.mul (.ofInt32 Int32.maxValue) inputPrice = some input
    ∧ D.mul (.ofInt32 Int32.maxValue) outputPrice = some output ∧ D.add input output = some total

/-- Every chat with both of its counts has a cost, which is not negative. -/
def Pricing.Usable (P : Pricing) (pricing : Json) : Prop :=
  ∀ (usage : UsageReport) (prompt completion : Int32), usage.promptTokens = some prompt →
    usage.completionTokens = some completion → 0 ≤ prompt.toInt → 0 ≤ completion.toInt →
    ∃ cost, P.computeCost pricing .chat usage = some (some cost) ∧ 0 ≤ cost.1

section Charges

variable {P : Pricing} {pricing : Json} {usage : UsageReport} {inputPrice outputPrice : Decimal}

theorem Pricing.decimalField_eq_some {key : String} {price : Decimal} : P.decimalField pricing key = some price ↔
    ∃ v, pricing.get key = some v ∧ P.decimal.fromStrExact (P.priceText v) = some price := by
  unfold Pricing.decimalField Pricing.priceText
  cases hget : pricing.get key with
  | none => simp
  | some v => cases v <;> simp

theorem Pricing.priced_iff {key : String} {price : Decimal} :
    P.Priced pricing key price ↔ P.decimalField pricing key = some price ∧ 0 ≤ price.1 := by
  rw [Pricing.decimalField_eq_some]
  constructor
  · rintro ⟨v, hget, hread, hprice⟩
    exact ⟨⟨v, hget, hread⟩, hprice⟩
  · rintro ⟨⟨v, hget, hread⟩, hprice⟩
    exact ⟨v, hget, hread, hprice⟩

theorem Decimal.ofInt32_val (n : Int32) : (Decimal.ofInt32 n).1 = n.toInt := rfl

theorem Decimal.ofInt32_le_max (n : Int32) : (Decimal.ofInt32 n).1 ≤ (Decimal.ofInt32 Int32.maxValue).1 := by
  have hle : n.toInt ≤ Int32.maxValue.toInt := by
    have := n.toInt_lt
    have : Int32.maxValue.toInt = 2147483647 := by decide
    omega
  rw [Decimal.ofInt32_val, Decimal.ofInt32_val]
  exact_mod_cast hle

theorem Decimal.ofInt32_nonneg {n : Int32} (h : 0 ≤ n.toInt) : 0 ≤ (Decimal.ofInt32 n).1 := by
  rw [Decimal.ofInt32_val]
  exact_mod_cast h

theorem Pricing.usable_of_priced (hD : P.decimal.KeepsOrder)
    (hinput : P.Priced pricing "input_price_per_million" inputPrice)
    (houtput : P.Priced pricing "output_price_per_million" outputPrice)
    (hrange : P.decimal.Affords inputPrice outputPrice) : P.Usable pricing := by
  intro usage prompt completion hprompt hcompletion hp hc
  obtain ⟨hinput, hi⟩ := Pricing.priced_iff.1 hinput
  obtain ⟨houtput, ho⟩ := Pricing.priced_iff.1 houtput
  obtain ⟨inputMax, outputMax, totalMax, hinMax, houtMax, htotalMax⟩ := hrange
  have hp' := Decimal.ofInt32_nonneg hp
  have hc' := Decimal.ofInt32_nonneg hc
  -- each step stays below that of the largest counts
  obtain ⟨input, hin, hinLe⟩ := hD.mul_mono hp' (Decimal.ofInt32_le_max prompt) hi hinMax
  obtain ⟨output, hout, houtLe⟩ := hD.mul_mono hc' (Decimal.ofInt32_le_max completion) ho houtMax
  have hinNonneg := hD.mul_nonneg hp' hi hin
  have houtNonneg := hD.mul_nonneg hc' ho hout
  obtain ⟨total, htotal, -⟩ := hD.add_mono hinNonneg hinLe houtNonneg houtLe htotalMax
  obtain ⟨cost, hcost, hnonneg⟩ := hD.div_million (hD.add_nonneg hinNonneg houtNonneg htotal)
  exact ⟨cost, (Pricing.computeChatCost_eq_some hinput houtput hprompt hcompletion).2
    ⟨input, output, total, hin, hout, htotal, hcost⟩, hnonneg⟩

/-- A report of prompt and completion tokens. -/
def countsReport (prompt completion : Int32) : UsageReport :=
  { UsageReport.default with promptTokens := some prompt, completionTokens := some completion }

theorem Pricing.Usable.reads (h : P.Usable pricing) (key : String) (hkey : key ∈ priceKeys .chat) :
    ∃ price, P.decimalField pricing key = some price := by
  rw [← Option.ne_none_iff_exists']
  intro hnone
  obtain ⟨cost, hcost, -⟩ := h (countsReport 0 0) 0 0 rfl rfl le_rfl le_rfl
  rw [Pricing.computeCost_missing hkey hnone] at hcost
  cases hcost

theorem nonneg_of_cost {n : Int32} {price cost : ℚ} (hn : 0 < n.toInt) (hcost : cost = n.toInt * price)
    (h : 0 ≤ cost / 1000000) : 0 ≤ price := by
  have hnq : (0 : ℚ) < n.toInt := by exact_mod_cast hn
  rw [hcost, le_div_iff₀ (by norm_num), zero_mul] at h
  exact (mul_nonneg_iff_of_pos_left hnq).1 h

/-- A price that is charged on its own is not negative. -/
theorem Pricing.Usable.nonneg (h : P.Usable pricing)
    (hinput : P.decimalField pricing "input_price_per_million" = some inputPrice)
    (houtput : P.decimalField pricing "output_price_per_million" = some outputPrice) :
    0 ≤ inputPrice.1 ∧ 0 ≤ outputPrice.1 := by
  have hfree : ∀ d : Decimal, IsDecimal (((0 : Int32).toInt : ℚ) * d.1) := by
    intro d
    rw [show ((0 : Int32).toInt : ℚ) * d.1 = 0 by simp, ← Decimal.zero_val]
    exact Decimal.zero.2
  constructor
  · obtain ⟨n, hn, hproduct, hquotient⟩ := inputPrice.exists_exact_count
    have hsum : (n.toInt : ℚ) * inputPrice.1 + ((0 : Int32).toInt : ℚ) * outputPrice.1 = n.toInt * inputPrice.1 := by
      simp
    obtain ⟨cost, hcost, hnonneg⟩ := h (countsReport n 0) n 0 rfl rfl hn.le le_rfl
    rw [Pricing.computeCost, Pricing.computeChatCost_exact hinput houtput rfl rfl hproduct (hfree _)
      (by rwa [hsum]) (by rwa [hsum])] at hcost
    obtain rfl := Option.some.inj (Option.some.inj hcost)
    exact nonneg_of_cost hn hsum hnonneg
  · obtain ⟨n, hn, hproduct, hquotient⟩ := outputPrice.exists_exact_count
    have hsum : ((0 : Int32).toInt : ℚ) * inputPrice.1 + (n.toInt : ℚ) * outputPrice.1 = n.toInt * outputPrice.1 := by
      simp
    obtain ⟨cost, hcost, hnonneg⟩ := h (countsReport 0 n) 0 n rfl rfl le_rfl hn.le
    rw [Pricing.computeCost, Pricing.computeChatCost_exact hinput houtput rfl rfl (hfree _) hproduct
      (by rwa [hsum]) (by rwa [hsum])] at hcost
    obtain rfl := Option.some.inj (Option.some.inj hcost)
    exact nonneg_of_cost hn hsum hnonneg

theorem Pricing.usable_iff (hD : P.decimal.KeepsOrder) : P.Usable pricing ↔ ∃ inputPrice outputPrice,
    P.Priced pricing "input_price_per_million" inputPrice ∧ P.Priced pricing "output_price_per_million" outputPrice
      ∧ P.decimal.Affords inputPrice outputPrice := by
  constructor
  · intro husable
    obtain ⟨inputPrice, hinput⟩ := husable.reads "input_price_per_million" (by simp [priceKeys])
    obtain ⟨outputPrice, houtput⟩ := husable.reads "output_price_per_million" (by simp [priceKeys])
    obtain ⟨hi, ho⟩ := husable.nonneg hinput houtput
    obtain ⟨cost, hcost, -⟩ := husable (countsReport Int32.maxValue Int32.maxValue) _ _ rfl rfl (by decide) (by decide)
    obtain ⟨input, output, total, hin, hout, htotal, -⟩ :=
      (Pricing.computeChatCost_eq_some hinput houtput rfl rfl).1 hcost
    exact ⟨inputPrice, outputPrice, Pricing.priced_iff.2 ⟨hinput, hi⟩, Pricing.priced_iff.2 ⟨houtput, ho⟩,
      input, output, total, hin, hout, htotal⟩
  · rintro ⟨inputPrice, outputPrice, hinput, houtput, hrange⟩
    exact Pricing.usable_of_priced hD hinput houtput hrange

/-- What is refused is not usable. -/
theorem Pricing.Usable.accepted (h : P.Usable pricing) : validatePricing pricing = .ok () := by
  have hpresent : ∀ key ∈ priceKeys .chat, (pricing.get key).isSome = true := by
    intro key hkey
    obtain ⟨price, hprice⟩ := h.reads key hkey
    obtain ⟨v, hget, -⟩ := Pricing.decimalField_eq_some.1 hprice
    rw [hget]
    rfl
  exact validatePricing_eq_ok.2 ⟨hpresent _ (by simp [priceKeys]), hpresent _ (by simp [priceKeys])⟩

/-- An accepted price list is usable exactly when both texts are those of amounts that are not negative, and the
    largest counts do not overflow. -/
theorem Pricing.accepted_usable_iff (hD : P.decimal.KeepsOrder) (pricing : Json) :
    (validatePricing pricing = .ok () → P.Usable pricing) ↔
      (validatePricing pricing = .ok () → ∃ inputPrice outputPrice,
        P.Priced pricing "input_price_per_million" inputPrice ∧ P.Priced pricing "output_price_per_million" outputPrice
          ∧ P.decimal.Affords inputPrice outputPrice) :=
  imp_congr_right fun _ => Pricing.usable_iff hD

end Charges

/-! ## Two price lists -/

/-- Prices are read by the sample reader, and costs are rounded. -/
def roundedPricing : Pricing := ⟨jsonText, roundedDecimal⟩

/-- Half a dollar and a dollar and a half for a million tokens. -/
def usablePrices : Json := .obj [("input_price_per_million", .float "0.5"), ("output_price_per_million", .str "1.50")]

theorem Pricing.accepted_usable_iff_prices : roundedPricing.Usable usablePrices := by
  refine (Pricing.accepted_usable_iff roundedDecimal_keepsOrder usablePrices).2 (fun _ => ?_) rfl
  refine ⟨⟨1 / 2, by decide +kernel⟩, ⟨3 / 2, by decide +kernel⟩, ⟨.float "0.5", rfl, ?_, ?_⟩,
    ⟨.str "1.50", rfl, ?_, ?_⟩, ⟨2147483647 / 2, by decide +kernel⟩, ⟨2147483647 * 3 / 2, by decide +kernel⟩,
    ⟨2147483647 * 2, by decide +kernel⟩, ?_, ?_, ?_⟩
  all_goals decide +kernel

/-- The keys without prices. -/
def emptyPrices : Json := .obj [("input_price_per_million", .null), ("output_price_per_million", .null)]

/-- They are accepted, and a chat of a million tokens has no cost. -/
theorem Pricing.accepted_unusable :
    validatePricing emptyPrices = .ok ()
      ∧ roundedPricing.computeCost emptyPrices .chat (countsReport 1000000 1000000) = some none
      ∧ ¬ ∀ pricing, validatePricing pricing = .ok () → roundedPricing.Usable pricing := by
  have hfree : roundedPricing.computeCost emptyPrices .chat (countsReport 1000000 1000000) = some none := by
    decide +kernel
  refine ⟨rfl, hfree, fun h => ?_⟩
  obtain ⟨cost, hcost, -⟩ := h emptyPrices rfl (countsReport 1000000 1000000) 1000000 1000000 rfl rfl
    (by decide) (by decide)
  rw [hfree] at hcost
  cases hcost

end Godwit
