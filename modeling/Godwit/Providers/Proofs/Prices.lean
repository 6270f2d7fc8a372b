import Mathlib.Tactic.Linarith
import Mathlib.Algebra.Order.Field.Power
import Godwit.Lib.JsonText
import Godwit.Providers.DecimalLibraries

set_option autoImplicit false

/-! # Which prices are usable

A price is a number or a text with a number in it. A number is printed before it is read as a decimal, and a float
far from one is printed with an exponent, which the decimal reader rejects: the cost is then unknown, as if there
were no price. -/

namespace Godwit

/-! ## Plain decimals -/

/-- Digits, with more digits after a point if need be. -/
def plainAmount (chars : List Char) : Option ℚ :=
  let (whole, fraction) := chars.span (· ≠ '.')
  if whole.isEmpty || !whole.all Char.isDigit then none
  else match fraction with
    | [] => some (digitsValue whole)
    | _ :: fraction =>
      if fraction.isEmpty || !fraction.all Char.isDigit then none
      else some (digitsValue whole + digitsValue fraction / 10 ^ fraction.length)

/-- Such an amount, with a minus before it if need be. -/
def plainDecimal (s : String) : Option ℚ :=
  match s.toList with
  | '-' :: rest => (plainAmount rest).map Neg.neg
  | chars => plainAmount chars

/-- The digits after the point. -/
def decimalPlaces (s : String) : ℕ := ((s.toList.span (· ≠ '.')).2.drop 1).length

/-- The digits of the text, with the places that it has, are a decimal as they stand. -/
def FitsText (s : String) (q : ℚ) : Prop :=
  decimalPlaces s ≤ 28 ∧ (q * 10 ^ decimalPlaces s).num.natAbs < 2 ^ 96

instance (s : String) (q : ℚ) : Decidable (FitsText s q) := inferInstanceAs (Decidable (_ ∧ _))

theorem digitsValue_eq (digits : List Char) : digitsValue digits = (Nat.ofDigitChars 10 digits 0 : ℚ) := by
  have hfold : ∀ (digits : List Char) (n : ℕ),
      digits.foldl (fun acc c => acc * 10 + ((c.toNat - '0'.toNat : Nat) : ℚ)) (n : ℚ)
        = (Nat.ofDigitChars 10 digits n : ℚ) := by
    intro digits
    induction digits with
    | nil => intro n; rfl
    | cons c digits ih =>
        intro n
        rw [List.foldl_cons, Nat.ofDigitChars, List.foldl_cons, ← Nat.ofDigitChars, ← ih]
        push_cast
        rw [mul_comm]
  exact_mod_cast hfold digits 0

theorem plainAmount_spec {chars : List Char} {q : ℚ} (h : plainAmount chars = some q) :
    ∃ whole fraction, chars.span (· ≠ '.') = (whole, fraction) ∧ whole ≠ []
      ∧ (whole ++ fraction.drop 1).all Char.isDigit = true
      ∧ q = digitsValue whole + digitsValue (fraction.drop 1) / 10 ^ (fraction.drop 1).length := by
  obtain ⟨⟨whole, fraction⟩, hspan⟩ : ∃ parts, parts = chars.span (· ≠ '.') := ⟨_, rfl⟩
  rw [plainAmount, ← hspan] at h
  simp only at h
  split_ifs at h with hwhole
  rw [Bool.or_eq_true, not_or, List.isEmpty_iff, Bool.not_eq_true', Bool.not_eq_false] at hwhole
  obtain ⟨hne, hdigits⟩ := hwhole
  refine ⟨whole, fraction, hspan.symm, hne, ?_⟩
  cases fraction with
  | nil =>
      refine ⟨by simpa using hdigits, ?_⟩
      rw [← Option.some.inj h]
      simp [digitsValue]
  | cons point fraction =>
      simp only at h
      split_ifs at h with hfraction
      rw [Bool.or_eq_true, not_or, Bool.not_eq_true', Bool.not_eq_false] at hfraction
      refine ⟨?_, (Option.some.inj h).symm⟩
      rw [List.drop_succ_cons, List.drop_zero, List.all_append, hdigits, hfraction.2, Bool.and_self]

/-- A natural number is printed without a point. -/
theorem span_toDigits (n : ℕ) : (Nat.toDigits 10 n).span (· ≠ '.') = (Nat.toDigits 10 n, []) := by
  have hpoint : ∀ c ∈ Nat.toDigits 10 n, decide (c ≠ '.') = true := by
    intro c hc
    rw [decide_eq_true_eq]
    rintro rfl
    exact absurd (Nat.isDigit_of_mem_toDigits (by decide) (by decide) hc) (by decide)
  rw [List.span_eq_takeWhile_dropWhile, List.takeWhile_eq_self_iff.2 hpoint, List.dropWhile_eq_nil_iff.2 hpoint]

theorem fitsText_printInt {n : ℕ} (hn : n < 2 ^ 96) : FitsText (String.ofList (printInt n)) n := by
  have hplaces : decimalPlaces (String.ofList (printInt n)) = 0 := by
    rw [decimalPlaces, String.toList_ofList]
    show (((Nat.toDigits 10 n).span (· ≠ '.')).2.drop 1).length = 0
    rw [span_toDigits]
    rfl
  rw [FitsText, hplaces, pow_zero, mul_one, Rat.num_natCast, Int.natAbs_natCast]
  exact ⟨Nat.zero_le _, hn⟩

theorem plainAmount_toDigits (n : ℕ) : plainAmount (Nat.toDigits 10 n) = some (n : ℚ) := by
  have hdigits : ∀ c ∈ Nat.toDigits 10 n, c.isDigit = true := fun c hc =>
    Nat.isDigit_of_mem_toDigits (by decide) (by decide) hc
  rw [plainAmount, span_toDigits]
  simp only [List.all_eq_true.2 hdigits, List.isEmpty_eq_false_iff.2 (Nat.toDigits_ne_nil (n := n) (b := 10)),
    Bool.not_true, Bool.or_self, Bool.false_eq_true, if_false]
  rw [digitsValue_eq, Nat.ofDigitChars_ten_toDigits]

theorem plainDecimal_printInt (n : ℕ) : plainDecimal (String.ofList (printInt n)) = some (n : ℚ) := by
  rw [plainDecimal, String.toList_ofList]
  show (match Nat.toDigits 10 n with
    | '-' :: rest => (plainAmount rest).map Neg.neg
    | chars => plainAmount chars) = _
  split
  · rename_i rest hminus
    have hdigit := Nat.isDigit_of_mem_toDigits (b := 10) (n := n) (c := '-') (by decide) (by decide) (by simp [hminus])
    exact absurd hdigit (by decide)
  · exact plainAmount_toDigits n

/-- What the checked decimals read after the sign. -/
def checkedAmount (sign : ℚ) (chars : List Char) : Option ℚ :=
  let (whole, fraction) := chars.span (· ≠ '.')
  let fraction := fraction.drop 1
  if (whole ++ fraction).isEmpty || !(whole ++ fraction).all Char.isDigit then none
  else some (sign * (digitsValue whole + digitsValue fraction / 10 ^ fraction.length))

/-- The sign and what follows it. -/
def signed : List Char → ℚ × List Char
  | '-' :: rest => (-1, rest)
  | '+' :: rest => (1, rest)
  | chars => (1, chars)

theorem parseDecimal_eq (s : String) : parseDecimal s = checkedAmount (signed s.toList).1 (signed s.toList).2 := rfl

theorem checkedAmount_of_plain {chars : List Char} {sign q : ℚ} (h : plainAmount chars = some q) :
    checkedAmount sign chars = some (sign * q) := by
  obtain ⟨whole, fraction, hspan, hne, hdigits, rfl⟩ := plainAmount_spec h
  rw [checkedAmount, hspan]
  simp only [hdigits, Bool.not_true, Bool.or_false]
  rw [if_neg]
  simp [hne]

/-- What is plain is read by the checked decimals. -/
theorem parseDecimal_of_plain {s : String} {q : ℚ} (h : plainDecimal s = some q) : parseDecimal s = some q := by
  rw [plainDecimal] at h
  rw [parseDecimal_eq]
  split at h
  · rename_i rest hminus
    obtain ⟨q', hq', rfl⟩ := Option.map_eq_some_iff.1 h
    rw [hminus, signed, checkedAmount_of_plain hq', neg_one_mul]
  · rename_i chars hminus
    rw [signed.eq_def]
    split
    · rename_i rest hrest
      exact absurd hrest (hminus rest)
    · rename_i rest hrest
      -- a plus is no digit
      obtain ⟨whole, fraction, hspan, hne, hdigits, -⟩ := plainAmount_spec h
      rw [hrest, List.span_eq_takeWhile_dropWhile, List.takeWhile_cons_of_pos (by decide)] at hspan
      rw [← (Prod.mk.inj hspan).1] at hdigits
      simp at hdigits
    · rw [checkedAmount_of_plain h, one_mul]

theorem checkedAmount_exponent {chars : List Char} {sign : ℚ} (h : 'e' ∈ chars) : checkedAmount sign chars = none := by
  have hmem : 'e' ∈ chars.takeWhile (· ≠ '.') ++ (chars.dropWhile (· ≠ '.')).drop 1 := by
    rw [← List.takeWhile_append_dropWhile (p := (· ≠ '.')) (l := chars)] at h
    rcases List.mem_append.1 h with hwhole | hfraction
    · exact List.mem_append_left _ hwhole
    · cases hdrop : chars.dropWhile (· ≠ '.') with
      | nil =>
          rw [hdrop] at hfraction
          cases hfraction
      | cons point fraction =>
          have hpoint := List.head?_dropWhile_not (p := (· ≠ '.')) (l := chars)
          rw [hdrop] at hpoint hfraction
          have hhead : point = '.' := by simpa using hpoint
          rw [hhead] at hfraction
          exact List.mem_append_right _ ((List.mem_cons.1 hfraction).resolve_left (by decide))
  have hletter : (chars.takeWhile (· ≠ '.') ++ (chars.dropWhile (· ≠ '.')).drop 1).all Char.isDigit = false :=
    List.all_eq_false.2 ⟨'e', hmem, by decide⟩
  rw [checkedAmount, List.span_eq_takeWhile_dropWhile]
  simp only [hletter, Bool.not_false, Bool.or_true, if_true]

theorem parseDecimal_exponent {s : String} (h : 'e' ∈ s.toList) : parseDecimal s = none := by
  rw [parseDecimal_eq]
  refine checkedAmount_exponent ?_
  rw [signed.eq_def]
  split
  · rename_i rest hrest
    rw [hrest] at h
    exact (List.mem_cons.1 h).resolve_left (by decide)
  · rename_i rest hrest
    rw [hrest] at h
    exact (List.mem_cons.1 h).resolve_left (by decide)
  · exact h

/-! ## The library -/

/-- What the JSON printer and the decimal library are relied on for. -/
structure Pricing.Documented (P : Pricing) : Prop where
  printsInt : ∀ n : ℤ, P.json.toString (.int n) = String.ofList (printInt n)
  readsPlain : ∀ s q (h : IsDecimal q), plainDecimal s = some q → FitsText s q →
    P.decimal.fromStrExact s = some ⟨q, h⟩
  rejectsExponent : ∀ s, 'e' ∈ s.toList → P.decimal.fromStrExact s = none
  retains : ∀ q (h : IsDecimal q), P.decimal.fromF64Retain q = some ⟨q, h⟩

theorem checked_documented : Pricing.Documented ⟨jsonText, checkedDecimal⟩ where
  printsInt n := by
    show String.ofList (Json.print (.int n)) = _
    rw [Json.print]
  readsPlain s q h hplain _ := by
    show (parseDecimal s).bind Decimal.checked = _
    rw [parseDecimal_of_plain hplain]
    exact Decimal.checked_of_isDecimal h
  rejectsExponent s h := by
    show (parseDecimal s).bind Decimal.checked = _
    rw [parseDecimal_exponent h, Option.bind_none]
  retains q h := Decimal.checked_of_isDecimal h

/-! ## Prices -/

/-- A float of this size is printed with an exponent. -/
def NeedsExponent (x : ℚ) : Prop := (0 < x ∧ x < 1 / 100000) ∨ 10 ^ 16 ≤ x

instance (x : ℚ) : Decidable (NeedsExponent x) := inferInstanceAs (Decidable (_ ∨ _))

/-- How a float is printed: with at most 17 digits that count, and an exponent when it is far from one. -/
structure Pricing.PrintsFloat (P : Pricing) (literal : String) (x : ℚ) : Prop where
  short : ∃ (n : ℕ) (k : ℤ), n < 10 ^ 17 ∧ x = n * 10 ^ k
  plain : ¬ NeedsExponent x → plainDecimal (P.json.toString (.float literal)) = some x
  fits : ¬ NeedsExponent x → FitsText (P.json.toString (.float literal)) x
  exponent : NeedsExponent x → 'e' ∈ (P.json.toString (.float literal)).toList

/-- A price that is not negative: an integer, a float, or a text with a plain decimal whose digits fit as they stand. -/
inductive Pricing.Price (P : Pricing) : Json → ℚ → Prop where
  | int (n : ℕ) (hn : n < 2 ^ 64) : P.Price (.int n) n
  | float (literal : String) (x : ℚ) (hprints : P.PrintsFloat literal x) : P.Price (.float literal) x
  | text (s : String) (x : ℚ) (hplain : plainDecimal s = some x) (hnonneg : 0 ≤ x) (hdecimal : IsDecimal x)
    (hfits : FitsText s x) : P.Price (.str s) x

/-- The field is a float that is printed with an exponent. -/
def Json.ExponentField (pricing : Json) (key : String) (x : ℚ) : Prop :=
  ∃ literal, pricing.get key = some (.float literal) ∧ NeedsExponent x

theorem Pricing.PrintsFloat.isDecimal {P : Pricing} {literal : String} {x : ℚ} (h : P.PrintsFloat literal x)
    (hplain : ¬ NeedsExponent x) : IsDecimal x := by
  obtain ⟨n, k, hn, rfl⟩ := h.short
  rw [NeedsExponent, not_or, not_and, not_lt, not_le] at hplain
  obtain ⟨hsmall, hlarge⟩ := hplain
  rcases Nat.eq_zero_or_pos n with rfl | hpos
  · exact isDecimal_of_scaled (s := 0) (n := 0) (by omega) (by simp) (by decide)
  · have hposq : (0 : ℚ) < n := by exact_mod_cast hpos
    obtain ⟨j, rfl | rfl⟩ := k.eq_nat_or_neg
    · refine isDecimal_of_scaled (s := 0) (n := (n * 10 ^ j : ℕ)) (by omega) (by push_cast; simp) ?_
      have hlt : n * 10 ^ j < 10 ^ 16 := by exact_mod_cast hlarge
      rw [Int.natAbs_natCast]
      omega
    · -- the digits begin at most five places after the point
      refine isDecimal_of_scaled (s := j) (n := n) ?_ ?_ ?_
      · by_contra hj
        have hlow : (1 : ℚ) / 100000 ≤ n * 10 ^ (-(j : ℤ)) := hsmall (by positivity)
        rw [zpow_neg, zpow_natCast, ← div_eq_mul_inv, div_le_div_iff₀ (by norm_num) (by positivity), one_mul] at hlow
        have hlow : 10 ^ j ≤ n * 100000 := by exact_mod_cast hlow
        have hpow : 10 ^ 29 ≤ 10 ^ j := Nat.pow_le_pow_right (by norm_num) (by omega)
        omega
      · rw [zpow_neg, zpow_natCast, mul_assoc, inv_mul_cancel₀ (by positivity), mul_one, Int.cast_natCast]
      · rw [Int.natAbs_natCast]
        omega

section Fields

variable {P : Pricing} {pricing v : Json} {key : String} {x : ℚ}

theorem Pricing.decimalField_plain (hP : P.Documented) (hget : pricing.get key = some v) (hv : P.Price v x)
    (hplain : ¬ pricing.ExponentField key x) : ∃ d, P.decimalField pricing key = some d ∧ d.1 = x := by
  rw [Pricing.decimalField, hget]
  cases hv with
  | int n hn =>
      have hdecimal : IsDecimal n := isDecimal_of_scaled (s := 0) (n := n) (by omega) (by simp) (by
        rw [Int.natAbs_natCast]
        omega)
      have hread := hP.readsPlain _ _ hdecimal (plainDecimal_printInt n) (fitsText_printInt (by omega))
      rw [← hP.printsInt] at hread
      exact ⟨_, hread, rfl⟩
  | float literal x hprints =>
      have hsize : ¬ NeedsExponent x := fun hexponent => hplain ⟨literal, hget, hexponent⟩
      exact ⟨_, hP.readsPlain _ _ (hprints.isDecimal hsize) (hprints.plain hsize) (hprints.fits hsize), rfl⟩
  | text s x hs hnonneg hdecimal hfits => exact ⟨_, hP.readsPlain _ _ hdecimal hs hfits, rfl⟩

theorem Pricing.decimalField_exponent (hP : P.Documented) (hget : pricing.get key = some v) (hv : P.Price v x)
    (hexponent : pricing.ExponentField key x) : P.decimalField pricing key = none := by
  obtain ⟨literal, hliteral, hsize⟩ := hexponent
  rw [hget, Option.some_inj] at hliteral
  subst hliteral
  rw [Pricing.decimalField, hget]
  cases hv with
  | float literal x hprints => exact hP.rejectsExponent _ (hprints.exponent hsize)

end Fields

/-! ## Costs -/

/-- The prices that the cost of each capability reads. -/
def priceKeys : Capability → List String
  | .chat => ["input_price_per_million", "output_price_per_million"]
  | .embedding => ["input_price_per_million"]
  | .imageGeneration => ["image_price_per_image"]
  | .imageEdit => ["image_price_per_image"]
  | .audioTts => ["tts_price_per_character"]
  | .audioStt => ["stt_price_per_second"]
  | .videoGeneration => []

/-- The exact results on the way to a cost, and the cost. -/
structure ExactCost where
  before : List ℚ
  cost : ℚ
  deriving DecidableEq

/-- The cost at given prices, where the counts are there that it needs. -/
def exactCost (price : String → ℚ) (usage : UsageReport) : Capability → Option ExactCost
  | .chat => do
    let promptTokens ← usage.promptTokens
    let completionTokens ← usage.completionTokens
    let input := (promptTokens.toInt : ℚ) * price "input_price_per_million"
    let output := (completionTokens.toInt : ℚ) * price "output_price_per_million"
    some ⟨[input, output, input + output], (input + output) / 1000000⟩
  | .embedding => usage.embeddingTokens.map fun tokens =>
    ⟨[(tokens.toInt : ℚ) * price "input_price_per_million"],
      (tokens.toInt : ℚ) * price "input_price_per_million" / 1000000⟩
  | .imageGeneration => usage.imageCount.map fun count => ⟨[], (count.toInt : ℚ) * price "image_price_per_image"⟩
  | .imageEdit => usage.imageCount.map fun count => ⟨[], (count.toInt : ℚ) * price "image_price_per_image"⟩
  | .audioTts => usage.ttsCharacters.map fun chars => ⟨[], (chars.toInt : ℚ) * price "tts_price_per_character"⟩
  | .audioStt => (usage.audioSeconds.bind id).map fun seconds =>
    ⟨[seconds], seconds * price "stt_price_per_second"⟩
  | .videoGeneration => none

section Costs

variable {P : Pricing} {pricing : Json} {capability : Capability} {usage : UsageReport}

theorem Pricing.unitCost_missing {key : String} {count : Option Decimal}
    (hnone : P.decimalField pricing key = none) : P.unitCost pricing key count = some none := by
  unfold Pricing.unitCost
  rw [hnone]

/-- A cost is unknown without its prices. -/
theorem Pricing.computeCost_missing {key : String} (hkey : key ∈ priceKeys capability)
    (hnone : P.decimalField pricing key = none) : P.computeCost pricing capability usage = some none := by
  cases capability with
  | chat =>
      rw [Pricing.computeCost, Pricing.computeChatCost]
      rcases List.mem_cons.1 hkey with rfl | hkey
      · rw [hnone]
      · rw [List.mem_singleton.1 hkey] at hnone
        rw [hnone]
        cases P.decimalField pricing "input_price_per_million" <;> rfl
  | embedding =>
      rw [List.mem_singleton.1 hkey] at hnone
      rw [Pricing.computeCost, Pricing.computeEmbeddingCost, hnone]
  | imageGeneration => exact Pricing.unitCost_missing (List.mem_singleton.1 hkey ▸ hnone)
  | imageEdit => exact Pricing.unitCost_missing (List.mem_singleton.1 hkey ▸ hnone)
  | audioTts => exact Pricing.unitCost_missing (List.mem_singleton.1 hkey ▸ hnone)
  | audioStt => exact Pricing.unitCost_missing (List.mem_singleton.1 hkey ▸ hnone)
  | videoGeneration => cases hkey

/-- A chat is not priced without both of its counts. -/
theorem Pricing.computeChatCost_uncounted (h : usage.promptTokens = none ∨ usage.completionTokens = none) :
    P.computeChatCost pricing usage = some none := by
  unfold Pricing.computeChatCost
  rcases h with h | h <;> rw [h] <;> split <;> simp_all

theorem Decimal.million_val : Decimal.million.1 = 1000000 := by norm_num [Decimal.million]

theorem DecimalArith.div_million (D : DecimalArith) (total : Decimal) (h : IsDecimal (total.1 / 1000000)) :
    D.div total .million = some ⟨total.1 / 1000000, h⟩ := by
  have hquotient := D.div_exact total .million (by rwa [Decimal.million_val]) (by rw [Decimal.million_val]; norm_num)
  simpa only [Decimal.million_val] using hquotient

/-- A chat is charged in four steps. -/
theorem Pricing.computeChatCost_eq_some {inputPrice outputPrice cost : Decimal} {prompt completion : Int32}
    (hinput : P.decimalField pricing "input_price_per_million" = some inputPrice)
    (houtput : P.decimalField pricing "output_price_per_million" = some outputPrice)
    (hprompt : usage.promptTokens = some prompt) (hcompletion : usage.completionTokens = some completion) :
    P.computeChatCost pricing usage = some (some cost) ↔
      ∃ input output total, P.decimal.mul (.ofInt32 prompt) inputPrice = some input
        ∧ P.decimal.mul (.ofInt32 completion) outputPrice = some output ∧ P.decimal.add input output = some total
        ∧ P.decimal.div total .million = some cost := by
  rw [Pricing.computeChatCost, hinput, houtput, hprompt, hcompletion]
  simp only [Option.bind_eq_bind, Option.bind_eq_some_iff, Option.some_inj]
  constructor
  · rintro ⟨input, hin, output, hout, total, htotal, cost, hcost, rfl⟩
    exact ⟨input, output, total, hin, hout, htotal, hcost⟩
  · rintro ⟨input, output, total, hin, hout, htotal, hcost⟩
    exact ⟨input, hin, output, hout, total, htotal, cost, hcost, rfl⟩

theorem Pricing.computeChatCost_exact {inputPrice outputPrice : Decimal} {prompt completion : Int32}
    (hinput : P.decimalField pricing "input_price_per_million" = some inputPrice)
    (houtput : P.decimalField pricing "output_price_per_million" = some outputPrice)
    (hprompt : usage.promptTokens = some prompt) (hcompletion : usage.completionTokens = some completion)
    (hin : IsDecimal (prompt.toInt * inputPrice.1)) (hout : IsDecimal (completion.toInt * outputPrice.1))
    (hsum : IsDecimal (prompt.toInt * inputPrice.1 + completion.toInt * outputPrice.1))
    (hdiv : IsDecimal ((prompt.toInt * inputPrice.1 + completion.toInt * outputPrice.1) / 1000000)) :
    P.computeChatCost pricing usage = some (some ⟨_, hdiv⟩) := by
  have hmulInput := P.decimal.mul_exact (.ofInt32 prompt) inputPrice hin
  have hmulOutput := P.decimal.mul_exact (.ofInt32 completion) outputPrice hout
  have hadd := P.decimal.add_exact ⟨_, hin⟩ ⟨_, hout⟩ hsum
  have hquotient := P.decimal.div_million ⟨_, hsum⟩ hdiv
  exact (Pricing.computeChatCost_eq_some hinput houtput hprompt hcompletion).2
    ⟨_, _, _, hmulInput, hmulOutput, hadd, hquotient⟩

theorem Pricing.unitCost_exact {key : String} {price : Decimal} (count : Decimal)
    (hprice : P.decimalField pricing key = some price)
    (hmul : IsDecimal (count.1 * price.1)) :
    P.unitCost pricing key (some count) = some (some ⟨_, hmul⟩) := by
  unfold Pricing.unitCost
  rw [hprice]
  exact Option.bind_eq_some_iff.2 ⟨_, P.decimal.mul_exact count price hmul, rfl⟩

/-- The prices that the capability needs. -/
def Pricing.HasPrices (P : Pricing) (pricing : Json) (capability : Capability) (price : String → ℚ) : Prop :=
  ∀ key ∈ priceKeys capability, ∃ v, pricing.get key = some v ∧ P.Price v (price key)

theorem Pricing.HasPrices.read (hP : P.Documented) {price : String → ℚ}
    (hprices : P.HasPrices pricing capability price)
    (hplain : ∀ key ∈ priceKeys capability, ¬ pricing.ExponentField key (price key)) {key : String}
    (hkey : key ∈ priceKeys capability) : ∃ d, P.decimalField pricing key = some d ∧ d.1 = price key := by
  obtain ⟨v, hget, hv⟩ := hprices key hkey
  exact Pricing.decimalField_plain hP hget hv (hplain key hkey)

theorem Pricing.computeCost_plain (hP : P.Documented) {price : String → ℚ}
    (hprices : P.HasPrices pricing capability price)
    (hplain : ∀ key ∈ priceKeys capability, ¬ pricing.ExponentField key (price key)) {exact : ExactCost}
    (hexact : exactCost price usage capability = some exact) (hbefore : ∀ q ∈ exact.before, IsDecimal q)
    (hcost : IsDecimal exact.cost) : P.computeCost pricing capability usage = some (some ⟨exact.cost, hcost⟩) := by
  have hread := fun (key : String) (hkey : key ∈ priceKeys capability) => hprices.read hP hplain hkey
  cases capability with
  | chat =>
      obtain ⟨prompt, hprompt, hexact⟩ := Option.bind_eq_some_iff.1 hexact
      obtain ⟨completion, hcompletion, hexact⟩ := Option.bind_eq_some_iff.1 hexact
      obtain rfl := Option.some.inj hexact
      obtain ⟨⟨input, hinputDecimal⟩, hinput, rfl⟩ := hread "input_price_per_million" (by simp [priceKeys])
      obtain ⟨⟨output, houtputDecimal⟩, houtput, rfl⟩ := hread "output_price_per_million" (by simp [priceKeys])
      exact Pricing.computeChatCost_exact hinput houtput hprompt hcompletion (hbefore _ (by simp))
        (hbefore _ (by simp)) (hbefore _ (by simp)) hcost
  | embedding =>
      obtain ⟨tokens, htokens, rfl⟩ := Option.map_eq_some_iff.1 hexact
      obtain ⟨⟨input, hinputDecimal⟩, hinput, rfl⟩ := hread "input_price_per_million" (by simp [priceKeys])
      have htotal := hbefore _ List.mem_cons_self
      have hmul := P.decimal.mul_exact (.ofInt64 tokens) ⟨_, hinputDecimal⟩ htotal
      have hquotient := P.decimal.div_million ⟨_, htotal⟩ hcost
      rw [Pricing.computeCost, Pricing.computeEmbeddingCost, hinput, htokens]
      exact Option.bind_eq_some_iff.2 ⟨_, hmul, Option.bind_eq_some_iff.2 ⟨_, hquotient, rfl⟩⟩
  | imageGeneration =>
      obtain ⟨count, hcount, rfl⟩ := Option.map_eq_some_iff.1 hexact
      obtain ⟨⟨unit, hunitDecimal⟩, hunit, rfl⟩ := hread "image_price_per_image" (by simp [priceKeys])
      rw [Pricing.computeCost, Pricing.computeImageCost, hcount]
      exact Pricing.unitCost_exact (.ofInt64 count) hunit hcost
  | imageEdit =>
      obtain ⟨count, hcount, rfl⟩ := Option.map_eq_some_iff.1 hexact
      obtain ⟨⟨unit, hunitDecimal⟩, hunit, rfl⟩ := hread "image_price_per_image" (by simp [priceKeys])
      rw [Pricing.computeCost, Pricing.computeImageCost, hcount]
      exact Pricing.unitCost_exact (.ofInt64 count) hunit hcost
  | audioTts =>
      obtain ⟨chars, hchars, rfl⟩ := Option.map_eq_some_iff.1 hexact
      obtain ⟨⟨unit, hunitDecimal⟩, hunit, rfl⟩ := hread "tts_price_per_character" (by simp [priceKeys])
      rw [Pricing.computeCost, Pricing.computeAudioTtsCost, hchars]
      exact Pricing.unitCost_exact (.ofInt64 chars) hunit hcost
  | audioStt =>
      obtain ⟨seconds, hseconds, rfl⟩ := Option.map_eq_some_iff.1 hexact
      obtain ⟨⟨unit, hunitDecimal⟩, hunit, rfl⟩ := hread "stt_price_per_second" (by simp [priceKeys])
      have hretained := hP.retains seconds (hbefore _ List.mem_cons_self)
      obtain ⟨finite, haudio, rfl⟩ := Option.bind_eq_some_iff.1 hseconds
      rw [Pricing.computeCost, Pricing.computeAudioSttCost, haudio, Option.bind_some, Option.bind_some, hretained]
      exact Pricing.unitCost_exact ⟨_, _⟩ hunit hcost
  | videoGeneration => cases hexact

/-- A cost is the exact one when no price is printed with an exponent and each result on the way is a decimal; with an
    exponent, or when the exact cost is no decimal, it never is. -/
theorem Pricing.computeCost_usable (hP : P.Documented) {price : String → ℚ}
    (hprices : P.HasPrices pricing capability price) {exact : ExactCost}
    (hexact : exactCost price usage capability = some exact) :
    ((∀ key ∈ priceKeys capability, ¬ pricing.ExponentField key (price key)) →
        (∀ q ∈ exact.before, IsDecimal q) → IsDecimal exact.cost →
        ∃ cost, P.computeCost pricing capability usage = some (some cost) ∧ cost.1 = exact.cost)
      ∧ ((∃ cost, P.computeCost pricing capability usage = some (some cost) ∧ cost.1 = exact.cost) →
        (∀ key ∈ priceKeys capability, ¬ pricing.ExponentField key (price key)) ∧ IsDecimal exact.cost) := by
  constructor
  · intro hplain hbefore hcost
    exact ⟨_, Pricing.computeCost_plain hP hprices hplain hexact hbefore hcost, rfl⟩
  · rintro ⟨cost, hcost, hvalue⟩
    refine ⟨fun key hkey hexponent => ?_, hvalue ▸ cost.2⟩
    obtain ⟨v, hget, hv⟩ := hprices key hkey
    rw [Pricing.computeCost_missing hkey (Pricing.decimalField_exponent hP hget hv hexponent)] at hcost
    cases hcost

end Costs

/-! ## Two price lists -/

/-- Prices are read and multiplied exactly or not at all. -/
def samplePricing : Pricing := ⟨jsonText, checkedDecimal⟩

/-- The prices of a model. -/
def chatPrices : Json := .obj [("input_price_per_million", .float "2.5"), ("output_price_per_million", .float "10.0")]

/-- The same prices as numbers. -/
def chatPrice (key : String) : ℚ := if key = "input_price_per_million" then 5 / 2 else 10

/-- A million prompt tokens and half as many of the completion. -/
def chatUsage : UsageReport :=
  { UsageReport.default with promptTokens := some 1000000, completionTokens := some 500000 }

theorem chatPrices_hasPrices : samplePricing.HasPrices chatPrices .chat chatPrice := by
  intro key hkey
  rcases List.mem_cons.1 hkey with rfl | hkey
  · refine ⟨.float "2.5", rfl,
      .float _ _ ⟨⟨25, -1, by norm_num, by decide +kernel⟩, fun _ => ?_, fun _ => ?_, fun h => ?_⟩⟩
    · decide +kernel
    · decide +kernel
    · exact absurd h (by decide +kernel)
  · rw [List.mem_singleton.1 hkey]
    refine ⟨.float "10.0", rfl,
      .float _ _ ⟨⟨10, 0, by norm_num, by decide +kernel⟩, fun _ => ?_, fun _ => ?_, fun h => ?_⟩⟩
    · decide +kernel
    · decide +kernel
    · exact absurd h (by decide +kernel)

theorem Pricing.computeCost_usable_chat :
    ∃ cost, samplePricing.computeCost chatPrices .chat chatUsage = some (some cost) ∧ cost.1 = 15 / 2 := by
  have hexact : exactCost chatPrice chatUsage .chat = some ⟨[2500000, 5000000, 7500000], 15 / 2⟩ := by
    decide +kernel
  refine (Pricing.computeCost_usable checked_documented chatPrices_hasPrices hexact).1 ?_ ?_ ?_
  · rintro key hkey ⟨literal, -, hsize⟩
    rcases List.mem_cons.1 hkey with rfl | hkey
    · exact absurd hsize (by decide +kernel)
    · rw [List.mem_singleton.1 hkey] at hsize
      exact absurd hsize (by decide +kernel)
  · decide +kernel
  · decide +kernel

/-- Nine dollars for a million characters of speech. -/
def speechPrices : Json := .obj [("tts_price_per_character", .float "9e-6")]

/-- A thousand characters have no cost. -/
theorem Pricing.speech_unusable :
    samplePricing.HasPrices speechPrices .audioTts (fun _ => 9 / 1000000)
      ∧ exactCost (fun _ => 9 / 1000000) { UsageReport.default with ttsCharacters := some 1000 } .audioTts
        = some ⟨[], 9 / 1000⟩
      ∧ IsDecimal (9 / 1000)
      ∧ ¬ ∃ cost, samplePricing.computeCost speechPrices .audioTts
          { UsageReport.default with ttsCharacters := some 1000 } = some (some cost) ∧ cost.1 = 9 / 1000 := by
  refine ⟨fun key hkey => ?_, by decide +kernel, by decide +kernel, ?_⟩
  · rw [List.mem_singleton.1 hkey]
    refine ⟨.float "9e-6", rfl,
      .float _ _ ⟨⟨9, -6, by norm_num, by decide +kernel⟩, fun h => ?_, fun h => ?_, fun _ => ?_⟩⟩
    · exact absurd (show NeedsExponent (9 / 1000000) by decide +kernel) h
    · exact absurd (show NeedsExponent (9 / 1000000) by decide +kernel) h
    · decide +kernel
  · rintro ⟨cost, hcost, -⟩
    rw [show samplePricing.computeCost speechPrices .audioTts
      { UsageReport.default with ttsCharacters := some 1000 } = some none by decide +kernel] at hcost
    cases hcost

end Godwit
