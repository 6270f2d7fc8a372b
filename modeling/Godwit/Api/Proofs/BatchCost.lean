import Godwit.Api.Proofs.Batch
import Godwit.Providers.Proofs.Prices

set_option autoImplicit false

/-! # The estimated cost of a batch

A line is priced for a quarter of the bytes of its texts and for the completion tokens that it asks for, or half as
many as its prompt. The counts are 32-bit integers that wrap, and the completion tokens are what the client says,
also below zero. So a line costs what it should when its counts fit, and no less than nothing when it does not ask
for too few tokens; its prices have to be readable at all. -/

namespace Godwit

/-! ## Counts that wrap -/

/-- The tokens of a text of this length. -/
def wrappedTokens (bytes : ℕ) : ℤ := (Int32.ofNat bytes / 4).toInt

theorem wrappedTokens_eq (bytes : ℕ) : wrappedTokens bytes = ((bytes : ℤ).bmod (2 ^ 32)).tdiv 4 := by
  rw [wrappedTokens, Int32.toInt_div_of_ne_right _ _ (by decide), Int32.toInt_ofNat']
  rfl

/-- A text counts for a quarter of its bytes, and for much less once its length wraps. -/
theorem wrappedTokens_bounds (bytes : ℕ) :
    (bytes < 2 ^ 31 → wrappedTokens bytes = ((bytes / 4 : ℕ) : ℤ))
      ∧ (2 ^ 31 ≤ bytes → wrappedTokens bytes + 2 ^ 29 ≤ ((bytes / 4 : ℕ) : ℤ))
      ∧ -((bytes / 4 : ℕ) : ℤ) ≤ wrappedTokens bytes := by
  rw [wrappedTokens_eq]
  obtain ⟨w, hw⟩ : ∃ w, w = (bytes : ℤ).bmod (2 ^ 32) := ⟨_, rfl⟩
  have hlow : -2 ^ 31 ≤ w := by
    rw [hw]
    exact Int.le_bmod (by decide)
  have hhigh : w < 2 ^ 31 := by
    rw [hw]
    exact Int.bmod_lt (by decide)
  obtain ⟨k, hk⟩ : ∃ k : ℤ, w = bytes - 2 ^ 32 * k := by
    have hdivided := Int.bmod_add_bdiv (bytes : ℤ) (2 ^ 32)
    rw [← hw] at hdivided
    generalize (bytes : ℤ).bdiv (2 ^ 32) = k at hdivided
    exact ⟨k, by push_cast at hdivided; omega⟩
  rw [← hw]
  have hsign : (0 ≤ w ∧ w.tdiv 4 = w / 4) ∨ (w < 0 ∧ w.tdiv 4 = -((-w) / 4)) := by
    rcases lt_or_ge w 0 with hneg | hpos
    · refine .inr ⟨hneg, ?_⟩
      rw [← Int.neg_neg w, Int.neg_tdiv, Int.tdiv_eq_ediv_of_nonneg (by omega), Int.neg_neg]
    · exact .inl ⟨hpos, Int.tdiv_eq_ediv_of_nonneg hpos⟩
  push_cast
  refine ⟨fun hsmall => ?_, fun hlarge => ?_, ?_⟩ <;> rcases hsign with ⟨hw0, heq⟩ | ⟨hw0, heq⟩ <;> rw [heq] <;> omega

/-- The tokens of texts of these lengths. -/
def wrappedPrompt (lengths : List ℕ) : Int32 :=
  lengths.foldl (fun promptTokens bytes => promptTokens + Int32.ofNat bytes / 4) 0

/-- The tokens of the texts, in integers without a bound. -/
def exactPrompt (lengths : List ℕ) : ℕ := (lengths.map (· / 4)).sum

/-- No length and no count passes what 32 bits hold. -/
def CountsFit (lengths : List ℕ) : Prop := (∀ bytes ∈ lengths, bytes < 2 ^ 31) ∧ exactPrompt lengths < 2 ^ 31

theorem wrappedPrompt_eq (lengths : List ℕ) :
    (wrappedPrompt lengths).toInt = ((lengths.map wrappedTokens).sum).bmod (2 ^ 32) := by
  have hfold : ∀ (lengths : List ℕ) (n : Int32),
      (lengths.foldl (fun promptTokens bytes => promptTokens + Int32.ofNat bytes / 4) n).toInt
        = (n.toInt + (lengths.map wrappedTokens).sum).bmod (2 ^ 32) := by
    intro lengths
    induction lengths with
    | nil =>
        intro n
        simp
    | cons bytes lengths ih =>
        intro n
        rw [List.foldl_cons, ih, Int32.toInt_add, Int.bmod_add_bmod, List.map_cons, List.sum_cons, wrappedTokens,
          Int.add_assoc]
  rw [wrappedPrompt, hfold]
  simp

theorem sum_wrappedTokens_bounds (lengths : List ℕ) :
    -(exactPrompt lengths : ℤ) ≤ (lengths.map wrappedTokens).sum
      ∧ ((∀ bytes ∈ lengths, bytes < 2 ^ 31) → (lengths.map wrappedTokens).sum = exactPrompt lengths)
      ∧ ((∃ bytes ∈ lengths, 2 ^ 31 ≤ bytes) → (lengths.map wrappedTokens).sum + 2 ^ 29 ≤ exactPrompt lengths)
      ∧ (lengths.map wrappedTokens).sum ≤ exactPrompt lengths := by
  induction lengths with
  | nil => simp [exactPrompt]
  | cons bytes lengths ih =>
      obtain ⟨hsmall, hlarge, hlow⟩ := wrappedTokens_bounds bytes
      obtain ⟨ihlow, ihsmall, ihlarge, ihhigh⟩ := ih
      rw [exactPrompt] at *
      rw [List.map_cons, List.sum_cons, List.map_cons, List.sum_cons]
      push_cast at *
      have hle : wrappedTokens bytes ≤ (bytes : ℤ) / 4 := by
        rcases Nat.lt_or_ge bytes (2 ^ 31) with hbytes | hbytes
        · exact (hsmall hbytes).le
        · have := hlarge hbytes
          omega
      refine ⟨by omega, fun hall => ?_, ?_, by omega⟩
      · rw [hsmall (hall bytes List.mem_cons_self), ihsmall fun b hb => hall b (List.mem_cons_of_mem bytes hb)]
      · rintro ⟨b, hb, hwraps⟩
        rcases List.mem_cons.1 hb with rfl | hb
        · have := hlarge hwraps
          omega
        · have := ihlarge ⟨b, hb, hwraps⟩
          omega

/-- The count is the exact one when everything fits, and less when something does not: even its half is. -/
theorem wrappedPrompt_spec (lengths : List ℕ) :
    (CountsFit lengths → (wrappedPrompt lengths).toInt = exactPrompt lengths)
      ∧ (¬ CountsFit lengths → (wrappedPrompt lengths).toInt < exactPrompt lengths
        ∧ (wrappedPrompt lengths).toInt.tdiv 2 < ((exactPrompt lengths / 2 : ℕ) : ℤ)) := by
  obtain ⟨hlow, hsmall, hlarge, hhigh⟩ := sum_wrappedTokens_bounds lengths
  have hexact : exactPrompt lengths < 2 ^ 31 →
      (wrappedPrompt lengths).toInt = (lengths.map wrappedTokens).sum := by
    intro hfits
    rw [wrappedPrompt_eq, Int.bmod_eq_of_le (by omega) (by omega)]
  have hrange := Int32.toInt_lt (wrappedPrompt lengths)
  have hhalf : ∀ w s : ℤ, w < s → (2 ^ 31 ≤ s ∧ w < 2 ^ 31 ∨ w + 2 ^ 29 ≤ s) → 0 ≤ s → w.tdiv 2 < s / 2 := by
    intro w s hlt hgap hs
    rcases lt_or_ge w 0 with hneg | hpos
    · have htdiv : w.tdiv 2 = -((-w) / 2) := by
        rw [← Int.neg_neg w, Int.neg_tdiv, Int.tdiv_eq_ediv_of_nonneg (by omega), Int.neg_neg]
      omega
    · have htdiv : w.tdiv 2 = w / 2 := Int.tdiv_eq_ediv_of_nonneg hpos
      omega
  constructor
  · rintro ⟨hall, hfits⟩
    rw [hexact hfits, hsmall hall]
  · intro hwraps
    push_cast
    by_cases hfits : exactPrompt lengths < 2 ^ 31
    · have hbig : ∃ bytes ∈ lengths, 2 ^ 31 ≤ bytes := by
        by_contra hnone
        exact hwraps ⟨fun b hb => Nat.lt_of_not_le fun hb31 => hnone ⟨b, hb, hb31⟩, hfits⟩
      have hgap := hlarge hbig
      rw [hexact hfits]
      exact ⟨by omega, hhalf _ _ (by omega) (.inr hgap) (by omega)⟩
    · exact ⟨by omega, hhalf _ _ (by omega) (.inl (by omega)) (by omega)⟩

/-! ## The estimate of a request -/

/-- The lengths of the texts that the estimate counts. -/
def countedLengths (request : BatchRequest) : List ℕ :=
  (request.body.messages.flatMap countedTexts).map String.utf8ByteSize

theorem estimateUsage_eq (request : BatchRequest) :
    estimateUsageFromRequest request = { UsageReport.default with
      promptTokens := some (wrappedPrompt (countedLengths request))
      completionTokens := some (request.body.maxTokens.getD (wrappedPrompt (countedLengths request) / 2)) } := by
  have hprompt := estimate_counts request
  rw [estimateUsageFromRequest, Option.some_inj] at hprompt
  rw [estimateUsageFromRequest, hprompt, wrappedPrompt, countedLengths, List.foldl_map]
  rfl

/-- The cost of the tokens as they are counted. -/
def wrappedEstimate (price : String → ℚ) (request : BatchRequest) : ℚ :=
  ((wrappedPrompt (countedLengths request)).toInt * price "input_price_per_million"
    + (request.body.maxTokens.getD (wrappedPrompt (countedLengths request) / 2)).toInt
      * price "output_price_per_million") / 1000000

/-- The completion tokens of a request, when no count wraps. -/
def exactCompletion (request : BatchRequest) : ℤ :=
  request.body.maxTokens.elim ((exactPrompt (countedLengths request) / 2 : ℕ) : ℤ) Int32.toInt

/-- The cost of the tokens when no count wraps. -/
def exactEstimate (price : String → ℚ) (request : BatchRequest) : ℚ :=
  (exactPrompt (countedLengths request) * price "input_price_per_million"
    + exactCompletion request * price "output_price_per_million") / 1000000

/-- What wraps does not matter: nothing does, or it costs nothing. -/
def BatchRequest.CountedRight (price : String → ℚ) (request : BatchRequest) : Prop :=
  CountsFit (countedLengths request)
    ∨ price "input_price_per_million" = 0
      ∧ (request.body.maxTokens.isSome = true ∨ price "output_price_per_million" = 0)

theorem wrappedEstimate_eq_iff {price : String → ℚ} (hinput : 0 ≤ price "input_price_per_million")
    (houtput : 0 ≤ price "output_price_per_million") (request : BatchRequest) :
    wrappedEstimate price request = exactEstimate price request ↔ request.CountedRight price := by
  obtain ⟨hfit, hwrap⟩ := wrappedPrompt_spec (countedLengths request)
  have hhalf : (wrappedPrompt (countedLengths request) / 2).toInt
      = (wrappedPrompt (countedLengths request)).toInt.tdiv 2 := Int32.toInt_div_of_ne_right _ _ (by decide)
  rw [wrappedEstimate, exactEstimate, exactCompletion, BatchRequest.CountedRight, div_left_inj' (by norm_num)]
  by_cases hcounts : CountsFit (countedLengths request)
  · simp only [hcounts, true_or, iff_true]
    rw [hfit hcounts] at hhalf
    cases request.body.maxTokens with
    | some n => simp [hfit hcounts]
    | none =>
        rw [Option.getD_none, Option.elim_none, hhalf, hfit hcounts, Int.tdiv_eq_ediv_of_nonneg (by omega)]
        push_cast
        rfl
  · simp only [hcounts, false_or]
    obtain ⟨hless, hhalfLess⟩ := hwrap hcounts
    rw [← hhalf] at hhalfLess
    have hless : ((wrappedPrompt (countedLengths request)).toInt : ℚ) < exactPrompt (countedLengths request) := by
      exact_mod_cast hless
    have hhalfLess : ((wrappedPrompt (countedLengths request) / 2).toInt : ℚ)
        < ((exactPrompt (countedLengths request) / 2 : ℕ) : ℤ) := by
      exact_mod_cast hhalfLess
    generalize ((wrappedPrompt (countedLengths request)).toInt : ℚ) = w at hless ⊢
    cases request.body.maxTokens with
    | some n =>
        simp only [Option.getD_some, Option.elim_some, Option.isSome_some, true_or, and_true, add_left_inj]
        constructor
        · intro heq
          by_contra hprice
          have hpos := lt_of_le_of_ne hinput (Ne.symm hprice)
          exact absurd heq (mul_lt_mul_of_pos_right hless hpos).ne
        · intro hprice
          rw [hprice, mul_zero, mul_zero]
    | none =>
        simp only [Option.getD_none, Option.elim_none, Option.isSome_none, Bool.false_eq_true, false_or]
        generalize ((wrappedPrompt (countedLengths request) / 2).toInt : ℚ) = w' at hhalfLess ⊢
        constructor
        · intro heq
          have hprompt := mul_le_mul_of_nonneg_right hless.le hinput
          have hcompletion := mul_le_mul_of_nonneg_right hhalfLess.le houtput
          constructor
          · by_contra hprice
            have hpos := lt_of_le_of_ne hinput (Ne.symm hprice)
            exact absurd heq (add_lt_add_of_lt_of_le (mul_lt_mul_of_pos_right hless hpos) hcompletion).ne
          · by_contra hprice
            have hpos := lt_of_le_of_ne houtput (Ne.symm hprice)
            exact absurd heq (add_lt_add_of_le_of_lt hprompt (mul_lt_mul_of_pos_right hhalfLess hpos)).ne
        · rintro ⟨hin, hout⟩
          rw [hin, hout]
          simp

/-! ## Prices of a batch -/

theorem Pricing.Price.nonneg {P : Pricing} {v : Json} {x : ℚ} (h : P.Price v x) : 0 ≤ x := by
  cases h with
  | int n hn => exact n.cast_nonneg
  | float literal x hprints =>
      obtain ⟨n, k, -, rfl⟩ := hprints.short
      positivity
  | text s x hplain hnonneg hdecimal => exact hnonneg

/-- Every model of the batch has its prices in the catalog. -/
def Pricing.PricesBatch (P : Pricing) (pricingCatalog : String → Option Json) (price : String → String → ℚ)
    (requests : List BatchRequest) : Prop :=
  ∀ request ∈ requests, ∃ pricing, pricingCatalog request.body.model = some pricing
    ∧ P.HasPrices pricing .chat (price request.body.model)

/-- No price of the request's model is printed with an exponent. -/
def PlainPrices (pricingCatalog : String → Option Json) (price : String → String → ℚ) (request : BatchRequest) : Prop :=
  ∀ pricing, pricingCatalog request.body.model = some pricing →
    ∀ key ∈ priceKeys .chat, ¬ pricing.ExponentField key (price request.body.model key)

/-- The cost of a line in rationals. -/
def lineEstimate (price : String → String → ℚ) (request : BatchRequest) : ℚ :=
  wrappedEstimate (price request.body.model) request

/-- The cost of each line and the running totals are computed without rounding. -/
structure EstimateFits (price : String → String → ℚ) (requests : List BatchRequest) : Prop where
  costs : ∀ request ∈ requests, ∀ exact,
    exactCost (price request.body.model) (estimateUsageFromRequest request) .chat = some exact →
      (∀ q ∈ exact.before, IsDecimal q) ∧ IsDecimal exact.cost
  totals : ∀ first rest, requests = first ++ rest →
    IsDecimal (first.map (lineEstimate price)).sum

/-- The request that the line was. -/
def ParsedBatchLine.request (line : ParsedBatchLine) : BatchRequest :=
  ⟨line.customId, line.method, line.url, line.body⟩

theorem exactCost_estimate (price : String → ℚ) (request : BatchRequest) :
    ∃ before, exactCost price (estimateUsageFromRequest request) .chat
      = some ⟨before, wrappedEstimate price request⟩ := by
  rw [estimateUsage_eq]
  exact ⟨_, rfl⟩

section Loop

variable {P : Pricing} {pricingCatalog : String → Option Json} {price : String → String → ℚ}

theorem computeCost_estimate (hP : P.Documented) {requests : List BatchRequest} (hfits : EstimateFits price requests)
    {request : BatchRequest} (hmem : request ∈ requests) {pricing : Json}
    (hcatalog : pricingCatalog request.body.model = some pricing)
    (hprices : P.HasPrices pricing .chat (price request.body.model))
    (hplain : PlainPrices pricingCatalog price request) :
    ∃ cost, P.computeCost pricing .chat (estimateUsageFromRequest request) = some (some cost)
      ∧ cost.1 = lineEstimate price request := by
  obtain ⟨before, hexact⟩ := exactCost_estimate (price request.body.model) request
  obtain ⟨hbefore, hcost⟩ := hfits.costs request hmem _ hexact
  exact ⟨_, Pricing.computeCost_plain hP hprices (hplain pricing hcatalog) hexact hbefore hcost, rfl⟩

/-- Where no price has an exponent the loop adds a line for each request, with the cost of its counts. -/
theorem estimateLines_plain (hP : P.Documented) {requests : List BatchRequest} (first : List BatchRequest)
    (result : BatchParseResult) (hcatalog : P.PricesBatch pricingCatalog price requests)
    (hfits : EstimateFits price (first ++ requests))
    (hplain : ∀ request ∈ requests, PlainPrices pricingCatalog price request)
    (htotal : result.totalEstimatedCost.1 = (first.map (lineEstimate price)).sum) :
    ∃ lines total, estimateLines P pricingCatalog requests result = some (.ok ⟨result.lines ++ lines, total⟩)
      ∧ lines.map ParsedBatchLine.request = requests
      ∧ (lines.map fun line => line.estimatedCost.1) = requests.map (lineEstimate price)
      ∧ total.1 = ((first ++ requests).map (lineEstimate price)).sum := by
  induction requests generalizing first result with
  | nil => exact ⟨[], result.totalEstimatedCost, by simp [estimateLines], rfl, rfl, by simpa using htotal⟩
  | cons request requests ih =>
      obtain ⟨pricing, hmodel, hprices⟩ := hcatalog request List.mem_cons_self
      obtain ⟨cost, hcost, hvalue⟩ := computeCost_estimate hP hfits (List.mem_append_right _ List.mem_cons_self) hmodel
        hprices (hplain request List.mem_cons_self)
      have hsum : result.totalEstimatedCost.1 + cost.1 = ((first ++ [request]).map (lineEstimate price)).sum := by
        rw [htotal, hvalue, List.map_append, List.sum_append, List.map_singleton, List.sum_singleton]
      have hdecimal := hfits.totals (first ++ [request]) requests (List.append_cons ..)
      rw [← hsum] at hdecimal
      have hadd := P.decimal.add_exact _ _ hdecimal
      rw [List.append_cons] at hfits
      obtain ⟨lines, total, hlines, hrequests, hcosts, htotal'⟩ := ih (first ++ [request])
        ⟨result.lines ++ [⟨request.customId, request.method, request.url, request.body, cost⟩], ⟨_, hdecimal⟩⟩
        (fun r hr => hcatalog r (List.mem_cons_of_mem _ hr)) hfits
        (fun r hr => hplain r (List.mem_cons_of_mem _ hr)) hsum
      refine ⟨⟨request.customId, request.method, request.url, request.body, cost⟩ :: lines, total, ?_,
        congrArg (request :: ·) hrequests, ?_, ?_⟩
      · rw [estimateLines, hmodel]
        simp only [hcost, hadd, hlines, Option.bind_eq_bind, Option.bind_some, List.append_assoc, List.singleton_append]
      · rw [List.map_cons, List.map_cons, hcosts, hvalue]
      · rwa [List.append_cons]

/-- What the loop passed had prices without exponents. -/
theorem estimateLines_ok (hP : P.Documented) {requests : List BatchRequest} {result final : BatchParseResult}
    (hcatalog : P.PricesBatch pricingCatalog price requests)
    (h : estimateLines P pricingCatalog requests result = some (.ok final)) :
    ∀ request ∈ requests, PlainPrices pricingCatalog price request := by
  induction requests generalizing result with
  | nil => exact fun _ hmem => absurd hmem List.not_mem_nil
  | cons request requests ih =>
      obtain ⟨pricing, hmodel, hprices⟩ := hcatalog request List.mem_cons_self
      rw [estimateLines, hmodel] at h
      obtain ⟨priced, hpriced, h⟩ := Option.bind_eq_some_iff.1 h
      cases priced with
      | none => cases h
      | some cost =>
          obtain ⟨totalCost, -, h⟩ := Option.bind_eq_some_iff.1 h
          refine List.forall_mem_cons.2 ⟨?_, ih (fun r hr => hcatalog r (List.mem_cons_of_mem _ hr)) h⟩
          intro pricing' hmodel' key hkey hexponent
          rw [hmodel, Option.some_inj] at hmodel'
          subst hmodel'
          obtain ⟨v, hget, hv⟩ := hprices key hkey
          rw [Pricing.computeCost_missing hkey (Pricing.decimalField_exponent hP hget hv hexponent)] at hpriced
          cases hpriced

/-- One line per request in order, each with what it should cost and no less than nothing, and their sum. -/
structure BatchParseResult.Sane (price : String → String → ℚ) (requests : List BatchRequest)
    (result : BatchParseResult) : Prop where
  lines : result.lines.map ParsedBatchLine.request = requests
  costs : (result.lines.map fun line => line.estimatedCost.1)
    = requests.map fun request => exactEstimate (price request.body.model) request
  nonneg : ∀ line ∈ result.lines, 0 ≤ line.estimatedCost.1
  total : result.totalEstimatedCost.1 = (result.lines.map fun line => line.estimatedCost.1).sum

/-- The prices of the request are readable, its counts fit unless they cost nothing, and it does not ask for so many
    tokens below zero that the estimate is. -/
structure BatchRequest.Estimable (pricingCatalog : String → Option Json) (price : String → String → ℚ)
    (request : BatchRequest) : Prop where
  plain : PlainPrices pricingCatalog price request
  counted : request.CountedRight (price request.body.model)
  nonneg : 0 ≤ exactEstimate (price request.body.model) request

/-- What a sane estimate needs, also where the arithmetic rounds. -/
theorem BatchParseResult.Sane.needs (hP : P.Documented) {requests : List BatchRequest} {result : BatchParseResult}
    (hcatalog : P.PricesBatch pricingCatalog price requests)
    (hresult : estimateCost P pricingCatalog requests = some (.ok result)) (hsane : result.Sane price requests) :
    ∀ request ∈ requests, PlainPrices pricingCatalog price request
      ∧ 0 ≤ exactEstimate (price request.body.model) request := by
  intro request hmem
  refine ⟨estimateLines_ok hP hcatalog hresult request hmem, ?_⟩
  have hcost := List.mem_map_of_mem (f := fun request => exactEstimate (price request.body.model) request) hmem
  rw [← hsane.costs] at hcost
  obtain ⟨line, hline, hvalue⟩ := List.mem_map.1 hcost
  rw [← hvalue]
  exact hsane.nonneg line hline

/-- A sane estimate needs readable prices and no amount below zero; where nothing is rounded an estimate is sane
    exactly when every request of the batch can be estimated. -/
theorem estimateCost_sane_iff (hP : P.Documented) {requests : List BatchRequest}
    (hcatalog : P.PricesBatch pricingCatalog price requests) :
    ((∃ result, estimateCost P pricingCatalog requests = some (.ok result) ∧ result.Sane price requests) →
        ∀ request ∈ requests, PlainPrices pricingCatalog price request
          ∧ 0 ≤ exactEstimate (price request.body.model) request)
      ∧ (EstimateFits price requests →
        ((∃ result, estimateCost P pricingCatalog requests = some (.ok result) ∧ result.Sane price requests)
          ↔ ∀ request ∈ requests, request.Estimable pricingCatalog price)) := by
  refine ⟨fun ⟨result, hresult, hsane⟩ => hsane.needs hP hcatalog hresult, fun hfits => ?_⟩
  have hcounted : ∀ request ∈ requests, lineEstimate price request = exactEstimate (price request.body.model) request
      ↔ request.CountedRight (price request.body.model) := by
    intro request hmem
    obtain ⟨pricing, -, hprices⟩ := hcatalog request hmem
    obtain ⟨input, -, hinput⟩ := hprices "input_price_per_million" (by simp [priceKeys])
    obtain ⟨output, -, houtput⟩ := hprices "output_price_per_million" (by simp [priceKeys])
    exact wrappedEstimate_eq_iff hinput.nonneg houtput.nonneg request
  constructor
  · rintro ⟨result, hresult, hsane⟩
    have hneeds := hsane.needs hP hcatalog hresult
    obtain ⟨lines, total, hlines, -, hcosts, -⟩ := estimateLines_plain hP [] ⟨[], .zero⟩ hcatalog hfits
      (fun request hmem => (hneeds request hmem).1) rfl
    obtain rfl : result = ⟨[] ++ lines, total⟩ := by
      rw [estimateCost] at hresult
      exact Except.ok.inj (Option.some.inj (hresult.symm.trans hlines))
    have hexact := hcosts.symm.trans hsane.costs
    intro request hmem
    obtain ⟨hplain, hnonneg⟩ := hneeds request hmem
    exact ⟨hplain, (hcounted request hmem).1 (List.map_inj_left.1 hexact request hmem), hnonneg⟩
  · intro hall
    obtain ⟨lines, total, hlines, hrequests, hcosts, htotal⟩ := estimateLines_plain hP [] ⟨[], .zero⟩ hcatalog hfits
      (fun request hmem => (hall request hmem).plain) rfl
    have hexact : (lines.map fun line => line.estimatedCost.1)
        = requests.map fun request => exactEstimate (price request.body.model) request :=
      hcosts.trans (List.map_congr_left fun request hmem => (hcounted request hmem).2 (hall request hmem).counted)
    refine ⟨⟨[] ++ lines, total⟩, hlines, hrequests, hexact, fun line hline => ?_, ?_⟩
    · have hcost := List.mem_map_of_mem (f := fun line : ParsedBatchLine => line.estimatedCost.1) hline
      rw [List.nil_append, hexact] at hcost
      obtain ⟨request, hmem, hvalue⟩ := List.mem_map.1 hcost
      rw [← hvalue]
      exact (hall request hmem).nonneg
    · rw [htotal, List.nil_append, List.nil_append, hcosts]

end Loop

/-! ## Two batches of one line -/

theorem estimateFits_single {price : String → String → ℚ} {request : BatchRequest} {exact : ExactCost}
    (hexact : exactCost (price request.body.model) (estimateUsageFromRequest request) .chat = some exact)
    (hbefore : ∀ q ∈ exact.before, IsDecimal q) (hcost : IsDecimal exact.cost) : EstimateFits price [request] where
  costs r hr exact' hexact' := by
    rw [List.mem_singleton.1 hr, hexact, Option.some_inj] at hexact'
    rw [← hexact']
    exact ⟨hbefore, hcost⟩
  totals first rest hsplit := by
    cases first with
    | nil => exact ⟨0, by norm_num, by norm_num, by norm_num⟩
    | cons r first =>
        obtain ⟨rfl, hrest⟩ := List.cons.inj hsplit
        obtain ⟨rfl, -⟩ := List.append_eq_nil_iff.1 hrest.symm
        obtain ⟨before, hline⟩ := exactCost_estimate (price request.body.model) request
        rw [hexact, Option.some_inj] at hline
        rw [List.map_singleton, List.sum_singleton, lineEstimate]
        rwa [hline] at hcost

/-- Every model has the sample prices. -/
def chatCatalog : String → Option Json := fun _ => some chatPrices

theorem chatCatalog_pricesBatch (requests : List BatchRequest) :
    samplePricing.PricesBatch chatCatalog (fun _ => chatPrice) requests :=
  fun _ _ => ⟨chatPrices, rfl, chatPrices_hasPrices⟩

/-- A line with one message. -/
def helloLine : BatchRequest :=
  ⟨"req-1", "POST", "/v1/chat/completions",
    ⟨"gpt-4o", [.obj [("content", .str "Hello, how are you?"), ("role", .str "user")]], some 100⟩⟩

theorem estimateCost_sane_hello :
    ∃ result, estimateCost samplePricing chatCatalog [helloLine] = some (.ok result)
      ∧ result.Sane (fun _ => chatPrice) [helloLine] := by
  have hlengths : countedLengths helloLine = [19] := by decide +kernel
  have hexact : exactCost chatPrice (estimateUsageFromRequest helloLine) .chat
      = some ⟨[10, 1000, 1010], 101 / 100000⟩ := by decide +kernel
  refine ((estimateCost_sane_iff checked_documented (chatCatalog_pricesBatch _)).2
    (estimateFits_single hexact (by decide +kernel) (by decide +kernel))).2 fun request hrequest => ?_
  obtain rfl := List.mem_singleton.1 hrequest
  refine ⟨?_, .inl ?_, ?_⟩
  · rintro pricing - key hkey ⟨literal, -, hsize⟩
    rcases List.mem_cons.1 hkey with rfl | hkey
    · exact absurd hsize (by decide +kernel)
    · rw [List.mem_singleton.1 hkey] at hsize
      exact absurd hsize (by decide +kernel)
  · rw [hlengths]
    exact ⟨by decide, by decide⟩
  · rw [exactEstimate, exactCompletion, hlengths]
    decide +kernel

/-- A request for a thousand tokens below zero. -/
def refundRequest : Json :=
  .obj [("custom_id", .str "a"), ("method", .str "POST"), ("url", .str "/v1/chat/completions"),
    ("body", .obj [("model", .str "m"), ("messages", .arr []), ("max_tokens", .int (-1000))])]

theorem refundRequest_read : ((parseText refundRequest.print).bind decodeBatchRequest).map (fun request =>
      (validateRequest request, countedLengths request, request.body.maxTokens))
    = some (.ok (), [], some (-1000)) := by
  decide +kernel

/-- Its line costs less than nothing. -/
theorem refundLine_insane : ∃ requests, parseJsonl .plain (String.ofList refundRequest.print) = .ok requests
    ∧ samplePricing.PricesBatch chatCatalog (fun _ => chatPrice) requests ∧ EstimateFits (fun _ => chatPrice) requests
    ∧ ¬ ∃ result, estimateCost samplePricing chatCatalog requests = some (.ok result)
      ∧ result.Sane (fun _ => chatPrice) requests := by
  obtain ⟨request, hparse, hread⟩ := Option.map_eq_some_iff.1 refundRequest_read
  obtain ⟨hvalid, hcounts⟩ := Prod.mk.inj hread
  obtain ⟨hlengths, hmax⟩ := Prod.mk.inj hcounts
  have hline : '\n' ∉ refundRequest.print := Json.print_oneLine refundRequest (by decide)
  have hexact : exactCost chatPrice (estimateUsageFromRequest request) .chat
      = some ⟨[0, -10000, -10000], -1 / 100⟩ := by
    rw [estimateUsage_eq, hlengths, hmax]
    decide +kernel
  have hfits : EstimateFits (fun _ => chatPrice) [request] :=
    estimateFits_single hexact (by decide +kernel) (by decide +kernel)
  refine ⟨[request], parseJsonl_of_line hline (Json.trimmed_print_obj _) (List.cons_ne_nil _ _) hparse hvalid,
    chatCatalog_pricesBatch _, hfits, ?_⟩
  rintro ⟨result, hresult, hsane⟩
  obtain ⟨line, hline, hcost⟩ : ∃ line ∈ result.lines, line.estimatedCost.1 = exactEstimate chatPrice request := by
    have hcosts := hsane.costs
    have hmem : exactEstimate chatPrice request ∈ result.lines.map fun line => line.estimatedCost.1 := by
      rw [hcosts]
      exact List.mem_cons_self
    exact List.mem_map.1 hmem
  have hnonneg := hsane.nonneg line hline
  rw [hcost, exactEstimate, exactCompletion, hlengths, hmax] at hnonneg
  exact absurd hnonneg (by decide +kernel)

end Godwit
