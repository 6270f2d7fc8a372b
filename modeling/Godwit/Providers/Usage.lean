import Mathlib.Algebra.Order.Ring.Rat
import Mathlib.Tactic.NormNum
import Godwit.Db.Catalog

set_option autoImplicit false

/-! # Usage reports and their cost (`godwit-providers/src/usage.rs`)

Amounts are decimals of at most 28 places with a 96-bit coefficient. The arithmetic is that of the
decimal library: exact where the exact result is a decimal, and otherwise rounded or, when it is too
large, a panic. -/

namespace Godwit

/-! ## Decimals -/

/-- The value is an integer below `2 ^ 96` divided by a power of ten up to `10 ^ 28`. -/
def IsDecimal (q : ℚ) : Prop := ∃ s ≤ 28, (q * 10 ^ s).den = 1 ∧ (q * 10 ^ s).num.natAbs < 2 ^ 96

instance (q : ℚ) : Decidable (IsDecimal q) :=
  decidable_of_iff (∃ s < 29, (q * 10 ^ s).den = 1 ∧ (q * 10 ^ s).num.natAbs < 2 ^ 96) <| by
    simp only [IsDecimal, Nat.lt_succ_iff]

/-- A number that `rust_decimal` can hold. -/
abbrev Decimal := { q : ℚ // IsDecimal q }

theorem isDecimal_intCast {n : ℤ} (h : n.natAbs < 2 ^ 96) : IsDecimal n :=
  ⟨0, by norm_num, by simp, by simpa using h⟩

theorem isDecimal_of_scaled {q : ℚ} {s : ℕ} {n : ℤ} (hs : s ≤ 28) (h : q * 10 ^ s = n) (hn : n.natAbs < 2 ^ 96) :
    IsDecimal q :=
  ⟨s, hs, by rw [h, Rat.den_intCast], by rwa [h, Rat.num_intCast]⟩

/-- `Decimal::from`, for the integer types of the usage counts. -/
def Decimal.ofInt32 (n : Int32) : Decimal :=
  ⟨n.toInt, isDecimal_intCast (by have := n.toInt_lt; have := n.le_toInt; omega)⟩

/-- `Decimal::from`. -/
def Decimal.ofInt64 (n : Int64) : Decimal :=
  ⟨n.toInt, isDecimal_intCast (by have := n.toInt_lt; have := n.le_toInt; omega)⟩

/-- `Decimal::ZERO`. -/
def Decimal.zero : Decimal := ⟨(0 : ℤ), isDecimal_intCast (by norm_num)⟩

theorem Decimal.zero_val : Decimal.zero.1 = 0 := by simp [Decimal.zero]

/-- A million tokens. -/
def Decimal.million : Decimal := ⟨(1000000 : ℤ), isDecimal_intCast (by norm_num)⟩

/-- The operations of the decimal library that the program uses; `none` is a panic. -/
structure DecimalArith where
  add : Decimal → Decimal → Option Decimal
  mul : Decimal → Decimal → Option Decimal
  div : Decimal → Decimal → Option Decimal
  /-- `Decimal::from_str_exact`. -/
  fromStrExact : String → Option Decimal
  /-- `Decimal::from_f64_retain`, on the exact value of a finite float. -/
  fromF64Retain : ℚ → Option Decimal
  add_exact : ∀ a b (h : IsDecimal (a.1 + b.1)), add a b = some ⟨a.1 + b.1, h⟩
  mul_exact : ∀ a b (h : IsDecimal (a.1 * b.1)), mul a b = some ⟨a.1 * b.1, h⟩
  div_exact : ∀ a b (h : IsDecimal (a.1 / b.1)), b.1 ≠ 0 → div a b = some ⟨a.1 / b.1, h⟩

/-! ## Usage -/

/-- `UsageReport`. A floating-point count is its exact value, `none` inside when it is not finite. -/
structure UsageReport where
  promptTokens : Option Int32
  completionTokens : Option Int32
  imageCount : Option Int64
  audioSeconds : Option (Option ℚ)
  videoSeconds : Option (Option ℚ)
  ttsCharacters : Option Int64
  embeddingTokens : Option Int64
  cacheReadTokens : Option Int32
  cacheWriteTokens : Option Int32
  deriving DecidableEq, Repr

/-- `UsageReport::default`: nothing is known. -/
def UsageReport.default : UsageReport :=
  ⟨none, none, none, none, none, none, none, none, none⟩

/-! ## Cost -/

/-- The JSON printer and the decimal library. -/
structure Pricing where
  json : JsonCodec
  decimal : DecimalArith

namespace Pricing

variable (P : Pricing)

/-- `decimal_field`: a string is read as it is, anything else as it is printed. -/
def decimalField (pricing : Json) (key : String) : Option Decimal :=
  match pricing.get key with
  | none => none
  | some (.str s) => P.decimal.fromStrExact s
  | some value => P.decimal.fromStrExact (P.json.toString value)

/-- The costs below are `none` where the arithmetic panics, and `some none` where a price or a count
    is missing. -/
def computeChatCost (pricing : Json) (usage : UsageReport) : Option (Option Decimal) :=
  match P.decimalField pricing "input_price_per_million",
      P.decimalField pricing "output_price_per_million", usage.promptTokens,
      usage.completionTokens with
  | some inputPrice, some outputPrice, some promptTokens, some completionTokens => do
    let input ← P.decimal.mul (.ofInt32 promptTokens) inputPrice
    let output ← P.decimal.mul (.ofInt32 completionTokens) outputPrice
    let total ← P.decimal.add input output
    let cost ← P.decimal.div total .million
    some (some cost)
  | _, _, _, _ => some none

/-- A count times the price of one unit. -/
def unitCost (pricing : Json) (key : String) (count : Option Decimal) : Option (Option Decimal) :=
  match P.decimalField pricing key, count with
  | some price, some count => do
    let cost ← P.decimal.mul count price
    some (some cost)
  | _, _ => some none

/-- `compute_embedding_cost`. -/
def computeEmbeddingCost (pricing : Json) (usage : UsageReport) : Option (Option Decimal) :=
  match P.decimalField pricing "input_price_per_million", usage.embeddingTokens with
  | some inputPrice, some tokens => do
    let total ← P.decimal.mul (.ofInt64 tokens) inputPrice
    let cost ← P.decimal.div total .million
    some (some cost)
  | _, _ => some none

/-- `compute_image_cost`. -/
def computeImageCost (pricing : Json) (usage : UsageReport) : Option (Option Decimal) :=
  P.unitCost pricing "image_price_per_image" (usage.imageCount.map .ofInt64)

/-- `compute_audio_tts_cost`. -/
def computeAudioTtsCost (pricing : Json) (usage : UsageReport) : Option (Option Decimal) :=
  P.unitCost pricing "tts_price_per_character" (usage.ttsCharacters.map .ofInt64)

/-- `compute_audio_stt_cost`. -/
def computeAudioSttCost (pricing : Json) (usage : UsageReport) : Option (Option Decimal) :=
  P.unitCost pricing "stt_price_per_second"
    (usage.audioSeconds.bind fun seconds => seconds.bind P.decimal.fromF64Retain)

/-- `compute_cost`: the prices that the capability reads. -/
def computeCost (pricing : Json) (capability : Capability) (usage : UsageReport) :
    Option (Option Decimal) :=
  match capability with
  | .chat => P.computeChatCost pricing usage
  | .embedding => P.computeEmbeddingCost pricing usage
  | .imageGeneration => P.computeImageCost pricing usage
  | .imageEdit => P.computeImageCost pricing usage
  | .audioTts => P.computeAudioTtsCost pricing usage
  | .audioStt => P.computeAudioSttCost pricing usage
  | .videoGeneration => some none

end Pricing

end Godwit
