import Mathlib.Algebra.Order.Floor.Ring
import Mathlib.Algebra.Order.Field.Basic
import Mathlib.Tactic.Linarith

set_option autoImplicit false

/-! # Rounding to the nearest integer, ties to even -/

namespace Godwit

variable {α : Type*} [Field α] [LinearOrder α] [IsStrictOrderedRing α] [FloorRing α]

/-- The nearest integer, and the even one of two that are as near. -/
def roundHalfEven (x : α) : ℤ :=
  if 2 * Int.fract x < 1 then ⌊x⌋
  else if 1 < 2 * Int.fract x then ⌊x⌋ + 1
  else if Even ⌊x⌋ then ⌊x⌋ else ⌊x⌋ + 1

omit [IsStrictOrderedRing α] in
theorem floor_le_roundHalfEven (x : α) : ⌊x⌋ ≤ roundHalfEven x := by
  unfold roundHalfEven
  split_ifs <;> omega

omit [IsStrictOrderedRing α] in
theorem roundHalfEven_le_floor_add_one (x : α) : roundHalfEven x ≤ ⌊x⌋ + 1 := by
  unfold roundHalfEven
  split_ifs <;> omega

@[simp] theorem roundHalfEven_intCast (n : ℤ) : roundHalfEven (n : α) = n := by
  simp [roundHalfEven]

theorem roundHalfEven_mono {x y : α} (h : x ≤ y) : roundHalfEven x ≤ roundHalfEven y := by
  rcases (Int.floor_mono h).lt_or_eq with hlt | heq
  · calc roundHalfEven x ≤ ⌊x⌋ + 1 := roundHalfEven_le_floor_add_one x
      _ ≤ ⌊y⌋ := hlt
      _ ≤ roundHalfEven y := floor_le_roundHalfEven y
  · have hfract : Int.fract x ≤ Int.fract y := by
      rw [Int.fract, Int.fract, heq]
      exact sub_le_sub_right h _
    unfold roundHalfEven
    rw [heq]
    split_ifs <;> first | omega | (exfalso; linarith)

/-- What is past the middle is rounded up. -/
theorem lt_roundHalfEven {x : α} {n : ℤ} (h : 2 * (n : α) + 1 < 2 * x) : n < roundHalfEven x := by
  have hfloor : n ≤ ⌊x⌋ := Int.le_floor.2 (by linarith)
  rcases hfloor.lt_or_eq with hlt | rfl
  · exact hlt.trans_le (floor_le_roundHalfEven x)
  · have hfract : 1 < 2 * Int.fract x := by
      rw [Int.fract]
      linarith
    rw [roundHalfEven, if_neg hfract.not_gt, if_pos hfract]
    omega

/-- What is rounded up is not before the middle. -/
theorem le_of_lt_roundHalfEven {x : α} {n : ℤ} (h : n < roundHalfEven x) : 2 * (n : α) + 1 ≤ 2 * x := by
  have hfloor : n ≤ ⌊x⌋ := by
    have hround := roundHalfEven_le_floor_add_one x
    omega
  rcases hfloor.lt_or_eq with hlt | rfl
  · have hle : ((n + 1 : ℤ) : α) ≤ x := Int.le_floor.1 hlt
    push_cast at hle
    linarith
  · by_contra hbefore
    have hfract : 2 * Int.fract x < 1 := by
      rw [Int.fract]
      linarith
    rw [roundHalfEven, if_pos hfract] at h
    exact h.false

end Godwit
