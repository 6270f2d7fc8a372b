import Mathlib.Algebra.Order.Ring.Rat

set_option autoImplicit false

/-! # The monotonic clock

`Instant` of the standard library, with exact rationals for its seconds. -/

namespace Godwit

/-- A reading of the monotonic clock, in seconds. -/
abbrev Instant := ℚ

/-- `Instant::duration_since`, which saturates at zero. -/
def durationSince (now earlier : Instant) : ℚ := max 0 (now - earlier)

end Godwit
