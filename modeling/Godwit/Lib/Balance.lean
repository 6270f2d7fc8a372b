import Mathlib.Logic.Function.Basic
import Mathlib.Order.Nat

set_option autoImplicit false

/-! # Placing items in the least loaded bin

Several parties place items in bins. Each looks at the loads, aims at a bin that it saw to be the least loaded and
places its item there later, when the loads may have grown. `Levelled` bounds each load, with the items that are on
their way to it, by every level that some bin has not passed; so the loads stay within as many items of one another as
there are parties at a time. `aims b level` counts the parties that aim at the bin `b`, having seen a load of `level`
or less in it. -/

section

variable {β : Type} {bins : List β} {parties : ℕ} {load : β → ℕ} {aims aims' : β → ℕ → ℕ}

/-- A level that the load of some bin has not passed. -/
def OpenLevel (bins : List β) (load : β → ℕ) (level : ℕ) : Prop := ∃ m ∈ bins, load m ≤ level

/-- The load of a bin, with those that aim at it from an open level, is at most the parties above that level. -/
def Levelled (bins : List β) (parties : ℕ) (load : β → ℕ) (aims : β → ℕ → ℕ) : Prop :=
  ∀ b ∈ bins, ∀ level, OpenLevel bins load level → load b + aims b level ≤ level + parties

namespace Levelled

/-- Loads that are within the bound, and nothing on its way. -/
theorem start (hload : ∀ b ∈ bins, ∀ m ∈ bins, load b ≤ load m + parties) :
    Levelled bins parties load fun _ _ => 0 := by
  rintro b hb level ⟨m, hm, hlevel⟩
  exact (hload b hb m hm).trans (Nat.add_le_add_right hlevel _)

theorem spread (h : Levelled bins parties load aims) {b m : β} (hb : b ∈ bins) (hm : m ∈ bins) :
    load b ≤ load m + parties := by
  have hbound := h b hb (load m) ⟨m, hm, le_rfl⟩
  omega

/-- A party aims at the bin `bin` at the load that it sees there, or nobody aims at anything new. -/
theorem aim (h : Levelled bins parties load aims) (bin : β)
    (haims : ∀ b ∈ bins, ∀ level, OpenLevel bins load level →
      aims' b level ≤ aims b level ∨ b = bin ∧ load bin ≤ level ∧ aims' b level ≤ parties) :
    Levelled bins parties load aims' := by
  intro b hb level hopen
  rcases haims b hb level hopen with hle | ⟨rfl, hlevel, hparties⟩
  · exact (Nat.add_le_add_left hle _).trans (h b hb level hopen)
  · exact Nat.add_le_add hlevel hparties

/-- A party that aims at no new bin. -/
theorem mono (h : Levelled bins parties load aims)
    (haims : ∀ b ∈ bins, ∀ level, OpenLevel bins load level → aims' b level ≤ aims b level) :
    Levelled bins parties load aims' := by
  intro b hb level hopen
  exact (Nat.add_le_add_left (haims b hb level hopen) _).trans (h b hb level hopen)

/-- A party places its item in the bin that it aims at. -/
theorem place [DecidableEq β] (h : Levelled bins parties load aims) (bin : β) {load' : β → ℕ}
    (hload : ∀ b, load' b = load b + if b = bin then 1 else 0)
    (haims : ∀ b level, aims' b level + (if b = bin then 1 else 0) ≤ aims b level) :
    Levelled bins parties load' aims' := by
  rintro b hb level ⟨m, hm, hlevel⟩
  have hopen : OpenLevel bins load level := ⟨m, hm, by rw [hload] at hlevel; omega⟩
  have hbefore := h b hb level hopen
  have hplaced := haims b level
  rw [hload]
  omega

end Levelled

end
