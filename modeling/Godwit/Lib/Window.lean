import Mathlib.Algebra.Order.Field.Basic
import Mathlib.Tactic.GCongr
import Mathlib.Tactic.Linarith
import Mathlib.Tactic.Positivity
import Mathlib.Tactic.Ring

set_option autoImplicit false

/-! # What a refilled store gives in a window

A store holds at most `limit` and is refilled by `limit` in each `period`. Whatever is taken from it in a
window of time is paid for by what it held when the window began and by the refill of the window: the
potential below is what it can still give, waiting does not raise it, and taking lowers it by what is
taken. -/

namespace Godwit

variable {K : Type} [Field K] [LinearOrder K] [IsStrictOrderedRing K]

section Potential

variable {limit period available available' clock now x T : K}

/-- What a store that holds `available` at `clock` can still give in `[x, x + T]`: nothing after the
    window; inside it what is there and the refill to come; before it a full store and the refill of the
    whole window. -/
def windowPotential (limit period available clock x T : K) : K :=
  if x + T < clock then 0
  else if x ≤ clock then available + limit * (x + T - clock) / period
  else limit + limit * T / period

theorem windowPotential_nonneg (hlimit : 0 ≤ limit) (hperiod : 0 < period) (hT : 0 ≤ T)
    (hpos : 0 ≤ available) : 0 ≤ windowPotential limit period available clock x T := by
  unfold windowPotential
  split_ifs with hafter hin
  · exact le_rfl
  · have hrest : 0 ≤ x + T - clock := by linarith
    positivity
  · positivity

theorem windowPotential_le (hlimit : 0 ≤ limit) (hperiod : 0 < period) (hT : 0 ≤ T)
    (hle : available ≤ limit) :
    windowPotential limit period available clock x T ≤ limit + limit * T / period := by
  unfold windowPotential
  split_ifs with hafter hin
  · positivity
  · have hrest : limit * (x + T - clock) / period ≤ limit * T / period := by
      have hwithin : x + T - clock ≤ T := by linarith
      gcongr
    linarith
  · exact le_rfl

/-- Waiting does not raise the potential, if it adds no more than the refill. -/
theorem windowPotential_advance (hlimit : 0 ≤ limit) (hperiod : 0 < period) (hT : 0 ≤ T)
    (hpos : 0 ≤ available) (hfull : available' ≤ limit) (hlater : clock ≤ now)
    (hrefill : available' ≤ available + limit * (now - clock) / period) :
    windowPotential limit period available' now x T ≤ windowPotential limit period available clock x T := by
  by_cases hin : x ≤ clock
  · by_cases hafter : x + T < now
    · rw [windowPotential, if_pos hafter]
      exact windowPotential_nonneg hlimit hperiod hT hpos
    · -- Inside the window the refill moves from the rest of the window into the store.
      rw [windowPotential, windowPotential, if_neg hafter, if_pos (hin.trans hlater), if_neg (by linarith),
        if_pos hin]
      have hsplit : limit * (x + T - clock) / period
          = limit * (now - clock) / period + limit * (x + T - now) / period := by ring
      linarith
  · refine (windowPotential_le hlimit hperiod hT hfull).trans ?_
    rw [windowPotential, if_neg (by linarith), if_neg hin]

/-- What is taken inside the window is paid for by the potential. -/
theorem windowPotential_take (limit period available clock x T taken : K) :
    (if x ≤ clock ∧ clock ≤ x + T then taken else 0)
        + windowPotential limit period (available - taken) clock x T
      ≤ windowPotential limit period available clock x T := by
  unfold windowPotential
  by_cases hafter : x + T < clock
  · rw [if_pos hafter, if_pos hafter, if_neg (fun hin => by linarith [hin.2])]
    simp
  · rw [if_neg hafter, if_neg hafter]
    by_cases hin : x ≤ clock
    · rw [if_pos hin, if_pos hin, if_pos ⟨hin, not_lt.1 hafter⟩]
      linarith
    · rw [if_neg hin, if_neg hin, if_neg (fun hwindow => hin hwindow.1), zero_add]

end Potential

/-! ## Runs -/

/-- A machine with a store in it: `available` is what the store holds when it is looked at, `taken` what
    an event takes out of it. -/
structure RefilledStore (K σ ε : Type) [Field K] [LinearOrder K] where
  limit : K
  period : K
  step : σ → ε → σ
  time : ε → K
  available : σ → K → K
  taken : σ → ε → K
  Valid : σ → Prop
  Allowed : ε → Prop
  limit_nonneg : 0 ≤ limit
  period_pos : 0 < period
  valid_step : ∀ {s e}, Valid s → Allowed e → Valid (step s e)
  available_nonneg : ∀ {s t}, Valid s → 0 ≤ available s t
  available_le : ∀ {s t}, Valid s → available s t ≤ limit
  available_advance : ∀ {s t t'}, Valid s → t ≤ t' →
    available s t' ≤ available s t + limit * (t' - t) / period
  available_step : ∀ {s e}, Valid s → Allowed e →
    available (step s e) (time e) = available s (time e) - taken s e

namespace RefilledStore

variable {σ ε : Type} (m : RefilledStore K σ ε)

/-- What a run takes out of the store in `[x, x + T]`. -/
def takenWithin (s : σ) (x T : K) : List ε → K
  | [] => 0
  | e :: rest =>
    (if x ≤ m.time e ∧ m.time e ≤ x + T then m.taken s e else 0) + takenWithin (m.step s e) x T rest

theorem takenWithin_le_potential {x T : K} (hT : 0 ≤ T) (events : List ε)
    (hallowed : ∀ e ∈ events, m.Allowed e) {s : σ} (hvalid : m.Valid s) {clock : K}
    (hordered : (clock :: events.map m.time).Pairwise (· ≤ ·)) :
    m.takenWithin s x T events
      ≤ windowPotential m.limit m.period (m.available s clock) clock x T := by
  induction events generalizing s clock with
  | nil => exact windowPotential_nonneg m.limit_nonneg m.period_pos hT (m.available_nonneg hvalid)
  | cons e rest ih =>
      obtain ⟨hlater, hrest⟩ := List.pairwise_cons.1 hordered
      have he := hallowed e List.mem_cons_self
      have hpaid := ih (fun e' he' => hallowed e' (List.mem_cons_of_mem _ he')) (m.valid_step hvalid he) hrest
      rw [m.available_step hvalid he] at hpaid
      have htake := windowPotential_take m.limit m.period (m.available s (m.time e)) (m.time e) x T
        (m.taken s e)
      have hnow : clock ≤ m.time e := hlater _ List.mem_cons_self
      have hwait := windowPotential_advance (x := x) m.limit_nonneg m.period_pos hT
        (m.available_nonneg hvalid) (m.available_le hvalid) hnow (m.available_advance hvalid hnow)
      rw [takenWithin]
      linarith

/-- A run takes at most the limit and the refill of the window. -/
theorem takenWithin_le {x T : K} (hT : 0 ≤ T) (events : List ε)
    (hallowed : ∀ e ∈ events, m.Allowed e) {s : σ} (hvalid : m.Valid s)
    (hordered : (events.map m.time).Pairwise (· ≤ ·)) :
    m.takenWithin s x T events ≤ m.limit + m.limit * T / m.period := by
  cases events with
  | nil =>
      have hlimit := m.limit_nonneg
      have hperiod := m.period_pos
      rw [takenWithin]
      positivity
  | cons e rest =>
      have hclock : (m.time e :: (e :: rest).map m.time).Pairwise (· ≤ ·) := by
        refine List.pairwise_cons.2 ⟨fun t ht => ?_, hordered⟩
        rcases List.mem_cons.1 ht with rfl | ht
        · exact le_rfl
        · exact (List.pairwise_cons.1 hordered).1 t ht
      exact (m.takenWithin_le_potential hT (e :: rest) hallowed hvalid hclock).trans
        (windowPotential_le m.limit_nonneg m.period_pos hT (m.available_le hvalid))

end RefilledStore

end Godwit
