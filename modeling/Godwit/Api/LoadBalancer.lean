import Mathlib.Algebra.Order.Ring.Rat
import Mathlib.Order.WithBot
import Mathlib.Logic.Function.Basic
import Godwit.Core.Error

set_option autoImplicit false

/-! # Load balancing over replicas (`godwit-api/src/load_balancer.rs`)

The counters of a model id are created on first use, so the table is a total function that is fresh
where nothing was stored. The counters are 64-bit and wrap; the latency average is an exact
rational. -/

namespace Godwit

/-- The counters of a row. -/
structure LoadBalancerState where
  rrIndex : BitVec 64
  inFlight : BitVec 64
  latencyEwma : ℚ
  deriving DecidableEq, Repr

/-- A row that was never picked. -/
def LoadBalancerState.new : LoadBalancerState := ⟨0, 0, 0⟩

/-- `update_ewma`: the first measurement is taken as it is, later ones with weight 0.2. -/
def LoadBalancerState.updateEwma (s : LoadBalancerState) (durationMs : ℚ) : LoadBalancerState :=
  if s.latencyEwma = 0 then { s with latencyEwma := durationMs }
  else { s with latencyEwma := 1 / 5 * durationMs + 4 / 5 * s.latencyEwma }

/-- The counters of every row. -/
abbrev LoadBalancer := Uuid → LoadBalancerState

/-- `LoadBalancer::new`. -/
def LoadBalancer.new : LoadBalancer := fun _ => .new

/-- The three ways to pick a replica. -/
inductive LoadBalanceStrategy where
  | roundRobin
  | leastBusy
  | latency
  deriving DecidableEq, Repr

/-- The loop of `LeastBusy` and `Latency` from index `i` on: the first index with the least key,
    `minIdx` when no key is below `least`. -/
def firstLeast {κ : Type} [LT κ] [DecidableLT κ] (key : Uuid → κ) :
    List Uuid → Nat → Nat → κ → Nat
  | [], _, minIdx, _ => minIdx
  | id :: rest, i, minIdx, least =>
    if key id < least then firstLeast key rest (i + 1) i (key id)
    else firstLeast key rest (i + 1) minIdx least

/-- `select_provider`. Round robin counts on the first id's entry. -/
def LoadBalancer.selectProvider (lb : LoadBalancer) (strategy : LoadBalanceStrategy)
    (modelIds : List Uuid) : Option Nat × LoadBalancer :=
  match modelIds with
  | [] => (none, lb)
  | first :: _ =>
    match strategy with
    | .roundRobin =>
      let state := lb first
      (some (state.rrIndex.toNat % modelIds.length),
        Function.update lb first { state with rrIndex := state.rrIndex + 1 })
    | .leastBusy =>
      (some (firstLeast (fun id => (lb id).inFlight) modelIds 0 0 (BitVec.allOnes 64)), lb)
    | .latency =>
      -- the start value is the infinite one
      (some (firstLeast (fun id => ((lb id).latencyEwma : WithTop ℚ)) modelIds 0 0 ⊤), lb)

/-- `increment_in_flight`: the counter wraps at 64 bits. -/
def LoadBalancer.incrementInFlight (lb : LoadBalancer) (modelId : Uuid) : LoadBalancer :=
  Function.update lb modelId { lb modelId with inFlight := (lb modelId).inFlight + 1 }

/-- The drop of an in-flight guard. -/
def LoadBalancer.releaseInFlight (lb : LoadBalancer) (modelId : Uuid) : LoadBalancer :=
  Function.update lb modelId { lb modelId with inFlight := (lb modelId).inFlight - 1 }

/-- `record_latency`. -/
def LoadBalancer.recordLatency (lb : LoadBalancer) (modelId : Uuid) (durationMs : ℚ) :
    LoadBalancer :=
  Function.update lb modelId ((lb modelId).updateEwma durationMs)

end Godwit
