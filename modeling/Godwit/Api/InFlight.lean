import Godwit.Api.ModelRouter

set_option autoImplicit false

/-! # The guards of the in-flight counters (`godwit-api/src/load_balancer.rs`, `model_router.rs`)

`increment_in_flight` counts a call and returns a guard whose drop takes the count back. `resolve` makes
the guard before it reads the credentials and looks the adapter up, so a guard also goes when one of these
fails. A guard that is returned lives in the resolved model until that is dropped, or until `take` moves it
out. Every guard holds a reference to the entry of its id, of which the table holds one. -/

namespace Godwit

/-- `isize::MAX`: a clone of an `Arc` that has more references than this aborts the process. -/
def maxRefcount : Nat := 2 ^ 63 - 1

/-- The drop of a guard, where there is one. -/
def LoadBalancer.dropGuard (lb : LoadBalancer) (guard : Option Uuid) : LoadBalancer :=
  guard.elim lb lb.releaseInFlight

/-- `resolve` with its guard, from the references to each entry; nothing comes back from a process that
    aborts. (A look at a counter clones the entry for a moment too; that it may abort is left out, which
    allows more runs.) -/
def DbModelRouter.resolveGuarded (r : DbModelRouter) (lb : LoadBalancer) (strongCount : Uuid → Nat)
    (modelRef : String) (capability : Capability) :
    Option (Except PasteurError ResolvedModel × LoadBalancer) :=
  match r.chooseRow lb modelRef capability with
  | (.error e, lb) => some (.error e, lb)
  | (.ok (model, profile), lb) =>
    if !model.hasCapability capability then
      some (.error (.validation
        ("model " ++ model.publicId ++ " does not support " ++ capability.asStr)), lb)
    else if model.id ≠ Uuid.nil ∧ maxRefcount < strongCount model.id then none
    else
      let inFlight := if model.id = Uuid.nil then none else some model.id
      let lb := inFlight.elim lb lb.incrementInFlight
      match r.resolveCredentials profile with
      | .error e => some (.error e, lb.dropGuard inFlight)
      | .ok credentials =>
        if profile.protocol ∈ r.registry then
          some (.ok ⟨model, profile, credentials, profile.protocol, inFlight⟩, lb)
        else
          some (.error (.provider ("unknown protocol: " ++ profile.protocol)), lb.dropGuard inFlight)

/-! ## Runs -/

/-- The balancer, the resolved models that are alive, and the guards that were moved out of one. -/
structure RouterWorld where
  lb : LoadBalancer
  resolved : List ResolvedModel
  guards : List Uuid

/-- Before the first call. -/
def RouterWorld.new : RouterWorld := ⟨.new, [], []⟩

/-- The ids of the guards that are alive. -/
def RouterWorld.liveGuards (w : RouterWorld) : List Uuid :=
  w.resolved.filterMap ResolvedModel.inFlight ++ w.guards

/-- References to the entry of an id. -/
def RouterWorld.strongCount (w : RouterWorld) (id : Uuid) : Nat := w.liveGuards.count id + 1

/-- What happens to the router and to what it returned. The catalog and the registry are those at the time
    of a call. -/
inductive RouterEvent where
  | resolve (r : DbModelRouter) (modelRef : String) (capability : Capability)
  | recordLatency (modelId : Uuid) (durationMs : ℚ)
  /-- `resolved.in_flight.take()`. -/
  | takeGuard (i : Nat)
  | dropResolved (i : Nat)
  | dropGuard (i : Nat)

/-- The step of an event, if it can happen. -/
def RouterWorld.step (w : RouterWorld) : RouterEvent → Option RouterWorld
  | .resolve r modelRef capability =>
    match r.resolveGuarded w.lb w.strongCount modelRef capability with
    | none => none
    | some (.error _, lb) => some { w with lb }
    | some (.ok resolved, lb) => some { w with lb, resolved := resolved :: w.resolved }
  | .recordLatency modelId durationMs => some { w with lb := w.lb.recordLatency modelId durationMs }
  | .takeGuard i =>
    match w.resolved[i]? with
    | none => some w
    | some resolved =>
      some { w with
        resolved := w.resolved.set i { resolved with inFlight := none }
        guards := resolved.inFlight.toList ++ w.guards }
  | .dropResolved i =>
    match w.resolved[i]? with
    | none => some w
    | some resolved =>
      some { w with lb := w.lb.dropGuard resolved.inFlight, resolved := w.resolved.eraseIdx i }
  | .dropGuard i =>
    match w.guards[i]? with
    | none => some w
    | some guard => some { w with lb := w.lb.releaseInFlight guard, guards := w.guards.eraseIdx i }

/-- The state after the events, if each of them can happen. -/
def RouterWorld.run (w : RouterWorld) : List RouterEvent → Option RouterWorld
  | [] => some w
  | e :: rest => (w.step e).bind fun w => w.run rest

/-! ## `LeastBusy` under concurrent calls

Calls of `resolve` for one bare id run at the same time. Each looks at one counter after the other, then waits for
the profile of the row that it has selected, and only then counts itself. No step of a call sees or stops another
one, so a selection may be out of date when it is counted. -/

/-- Where a call of `resolve` stands: in the loop of `select_provider` before the id at `i`, at the profile of the
    row that it has selected, with a guard, or done without one. A row with the nil id gets no guard. -/
inductive Resolver where
  | selecting (i minIdx : Nat) (minInFlight : BitVec 64)
  | selected (modelId : Uuid)
  | guarded (modelId : Uuid)
  | done
  deriving DecidableEq, Repr

/-- The balancer's rows and the calls that are under way. -/
structure BusyWorld where
  lb : LoadBalancer
  resolvers : List Resolver

/-- Before the first call. -/
def BusyWorld.new : BusyWorld := ⟨.new, []⟩

/-- References to the entry of an id. -/
def BusyWorld.strongCount (w : BusyWorld) (id : Uuid) : Nat := w.resolvers.count (.guarded id) + 1

/-- What the runtime may do next. -/
inductive BusyEvent where
  /-- A call begins. -/
  | resolve
  /-- The call at an index takes its next step. -/
  | advance (t : Nat)
  /-- The profile of the selected row is missing or disabled, or the row lacks the capability. -/
  | fail (t : Nat)
  deriving DecidableEq, Repr

/-- A call in its next phase. -/
def BusyWorld.setResolver (w : BusyWorld) (t : Nat) (r : Resolver) : BusyWorld :=
  { w with resolvers := w.resolvers.set t r }

/-- The next step of the call at an index. A clone of an entry that has too many references aborts. -/
def BusyWorld.advance (ids : List Uuid) (w : BusyWorld) (t : Nat) : Option BusyWorld :=
  match w.resolvers[t]? with
  | some (.selecting i minIdx minInFlight) =>
    match ids[i]? with
    | some id =>
      let inFlight := (w.lb id).inFlight
      if inFlight < minInFlight then some (w.setResolver t (.selecting (i + 1) i inFlight))
      else some (w.setResolver t (.selecting (i + 1) minIdx minInFlight))
    | none => some (w.setResolver t ((ids[minIdx]?).elim .done .selected))
  | some (.selected modelId) =>
    if modelId = Uuid.nil then some (w.setResolver t .done)
    else if maxRefcount < w.strongCount modelId then none
    else some { w.setResolver t (.guarded modelId) with lb := w.lb.incrementInFlight modelId }
  | _ => some w

/-- The calls are for the rows with these ids. -/
def BusyWorld.step (ids : List Uuid) (w : BusyWorld) : BusyEvent → Option BusyWorld
  | .resolve =>
    some { w with resolvers := w.resolvers ++ [.selecting 0 0 (BitVec.allOnes 64)] }
  | .advance t => w.advance ids t
  | .fail t =>
    match w.resolvers[t]? with
    | some (.selected _) => some (w.setResolver t .done)
    | _ => some w

/-- The state after the events, if each of them can happen. -/
def BusyWorld.run (ids : List Uuid) (w : BusyWorld) : List BusyEvent → Option BusyWorld
  | [] => some w
  | e :: rest => (w.step ids e).bind fun w => w.run ids rest

/-- A call that has begun and neither has a guard nor is done. -/
def Resolver.inProgress : Resolver → Bool
  | .selecting _ _ _ => true
  | .selected _ => true
  | .guarded _ => false
  | .done => false

/-- How many calls run at the same time. -/
def BusyWorld.inProgress (w : BusyWorld) : Nat := w.resolvers.countP Resolver.inProgress

end Godwit
