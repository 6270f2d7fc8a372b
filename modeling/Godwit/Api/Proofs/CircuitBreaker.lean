import Mathlib.Data.Nat.SuccPred
import Mathlib.Tactic.Linarith
import Godwit.Api.CircuitBreaker

set_option autoImplicit false

/-! # The circuit breaker as an automaton

`BreakerPhase` is the automaton a breaker is meant to be: a count of failures, or the time of the last
one, or a count of probes. The counters of `CircuitBreaker` hold exactly these numbers in the states where
they matter, and what the automaton does is told by the history of calls alone. -/

namespace Godwit

/-! ## The automaton -/

/-- The three numbers of the automaton. -/
structure BreakerConfig where
  threshold : Nat
  timeout : ℚ
  halfOpenMax : Nat

/-- The timeout has passed since a failure. -/
def BreakerConfig.due (config : BreakerConfig) (since now : Instant) : Bool :=
  decide (config.timeout ≤ durationSince now since)

/-- The states of the automaton, each with what it counts. -/
inductive BreakerPhase where
  | closed (failures : Nat)
  | opened (since : Instant)
  | halfOpen (admitted : Nat)

/-- The state that is shown. -/
def BreakerPhase.state : BreakerPhase → CircuitState
  | .closed _ => .closed
  | .opened _ => .opened
  | .halfOpen _ => .halfOpen

/-- Time that passes ends an open phase. -/
def BreakerPhase.wait (config : BreakerConfig) (now : Instant) : BreakerPhase → BreakerPhase
  | .opened since => if config.due since now then .halfOpen 0 else .opened since
  | phase => phase

/-- Whether a call may go through, and the phase after the question. -/
def BreakerPhase.ask (config : BreakerConfig) (later : Instant) : BreakerPhase → Bool × BreakerPhase
  | .closed failures => (true, .closed failures)
  | .opened since => (config.due since later, .opened since)
  | .halfOpen admitted =>
    if admitted < config.halfOpenMax then (true, .halfOpen (admitted + 1)) else (false, .halfOpen admitted)

/-- A success was recorded. -/
def BreakerPhase.succeed : BreakerPhase → BreakerPhase
  | .closed _ => .closed 0
  | .opened since => .opened since
  | .halfOpen _ => .closed 0

/-- A failure was recorded. -/
def BreakerPhase.fail (config : BreakerConfig) (now : Instant) : BreakerPhase → BreakerPhase
  | .closed failures =>
    if config.threshold ≤ failures + 1 then .opened now else .closed (failures + 1)
  | .opened _ => .opened now
  | .halfOpen _ => .opened now

/-- The automaton's answer to a call. -/
def BreakerPhase.step (config : BreakerConfig) (phase : BreakerPhase) (c : BreakerCall) :
    BreakerReply × BreakerPhase :=
  match c.op with
  | .state => (.state (phase.wait config c.now).state, phase.wait config c.now)
  | .canExecute =>
    let (answer, phase) := (phase.wait config c.now).ask config c.later
    (.admitted answer, phase)
  | .recordSuccess => (.recorded, phase.succeed)
  | .recordFailure => (.recorded, phase.fail config c.now)

/-- The automaton's answers to a sequence of calls. -/
def BreakerPhase.run (config : BreakerConfig) (phase : BreakerPhase) : List BreakerCall → List BreakerStep
  | [] => []
  | c :: rest =>
    ⟨c, phase.state, (phase.step config c).1, (phase.step config c).2.state⟩
      :: (phase.step config c).2.run config rest

/-! ## The breaker refines it -/

/-- The configuration of a breaker. -/
def CircuitBreaker.config (cb : CircuitBreaker) : BreakerConfig :=
  ⟨cb.threshold.toNat, cb.timeout, cb.halfOpenMax.toNat⟩

/-- The phase that the counters stand for. -/
def CircuitBreaker.phase (cb : CircuitBreaker) : BreakerPhase :=
  match cb.state with
  | .closed => .closed cb.failures.toNat
  | .opened => .opened (cb.lastFailure.getD 0)
  | .halfOpen => .halfOpen cb.halfOpenRequests.toNat

section Phase

variable {cb : CircuitBreaker}

theorem CircuitBreaker.phase_closed (h : cb.state = .closed) : cb.phase = .closed cb.failures.toNat := by
  rw [CircuitBreaker.phase, h]

theorem CircuitBreaker.phase_opened (h : cb.state = .opened) : cb.phase = .opened (cb.lastFailure.getD 0) := by
  rw [CircuitBreaker.phase, h]

theorem CircuitBreaker.phase_halfOpen (h : cb.state = .halfOpen) :
    cb.phase = .halfOpen cb.halfOpenRequests.toNat := by
  rw [CircuitBreaker.phase, h]

@[simp] theorem CircuitBreaker.phase_state (cb : CircuitBreaker) : cb.phase.state = cb.state := by
  unfold CircuitBreaker.phase
  cases cb.state <;> rfl

theorem CircuitBreaker.timedOut_eq (cb : CircuitBreaker) (last now : Instant) :
    cb.timedOut last now = cb.config.due last now :=
  decide_eq_decide.2 Iff.rfl

end Phase

/-- An open breaker knows its last failure, and slots are taken only while it is half open. -/
structure CircuitBreaker.Ready (cb : CircuitBreaker) : Prop where
  known : cb.state = .opened → ∃ last, cb.lastFailure = some last
  free : cb.state ≠ .halfOpen → cb.halfOpenRequests = 0
  quota : cb.halfOpenRequests.toNat ≤ cb.halfOpenMax.toNat

/-- A closed breaker is below its threshold. -/
def CircuitBreaker.BelowThreshold (cb : CircuitBreaker) : Prop :=
  cb.state = .closed → cb.failures.toNat < cb.threshold.toNat

theorem CircuitBreaker.new_ready (threshold : BitVec 64) (timeout : ℚ≥0) (halfOpenMax : BitVec 64) :
    (CircuitBreaker.new threshold timeout halfOpenMax).Ready where
  known h := by cases h
  free _ := rfl
  quota := Nat.zero_le _

/-- A counter below another one does not wrap. -/
theorem toNat_succ_of_lt {a b : BitVec 64} (h : a.toNat < b.toNat) : (a + 1).toNat = a.toNat + 1 := by
  have hbound := b.isLt
  rw [BitVec.toNat_add, show (1 : BitVec 64).toNat = 1 from rfl]
  omega

section Step

variable {cb : CircuitBreaker}

/-- What a look at the state finds and leaves. -/
theorem CircuitBreaker.stateAt_cases (h : cb.Ready) (now : Instant) :
    (∃ last, cb.state = .opened ∧ cb.lastFailure = some last ∧ cb.config.due last now = true
        ∧ cb.stateAt now = (.halfOpen, { cb with state := .halfOpen }))
      ∨ cb.stateAt now = (cb.state, cb)
        ∧ ∀ last, cb.state = .opened → cb.lastFailure = some last → cb.config.due last now = false := by
  unfold CircuitBreaker.stateAt
  cases hstate : cb.state with
  | closed => exact .inr ⟨rfl, nofun⟩
  | halfOpen => exact .inr ⟨rfl, nofun⟩
  | opened =>
      obtain ⟨last, hlast⟩ := h.known hstate
      simp only [hlast, CircuitBreaker.timedOut_eq]
      by_cases hdue : cb.config.due last now = true
      · exact .inl ⟨last, trivial, rfl, hdue, by rw [if_pos hdue]⟩
      · refine .inr ⟨by rw [if_neg hdue], ?_⟩
        rintro _ - ⟨⟩
        simpa using hdue

/-- A look at the state is the wait of the automaton. -/
theorem CircuitBreaker.stateAt_phase (h : cb.Ready) (now : Instant) :
    (cb.stateAt now).2.phase = cb.phase.wait cb.config now ∧ (cb.stateAt now).2.config = cb.config
      ∧ (cb.stateAt now).1 = (cb.stateAt now).2.state ∧ (cb.stateAt now).2.Ready := by
  rcases cb.stateAt_cases h now with ⟨last, hstate, hlast, hdue, hlook⟩ | ⟨hlook, hwait⟩
  · have hfree : cb.halfOpenRequests = 0 := h.free (by simp [hstate])
    rw [hlook, CircuitBreaker.phase_opened hstate, CircuitBreaker.phase_halfOpen rfl, hlast, Option.getD_some,
      BreakerPhase.wait, if_pos hdue]
    refine ⟨?_, rfl, rfl, ⟨by simp, by simp, h.quota⟩⟩
    simp only [hfree]
    rfl
  · rw [hlook]
    refine ⟨?_, rfl, rfl, h⟩
    cases hstate : cb.state with
    | closed => rw [CircuitBreaker.phase_closed hstate]; rfl
    | halfOpen => rw [CircuitBreaker.phase_halfOpen hstate]; rfl
    | opened =>
        obtain ⟨last, hlast⟩ := h.known hstate
        rw [CircuitBreaker.phase_opened hstate, hlast, Option.getD_some, BreakerPhase.wait,
          hwait last hstate hlast, if_neg Bool.false_ne_true]

/-- The question after the look: a slot that is refused is given back. -/
theorem CircuitBreaker.canExecute_eq (cb : CircuitBreaker) (now later : Instant) :
    cb.canExecute now later
      = match (cb.stateAt now).1 with
        | .closed => (true, (cb.stateAt now).2)
        | .opened => (((cb.stateAt now).2.lastFailure.map fun last =>
            (cb.stateAt now).2.timedOut last later).getD true, (cb.stateAt now).2)
        | .halfOpen =>
          if (cb.stateAt now).2.halfOpenRequests < (cb.stateAt now).2.halfOpenMax then
            (true, { (cb.stateAt now).2 with halfOpenRequests := (cb.stateAt now).2.halfOpenRequests + 1 })
          else (false, (cb.stateAt now).2) := by
  unfold CircuitBreaker.canExecute
  rcases cb.stateAt now with ⟨_ | _ | _, seen⟩
  · rfl
  · cases hlast : seen.lastFailure <;> simp [hlast]
  · have hback : seen.halfOpenRequests + 1 - 1 = seen.halfOpenRequests := by bv_omega
    simp only [hback]

theorem CircuitBreaker.canExecute_phase (h : cb.Ready) (now later : Instant) :
    ((cb.canExecute now later).1, (cb.canExecute now later).2.phase)
        = (cb.phase.wait cb.config now).ask cb.config later
      ∧ (cb.canExecute now later).2.config = cb.config ∧ (cb.canExecute now later).2.Ready := by
  obtain ⟨hphase, hconfig, hstate, hready⟩ := cb.stateAt_phase h now
  rw [CircuitBreaker.canExecute_eq, ← hphase, ← hconfig, hstate]
  generalize (cb.stateAt now).2 = seen at hready ⊢
  cases hseen : seen.state with
  | closed =>
      refine ⟨?_, rfl, hready⟩
      rw [CircuitBreaker.phase_closed hseen, BreakerPhase.ask]
  | opened =>
      obtain ⟨last, hlast⟩ := hready.known hseen
      refine ⟨?_, rfl, hready⟩
      rw [CircuitBreaker.phase_opened hseen, hlast, Option.map_some, Option.getD_some, Option.getD_some,
        CircuitBreaker.timedOut_eq, BreakerPhase.ask]
  | halfOpen =>
      by_cases hfree : seen.halfOpenRequests < seen.halfOpenMax
      · have hcount := toNat_succ_of_lt hfree
        simp only [if_pos hfree]
        refine ⟨?_, rfl, ⟨fun hopen => by simp [hseen] at hopen, fun hother => absurd hseen hother, ?_⟩⟩
        · rw [CircuitBreaker.phase_halfOpen hseen, BreakerPhase.ask,
            if_pos (show seen.halfOpenRequests.toNat < seen.config.halfOpenMax from hfree), ← hcount]
          exact congrArg (Prod.mk true) (CircuitBreaker.phase_halfOpen hseen)
        · have hlt : seen.halfOpenRequests.toNat < seen.halfOpenMax.toNat := hfree
          simp only [hcount]
          omega
      · simp only [if_neg hfree]
        refine ⟨?_, trivial, hready⟩
        rw [CircuitBreaker.phase_halfOpen hseen, BreakerPhase.ask,
          if_neg (show ¬ seen.halfOpenRequests.toNat < seen.config.halfOpenMax from hfree)]

theorem CircuitBreaker.recordSuccess_phase (h : cb.Ready) :
    cb.recordSuccess.phase = cb.phase.succeed ∧ cb.recordSuccess.config = cb.config
      ∧ cb.recordSuccess.Ready := by
  unfold CircuitBreaker.recordSuccess
  cases hstate : cb.state with
  | closed =>
      refine ⟨?_, rfl, ⟨nofun, fun _ => h.free (by simp [hstate]), h.quota⟩⟩
      rw [CircuitBreaker.phase_closed hstate, BreakerPhase.succeed, CircuitBreaker.phase_closed rfl]
      rfl
  | opened =>
      refine ⟨?_, rfl, ⟨fun _ => h.known hstate, fun _ => h.free (by simp [hstate]), h.quota⟩⟩
      rw [CircuitBreaker.phase_opened hstate, BreakerPhase.succeed, CircuitBreaker.phase_opened rfl]
  | halfOpen =>
      refine ⟨?_, rfl, ⟨nofun, fun _ => rfl, Nat.zero_le _⟩⟩
      rw [CircuitBreaker.phase_halfOpen hstate, BreakerPhase.succeed, CircuitBreaker.phase_closed rfl]
      rfl

theorem CircuitBreaker.recordFailure_ready (h : cb.Ready) (now : Instant) :
    (cb.recordFailure now).config = cb.config ∧ (cb.recordFailure now).Ready := by
  unfold CircuitBreaker.recordFailure
  cases hstate : cb.state with
  | closed =>
      have hfree : cb.halfOpenRequests = 0 := h.free (by simp [hstate])
      simp only
      split_ifs
      · exact ⟨rfl, ⟨fun _ => ⟨now, rfl⟩, fun _ => hfree, h.quota⟩⟩
      · exact ⟨rfl, ⟨fun _ => ⟨now, rfl⟩, fun _ => hfree, h.quota⟩⟩
  | opened => exact ⟨rfl, ⟨fun _ => ⟨now, rfl⟩, fun _ => h.free (by simp [hstate]), h.quota⟩⟩
  | halfOpen => exact ⟨rfl, ⟨fun _ => ⟨now, rfl⟩, fun _ => rfl, Nat.zero_le _⟩⟩

theorem CircuitBreaker.recordFailure_phase (hbelow : cb.BelowThreshold) (now : Instant) :
    (cb.recordFailure now).phase = cb.phase.fail cb.config now := by
  unfold CircuitBreaker.recordFailure
  cases hstate : cb.state with
  | closed =>
      have hcount := toNat_succ_of_lt (hbelow hstate)
      rw [CircuitBreaker.phase_closed hstate, BreakerPhase.fail, ← hcount]
      by_cases hreached : cb.threshold ≤ cb.failures + 1
      · simp only [if_pos hreached]
        rw [if_pos (show cb.config.threshold ≤ (cb.failures + 1).toNat from hreached),
          CircuitBreaker.phase_opened rfl, Option.getD_some]
      · simp only [if_neg hreached]
        rw [if_neg (show ¬ cb.config.threshold ≤ (cb.failures + 1).toNat from hreached),
          CircuitBreaker.phase_closed rfl]
  | opened =>
      rw [CircuitBreaker.phase_opened hstate, BreakerPhase.fail, CircuitBreaker.phase_opened rfl, Option.getD_some]
  | halfOpen =>
      rw [CircuitBreaker.phase_halfOpen hstate, BreakerPhase.fail,
        CircuitBreaker.phase_opened rfl, Option.getD_some]

theorem CircuitBreaker.call_ready (h : cb.Ready) (c : BreakerCall) :
    (cb.call c).2.config = cb.config ∧ (cb.call c).2.Ready := by
  unfold CircuitBreaker.call
  cases c.op with
  | state => exact ⟨(cb.stateAt_phase h c.now).2.1, (cb.stateAt_phase h c.now).2.2.2⟩
  | canExecute => exact (cb.canExecute_phase h c.now c.later).2
  | recordSuccess => exact (CircuitBreaker.recordSuccess_phase h).2
  | recordFailure => exact CircuitBreaker.recordFailure_ready h c.now

/-- One call: the breaker answers as the automaton does, and stands for the phase after it. -/
theorem CircuitBreaker.call_phase (h : cb.Ready) (hbelow : cb.BelowThreshold) (c : BreakerCall) :
    ((cb.call c).1, (cb.call c).2.phase) = cb.phase.step cb.config c := by
  unfold CircuitBreaker.call BreakerPhase.step
  cases c.op with
  | state =>
      obtain ⟨hphase, -, hstate, -⟩ := cb.stateAt_phase h c.now
      simp only [hstate, ← hphase, CircuitBreaker.phase_state]
  | canExecute => simp only [← (cb.canExecute_phase h c.now c.later).1]
  | recordSuccess => simp only [(CircuitBreaker.recordSuccess_phase h).1]
  | recordFailure => simp only [CircuitBreaker.recordFailure_phase hbelow]

end Step

/-! ## Runs -/

/-- A closed phase is below its threshold. -/
def BreakerPhase.Below (config : BreakerConfig) (phase : BreakerPhase) : Prop :=
  ∀ failures, phase = .closed failures → failures < config.threshold

section Run

variable {config : BreakerConfig} {phase : BreakerPhase}

theorem BreakerPhase.step_below (hthreshold : 1 ≤ config.threshold) (h : phase.Below config)
    (c : BreakerCall) : (phase.step config c).2.Below config := by
  obtain ⟨op, now, later⟩ := c
  intro n hclosed
  cases op with
  | state =>
      cases phase with
      | closed failures => exact h n hclosed
      | opened since =>
          simp only [BreakerPhase.step, BreakerPhase.wait] at hclosed
          split_ifs at hclosed
      | halfOpen admitted => cases hclosed
  | canExecute =>
      cases phase with
      | closed failures => exact h n hclosed
      | opened since =>
          simp only [BreakerPhase.step, BreakerPhase.wait] at hclosed
          split_ifs at hclosed
          · simp only [BreakerPhase.ask] at hclosed
            split_ifs at hclosed
          · cases hclosed
      | halfOpen admitted =>
          simp only [BreakerPhase.step, BreakerPhase.wait, BreakerPhase.ask] at hclosed
          split_ifs at hclosed
  | recordSuccess =>
      cases phase with
      | opened since => cases hclosed
      | closed failures => cases hclosed; omega
      | halfOpen admitted => cases hclosed; omega
  | recordFailure =>
      cases phase with
      | closed failures =>
          simp only [BreakerPhase.step, BreakerPhase.fail] at hclosed
          split_ifs at hclosed with hreached
          cases hclosed
          omega
      | opened since => cases hclosed
      | halfOpen admitted => cases hclosed

theorem CircuitBreaker.below_iff (cb : CircuitBreaker) : cb.BelowThreshold ↔ cb.phase.Below cb.config := by
  unfold CircuitBreaker.BelowThreshold BreakerPhase.Below
  cases hstate : cb.state with
  | closed =>
      rw [CircuitBreaker.phase_closed hstate]
      exact ⟨fun h n hn => by cases hn; exact h rfl, fun h _ => h _ rfl⟩
  | opened =>
      rw [CircuitBreaker.phase_opened hstate]
      exact ⟨fun _ => nofun, fun _ => nofun⟩
  | halfOpen =>
      rw [CircuitBreaker.phase_halfOpen hstate]
      exact ⟨fun _ => nofun, fun _ => nofun⟩

/-- The histories of the breaker are those of the automaton. -/
theorem CircuitBreaker.run_eq (calls : List BreakerCall) {cb : CircuitBreaker} (h : cb.Ready)
    (hthreshold : 1 ≤ cb.config.threshold) (hbelow : cb.BelowThreshold) :
    cb.run calls = cb.phase.run cb.config calls := by
  induction calls generalizing cb with
  | nil => rfl
  | cons c rest ih =>
      have hcall := CircuitBreaker.call_phase h hbelow c
      obtain ⟨hconfig, hready⟩ := CircuitBreaker.call_ready h c
      have hreply : (cb.call c).1 = (cb.phase.step cb.config c).1 := congrArg Prod.fst hcall
      have hphase : (cb.call c).2.phase = (cb.phase.step cb.config c).2 := congrArg Prod.snd hcall
      have hlater : (cb.call c).2.BelowThreshold := by
        rw [CircuitBreaker.below_iff, hphase, hconfig]
        exact BreakerPhase.step_below hthreshold (cb.below_iff.1 hbelow) c
      rw [CircuitBreaker.run, BreakerPhase.run, ih hready (hconfig ▸ hthreshold) hlater, hconfig, ← hphase,
        CircuitBreaker.stepOf, ← hreply, CircuitBreaker.phase_state, CircuitBreaker.phase_state]

end Run

/-! ## What a history tells -/

/-- A failure counts from the last success that was recorded while the breaker was closed, or from the
    last time it closed. -/
def countFailure (n : Nat) (s : BreakerStep) : Nat :=
  if s.call.op = .recordSuccess ∧ s.before = .closed ∨ s.before ≠ .closed ∧ s.after = .closed then 0
  else if s.call.op = .recordFailure then n + 1
  else n

/-- The failures since the last success. -/
def failuresSince (history : List BreakerStep) : Nat := history.foldl countFailure 0

/-- When the most recent failure was recorded. -/
def lastFailureOf (history : List BreakerStep) : Option Instant :=
  history.foldl (fun last s => if s.call.op = .recordFailure then some s.call.now else last) none

/-- How often `can_execute` has said yes since the breaker became half open. -/
def countAdmitted (n : Nat) (s : BreakerStep) : Nat :=
  if s.after = .halfOpen then
    (if s.before = .halfOpen then n else 0) + if s.reply = .admitted true then 1 else 0
  else 0

/-- The calls admitted since the breaker last became half open. -/
def admittedInEpisode (history : List BreakerStep) : Nat := history.foldl countAdmitted 0

/-- A step of the standard automaton, after the steps of `past`. -/
structure BreakerStep.Standard (config : BreakerConfig) (past : List BreakerStep) (s : BreakerStep) :
    Prop where
  leavesClosed : s.before = .closed →
    s.after = if failuresSince (past ++ [s]) = config.threshold then .opened else .closed
  leavesOpen : s.before = .opened → s.after = .opened ∨
    s.after = .halfOpen ∧ ∃ last, lastFailureOf past = some last ∧ config.timeout ≤ s.call.now - last
  episode : admittedInEpisode (past ++ [s]) ≤ config.halfOpenMax
  leavesHalfOpen : s.before = .halfOpen →
    s.after = match s.call.op with
      | .recordSuccess => .closed
      | .recordFailure => .opened
      | _ => .halfOpen

/-- The phase holds what the history tells. -/
def BreakerPhase.Tracks (config : BreakerConfig) (past : List BreakerStep) : BreakerPhase → Prop
  | .closed failures =>
    failures = failuresSince past ∧ failures < config.threshold ∧ admittedInEpisode past = 0
  | .opened since => lastFailureOf past = some since ∧ admittedInEpisode past = 0
  | .halfOpen admitted => admitted = admittedInEpisode past ∧ admitted ≤ config.halfOpenMax

section History

variable {config : BreakerConfig} {past : List BreakerStep}

theorem failuresSince_snoc (past : List BreakerStep) (s : BreakerStep) :
    failuresSince (past ++ [s]) = countFailure (failuresSince past) s := by
  simp [failuresSince]

theorem lastFailureOf_snoc (past : List BreakerStep) (s : BreakerStep) :
    lastFailureOf (past ++ [s])
      = if s.call.op = .recordFailure then some s.call.now else lastFailureOf past := by
  simp [lastFailureOf]

theorem admittedInEpisode_snoc (past : List BreakerStep) (s : BreakerStep) :
    admittedInEpisode (past ++ [s]) = countAdmitted (admittedInEpisode past) s := by
  simp [admittedInEpisode]

/-- The timeout, counted from a failure that is not in the future. -/
theorem BreakerConfig.timeout_le_of_due {since now : Instant} (hclock : since ≤ now)
    (hdue : config.due since now = true) : config.timeout ≤ now - since := by
  have hwait : (0 : ℚ) ≤ now - since := by linarith
  simpa [BreakerConfig.due, durationSince, max_eq_right hwait] using hdue

/-- The step that a call is. -/
def BreakerPhase.stepOf (config : BreakerConfig) (phase : BreakerPhase) (c : BreakerCall) : BreakerStep :=
  ⟨c, phase.state, (phase.step config c).1, (phase.step config c).2.state⟩

section Phases

attribute [local simp] BreakerPhase.stepOf BreakerPhase.step BreakerPhase.wait BreakerPhase.ask
  BreakerPhase.succeed BreakerPhase.fail BreakerPhase.state BreakerPhase.Tracks failuresSince_snoc
  lastFailureOf_snoc admittedInEpisode_snoc countFailure countAdmitted

/-- A closed breaker counts failures, and opens with the one that reaches the threshold. -/
theorem BreakerPhase.closed_standard (hthreshold : 1 ≤ config.threshold) {failures : Nat}
    (h : BreakerPhase.Tracks config past (.closed failures)) (c : BreakerCall) :
    (stepOf config (.closed failures) c).Standard config past
      ∧ BreakerPhase.Tracks config (past ++ [stepOf config (.closed failures) c])
        (step config (.closed failures) c).2 := by
  obtain ⟨op, now, later⟩ := c
  obtain ⟨rfl, hbelow, hnone⟩ := h
  have hne : failuresSince past ≠ config.threshold := by omega
  cases op with
  | state | canExecute =>
      refine ⟨⟨fun _ => ?_, by rintro ⟨⟩, ?_, by rintro ⟨⟩⟩, ?_⟩ <;> simp [hbelow, hne]
  | recordSuccess =>
      have hpos : (0 : Nat) ≠ config.threshold := by omega
      refine ⟨⟨fun _ => ?_, by rintro ⟨⟩, ?_, by rintro ⟨⟩⟩, ?_⟩ <;> simp [hpos]
      omega
  | recordFailure =>
      by_cases hreached : config.threshold ≤ failuresSince past + 1
      · have hexact : failuresSince past + 1 = config.threshold := by omega
        refine ⟨⟨fun _ => ?_, by rintro ⟨⟩, ?_, by rintro ⟨⟩⟩, ?_⟩ <;> simp [hexact]
      · have hinexact : failuresSince past + 1 ≠ config.threshold := by omega
        refine ⟨⟨fun _ => ?_, by rintro ⟨⟩, ?_, by rintro ⟨⟩⟩, ?_⟩ <;> simp [hreached, hinexact]
        omega

/-- An open breaker waits for its timeout, and admits the first probe with the call that finds it over. -/
theorem BreakerPhase.opened_standard {since : Instant} (h : BreakerPhase.Tracks config past (.opened since))
    {c : BreakerCall} (hclock : since ≤ c.now) :
    (stepOf config (.opened since) c).Standard config past
      ∧ BreakerPhase.Tracks config (past ++ [stepOf config (.opened since) c])
        (step config (.opened since) c).2 := by
  obtain ⟨op, now, later⟩ := c
  obtain ⟨hlast, hnone⟩ := h
  cases op with
  | state =>
      by_cases hdue : config.due since now = true
      · have htimeout := BreakerConfig.timeout_le_of_due hclock hdue
        refine ⟨⟨by rintro ⟨⟩, fun _ => .inr ⟨?_, since, hlast, htimeout⟩, ?_, by rintro ⟨⟩⟩, ?_⟩ <;>
          simp [hdue]
      · refine ⟨⟨by rintro ⟨⟩, fun _ => .inl ?_, ?_, by rintro ⟨⟩⟩, ?_⟩ <;> simp [hdue, hlast]
  | canExecute =>
      by_cases hdue : config.due since now = true
      · have htimeout := BreakerConfig.timeout_le_of_due hclock hdue
        -- the probe takes the only slot there may be
        by_cases hfree : 0 < config.halfOpenMax
        · refine ⟨⟨by rintro ⟨⟩, fun _ => .inr ⟨?_, since, hlast, htimeout⟩, ?_, by rintro ⟨⟩⟩, ?_⟩ <;>
            simp [hdue, hfree] <;> omega
        · refine ⟨⟨by rintro ⟨⟩, fun _ => .inr ⟨?_, since, hlast, htimeout⟩, ?_, by rintro ⟨⟩⟩, ?_⟩ <;>
            simp [hdue, hfree]
      · refine ⟨⟨by rintro ⟨⟩, fun _ => .inl ?_, ?_, by rintro ⟨⟩⟩, ?_⟩ <;> simp [hdue, hlast]
  | recordSuccess =>
      refine ⟨⟨by rintro ⟨⟩, fun _ => .inl rfl, ?_, by rintro ⟨⟩⟩, ?_⟩ <;> simp [hlast]
  | recordFailure =>
      refine ⟨⟨by rintro ⟨⟩, fun _ => .inl rfl, ?_, by rintro ⟨⟩⟩, ?_⟩ <;> simp

/-- A half-open breaker admits probes up to its quota, and the first one that comes back decides. -/
theorem BreakerPhase.halfOpen_standard (hthreshold : 1 ≤ config.threshold) {admitted : Nat}
    (h : BreakerPhase.Tracks config past (.halfOpen admitted)) (c : BreakerCall) :
    (stepOf config (.halfOpen admitted) c).Standard config past
      ∧ BreakerPhase.Tracks config (past ++ [stepOf config (.halfOpen admitted) c])
        (step config (.halfOpen admitted) c).2 := by
  obtain ⟨op, now, later⟩ := c
  obtain ⟨rfl, hquota⟩ := h
  cases op with
  | state =>
      refine ⟨⟨by rintro ⟨⟩, by rintro ⟨⟩, ?_, fun _ => rfl⟩, ?_⟩ <;> simp [hquota]
  | canExecute =>
      by_cases hfree : admittedInEpisode past < config.halfOpenMax
      · refine ⟨⟨by rintro ⟨⟩, by rintro ⟨⟩, ?_, fun _ => ?_⟩, ?_⟩ <;> simp [hfree]
      · refine ⟨⟨by rintro ⟨⟩, by rintro ⟨⟩, ?_, fun _ => ?_⟩, ?_⟩ <;> simp [hfree, hquota]
  | recordSuccess =>
      refine ⟨⟨by rintro ⟨⟩, by rintro ⟨⟩, ?_, fun _ => rfl⟩, ?_⟩ <;> simp
      omega
  | recordFailure =>
      refine ⟨⟨by rintro ⟨⟩, by rintro ⟨⟩, ?_, fun _ => rfl⟩, ?_⟩ <;> simp

end Phases

/-- One step of the automaton. -/
theorem BreakerPhase.step_standard (hthreshold : 1 ≤ config.threshold) {phase : BreakerPhase}
    (h : phase.Tracks config past) {c : BreakerCall}
    (hclock : ∀ last, lastFailureOf past = some last → last ≤ c.now) {s : BreakerStep}
    (hs : s = ⟨c, phase.state, (phase.step config c).1, (phase.step config c).2.state⟩) :
    s.Standard config past ∧ (phase.step config c).2.Tracks config (past ++ [s]) := by
  subst hs
  cases phase with
  | closed failures => exact closed_standard hthreshold h c
  | opened since => exact opened_standard h (hclock since h.1)
  | halfOpen admitted => exact halfOpen_standard hthreshold h c

/-- Every step of a run is a standard one. -/
theorem BreakerPhase.run_standard (hthreshold : 1 ≤ config.threshold) (calls : List BreakerCall)
    (hordered : (calls.flatMap BreakerCall.readings).Pairwise (· ≤ ·)) {phase : BreakerPhase}
    (h : phase.Tracks config past)
    (hclock : ∀ last, lastFailureOf past = some last → ∀ t ∈ calls.flatMap BreakerCall.readings, last ≤ t)
    {before : List BreakerStep} {s : BreakerStep} {after : List BreakerStep}
    (hrun : phase.run config calls = before ++ s :: after) : s.Standard config (past ++ before) := by
  induction calls generalizing past phase before with
  | nil => simp [BreakerPhase.run] at hrun
  | cons c rest ih =>
      have hnow : ∀ last, lastFailureOf past = some last → last ≤ c.now :=
        fun last hlast => hclock last hlast c.now (by simp [BreakerCall.readings])
      obtain ⟨hstandard, htracks⟩ := BreakerPhase.step_standard hthreshold h hnow rfl
      rw [List.flatMap_cons] at hordered
      obtain ⟨-, hrest, hacross⟩ := List.pairwise_append.1 hordered
      cases before with
      | nil =>
          obtain ⟨rfl, -⟩ := List.cons_eq_cons.1 hrun
          rwa [List.append_nil]
      | cons first before =>
          obtain ⟨rfl, hafter⟩ := List.cons_eq_cons.1 hrun
          have hlater := ih hrest htracks ?_ hafter
          · simpa using hlater
          · intro last hlast t ht
            rw [lastFailureOf_snoc] at hlast
            split_ifs at hlast
            · cases hlast
              exact hacross c.now (by simp [BreakerCall.readings]) t ht
            · exact hclock last hlast t (by rw [List.flatMap_cons]; exact List.mem_append_right _ ht)

end History

/-- A breaker is the standard automaton: every call gets the answer of the automaton, and in every history
    it leaves the closed state exactly at the failure that reaches the threshold, the open state after the
    timeout only, and the half-open one with the first outcome; in between it admits no more probes than
    the quota. -/
theorem CircuitBreaker.refines_automaton (threshold : BitVec 64) (timeout : ℚ≥0) (halfOpenMax : BitVec 64)
    (hthreshold : 1 ≤ threshold.toNat) (calls : List BreakerCall)
    (hordered : (calls.flatMap BreakerCall.readings).Pairwise (· ≤ ·)) :
    (CircuitBreaker.new threshold timeout halfOpenMax).run calls
        = (BreakerPhase.closed 0).run ⟨threshold.toNat, timeout, halfOpenMax.toNat⟩ calls
      ∧ ∀ past s future, (CircuitBreaker.new threshold timeout halfOpenMax).run calls = past ++ s :: future →
        s.Standard ⟨threshold.toNat, timeout, halfOpenMax.toNat⟩ past := by
  have hrun : (CircuitBreaker.new threshold timeout halfOpenMax).run calls
      = (BreakerPhase.closed 0).run ⟨threshold.toNat, timeout, halfOpenMax.toNat⟩ calls :=
    CircuitBreaker.run_eq calls (CircuitBreaker.new_ready threshold timeout halfOpenMax) hthreshold
      (fun _ => hthreshold)
  refine ⟨hrun, fun past s future hsplit => ?_⟩
  have htracks : (BreakerPhase.closed 0).Tracks ⟨threshold.toNat, timeout, halfOpenMax.toNat⟩ [] :=
    ⟨rfl, hthreshold, rfl⟩
  rw [hrun] at hsplit
  exact BreakerPhase.run_standard hthreshold calls hordered htracks (by simp [lastFailureOf]) hsplit

/-- Two failures open a breaker with a threshold of two and a timeout of a minute; a minute later it lets
    one probe through and refuses the next one, and the success of the probe closes it. -/
def probedBreaker : List BreakerCall :=
  [⟨.recordFailure, 0, 0⟩, ⟨.recordFailure, 1, 1⟩, ⟨.canExecute, 2, 2⟩, ⟨.canExecute, 61, 61⟩,
    ⟨.canExecute, 62, 62⟩, ⟨.recordSuccess, 63, 63⟩, ⟨.state, 64, 64⟩]

theorem CircuitBreaker.refines_automaton_probedBreaker :
    (CircuitBreaker.new 2 60 1).run probedBreaker
        = (BreakerPhase.closed 0).run ⟨2, 60, 1⟩ probedBreaker
      ∧ ((CircuitBreaker.new 2 60 1).run probedBreaker).map BreakerStep.reply
        = [.recorded, .recorded, .admitted false, .admitted true, .admitted false, .recorded, .state .closed]
      ∧ admittedInEpisode (((CircuitBreaker.new 2 60 1).run probedBreaker).take 5) ≤ 1 := by
  obtain ⟨hrun, hstandard⟩ := CircuitBreaker.refines_automaton 2 60 1 (by decide) probedBreaker (by decide +kernel)
  refine ⟨hrun, by decide +kernel, ?_⟩
  exact (hstandard (((CircuitBreaker.new 2 60 1).run probedBreaker).take 4) _ _ rfl).episode

end Godwit
