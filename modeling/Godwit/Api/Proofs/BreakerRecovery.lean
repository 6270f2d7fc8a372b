import Godwit.Api.Proofs.CircuitBreaker

set_option autoImplicit false

/-! # When the circuit breaker recovers

Time alone takes a breaker out of the open state, but the quota of probes is given back by a recorded
outcome only. When the last slot of a half-open episode goes to a probe that never reports, the breaker
stays half open and refuses every call. -/

namespace Godwit

/-- A call that records no outcome. -/
def BreakerCall.IsLook (c : BreakerCall) : Prop := c.op = .state ∨ c.op = .canExecute

/-- From `clock` on, some calls that record nothing lead to a `can_execute` that says yes. -/
def CircuitBreaker.Recovers (cb : CircuitBreaker) (clock : Instant) : Prop :=
  ∃ calls : List BreakerCall, (∀ c ∈ calls, c.IsLook)
    ∧ (clock :: calls.flatMap BreakerCall.readings).Pairwise (· ≤ ·)
    ∧ ∃ s ∈ cb.run calls, s.reply = .admitted true

/-- The breaker is half open when `can_execute` looks at it, or becomes so by that look, and one slot is
    left. -/
def CircuitBreaker.TakesLastSlot (cb : CircuitBreaker) (c : BreakerCall) : Prop :=
  c.op = .canExecute
    ∧ (cb.state = .halfOpen ∨ cb.state = .opened ∧ ∃ last ∈ cb.lastFailure, cb.timedOut last c.now = true)
    ∧ cb.halfOpenRequests.toNat + 1 = cb.halfOpenMax.toNat

/-- Half open, with every slot taken. -/
def CircuitBreaker.Stuck (cb : CircuitBreaker) : Prop :=
  cb.state = .halfOpen ∧ cb.halfOpenRequests.toNat = cb.halfOpenMax.toNat

/-- A half-open breaker has a slot left. -/
def CircuitBreaker.HasSlot (cb : CircuitBreaker) : Prop :=
  cb.state = .halfOpen → cb.halfOpenRequests.toNat < cb.halfOpenMax.toNat

section Step

variable {cb : CircuitBreaker}

theorem CircuitBreaker.stateAt_of_halfOpen (h : cb.state = .halfOpen) (now : Instant) :
    cb.stateAt now = (.halfOpen, cb) := by
  rw [CircuitBreaker.stateAt, h]

/-! ## Without a slot -/

theorem CircuitBreaker.Stuck.canExecute (h : cb.Stuck) (now later : Instant) :
    cb.canExecute now later = (false, cb) := by
  have hfull : ¬ cb.halfOpenRequests < cb.halfOpenMax := by
    show ¬ cb.halfOpenRequests.toNat < cb.halfOpenMax.toNat
    rw [h.2]
    exact lt_irrefl _
  rw [CircuitBreaker.canExecute_eq, CircuitBreaker.stateAt_of_halfOpen h.1]
  simp only [if_neg hfull]

/-- A look at a stuck breaker changes nothing and gets no yes. -/
theorem CircuitBreaker.Stuck.call (h : cb.Stuck) {c : BreakerCall} (hc : c.IsLook) :
    (cb.call c).1 ≠ .admitted true ∧ (cb.call c).2 = cb := by
  rcases hc with hop | hop
  · simp [CircuitBreaker.call, hop, CircuitBreaker.stateAt_of_halfOpen h.1]
  · simp [CircuitBreaker.call, hop, h.canExecute]

theorem CircuitBreaker.Stuck.run (h : cb.Stuck) (calls : List BreakerCall) (hlooks : ∀ c ∈ calls, c.IsLook) :
    ∀ s ∈ cb.run calls, s.reply ≠ .admitted true := by
  induction calls with
  | nil => simp [CircuitBreaker.run]
  | cons c rest ih =>
      obtain ⟨hreply, hstays⟩ := h.call (hlooks c List.mem_cons_self)
      rw [CircuitBreaker.run, hstays]
      intro s hs
      rcases List.mem_cons.1 hs with rfl | hs
      · exact hreply
      · exact ih (fun later hlater => hlooks later (List.mem_cons_of_mem _ hlater)) s hs

theorem CircuitBreaker.Stuck.not_recovers (h : cb.Stuck) (clock : Instant) : ¬ cb.Recovers clock := by
  rintro ⟨calls, hlooks, -, s, hs, hreply⟩
  exact h.run calls hlooks s hs hreply

/-! ## With a slot -/

/-- One call of `can_execute` is enough, at the time `clock` or when the timeout has passed. -/
theorem CircuitBreaker.recovers_of_hasSlot (h : cb.Ready) (hmax : 1 ≤ cb.halfOpenMax.toNat) (hslot : cb.HasSlot)
    (clock : Instant) : cb.Recovers clock := by
  suffices hyes : ∃ now, clock ≤ now ∧ (cb.canExecute now now).1 = true by
    obtain ⟨now, hlater, hanswer⟩ := hyes
    refine ⟨[⟨.canExecute, now, now⟩], ?_, ?_, _, List.mem_singleton.2 rfl, ?_⟩
    · intro c hc
      rw [List.mem_singleton.1 hc]
      exact .inr rfl
    · simp [BreakerCall.readings, hlater]
    · exact congrArg BreakerReply.admitted hanswer
  cases hstate : cb.state with
  | closed =>
      refine ⟨clock, le_rfl, ?_⟩
      simp [CircuitBreaker.canExecute, CircuitBreaker.stateAt, hstate]
  | opened =>
      obtain ⟨last, hlast⟩ := h.known hstate
      have hfree : cb.halfOpenRequests < cb.halfOpenMax := by
        show cb.halfOpenRequests.toNat < cb.halfOpenMax.toNat
        rw [h.free (by simp [hstate])]
        exact hmax
      have hdue : cb.timedOut last (max clock (last + cb.timeout)) = true := by
        have hpassed := le_max_right clock (last + (cb.timeout : ℚ))
        have hwait : (cb.timeout : ℚ) ≤ max clock (last + cb.timeout) - last := by linarith
        exact decide_eq_true (le_max_of_le_right hwait)
      refine ⟨max clock (last + cb.timeout), le_max_left _ _, ?_⟩
      simp [CircuitBreaker.canExecute, CircuitBreaker.stateAt, hstate, hlast, hdue, hfree]
  | halfOpen =>
      have hfree : cb.halfOpenRequests < cb.halfOpenMax := hslot hstate
      refine ⟨clock, le_rfl, ?_⟩
      simp [CircuitBreaker.canExecute, CircuitBreaker.stateAt, hstate, hfree]

/-! ## How the last slot goes -/

/-- A look finds the breaker half open when it was so, or was open and its timeout has passed. -/
theorem CircuitBreaker.stateAt_halfOpen_iff (cb : CircuitBreaker) (now : Instant) :
    (cb.stateAt now).1 = .halfOpen
      ↔ cb.state = .halfOpen ∨ cb.state = .opened ∧ ∃ last ∈ cb.lastFailure, cb.timedOut last now = true := by
  unfold CircuitBreaker.stateAt
  cases hstate : cb.state with
  | closed => simp
  | halfOpen => simp
  | opened =>
      cases hlast : cb.lastFailure with
      | none => simp
      | some last => by_cases hdue : cb.timedOut last now = true <;> simp [hdue]

@[simp] theorem CircuitBreaker.stateAt_slots (cb : CircuitBreaker) (now : Instant) :
    (cb.stateAt now).2.halfOpenRequests = cb.halfOpenRequests
      ∧ (cb.stateAt now).2.halfOpenMax = cb.halfOpenMax := by
  unfold CircuitBreaker.stateAt
  split
  · split <;> exact ⟨rfl, rfl⟩
  · exact ⟨rfl, rfl⟩

/-- The last slot is taken for good. -/
theorem CircuitBreaker.stuck_of_takesLastSlot (h : cb.Ready) {c : BreakerCall} (hlast : cb.TakesLastSlot c) :
    (cb.call c).2.Stuck := by
  obtain ⟨hop, hhalf, hone⟩ := hlast
  rw [← CircuitBreaker.stateAt_halfOpen_iff] at hhalf
  obtain ⟨hrequests, hmax⟩ := cb.stateAt_slots c.now
  have hfree : (cb.stateAt c.now).2.halfOpenRequests < (cb.stateAt c.now).2.halfOpenMax := by
    rw [hrequests, hmax]
    show cb.halfOpenRequests.toNat < cb.halfOpenMax.toNat
    omega
  have hcount := toNat_succ_of_lt (show _ < (cb.stateAt c.now).2.halfOpenMax.toNat from hfree)
  have hstate : (cb.stateAt c.now).2.state = .halfOpen := by
    rw [← (cb.stateAt_phase h c.now).2.2.1, hhalf]
  rw [CircuitBreaker.call, hop]
  simp only [CircuitBreaker.canExecute_eq, hhalf, if_pos hfree]
  refine ⟨hstate, ?_⟩
  show ((cb.stateAt c.now).2.halfOpenRequests + 1).toNat = (cb.stateAt c.now).2.halfOpenMax.toNat
  rw [hcount, hrequests, hmax, hone]

/-- Any other call leaves a slot. -/
theorem CircuitBreaker.call_hasSlot (h : cb.Ready) (hmax : 1 ≤ cb.halfOpenMax.toNat) (hslot : cb.HasSlot)
    {c : BreakerCall} (hlast : ¬ cb.TakesLastSlot c) : (cb.call c).2.HasSlot := by
  obtain ⟨op, now, later⟩ := c
  obtain ⟨hrequests, hquota⟩ := cb.stateAt_slots now
  -- A breaker that is found half open has a slot: it had one before, or has just become half open.
  have hseen : (cb.stateAt now).2.HasSlot := by
    intro hhalf
    rw [hrequests, hquota]
    by_cases hstate : cb.state = .halfOpen
    · exact hslot hstate
    · rw [h.free hstate]
      exact hmax
  cases op with
  | state => exact hseen
  | canExecute =>
      simp only [CircuitBreaker.call, CircuitBreaker.canExecute_eq]
      cases hlook : (cb.stateAt now).1 with
      | closed => exact hseen
      | opened => exact hseen
      | halfOpen =>
          by_cases hfree : (cb.stateAt now).2.halfOpenRequests < (cb.stateAt now).2.halfOpenMax
          · have hcount := toNat_succ_of_lt (show _ < (cb.stateAt now).2.halfOpenMax.toNat from hfree)
            have hmore : cb.halfOpenRequests.toNat + 1 ≠ cb.halfOpenMax.toNat := fun hone =>
              hlast ⟨rfl, (cb.stateAt_halfOpen_iff now).1 hlook, hone⟩
            have hlt : cb.halfOpenRequests.toNat < cb.halfOpenMax.toNat := by
              rw [← hrequests, ← hquota]
              exact hfree
            simp only [if_pos hfree]
            intro _
            show ((cb.stateAt now).2.halfOpenRequests + 1).toNat < (cb.stateAt now).2.halfOpenMax.toNat
            rw [hcount, hrequests, hquota]
            omega
          · simp only [if_neg hfree]
            exact hseen
  | recordSuccess =>
      intro hhalf
      simp only [CircuitBreaker.call, CircuitBreaker.recordSuccess] at hhalf
      cases hstate : cb.state <;> simp [hstate] at hhalf
  | recordFailure =>
      intro hhalf
      simp only [CircuitBreaker.call, CircuitBreaker.recordFailure] at hhalf
      cases hstate : cb.state with
      | closed =>
          simp only [hstate] at hhalf
          split_ifs at hhalf
      | opened => simp [hstate] at hhalf
      | halfOpen => simp [hstate] at hhalf

end Step

/-! ## Runs -/

section Run

variable {cb : CircuitBreaker}

theorem CircuitBreaker.afterCalls_cons (cb : CircuitBreaker) (c : BreakerCall) (rest : List BreakerCall) :
    cb.afterCalls (c :: rest) = (cb.call c).2.afterCalls rest := rfl

theorem CircuitBreaker.afterCalls_snoc (cb : CircuitBreaker) (before : List BreakerCall) (c : BreakerCall) :
    cb.afterCalls (before ++ [c]) = ((cb.afterCalls before).call c).2 := by
  simp [CircuitBreaker.afterCalls]

theorem CircuitBreaker.afterCalls_ready (h : cb.Ready) (calls : List BreakerCall) :
    (cb.afterCalls calls).config = cb.config ∧ (cb.afterCalls calls).Ready := by
  induction calls generalizing cb with
  | nil => exact ⟨rfl, h⟩
  | cons c rest ih =>
      obtain ⟨hconfig, hready⟩ := cb.call_ready h c
      rw [CircuitBreaker.afterCalls_cons, ← hconfig]
      exact ih hready

/-- A run in which no call takes the last slot leaves a slot in every state. -/
theorem CircuitBreaker.afterCalls_hasSlot (h : cb.Ready) (hmax : 1 ≤ cb.halfOpenMax.toNat) (hslot : cb.HasSlot)
    (calls : List BreakerCall)
    (hlast : ∀ before c after, calls = before ++ c :: after → ¬ (cb.afterCalls before).TakesLastSlot c) :
    (cb.afterCalls calls).HasSlot := by
  induction calls generalizing cb with
  | nil => exact hslot
  | cons c rest ih =>
      obtain ⟨hconfig, hready⟩ := cb.call_ready h c
      have hquota : (cb.call c).2.halfOpenMax.toNat = cb.halfOpenMax.toNat :=
        congrArg BreakerConfig.halfOpenMax hconfig
      rw [CircuitBreaker.afterCalls_cons]
      refine ih hready (hquota ▸ hmax) (cb.call_hasSlot h hmax hslot (hlast [] c rest rfl)) ?_
      intro before d after hrest
      exact hlast (c :: before) d after (by rw [hrest, List.cons_append])

/-- Some time is not before any of the readings. -/
theorem exists_clock (readings : List Instant) : ∃ clock, ∀ t ∈ readings, t ≤ clock := by
  induction readings with
  | nil => exact ⟨0, nofun⟩
  | cons t rest ih =>
      obtain ⟨clock, hclock⟩ := ih
      refine ⟨max t clock, fun r hr => ?_⟩
      rcases List.mem_cons.1 hr with rfl | hr
      · exact le_max_left _ _
      · exact (hclock r hr).trans (le_max_right _ _)

end Run

/-- A breaker recovers from every state of a run, whenever that is, exactly when no call of the run takes
    the last slot of a half-open episode. -/
theorem CircuitBreaker.recovers_iff (threshold : BitVec 64) (timeout : ℚ≥0) (halfOpenMax : BitVec 64)
    (hmax : 1 ≤ halfOpenMax.toNat) (calls : List BreakerCall) :
    (∀ before after, calls = before ++ after →
        ∀ clock, (∀ t ∈ before.flatMap BreakerCall.readings, t ≤ clock) →
          ((CircuitBreaker.new threshold timeout halfOpenMax).afterCalls before).Recovers clock)
      ↔ ∀ before c after, calls = before ++ c :: after →
          ¬ ((CircuitBreaker.new threshold timeout halfOpenMax).afterCalls before).TakesLastSlot c := by
  have hnew := CircuitBreaker.new_ready threshold timeout halfOpenMax
  constructor
  · intro hrecovers before c after hcalls hlast
    have hstuck := CircuitBreaker.stuck_of_takesLastSlot (CircuitBreaker.afterCalls_ready hnew before).2 hlast
    rw [← CircuitBreaker.afterCalls_snoc] at hstuck
    obtain ⟨clock, hclock⟩ := exists_clock ((before ++ [c]).flatMap BreakerCall.readings)
    exact hstuck.not_recovers clock (hrecovers (before ++ [c]) after (by simp [hcalls]) clock hclock)
  · intro hlast before after hcalls clock _
    obtain ⟨hconfig, hready⟩ := CircuitBreaker.afterCalls_ready hnew before
    have hquota : ((CircuitBreaker.new threshold timeout halfOpenMax).afterCalls before).halfOpenMax.toNat
        = halfOpenMax.toNat := congrArg BreakerConfig.halfOpenMax hconfig
    refine CircuitBreaker.recovers_of_hasSlot hready (hquota ▸ hmax) ?_ clock
    refine CircuitBreaker.afterCalls_hasSlot hnew hmax nofun before ?_
    intro past c rest hbefore
    exact hlast past c (rest ++ after) (by simp [hcalls, hbefore])

/-- One failure opens the breaker for a second, and the probe that it admits at its only slot a second
    later never reports. -/
def lostProbe : List BreakerCall := [⟨.recordFailure, 0, 0⟩, ⟨.canExecute, 2, 2⟩]

/-- With a second slot the same calls leave the breaker recoverable. -/
theorem CircuitBreaker.recovers_iff_lostProbe :
    ((CircuitBreaker.new 1 1 2).afterCalls lostProbe).Recovers 5 := by
  refine (CircuitBreaker.recovers_iff 1 1 2 (by decide) lostProbe).2 ?_ lostProbe [] rfl 5 (by decide +kernel)
  rintro before c after hcalls ⟨hop, hhalf, hone⟩
  rcases before with _ | ⟨first, _ | ⟨second, rest⟩⟩
  · cases hcalls
    cases hop
  · cases hcalls
    revert hone
    decide +kernel
  · simp [lostProbe] at hcalls

/-- With its only slot lost, the breaker is shut for ever. -/
theorem CircuitBreaker.lostProbe_never_recovers :
    ((CircuitBreaker.new 1 1 1).run lostProbe).map BreakerStep.reply = [.recorded, .admitted true]
      ∧ (∀ t ∈ lostProbe.flatMap BreakerCall.readings, t ≤ 2)
      ∧ ¬ ((CircuitBreaker.new 1 1 1).afterCalls lostProbe).Recovers 2 := by
  refine ⟨by decide +kernel, by decide +kernel, CircuitBreaker.Stuck.not_recovers ?_ 2⟩
  exact ⟨by decide +kernel, by decide +kernel⟩

end Godwit
