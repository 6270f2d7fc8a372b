import Godwit.Api.Proofs.PreCall
import Godwit.Api.Budgets
import Godwit.Api.Proofs.Spending
import Godwit.Lib.Interleaving
import Godwit.Lib.Metering

set_option autoImplicit false

/-! # Budgets under interleaving

Nothing is reserved when a request is admitted: its cost is unknown, and is logged after the response by
a task of its own. To the log of a team or an end user requests are therefore users of a meter that is
checked before and read after the use. -/

namespace Godwit

/-! ## Who pays -/

/-- Whose budget it is. -/
inductive Payer where
  | endUser (userId orgId : Uuid)
  | team (teamId : Uuid)
  deriving DecidableEq, Repr

/-- The payer pays for requests and rows with these columns. -/
def Payer.covers (payer : Payer) (userId : Option Uuid) (organizationId : Uuid)
    (teamId : Option Uuid) : Bool :=
  match payer with
  | .endUser payingUser payingOrg => userId = some payingUser && organizationId = payingOrg
  | .team payingTeam => teamId = some payingTeam

/-- The key is charged to the payer. -/
def Payer.coversKey (payer : Payer) (apiKey : ApiKey) : Bool :=
  payer.covers (some apiKey.userId) apiKey.organizationId apiKey.teamId

/-- The entry is charged to the payer. -/
def Payer.coversLog (payer : Payer) (log : RequestLogEntry) : Bool :=
  payer.covers (some log.userId) log.organizationId log.teamId

/-- The row is charged to the payer. -/
def Payer.coversRow (payer : Payer) (row : LoggedRequest) : Bool :=
  payer.covers row.userId row.organizationId row.teamId

/-- The `max_budget_usd` that is enforced. -/
def Payer.maxBudget (payer : Payer) (tables : BudgetTables) : Option Decimal :=
  match payer with
  | .endUser userId orgId => (tables.endUsers userId orgId).join
  | .team teamId => (tables.teams teamId).join

/-- The total that is logged for the payer. -/
def Payer.spent (payer : Payer) (logs : List LoggedRequest) : ℚ := spentBy logs payer.coversRow

/-- The step is a check of the payer that was passed. -/
def Payer.passes (payer : Payer) : Step Gateway → Bool
  | ⟨.checkEndUserBudget userId orgId, .ok ()⟩ => payer = .endUser userId orgId
  | ⟨.checkTeamBudget teamId, .ok ()⟩ => payer = .team teamId
  | _ => false

/-- The step spawns the task that logs the request. -/
def spawnsLog : Step Gateway → Bool
  | ⟨.spawnRequestLog _, _⟩ => true
  | _ => false

/-! ## One request -/

/-- What a request has done: whether it has passed the check of the payer, and spawned its log. -/
structure PayerState where
  passed : Bool
  spawned : Bool

/-- A log is spawned once, and for the payer only when its check has been passed. -/
abbrev payerMonitor (payer : Payer) : Monitor Gateway where
  State := PayerState
  next s step := ⟨s.passed || payer.passes step, s.spawned || spawnsLog step⟩
  accepts s step := match step with
    | ⟨.spawnRequestLog log, _⟩ => s.spawned = false ∧ (payer.coversLog log = true → s.passed = true)
    | _ => True

/-- The operation is neither a budget check nor the log. -/
def GatewayOp.Unbilled : GatewayOp → Prop
  | .checkEndUserBudget _ _ => False
  | .checkTeamBudget _ => False
  | .spawnRequestLog _ => False
  | _ => True

section Request

variable {payer : Payer} {s : PayerState} {state : AppState} {apiKey : ApiKey} {ε α : Type}
  {env : Environment Gateway}

theorem unbilled_of_kind {o : GatewayOp} (hadmission : o.kind ≠ .admission) (hlog : o.kind ≠ .log) :
    o.Unbilled := by
  cases o <;> first | exact trivial | exact absurd rfl hadmission | exact absurd rfl hlog

theorem unbilled_of_performs {kinds : List OpKind} {p : App ε α} (hp : Performs kinds p)
    (hadmission : .admission ∉ kinds) (hlog : .log ∉ kinds) : p.Only GatewayOp.Unbilled :=
  Program.Only.mono hp fun _ ho =>
    unbilled_of_kind (fun hkind => hadmission (hkind ▸ ho)) fun hkind => hlog (hkind ▸ ho)

theorem payer_quiet {step : Step Gateway} (h : step.op.Unbilled) :
    (payerMonitor payer).accepts s step ∧ (payerMonitor payer).next s step = s := by
  obtain ⟨op, answer⟩ := step
  cases op <;> first | exact h.elim | simp [Payer.passes, spawnsLog]

theorem payer_unbilled {p : App ε α} (h : p.Only GatewayOp.Unbilled) :
    (payerMonitor payer).Ensures env s p (fun _ s' => s' = s) fun _ s' => s' = s :=
  .quiet h fun _ hstep => payer_quiet hstep

/-- An operation that the payer does not look at. -/
theorem payer_ask {o : GatewayOp} {f : o.Answer → App ε α} {Q : α → PayerState → Prop}
    {E : ε → PayerState → Prop} (ho : o.Unbilled)
    (h : ∀ answer, (payerMonitor payer).Ensures env s (f answer) Q E) :
    (payerMonitor payer).Ensures env s (ask o >>= f) Q E := by
  refine .perform fun answer _ => ?_
  have hquiet : (payerMonitor payer).accepts s ⟨o, answer⟩ ∧ (payerMonitor payer).next s ⟨o, answer⟩ = s :=
    payer_quiet ho
  exact ⟨hquiet.1, by rw [hquiet.2]; exact h answer⟩

/-- A request that is admitted has passed the check of whoever pays for its key. -/
theorem checkAdmission_passes {model : Model} {estimatedTokens : Nat} (hspawned : s.spawned = false) :
    (payerMonitor payer).Ensures env s (checkAdmission apiKey model estimatedTokens)
      (fun _ s' => s'.spawned = false ∧ (payer.coversKey apiKey = true → s'.passed = true))
      fun _ _ => True := by
  have hlimit : (checkRateLimit apiKey model estimatedTokens).Only GatewayOp.Unbilled :=
    .perform trivial fun _ => .bind orThrow_only fun org => .perform trivial fun answer => by
      cases answer <;> exact trivial
  refine .bind (payer_unbilled hlimit) (fun _ s₁ hs₁ => ?_) fun _ _ _ => trivial
  subst hs₁
  refine .bind (Q := fun _ (s' : PayerState) => s'.spawned = false
      ∧ (payer = .endUser apiKey.userId apiKey.organizationId → s'.passed = true))
    (F := fun _ _ => True) (.perform fun answer _ => ⟨trivial, ?_⟩) (fun _ s₂ hs₂ => ?_) fun _ _ h => h
  · cases answer with
    | error e => exact .throw trivial
    | ok _ => exact .pure ⟨by simp [hspawned, spawnsLog], fun hpayer => by simp [hpayer, Payer.passes]⟩
  · obtain ⟨hspawned, huser⟩ := hs₂
    -- a key is covered by its user's budget or by its team's, and both have been checked
    have hcovers : payer.coversKey apiKey = true → payer = .endUser apiKey.userId apiKey.organizationId
        ∨ ∃ teamId, apiKey.teamId = some teamId ∧ payer = .team teamId := by
      unfold Payer.coversKey Payer.covers
      cases payer with
      | endUser userId orgId => simp +contextual
      | team teamId => simp +contextual
    unfold checkTeamBudget
    cases hteam : apiKey.teamId with
    | none =>
        refine .pure ⟨hspawned, fun hkey => ?_⟩
        rcases hcovers hkey with hpayer | ⟨teamId, hsome, -⟩
        · exact huser hpayer
        · simp [hteam] at hsome
    | some teamId =>
        refine .perform fun answer _ => ⟨trivial, ?_⟩
        cases answer with
        | error e => exact .throw trivial
        | ok _ =>
            refine .pure ⟨by simp [hspawned, spawnsLog], fun hkey => ?_⟩
            rcases hcovers hkey with hpayer | ⟨_, hsome, hpayer⟩
            · simp [huser hpayer]
            · cases hteam.symm.trans hsome
              simp [hpayer, Payer.passes]

/-- The end of a request logs it once. -/
theorem finishChat_logs {primary : Model} {model provider : String} {streamed : Bool}
    {tags : List String} {served : ChatServed} (hspawned : s.spawned = false)
    (hpassed : payer.coversKey apiKey = true → s.passed = true) :
    (payerMonitor payer).Keeps env s
      (finishChat state apiKey primary model provider streamed tags served) := by
  have hlog : ∀ cost, (payerMonitor payer).Keeps env s
      (do
        let duration ← ask .elapsed
        ask (.spawnRequestLog (chatLog apiKey primary served streamed tags cost duration))
        pure served.response : App Fault Response) := fun cost =>
    payer_ask trivial fun duration => .perform fun _ _ => ⟨⟨hspawned, hpassed⟩, .pure trivial⟩
  refine payer_ask trivial fun _ => payer_ask trivial fun _ => payer_ask trivial fun _ => ?_
  refine Monitor.Ensures.bind (payer_unbilled (unbilled_of_performs (Performs.recordUsage
    (List.mem_singleton_self _)) (by simp) (by simp))) (fun _ s' hs' => ?_) fun _ _ _ => trivial
  subst hs'
  dsimp only
  cases served.usage with
  | none => exact hlog none
  | some usage =>
      refine Monitor.Ensures.bind (payer_unbilled orPanic_only) (fun cost s' hs' => ?_)
        fun _ _ _ => trivial
      subst hs'
      exact hlog cost

theorem chatCompletions_logs {tags : Option String} {body : Bytes} :
    (payerMonitor payer).Keeps env ⟨false, false⟩ (chatCompletions state apiKey tags body) := by
  refine payer_ask trivial fun requestId => ?_
  cases hreq : state.body.chatRequest body with
  | none => exact .throw trivial
  | some req =>
      refine payer_ask trivial fun answer => ?_
      refine Monitor.Ensures.bind ensures_orThrow (fun primary s' hprimary => ?_) fun _ _ h => h
      obtain ⟨rfl, rfl⟩ := hprimary
      refine Monitor.Ensures.bind (Monitor.Ensures.mapError (checkAdmission_passes rfl))
        (fun _ s' hs' => ?_) fun _ _ h => h
      obtain ⟨hspawned, hpassed⟩ := hs'
      refine Monitor.Ensures.bind (payer_unbilled (unbilled_of_performs Performs.guardRequest (by simp)
        (by simp))) (fun guarded s'' hs'' => ?_) fun _ _ _ => trivial
      subst hs''
      refine payer_ask trivial fun _ => ?_
      split_ifs
      · refine Monitor.Ensures.bind (payer_unbilled (serveAgentic_only (fun o ho => ?_)
          fun completion => trivial)) (fun served s'' hs'' => ?_) fun _ _ _ => trivial
        · refine unbilled_of_kind ?_ ?_ <;>
          · rintro hkind
            simp [hkind] at ho
        · subst hs''
          exact finishChat_logs hspawned hpassed
      · refine Monitor.Ensures.bind (payer_unbilled (unbilled_of_performs Performs.serveFallback (by simp)
          (by simp))) (fun served s'' hs'' => ?_) fun _ _ _ => trivial
        subst hs''
        exact finishChat_logs hspawned hpassed

end Request

/-! ## The steps of a request in its own run -/

section Local

variable {payer : Payer} {s : PayerState} {tr : Trace}

/-- A log of the payer is spawned after a check that was passed. -/
theorem payer_passed {log : RequestLogEntry} {first second : Trace}
    (hsafe : (payerMonitor payer).Safe ⟨false, false⟩ (first ++ ⟨.spawnRequestLog log, ()⟩ :: second))
    (hcovers : payer.coversLog log = true) : ∃ step ∈ first, payer.passes step = true := by
  have hpassed : ∀ (s : PayerState) (tr : Trace), ((payerMonitor payer).after s tr).passed = true →
      s.passed = true ∨ ∃ step ∈ tr, payer.passes step = true := by
    intro s tr
    induction tr generalizing s with
    | nil => exact .inl
    | cons step rest ih =>
        intro h
        rcases ih _ h with hnow | ⟨step', hmem, hstep'⟩
        · rcases Bool.or_eq_true_iff.1 hnow with hbefore | hstep
          · exact .inl hbefore
          · exact .inr ⟨step, List.mem_cons_self, hstep⟩
        · exact .inr ⟨step', List.mem_cons_of_mem _ hmem, hstep'⟩
  have haccepts := (Monitor.safe_append.1 hsafe).2.1
  rcases hpassed _ _ (haccepts.2 hcovers) with hfalse | hstep
  · exact absurd hfalse Bool.false_ne_true
  · exact hstep

/-- At most one log is spawned. -/
theorem countP_spawnsLog_le (hsafe : (payerMonitor payer).Safe s tr) :
    tr.countP spawnsLog ≤ if s.spawned then 0 else 1 := by
  induction tr generalizing s with
  | nil => simp
  | cons step rest ih =>
      have hrest := ih hsafe.2
      cases hstep : spawnsLog step with
      | false => simpa [hstep] using hrest
      | true =>
          have hfresh : s.spawned = false := by
            obtain ⟨op, answer⟩ := step
            cases op with
            | spawnRequestLog log => exact hsafe.1.1
            | _ => simp [spawnsLog] at hstep
          simp only [hstep, Bool.or_true, if_true, Nat.le_zero] at hrest
          simp [hstep, hfresh, hrest]

end Local

/-! ## Many requests -/

/-- Requests run with their budget checks, provider calls and spawned inserts in any order: the database
    and the tasks are those of the world, and every request takes the first steps of a run of its own. -/
structure ChatHistory (state : AppState) (tables : BudgetTables) (calls : Nat → ChatCall) (s : LogWorld)
    (tr : LogHistory) : Prop where
  accepted : (logMonitor tables).Safe s tr
  own : ∀ i, ∃ rest out, ((calls i).serve state).Runs state.env (performedBy i tr ++ rest) out

/-- What a step is to the meter of the payer. -/
def Payer.event (payer : Payer) : Step RequestLogs → Option (MeterEvent Nat ℚ)
  | ⟨.perform i o, answer⟩ => if payer.passes ⟨o, answer⟩ then some (.grant i) else none
  | ⟨.insertLog i log, .ok ()⟩ =>
    (log.row.filter payer.coversRow).bind fun row => row.costUsd.map (.settle i)
  | ⟨.insertLog _ _, .error _⟩ => none

/-- What a history does to the meter of a payer. -/
def Payer.events (payer : Payer) (tr : LogHistory) : List (MeterEvent Nat ℚ) := tr.filterMap payer.event

/-- The step spawns, or runs, the task of the request. -/
def spawnsFor (i : Nat) : Step RequestLogs → Bool
  | ⟨.perform j o, answer⟩ => j = i && spawnsLog ⟨o, answer⟩
  | ⟨.insertLog _ _, _⟩ => false

/-- The insertion of a log of the request. -/
def insertsFor (i : Nat) : Step RequestLogs → Bool
  | ⟨.perform _ _, _⟩ => false
  | ⟨.insertLog j _, _⟩ => j = i

section World

variable {state : AppState} {tables : BudgetTables} {calls : Nat → ChatCall} {payer : Payer}
  {s : LogWorld} {tr first second : LogHistory} {i : Nat}

theorem performedBy_append (i : Nat) (first second : LogHistory) :
    performedBy i (first ++ second) = performedBy i first ++ performedBy i second :=
  List.filterMap_append

theorem performedBy_perform (i : Nat) (o : GatewayOp) (answer : o.Answer) (rest : LogHistory) :
    performedBy i (⟨.perform i o, answer⟩ :: rest) = ⟨o, answer⟩ :: performedBy i rest := by
  simp [performedBy]

theorem mem_performedBy {step : Step Gateway} :
    step ∈ performedBy i tr ↔ (⟨.perform i step.op, step.answer⟩ : Step RequestLogs) ∈ tr := by
  unfold performedBy
  rw [List.mem_filterMap]
  constructor
  · rintro ⟨⟨op, answer⟩, hmem, hstep⟩
    cases op with
    | insertLog j log => simp at hstep
    | perform j o =>
        by_cases hj : j = i
        · subst hj
          simp only [if_true, Option.some.injEq] at hstep
          subst hstep
          exact hmem
        · simp [hj] at hstep
  · intro hmem
    exact ⟨_, hmem, by simp⟩

/-- The steps of a request are those that its own monitor accepts. -/
theorem ChatHistory.payer_safe (h : ChatHistory state tables calls s tr) (payer : Payer) (i : Nat) :
    (payerMonitor payer).Safe ⟨false, false⟩ (performedBy i tr) := by
  obtain ⟨rest, out, hrun⟩ := h.own i
  exact (Monitor.safe_append.1 (chatCompletions_logs _ _ hrun).1).1

/-- A task that waits was spawned. -/
theorem mem_spawned {log : RequestLogEntry}
    (hmem : (i, log) ∈ ((logMonitor tables).after s tr).spawned) :
    (i, log) ∈ s.spawned ∨ (⟨.perform i (.spawnRequestLog log), ()⟩ : Step RequestLogs) ∈ tr := by
  induction tr generalizing s with
  | nil => exact .inl hmem
  | cons step rest ih =>
      rcases ih hmem with hnow | hrest
      · obtain ⟨op, answer⟩ := step
        cases op with
        | insertLog j log' =>
            cases answer <;> exact .inl (List.mem_of_mem_erase hnow)
        | perform j o =>
            cases o with
            | spawnRequestLog log' =>
                rcases List.mem_append.1 hnow with hbefore | hspawn
                · exact .inl hbefore
                · obtain ⟨rfl, rfl⟩ := Prod.mk.inj (List.mem_singleton.1 hspawn)
                  exact .inr List.mem_cons_self
            | _ => exact .inl hnow
      · exact .inr (List.mem_cons_of_mem _ hrest)

/-- A step of a request adds the task that it spawns, if it spawns one. -/
theorem countP_spawned_perform (i j : Nat) (o : GatewayOp) (answer : o.Answer) :
    ((logMonitor tables).next s ⟨.perform j o, answer⟩).spawned.countP (·.1 = i)
      = s.spawned.countP (·.1 = i) + if spawnsFor i ⟨.perform j o, answer⟩ then 1 else 0 := by
  cases o with
  | spawnRequestLog log => simp [spawnsFor, spawnsLog, List.countP_append, List.countP_cons]
  | _ =>
      change _ = _ + if (decide (j = i) && false) = true then 1 else 0
      rw [Bool.and_false]
      rfl

/-- Every task runs once at most: runs and waiting tasks add up to the tasks spawned. -/
theorem countP_inserts_add (hsafe : (logMonitor tables).Safe s tr) (i : Nat) :
    tr.countP (insertsFor i) + ((logMonitor tables).after s tr).spawned.countP (·.1 = i)
      = s.spawned.countP (·.1 = i) + tr.countP (spawnsFor i) := by
  induction tr generalizing s with
  | nil => simp
  | cons step rest ih =>
      have hrest := ih hsafe.2
      obtain ⟨op, answer⟩ := step
      cases op with
      | insertLog j log =>
          have hmem : (j, log) ∈ s.spawned := hsafe.1.1
          have hcount := (List.perm_cons_erase hmem).countP_eq fun entry => decide (entry.1 = i)
          rw [List.countP_cons] at hcount
          cases answer <;> simp_all [insertsFor, spawnsFor, List.countP_cons] <;> omega
      | perform j o =>
          have hspawned : ((logMonitor tables).next s ⟨.perform j o, answer⟩).spawned.countP (·.1 = i)
              = s.spawned.countP (·.1 = i) + if spawnsFor i ⟨.perform j o, answer⟩ then 1 else 0 :=
            countP_spawned_perform i j o answer
          have hinserts : insertsFor i ⟨.perform j o, answer⟩ = false := rfl
          rw [hspawned] at hrest
          rw [List.countP_cons, List.countP_cons, hinserts, Monitor.after_cons, if_neg Bool.false_ne_true,
            Nat.add_zero, hrest]
          omega

theorem countP_spawnsFor (i : Nat) (tr : LogHistory) :
    tr.countP (spawnsFor i) = (performedBy i tr).countP spawnsLog := by
  induction tr with
  | nil => rfl
  | cons step rest ih =>
      obtain ⟨op, answer⟩ := step
      cases op with
      | insertLog j log => simpa [performedBy, spawnsFor, List.countP_cons] using ih
      | perform j o =>
          by_cases hj : j = i
          · subst hj
            rw [performedBy_perform j o answer rest, List.countP_cons, List.countP_cons, ih]
            simp [spawnsFor]
          · simpa [performedBy, spawnsFor, List.countP_cons, hj] using ih

theorem ChatHistory.inserts_le_one (h : ChatHistory state tables calls s tr) (hstart : s.spawned = [])
    (i : Nat) : tr.countP (insertsFor i) ≤ 1 := by
  have hspawned := countP_spawnsLog_le (h.payer_safe (.team 0) i)
  have hcount := countP_inserts_add h.accepted i
  rw [hstart, countP_spawnsFor] at hcount
  simp only [List.countP_nil, Nat.zero_add] at hcount
  rw [if_neg (by simp)] at hspawned
  omega

/-! ### The meter -/

theorem events_append (payer : Payer) (first second : LogHistory) :
    payer.events (first ++ second) = payer.events first ++ payer.events second :=
  List.filterMap_append

theorem events_cons (payer : Payer) (step : Step RequestLogs) (rest : LogHistory) :
    payer.events (step :: rest) = (payer.event step).toList ++ payer.events rest := by
  unfold Payer.events
  rw [List.filterMap_cons]
  cases payer.event step <;> rfl

theorem event_perform (payer : Payer) (i : Nat) (o : GatewayOp) (answer : o.Answer) :
    payer.event ⟨.perform i o, answer⟩ = if payer.passes ⟨o, answer⟩ then some (.grant i) else none :=
  rfl

theorem event_stored (payer : Payer) (i : Nat) (log : RequestLogEntry) :
    payer.event ⟨.insertLog i log, .ok ()⟩
      = (log.row.filter payer.coversRow).bind fun row => row.costUsd.map (.settle i) :=
  rfl

theorem event_grant {step : Step RequestLogs} (h : payer.event step = some (.grant i)) :
    ∃ o answer, step = ⟨.perform i o, answer⟩ ∧ payer.passes ⟨o, answer⟩ = true := by
  obtain ⟨op, answer⟩ := step
  cases op with
  | insertLog j log =>
      cases answer with
      | error e => cases h
      | ok _ =>
          obtain ⟨row, -, hcost⟩ := Option.bind_eq_some_iff.1 ((event_stored payer j log).symm.trans h)
          obtain ⟨amount, -, hadmit⟩ := Option.map_eq_some_iff.1 hcost
          cases hadmit
  | perform j o =>
      rw [event_perform payer j o answer] at h
      split_ifs at h with hpasses
      cases h
      exact ⟨o, answer, rfl, hpasses⟩

theorem event_settle {step : Step RequestLogs} {amount : ℚ}
    (h : payer.event step = some (.settle i amount)) :
    ∃ log row, step = ⟨.insertLog i log, .ok ()⟩ ∧ log.row = some row ∧ payer.coversRow row = true
      ∧ row.costUsd = some amount := by
  obtain ⟨op, answer⟩ := step
  cases op with
  | perform j o =>
      rw [event_perform payer j o answer] at h
      split_ifs at h
      cases h
  | insertLog j log =>
      cases answer with
      | error e => cases h
      | ok _ =>
          obtain ⟨row, hfilter, hcost⟩ :=
            Option.bind_eq_some_iff.1 ((event_stored payer j log).symm.trans h)
          obtain ⟨hrow, hcovers⟩ := Option.filter_eq_some_iff.1 hfilter
          obtain ⟨amount', hcost, hsettle⟩ := Option.map_eq_some_iff.1 hcost
          cases hsettle
          exact ⟨log, row, rfl, hrow, hcovers, hcost⟩

/-- The row of a log belongs to whoever pays for the log. -/
theorem coversRow_row {log : RequestLogEntry} {row : LoggedRequest} (h : log.row = some row) :
    payer.coversRow row = payer.coversLog log := by
  unfold RequestLogEntry.row at h
  split at h
  · cases h
    rfl
  · obtain ⟨cost, -, rfl⟩ := Option.map_eq_some_iff.1 h
    rfl

/-- A row that is stored is settled. -/
theorem settled_stored {log : RequestLogEntry} {row : LoggedRequest} (hrow : log.row = some row) :
    ((MeterEvent.settled (payer.event ⟨.insertLog i log, .ok ()⟩).toList).map Prod.snd).sum
      = payer.spent [row] := by
  rw [event_stored, hrow]
  by_cases hcovers : payer.coversRow row = true
  · cases hcost : row.costUsd <;> simp [Option.filter_some, Payer.spent, spentBy, hcovers, hcost]
  · simp [Option.filter_some, Payer.spent, spentBy, hcovers]

/-- A step adds what it settles. -/
theorem spent_step {step : Step RequestLogs} (haccepts : (logMonitor tables).accepts s step) :
    payer.spent ((logMonitor tables).next s step).logs = payer.spent s.logs
      + ((MeterEvent.settled (payer.event step).toList).map Prod.snd).sum := by
  obtain ⟨op, answer⟩ := step
  cases op with
  | perform i o =>
      have hnone : MeterEvent.settled (payer.event ⟨.perform i o, answer⟩).toList = [] := by
        rw [event_perform payer i o answer]
        split_ifs <;> rfl
      have hlogs : ((logMonitor tables).next s ⟨.perform i o, answer⟩).logs = s.logs := by
        cases o <;> rfl
      rw [hnone, hlogs]
      simp
  | insertLog i log =>
      cases answer with
      | error e =>
          have hnone : payer.event ⟨.insertLog i log, .error e⟩ = none := rfl
          rw [hnone]
          simp
      | ok _ =>
          obtain ⟨row, hrow⟩ := Option.isSome_iff_exists.1 (haccepts.2 rfl)
          rw [settled_stored hrow]
          simp [Payer.spent, spentBy, hrow]

/-- What is logged for the payer is what the meter shows. -/
theorem spent_after (hsafe : (logMonitor tables).Safe s tr) :
    payer.spent ((logMonitor tables).after s tr).logs
      = MeterEvent.total (payer.spent s.logs) (payer.events tr) := by
  induction tr generalizing s with
  | nil => simp [Payer.events]
  | cons step rest ih =>
      rw [Monitor.after_cons, ih hsafe.2, spent_step hsafe.1, events_cons]
      simp [MeterEvent.total, add_assoc]

theorem lt_of_checkMaxBudget {maxBudget : Option (Option Decimal)} {spent : ℚ} {budget : Decimal}
    (hbudget : maxBudget.join = some budget)
    (h : Verdict (checkMaxBudget maxBudget spent) (.ok ())) : spent < budget.1 := by
  obtain rfl := Option.join_eq_some_iff.1 hbudget
  rcases h with hok | ⟨msg, hmsg⟩
  · by_contra hle
    rw [checkMaxBudget, if_pos (not_lt.1 hle)] at hok
    cases hok
  · cases hmsg

/-- Where a check is passed less than the budget is logged. -/
theorem spent_lt_of_passes {budget : Decimal} (hbudget : payer.maxBudget tables = some budget)
    {o : GatewayOp} {answer : o.Answer} (hpasses : payer.passes ⟨o, answer⟩ = true)
    (haccepts : (logMonitor tables).accepts s ⟨.perform i o, answer⟩) :
    payer.spent s.logs < budget.1 := by
  cases o with
  | checkEndUserBudget userId orgId =>
      cases answer with
      | error e => simp [Payer.passes] at hpasses
      | ok _ =>
          obtain rfl : payer = .endUser userId orgId := of_decide_eq_true hpasses
          exact lt_of_checkMaxBudget hbudget haccepts
  | checkTeamBudget teamId =>
      cases answer with
      | error e => simp [Payer.passes] at hpasses
      | ok _ =>
          obtain rfl : payer = .team teamId := of_decide_eq_true hpasses
          exact lt_of_checkMaxBudget hbudget haccepts
  | _ => simp [Payer.passes] at hpasses

/-- Where an event of the meter stands in the history. -/
theorem events_split {before after : List (MeterEvent Nat ℚ)} {event : MeterEvent Nat ℚ}
    (h : payer.events tr = before ++ event :: after) :
    ∃ first step second, tr = first ++ step :: second ∧ payer.events first = before
      ∧ payer.event step = some event := by
  obtain ⟨first, rest, rfl, hfirst, hrest⟩ := List.filterMap_eq_append_iff.1 h
  obtain ⟨skipped, step, second, rfl, hskipped, hstep, -⟩ := List.filterMap_eq_cons_iff.1 hrest
  refine ⟨first ++ skipped, step, second, by simp, ?_, hstep⟩
  rw [events_append, Payer.events, hfirst, Payer.events, List.filterMap_eq_nil_iff.2 hskipped,
    List.append_nil]

theorem count_settled_le (payer : Payer) (tr : LogHistory) (i : Nat) :
    ((MeterEvent.settled (payer.events tr)).map Prod.fst).count i ≤ tr.countP (insertsFor i) := by
  induction tr with
  | nil => exact Nat.zero_le _
  | cons step rest ih =>
      have hstep : ((MeterEvent.settled (payer.event step).toList).map Prod.fst).count i
          ≤ if insertsFor i step then 1 else 0 := by
        rcases hevent : payer.event step with _ | ⟨j | ⟨j, amount⟩⟩
        · exact Nat.zero_le _
        · exact Nat.zero_le _
        · obtain ⟨log, row, rfl, -⟩ := event_settle hevent
          by_cases hj : j = i <;> simp [insertsFor, hj]
      rw [events_cons, MeterEvent.settled_append, List.map_append, List.count_append, List.countP_cons]
      omega

/-- A request whose row is written for the payer has passed the check of the payer. -/
theorem ChatHistory.admitted {log : RequestLogEntry}
    (h : ChatHistory state tables calls s (first ++ ⟨.insertLog i log, .ok ()⟩ :: second))
    (hstart : s.spawned = []) (hcovers : payer.coversLog log = true) :
    MeterEvent.grant i ∈ payer.events first := by
  have hwaits : (i, log) ∈ ((logMonitor tables).after s first).spawned :=
    (Monitor.safe_append.1 h.accepted).2.1.1
  rcases mem_spawned hwaits with hbefore | hspawn
  · simp [hstart] at hbefore
  · obtain ⟨earlier, later, rfl⟩ := List.append_of_mem hspawn
    have hsafe := h.payer_safe payer i
    rw [performedBy_append, performedBy_append,
      performedBy_perform i (.spawnRequestLog log) () later] at hsafe
    obtain ⟨step, hmem, hpasses⟩ := payer_passed (Monitor.safe_append.1 hsafe).1 hcovers
    refine List.mem_filterMap.2 ⟨_, List.mem_append_left _ (mem_performedBy.1 hmem), ?_⟩
    rw [event_perform payer i step.op step.answer]
    exact if_pos hpasses

/-- To the requests of a history the log of the payer is a meter with the budget as its limit. -/
theorem ChatHistory.metered (h : ChatHistory state tables calls s tr) (hstart : s.spawned = [])
    {budget : Decimal} (hbudget : payer.maxBudget tables = some budget) :
    LimitedMeter budget.1 (payer.spent s.logs) (payer.events tr) where
  below := by
    intro before i after hsplit
    obtain ⟨first, step, second, rfl, rfl, hevent⟩ := events_split hsplit
    obtain ⟨o, answer, rfl, hpasses⟩ := event_grant hevent
    obtain ⟨hsafe, haccepts, -⟩ := Monitor.safe_append.1 h.accepted
    rw [← spent_after hsafe]
    exact spent_lt_of_passes hbudget hpasses haccepts
  admitted := by
    intro before i amount after hsplit
    obtain ⟨first, step, second, rfl, rfl, hevent⟩ := events_split hsplit
    obtain ⟨log, row, rfl, hrow, hcovers, -⟩ := event_settle hevent
    exact h.admitted hstart (coversRow_row hrow ▸ hcovers)
  once := List.nodup_iff_count_le_one.2 fun i =>
    (count_settled_le payer tr i).trans (h.inserts_le_one hstart i)

/-- However the requests of a payer interleave, the total logged for it stays where it was, or exceeds
    its budget by less than the requests cost that were in flight when the last of them was admitted. -/
theorem spent_le_inFlight (state : AppState) (tables : BudgetTables) (payer : Payer) (budget : Decimal)
    (hbudget : payer.maxBudget tables = some budget) (calls : Nat → ChatCall) (s : LogWorld)
    (hstart : s.spawned = []) (tr : LogHistory) (h : ChatHistory state tables calls s tr) :
    payer.spent ((logMonitor tables).after s tr).logs = payer.spent s.logs
      ∨ ∃ before i after, LastAdmission (payer.events tr) before i after
        ∧ payer.spent ((logMonitor tables).after s tr).logs
          < budget.1 + ((MeterEvent.settled after).map Prod.snd).sum := by
  rw [spent_after h.accepted]
  exact (h.metered hstart hbudget).total_lt

end World

/-! ## Two requests at once -/

/-- A key of team 7. -/
def teamKey : ApiKey := { openKey [] with teamId := some 7 }

/-- The team may spend one dollar. -/
def dollar : Decimal := ⟨(1 : ℤ), isDecimal_intCast (by decide)⟩

/-- A team with a dollar. -/
def teamTables : BudgetTables := ⟨fun _ _ => none, fun _ => some (some dollar)⟩

/-- A million tokens in, for two dollars. -/
def costlyAnswer : (o : GatewayOp) → o.Answer
  | .adapter _ _ => .ok (.chat emptyCompletion,
      { UsageReport.default with promptTokens := some 1000000, completionTokens := some 0 })
  | o => playAnswer pricedState .new o

/-- The run of the sample request under these answers. -/
def costlyRun : Except Fault Response × Trace × Unit :=
  (chatCompletions pricedState teamKey none sampleBody).exec (fun o _ => (costlyAnswer o, ())) ()

theorem costlyRun_runs :
    (chatCompletions pricedState teamKey none sampleBody).Runs pricedState.env costlyRun.2.1 costlyRun.1 := by
  refine (@Monitor.exec_safe Gateway ⟨Unit, fun _ _ => (), fun _ _ => True⟩ pricedState.env _ _
    (fun o _ => (costlyAnswer o, ())) (fun o _ => ?_) (fun _ _ => trivial) (fun _ _ => rfl) _ ()).1
  cases o <;> first | exact trivial | exact ⟨.new, rfl⟩ | exact ⟨Possible.noGuardrails, downService, rfl⟩

/-- The steps of a request in a history of many. -/
def performStep (i : Nat) (step : Step Gateway) : Step RequestLogs := ⟨.perform i step.op, step.answer⟩

/-- The log that the step spawns. -/
def spawnedLog : Step Gateway → Option RequestLogEntry
  | ⟨.spawnRequestLog log, _⟩ => some log
  | _ => none

/-- The step is no budget check, or one that was passed. -/
def passesAll : Step Gateway → Bool
  | ⟨.checkEndUserBudget _ _, .error _⟩ => false
  | ⟨.checkTeamBudget _, .error _⟩ => false
  | _ => true

theorem performedBy_map (i j : Nat) (run : Trace) :
    performedBy j (run.map (performStep i)) = if i = j then run else [] := by
  by_cases h : i = j <;> simp [performedBy, performStep, List.filterMap_map, Function.comp_def, h]

/-- Before anything is logged a request passes its checks, and leaves a task. -/
theorem performSteps_safe (i : Nat) {run : Trace} (waiting : List (Nat × RequestLogEntry))
    (hpasses : ∀ step ∈ run, passesAll step = true) :
    (logMonitor teamTables).Safe ⟨[], waiting⟩ (run.map (performStep i))
      ∧ (logMonitor teamTables).after ⟨[], waiting⟩ (run.map (performStep i))
        = ⟨[], waiting ++ (run.filterMap spawnedLog).map (i, ·)⟩ := by
  induction run generalizing waiting with
  | nil => simp
  | cons step rest ih =>
      obtain ⟨hstep, hrest⟩ := List.forall_mem_cons.1 hpasses
      obtain ⟨op, answer⟩ := step
      have hfree : ∀ teamId, teamTables.checkTeamBudget [] teamId = .ok () := by
        intro teamId
        have hbudget : spentBy [] (fun row => row.teamId = some teamId) < dollar.1 := by
          simp [spentBy, dollar]
        unfold BudgetTables.checkTeamBudget teamTables checkMaxBudget
        exact if_neg (not_le.2 hbudget)
      rw [List.map_cons, Monitor.safe_cons, Monitor.after_cons]
      cases op with
      | checkEndUserBudget userId orgId =>
          cases answer with
          | error e => simp [passesAll] at hstep
          | ok _ => exact ⟨⟨.inl rfl, (ih _ hrest).1⟩, (ih _ hrest).2⟩
      | checkTeamBudget teamId =>
          cases answer with
          | error e => simp [passesAll] at hstep
          | ok _ => exact ⟨⟨.inl (hfree teamId).symm, (ih _ hrest).1⟩, (ih _ hrest).2⟩
      | spawnRequestLog log =>
          refine ⟨⟨trivial, (ih _ hrest).1⟩, (ih _ hrest).2.trans ?_⟩
          simp [spawnedLog]
      | _ => exact ⟨⟨trivial, (ih _ hrest).1⟩, (ih _ hrest).2⟩

/-- A request of two dollars for that team. -/
def costlyLog : RequestLogEntry where
  apiKeyId := 0
  userId := 0
  organizationId := 0
  teamId := some 7
  model := "gpt"
  provider := "openai"
  providerModelId := "gpt"
  capability := "chat"
  durationMs := 0
  streamed := false
  status := "success"
  costUsd := some ⟨(2 : ℤ), isDecimal_intCast (by decide)⟩
  tags := []
  attemptNumber := 1
  fallbackTriggered := false
  toolCallsCount := none
  agenticIteration := none

/-- The row of that entry. -/
def costlyRow : LoggedRequest := ⟨some 0, 0, some 7, some 2⟩

theorem costlyLog_row : costlyLog.row = some costlyRow := by
  have hfloor : ⌊(2 : ℚ) * 10 ^ 6 + 1 / 2⌋ = 2000000 := Int.floor_eq_iff.2 (by norm_num)
  have hcolumn : numericColumn 12 6 2 = some 2 := by
    simp only [numericColumn, hfloor, Nat.ofNat_nonneg, if_true]
    norm_num
  change (numericColumn 12 6 ((2 : ℤ) : ℚ)).map _ = _
  rw [Int.cast_ofNat, hcolumn]
  rfl

/-- Two requests are admitted and answered, and then the tasks of both run. -/
def atOnce : LogHistory :=
  costlyRun.2.1.map (performStep 0) ++ costlyRun.2.1.map (performStep 1)
    ++ [⟨.insertLog 0 costlyLog, .ok ()⟩, ⟨.insertLog 1 costlyLog, .ok ()⟩]

theorem atOnce_world :
    (logMonitor teamTables).Safe ⟨[], []⟩ atOnce
      ∧ (logMonitor teamTables).after ⟨[], []⟩ atOnce = ⟨[costlyRow, costlyRow], []⟩ := by
  have hpasses : ∀ step ∈ costlyRun.2.1, passesAll step = true := by decide +kernel
  have hspawned : costlyRun.2.1.filterMap spawnedLog = [costlyLog] := by decide +kernel
  obtain ⟨hfirst, hafter⟩ := performSteps_safe 0 [] hpasses
  obtain ⟨hsecond, hafter'⟩ := performSteps_safe 1 [(0, costlyLog)] hpasses
  rw [hspawned] at hafter hafter'
  unfold atOnce
  simp only [Monitor.safe_append, Monitor.after_append, hafter, List.nil_append, List.map_cons,
    List.map_nil, hafter', Monitor.safe_cons, Monitor.after_cons]
  refine ⟨⟨⟨hfirst, hsecond⟩, ⟨by simp, fun _ => by rw [costlyLog_row]; rfl⟩,
    ⟨by simp, fun _ => by rw [costlyLog_row]; rfl⟩, trivial⟩, ?_⟩
  simp [costlyLog_row]

theorem atOnce_history :
    ChatHistory pricedState teamTables (fun _ => ⟨teamKey, none, sampleBody⟩) ⟨[], []⟩ atOnce := by
  refine ⟨atOnce_world.1, fun i => ?_⟩
  unfold atOnce
  have htasks : performedBy i [⟨.insertLog 0 costlyLog, .ok ()⟩, ⟨.insertLog 1 costlyLog, .ok ()⟩] = [] :=
    rfl
  rw [performedBy_append, performedBy_append, performedBy_map, performedBy_map, htasks, List.append_nil]
  by_cases hzero : 0 = i
  · exact ⟨[], costlyRun.1, by simpa [← hzero, ChatCall.serve] using costlyRun_runs⟩
  · by_cases hone : 1 = i
    · exact ⟨[], costlyRun.1, by simpa [← hone, ChatCall.serve] using costlyRun_runs⟩
    · refine ⟨costlyRun.2.1, costlyRun.1, ?_⟩
      rw [if_neg hzero, if_neg hone]
      exact costlyRun_runs

/-- After two admissions in a row both requests settle two dollars, on a budget of one. -/
theorem atOnce_spent :
    (Payer.team 7).spent ((logMonitor teamTables).after ⟨[], []⟩ atOnce).logs = 4 := by
  rw [atOnce_world.2]
  decide +kernel

/-- The team is at four dollars, less than its budget of one and the two that were in flight. -/
theorem spent_le_inFlight_atOnce :
    (Payer.team 7).spent ((logMonitor teamTables).after ⟨[], []⟩ atOnce).logs = 4
      ∧ ∃ before i after, LastAdmission ((Payer.team 7).events atOnce) before i after
        ∧ (4 : ℚ) < dollar.1 + ((MeterEvent.settled after).map Prod.snd).sum := by
  refine ⟨atOnce_spent, ?_⟩
  have hbound := spent_le_inFlight pricedState teamTables (.team 7) dollar rfl
    (fun _ => ⟨teamKey, none, sampleBody⟩) ⟨[], []⟩ rfl atOnce atOnce_history
  rw [atOnce_spent] at hbound
  rcases hbound with hsame | hlast
  · exact absurd hsame (by decide +kernel)
  · exact hlast

/-- Two requests at once exceed the budget by more than either of them costs. -/
theorem spent_exceeds_largest :
    ¬ ∀ (state : AppState) (tables : BudgetTables) (payer : Payer) (budget : Decimal),
        payer.maxBudget tables = some budget → ∀ (calls : Nat → ChatCall) (tr : LogHistory),
        ChatHistory state tables calls ⟨[], []⟩ tr → ∀ largest : ℚ,
        (∀ i amount, .settle i amount ∈ payer.events tr → amount ≤ largest) →
        payer.spent ((logMonitor tables).after ⟨[], []⟩ tr).logs ≤ budget.1 + largest := by
  intro hall
  have hlargest : ∀ i amount, .settle i amount ∈ (Payer.team 7).events atOnce → amount ≤ 2 := by
    intro i amount hmem
    obtain ⟨step, hstep, hevent⟩ := List.mem_filterMap.1 hmem
    obtain ⟨log, row, rfl, hrow, -, hcost⟩ := event_settle hevent
    have hlog : log = costlyLog := by
      simp only [atOnce, performStep, List.mem_append, List.mem_map, List.mem_cons, List.not_mem_nil,
        or_false] at hstep
      rcases hstep with (⟨step, -, hstep⟩ | ⟨step, -, hstep⟩) | hstep | hstep <;> cases hstep <;> rfl
    rw [hlog, costlyLog_row] at hrow
    cases hrow
    cases hcost
    exact le_rfl
  have hbound := hall pricedState teamTables (.team 7) dollar rfl _ atOnce atOnce_history 2 hlargest
  rw [atOnce_spent] at hbound
  exact absurd hbound (by decide +kernel)

end Godwit
