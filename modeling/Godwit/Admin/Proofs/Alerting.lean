import Godwit.Admin.Alerting
import Godwit.Admin.Proofs.Spend

set_option autoImplicit false

/-! # Which alerts are sent

A config is due when its spend has reached its share of the budget. The query of the spend names a column `org_id`
that `request_logs` does not have, so a pass over the configs ends at the first one and no webhook is ever called:
the configs that are due get their alert exactly when there are none (`checkBudgets_attempts_iff`). -/

namespace Godwit

namespace AlertingDb

variable (db : AlertingDb)

/-- The budget of the narrowest scope, zero where there is none. -/
def budget (config : AlertingConfig) : ℚ :=
  match config.apiKeyId, config.teamId with
  | some keyId, _ => ((db.keys.find? keyId).bind fun key => key.budgetLimitUsd).elim 0 Subtype.val
  | none, some tid => ((db.teams.find? tid).bind fun team => team.budgetUsd).elim 0 Subtype.val
  | none, none => 0

/-- The spend has reached the share of the budget. -/
def IsDue (config : AlertingConfig) : Prop :=
  0 < db.budget config
    ∧ db.budget config * config.budgetThresholdPercent.toInt / 100
      ≤ db.spend config.orgId config.teamId config.apiKeyId

end AlertingDb

/-- A webhook was called for the config. -/
def Attempted (config : AlertingConfig) (tr : List (Step AlertingStore)) : Prop :=
  ∃ step ∈ tr, ∃ url payload, step.op = .post config url payload

open Program

variable {db : AlertingDb} {f64 : ℚ → ℚ} {tr : List (Step AlertingStore)}

theorem selectSpend_fails {orgId teamId apiKeyId : Option Uuid} {answer : Except String (Option Decimal)}
    (h : db.answers migratedSchema (.selectSpend orgId teamId apiKeyId) answer) :
    ∃ message, answer = .error message := by
  have hundefined : Statement.definedBy migratedSchema
      ⟨"request_logs", ["cost_usd", "org_id", "team_id", "api_key_id"]⟩ = false := by decide
  simpa only [AlertingDb.answers, AlertingDb.Answered, hundefined, Bool.false_eq_true, if_false] using h

/-- The query of the spend is all there is of a run that asks for it. -/
theorem getCurrentSpend_fails {orgId teamId apiKeyId : Option Uuid} {out : Except AlertingError ℚ}
    (h : Runs (db.answers migratedSchema) (getCurrentSpend f64 orgId teamId apiKeyId) tr out) :
    ∃ message, tr = [⟨.selectSpend orgId teamId apiKeyId, .error message⟩] ∧ out = .error (.database message) := by
  obtain ⟨answer, rest, rfl, henv, hrest⟩ := runs_perform_bind_iff.1 h
  obtain ⟨message, rfl⟩ := selectSpend_fails henv
  obtain ⟨rfl, rfl⟩ := runs_throw_iff.1 hrest
  exact ⟨message, rfl, rfl⟩

theorem checkConfig_fails {config : AlertingConfig} {out : Except AlertingError Unit}
    (h : Runs (db.answers migratedSchema) (checkConfig f64 config) tr out) :
    (∃ e, out = .error e) ∧ ∀ other, ¬ Attempted other tr := by
  rcases runs_bind_iff.1 h with ⟨e, hspend, rfl⟩ | ⟨spend, first, second, rfl, hspend, -⟩
  · obtain ⟨message, rfl, -⟩ := getCurrentSpend_fails hspend
    refine ⟨⟨e, rfl⟩, ?_⟩
    rintro other ⟨step, hstep, url, payload, hop⟩
    rw [List.mem_singleton.1 hstep] at hop
    cases hop
  · obtain ⟨message, -, hout⟩ := getCurrentSpend_fails hspend
    cases hout

/-- The first config stops the loop. -/
theorem checkConfigs_attempts {configs : List AlertingConfig} {out : Except AlertingError Unit}
    (h : Runs (db.answers migratedSchema) (checkConfigs f64 configs) tr out) (other : AlertingConfig) :
    ¬ Attempted other tr := by
  cases configs with
  | nil =>
      obtain ⟨rfl, -⟩ := runs_pure_iff.1 h
      rintro ⟨step, hstep, -⟩
      exact absurd hstep List.not_mem_nil
  | cons config rest =>
      rcases runs_bind_iff.1 h with ⟨e, hconfig, rfl⟩ | ⟨_, first, second, rfl, hconfig, -⟩
      · exact (checkConfig_fails hconfig).2 other
      · obtain ⟨⟨e, hout⟩, -⟩ := checkConfig_fails hconfig
        cases hout

theorem checkBudgets_attempts_nothing {out : Except AlertingError Unit}
    (h : Runs (db.answers migratedSchema) (checkBudgets f64) tr out) (config : AlertingConfig) :
    ¬ Attempted config tr := by
  have hselect : ∀ {out : Except AlertingError (List AlertingConfig)} {tr : List (Step AlertingStore)},
      Runs (db.answers migratedSchema) getAlertingConfigs tr out → ¬ Attempted config tr := by
    intro out tr hrun
    obtain ⟨answer, rest, rfl, -, hrest⟩ := runs_perform_bind_iff.1 hrun
    obtain ⟨rfl, -⟩ := runs_ofExcept_iff.1 hrest
    rintro ⟨step, hstep, url, payload, hop⟩
    rw [List.mem_singleton.1 hstep] at hop
    cases hop
  rcases runs_bind_iff.1 h with ⟨e, hconfigs, -⟩ | ⟨configs, first, second, rfl, hconfigs, hloop⟩
  · exact hselect hconfigs
  · rintro ⟨step, hstep, hop⟩
    rcases List.mem_append.1 hstep with hstep | hstep
    · exact hselect hconfigs ⟨step, hstep, hop⟩
    · exact checkConfigs_attempts hloop config ⟨step, hstep, hop⟩

theorem checkBudgets_attempts_iff {out : Except AlertingError Unit}
    (h : Runs (db.answers migratedSchema) (checkBudgets f64) tr out) :
    (∀ config ∈ db.enabledConfigs, db.IsDue config → Attempted config tr)
      ↔ ∀ config ∈ db.enabledConfigs, ¬ db.IsDue config := by
  have hnothing := checkBudgets_attempts_nothing h
  exact forall₂_congr fun config _ =>
    ⟨fun hsent hdue => hnothing config (hsent hdue), fun hnot hdue => absurd hdue hnot⟩

/-! ## A team that has spent twice its budget -/

/-- A team with a budget of one dollar. -/
def overspentTeam : Team := ⟨7, 10, "research", some (.ofInt32 1), none, 0⟩

/-- Its alert, at four fifths of the budget. -/
def overspentConfig : AlertingConfig := ⟨1, none, some 7, none, 80, "https://example.com/webhook", true⟩

/-- The team has spent three dollars. -/
def overspentDb : AlertingDb where
  configs := .single overspentConfig
  logs := .single { dollarLog 1 3 with teamId := some 7 }
  keys := .empty
  teams := .single overspentTeam

theorem overspentConfig_isDue : overspentDb.IsDue overspentConfig := by
  have hone : (Int32.toInt 1 : ℚ) = 1 := by exact_mod_cast (by decide : Int32.toInt 1 = 1)
  have htwo : (Int32.toInt 2 : ℚ) = 2 := by exact_mod_cast (by decide : Int32.toInt 2 = 2)
  have hpercent : (Int32.toInt 80 : ℚ) = 80 := by exact_mod_cast (by decide : Int32.toInt 80 = 80)
  have hbudget : overspentDb.budget overspentConfig = 1 := hone
  have hspend : overspentDb.spend none (some 7) none = 2 := by
    refine Eq.trans ?_ htwo
    decide +kernel
  refine ⟨by rw [hbudget]; norm_num, ?_⟩
  show overspentDb.budget overspentConfig * (Int32.toInt 80 : ℚ) / 100 ≤ overspentDb.spend none (some 7) none
  rw [hbudget, hspend, hpercent]
  norm_num

/-- The run on it, with the words of the database. -/
def overspentRun : List (Step AlertingStore) :=
  [⟨.selectConfigs, .ok [overspentConfig]⟩,
   ⟨.selectSpend none (some 7) none, .error "column \"org_id\" does not exist"⟩]

theorem overspentRun_runs :
    Runs (overspentDb.answers migratedSchema) (checkBudgets id) overspentRun
      (.error (.database "column \"org_id\" does not exist")) := by
  have hconfigs : overspentDb.answers migratedSchema .selectConfigs (.ok [overspentConfig]) := by
    exact List.Perm.refl _
  have hspend : overspentDb.answers migratedSchema (.selectSpend none (some 7) none)
      (.error "column \"org_id\" does not exist") := ⟨_, rfl⟩
  exact .op hconfigs (.op hspend (.throw _))

theorem checkBudgets_attempts_iff_overspent :
    (∀ config ∈ overspentDb.enabledConfigs, overspentDb.IsDue config → Attempted config overspentRun)
      ↔ ∀ config ∈ overspentDb.enabledConfigs, ¬ overspentDb.IsDue config :=
  checkBudgets_attempts_iff overspentRun_runs

/-- The team's alert is due and is not sent. -/
theorem checkBudgets_omits_due :
    ¬ ∀ (db : AlertingDb) (tr : List (Step AlertingStore)) (out : Except AlertingError Unit),
      Runs (db.answers migratedSchema) (checkBudgets id) tr out →
      ∀ config ∈ db.enabledConfigs, db.IsDue config → Attempted config tr := by
  intro h
  have hattempted := h overspentDb overspentRun _ overspentRun_runs overspentConfig (by decide) overspentConfig_isDue
  exact checkBudgets_attempts_nothing overspentRun_runs overspentConfig hattempted

end Godwit
