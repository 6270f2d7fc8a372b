import Mathlib.Algebra.Order.Ring.Rat
import Mathlib.Tactic.FieldSimp
import Mathlib.Tactic.Linarith
import Godwit.Admin.Spend

set_option autoImplicit false

/-! # What spend reports show

Both scopes admit rows of the caller only, and everything after the `WHERE` clause is computed of the rows that
it admits. The groups of each report are a partition of these rows, so that all sum up to the same. -/

namespace Godwit

/-! ## Answers of a query -/

section Answers

variable {γ β κ ρ : Type} {before : γ → γ → Prop} {rows rows' : List γ} {decode : γ → Except String β}

theorem mapM_eq_ok_iff {result : List γ} {found : List β} :
    result.mapM decode = .ok found ↔ result.map decode = found.map .ok := by
  induction result generalizing found with
  | nil => cases found <;> simp [pure, Except.pure]
  | cons row result ih =>
      rw [List.mapM_cons]
      cases hrow : decode row with
      | error e => cases found <;> simp [bind, Except.bind, hrow]
      | ok first =>
          cases hrest : result.mapM decode with
          | error e =>
              cases found with
              | nil => simp [bind, Except.bind]
              | cons first' rest =>
                  have hne : ¬ result.map decode = rest.map .ok := by
                    intro h
                    rw [ih.2 h] at hrest
                    cases hrest
                  simp [bind, Except.bind, hrow, hne]
          | ok rest =>
              cases found with
              | nil => simp [bind, Except.bind, pure, Except.pure]
              | cons first' rest' =>
                  have hrest' := @ih rest'
                  rw [hrest, Except.ok.injEq] at hrest'
                  simp [bind, Except.bind, pure, Except.pure, hrow, hrest']

/-- The answers do not depend on the order of the groups. -/
theorem Returned.congr (h : rows.Perm rows') (answer : Except String (List β)) :
    Returned before rows decode answer ↔ Returned before rows' decode answer :=
  exists_congr fun _ => and_congr_left fun _ => Arrangement.congr h

/-- Two answers have the same rows. -/
theorem Returned.perm {found found' : List β} (h : Returned before rows decode (.ok found))
    (h' : Returned before rows decode (.ok found')) : found.Perm found' := by
  obtain ⟨result, harranged, hdecode⟩ := h
  obtain ⟨result', harranged', hdecode'⟩ := h'
  have hok : Function.Injective (Except.ok : β → Except String β) := fun _ _ hsame => Except.ok.inj hsame
  rw [← List.map_perm_map_iff hok, ← mapM_eq_ok_iff.1 hdecode.symm, ← mapM_eq_ok_iff.1 hdecode'.symm]
  exact (harranged.perm harranged').map decode

/-- What the rows of an answer sum up to is what the groups do. -/
theorem Returned.sum_eq {found : List β} (h : Returned before rows decode (.ok found)) {f : β → ℚ} {g : γ → ℚ}
    (hfg : ∀ row row', decode row = .ok row' → f row' = g row) : (found.map f).sum = (rows.map g).sum := by
  obtain ⟨result, harranged, hdecode⟩ := h
  have hrows : found.map f = result.map g := by
    have hmap := mapM_eq_ok_iff.1 hdecode.symm
    clear hdecode harranged
    induction result generalizing found with
    | nil =>
        rw [List.map_nil, eq_comm, List.map_eq_nil_iff] at hmap
        rw [hmap]
        rfl
    | cons row result ih =>
        cases found with
        | nil => cases hmap
        | cons row' found =>
            rw [List.map_cons, List.map_cons, List.cons.injEq] at hmap
            rw [List.map_cons, List.map_cons, ih hmap.2, hfg row row' hmap.1]
  rw [hrows, harranged.sum_eq]

/-- Groups that can all be decoded are. -/
theorem Returned.exists_ok {answer : Except String (List β)} (h : Returned before rows decode answer)
    (hdecode : ∀ row ∈ rows, ∃ row', decode row = .ok row') : ∃ found, answer = .ok found := by
  obtain ⟨result, harranged, rfl⟩ := h
  have hresult : ∀ row ∈ result, ∃ row', decode row = .ok row' :=
    fun row hrow => hdecode row (harranged.1.subset hrow)
  clear harranged
  induction result with
  | nil => exact ⟨[], rfl⟩
  | cons row result ih =>
      obtain ⟨row', hrow'⟩ := hresult row List.mem_cons_self
      obtain ⟨found, hfound⟩ := ih fun other hother => hresult other (List.mem_cons_of_mem _ hother)
      exact ⟨row' :: found, by rw [List.mapM_cons, hrow', hfound]; rfl⟩

variable [DecidableEq κ] {key : ρ → κ} {cost : ρ → ℚ} {logs logs' : List ρ}

theorem costBy_perm (h : logs.Perm logs') : (costBy key cost logs).Perm (costBy key cost logs') := by
  refine groupBy_map_perm _ (fun k group group' hgroup => ?_) h
  rw [(hgroup.map cost).sum_eq]

theorem costBy_sum (logs : List ρ) : ((costBy key cost logs).map Prod.snd).sum = (logs.map cost).sum := by
  rw [costBy, List.map_map]
  exact sum_groupBy cost logs

end Answers

/-! ## Scopes -/

/-- The rows of the caller: those of its organization for the admin of one, else its own in its organization. -/
def InCallerScope (claims : Claims) (row : RequestLog) : Prop :=
  row.organizationId = claims.organizationId
    ∧ (claims.role = "org_admin" ∨ row.userId = some claims.userId)

/-- The tables have the same rows of the caller. -/
def SameScope (claims : Claims) (logs logs' : SpendTable) : Prop :=
  ∀ row, InCallerScope claims row → (row ∈ logs ↔ row ∈ logs')

section Scope

variable {claims : Claims}

/-- The report of `admin/spend.rs` is of rows of the caller. -/
theorem inCallerScope_of_spendMatches {query : SpendQuery} {first last : Option Timestamp} {row : RequestLog}
    (hplain : claims.role ≠ "super_admin")
    (h : row.spendMatches first last (scopeSpendQuery claims query).1 (scopeSpendQuery claims query).2.1
      (scopeSpendQuery claims query).2.2 = true) : InCallerScope claims row := by
  simp only [RequestLog.spendMatches, Bool.and_eq_true] at h
  obtain ⟨⟨⟨-, horg⟩, -⟩, huser⟩ := h
  unfold scopeSpendQuery at horg huser
  split at horg
  case h_1 hrole => exact absurd (Role.fromStr_eq_some_iff.1 hrole) hplain
  case h_2 hrole => exact ⟨by simpa using horg, .inl (Role.fromStr_eq_some_iff.1 hrole)⟩
  case h_3 hsuper horgAdmin =>
    split at huser
    case h_1 hrole => exact absurd hrole hsuper
    case h_2 hrole => exact absurd hrole horgAdmin
    case h_3 => exact ⟨by simpa using horg, .inr (by simpa using huser)⟩

/-- So is that of `admin/spend_tags.rs`. -/
theorem inCallerScope_of_tagsMatches {query : SpendTagsQuery} {first last : Option Timestamp} {row : RequestLog}
    (hplain : claims.role ≠ "super_admin")
    (h : row.tagsMatches first last (scopeSpendTagsQuery claims query).1 (scopeSpendTagsQuery claims query).2
      = true) : InCallerScope claims row := by
  simp only [RequestLog.tagsMatches, Bool.and_eq_true] at h
  obtain ⟨⟨-, horg⟩, huser⟩ := h
  unfold scopeSpendTagsQuery at horg huser
  split at horg
  case h_1 hrole => exact absurd (Role.fromStr_eq_some_iff.1 hrole) hplain
  case h_2 hrole => exact ⟨by simpa using horg, .inl (Role.fromStr_eq_some_iff.1 hrole)⟩
  case h_3 hsuper horgAdmin =>
    split at huser
    case h_1 hrole => exact absurd hrole hsuper
    case h_2 hrole => exact absurd hrole horgAdmin
    case h_3 => exact ⟨by simpa using horg, .inr (by simpa using huser)⟩

end Scope

/-! ## Queries on tables with the same rows -/

section Queries

variable (unreadable : ℚ → String) (dayOf : Timestamp → NaiveDate) {logs logs' : SpendTable}
  {first last : Option Timestamp} {organizationId teamId userId : Option Uuid}

/-- The figures of a group do not depend on the order of its rows. -/
theorem spendGroup_perm (payer : Uuid × Option Uuid × Option Uuid) {group group' : List RequestLog}
    (h : group.Perm group') : spendGroup (payer, group) = spendGroup (payer, group') := by
  have htokens : ∀ tokens : RequestLog → Option Int32, sumTokens group tokens = sumTokens group' tokens := by
    intro tokens
    rw [sumTokens, sumTokens, (h.map _).sum_eq]
  simp only [spendGroup, h.length_eq, htokens, (h.map RequestLog.cost).sum_eq]

theorem spendGroups_perm {rows rows' : List RequestLog} (h : rows.Perm rows') :
    ((groupBy RequestLog.payer rows).map spendGroup).Perm ((groupBy RequestLog.payer rows').map spendGroup) :=
  groupBy_map_perm spendGroup (fun payer _ _ => spendGroup_perm payer) h

section Spend

variable (h : ∀ row : RequestLog, row.spendMatches first last organizationId teamId userId = true →
  (row ∈ logs ↔ row ∈ logs'))
include h

theorem FetchSpendRows.congr (answer : Except String (List SpendRow)) :
    FetchSpendRows unreadable logs first last organizationId teamId userId answer
      ↔ FetchSpendRows unreadable logs' first last organizationId teamId userId answer :=
  Returned.congr (spendGroups_perm (Table.filter_perm h)) answer

theorem FetchDailySpendRows.congr (answer : Except String (List DailySpendRow)) :
    FetchDailySpendRows unreadable dayOf logs first last organizationId teamId userId answer
      ↔ FetchDailySpendRows unreadable dayOf logs' first last organizationId teamId userId answer :=
  Returned.congr (costBy_perm (Table.filter_perm h)) answer

end Spend

section Tags

variable (h : ∀ row : RequestLog, row.tagsMatches first last organizationId userId = true →
  (row ∈ logs ↔ row ∈ logs'))
include h

theorem FetchTeamSpend.congr (answer : Except String (List TeamSpend)) :
    FetchTeamSpend unreadable logs first last organizationId userId answer
      ↔ FetchTeamSpend unreadable logs' first last organizationId userId answer :=
  Returned.congr (costBy_perm (Table.filter_perm h)) answer

theorem FetchApiKeySpend.congr (answer : Except String (List ApiKeySpend)) :
    FetchApiKeySpend unreadable logs first last organizationId userId answer
      ↔ FetchApiKeySpend unreadable logs' first last organizationId userId answer :=
  Returned.congr (costBy_perm (Table.filter_perm h)) answer

theorem FetchCustomTagSpend.congr (tag : Option String) (answer : Except String (List CustomTagSpend)) :
    FetchCustomTagSpend unreadable logs first last organizationId userId tag answer
      ↔ FetchCustomTagSpend unreadable logs' first last organizationId userId tag answer := by
  refine Returned.congr (costBy_perm ?_) answer
  refine (Table.filter_perm fun row hrow => h row ?_).flatMap_right _
  rw [Bool.and_eq_true] at hrow
  exact hrow.2

end Tags

end Queries

/-! ## Reports -/

/-- The same rows, in some order. -/
def SpendData.SameRows : SpendData → SpendData → Prop
  | .grouped rows, .grouped rows' => rows.Perm rows'
  | .daily rows, .daily rows' => rows.Perm rows'
  | _, _ => False

/-- The sums are the same up to their order. -/
def SpendTagsResponse.SameRows (response response' : SpendTagsResponse) : Prop :=
  response.byTeam.Perm response'.byTeam ∧ response.byApiKey.Perm response'.byApiKey
    ∧ response.byCustomTag.Perm response'.byCustomTag

theorem exists_of_bind_eq_ok {ε α β : Type} {x : Except ε α} {f : α → Except ε β} {b : β}
    (h : (x >>= f) = .ok b) : ∃ a, x = .ok a ∧ f a = .ok b := by
  cases x with
  | error e => cases h
  | ok a => exact ⟨a, rfl, h⟩

section Reports

variable (unreadable : ℚ → String) (dayOf : Timestamp → NaiveDate)

/-- The caller gets the same reports of both tables: the answers that are possible are the same, and they have the
    same rows. -/
structure SameReports (claims : Claims) (logs logs' : SpendTable) : Prop where
  spend : ∀ daysAgo query answer, GetSpend unreadable dayOf daysAgo logs claims query answer
    ↔ GetSpend unreadable dayOf daysAgo logs' claims query answer
  spendRows : ∀ daysAgo query data data', GetSpend unreadable dayOf daysAgo logs claims query (some (.ok data)) →
    GetSpend unreadable dayOf daysAgo logs' claims query (some (.ok data')) → data.SameRows data'
  tags : ∀ query answer, GetSpendTags unreadable logs claims query answer
    ↔ GetSpendTags unreadable logs' claims query answer
  tagsRows : ∀ query response response', GetSpendTags unreadable logs claims query (.ok response) →
    GetSpendTags unreadable logs' claims query (.ok response') → response.SameRows response'

theorem databaseError_map_eq_ok {α β : Type} {result : Except String α} {f : α → β} {b : β}
    (h : (databaseError result).map f = .ok b) : ∃ a, result = .ok a ∧ f a = b := by
  cases result with
  | error e => cases h
  | ok a => exact ⟨a, rfl, Except.ok.inj h⟩

/-- Two answers for one table have the same rows. -/
theorem GetSpend.sameRows {unreadable : ℚ → String} {dayOf : Timestamp → NaiveDate}
    {daysAgo : Int64 → Option Timestamp} {logs : SpendTable} {claims : Claims} {query : SpendQuery}
    {data data' : SpendData} (h : GetSpend unreadable dayOf daysAgo logs claims query (some (.ok data)))
    (h' : GetSpend unreadable dayOf daysAgo logs claims query (some (.ok data'))) : data.SameRows data' := by
  unfold GetSpend at h h'
  cases hrole : Role.fromStr claims.role with
  | none =>
      rw [hrole] at h
      cases h
  | some role =>
      rw [hrole] at h h'
      dsimp only at h h'
      split at h
      · cases h
      · rename_i start hstart
        rw [hstart] at h'
        dsimp only at h h'
        split_ifs at h h' with hdays
        · obtain ⟨rows, hrows, hanswer⟩ := h
          obtain ⟨rows', hrows', hanswer'⟩ := h'
          obtain ⟨found, rfl, rfl⟩ := databaseError_map_eq_ok (Option.some.inj hanswer).symm
          obtain ⟨found', rfl, rfl⟩ := databaseError_map_eq_ok (Option.some.inj hanswer').symm
          exact Returned.perm hrows hrows'
        · obtain ⟨rows, hrows, hanswer⟩ := h
          obtain ⟨rows', hrows', hanswer'⟩ := h'
          obtain ⟨found, rfl, rfl⟩ := databaseError_map_eq_ok (Option.some.inj hanswer).symm
          obtain ⟨found', rfl, rfl⟩ := databaseError_map_eq_ok (Option.some.inj hanswer').symm
          exact Returned.perm hrows hrows'

theorem databaseError_eq_ok {α : Type} {result : Except String α} {a : α} (h : databaseError result = .ok a) :
    result = .ok a := by
  cases result with
  | error e => cases h
  | ok a' =>
      cases h
      rfl

theorem GetSpendTags.sameRows {unreadable : ℚ → String} {logs : SpendTable} {claims : Claims}
    {query : SpendTagsQuery} {response response' : SpendTagsResponse}
    (h : GetSpendTags unreadable logs claims query (.ok response))
    (h' : GetSpendTags unreadable logs claims query (.ok response')) : response.SameRows response' := by
  have hparts : ∀ {response : SpendTagsResponse}, GetSpendTags unreadable logs claims query (.ok response) →
      ∃ organizationId userId, scopeSpendTagsQuery claims query = (organizationId, userId)
        ∧ FetchTeamSpend unreadable logs query.from query.to organizationId userId (.ok response.byTeam)
        ∧ FetchApiKeySpend unreadable logs query.from query.to organizationId userId (.ok response.byApiKey)
        ∧ FetchCustomTagSpend unreadable logs query.from query.to organizationId userId query.tag
          (.ok response.byCustomTag) := by
    intro response h
    unfold GetSpendTags at h
    cases hrole : Role.fromStr claims.role with
    | none =>
        rw [hrole] at h
        cases h
    | some role =>
        rw [hrole] at h
        obtain ⟨byTeam, byApiKey, byCustomTag, hteam, hkey, htag, hanswer⟩ := h
        obtain ⟨teams, hteams, hanswer⟩ := exists_of_bind_eq_ok hanswer.symm
        obtain ⟨keys, hkeys, hanswer⟩ := exists_of_bind_eq_ok hanswer
        obtain ⟨tags, htags, hanswer⟩ := exists_of_bind_eq_ok hanswer
        obtain rfl := Except.ok.inj hanswer
        rw [databaseError_eq_ok hteams] at hteam
        rw [databaseError_eq_ok hkeys] at hkey
        rw [databaseError_eq_ok htags] at htag
        exact ⟨_, _, rfl, hteam, hkey, htag⟩
  obtain ⟨organizationId, userId, hscope, hteam, hkey, htag⟩ := hparts h
  obtain ⟨organizationId', userId', hscope', hteam', hkey', htag'⟩ := hparts h'
  obtain ⟨rfl, rfl⟩ := Prod.mk.inj (hscope.symm.trans hscope')
  exact ⟨Returned.perm hteam hteam', Returned.perm hkey hkey', Returned.perm htag htag'⟩

section Scoped

variable {claims : Claims} {logs logs' : SpendTable}

theorem GetSpend.congr (hplain : claims.role ≠ "super_admin") (hsame : SameScope claims logs logs')
    (daysAgo : Int64 → Option Timestamp) (query : SpendQuery) (answer : Option (Except ApiError SpendData)) :
    GetSpend unreadable dayOf daysAgo logs claims query answer
      ↔ GetSpend unreadable dayOf daysAgo logs' claims query answer := by
  have hfound : ∀ (start : Option Timestamp) (row : RequestLog),
      row.spendMatches start query.to (scopeSpendQuery claims query).1 (scopeSpendQuery claims query).2.1
        (scopeSpendQuery claims query).2.2 = true → (row ∈ logs ↔ row ∈ logs') :=
    fun _ row hrow => hsame row (inCallerScope_of_spendMatches hplain hrow)
  unfold GetSpend
  cases Role.fromStr claims.role with
  | none => exact Iff.rfl
  | some role =>
      dsimp only
      split
      · exact Iff.rfl
      · rename_i start _
        split_ifs with hdays
        · exact exists_congr fun rows =>
            and_congr_left fun _ => FetchDailySpendRows.congr unreadable dayOf (hfound start) rows
        · exact exists_congr fun rows =>
            and_congr_left fun _ => FetchSpendRows.congr unreadable (hfound start) rows

theorem GetSpendTags.congr (hplain : claims.role ≠ "super_admin") (hsame : SameScope claims logs logs')
    (query : SpendTagsQuery) (answer : Except ApiError SpendTagsResponse) :
    GetSpendTags unreadable logs claims query answer ↔ GetSpendTags unreadable logs' claims query answer := by
  have hfound : ∀ row : RequestLog,
      row.tagsMatches query.from query.to (scopeSpendTagsQuery claims query).1 (scopeSpendTagsQuery claims query).2
        = true → (row ∈ logs ↔ row ∈ logs') :=
    fun row hrow => hsame row (inCallerScope_of_tagsMatches hplain hrow)
  unfold GetSpendTags
  cases Role.fromStr claims.role with
  | none => exact Iff.rfl
  | some role =>
      refine exists_congr fun byTeam => exists_congr fun byApiKey => exists_congr fun byCustomTag => ?_
      refine and_congr (FetchTeamSpend.congr unreadable hfound byTeam) ?_
      refine and_congr (FetchApiKeySpend.congr unreadable hfound byApiKey) ?_
      exact and_congr_left fun _ => FetchCustomTagSpend.congr unreadable hfound query.tag byCustomTag

theorem sameReports_of_sameScope (hplain : claims.role ≠ "super_admin") (hsame : SameScope claims logs logs') :
    SameReports unreadable dayOf claims logs logs' where
  spend := GetSpend.congr unreadable dayOf hplain hsame
  spendRows daysAgo query _ _ h h' :=
    h.sameRows ((GetSpend.congr unreadable dayOf hplain hsame daysAgo query _).2 h')
  tags := GetSpendTags.congr unreadable hplain hsame
  tagsRows query _ _ h h' := h.sameRows ((GetSpendTags.congr unreadable hplain hsame query _).2 h')

end Scoped

end Reports

/-! ## Agreement -/

/-- What the rows cost that a filter selects. -/
def filteredCost (logs : SpendTable) («from» «to» : Option Timestamp) (organizationId userId : Option Uuid) : ℚ :=
  ((logs.rows.filter fun row => row.tagsMatches «from» «to» organizationId userId).map RequestLog.cost).sum

/-- A query has answers, and whatever rows it returns, their costs sum up to a total; it returns rows if all sums of
    the table are decimals. -/
structure SumsTo {β : Type} (logs : SpendTable) (fetched : Except String (List β) → Prop) (cost : β → Decimal)
    (total : ℚ) : Prop where
  answers : ∃ answer, fetched answer
  sum : ∀ rows, fetched (.ok rows) → (rows.map fun row => (cost row).val).sum = total
  decoded : logs.rows.length ≤ 2 ^ 56 → ∀ answer, fetched answer → ∃ rows, answer = .ok rows

/-- Without a team the filter of both files is the same. -/
theorem RequestLog.spendMatches_no_team (row : RequestLog) (first last : Option Timestamp)
    (organizationId userId : Option Uuid) :
    row.spendMatches first last organizationId none userId = row.tagsMatches first last organizationId userId := by
  simp [RequestLog.spendMatches, RequestLog.tagsMatches]

theorem decodeNumeric_eq_ok {unreadable : ℚ → String} {q : ℚ} {d : Decimal}
    (h : decodeNumeric unreadable q = .ok d) : d.val = q := by
  unfold decodeNumeric at h
  split at h
  · rename_i d' hd
    cases h
    exact Decimal.checked_val hd
  · cases h

theorem decodeNumeric_of_isDecimal (unreadable : ℚ → String) {q : ℚ} (h : IsDecimal q) :
    decodeNumeric unreadable q = .ok ⟨q, h⟩ := by
  unfold decodeNumeric
  rw [Decimal.checked_of_isDecimal h]

/-! Sums of few costs are decimals: an integer of millionths, for each row at most `10 ^ 12`. -/

theorem RequestLog.cost_millionths (row : RequestLog) :
    ∃ n : ℤ, row.cost = n / 10 ^ 6 ∧ n.natAbs ≤ 10 ^ 12 := by
  cases hcost : row.costUsd with
  | none => exact ⟨0, by simp [RequestLog.cost, hcost], by norm_num⟩
  | some cost =>
      obtain ⟨n, hn, hlt⟩ := row.cost_numeric cost hcost
      exact ⟨n, by simpa [RequestLog.cost, hcost] using hn, hlt.le⟩

theorem sum_cost_millionths (rows : List RequestLog) :
    ∃ n : ℤ, (rows.map RequestLog.cost).sum = n / 10 ^ 6 ∧ n.natAbs ≤ rows.length * 10 ^ 12 := by
  induction rows with
  | nil => exact ⟨0, by simp, by simp⟩
  | cons row rows ih =>
      obtain ⟨n, hn, hnle⟩ := row.cost_millionths
      obtain ⟨m, hm, hmle⟩ := ih
      refine ⟨n + m, ?_, ?_⟩
      · rw [List.map_cons, List.sum_cons, hn, hm, Int.cast_add, add_div]
      · have habs := Int.natAbs_add_le n m
        rw [List.length_cons]
        omega

theorem isDecimal_sum_cost {rows : List RequestLog} (h : rows.length ≤ 2 ^ 56) :
    IsDecimal (rows.map RequestLog.cost).sum := by
  obtain ⟨n, hn, hle⟩ := sum_cost_millionths rows
  have hscaled : (rows.map RequestLog.cost).sum * 10 ^ 6 = n := by
    rw [hn]
    field_simp
  refine ⟨6, by norm_num, ?_, ?_⟩
  · rw [hscaled, Rat.den_intCast]
  · rw [hscaled, Rat.num_intCast]
    omega

section Agreement

variable (unreadable : ℚ → String) (logs : SpendTable) (first last : Option Timestamp)
  (organizationId userId : Option Uuid)

/-- The sum of a query that groups the rows of the filter by some key. -/
theorem sumsTo_costBy {β κ : Type} [DecidableEq κ] {key : RequestLog → κ} {before : κ × ℚ → κ × ℚ → Prop}
    [DecidableRel before] [Std.Total before] [IsTrans (κ × ℚ) before] {row : κ → Decimal → β}
    {cost : β → Decimal} (hcost : ∀ k sum, cost (row k sum) = sum) :
    SumsTo logs (Returned before (costBy key RequestLog.cost
        (logs.rows.filter fun row => row.tagsMatches first last organizationId userId)) (decodeSum unreadable row))
      cost (filteredCost logs first last organizationId userId) where
  answers := by
    obtain ⟨result, hresult⟩ := @Arrangement.exists _ before (costBy key RequestLog.cost
      (logs.rows.filter fun row => row.tagsMatches first last organizationId userId)) _ _ _
    exact ⟨_, result, hresult, rfl⟩
  sum rows hrows := by
    have hdecode : ∀ (group : κ × ℚ) (found : β), decodeSum unreadable row group = .ok found →
        (cost found).val = group.2 := by
      intro group found h
      obtain ⟨sum, hsum, hfound⟩ := exists_of_bind_eq_ok h
      rw [← Except.ok.inj hfound, hcost, decodeNumeric_eq_ok hsum]
    rw [hrows.sum_eq hdecode, costBy_sum, filteredCost]
  decoded hsmall answer hanswer := by
    refine hanswer.exists_ok fun group hgroup => ?_
    obtain ⟨⟨k, members⟩, hmem, rfl⟩ := List.mem_map.1 hgroup
    have hdecimal : IsDecimal (members.map RequestLog.cost).sum := by
      refine isDecimal_sum_cost (le_trans ?_ hsmall)
      rw [mem_groupBy hmem]
      exact (List.length_filter_le _ _).trans (List.length_filter_le _ _)
    exact ⟨_, by rw [decodeSum, decodeNumeric_of_isDecimal unreadable hdecimal]; rfl⟩

/-- The figures of a group add up its costs. -/
theorem spendGroups_sum (rows : List RequestLog) :
    (((groupBy RequestLog.payer rows).map spendGroup).map SpendGroup.totalCost).sum
      = (rows.map RequestLog.cost).sum := by
  rw [List.map_map]
  exact sum_groupBy RequestLog.cost rows

theorem SpendGroup.decode_eq_ok {group : SpendGroup} {row : SpendRow}
    (h : group.decode unreadable = .ok row) : row.totalCostUsd.val = group.totalCost := by
  obtain ⟨cost, hcost, hrow⟩ := exists_of_bind_eq_ok h
  obtain rfl := Except.ok.inj hrow
  exact decodeNumeric_eq_ok hcost

theorem fetchSpendRows_sumsTo :
    SumsTo logs (FetchSpendRows unreadable logs first last organizationId none userId) SpendRow.totalCostUsd
      (filteredCost logs first last organizationId userId) where
  answers := ⟨_, _, ⟨List.Perm.refl _, List.pairwise_of_forall fun _ _ => trivial⟩, rfl⟩
  sum rows hrows := by
    rw [Returned.sum_eq hrows fun group row => SpendGroup.decode_eq_ok unreadable, spendGroups_sum, filteredCost]
    simp only [RequestLog.spendMatches_no_team]
  decoded hsmall answer hanswer := by
    refine Returned.exists_ok hanswer fun group hgroup => ?_
    obtain ⟨⟨payer, members⟩, hmem, rfl⟩ := List.mem_map.1 hgroup
    have hdecimal : IsDecimal (spendGroup (payer, members)).totalCost := by
      refine isDecimal_sum_cost (le_trans ?_ hsmall)
      rw [mem_groupBy hmem]
      exact (List.length_filter_le _ _).trans (List.length_filter_le _ _)
    exact ⟨_, by rw [SpendGroup.decode, decodeNumeric_of_isDecimal unreadable hdecimal]; rfl⟩

theorem fetchDailySpendRows_sumsTo (dayOf : Timestamp → NaiveDate) :
    SumsTo logs (FetchDailySpendRows unreadable dayOf logs first last organizationId none userId)
      DailySpendRow.cost (filteredCost logs first last organizationId userId) := by
  unfold FetchDailySpendRows
  simp only [RequestLog.spendMatches_no_team]
  exact sumsTo_costBy unreadable logs first last organizationId userId fun _ _ => rfl

theorem fetchTeamSpend_sumsTo :
    SumsTo logs (FetchTeamSpend unreadable logs first last organizationId userId) TeamSpend.spendUsd
      (filteredCost logs first last organizationId userId) :=
  sumsTo_costBy unreadable logs first last organizationId userId fun _ _ => rfl

theorem fetchApiKeySpend_sumsTo :
    SumsTo logs (FetchApiKeySpend unreadable logs first last organizationId userId) ApiKeySpend.spendUsd
      (filteredCost logs first last organizationId userId) :=
  sumsTo_costBy unreadable logs first last organizationId userId fun _ _ => rfl

end Agreement

/-- A caller that is no super admin gets reports of its own rows, and the reports by payer, day, team and key sum up
    to the same. -/
theorem spend_scoped_and_agrees (unreadable : ℚ → String) (dayOf : Timestamp → NaiveDate) (logs : SpendTable) :
    (∀ claims, claims.role ≠ "super_admin" → ∀ logs', SameScope claims logs logs' →
        SameReports unreadable dayOf claims logs logs')
      ∧ ∀ first last organizationId userId, ∃ total,
        SumsTo logs (FetchSpendRows unreadable logs first last organizationId none userId)
          SpendRow.totalCostUsd total
        ∧ SumsTo logs (FetchDailySpendRows unreadable dayOf logs first last organizationId none userId)
          DailySpendRow.cost total
        ∧ SumsTo logs (FetchTeamSpend unreadable logs first last organizationId userId) TeamSpend.spendUsd total
        ∧ SumsTo logs (FetchApiKeySpend unreadable logs first last organizationId userId) ApiKeySpend.spendUsd
          total := by
  refine ⟨fun claims hplain logs' hsame => sameReports_of_sameScope unreadable dayOf hplain hsame, ?_⟩
  intro first last organizationId userId
  refine ⟨filteredCost logs first last organizationId userId, ?_, ?_, ?_, ?_⟩
  · exact fetchSpendRows_sumsTo unreadable logs first last organizationId userId
  · exact fetchDailySpendRows_sumsTo unreadable logs first last organizationId userId dayOf
  · exact fetchTeamSpend_sumsTo unreadable logs first last organizationId userId
  · exact fetchApiKeySpend_sumsTo unreadable logs first last organizationId userId

/-- A row of a user, of two dollars. -/
def dollarLog (id userId : Uuid) : RequestLog where
  toRequestLogRow := ⟨id, none, some userId, "gpt-4o", "openai", some "chat", some 100, some 50, 10, false,
    some (Decimal.ofInt32 2), "success", 0⟩
  organizationId := 10
  teamId := none
  tags := some []
  cost_numeric := by
    intro cost hcost
    obtain rfl := Option.some.inj hcost
    have htwo : (Int32.toInt 2 : ℚ) = 2 := by exact_mod_cast (by decide : Int32.toInt 2 = 2)
    exact ⟨2000000, by norm_num [Decimal.ofInt32, htwo], by norm_num⟩

/-- The user 3 gets the same reports whether the user 4 has a row or not. -/
theorem spend_scoped_and_agrees_sample :
    SameReports (fun _ => "") (fun t => t / 86400000000) ⟨3, 10, "user"⟩ ⟨[dollarLog 1 3], by decide⟩
      ⟨[dollarLog 1 3, dollarLog 2 4], by decide⟩ := by
  refine (spend_scoped_and_agrees (fun _ => "") (fun t => t / 86400000000) _).1 _ (by decide) _ ?_
  rintro row ⟨-, hown⟩
  have huser : row.userId = some 3 := hown.resolve_left (by decide)
  have hother : row ≠ dollarLog 2 4 := by
    rintro rfl
    exact absurd huser (by decide)
  simp only [Table.mem_iff, List.mem_cons, hother, false_or]

end Godwit
