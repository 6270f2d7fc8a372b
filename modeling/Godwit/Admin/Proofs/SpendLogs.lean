import Mathlib.Data.List.NodupEquivFin
import Mathlib.Data.Int.Interval
import Mathlib.Tactic.Linarith
import Godwit.Admin.SpendLogs

set_option autoImplicit false

/-! # Who sees which spend logs

The handler drops the key filter for everyone but super admins, and the query has no filter for the caller:
a caller sees the rows of all users. What it sees is independent of the rows of others only where the page
that it asks for is empty for every table. -/

namespace Godwit

/-- No two rows were created at the same time. -/
def TimesDistinct (logs : RequestLogTable) : Prop := (logs.rows.map (·.createdAt)).Nodup

/-- The tables have the same rows of the user. -/
def SameLogsOf (userId : Uuid) (logs logs' : RequestLogTable) : Prop :=
  ∀ row, row.userId = some userId → (row ∈ logs ↔ row ∈ logs')

/-- The response to the caller depends on the caller's own rows only. -/
def OwnLogsOnly (claims : Claims) (query : SpendLogsQuery) : Prop :=
  ∀ logs logs', TimesDistinct logs → TimesDistinct logs' → SameLogsOf claims.userId logs logs' →
    getSpendLogs logs claims query = getSpendLogs logs' claims query

/-- The caller has no role, or the query asks for an empty or invalid page, or for a page behind the last
    row that there can be between its two times. -/
def ShowsNothing (claims : Claims) (query : SpendLogsQuery) : Prop :=
  Role.fromStr claims.role = none ∨ query.effectiveLimit ≤ 0 ∨ query.effectiveOffset < 0
    ∨ ∃ first last : Int, query.from = some first ∧ query.to = some last ∧ last - first < query.effectiveOffset

section Query

variable {logs logs' : RequestLogTable} {apiKeyId : Option Uuid} {model : Option String}
  {first last : Option Timestamp} {limit offset : Int}

/-- Between two times there are no more rows than times. -/
theorem found_length_le (hdistinct : TimesDistinct logs) (a b : Timestamp) :
    (logs.rows.filter fun row => row.matches apiKeyId model (some a) (some b)).length ≤ (b + 1 - a).toNat := by
  have hnodup : ((logs.rows.filter fun row => row.matches apiKeyId model (some a) (some b)).map
      (·.createdAt)).Nodup := hdistinct.sublist (List.filter_sublist.map _)
  have hsub : ((logs.rows.filter fun row => row.matches apiKeyId model (some a) (some b)).map
      (·.createdAt)).toFinset ⊆ Finset.Icc a b := by
    intro t ht
    obtain ⟨row, hrow, rfl⟩ := List.mem_map.1 (List.mem_toFinset.1 ht)
    have hmatches := (List.mem_filter.1 hrow).2
    simp only [RequestLogRow.matches, Bool.and_eq_true, decide_eq_true_eq] at hmatches
    exact Finset.mem_Icc.2 ⟨hmatches.1.2, hmatches.2⟩
  have hcard := Finset.card_le_card hsub
  rwa [List.toFinset_card_of_nodup hnodup, List.length_map, Int.card_Icc] at hcard

/-- A page behind all rows that match is empty. -/
theorem fetchSpendLogs_of_short (hlimit : 0 ≤ limit) (hoffset : 0 ≤ offset)
    (hshort : (logs.rows.filter fun row => row.matches apiKeyId model first last).length ≤ offset.toNat) :
    fetchSpendLogs logs apiKeyId model first last limit offset = .ok [] := by
  rw [fetchSpendLogs, if_neg (not_lt.2 hoffset), if_neg (not_lt.2 hlimit)]
  have hnone : ((logs.rows.filter fun row => row.matches apiKeyId model first last).mergeSort
      fun row row' => decide (row'.createdAt ≤ row.createdAt)).drop offset.toNat = [] :=
    List.drop_of_length_le (by simpa using hshort)
  simp only [hnone, List.take_nil, List.mapM_nil]
  rfl

/-- Rows with a capability are all decoded. -/
theorem decode_page {rows : List RequestLogRow} (h : ∀ row ∈ rows, row.capability.isSome) :
    ∃ entries, rows.mapM RequestLogRow.decode = .ok entries ∧ entries.length = rows.length := by
  induction rows with
  | nil => exact ⟨[], rfl, rfl⟩
  | cons row rows ih =>
      obtain ⟨entries, hentries, hlength⟩ := ih fun row hrow => h row (List.mem_cons_of_mem _ hrow)
      obtain ⟨capability, hcapability⟩ := Option.isSome_iff_exists.1 (h row List.mem_cons_self)
      obtain ⟨entry, hentry⟩ : ∃ entry, row.decode = .ok entry := by
        rw [RequestLogRow.decode, hcapability]
        exact ⟨_, rfl⟩
      refine ⟨entry :: entries, ?_, by simp [hlength]⟩
      rw [List.mapM_cons, hentry, hentries]
      rfl

/-- When more rows match than are skipped, the page is not empty. -/
theorem fetchSpendLogs_of_long (hlimit : 0 < limit) (hoffset : 0 ≤ offset)
    (hcapability : ∀ row ∈ logs, row.capability.isSome)
    (hlong : offset.toNat < (logs.rows.filter fun row => row.matches apiKeyId model first last).length) :
    ∃ entries, fetchSpendLogs logs apiKeyId model first last limit offset = .ok entries ∧ entries ≠ [] := by
  rw [fetchSpendLogs, if_neg (not_lt.2 hoffset), if_neg (by omega)]
  set sorted := (logs.rows.filter fun row => row.matches apiKeyId model first last).mergeSort
    fun row row' => decide (row'.createdAt ≤ row.createdAt) with hsorted
  have hpage : ∀ row ∈ (sorted.drop offset.toNat).take limit.toNat, row.capability.isSome := by
    intro row hrow
    have hin : row ∈ sorted := List.mem_of_mem_drop (List.mem_of_mem_take hrow)
    rw [hsorted, List.mem_mergeSort] at hin
    exact hcapability row (List.mem_filter.1 hin).1
  obtain ⟨entries, hentries, hlength⟩ := decode_page hpage
  refine ⟨entries, hentries, fun hnil => ?_⟩
  have hsize : sorted.length
      = (logs.rows.filter fun row => row.matches apiKeyId model first last).length := by simp [hsorted]
  rw [hnil, List.length_nil, List.length_take, List.length_drop, hsize] at hlength
  omega

end Query

/-! ## Tables of foreign rows -/

/-- A row of no user. -/
def foreignRow (model : String) (time : Timestamp) (k : Nat) : RequestLogRow :=
  ⟨BitVec.ofNat 128 k, none, none, model, "openai", some "chat", none, none, 0, false, none, "success", time + k⟩

/-- `n` rows of no user, one for each microsecond from a time on. -/
def foreignLogs (model : String) (time : Timestamp) (n : Nat) (h : n ≤ 2 ^ 128) : RequestLogTable where
  rows := (List.range n).map (foreignRow model time)
  distinct := by
    rw [List.map_map]
    refine List.Nodup.map_on (fun i hi j hj hij => ?_) List.nodup_range
    have hsame := congrArg BitVec.toNat hij
    simp only [Function.comp_apply, foreignRow, BitVec.toNat_ofNat] at hsame
    rw [Nat.mod_eq_of_lt ((List.mem_range.1 hi).trans_le h),
      Nat.mod_eq_of_lt ((List.mem_range.1 hj).trans_le h)] at hsame
    exact hsame

section Foreign

variable {model : String} {time : Timestamp} {n : Nat} {h : n ≤ 2 ^ 128}

theorem mem_foreignLogs {row : RequestLogRow} :
    row ∈ foreignLogs model time n h ↔ ∃ k < n, foreignRow model time k = row := by
  simp [Table.mem_iff, foreignLogs]

theorem foreignLogs_timesDistinct : TimesDistinct (foreignLogs model time n h) := by
  rw [TimesDistinct, foreignLogs, List.map_map]
  refine List.Nodup.map (fun i j hij => ?_) List.nodup_range
  simpa [foreignRow] using hij

theorem foreignLogs_filter {p : RequestLogRow → Bool} (hp : ∀ k < n, p (foreignRow model time k) = true) :
    ((foreignLogs model time n h).rows.filter p).length = n := by
  rw [List.filter_eq_self.2]
  · simp [foreignLogs]
  · intro row hrow
    obtain ⟨k, hk, rfl⟩ := mem_foreignLogs.1 hrow
    exact hp k hk

end Foreign

/-! ## The handler -/

section Handler

variable {claims : Claims} {query : SpendLogsQuery}

/-- A caller that is no super admin gets the page without a key filter. -/
theorem getSpendLogs_of_role {role : Role} (hrole : Role.fromStr claims.role = some role)
    (hplain : claims.role ≠ "super_admin") (logs : RequestLogTable) :
    getSpendLogs logs claims query
      = ((fetchSpendLogs logs none query.model query.from query.to query.effectiveLimit
          query.effectiveOffset).mapError fun e => .core (.database e)).map
        fun entries => ⟨entries, query.effectiveLimit, query.effectiveOffset⟩ := by
  have hnot : role ≠ .superAdmin := by
    rintro rfl
    exact hplain (Role.fromStr_eq_some_iff.1 hrole)
  unfold getSpendLogs
  rw [hrole]
  cases role with
  | superAdmin => exact absurd rfl hnot
  | _ =>
      show (Except.mapError _ (fetchSpendLogs logs none query.model query.from query.to
        query.effectiveLimit query.effectiveOffset) >>= fun entries => pure _) = _
      cases fetchSpendLogs logs none query.model query.from query.to query.effectiveLimit
        query.effectiveOffset <;> rfl

theorem effectiveOffset_lt : query.effectiveOffset < 2 ^ 63 := by
  unfold SpendLogsQuery.effectiveOffset
  cases query.offset with
  | none => decide
  | some offset => exact offset.2.2

/-- A query that shows nothing answers the same for every table. -/
theorem ownLogsOnly_of_showsNothing (hplain : claims.role ≠ "super_admin")
    (h : ShowsNothing claims query) : OwnLogsOnly claims query := by
  intro logs logs' hdistinct hdistinct' _
  cases hrole : Role.fromStr claims.role with
  | none =>
      unfold getSpendLogs
      rw [hrole]
      rfl
  | some role =>
      rw [getSpendLogs_of_role hrole hplain, getSpendLogs_of_role hrole hplain]
      congr 2
      by_cases hoffset : query.effectiveOffset < 0
      · rw [fetchSpendLogs, fetchSpendLogs, if_pos hoffset, if_pos hoffset]
      by_cases hlimit : query.effectiveLimit < 0
      · rw [fetchSpendLogs, fetchSpendLogs, if_neg hoffset, if_neg hoffset, if_pos hlimit, if_pos hlimit]
      rcases h with hnone | hempty | hnegative | ⟨first, last, hfirst, hlast, hbehind⟩
      · rw [hrole] at hnone
        cases hnone
      · have hzero : query.effectiveLimit = 0 := le_antisymm hempty (not_lt.1 hlimit)
        rw [fetchSpendLogs, fetchSpendLogs, if_neg hoffset, if_neg hoffset, hzero]
        rfl
      · exact absurd hnegative hoffset
      · rw [hfirst, hlast]
        have hshort : (last + 1 - first).toNat ≤ query.effectiveOffset.toNat := by omega
        rw [fetchSpendLogs_of_short (not_lt.1 hlimit) (not_lt.1 hoffset)
            ((found_length_le hdistinct first last).trans hshort),
          fetchSpendLogs_of_short (not_lt.1 hlimit) (not_lt.1 hoffset)
            ((found_length_le hdistinct' first last).trans hshort)]

/-- Otherwise the rows of others are shown. -/
theorem not_ownLogsOnly (hplain : claims.role ≠ "super_admin") (h : ¬ ShowsNothing claims query) :
    ¬ OwnLogsOnly claims query := by
  simp only [ShowsNothing, not_or, not_le, not_lt, not_exists, not_and] at h
  obtain ⟨hknown, hlimit, hoffset, hwindow⟩ := h
  obtain ⟨role, hrole⟩ := Option.ne_none_iff_exists'.1 hknown
  intro hown
  -- One row more than the page skips, from the first time of the query on or up to the last.
  let time : Int := query.from.getD (query.to.elim 0 (· - query.effectiveOffset))
  have hsize : query.effectiveOffset.toNat + 1 ≤ 2 ^ 128 := by
    have hlt : query.effectiveOffset < 2 ^ 63 := effectiveOffset_lt
    omega
  let logs := foreignLogs (query.model.getD "") time (query.effectiveOffset.toNat + 1) hsize
  have hmatches : ∀ k < query.effectiveOffset.toNat + 1,
      (foreignRow (query.model.getD "") time k).matches none query.model query.from query.to = true := by
    intro k hk
    have hmodel : (query.model.isNone || decide (some (query.model.getD "") = query.model)) = true := by
      cases query.model <;> simp
    have hfirst : ∀ first : Int, query.from = some first → first ≤ time + k := by
      intro first hfirst
      have htime : time = first := by simp only [time, hfirst, Option.getD_some]
      omega
    have hlast : ∀ last : Int, query.to = some last → time + k ≤ last := by
      intro last hlast
      cases hfrom : query.from with
      | none =>
          have htime : time = last - query.effectiveOffset := by
            simp only [time, hfrom, hlast, Option.getD_none, Option.elim_some]
          omega
      | some first =>
          have htime : time = first := by simp only [time, hfrom, Option.getD_some]
          have hwide := hwindow first last hfrom hlast
          omega
    simp only [RequestLogRow.matches, foreignRow, Option.isNone_none, Bool.true_or, Bool.true_and,
      Bool.and_eq_true]
    refine ⟨⟨hmodel, ?_⟩, ?_⟩
    · cases hfrom : query.from with
      | none => rfl
      | some first => exact decide_eq_true (hfirst first hfrom)
    · cases hto : query.to with
      | none => rfl
      | some last => exact decide_eq_true (hlast last hto)
  have hsame : SameLogsOf claims.userId .empty logs := by
    intro row hrow
    refine ⟨fun hmem => absurd hmem List.not_mem_nil, fun hmem => ?_⟩
    obtain ⟨k, -, rfl⟩ := mem_foreignLogs.1 hmem
    cases hrow
  have hequal := hown .empty logs List.nodup_nil foreignLogs_timesDistinct hsame
  obtain ⟨entries, hentries, hsome⟩ := @fetchSpendLogs_of_long logs none query.model query.from query.to _ _
    hlimit hoffset
    (fun row hrow => by
      obtain ⟨k, -, rfl⟩ := mem_foreignLogs.1 hrow
      rfl)
    (by rw [foreignLogs_filter hmatches]; omega)
  rw [getSpendLogs_of_role hrole hplain, getSpendLogs_of_role hrole hplain, hentries,
    fetchSpendLogs_of_short hlimit.le hoffset (by simp [Table.empty])] at hequal
  injection hequal with hresponse
  injection hresponse with hdata
  exact hsome hdata.symm

/-- The response depends on the caller's own rows only exactly where it shows no rows at all. -/
theorem ownLogsOnly_iff (claims : Claims) (query : SpendLogsQuery) (hplain : claims.role ≠ "super_admin") :
    OwnLogsOnly claims query ↔ ShowsNothing claims query := by
  constructor
  · intro hown
    by_contra hshows
    exact not_ownLogsOnly hplain hshows hown
  · exact ownLogsOnly_of_showsNothing hplain

end Handler

/-- A query without filters, for the first page. -/
def firstPage : SpendLogsQuery := ⟨none, none, none, none, none, none⟩

theorem ownLogsOnly_iff_sample :
    OwnLogsOnly ⟨3, 10, "user"⟩ firstPage ↔ ShowsNothing ⟨3, 10, "user"⟩ firstPage :=
  ownLogsOnly_iff _ _ (by decide)

/-- The user 3 is shown rows that are not its own. -/
theorem spendLogs_not_own :
    ¬ ∀ (claims : Claims) (query : SpendLogsQuery), claims.role ≠ "super_admin" → OwnLogsOnly claims query := by
  intro h
  refine @not_ownLogsOnly ⟨3, 10, "user"⟩ firstPage (by decide) ?_ (h _ _ (by decide))
  rintro (hrole | hlimit | hoffset | ⟨first, last, hfirst, -⟩)
  · exact absurd hrole (by decide)
  · exact absurd hlimit (by decide)
  · exact absurd hoffset (by decide)
  · cases hfirst

end Godwit
