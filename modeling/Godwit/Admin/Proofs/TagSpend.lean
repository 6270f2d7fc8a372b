import Mathlib.Algebra.Order.BigOperators.Group.List
import Godwit.Admin.Proofs.Spend
import Godwit.Api.Chat

set_option autoImplicit false

/-! # Spend of one tag

Both queries sum up over the tags of the rows, one by one. The filter on a tag admits whole rows, so it admits the
other tags of a row too, and a tag that a row has twice counts the row twice. -/

namespace Godwit

/-! ## What the rows cost -/

section Costs

/-- How often a row has a tag. -/
def RequestLog.tagCount (row : RequestLog) (tag : Option String) : Nat := (row.tags.getD []).count tag

/-- The cost of the rows that have a tag. -/
def taggedCost (rows : List RequestLog) (tag : String) : ℚ :=
  ((rows.filter fun row => row.hasTag (some tag)).map RequestLog.cost).sum

/-- The cost of a tag beyond its first place in a row. -/
def repeatedCost (rows : List RequestLog) (tag : String) : ℚ :=
  (rows.map fun row => ((row.tagCount (some tag) - 1 : ℕ) : ℚ) * row.cost).sum

/-- No other tag stands beside this one. -/
def StandsAlone (rows : List RequestLog) (tag : String) : Prop :=
  ∀ row ∈ rows, row.hasTag (some tag) = true → ∀ other ∈ row.tags.getD [], other = some tag

variable {rows : List RequestLog} {tag : String}

theorem RequestLog.hasTag_iff (row : RequestLog) : row.hasTag (some tag) = true ↔ some tag ∈ row.tags.getD [] := by
  cases htags : row.tags <;> simp [RequestLog.hasTag, htags]

theorem RequestLog.tagCount_eq_zero {row : RequestLog} (h : row.hasTag (some tag) = false) :
    row.tagCount (some tag) = 0 := by
  refine List.count_eq_zero.2 fun hin => ?_
  rw [row.hasTag_iff.2 hin] at h
  cases h

/-- The cost of a tag in all its places. -/
theorem sum_tagCount (rows : List RequestLog) (tag : String) :
    (rows.map fun row => (row.tagCount (some tag) : ℚ) * row.cost).sum
      = taggedCost rows tag + repeatedCost rows tag := by
  unfold taggedCost repeatedCost
  induction rows with
  | nil => simp
  | cons row rest ih =>
      rw [List.map_cons, List.sum_cons, ih, List.map_cons, List.sum_cons]
      by_cases htag : row.hasTag (some tag) = true
      · have hcount : 0 < row.tagCount (some tag) := List.count_pos_iff.2 (row.hasTag_iff.1 htag)
        rw [List.filter_cons_of_pos (by simpa using htag), List.map_cons, List.sum_cons, Nat.cast_pred hcount]
        ring
      · rw [Bool.not_eq_true] at htag
        rw [List.filter_cons_of_neg (by simp [htag]), RequestLog.tagCount_eq_zero htag]
        simp

theorem repeatedCost_of_absent (h : some tag ∉ rows.flatMap (·.tags.getD [])) : repeatedCost rows tag = 0 := by
  have hterm : ∀ row ∈ rows, ((row.tagCount (some tag) - 1 : ℕ) : ℚ) * row.cost = 0 := by
    intro row hrow
    have hcount : row.tagCount (some tag) = 0 :=
      List.count_eq_zero.2 fun hin => h (List.mem_flatMap.2 ⟨row, hrow, hin⟩)
    simp [hcount]
  unfold repeatedCost
  rw [List.map_congr_left hterm]
  simp

/-- The rows that have this tag. -/
def withTag (rows : List RequestLog) (tag : String) : List RequestLog := rows.filter fun row => row.hasTag (some tag)

theorem mem_tags_withTag : some tag ∈ (withTag rows tag).flatMap (·.tags.getD [])
    ↔ some tag ∈ rows.flatMap (·.tags.getD []) := by
  simp only [List.mem_flatMap, withTag, List.mem_filter, RequestLog.hasTag_iff]
  exact ⟨fun ⟨row, hrow, htag⟩ => ⟨row, hrow.1, htag⟩, fun ⟨row, hrow, htag⟩ => ⟨row, ⟨hrow, htag⟩, htag⟩⟩

/-- The other rows do not count for the tag. -/
theorem cost_withTag (rows : List RequestLog) (tag : String) :
    taggedCost (withTag rows tag) tag + repeatedCost (withTag rows tag) tag
      = taggedCost rows tag + repeatedCost rows tag := by
  rw [← sum_tagCount, ← sum_tagCount, withTag]
  induction rows with
  | nil => rfl
  | cons row rest ih =>
      by_cases htag : row.hasTag (some tag) = true
      · rw [List.filter_cons_of_pos (by exact htag), List.map_cons, List.map_cons, List.sum_cons, List.sum_cons, ih]
      · rw [Bool.not_eq_true] at htag
        rw [List.filter_cons_of_neg (by simp [htag]), List.map_cons, List.sum_cons, ih,
          RequestLog.tagCount_eq_zero htag]
        simp

/-- Where nothing costs less than zero, no row with a cost has the tag twice. -/
theorem repeatedCost_eq_zero_iff (hcost : ∀ row ∈ rows, 0 ≤ row.cost) :
    repeatedCost rows tag = 0 ↔ ∀ row ∈ rows, row.cost = 0 ∨ row.tagCount (some tag) ≤ 1 := by
  have hnonneg : ∀ row ∈ rows, 0 ≤ ((row.tagCount (some tag) - 1 : ℕ) : ℚ) * row.cost :=
    fun row hrow => mul_nonneg (Nat.cast_nonneg _) (hcost row hrow)
  unfold repeatedCost
  induction rows with
  | nil => simp
  | cons row rest ih =>
      obtain ⟨hrow, hrest⟩ := List.forall_mem_cons.1 hnonneg
      have hsum : 0 ≤ (rest.map fun row => ((row.tagCount (some tag) - 1 : ℕ) : ℚ) * row.cost).sum :=
        List.sum_nonneg (by simpa using hrest)
      rw [List.map_cons, List.sum_cons, add_eq_zero_iff_of_nonneg hrow hsum, List.forall_mem_cons, mul_eq_zero,
        Nat.cast_eq_zero, Nat.sub_eq_zero_iff_le, or_comm]
      exact and_congr_right' (ih (fun row hrow => hcost row (List.mem_cons_of_mem _ hrow)) hrest)

end Costs

/-! ## Rows of the answers -/

section Rows

variable {κ ρ : Type} [DecidableEq κ] {key : ρ → κ} {cost : ρ → ℚ} {rows : List ρ}

variable (key cost rows) in
theorem costBy_keys : (costBy key cost rows).map Prod.fst = (rows.map key).dedup := by
  simp [costBy, groupBy, Function.comp_def]

theorem mem_costBy {k : κ} {sum : ℚ} :
    (k, sum) ∈ costBy key cost rows ↔ k ∈ rows.map key ∧ sum = ((rows.filter fun row => key row = k).map cost).sum := by
  simp only [costBy, groupBy, List.map_map, List.mem_map, List.mem_dedup, Function.comp_apply, Prod.mk.injEq]
  constructor
  · rintro ⟨k', hk', rfl, rfl⟩
    exact ⟨hk', rfl⟩
  · rintro ⟨hk, rfl⟩
    exact ⟨k, hk, rfl, rfl⟩

/-- Rows that are read back are those of the query. -/
theorem Returned.map_perm {γ β : Type} {before : γ → γ → Prop} {found : List β} {groups : List γ}
    {decode : γ → Except String β} (h : Returned before groups decode (.ok found)) {encode : β → γ}
    (hencode : ∀ group row, decode group = .ok row → encode row = group) : (found.map encode).Perm groups := by
  obtain ⟨result, harranged, hdecode⟩ := h
  have hresult : found.map encode = result := by
    have hmap := mapM_eq_ok_iff.1 hdecode.symm
    clear hdecode harranged
    induction result generalizing found with
    | nil =>
        cases found with
        | nil => rfl
        | cons row found => cases hmap
    | cons group result ih =>
        cases found with
        | nil => cases hmap
        | cons row found =>
            obtain ⟨hgroup, hrest⟩ := List.cons.inj hmap
            rw [List.map_cons, hencode group row hgroup, ih hrest]
  rw [hresult]
  exact harranged.1

end Rows

/-- A row of an answer as a group of the query. -/
def CustomTagSpend.group (row : CustomTagSpend) : Option String × ℚ := (some row.tag, row.spendUsd.val)

theorem decodeCustomTagSpend_group {unreadable : ℚ → String} (group : Option String × ℚ) (row : CustomTagSpend)
    (h : decodeCustomTagSpend unreadable group = .ok row) : row.group = group := by
  obtain ⟨tag, sum⟩ := group
  cases tag with
  | none => cases h
  | some tag =>
      obtain ⟨d, hd, hrow⟩ := exists_of_bind_eq_ok h
      cases hrow
      exact Prod.ext rfl (decodeNumeric_eq_ok hd)

/-- The rows that a query admits before the condition on the tags. -/
def SpendTable.selected (logs : SpendTable) («from» «to» : Option Timestamp) (organizationId userId : Option Uuid) :
    List RequestLog :=
  logs.rows.filter fun row => row.tagsMatches «from» «to» organizationId userId

section Tagged

variable {rows : List RequestLog}

/-- The places of a tag. -/
theorem sum_unnested (rows : List RequestLog) (tag : Option String) :
    (((rows.flatMap RequestLog.unnested).filter fun tagged => tagged.1 = tag).map fun tagged => tagged.2.cost).sum
      = (rows.map fun row => (row.tagCount tag : ℚ) * row.cost).sum := by
  induction rows with
  | nil => rfl
  | cons row rest ih =>
      have hrow : ∀ tags : List (Option String), (((tags.map fun tag => (tag, row)).filter fun tagged =>
          tagged.1 = tag).map fun tagged => tagged.2.cost).sum = (tags.count tag : ℚ) * row.cost := by
        intro tags
        induction tags with
        | nil => simp
        | cons other tags ih =>
            by_cases hother : other = tag
            · simp [hother, ih, add_mul, add_comm]
            · simp [hother, ih]
      rw [List.flatMap_cons, List.filter_append, List.map_append, List.sum_append, ih, List.map_cons, List.sum_cons]
      rw [RequestLog.unnested, hrow, RequestLog.tagCount]

theorem mem_unnested {tag : Option String} :
    tag ∈ (rows.flatMap RequestLog.unnested).map Prod.fst ↔ ∃ row ∈ rows, tag ∈ row.tags.getD [] := by
  simp only [List.mem_map, List.mem_flatMap, RequestLog.unnested]
  constructor
  · rintro ⟨_, ⟨row, hrow, tag', htag', rfl⟩, rfl⟩
    exact ⟨row, hrow, htag'⟩
  · rintro ⟨row, hrow, htag⟩
    exact ⟨(tag, row), ⟨row, hrow, tag, htag, rfl⟩, rfl⟩

/-- A row without tags has no place in the sums. -/
theorem unnested_of_hasTag_none :
    (rows.filter fun row => row.hasTag none).flatMap RequestLog.unnested = rows.flatMap RequestLog.unnested := by
  induction rows with
  | nil => rfl
  | cons row rest ih =>
      by_cases htags : row.hasTag none = true
      · rw [List.filter_cons_of_pos (by exact htags), List.flatMap_cons, List.flatMap_cons, ih]
      · have hnone : row.unnested = [] := by
          cases hrow : row.tags <;> simp_all [RequestLog.hasTag, RequestLog.unnested]
        rw [List.filter_cons_of_neg (by exact htags), List.flatMap_cons, hnone, ih, List.nil_append]

end Tagged

/-! ## The answers -/

section Answers

variable {unreadable : ℚ → String} {logs : SpendTable} {first last : Option Timestamp}
  {organizationId userId : Option Uuid}

/-- What an answer says of the tags of rows. -/
structure Reports (rows : List RequestLog) (found : List CustomTagSpend) : Prop where
  distinct : (found.map CustomTagSpend.tag).Nodup
  tags : ∀ tag, some tag ∈ rows.flatMap (·.tags.getD []) ↔ tag ∈ found.map CustomTagSpend.tag
  readable : none ∉ rows.flatMap (·.tags.getD [])
  spend : ∀ row ∈ found, row.spendUsd.val = taggedCost rows row.tag + repeatedCost rows row.tag

theorem Returned.reports {rows : List RequestLog} {found : List CustomTagSpend}
    (h : Returned costliest (costBy Prod.fst (fun tagged => tagged.2.cost) (rows.flatMap RequestLog.unnested))
      (decodeCustomTagSpend unreadable) (.ok found)) : Reports rows found := by
  have hgroups := h.map_perm decodeCustomTagSpend_group
  have hkeys : (found.map fun row => some row.tag).Perm ((rows.flatMap RequestLog.unnested).map Prod.fst).dedup := by
    rw [← costBy_keys Prod.fst fun tagged : Option String × RequestLog => tagged.2.cost]
    simpa [CustomTagSpend.group, Function.comp_def] using hgroups.map Prod.fst
  have hin : ∀ tag, tag ∈ rows.flatMap (·.tags.getD []) ↔ tag ∈ found.map fun row => some row.tag := by
    intro tag
    rw [hkeys.mem_iff, List.mem_dedup, mem_unnested, List.mem_flatMap]
  refine ⟨?_, fun tag => ?_, ?_, fun row hrow => ?_⟩
  · have hnodup := hkeys.nodup_iff.2 (List.nodup_dedup _)
    exact List.Nodup.of_map some (by simpa [Function.comp_def] using hnodup)
  · rw [hin]
    simp
  · rw [hin]
    simp
  · have hgroup := hgroups.subset (List.mem_map_of_mem (f := CustomTagSpend.group) hrow)
    rw [CustomTagSpend.group, mem_costBy, sum_unnested, sum_tagCount] at hgroup
    exact hgroup.2

theorem Reports.mem_iff {rows : List RequestLog} {found : List CustomTagSpend} (h : Reports rows found)
    (row : CustomTagSpend) : row ∈ found ↔ some row.tag ∈ rows.flatMap (·.tags.getD [])
      ∧ row.spendUsd.val = taggedCost rows row.tag + repeatedCost rows row.tag := by
  constructor
  · exact fun hrow => ⟨(h.tags _).2 (List.mem_map_of_mem hrow), h.spend row hrow⟩
  · rintro ⟨htag, hspend⟩
    obtain ⟨row', hrow', hsame⟩ := List.mem_map.1 ((h.tags _).1 htag)
    have hspend' := h.spend row' hrow'
    rw [hsame, ← hspend] at hspend'
    obtain ⟨tag', spend'⟩ := row'
    obtain ⟨tag, spend⟩ := row
    cases hsame
    obtain rfl : spend' = spend := Subtype.ext hspend'
    exact hrow'

theorem FetchCustomTagSpend.reports_all {found : List CustomTagSpend}
    (h : FetchCustomTagSpend unreadable logs first last organizationId userId none (.ok found)) :
    Reports (logs.selected first last organizationId userId) found := by
  refine @Returned.reports unreadable _ _ ?_
  rw [← unnested_of_hasTag_none, SpendTable.selected, List.filter_filter]
  exact h

theorem FetchCustomTagSpend.reports_tag {tag : String} {found : List CustomTagSpend}
    (h : FetchCustomTagSpend unreadable logs first last organizationId userId (some tag) (.ok found)) :
    Reports (withTag (logs.selected first last organizationId userId) tag) found := by
  refine @Returned.reports unreadable _ _ ?_
  rw [withTag, SpendTable.selected, List.filter_filter]
  exact h

/-- The answer for one tag is the part of the full answer on it, and every tag of that has the cost of the rows
    that have the tag. -/
structure TagLaw (rows : List RequestLog) (tag : String) (found all : List CustomTagSpend) : Prop where
  restricts : found = all.filter fun row => row.tag = tag
  spend : ∀ row ∈ all, row.spendUsd.val = taggedCost rows row.tag

/-- Tags that differ leave one row at most on one tag. -/
theorem eq_of_one_tag {tag : String} {found found' : List CustomTagSpend} (hperm : found.Perm found')
    (hdistinct : (found.map CustomTagSpend.tag).Nodup) (htag : ∀ row ∈ found, row.tag = tag) : found = found' := by
  match found with
  | [] => exact hperm.nil_eq
  | [row] => exact (List.perm_singleton.1 hperm.symm).symm
  | row :: row' :: rest =>
      have hsame : row.tag = row'.tag := (htag row (by simp)).trans (htag row' (by simp)).symm
      simp [hsame] at hdistinct

/-- The spend of a tag is lawful exactly if the tag stands alone and no tag costs anything beyond its first place in
    a row. -/
theorem tagLaw_iff (unreadable : ℚ → String) (logs : SpendTable) (first last : Option Timestamp)
    (organizationId userId : Option Uuid) (tag : String) (found all : List CustomTagSpend)
    (hfound : FetchCustomTagSpend unreadable logs first last organizationId userId (some tag) (.ok found))
    (hall : FetchCustomTagSpend unreadable logs first last organizationId userId none (.ok all)) :
    TagLaw (logs.selected first last organizationId userId) tag found all
      ↔ StandsAlone (logs.selected first last organizationId userId) tag
        ∧ ∀ other, repeatedCost (logs.selected first last organizationId userId) other = 0 := by
  have hfound := hfound.reports_tag
  have hall := hall.reports_all
  generalize logs.selected first last organizationId userId = rows at hfound hall ⊢
  constructor
  · rintro ⟨hrestricts, hspend⟩
    refine ⟨fun row hrow htag other hother => ?_, fun other => ?_⟩
    · have hin : other ∈ (withTag rows tag).flatMap (·.tags.getD []) :=
        List.mem_flatMap.2 ⟨row, List.mem_filter.2 ⟨hrow, htag⟩, hother⟩
      cases other with
      | none => exact absurd hin hfound.readable
      | some other =>
          obtain ⟨row', hrow', rfl⟩ := List.mem_map.1 ((hfound.tags other).1 hin)
          rw [hrestricts, List.mem_filter] at hrow'
          exact congrArg some (of_decide_eq_true hrow'.2)
    · by_cases hin : some other ∈ rows.flatMap (·.tags.getD [])
      · obtain ⟨row, hrow, rfl⟩ := List.mem_map.1 ((hall.tags other).1 hin)
        have htotal := hall.spend row hrow
        rw [hspend row hrow] at htotal
        linarith
      · exact repeatedCost_of_absent hin
  · rintro ⟨halone, hrepeated⟩
    have htag : ∀ row ∈ found, row.tag = tag := by
      intro row hrow
      obtain ⟨log, hlog, hother⟩ := List.mem_flatMap.1 ((hfound.tags _).2 (List.mem_map_of_mem hrow))
      obtain ⟨hlog, hhas⟩ := List.mem_filter.1 hlog
      exact Option.some.inj (halone log hlog hhas _ hother)
    have hmem : ∀ row, row ∈ found ↔ row ∈ all.filter fun row => row.tag = tag := by
      intro row
      have hsame : row.tag = tag → (row ∈ found ↔ row ∈ all) := by
        rintro rfl
        rw [hfound.mem_iff, hall.mem_iff, mem_tags_withTag, cost_withTag]
      rw [List.mem_filter, decide_eq_true_iff]
      exact ⟨fun hrow => ⟨(hsame (htag row hrow)).1 hrow, htag row hrow⟩, fun hrow => (hsame hrow.2).2 hrow.1⟩
    refine ⟨eq_of_one_tag ?_ hfound.distinct htag, fun row hrow => ?_⟩
    · exact (List.perm_ext_iff_of_nodup hfound.distinct.of_map (hall.distinct.of_map.filter _)).2 hmem
    · rw [hall.spend row hrow, hrepeated, add_zero]

end Answers

/-! ## A row with two tags -/

/-- The tags of every row come from a header. -/
def SpendTable.TagsFromHeaders (logs : SpendTable) : Prop :=
  ∀ row ∈ logs, ∃ header, row.tags = some ((extractTagsFromHeader header).map some)

/-- The row costs two dollars. -/
def taggedLogs (tags : List String) : SpendTable :=
  .single { dollarLog 1 3 with tags := some (tags.map some) }

theorem decodeCustomTagSpend_dollars (unreadable : ℚ → String) (tag : String) :
    decodeCustomTagSpend unreadable (some tag, (Decimal.ofInt32 2).val) = .ok ⟨tag, .ofInt32 2⟩ := by
  simp only [decodeCustomTagSpend, decodeSum]
  rw [decodeNumeric_of_isDecimal unreadable (Decimal.ofInt32 2).2]
  rfl

/-- A row with one tag is reported under it, with or without the filter. -/
theorem taggedLogs_one (tag : Option String) (htag : tag = none ∨ tag = some "a") :
    FetchCustomTagSpend (fun _ => "") (taggedLogs ["a"]) none none none none tag (.ok [⟨"a", .ofInt32 2⟩]) := by
  refine ⟨[(some "a", (Decimal.ofInt32 2).val)], ⟨?_, List.pairwise_singleton _ _⟩, ?_⟩
  · rcases htag with rfl | rfl <;> decide +kernel
  · rw [List.mapM_cons, decodeCustomTagSpend_dollars]
    rfl

/-- A single tag is lawful. -/
theorem tagLaw_one : TagLaw ((taggedLogs ["a"]).selected none none none none) "a" [⟨"a", .ofInt32 2⟩]
    [⟨"a", .ofInt32 2⟩] := by
  refine (tagLaw_iff (fun _ => "") (taggedLogs ["a"]) none none none none "a" _ _ (taggedLogs_one _ (.inr rfl))
    (taggedLogs_one _ (.inl rfl))).2 ⟨?_, fun other => ?_⟩
  · intro row hrow _ other hother
    obtain rfl := List.mem_singleton.1 (List.mem_filter.1 hrow).1
    exact List.mem_singleton.1 hother
  · refine (repeatedCost_eq_zero_iff ?_).2 ?_
    · intro row hrow
      obtain rfl := List.mem_singleton.1 (List.mem_filter.1 hrow).1
      decide +kernel
    · intro row hrow
      obtain rfl := List.mem_singleton.1 (List.mem_filter.1 hrow).1
      exact .inr (List.count_le_length (l := [some "a"]))

theorem splitOn_twoTags : "a,b".splitOn "," = ["a", "b"] := by
  rw [String.splitOn, if_neg (by decide)]
  rw [String.splitOnAux, if_neg (by decide +kernel), if_neg (by decide +kernel)]
  rw [String.splitOnAux, if_neg (by decide +kernel), if_pos (by decide +kernel), if_pos (by decide +kernel)]
  rw [String.splitOnAux, if_neg (by decide +kernel), if_neg (by decide +kernel)]
  rw [String.splitOnAux, if_pos (by decide +kernel)]
  decide +kernel

theorem taggedLogs_twoTags : (taggedLogs ["a", "b"]).TagsFromHeaders := by
  intro row hrow
  obtain rfl := List.mem_singleton.1 hrow
  refine ⟨some "a,b", ?_⟩
  rw [extractTagsFromHeader, splitOn_twoTags]
  decide

/-- Both tags of a row are reported, also under one of them. -/
theorem taggedLogs_two (tag : Option String) (htag : tag = none ∨ tag = some "a") :
    FetchCustomTagSpend (fun _ => "") (taggedLogs ["a", "b"]) none none none none tag
      (.ok [⟨"a", .ofInt32 2⟩, ⟨"b", .ofInt32 2⟩]) := by
  refine ⟨[(some "a", (Decimal.ofInt32 2).val), (some "b", (Decimal.ofInt32 2).val)],
    ⟨?_, List.pairwise_pair.2 (le_refl _)⟩, ?_⟩
  · rcases htag with rfl | rfl <;> decide +kernel
  · rw [List.mapM_cons, List.mapM_cons, decodeCustomTagSpend_dollars, decodeCustomTagSpend_dollars]
    rfl

/-- With the header `a,b`, the spend of the tag `a` has a row for `b`. -/
theorem not_tagLaw_two :
    ¬ ∀ (logs : SpendTable) (first last : Option Timestamp) (organizationId userId : Option Uuid) (tag : String)
      (found all : List CustomTagSpend), logs.TagsFromHeaders →
      FetchCustomTagSpend (fun _ => "") logs first last organizationId userId (some tag) (.ok found) →
      FetchCustomTagSpend (fun _ => "") logs first last organizationId userId none (.ok all) →
      TagLaw (logs.selected first last organizationId userId) tag found all := by
  intro h
  have hlaw := h (taggedLogs ["a", "b"]) none none none none "a" _ _ taggedLogs_twoTags (taggedLogs_two _ (.inr rfl))
    (taggedLogs_two _ (.inl rfl))
  have hlength := congrArg List.length hlaw.restricts
  exact absurd hlength (by decide)

end Godwit
