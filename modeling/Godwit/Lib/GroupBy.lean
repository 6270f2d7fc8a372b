import Mathlib.Algebra.BigOperators.Group.List.Basic
import Mathlib.Data.List.Dedup
import Godwit.Lib.OrderBy

set_option autoImplicit false

/-! # Rows in groups

`groupBy` collects the rows of each key that occurs. The groups do not depend on the order of the rows, and a sum
over the groups is the sum over the rows, whatever the key. A database returns the groups in some order that the
query allows: an arrangement. -/

section GroupBy

variable {ρ κ : Type} [DecidableEq κ] (key : ρ → κ)

/-- The keys of the rows, each with its rows. -/
def groupBy (rows : List ρ) : List (κ × List ρ) :=
  (rows.map key).dedup.map fun k => (k, rows.filter fun row => key row = k)

variable {key} {rows rows' : List ρ}

theorem mem_groupBy {k : κ} {group : List ρ} (h : (k, group) ∈ groupBy key rows) :
    group = rows.filter fun row => key row = k := by
  obtain ⟨k', -, hgroup⟩ := List.mem_map.1 h
  cases hgroup
  rfl

/-- What is computed of the groups does not depend on the order of the rows, if that of one group does not. -/
theorem groupBy_map_perm {α : Type} (figures : κ × List ρ → α)
    (hfigures : ∀ k group group', group.Perm group' → figures (k, group) = figures (k, group'))
    (h : rows.Perm rows') : ((groupBy key rows).map figures).Perm ((groupBy key rows').map figures) := by
  rw [groupBy, groupBy, List.map_map, List.map_map]
  have hsame : ∀ k ∈ (rows.map key).dedup, figures (k, rows.filter fun row => key row = k)
      = figures (k, rows'.filter fun row => key row = k) := by
    intro k _
    exact hfigures k _ _ (h.filter _)
  exact (List.Perm.of_eq (List.map_congr_left hsame)).trans ((h.map key).dedup.map _)

variable {M : Type} [AddCommMonoid M]

/-- Among different keys that include the one of a row, the row is counted once. -/
theorem sum_map_single {keys : List κ} (hkeys : keys.Nodup) {k : κ} (hk : k ∈ keys) (m : M) :
    (keys.map fun k' => if k = k' then m else 0).sum = m := by
  induction keys with
  | nil => cases hk
  | cons k' keys ih =>
      obtain ⟨hfresh, hrest⟩ := List.nodup_cons.1 hkeys
      rw [List.map_cons, List.sum_cons]
      by_cases hhead : k = k'
      · have hzero : ∀ other ∈ keys, (if k = other then m else 0) = 0 := by
          intro other hother
          rw [if_neg]
          rintro rfl
          exact hfresh (hhead ▸ hother)
        rw [if_pos hhead, List.map_congr_left hzero]
        simp
      · rw [if_neg hhead, zero_add]
        exact ih hrest ((List.mem_cons.1 hk).resolve_left hhead)

/-- The sums of the rows of each key sum up to the sum of the rows. -/
theorem sum_map_filter_key (f : ρ → M) {keys : List κ} (hkeys : keys.Nodup) (hmem : ∀ row ∈ rows, key row ∈ keys) :
    (keys.map fun k => ((rows.filter fun row => key row = k).map f).sum).sum = (rows.map f).sum := by
  induction rows with
  | nil => simp
  | cons row rows ih =>
      have hsplit : ∀ k, (((row :: rows).filter fun row => key row = k).map f).sum
          = (if key row = k then f row else 0) + ((rows.filter fun row => key row = k).map f).sum := by
        intro k
        by_cases hk : key row = k <;> simp [hk]
      rw [List.map_congr_left fun k _ => hsplit k, List.sum_map_add,
        sum_map_single hkeys (hmem row List.mem_cons_self), ih fun row' h => hmem row' (List.mem_cons_of_mem _ h),
        List.map_cons, List.sum_cons]

/-- A sum over the groups is the sum over the rows. -/
theorem sum_groupBy (f : ρ → M) (rows : List ρ) :
    ((groupBy key rows).map fun group => (group.2.map f).sum).sum = (rows.map f).sum := by
  rw [groupBy, List.map_map]
  refine sum_map_filter_key f (List.nodup_dedup _) fun row hrow => ?_
  exact List.mem_dedup.2 (List.mem_map_of_mem hrow)

end GroupBy

/-! ## Arrangements -/

section Arrangement

variable {α : Type}

/-- The rows in an order in which none comes after one that it must come before. -/
def Arrangement (before : α → α → Prop) (rows result : List α) : Prop :=
  result.Perm rows ∧ result.Pairwise before

variable {before : α → α → Prop} {rows rows' result result' : List α}

/-- The arrangements do not depend on the order of the rows. -/
theorem Arrangement.congr (h : rows.Perm rows') : Arrangement before rows result ↔ Arrangement before rows' result :=
  and_congr_left fun _ => ⟨fun hperm => hperm.trans h, fun hperm => hperm.trans h.symm⟩

theorem Arrangement.perm (h : Arrangement before rows result) (h' : Arrangement before rows result') :
    result.Perm result' :=
  h.1.trans h'.1.symm

/-- Rows that can be compared can be arranged. -/
theorem Arrangement.exists (rows : List α) [DecidableRel before] [Std.Total before] [IsTrans α before] :
    ∃ result, Arrangement before rows result :=
  ⟨orderBy before rows, orderBy_perm rows, orderBy_pairwise rows⟩

theorem Arrangement.sum_eq {M : Type} [AddCommMonoid M] (h : Arrangement before rows result) (f : α → M) :
    (result.map f).sum = (rows.map f).sum :=
  (h.1.map f).sum_eq

end Arrangement
