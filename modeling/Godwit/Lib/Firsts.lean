import Mathlib.Data.List.MinMax
import Mathlib.Data.List.Nodup

set_option autoImplicit false

/-! # The first row of every key

`firsts` keeps of the rows with the same key the one with the lowest place, as `DISTINCT ON` with an order does, and
as a deletion does of every row that comes after another with its key. Where no two rows have the same place, one row
of every key is left. -/

section Firsts

variable {ρ κ τ : Type} [DecidableEq κ] [LinearOrder τ] (key : ρ → κ) (place : ρ → τ)

/-- The rows before which no other comes with the same key. -/
def firsts (rows : List ρ) : List ρ :=
  rows.filter fun row => !rows.any fun other => key other = key row ∧ place other < place row

variable {key place} {rows : List ρ} {row row' : ρ}

theorem mem_firsts :
    row ∈ firsts key place rows ↔ row ∈ rows ∧ ∀ other ∈ rows, key other = key row → place row ≤ place other := by
  simp [firsts, List.mem_filter]

theorem firsts_subset (h : row ∈ firsts key place rows) : row ∈ rows :=
  (mem_firsts.1 h).1

/-- Every key has a first row. -/
theorem exists_mem_firsts (h : row ∈ rows) : ∃ first ∈ firsts key place rows, key first = key row := by
  cases hleast : (rows.filter fun other => key other = key row).argmin place with
  | none =>
      have hnone := List.filter_eq_nil_iff.1 (List.argmin_eq_none.1 hleast) row h
      simp at hnone
  | some first =>
      obtain ⟨hfirst, hkey⟩ := List.mem_filter.1 (List.argmin_mem hleast)
      have hkey : key first = key row := by simpa using hkey
      refine ⟨first, mem_firsts.2 ⟨hfirst, fun other hother hsame => ?_⟩, hkey⟩
      have hother' : other ∈ rows.filter fun other => key other = key row := by simp [hother, hsame.trans hkey]
      exact List.le_of_mem_argmin hother' hleast

variable (hplaces : (rows.map place).Nodup)
include hplaces

/-- No key has two. -/
theorem firsts_unique (h : row ∈ firsts key place rows) (h' : row' ∈ firsts key place rows)
    (hkey : key row = key row') : row = row' := by
  obtain ⟨hmem, hlow⟩ := mem_firsts.1 h
  obtain ⟨hmem', hlow'⟩ := mem_firsts.1 h'
  have hplace : place row = place row' := le_antisymm (hlow row' hmem' hkey.symm) (hlow' row hmem hkey)
  exact List.inj_on_of_nodup_map hplaces hmem hmem' hplace

theorem firsts_keys_nodup : ((firsts key place rows).map key).Nodup := by
  refine List.Nodup.map_on (fun row h row' h' => firsts_unique hplaces h h') ?_
  exact hplaces.of_map.filter _

end Firsts
