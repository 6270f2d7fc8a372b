import Mathlib.Data.List.Nodup

set_option autoImplicit false

/-! # Tables with a primary key

A `Table` is a list of rows whose keys differ. The statements on it are the ones a database has: look a
row up, add one, replace one by its key, delete those that satisfy a condition. Each has a lemma that
says which rows it leaves. -/

/-- Rows with distinct keys. -/
structure Table {ρ κ : Type} (key : ρ → κ) where
  rows : List ρ
  distinct : (rows.map key).Nodup

namespace Table

variable {ρ κ : Type} {key : ρ → κ}

instance : Membership ρ (Table key) := ⟨fun t row => row ∈ t.rows⟩

theorem mem_iff {t : Table key} {row : ρ} : row ∈ t ↔ row ∈ t.rows := Iff.rfl

/-- The table without rows. -/
def empty : Table key := ⟨[], List.nodup_nil⟩

/-- The table with one row. -/
def single (row : ρ) : Table key := ⟨[row], List.nodup_singleton (key row)⟩

theorem eq_of_key {t : Table key} {row row' : ρ} (h : row ∈ t) (h' : row' ∈ t)
    (hkey : key row = key row') : row = row' :=
  List.inj_on_of_nodup_map t.distinct h h' hkey

/-- Delete the rows that satisfy a condition. -/
def delete (t : Table key) (p : ρ → Bool) : Table key :=
  ⟨t.rows.filter (!p ·), t.distinct.sublist (List.filter_sublist.map key)⟩

theorem mem_delete {t : Table key} {p : ρ → Bool} {row : ρ} :
    row ∈ t.delete p ↔ row ∈ t ∧ p row = false := by
  simp [mem_iff, delete, List.mem_filter]

theorem forall_delete {t : Table key} {p : ρ → Bool} {P : ρ → Prop} (h : ∀ old ∈ t, P old) :
    ∀ other ∈ t.delete p, P other :=
  fun other hmem => h other (mem_delete.1 hmem).1

/-- Change every row and keep its key. -/
def map (t : Table key) (f : ρ → ρ) (h : ∀ row, key (f row) = key row) : Table key :=
  ⟨t.rows.map f, by
    have hkeys : (t.rows.map f).map key = t.rows.map key := by
      rw [List.map_map]
      exact List.map_congr_left fun row _ => h row
    rw [hkeys]
    exact t.distinct⟩

theorem mem_map {t : Table key} {f : ρ → ρ} (h : ∀ row, key (f row) = key row) {row : ρ} :
    row ∈ t.map f h ↔ ∃ old ∈ t, f old = row := by
  simp [mem_iff, map]

/-- Two tables that have the same rows of a kind have them as often, in some order. -/
theorem filter_perm {t t' : Table key} {p : ρ → Bool} (h : ∀ row, p row = true → (row ∈ t ↔ row ∈ t')) :
    (t.rows.filter p).Perm (t'.rows.filter p) := by
  have hnodup : ∀ t : Table key, (t.rows.filter p).Nodup := fun t => t.distinct.of_map.filter p
  rw [List.perm_ext_iff_of_nodup (hnodup t) (hnodup t')]
  intro row
  rw [List.mem_filter, List.mem_filter]
  exact and_congr_left fun hp => h row hp

variable [DecidableEq κ]

/-- The row with this key. -/
def find? (t : Table key) (k : κ) : Option ρ := t.rows.find? fun row => key row = k

theorem find?_eq_some_iff {t : Table key} {k : κ} {row : ρ} :
    t.find? k = some row ↔ row ∈ t ∧ key row = k := by
  constructor
  · intro h
    exact ⟨List.mem_of_find?_eq_some h, by simpa using List.find?_some h⟩
  · rintro ⟨hmem, hkey⟩
    cases hfind : t.find? k with
    | none =>
        have hnone := List.find?_eq_none.1 hfind row hmem
        simp [hkey] at hnone
    | some other =>
        have hother : other ∈ t := List.mem_of_find?_eq_some hfind
        have hkey' : key other = k := by simpa using List.find?_some hfind
        rw [eq_of_key hother hmem (hkey'.trans hkey.symm)]

theorem find?_eq_none_iff {t : Table key} {k : κ} : t.find? k = none ↔ ∀ row ∈ t, key row ≠ k := by
  simp [find?, List.find?_eq_none, mem_iff]

theorem find?_isSome_iff {t : Table key} {k : κ} : (t.find? k).isSome = true ↔ ∃ row ∈ t, key row = k := by
  simp only [Option.isSome_iff_exists, find?_eq_some_iff]

/-- Add a row; a row whose key is taken is not added. -/
def insert (t : Table key) (row : ρ) : Table key :=
  if h : key row ∈ t.rows.map key then t
  else ⟨t.rows ++ [row], by
    rw [List.map_append]
    exact t.distinct.append (List.nodup_singleton _) (by simpa using h)⟩

theorem mem_insert_of_fresh {t : Table key} {row other : ρ} (h : t.find? (key row) = none) :
    other ∈ t.insert row ↔ other ∈ t ∨ other = row := by
  have hfresh : key row ∉ t.rows.map key := by
    intro hmem
    obtain ⟨taken, htaken, hkey⟩ := List.mem_map.1 hmem
    exact find?_eq_none_iff.1 h taken htaken hkey
  simp [mem_iff, insert, hfresh]

theorem mem_of_insert {t : Table key} {row other : ρ} (h : other ∈ t.insert row) : other ∈ t ∨ other = row := by
  unfold insert at h
  split at h
  · exact .inl h
  · simpa [mem_iff] using h

/-- What holds of all rows and of the new one still does. -/
theorem forall_insert {t : Table key} {row : ρ} {P : ρ → Prop} (h : ∀ old ∈ t, P old) (hrow : P row) :
    ∀ other ∈ t.insert row, P other := by
  intro other hmem
  rcases mem_of_insert hmem with hmem | rfl
  · exact h other hmem
  · exact hrow

theorem rows_insert_of_fresh {t : Table key} {row : ρ} (h : t.find? (key row) = none) :
    (t.insert row).rows = t.rows ++ [row] := by
  have hfresh : key row ∉ t.rows.map key := by
    intro hmem
    obtain ⟨taken, htaken, hkey⟩ := List.mem_map.1 hmem
    exact find?_eq_none_iff.1 h taken htaken hkey
  rw [insert, dif_neg hfresh]

theorem find?_insert_isSome {t : Table key} {row : ρ} {k : κ} (h : (t.find? k).isSome = true) :
    ((t.insert row).find? k).isSome = true := by
  unfold insert
  split
  · exact h
  · obtain ⟨old, hmem, hkey⟩ := find?_isSome_iff.1 h
    exact find?_isSome_iff.2 ⟨old, List.mem_append_left _ hmem, hkey⟩

/-- The row takes the place of the one with its key. -/
def replace (t : Table key) (row : ρ) : Table key :=
  ⟨t.rows.map fun old => if key old = key row then row else old, by
    have hkeys : (t.rows.map fun old => if key old = key row then row else old).map key
        = t.rows.map key := by
      rw [List.map_map]
      refine List.map_congr_left fun old _ => ?_
      by_cases hkey : key old = key row <;> simp [hkey]
    rw [hkeys]
    exact t.distinct⟩

theorem mem_replace {t : Table key} {row other : ρ} :
    other ∈ t.replace row
      ↔ (other ∈ t ∧ key other ≠ key row) ∨ (other = row ∧ ∃ old ∈ t, key old = key row) := by
  simp only [mem_iff, replace, List.mem_map]
  constructor
  · rintro ⟨old, hold, rfl⟩
    by_cases hkey : key old = key row
    · exact .inr ⟨by simp [hkey], old, hold, hkey⟩
    · exact .inl ⟨by simpa [hkey] using hold, by simp [hkey]⟩
  · rintro (⟨hmem, hkey⟩ | ⟨rfl, old, hold, hkey⟩)
    · exact ⟨other, hmem, by simp [hkey]⟩
    · exact ⟨old, hold, by simp [hkey]⟩

theorem forall_replace {t : Table key} {row : ρ} {P : ρ → Prop} (h : ∀ old ∈ t, P old) (hrow : P row) :
    ∀ other ∈ t.replace row, P other := by
  intro other hmem
  rcases mem_replace.1 hmem with ⟨hmem, -⟩ | ⟨rfl, -⟩
  · exact h other hmem
  · exact hrow

theorem find?_replace_isSome {t : Table key} {row : ρ} {k : κ} (h : (t.find? k).isSome = true) :
    ((t.replace row).find? k).isSome = true := by
  obtain ⟨old, hmem, hkey⟩ := find?_isSome_iff.1 h
  by_cases hrow : key old = key row
  · exact find?_isSome_iff.2 ⟨row, mem_replace.2 (.inr ⟨rfl, old, hmem, hrow⟩), hrow.symm.trans hkey⟩
  · exact find?_isSome_iff.2 ⟨old, mem_replace.2 (.inl ⟨hmem, hrow⟩), hkey⟩

theorem find?_replace_of_ne {t : Table key} {row : ρ} {k : κ} (hkey : key row ≠ k) :
    (t.replace row).find? k = t.find? k := by
  refine Option.ext fun other => ?_
  rw [find?_eq_some_iff, find?_eq_some_iff, mem_replace]
  constructor
  · rintro ⟨⟨hmem, -⟩ | ⟨rfl, -⟩, hother⟩
    · exact ⟨hmem, hother⟩
    · exact absurd hother hkey
  · rintro ⟨hmem, rfl⟩
    exact ⟨.inl ⟨hmem, Ne.symm hkey⟩, rfl⟩

theorem find?_replace_self {t : Table key} {row old : ρ} (h : t.find? (key row) = some old) :
    (t.replace row).find? (key row) = some row := by
  obtain ⟨hmem, hkey⟩ := find?_eq_some_iff.1 h
  exact find?_eq_some_iff.2 ⟨mem_replace.2 (.inr ⟨rfl, old, hmem, hkey⟩), rfl⟩

/-- A row takes the place of the one that has its key. -/
theorem find?_replace_of_key {t : Table key} {k : κ} {row old : ρ} (h : t.find? k = some old) (hkey : key row = k) :
    (t.replace row).find? k = some row := by
  subst hkey
  exact find?_replace_self h

/-- Add a row, or let it take the place of the one with its key. -/
def upsert (t : Table key) (row : ρ) : Table key := (t.replace row).insert row

theorem mem_upsert {t : Table key} {row other : ρ} :
    other ∈ t.upsert row ↔ (other ∈ t ∧ key other ≠ key row) ∨ other = row := by
  cases hfind : (t.replace row).find? (key row) with
  | none =>
      -- No row has the key, so nothing was replaced.
      have hnone : ¬ ∃ old ∈ t, key old = key row := by
        rintro ⟨old, hold, hkey⟩
        exact find?_eq_none_iff.1 hfind row (mem_replace.2 (.inr ⟨rfl, old, hold, hkey⟩)) rfl
      rw [upsert, mem_insert_of_fresh hfind, mem_replace]
      simp [hnone]
  | some taken =>
      obtain ⟨htaken, hkey⟩ := find?_eq_some_iff.1 hfind
      have hold : ∃ old ∈ t, key old = key row := by
        rcases mem_replace.1 htaken with ⟨hmem, hne⟩ | ⟨-, hold⟩
        · exact absurd hkey hne
        · exact hold
      have hmem : key row ∈ (t.replace row).rows.map key := List.mem_map.2 ⟨taken, htaken, hkey⟩
      rw [upsert, insert, dif_pos hmem, mem_replace]
      simp [hold]

/-- A row that is replaced by itself. -/
theorem replace_self {t : Table key} {row : ρ} (h : row ∈ t) : t.replace row = t := by
  obtain ⟨rows, distinct⟩ := t
  have hrows : (rows.map fun old => if key old = key row then row else old) = rows := by
    refine (List.map_congr_left fun old hold => ?_).trans (List.map_id rows)
    by_cases hkey : key old = key row
    · simpa [hkey] using (eq_of_key (t := ⟨rows, distinct⟩) hold h hkey).symm
    · simp [hkey]
  simp [replace, hrows]

end Table
