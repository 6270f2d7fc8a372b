import Mathlib.Data.List.Sort

set_option autoImplicit false

/-! # Rows in order

`orderBy` sorts rows by a relation that is total, transitive and antisymmetric on them, as an `ORDER BY` that
ends in the primary key does. The order is then unique, which is how it meets the other clauses: a row that
comes before all others is the first, and a condition may be checked before or after. -/

section OrderBy

variable {ρ : Type} (before : ρ → ρ → Prop) [DecidableRel before]

/-- The rows in order. -/
def orderBy (rows : List ρ) : List ρ := rows.insertionSort before

/-- No two of the rows are equally early. -/
def Distinguishes (rows : List ρ) : Prop :=
  ∀ row ∈ rows, ∀ row' ∈ rows, before row row' → before row' row → row = row'

variable {before} {rows rows' : List ρ}

omit [DecidableRel before] in
theorem Distinguishes.of_subset (h : Distinguishes before rows) (hsub : rows' ⊆ rows) :
    Distinguishes before rows' :=
  fun row hrow row' hrow' => h row (hsub hrow) row' (hsub hrow')

theorem orderBy_perm (rows : List ρ) : (orderBy before rows).Perm rows :=
  List.perm_insertionSort before rows

theorem mem_orderBy {row : ρ} : row ∈ orderBy before rows ↔ row ∈ rows :=
  (orderBy_perm rows).mem_iff

variable [Std.Total before] [IsTrans ρ before]

theorem orderBy_pairwise (rows : List ρ) : (orderBy before rows).Pairwise before :=
  List.pairwise_insertionSort before rows

/-- There is one order. -/
theorem orderBy_eq (hdistinct : Distinguishes before rows) (hperm : rows'.Perm rows)
    (hordered : rows'.Pairwise before) : orderBy before rows = rows' := by
  refine ((orderBy_perm rows).trans hperm.symm).eq_of_pairwise (fun row row' hrow hrow' => ?_)
    (orderBy_pairwise rows) hordered
  exact hdistinct row (mem_orderBy.1 hrow) row' (hperm.subset hrow')

/-- A row that comes before the others is the first. -/
theorem orderBy_append_first {row : ρ} (hdistinct : Distinguishes before (rows ++ [row]))
    (hfirst : ∀ other ∈ rows, before row other) :
    orderBy before (rows ++ [row]) = row :: orderBy before rows := by
  refine orderBy_eq hdistinct ?_ ?_
  · exact ((orderBy_perm rows).cons row).trans (List.perm_append_singleton row rows).symm
  · exact List.pairwise_cons.2 ⟨fun other hother => hfirst other (mem_orderBy.1 hother), orderBy_pairwise rows⟩

/-- A condition on the rows may be checked before or after. -/
theorem orderBy_filter (hdistinct : Distinguishes before rows) (p : ρ → Bool) :
    orderBy before (rows.filter p) = (orderBy before rows).filter p :=
  orderBy_eq (hdistinct.of_subset (List.filter_subset_self rows))
    ((orderBy_perm rows).filter p) ((orderBy_pairwise rows).sublist List.filter_sublist)

end OrderBy

/-- In a list without duplicates, what is among the first is the first. -/
theorem filter_mem_take {α : Type} [DecidableEq α] {xs : List α} (h : xs.Nodup) (n : Nat) :
    xs.filter (fun x => decide (x ∈ xs.take n)) = xs.take n := by
  have hdisjoint : ∀ x ∈ xs.drop n, x ∉ xs.take n := by
    intro x hdrop htake
    rw [← List.take_append_drop n xs] at h
    exact (List.nodup_append.1 h).2.2 x htake x hdrop rfl
  conv_lhs => rw [← List.take_append_drop n xs, List.filter_append]
  rw [List.take_append_drop, List.filter_eq_self.2 fun x hx => decide_eq_true hx,
    List.filter_eq_nil_iff.2 fun x hx => by simpa using hdisjoint x hx, List.append_nil]
