import Mathlib.Data.List.Nodup
import Mathlib.Data.List.Basic

set_option autoImplicit false

/-! # Runs of elements with one key

`keyRuns` cuts a list into its longest stretches of elements with one key. A list is `Contiguous` when no
key comes again after another one, and that is when no two of its runs have the same key: each run is then
all that the list has of its key. -/

variable {α κ : Type} [DecidableEq κ]

/-- Put an element in front: into the first run if that has its key. -/
def consRun (key : α → κ) (x : α) : List (κ × List α) → List (κ × List α)
  | [] => [(key x, [x])]
  | (k, run) :: rest => if key x = k then (k, x :: run) :: rest else (key x, [x]) :: (k, run) :: rest

/-- The runs of a list, each with its key. -/
def keyRuns (key : α → κ) : List α → List (κ × List α)
  | [] => []
  | x :: xs => consRun key x (keyRuns key xs)

/-- A key that comes again comes next. -/
def Contiguous (key : α → κ) : List α → Prop
  | [] => True
  | x :: xs => (key x ∈ xs.map key → xs.head?.map key = some (key x)) ∧ Contiguous key xs

instance decidableContiguous (key : α → κ) : (xs : List α) → Decidable (Contiguous key xs)
  | [] => isTrue trivial
  | x :: xs =>
    have := decidableContiguous key xs
    inferInstanceAs (Decidable ((key x ∈ xs.map key → xs.head?.map key = some (key x)) ∧ Contiguous key xs))

variable {key : α → κ}

theorem consRun_head (x : α) (runs : List (κ × List α)) :
    (consRun key x runs).head?.map Prod.fst = some (key x) := by
  cases runs with
  | nil => rfl
  | cons first rest =>
      rw [consRun]
      split_ifs with hkey
      · simp [hkey]
      · rfl

/-- The first run has the key of the first element. -/
theorem keyRuns_head (xs : List α) : (keyRuns key xs).head?.map Prod.fst = xs.head?.map key := by
  cases xs with
  | nil => rfl
  | cons x xs => exact consRun_head x _

theorem mem_keys_consRun {k : κ} (x : α) (runs : List (κ × List α)) :
    k ∈ (consRun key x runs).map Prod.fst ↔ k = key x ∨ k ∈ runs.map Prod.fst := by
  cases runs with
  | nil => simp [consRun]
  | cons first rest =>
      rw [consRun]
      split_ifs with hkey
      · simp [hkey]
      · simp

theorem mem_keys_keyRuns {k : κ} (xs : List α) : k ∈ (keyRuns key xs).map Prod.fst ↔ k ∈ xs.map key := by
  induction xs with
  | nil => rfl
  | cons x xs ih => rw [keyRuns, mem_keys_consRun, ih, List.map_cons, List.mem_cons]

theorem nodup_consRun_iff (x : α) (runs : List (κ × List α)) :
    ((consRun key x runs).map Prod.fst).Nodup
      ↔ (key x ∈ runs.map Prod.fst → runs.head?.map Prod.fst = some (key x)) ∧ (runs.map Prod.fst).Nodup := by
  cases runs with
  | nil => simp [consRun]
  | cons first rest =>
      obtain ⟨k, run⟩ := first
      rw [consRun]
      split_ifs with hkey
      · simp [hkey]
      · rw [List.map_cons, List.nodup_cons]
        constructor
        · rintro ⟨hnot, hnodup⟩
          exact ⟨fun hin => absurd hin hnot, hnodup⟩
        · rintro ⟨himp, hnodup⟩
          refine ⟨fun hin => hkey ?_, hnodup⟩
          simpa using (himp hin).symm

/-- The keys of the runs differ when no key comes again after another one. -/
theorem nodup_keyRuns_iff (xs : List α) : ((keyRuns key xs).map Prod.fst).Nodup ↔ Contiguous key xs := by
  induction xs with
  | nil => exact ⟨fun _ => trivial, fun _ => List.nodup_nil⟩
  | cons x xs ih => rw [keyRuns, nodup_consRun_iff, ih, keyRuns_head, mem_keys_keyRuns, Contiguous]

theorem filter_key_eq_nil {k : κ} {xs : List α} (h : k ∉ xs.map key) :
    xs.filter (fun x => key x = k) = [] := by
  rw [List.filter_eq_nil_iff]
  intro x hx hsame
  exact h (List.mem_map.2 ⟨x, hx, by simpa using hsame⟩)

/-- In a contiguous list the run of a key is all that the list has of it. -/
theorem keyRuns_eq_filter {xs : List α} (h : Contiguous key xs) (run : κ × List α)
    (hrun : run ∈ keyRuns key xs) : run.2 = xs.filter fun x => key x = run.1 := by
  induction xs generalizing run with
  | nil => cases hrun
  | cons x xs ih =>
      have ih := ih h.2
      have hnodup := (nodup_keyRuns_iff (x :: xs)).2 h
      have hkeys : key x ∈ (keyRuns key xs).map Prod.fst ↔ key x ∈ xs.map key := mem_keys_keyRuns xs
      rw [keyRuns] at hrun hnodup
      -- A run of another key is a run of the rest, and `x` is not of its key.
      have hother : ∀ {rest : List (κ × List α)}, key x ∉ rest.map Prod.fst → run ∈ rest →
          run ∈ keyRuns key xs → run.2 = (x :: xs).filter fun y => key y = run.1 := by
        intro rest hnot hin hmem
        have hne : key x ≠ run.1 := by
          rintro heq
          exact hnot (List.mem_map.2 ⟨run, hin, heq.symm⟩)
        rw [List.filter_cons_of_neg (by simpa using hne)]
        exact ih run hmem
      generalize hruns : keyRuns key xs = runs at hrun hnodup hkeys hother ih
      cases runs with
      | nil =>
          have hnone := filter_key_eq_nil (mt hkeys.2 (by simp))
          obtain rfl := List.mem_singleton.1 hrun
          simp [hnone]
      | cons first rest =>
          obtain ⟨k, stretch⟩ := first
          rw [consRun] at hrun hnodup
          split_ifs at hrun hnodup with hkey
          · subst hkey
            rw [List.map_cons, List.nodup_cons] at hnodup
            rcases List.mem_cons.1 hrun with rfl | hin
            · have hstretch : stretch = xs.filter fun y => key y = key x :=
                ih (key x, stretch) List.mem_cons_self
              simp [hstretch]
            · exact hother hnodup.1 hin (List.mem_cons_of_mem _ hin)
          · rw [List.map_cons, List.nodup_cons] at hnodup
            rcases List.mem_cons.1 hrun with rfl | hin
            · have hnone := filter_key_eq_nil (mt hkeys.2 hnodup.1)
              simp [hnone]
            · exact hother hnodup.1 hin hin
