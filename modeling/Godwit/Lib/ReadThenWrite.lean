import Godwit.Lib.Interleaving

set_option autoImplicit false

/-! # Two updates that read a row and write it back

Each of two requests reads a row, and writes it with what the request sets and the rest as it was read. What
`ReadThenWrite.carried_iff` says is when the row has in the end what both have set: `carried i` is that it has what
request `i` sets. -/

section

variable {S : Signature}

/-- Request `i` writes, then request `j` does, and in between `j` does not read. -/
def Overwritten (reads writes : S.Op → Bool) (tr : List (Nat × Step S)) (i j : Nat) : Prop :=
  ∃ before write middle write' after, tr = before ++ (i, write) :: (middle ++ (j, write') :: after)
    ∧ writes write.op = true ∧ writes write'.op = true
    ∧ ∀ entry ∈ middle, entry.1 = j → reads entry.2.op = false

/-- A list is split at one of its elements in one way only, when it is the only one of its kind. -/
theorem List.split_unique {α : Type} {p : α → Prop} {x y : α} {first second before after : List α}
    (h : first ++ x :: second = before ++ y :: after) (hfirst : ∀ a ∈ first, ¬ p a) (hsecond : ∀ a ∈ second, ¬ p a)
    (hy : p y) : first = before ∧ x = y ∧ second = after := by
  rcases List.append_eq_append_iff.1 h with ⟨z, rfl, hz⟩ | ⟨z, rfl, hz⟩
  · cases z with
    | nil => simpa using hz
    | cons head z =>
        obtain ⟨rfl, rfl⟩ := List.cons.inj hz
        exact absurd hy (hsecond y (by simp))
  · cases z with
    | nil => simpa [eq_comm] using hz
    | cons head z =>
        obtain ⟨rfl, rfl⟩ := List.cons.inj hz
        exact absurd hy (hfirst y (by simp))

variable {M : Monitor S} (reads writes : S.Op → Bool) (inv : M.State → Prop) (carried : Nat → M.State → Prop)

/-- The step is no write of the row and changes nothing in it. -/
structure LeavesRow (step : Step S) : Prop where
  silent : writes step.op = false
  keeps : ∀ s, M.accepts s step → ∀ i, carried i (M.next s step) ↔ carried i s

/-- A run of request `i`: what it writes is what it sets, and for the other request what it has read. -/
structure UpdateRun (i j : Nat) (run : List (Step S)) : Prop where
  steps : ∃ before read write after, run = before ++ read :: write :: after ∧ reads read.op = true
    ∧ writes write.op = true ∧ (∀ step ∈ before ++ read :: after, LeavesRow (M := M) writes carried step)
    ∧ ∀ s₀ s₁, inv s₀ → inv s₁ → M.accepts s₀ read → M.accepts s₁ write →
      carried i (M.next s₁ write) ∧ (carried j (M.next s₁ write) ↔ carried j s₀)

/-- Two such runs at the same time. -/
structure ReadThenWrite (i j : Nat) (s : M.State) (tr : List (Nat × Step S)) : Prop where
  distinct : i ≠ j
  start : inv s
  kept : ∀ s step, inv s → M.accepts s step → inv (M.next s step)
  safe : M.Safe s (sharedSteps tr)
  both : ∀ entry ∈ tr, entry.1 = i ∨ entry.1 = j
  first : UpdateRun (M := M) reads writes inv carried i j (ownSteps i tr)
  second : UpdateRun (M := M) reads writes inv carried j i (ownSteps j tr)

end

section

variable {S : Signature} {M : Monitor S} {reads writes : S.Op → Bool} {inv : M.State → Prop}
  {carried : Nat → M.State → Prop} {i j : Nat} {s : M.State}

/-- A run is split at its write in one way. -/
theorem UpdateRun.at_write {run first second : List (Step S)} {write : Step S}
    (h : UpdateRun (M := M) reads writes inv carried i j run) (hrun : run = first ++ write :: second)
    (hwrite : writes write.op = true) :
    ∃ before read, first = before ++ [read] ∧ reads read.op = true
      ∧ (∀ step ∈ first ++ second, LeavesRow (M := M) writes carried step)
      ∧ ∀ s₀ s₁, inv s₀ → inv s₁ → M.accepts s₀ read → M.accepts s₁ write →
        carried i (M.next s₁ write) ∧ (carried j (M.next s₁ write) ↔ carried j s₀) := by
  obtain ⟨before, read, write', after, rfl, hread, hwrite', hleaves, hcarried⟩ := h.steps
  rw [List.append_cons] at hrun
  have hsilent : ∀ step ∈ (before ++ [read]) ++ after, ¬ writes step.op = true := by
    intro step hstep
    rw [(hleaves step (by simpa using hstep)).silent]
    exact Bool.false_ne_true
  obtain ⟨rfl, rfl, rfl⟩ := List.split_unique (p := fun step => writes step.op = true) hrun
    (fun step hstep => hsilent step (List.mem_append_left _ hstep))
    (fun step hstep => hsilent step (List.mem_append_right _ hstep)) hwrite
  exact ⟨before, read, rfl, hread, by simpa using hleaves, hcarried⟩

theorem safe_append_cons {before after : List (Nat × Step S)} {entry : Nat × Step S} :
    M.Safe s (sharedSteps (before ++ entry :: after)) ↔ M.Safe s (sharedSteps before)
      ∧ M.accepts (M.after s (sharedSteps before)) entry.2
      ∧ M.Safe (M.next (M.after s (sharedSteps before)) entry.2) (sharedSteps after) := by
  rw [sharedSteps_append, sharedSteps_cons, Monitor.safe_append, Monitor.safe_cons]

theorem ownSteps_append_own (before after : List (Nat × Step S)) (step : Step S) :
    ownSteps i (before ++ (i, step) :: after) = ownSteps i before ++ step :: ownSteps i after := by
  rw [ownSteps_append, ownSteps_cons, if_pos rfl]

theorem after_append_cons (s : M.State) (before after : List (Nat × Step S)) (entry : Nat × Step S) :
    M.after s (sharedSteps (before ++ entry :: after))
      = M.after (M.next (M.after s (sharedSteps before)) entry.2) (sharedSteps after) := by
  simp

/-- Steps that leave the row alone. -/
theorem carried_after {tr : List (Nat × Step S)}
    (hleaves : ∀ entry ∈ tr, LeavesRow (M := M) writes carried entry.2) (hsafe : M.Safe s (sharedSteps tr)) (k : Nat) :
    carried k (M.after s (sharedSteps tr)) ↔ carried k s := by
  induction tr generalizing s with
  | nil => exact Iff.rfl
  | cons entry tr ih =>
      have hfirst := (hleaves entry List.mem_cons_self).keeps s hsafe.1 k
      exact (ih (fun other hother => hleaves other (List.mem_cons_of_mem _ hother)) hsafe.2).trans hfirst

namespace ReadThenWrite

variable {tr : List (Nat × Step S)}

theorem symm (h : ReadThenWrite (M := M) reads writes inv carried i j s tr) :
    ReadThenWrite (M := M) reads writes inv carried j i s tr :=
  ⟨h.distinct.symm, h.start, h.kept, h.safe, fun entry hentry => (h.both entry hentry).symm, h.second, h.first⟩

theorem inv_after (h : ReadThenWrite (M := M) reads writes inv carried i j s tr) {steps : List (Step S)}
    (hsafe : M.Safe s steps) : inv (M.after s steps) := by
  have hall : ∀ (steps : List (Step S)) (s : M.State), inv s → M.Safe s steps → inv (M.after s steps) := by
    intro steps
    induction steps with
    | nil => exact fun _ hinv _ => hinv
    | cons step steps ih => exact fun s hinv hsafe => ih _ (h.kept s step hinv hsafe.1) hsafe.2
  exact hall steps s h.start hsafe

/-- Both write, in some order. -/
theorem exists_order (h : ReadThenWrite (M := M) reads writes inv carried i j s tr) :
    ∃ before write middle write' after, writes write.op = true ∧ writes write'.op = true
      ∧ (tr = before ++ (i, write) :: (middle ++ (j, write') :: after)
        ∨ tr = before ++ (j, write) :: (middle ++ (i, write') :: after)) := by
  obtain ⟨own, read, write, rest, hrun, -, hwrite, -, -⟩ := h.first.steps
  obtain ⟨own', read', write', rest', hrun', -, hwrite', -, -⟩ := h.second.steps
  rw [List.append_cons] at hrun hrun'
  obtain ⟨x, y, htr, -, -⟩ := exists_split_of_ownSteps hrun
  obtain ⟨x', y', htr', -, -⟩ := exists_split_of_ownSteps hrun'
  rcases split_order htr htr' with hsame | ⟨z, rfl⟩ | ⟨z, rfl⟩
  · exact absurd (congrArg Prod.fst hsame) h.distinct
  · exact ⟨x, write, z, write', y', hwrite, hwrite', .inl (by simpa using htr')⟩
  · exact ⟨x', write', z, write, y, hwrite', hwrite, .inr (by simpa using htr)⟩

variable {before middle after : List (Nat × Step S)} {write write' : Step S}

/-- Beside the two writes no step touches the row. -/
theorem leavesRow_of_order (h : ReadThenWrite (M := M) reads writes inv carried i j s tr)
    (htr : tr = before ++ (i, write) :: (middle ++ (j, write') :: after)) (hwrite : writes write.op = true)
    (hwrite' : writes write'.op = true) :
    ∀ entry ∈ before ++ (middle ++ after), LeavesRow (M := M) writes carried entry.2 := by
  have htr' : tr = (before ++ (i, write) :: middle) ++ (j, write') :: after := by simpa using htr
  obtain ⟨-, -, -, -, hleaves, -⟩ := h.first.at_write (htr ▸ ownSteps_append_own _ _ _) hwrite
  obtain ⟨-, -, -, -, hleaves', -⟩ := h.second.at_write (htr' ▸ ownSteps_append_own _ _ _) hwrite'
  rintro ⟨k, step⟩ hentry
  have hmem : (k, step) ∈ tr := by
    rw [htr]
    simp only [List.mem_append, List.mem_cons] at hentry ⊢
    tauto
  rcases h.both _ hmem with rfl | rfl
  · refine hleaves step ?_
    rw [← ownSteps_append, mem_ownSteps]
    simp only [List.mem_append, List.mem_cons] at hentry ⊢
    tauto
  · refine hleaves' step ?_
    rw [← ownSteps_append, mem_ownSteps]
    simp only [List.mem_append, List.mem_cons] at hentry ⊢
    tauto

/-- When `i` writes before `j`, what `j` sets is there in the end, and what `i` sets is there exactly if `j` has read it
    since, or if it was there from the start. -/
theorem carried_of_order (h : ReadThenWrite (M := M) reads writes inv carried i j s tr)
    (htr : tr = before ++ (i, write) :: (middle ++ (j, write') :: after)) (hwrite : writes write.op = true)
    (hwrite' : writes write'.op = true) :
    carried j (M.after s (sharedSteps tr)) ∧ (carried i (M.after s (sharedSteps tr)) ↔
      (∃ entry ∈ middle, entry.1 = j ∧ reads entry.2.op = true) ∨ carried i s) := by
  have hrest := h.leavesRow_of_order htr hwrite hwrite'
  have htr' : tr = (before ++ (i, write) :: middle) ++ (j, write') :: after := by simpa using htr
  obtain ⟨own, read, hread, -, -, hset⟩ := h.first.at_write (htr ▸ ownSteps_append_own _ _ _) hwrite
  obtain ⟨own', read', hread', hreads', -, hset'⟩ := h.second.at_write (htr' ▸ ownSteps_append_own _ _ _) hwrite'
  -- the states at the read and at the two writes
  have hsafe := h.safe
  rw [htr', safe_append_cons] at hsafe
  obtain ⟨hlater, hwrites', hafter⟩ := hsafe
  obtain ⟨hbefore, hwrites, -⟩ := safe_append_cons.1 hlater
  have hinv := h.inv_after hbefore
  have hinv' := h.inv_after hlater
  obtain ⟨x, y, rfl, -, -⟩ := exists_split_of_ownSteps hread
  obtain ⟨x', y', hsplit, -, hlast⟩ := exists_split_of_ownSteps hread'
  rw [hsplit] at hlater
  obtain ⟨hx, hreadAt, -⟩ := safe_append_cons.1 hbefore
  obtain ⟨hx', hreadAt', -⟩ := safe_append_cons.1 hlater
  obtain ⟨hi, -⟩ := hset _ _ (h.inv_after hx) hinv hreadAt hwrites
  obtain ⟨hj, hback⟩ := hset' _ _ (h.inv_after hx') hinv' hreadAt' hwrites'
  have hend := fun k => carried_after (M := M) (fun entry hentry => hrest entry (by simp [hentry])) hafter k
  rw [htr', after_append_cons, hend i, hend j, hback]
  refine ⟨hj, ?_⟩
  -- where `j` has read what it writes back
  rcases split_order rfl hsplit with hsame | ⟨z, rfl⟩ | ⟨z, hz⟩
  · exact absurd (congrArg Prod.fst hsame) h.distinct
  · obtain rfl : middle = z ++ (j, read') :: y' := by simpa using hsplit
    refine iff_of_true ?_ (.inl ⟨(j, read'), by simp, rfl, hreads'⟩)
    rw [after_append_cons, carried_after (fun entry hentry => hrest entry (by simp [hentry]))
      (safe_append_cons.1 hx').2.2]
    exact hi
  · rw [hz] at hsplit hrest
    obtain rfl : y' = z ++ (i, write) :: middle := by simpa using hsplit.symm
    rw [carried_after (fun entry hentry => hrest entry (by simp [hentry])) hx']
    refine ⟨.inr, fun hcarried => hcarried.resolve_left ?_⟩
    rintro ⟨⟨k, step⟩, hentry, rfl, -⟩
    have hmem : step ∈ ownSteps k (z ++ (i, write) :: middle) := mem_ownSteps.2 (by simp [hentry])
    rw [hlast] at hmem
    cases hmem

/-- In the end the row has what both requests set exactly when no value that one of them sets is overwritten with what
    was there before both. -/
theorem carried_iff (h : ReadThenWrite (M := M) reads writes inv carried i j s tr) :
    (carried i (M.after s (sharedSteps tr)) ∧ carried j (M.after s (sharedSteps tr))) ↔
      (Overwritten reads writes tr i j → carried i s) ∧ (Overwritten reads writes tr j i → carried j s) := by
  have hkept : ∀ {i j : Nat}, ReadThenWrite (M := M) reads writes inv carried i j s tr →
      carried i (M.after s (sharedSteps tr)) → Overwritten reads writes tr i j → carried i s := by
    rintro i j h hcarried ⟨before, write, middle, write', after, htr, hwrite, hwrite', hunread⟩
    rcases (h.carried_of_order htr hwrite hwrite').2.1 hcarried with ⟨entry, hentry, hj, hreads⟩ | hstart
    · rw [hunread entry hentry hj] at hreads
      cases hreads
    · exact hstart
  have hwritten : ∀ {i j : Nat} {before middle after : List (Nat × Step S)} {write write' : Step S},
      ReadThenWrite (M := M) reads writes inv carried i j s tr →
      tr = before ++ (i, write) :: (middle ++ (j, write') :: after) → writes write.op = true →
      writes write'.op = true → (Overwritten reads writes tr i j → carried i s) →
      carried i (M.after s (sharedSteps tr)) ∧ carried j (M.after s (sharedSteps tr)) := by
    intro i j before middle after write write' h htr hwrite hwrite' hstart
    obtain ⟨hj, hi⟩ := h.carried_of_order htr hwrite hwrite'
    refine ⟨hi.2 ?_, hj⟩
    by_cases hread : ∃ entry ∈ middle, entry.1 = j ∧ reads entry.2.op = true
    · exact .inl hread
    · push Not at hread
      exact .inr (hstart ⟨before, write, middle, write', after, htr, hwrite, hwrite',
        fun entry hentry hj => Bool.eq_false_iff.2 (hread entry hentry hj)⟩)
  refine ⟨fun ⟨hi, hj⟩ => ⟨hkept h hi, hkept h.symm hj⟩, fun ⟨hi, hj⟩ => ?_⟩
  obtain ⟨before, write, middle, write', after, hwrite, hwrite', htr | htr⟩ := h.exists_order
  · exact hwritten h htr hwrite hwrite' hi
  · exact (hwritten h.symm htr hwrite hwrite' hj).symm

end ReadThenWrite

end
