import Godwit.Lib.Program

set_option autoImplicit false

/-! # Requests that run at the same time

Each request is a program; a shared trace lists the steps of all of them in the order in which the
world saw them. What the world can answer is a monitor on the shared trace, and what a request does on
its own is a monitor on its own steps. `Interleaved.invariant` combines the two: an invariant over the
state of the world and the local states of all requests, kept by every step that both accept. -/

section

variable {S : Signature}

/-- The steps of one request. -/
def ownSteps (i : Nat) (tr : List (Nat × Step S)) : List (Step S) :=
  (tr.filter fun entry => entry.1 = i).map (·.2)

/-- The steps without who took them. -/
def sharedSteps (tr : List (Nat × Step S)) : List (Step S) := tr.map (·.2)

@[simp] theorem ownSteps_nil (i : Nat) : ownSteps i ([] : List (Nat × Step S)) = [] := rfl

@[simp] theorem ownSteps_append (i : Nat) (first second : List (Nat × Step S)) :
    ownSteps i (first ++ second) = ownSteps i first ++ ownSteps i second := by
  simp [ownSteps]

/-- A request that runs alone takes all steps. -/
@[simp] theorem ownSteps_alone (i : Nat) (tr : List (Step S)) :
    ownSteps i (tr.map fun step => (i, step)) = tr := by
  simp [ownSteps, List.filter_map, Function.comp_def]

theorem ownSteps_cons (i : Nat) (entry : Nat × Step S) (tr : List (Nat × Step S)) :
    ownSteps i (entry :: tr)
      = if entry.1 = i then entry.2 :: ownSteps i tr else ownSteps i tr := by
  by_cases h : entry.1 = i <;> simp [ownSteps, h]

@[simp] theorem sharedSteps_nil : sharedSteps ([] : List (Nat × Step S)) = [] := rfl

@[simp] theorem sharedSteps_cons (entry : Nat × Step S) (tr : List (Nat × Step S)) :
    sharedSteps (entry :: tr) = entry.2 :: sharedSteps tr := rfl

@[simp] theorem sharedSteps_append (first second : List (Nat × Step S)) :
    sharedSteps (first ++ second) = sharedSteps first ++ sharedSteps second := by
  simp [sharedSteps]

theorem after_sharedSteps_snoc (M : Monitor S) (s : M.State) (tr : List (Nat × Step S)) (i : Nat)
    (step : Step S) :
    M.after s (sharedSteps (tr ++ [(i, step)])) = M.next (M.after s (sharedSteps tr)) step := by
  simp

theorem mem_ownSteps {i : Nat} {step : Step S} {tr : List (Nat × Step S)} :
    step ∈ ownSteps i tr ↔ (i, step) ∈ tr := by
  simp only [ownSteps, List.mem_map, List.mem_filter, decide_eq_true_eq, Prod.exists]
  constructor
  · rintro ⟨j, step', ⟨hmem, rfl⟩, rfl⟩
    exact hmem
  · intro h
    exact ⟨i, step, ⟨h, rfl⟩, rfl⟩

/-- Where a step of a request stands, with its own steps before it and after it. -/
theorem exists_split_of_ownSteps {i : Nat} {step : Step S} {tr : List (Nat × Step S)}
    {first second : List (Step S)} (h : ownSteps i tr = first ++ step :: second) :
    ∃ before after, tr = before ++ (i, step) :: after ∧ ownSteps i before = first
      ∧ ownSteps i after = second := by
  induction tr generalizing first with
  | nil => simp at h
  | cons entry rest ih =>
      obtain ⟨j, other⟩ := entry
      rw [ownSteps_cons] at h
      by_cases hj : j = i
      · subst hj
        rw [if_pos rfl] at h
        cases first with
        | nil =>
            obtain ⟨rfl, hrest⟩ := List.cons.inj h
            exact ⟨[], rest, rfl, rfl, hrest⟩
        | cons head first =>
            obtain ⟨rfl, hrest⟩ := List.cons.inj h
            obtain ⟨before, after, rfl, hbefore, hafter⟩ := ih hrest
            exact ⟨(j, other) :: before, after, rfl, by simp [ownSteps_cons, hbefore], hafter⟩
      · rw [if_neg hj] at h
        obtain ⟨before, after, rfl, hbefore, hafter⟩ := ih h
        exact ⟨(j, other) :: before, after, rfl, by simp [ownSteps_cons, hj, hbefore], hafter⟩

/-- The same for its first step. -/
theorem exists_split_of_head {i : Nat} {step : Step S} {tr : List (Nat × Step S)} {second : List (Step S)}
    (h : ownSteps i tr = step :: second) :
    ∃ before after, tr = before ++ (i, step) :: after ∧ ownSteps i before = []
      ∧ ownSteps i after = second := by
  have h : ownSteps i tr = [] ++ step :: second := h
  exact exists_split_of_ownSteps h

/-- An entry that is none of the first ones comes after all of them. -/
theorem after_heads {γ : Type} {heads tail first second : List γ} {x : γ}
    (h : first ++ x :: second = heads ++ tail) (hx : x ∉ heads) : heads ⊆ first ∧ x ∈ tail := by
  rcases List.append_eq_append_iff.1 h with ⟨z, rfl, hz⟩ | ⟨z, rfl, hz⟩
  · cases z with
    | nil => exact ⟨by simp, by simp [show tail = x :: second from by simpa using hz.symm]⟩
    | cons head z =>
        obtain ⟨rfl, -⟩ := List.cons.inj hz
        exact absurd (by simp) hx
  · exact ⟨List.subset_append_left _ _, by simp [hz]⟩

/-- Of two entries of a trace one comes first, or they are the same. -/
theorem split_order {tr x y x' y' : List (Nat × Step S)} {e e' : Nat × Step S} (h : tr = x ++ e :: y)
    (h' : tr = x' ++ e' :: y') :
    e = e' ∨ (∃ z, x' = x ++ e :: z) ∨ ∃ z, x = x' ++ e' :: z := by
  rw [h] at h'
  rcases List.append_eq_append_iff.1 h' with ⟨z, rfl, hz⟩ | ⟨z, rfl, hz⟩
  · cases z with
    | nil => exact .inl (List.cons.inj hz).1
    | cons head z =>
        obtain ⟨rfl, -⟩ := List.cons.inj hz
        exact .inr (.inl ⟨z, rfl⟩)
  · cases z with
    | nil => exact .inl (List.cons.inj hz).1.symm
    | cons head z =>
        obtain ⟨rfl, -⟩ := List.cons.inj hz
        exact .inr (.inr ⟨z, rfl⟩)

end

/-- The trace is one that the world accepts, and the steps of each request are the beginning of a run of
    its program. -/
structure Interleaved {S : Signature} {ρ ε α : Type} (M : Monitor S) (env : Environment S)
    (serve : ρ → Program S ε α) (requests : Nat → ρ) (s : M.State) (tr : List (Nat × Step S)) :
    Prop where
  accepted : M.Safe s (sharedSteps tr)
  own : ∀ i, ∃ rest out, (serve (requests i)).Runs env (ownSteps i tr ++ rest) out

/-- The request has run to its end, with this outcome. -/
def Returns {S : Signature} {ρ ε α : Type} (env : Environment S) (serve : ρ → Program S ε α)
    (requests : Nat → ρ) (tr : List (Nat × Step S)) (i : Nat) (out : Except ε α) : Prop :=
  (serve (requests i)).Runs env (ownSteps i tr) out

namespace Interleaved

variable {S : Signature} {ρ ε α : Type} {M : Monitor S} {env : Environment S}
  {serve : ρ → Program S ε α} {requests : Nat → ρ} {s : M.State} {tr first second : List (Nat × Step S)}

theorem of_append (h : Interleaved M env serve requests s (first ++ second)) :
    Interleaved M env serve requests s first := by
  refine ⟨?_, fun i => ?_⟩
  · have haccepted := h.accepted
    rw [sharedSteps_append] at haccepted
    exact (Monitor.safe_append.1 haccepted).1
  · obtain ⟨rest, out, hrun⟩ := h.own i
    exact ⟨ownSteps i second ++ rest, out, by simpa using hrun⟩

/-- The world accepts a step where it stands. -/
theorem accepts {entry : Nat × Step S} (h : Interleaved M env serve requests s (first ++ entry :: second)) :
    M.accepts (M.after s (sharedSteps first)) entry.2 := by
  have haccepted := h.accepted
  rw [sharedSteps_append, sharedSteps_cons] at haccepted
  exact (Monitor.safe_append.1 haccepted).2.1

/-- The world accepted every step of a request. -/
theorem accepts_of_mem {i : Nat} {step : Step S} (h : Interleaved M env serve requests s tr)
    (hmem : (i, step) ∈ tr) : ∃ before, M.accepts (M.after s (sharedSteps before)) step := by
  obtain ⟨before, after, rfl⟩ := List.append_of_mem hmem
  exact ⟨before, h.accepts⟩

section Local

variable {L : Monitor S} {start : ρ → L.State}

/-- The local state of each request after a shared trace. -/
def locals (start : ρ → L.State) (requests : Nat → ρ) (tr : List (Nat × Step S)) (i : Nat) : L.State :=
  L.after (start (requests i)) (ownSteps i tr)

theorem locals_snoc (start : ρ → L.State) (requests : Nat → ρ) (tr : List (Nat × Step S)) (i : Nat)
    (step : Step S) :
    locals start requests (tr ++ [(i, step)])
      = Function.update (locals start requests tr) i (L.next (locals start requests tr i) step) := by
  funext j
  by_cases hj : j = i
  · subst hj
    simp [locals, ownSteps_cons]
  · have hij : i ≠ j := fun h => hj h.symm
    simp [locals, ownSteps_cons, Function.update_of_ne hj, hij]

/-- A request's own monitor accepts its step where it stands. -/
theorem locally_accepts (hL : ∀ r tr out, (serve r).Runs env tr out → L.Safe (start r) tr) {i : Nat}
    {step : Step S} (h : Interleaved M env serve requests s (first ++ (i, step) :: second)) :
    L.accepts (locals start requests first i) step := by
  obtain ⟨rest, out, hrun⟩ := h.own i
  have hsafe := hL _ _ _ hrun
  rw [ownSteps_append, ownSteps_cons, if_pos rfl, List.append_assoc] at hsafe
  exact (Monitor.safe_append.1 hsafe).2.1

/-- What holds of the world and of all local states at some point, and is kept by every step from there
    on that the world accepts, the request's own monitor accepts and the assumption `C` lets through,
    holds at the end. -/
theorem invariant (hL : ∀ r tr out, (serve r).Runs env tr out → L.Safe (start r) tr)
    {J : M.State → (Nat → L.State) → Prop} {C : M.State → (Nat → L.State) → Nat → Step S → Prop}
    (hstep : ∀ s l i step, J s l → M.accepts s step → L.accepts (l i) step → C s l i step →
      J (M.next s step) (Function.update l i (L.next (l i) step)))
    (h : Interleaved M env serve requests s (first ++ second))
    (hJ : J (M.after s (sharedSteps first)) (locals start requests first))
    (hC : ∀ before i step after, second = before ++ (i, step) :: after →
      C (M.after s (sharedSteps (first ++ before))) (locals start requests (first ++ before)) i step) :
    J (M.after s (sharedSteps (first ++ second))) (locals start requests (first ++ second)) := by
  -- The induction is over the steps that follow, each moved into the part that has happened.
  induction second generalizing first with
  | nil => simpa using hJ
  | cons entry rest ih =>
      obtain ⟨i, step⟩ := entry
      have hassoc : first ++ (i, step) :: rest = (first ++ [(i, step)]) ++ rest := by simp
      have hnow := hC [] i step rest rfl
      rw [List.append_nil] at hnow
      have hnext := hstep _ _ i step hJ h.accepts (h.locally_accepts hL) hnow
      rw [hassoc] at h ⊢
      refine ih h ?_ fun before j step' after hsplit => ?_
      · rw [locals_snoc]
        simpa using hnext
      · have hlater := hC ((i, step) :: before) j step' after (by rw [hsplit]; rfl)
        simpa using hlater

/-- The same from the beginning on. -/
theorem invariant_of_start (hL : ∀ r tr out, (serve r).Runs env tr out → L.Safe (start r) tr)
    {J : M.State → (Nat → L.State) → Prop} {C : M.State → (Nat → L.State) → Nat → Step S → Prop}
    (hstep : ∀ s l i step, J s l → M.accepts s step → L.accepts (l i) step → C s l i step →
      J (M.next s step) (Function.update l i (L.next (l i) step)))
    (h : Interleaved M env serve requests s tr) (hJ : J s fun i => start (requests i))
    (hC : ∀ before i step after, tr = before ++ (i, step) :: after →
      C (M.after s (sharedSteps before)) (locals start requests before) i step) :
    J (M.after s (sharedSteps tr)) (locals start requests tr) := by
  rw [← List.nil_append tr] at h ⊢
  exact h.invariant hL hstep hJ hC

end Local

end Interleaved
