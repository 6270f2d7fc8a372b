import Mathlib.Logic.Relation
import Mathlib.Data.List.Basic

set_option autoImplicit false

/-! # Two threads and their locks

A thread is at a point of its code and holds some locks, for reading or for writing. Each step of it takes a
lock, gives one back, or works on the data that the threads share; a thread that wants a lock which is held
in a mode that excludes the wanted one has no step. Two threads are in a deadlock when each waits for a lock
that the other holds. A thread that waits with no lock in its hands is in none (`not_deadlocked_of_first`,
`not_deadlocked_of_second`). -/

/-- Shared or exclusive. -/
inductive LockMode where
  | read
  | write
  deriving DecidableEq, Repr

/-- Both modes at the same time: only readers share a lock. -/
def LockMode.shared : LockMode → LockMode → Bool
  | .read, .read => true
  | _, _ => false

/-- What is at a point of a thread's code, over locks `L`, data `σ` and points `τ`. -/
inductive LockInstr (L σ τ : Type) where
  | acquire (lock : L) (mode : LockMode) (next : τ)
  | release (lock : L) (mode : LockMode) (next : τ)
  | access (work : σ → σ × τ)
  | done

/-- Where a thread is, and the locks it holds. -/
structure LockThread (L τ : Type) where
  point : τ
  held : List (L × LockMode)

section Thread

variable {L σ τ : Type} [DecidableEq L]

/-- The lock can be taken in a mode, next to those that are held. -/
def lockFree (held : List (L × LockMode)) (lock : L) (mode : LockMode) : Bool :=
  held.all fun h => decide (h.1 ≠ lock) || h.2.shared mode

/-- One step of a thread, next to the locks that others hold. -/
def LockThread.step (code : τ → LockInstr L σ τ) (others : List (L × LockMode)) (data : σ) (t : LockThread L τ) :
    Option (σ × LockThread L τ) :=
  match code t.point with
  | .acquire lock mode next =>
    if lockFree (others ++ t.held) lock mode then some (data, ⟨next, (lock, mode) :: t.held⟩) else none
  | .release lock mode next => some (data, ⟨next, t.held.erase (lock, mode)⟩)
  | .access work => some ((work data).1, ⟨(work data).2, t.held⟩)
  | .done => none

/-- Where an instruction leads and what it leaves of the data, whatever the locks. -/
def LockInstr.next (instr : LockInstr L σ τ) (data : σ) : Option (σ × τ) :=
  match instr with
  | .acquire _ _ next => some (data, next)
  | .release _ _ next => some (data, next)
  | .access work => some (work data)
  | .done => none

/-- What one step does, for each kind of instruction. -/
theorem LockThread.step_cases {code : τ → LockInstr L σ τ} {others : List (L × LockMode)} {data data' : σ}
    {t t' : LockThread L τ} (h : t.step code others data = some (data', t')) :
    (∃ lock mode next, code t.point = .acquire lock mode next ∧ lockFree (others ++ t.held) lock mode = true
        ∧ data' = data ∧ t' = ⟨next, (lock, mode) :: t.held⟩)
      ∨ (∃ lock mode next, code t.point = .release lock mode next
        ∧ data' = data ∧ t' = ⟨next, t.held.erase (lock, mode)⟩)
      ∨ (∃ work, code t.point = .access work ∧ data' = (work data).1 ∧ t' = ⟨(work data).2, t.held⟩) := by
  cases hinstr : code t.point with
  | acquire lock mode next =>
      simp only [LockThread.step, hinstr] at h
      by_cases hfree : lockFree (others ++ t.held) lock mode = true
      · rw [if_pos hfree, Option.some_inj, Prod.mk.injEq] at h
        exact .inl ⟨lock, mode, next, rfl, hfree, h.1.symm, h.2.symm⟩
      · rw [if_neg hfree] at h
        cases h
  | release lock mode next =>
      simp only [LockThread.step, hinstr, Option.some_inj, Prod.mk.injEq] at h
      exact .inr (.inl ⟨lock, mode, next, rfl, h.1.symm, h.2.symm⟩)
  | access work =>
      simp only [LockThread.step, hinstr, Option.some_inj, Prod.mk.injEq] at h
      exact .inr (.inr ⟨work, rfl, h.1.symm, h.2.symm⟩)
  | done =>
      simp only [LockThread.step, hinstr] at h
      cases h

theorem LockThread.next_of_step {code : τ → LockInstr L σ τ} {others : List (L × LockMode)} {data data' : σ}
    {t t' : LockThread L τ} (h : t.step code others data = some (data', t')) :
    (code t.point).next data = some (data', t'.point) := by
  obtain ⟨_, _, _, hinstr, -, rfl, rfl⟩ | ⟨_, _, _, hinstr, rfl, rfl⟩ | ⟨_, hinstr, rfl, rfl⟩ :=
    LockThread.step_cases h
  all_goals rw [hinstr, LockInstr.next]

/-- The code takes and gives back locks in such a way that each point has the same locks whenever it is
    reached. -/
def HoldsAt (code : τ → LockInstr L σ τ) (held : τ → List (L × LockMode)) : Prop :=
  ∀ p, match code p with
    | .acquire lock mode next => held next = (lock, mode) :: held p
    | .release lock mode next => held next = (held p).erase (lock, mode)
    | .access work => ∀ data, held (work data).2 = held p
    | .done => True

theorem HoldsAt.step {code : τ → LockInstr L σ τ} {held : τ → List (L × LockMode)} (hcode : HoldsAt code held)
    {others : List (L × LockMode)} {data data' : σ} {t t' : LockThread L τ} (ht : t.held = held t.point)
    (h : t.step code others data = some (data', t')) : t'.held = held t'.point := by
  have hpoint := hcode t.point
  obtain ⟨_, _, _, hinstr, -, -, rfl⟩ | ⟨_, _, _, hinstr, -, rfl⟩ | ⟨_, hinstr, -, rfl⟩ :=
    LockThread.step_cases h
  all_goals rw [hinstr, ← ht] at hpoint
  · exact hpoint.symm
  · exact hpoint.symm
  · exact (hpoint data).symm

/-- The thread wants a lock that another one holds in a mode that excludes it. -/
def LockThread.WaitsFor (code : τ → LockInstr L σ τ) (t : LockThread L τ) (others : List (L × LockMode)) : Prop :=
  ∃ lock mode next, code t.point = .acquire lock mode next
    ∧ ∃ other, (lock, other) ∈ others ∧ other.shared mode = false

omit [DecidableEq L] in
theorem LockThread.not_waitsFor_nil (code : τ → LockInstr L σ τ) (t : LockThread L τ) : ¬ t.WaitsFor code [] := by
  rintro ⟨_, _, _, _, _, hheld, _⟩
  exact absurd hheld List.not_mem_nil

end Thread

/-! ## Two threads -/

/-- Two threads and the data they share. -/
structure LockConfig (L σ τ τ' : Type) where
  data : σ
  first : LockThread L τ
  second : LockThread L τ'

section Config

variable {L σ τ τ' : Type} [DecidableEq L] (code : τ → LockInstr L σ τ) (code' : τ' → LockInstr L σ τ')

/-- A step of either thread. -/
inductive LockConfig.Step : LockConfig L σ τ τ' → LockConfig L σ τ τ' → Prop
  | first {c : LockConfig L σ τ τ'} {data : σ} {t : LockThread L τ}
      (h : c.first.step code c.second.held c.data = some (data, t)) : Step c ⟨data, t, c.second⟩
  | second {c : LockConfig L σ τ τ'} {data : σ} {t : LockThread L τ'}
      (h : c.second.step code' c.first.held c.data = some (data, t)) : Step c ⟨data, c.first, t⟩

/-- What some interleaving leads to. -/
def LockConfig.Reaches : LockConfig L σ τ τ' → LockConfig L σ τ τ' → Prop :=
  Relation.ReflTransGen (LockConfig.Step code code')

/-- Each thread waits for the other. -/
def LockConfig.Deadlocked (c : LockConfig L σ τ τ') : Prop :=
  c.first.WaitsFor code c.second.held ∧ c.second.WaitsFor code' c.first.held

variable {code code'}

/-- What holds at the start and is kept by every step holds wherever the threads come. -/
theorem LockConfig.Reaches.invariant (Inv : LockConfig L σ τ τ' → Prop)
    (hstep : ∀ {c c'}, Inv c → LockConfig.Step code code' c c' → Inv c') {c c' : LockConfig L σ τ τ'}
    (hstart : Inv c)
    (h : c.Reaches code code' c') : Inv c' := by
  induction h with
  | refl => exact hstart
  | tail _ hlast ih => exact hstep ih hlast

/-- What the instructions of both keep, whatever the locks. -/
theorem LockConfig.Reaches.points (Inv : σ → τ → τ' → Prop)
    (hfirst : ∀ {data data' p p' q}, Inv data p q → (code p).next data = some (data', p') → Inv data' p' q)
    (hsecond : ∀ {data data' p q q'}, Inv data p q → (code' q).next data = some (data', q') → Inv data' p q')
    {c c' : LockConfig L σ τ τ'} (hstart : Inv c.data c.first.point c.second.point) (h : c.Reaches code code' c') :
    Inv c'.data c'.first.point c'.second.point := by
  refine LockConfig.Reaches.invariant (fun c => Inv c.data c.first.point c.second.point) ?_ hstart h
  intro _ _ hinv hstep
  obtain ⟨hstep⟩ | ⟨hstep⟩ := hstep
  · exact hfirst hinv (LockThread.next_of_step hstep)
  · exact hsecond hinv (LockThread.next_of_step hstep)

theorem LockConfig.Reaches.held {held : τ → List (L × LockMode)} {held' : τ' → List (L × LockMode)}
    (hcode : HoldsAt code held) (hcode' : HoldsAt code' held') {c c' : LockConfig L σ τ τ'}
    (hstart : c.first.held = held c.first.point ∧ c.second.held = held' c.second.point)
    (h : c.Reaches code code' c') :
    c'.first.held = held c'.first.point ∧ c'.second.held = held' c'.second.point := by
  refine LockConfig.Reaches.invariant
    (fun c => c.first.held = held c.first.point ∧ c.second.held = held' c.second.point) ?_ hstart h
  intro _ _ hinv hstep
  obtain ⟨hstep⟩ | ⟨hstep⟩ := hstep
  · exact ⟨hcode.step hinv.1 hstep, hinv.2⟩
  · exact ⟨hinv.1, hcode'.step hinv.2 hstep⟩

omit [DecidableEq L] in
theorem LockConfig.not_deadlocked_of_first {c : LockConfig L σ τ τ'}
    (hheld : ∀ lock mode next, code c.first.point = .acquire lock mode next → c.first.held = []) :
    ¬ c.Deadlocked code code' := by
  rintro ⟨⟨lock, mode, next, hacquire, -⟩, hsecond⟩
  rw [hheld lock mode next hacquire] at hsecond
  exact LockThread.not_waitsFor_nil code' c.second hsecond

omit [DecidableEq L] in
theorem LockConfig.not_deadlocked_of_second {c : LockConfig L σ τ τ'}
    (hheld : ∀ lock mode next, code' c.second.point = .acquire lock mode next → c.second.held = []) :
    ¬ c.Deadlocked code code' := by
  rintro ⟨hfirst, lock, mode, next, hacquire, -⟩
  rw [hheld lock mode next hacquire] at hfirst
  exact LockThread.not_waitsFor_nil code c.first hfirst

/-! ## One thread on its own -/

/-- What a thread does while the others stand still. -/
def LockThread.Steps (code : τ → LockInstr L σ τ) (others : List (L × LockMode)) :
    σ × LockThread L τ → σ × LockThread L τ → Prop :=
  Relation.ReflTransGen fun before after => before.2.step code others before.1 = some after

theorem LockConfig.reaches_first {c : LockConfig L σ τ τ'} {data : σ} {t : LockThread L τ}
    (h : LockThread.Steps code c.second.held (c.data, c.first) (data, t)) :
    c.Reaches code code' ⟨data, t, c.second⟩ := by
  obtain ⟨start, first, second⟩ := c
  refine Relation.ReflTransGen.lift (fun s : σ × LockThread L τ => LockConfig.mk s.1 s.2 second) ?_ _ _ h
  intro _ _ hstep
  exact LockConfig.Step.first hstep

theorem LockConfig.reaches_second {c : LockConfig L σ τ τ'} {data : σ} {t : LockThread L τ'}
    (h : LockThread.Steps code' c.first.held (c.data, c.second) (data, t)) :
    c.Reaches code code' ⟨data, c.first, t⟩ := by
  obtain ⟨start, first, second⟩ := c
  refine Relation.ReflTransGen.lift (fun s : σ × LockThread L τ' => LockConfig.mk s.1 first s.2) ?_ _ _ h
  intro _ _ hstep
  exact LockConfig.Step.second hstep

end Config

section Steps

variable {L σ τ : Type} [DecidableEq L] {code : τ → LockInstr L σ τ} {others held held' : List (L × LockMode)}
  {data data' : σ} {point next : τ}

theorem LockThread.Steps.trans {s s' s'' : σ × LockThread L τ}
    (h : LockThread.Steps code others s s') (h' : LockThread.Steps code others s' s'') :
    LockThread.Steps code others s s'' := Relation.ReflTransGen.trans h h'

theorem LockThread.Steps.acquire {lock : L} {mode : LockMode} (hcode : code point = .acquire lock mode next)
    (hfree : lockFree (others ++ held) lock mode = true) :
    LockThread.Steps code others (data, ⟨point, held⟩) (data, ⟨next, (lock, mode) :: held⟩) := by
  refine .single ?_
  simp only [LockThread.step, hcode, hfree, if_true]

theorem LockThread.Steps.release {lock : L} {mode : LockMode} (hcode : code point = .release lock mode next)
    (hheld : held.erase (lock, mode) = held') :
    LockThread.Steps code others (data, ⟨point, held⟩) (data, ⟨next, held'⟩) := by
  refine .single ?_
  simp only [LockThread.step, hcode, hheld]

theorem LockThread.Steps.access {work : σ → σ × τ} (hcode : code point = .access work)
    (hwork : work data = (data', next)) :
    LockThread.Steps code others (data, ⟨point, held⟩) (data', ⟨next, held⟩) := by
  refine .single ?_
  simp only [LockThread.step, hcode, hwork]

/-- Work on the data under one lock. -/
theorem LockThread.Steps.locked {lock : L} {mode : LockMode} {inside leaving : τ} {work : σ → σ × τ}
    (hacquire : code point = .acquire lock mode inside) (haccess : code inside = .access work)
    (hwork : work data = (data', leaving)) (hrelease : code leaving = .release lock mode next)
    (hfree : lockFree (others ++ held) lock mode = true) :
    LockThread.Steps code others (data, ⟨point, held⟩) (data', ⟨next, held⟩) := by
  have hgiven : LockThread.Steps code others (data', ⟨leaving, (lock, mode) :: held⟩) (data', ⟨next, held⟩) :=
    .release hrelease (List.erase_cons_head ..)
  exact .trans (.acquire hacquire hfree) (.trans (.access haccess hwork) hgiven)

end Steps
