import Mathlib.Tactic.Common

set_option autoImplicit false

/-! # Programs with effects and their runs

A `Program` computes, fails, or performs an operation and goes on with the answer. A run of a program
is the list of the operations it performed with the answers it got, where an environment says which
answers are possible. A `Monitor` reads a run step by step and judges every step; `Monitor.Ensures` and
its rules are how to show that it accepts every run of a program, and where the run ends. -/

/-- Operations, each with the type of its answers. -/
structure Signature where
  Op : Type
  Answer : Op → Type

/-- A program that performs operations of `S`, fails with an `ε` or returns an `α`. -/
inductive Program (S : Signature) (ε α : Type) where
  | pure (a : α)
  | throw (e : ε)
  | op (o : S.Op) (k : S.Answer o → Program S ε α)

namespace Program

variable {S : Signature} {ε ε' α β : Type}

/-- Go on with the outcome of a program, be it a value or a failure. -/
def handle (p : Program S ε α) (f : Except ε α → Program S ε' β) : Program S ε' β :=
  match p with
  | .pure a => f (.ok a)
  | .throw e => f (.error e)
  | .op o k => .op o fun answer => (k answer).handle f

/-- A result that asks nothing. -/
def ofExcept : Except ε α → Program S ε α
  | .ok a => .pure a
  | .error e => .throw e

instance : Monad (Program S ε) where
  pure := .pure
  bind p f := p.handle fun
    | .ok a => f a
    | .error e => .throw e

/-- Perform one operation. -/
def perform (o : S.Op) : Program S ε (S.Answer o) := .op o .pure

/-- The failure of a program as a value. -/
def attempt (p : Program S ε α) : Program S ε' (Except ε α) := p.handle .pure

/-- The same program with another error. -/
def mapError (g : ε → ε') (p : Program S ε α) : Program S ε' α :=
  p.handle fun outcome => ofExcept (outcome.mapError g)

theorem bind_assoc {γ : Type} (p : Program S ε α) (f : α → Program S ε β) (g : β → Program S ε γ) :
    p >>= f >>= g = p >>= fun a => f a >>= g := by
  induction p with
  | pure a => rfl
  | throw e => rfl
  | op o k ih => exact congrArg (Program.op o) (funext ih)

end Program

/-! ## Runs -/

/-- An operation with its answer. -/
structure Step (S : Signature) where
  op : S.Op
  answer : S.Answer op

/-- Which answers an operation may get. -/
abbrev Environment (S : Signature) := (o : S.Op) → S.Answer o → Prop

/-- The runs of a program in an environment, with their outcomes. -/
inductive Program.Runs {S : Signature} {ε α : Type} (env : Environment S) :
    Program S ε α → List (Step S) → Except ε α → Prop
  | pure (a : α) : Runs env (.pure a) [] (.ok a)
  | throw (e : ε) : Runs env (.throw e) [] (.error e)
  | op {o : S.Op} {k : S.Answer o → Program S ε α} {answer : S.Answer o} {tr : List (Step S)}
      {out : Except ε α} (h : env o answer) (rest : Runs env (k answer) tr out) :
      Runs env (.op o k) (⟨o, answer⟩ :: tr) out

namespace Program

section Runs

variable {S : Signature} {ε ε' α β : Type} {env : Environment S} {tr : List (Step S)}

theorem runs_pure_iff {a : α} {out : Except ε α} :
    Runs env (.pure a) tr out ↔ tr = [] ∧ out = .ok a := by
  constructor
  · intro h
    cases h
    exact ⟨rfl, rfl⟩
  · rintro ⟨rfl, rfl⟩
    exact .pure a

theorem runs_throw_iff {e : ε} {out : Except ε α} :
    Runs env (.throw e) tr out ↔ tr = [] ∧ out = .error e := by
  constructor
  · intro h
    cases h
    exact ⟨rfl, rfl⟩
  · rintro ⟨rfl, rfl⟩
    exact .throw e

theorem runs_op_iff {o : S.Op} {k : S.Answer o → Program S ε α} {out : Except ε α} :
    Runs env (.op o k) tr out
      ↔ ∃ answer rest, tr = ⟨o, answer⟩ :: rest ∧ env o answer ∧ Runs env (k answer) rest out := by
  constructor
  · intro h
    cases h with
    | op henv rest => exact ⟨_, _, rfl, henv, rest⟩
  · rintro ⟨answer, rest, rfl, henv, hrest⟩
    exact .op henv hrest

theorem runs_ofExcept_iff {r out : Except ε α} :
    Runs env (ofExcept r : Program S ε α) tr out ↔ tr = [] ∧ out = r := by
  cases r with
  | ok a => exact runs_pure_iff
  | error e => exact runs_throw_iff

/-- A run that goes on with an outcome is a run up to the outcome and one from it. -/
theorem runs_handle_iff {p : Program S ε α} {f : Except ε α → Program S ε' β}
    {out : Except ε' β} :
    Runs env (p.handle f) tr out
      ↔ ∃ outcome first second, tr = first ++ second ∧ Runs env p first outcome
          ∧ Runs env (f outcome) second out := by
  induction p generalizing tr with
  | pure a =>
      simp only [handle, runs_pure_iff]
      constructor
      · intro h
        exact ⟨_, [], tr, rfl, ⟨rfl, rfl⟩, h⟩
      · rintro ⟨_, _, second, rfl, ⟨rfl, rfl⟩, h⟩
        exact h
  | throw e =>
      simp only [handle, runs_throw_iff]
      constructor
      · intro h
        exact ⟨_, [], tr, rfl, ⟨rfl, rfl⟩, h⟩
      · rintro ⟨_, _, second, rfl, ⟨rfl, rfl⟩, h⟩
        exact h
  | op o k ih =>
      simp only [handle, runs_op_iff]
      constructor
      · rintro ⟨answer, rest, rfl, henv, hrest⟩
        obtain ⟨outcome, first, second, rfl, hfirst, hsecond⟩ := (ih answer).1 hrest
        exact ⟨outcome, _, second, rfl, ⟨answer, first, rfl, henv, hfirst⟩, hsecond⟩
      · rintro ⟨outcome, _, second, rfl, ⟨answer, first, rfl, henv, hfirst⟩, hsecond⟩
        exact ⟨answer, first ++ second, rfl, henv,
          (ih answer).2 ⟨outcome, first, second, rfl, hfirst, hsecond⟩⟩

theorem runs_mapError_iff {g : ε → ε'} {p : Program S ε α} {out : Except ε' α} :
    Runs env (p.mapError g) tr out
      ↔ ∃ outcome, Runs env p tr outcome ∧ out = outcome.mapError g := by
  unfold mapError
  rw [runs_handle_iff]
  constructor
  · rintro ⟨outcome, first, _, rfl, hp, hout⟩
    obtain ⟨rfl, rfl⟩ := runs_ofExcept_iff.1 hout
    exact ⟨outcome, by simpa using hp, rfl⟩
  · rintro ⟨outcome, hp, rfl⟩
    exact ⟨outcome, tr, [], by simp, hp, runs_ofExcept_iff.2 ⟨rfl, rfl⟩⟩

/-- A run of a sequence is a failing run of its first part, or a run of each part. -/
theorem runs_bind_iff {p : Program S ε α} {f : α → Program S ε β} {out : Except ε β} :
    Runs env (p >>= f) tr out
      ↔ (∃ e, Runs env p tr (.error e) ∧ out = .error e)
        ∨ ∃ a first second, tr = first ++ second ∧ Runs env p first (.ok a)
          ∧ Runs env (f a) second out := by
  refine (runs_handle_iff (p := p)).trans ?_
  constructor
  · rintro ⟨e | a, first, second, rfl, hp, hrest⟩
    · obtain ⟨rfl, rfl⟩ := runs_throw_iff.1 hrest
      exact .inl ⟨e, by simpa using hp, rfl⟩
    · exact .inr ⟨a, first, second, rfl, hp, hrest⟩
  · rintro (⟨e, hp, rfl⟩ | ⟨a, first, second, rfl, hp, hrest⟩)
    · exact ⟨.error e, tr, [], by simp, hp, .throw e⟩
    · exact ⟨.ok a, first, second, rfl, hp, hrest⟩

/-- A sequence that succeeds has a first part that does. -/
theorem Runs.bind_ok {p : Program S ε α} {f : α → Program S ε β} {b : β}
    (h : Runs env (p >>= f) tr (.ok b)) :
    ∃ a first second, tr = first ++ second ∧ Runs env p first (.ok a)
      ∧ Runs env (f a) second (.ok b) := by
  rcases runs_bind_iff.1 h with ⟨e, -, hout⟩ | hparts
  · cases hout
  · exact hparts

/-- A computation that succeeds takes no step. -/
theorem Runs.ofExcept_bind_ok {r : Except ε α} {f : α → Program S ε β} {b : β}
    (h : Runs env (ofExcept r >>= f) tr (.ok b)) : ∃ a, r = .ok a ∧ Runs env (f a) tr (.ok b) := by
  obtain ⟨a, first, second, rfl, hr, hf⟩ := h.bind_ok
  obtain ⟨rfl, rfl⟩ := runs_ofExcept_iff.1 hr
  exact ⟨a, rfl, hf⟩

/-- A result that is only wrapped is there after the same steps. -/
theorem Runs.bind_pure_ok {p : Program S ε α} {g : α → β} {b : β}
    (h : Runs env (p >>= fun a => .pure (g a)) tr (.ok b)) : ∃ a, Runs env p tr (.ok a) ∧ g a = b := by
  obtain ⟨a, first, second, rfl, hp, hpure⟩ := h.bind_ok
  obtain ⟨rfl, hb⟩ := runs_pure_iff.1 hpure
  rw [List.append_nil]
  exact ⟨a, hp, (Except.ok.inj hb).symm⟩

/-- What only wraps the result of a program takes no step of its own. -/
theorem Runs.of_bind_pure {p : Program S ε α} {g : α → β} {out : Except ε β}
    (h : Runs env (p >>= fun a => .pure (g a)) tr out) : ∃ out', Runs env p tr out' := by
  rcases runs_bind_iff.1 h with ⟨e, hp, -⟩ | ⟨a, first, second, rfl, hp, hpure⟩
  · exact ⟨_, hp⟩
  · obtain ⟨rfl, -⟩ := runs_pure_iff.1 hpure
    exact ⟨_, by simpa using hp⟩

/-- An operation and what follows it. -/
theorem runs_perform_bind_iff {o : S.Op} {f : S.Answer o → Program S ε β} {out : Except ε β} :
    Runs env (perform o >>= f) tr out
      ↔ ∃ answer rest, tr = ⟨o, answer⟩ :: rest ∧ env o answer ∧ Runs env (f answer) rest out :=
  runs_op_iff

/-- An operation whose failure is one of the program has succeeded before what follows it. -/
theorem Runs.perform_ofExcept_ok {Op E : Type} {Row : Op → Type} {env : Environment ⟨Op, fun o => Except E (Row o)⟩}
    {tr : List (Step ⟨Op, fun o => Except E (Row o)⟩)} {o : Op} {g : E → ε}
    {f : Row o → Program ⟨Op, fun o => Except E (Row o)⟩ ε β} {b : β}
    (h : Runs env ((Program.perform o >>= fun answer => ofExcept (answer.mapError g)) >>= f) tr (.ok b)) :
    ∃ row rest, tr = ⟨o, .ok row⟩ :: rest ∧ Runs env (f row) rest (.ok b) := by
  rw [bind_assoc] at h
  obtain ⟨answer, rest, rfl, -, h⟩ := runs_perform_bind_iff.1 h
  obtain ⟨row, hrow, h⟩ := h.ofExcept_bind_ok
  cases answer with
  | error e => cases hrow
  | ok row' =>
      cases hrow
      exact ⟨row, rest, rfl, h⟩

theorem Runs.perform {o : S.Op} {f : S.Answer o → Program S ε β} {answer : S.Answer o}
    {out : Except ε β} (h : env o answer) (hf : Runs env (f answer) tr out) :
    Runs env (Program.perform o >>= f) (⟨o, answer⟩ :: tr) out :=
  .op h hf

end Runs

/-- Run a program against a handler with state: the outcome, the steps and the last state. -/
def exec {S : Signature} {ε α σ : Type} (handler : (o : S.Op) → σ → S.Answer o × σ) :
    Program S ε α → σ → Except ε α × List (Step S) × σ
  | .pure a, s => (.ok a, [], s)
  | .throw e, s => (.error e, [], s)
  | .op o k, s =>
    let (answer, s) := handler o s
    let (out, tr, s) := (k answer).exec handler s
    (out, ⟨o, answer⟩ :: tr, s)

/-- An operation and what follows it, against a handler. -/
theorem exec_perform_bind {S : Signature} {ε α σ : Type} (handler : (o : S.Op) → σ → S.Answer o × σ) (o : S.Op)
    (f : S.Answer o → Program S ε α) (s : σ) :
    (perform o >>= f).exec handler s
      = (((f (handler o s).1).exec handler (handler o s).2).1,
        ⟨o, (handler o s).1⟩ :: ((f (handler o s).1).exec handler (handler o s).2).2.1,
        ((f (handler o s).1).exec handler (handler o s).2).2.2) := rfl

end Program

/-! ## Which operations a program performs -/

namespace Program

variable {S : Signature} {ε ε' α β : Type} {P P' : S.Op → Prop}

/-- Every operation that the program can perform satisfies `P`. -/
def Only (P : S.Op → Prop) : Program S ε α → Prop
  | .pure _ => True
  | .throw _ => True
  | .op o k => P o ∧ ∀ answer, (k answer).Only P

theorem Only.mono {p : Program S ε α} (h : p.Only P) (hP : ∀ o, P o → P' o) : p.Only P' := by
  induction p with
  | pure a => trivial
  | throw e => trivial
  | op o k ih => exact ⟨hP o h.1, fun answer => ih answer (h.2 answer)⟩

theorem Only.handle {p : Program S ε α} {f : Except ε α → Program S ε' β} (hp : p.Only P)
    (hf : ∀ outcome, (f outcome).Only P) : (p.handle f).Only P := by
  induction p with
  | pure a => exact hf _
  | throw e => exact hf _
  | op o k ih => exact ⟨hp.1, fun answer => ih answer (hp.2 answer)⟩

theorem Only.bind {p : Program S ε α} {f : α → Program S ε β} (hp : p.Only P)
    (hf : ∀ a, (f a).Only P) : (p >>= f).Only P := by
  refine hp.handle fun outcome => ?_
  cases outcome with
  | ok a => exact hf a
  | error e => trivial

theorem Only.perform {o : S.Op} {f : S.Answer o → Program S ε β} (ho : P o)
    (hf : ∀ answer, (f answer).Only P) : (Program.perform o >>= f).Only P :=
  ⟨ho, hf⟩

theorem Only.attempt {p : Program S ε α} (hp : p.Only P) :
    (p.attempt : Program S ε' (Except ε α)).Only P :=
  hp.handle fun _ => trivial

theorem Only.mapError {p : Program S ε α} {g : ε → ε'} (hp : p.Only P) : (p.mapError g).Only P := by
  refine hp.handle fun outcome => ?_
  cases outcome <;> trivial

theorem Only.ofExcept (r : Except ε α) : (Program.ofExcept r : Program S ε α).Only P := by
  cases r <;> trivial

/-- Every step of a run is one that the program can perform. -/
theorem Runs.only {env : Environment S} {p : Program S ε α} {tr : List (Step S)} {out : Except ε α}
    (hrun : p.Runs env tr out) (h : p.Only P) : ∀ step ∈ tr, P step.op := by
  induction hrun with
  | pure a => simp
  | throw e => simp
  | op henv rest ih => exact List.forall_mem_cons.2 ⟨h.1, ih (h.2 _)⟩

end Program

/-! ## Monitors -/

/-- An observer of runs: a state, how a step changes it, and which steps it accepts. -/
structure Monitor (S : Signature) where
  State : Type
  next : State → Step S → State
  accepts : State → Step S → Prop

namespace Monitor

variable {S : Signature} (M : Monitor S)

/-- The state after a run. -/
def after (s : M.State) (tr : List (Step S)) : M.State := tr.foldl M.next s

/-- Every step of the run is accepted. -/
def Safe : M.State → List (Step S) → Prop
  | _, [] => True
  | s, step :: tr => M.accepts s step ∧ Safe (M.next s step) tr

variable {M}

@[simp] theorem after_nil (s : M.State) : M.after s [] = s := rfl

@[simp] theorem after_cons (s : M.State) (step : Step S) (tr : List (Step S)) :
    M.after s (step :: tr) = M.after (M.next s step) tr := rfl

@[simp] theorem after_append (s : M.State) (first second : List (Step S)) :
    M.after s (first ++ second) = M.after (M.after s first) second :=
  List.foldl_append

@[simp] theorem safe_nil (s : M.State) : M.Safe s [] := trivial

theorem safe_cons {s : M.State} {step : Step S} {tr : List (Step S)} :
    M.Safe s (step :: tr) ↔ M.accepts s step ∧ M.Safe (M.next s step) tr :=
  Iff.rfl

theorem safe_append {s : M.State} {first second : List (Step S)} :
    M.Safe s (first ++ second) ↔ M.Safe s first ∧ M.Safe (M.after s first) second := by
  induction first generalizing s with
  | nil => simp
  | cons step tr ih => simp [safe_cons, ih, and_assoc]

/-- Steps that the monitor accepts and does not record. -/
theorem safe_of_quiet {P : S.Op → Prop} {s : M.State} {tr : List (Step S)}
    (hsteps : ∀ step, P step.op → M.accepts s step ∧ M.next s step = s)
    (hall : ∀ step ∈ tr, P step.op) : M.Safe s tr ∧ M.after s tr = s := by
  induction tr with
  | nil => exact ⟨trivial, rfl⟩
  | cons step rest ih =>
      obtain ⟨haccepts, hnext⟩ := hsteps step (hall step List.mem_cons_self)
      obtain ⟨hsafe, hafter⟩ := ih fun step hstep => hall step (List.mem_cons_of_mem _ hstep)
      rw [safe_cons, after_cons, hnext]
      exact ⟨⟨haccepts, hsafe⟩, hafter⟩

end Monitor

/-- From the state `s` every run of `p` is safe and ends in `Q` of its value or `E` of its failure. -/
def Monitor.Ensures {S : Signature} (M : Monitor S) (env : Environment S) {ε α : Type} (s : M.State)
    (p : Program S ε α) (Q : α → M.State → Prop) (E : ε → M.State → Prop) : Prop :=
  ∀ tr out, p.Runs env tr out →
    M.Safe s tr ∧ match out with
      | .ok a => Q a (M.after s tr)
      | .error e => E e (M.after s tr)

namespace Monitor.Ensures

variable {S : Signature} {M : Monitor S} {env : Environment S} {ε ε' α β : Type} {s : M.State}
  {Q : α → M.State → Prop} {E : ε → M.State → Prop} {Q' : β → M.State → Prop}
  {E' : ε' → M.State → Prop}

theorem pure {a : α} (h : Q a s) : M.Ensures env s (.pure a) Q E := by
  intro tr out hrun
  obtain ⟨rfl, rfl⟩ := Program.runs_pure_iff.1 hrun
  exact ⟨trivial, h⟩

theorem throw {e : ε} (h : E e s) : M.Ensures env s (.throw e) Q E := by
  intro tr out hrun
  obtain ⟨rfl, rfl⟩ := Program.runs_throw_iff.1 hrun
  exact ⟨trivial, h⟩

theorem ofExcept {r : Except ε α} (hok : ∀ a, r = .ok a → Q a s) (herror : ∀ e, r = .error e → E e s) :
    M.Ensures env s (Program.ofExcept r) Q E := by
  cases r with
  | ok a => exact pure (hok a rfl)
  | error e => exact throw (herror e rfl)

theorem handle {p : Program S ε α} {f : Except ε α → Program S ε' β} (hp : M.Ensures env s p Q E)
    (hok : ∀ a s', Q a s' → M.Ensures env s' (f (.ok a)) Q' E')
    (herror : ∀ e s', E e s' → M.Ensures env s' (f (.error e)) Q' E') :
    M.Ensures env s (p.handle f) Q' E' := by
  intro tr out hrun
  obtain ⟨outcome, first, second, rfl, hfirst, hsecond⟩ := Program.runs_handle_iff.1 hrun
  obtain ⟨hsafe, hmid⟩ := hp first outcome hfirst
  cases outcome with
  | ok a =>
      obtain ⟨hsafe', hpost⟩ := hok a _ hmid second out hsecond
      exact ⟨Monitor.safe_append.2 ⟨hsafe, hsafe'⟩, by rwa [Monitor.after_append]⟩
  | error e =>
      obtain ⟨hsafe', hpost⟩ := herror e _ hmid second out hsecond
      exact ⟨Monitor.safe_append.2 ⟨hsafe, hsafe'⟩, by rwa [Monitor.after_append]⟩

theorem bind {p : Program S ε α} {f : α → Program S ε β} {F : ε → M.State → Prop}
    (hp : M.Ensures env s p Q F) (hf : ∀ a s', Q a s' → M.Ensures env s' (f a) Q' E)
    (herror : ∀ e s', F e s' → E e s') : M.Ensures env s (p >>= f) Q' E :=
  handle hp hf fun e s' h => throw (herror e s' h)

/-- An operation and what follows it. -/
theorem perform {o : S.Op} {f : S.Answer o → Program S ε β}
    (h : ∀ answer, env o answer →
      M.accepts s ⟨o, answer⟩ ∧ M.Ensures env (M.next s ⟨o, answer⟩) (f answer) Q' E) :
    M.Ensures env s (Program.perform o >>= f) Q' E := by
  intro tr out hrun
  obtain ⟨answer, rest, rfl, henv, hrest⟩ := Program.runs_perform_bind_iff.1 hrun
  obtain ⟨haccepts, hsafe⟩ := h answer henv
  obtain ⟨hsafe, hpost⟩ := hsafe rest out hrest
  exact ⟨⟨haccepts, hsafe⟩, hpost⟩

/-- A program whose failure is looked at. -/
theorem attempt {p : Program S ε α} {f : Except ε α → Program S ε' β} (hp : M.Ensures env s p Q E)
    (hok : ∀ a s', Q a s' → M.Ensures env s' (f (.ok a)) Q' E')
    (herror : ∀ e s', E e s' → M.Ensures env s' (f (.error e)) Q' E') :
    M.Ensures env s (p.attempt >>= f) Q' E' := by
  refine bind (Q := fun outcome s' => match outcome with | .ok a => Q a s' | .error e => E e s')
    (handle hp (fun a s' h => pure h) (fun e s' h => pure h)) (fun outcome s' h => ?_)
    (F := fun _ _ => False) (fun _ _ h => h.elim)
  cases outcome with
  | ok a => exact hok a s' h
  | error e => exact herror e s' h

theorem mapError {p : Program S ε α} {g : ε → ε'} (hp : M.Ensures env s p Q fun e => E' (g e)) :
    M.Ensures env s (p.mapError g) Q E' :=
  handle hp (fun _ _ h => pure h) (fun _ _ h => throw h)

theorem mono {p : Program S ε α} {Q₀ : α → M.State → Prop} {F : ε → M.State → Prop}
    (hp : M.Ensures env s p Q₀ F) (hQ : ∀ a s', Q₀ a s' → Q a s') (hE : ∀ e s', F e s' → E e s') :
    M.Ensures env s p Q E := by
  intro tr out hrun
  obtain ⟨hsafe, hpost⟩ := hp tr out hrun
  refine ⟨hsafe, ?_⟩
  cases out with
  | ok a => exact hQ a _ hpost
  | error e => exact hE e _ hpost

/-- A program whose operations the monitor accepts and does not record. -/
theorem quiet {P : S.Op → Prop} {p : Program S ε α} (h : p.Only P)
    (hsteps : ∀ step, P step.op → M.accepts s step ∧ M.next s step = s) :
    M.Ensures env s p (fun _ s' => s' = s) fun _ s' => s' = s := by
  intro tr out hrun
  obtain ⟨hsafe, hafter⟩ := Monitor.safe_of_quiet hsteps (hrun.only h)
  refine ⟨hsafe, ?_⟩
  cases out with
  | ok a => exact hafter
  | error e => exact hafter

end Monitor.Ensures

/-- From the state `s` every run of `p` is safe. -/
def Monitor.Keeps {S : Signature} (M : Monitor S) (env : Environment S) {ε α : Type} (s : M.State)
    (p : Program S ε α) : Prop :=
  M.Ensures env s p (fun _ _ => True) fun _ _ => True

namespace Monitor.Keeps

variable {S : Signature} {M : Monitor S} {env : Environment S} {ε ε' α β : Type} {s : M.State}

theorem pure {a : α} : M.Keeps env s (.pure a : Program S ε α) := Ensures.pure trivial

theorem throw {e : ε} : M.Keeps env s (.throw e : Program S ε α) := Ensures.throw trivial

theorem perform {o : S.Op} {f : S.Answer o → Program S ε α}
    (h : ∀ answer, M.accepts s ⟨o, answer⟩ ∧ M.Keeps env (M.next s ⟨o, answer⟩) (f answer)) :
    M.Keeps env s (Program.perform o >>= f) :=
  Ensures.perform fun answer _ => h answer

theorem ofExcept_bind {r : Except ε α} {f : α → Program S ε β} (h : ∀ a, M.Keeps env s (f a)) :
    M.Keeps env s (Program.ofExcept r >>= f) := by
  cases r with
  | ok a => exact h a
  | error e => exact throw

/-- A program and what follows it, when what follows is safe from any state. -/
theorem bind {p : Program S ε α} {f : α → Program S ε β} (hp : M.Keeps env s p)
    (hf : ∀ a s', M.Keeps env s' (f a)) : M.Keeps env s (p >>= f) :=
  Ensures.bind hp (fun a s' _ => hf a s') fun _ _ _ => trivial

theorem mapError {p : Program S ε α} {g : ε → ε'} (hp : M.Keeps env s p) :
    M.Keeps env s (p.mapError g) :=
  Ensures.mapError hp

end Monitor.Keeps

/-- A handler that keeps the state of a monitor and answers as the environment and the monitor allow
    makes a run that the monitor accepts. -/
theorem Monitor.exec_safe {S : Signature} {M : Monitor S} {env : Environment S} {ε α : Type}
    {handler : (o : S.Op) → M.State → S.Answer o × M.State}
    (henv : ∀ o s, env o (handler o s).1) (haccepts : ∀ o s, M.accepts s ⟨o, (handler o s).1⟩)
    (hnext : ∀ o s, (handler o s).2 = M.next s ⟨o, (handler o s).1⟩) (p : Program S ε α)
    (s : M.State) :
    p.Runs env (p.exec handler s).2.1 (p.exec handler s).1 ∧ M.Safe s (p.exec handler s).2.1
      ∧ M.after s (p.exec handler s).2.1 = (p.exec handler s).2.2 := by
  induction p generalizing s with
  | pure a => exact ⟨.pure a, trivial, rfl⟩
  | throw e => exact ⟨.throw e, trivial, rfl⟩
  | op o k ih =>
      obtain ⟨hrun, hsafe, hafter⟩ := ih (handler o s).1 (handler o s).2
      refine ⟨.op (henv o s) hrun, ⟨haccepts o s, ?_⟩, ?_⟩
      · rw [← hnext o s]
        exact hsafe
      · exact (congrArg (M.after · ((k (handler o s).1).exec handler (handler o s).2).2.1)
          (hnext o s).symm).trans hafter

/-! ## Runs under an assumption -/

/-- From the state `s` every run of `p` that the monitor accepts ends in `Q` of its outcome. -/
def Monitor.Guarantees {S : Signature} (M : Monitor S) (env : Environment S) {ε α : Type}
    (s : M.State) (p : Program S ε α) (Q : Except ε α → M.State → Prop) : Prop :=
  ∀ tr out, p.Runs env tr out → M.Safe s tr → Q out (M.after s tr)

namespace Monitor.Guarantees

variable {S : Signature} {M : Monitor S} {env : Environment S} {ε ε' α β : Type} {s : M.State}
  {Q : Except ε α → M.State → Prop} {Q' : Except ε' β → M.State → Prop}

theorem pure {a : α} (h : Q (.ok a) s) : M.Guarantees env s (.pure a) Q := by
  intro tr out hrun _
  obtain ⟨rfl, rfl⟩ := Program.runs_pure_iff.1 hrun
  exact h

theorem throw {e : ε} (h : Q (.error e) s) : M.Guarantees env s (.throw e) Q := by
  intro tr out hrun _
  obtain ⟨rfl, rfl⟩ := Program.runs_throw_iff.1 hrun
  exact h

theorem mono {p : Program S ε α} {F : Except ε α → M.State → Prop} (hp : M.Guarantees env s p F)
    (hQ : ∀ out s', F out s' → Q out s') : M.Guarantees env s p Q :=
  fun tr out hrun hsafe => hQ out _ (hp tr out hrun hsafe)

theorem and {p : Program S ε α} {F : Except ε α → M.State → Prop} (hp : M.Guarantees env s p F)
    (hp' : M.Guarantees env s p Q) : M.Guarantees env s p fun out s' => F out s' ∧ Q out s' :=
  fun tr out hrun hsafe => ⟨hp tr out hrun hsafe, hp' tr out hrun hsafe⟩

theorem handle {p : Program S ε α} {f : Except ε α → Program S ε' β} (hp : M.Guarantees env s p Q)
    (hf : ∀ outcome s', Q outcome s' → M.Guarantees env s' (f outcome) Q') :
    M.Guarantees env s (p.handle f) Q' := by
  intro tr out hrun hsafe
  obtain ⟨outcome, first, second, rfl, hfirst, hsecond⟩ := Program.runs_handle_iff.1 hrun
  obtain ⟨hsafe₁, hsafe₂⟩ := Monitor.safe_append.1 hsafe
  rw [Monitor.after_append]
  exact hf outcome _ (hp first outcome hfirst hsafe₁) second out hsecond hsafe₂

theorem bind {p : Program S ε α} {f : α → Program S ε β} {Q' : Except ε β → M.State → Prop}
    (hp : M.Guarantees env s p Q) (hf : ∀ a s', Q (.ok a) s' → M.Guarantees env s' (f a) Q')
    (herror : ∀ e s', Q (.error e) s' → Q' (.error e) s') : M.Guarantees env s (p >>= f) Q' := by
  refine handle hp fun outcome s' h => ?_
  cases outcome with
  | ok a => exact hf a s' h
  | error e => exact throw (herror e s' h)

/-- An operation whose answer the monitor accepts. -/
theorem perform {o : S.Op} {f : S.Answer o → Program S ε α}
    (h : ∀ answer, env o answer → M.accepts s ⟨o, answer⟩ →
      M.Guarantees env (M.next s ⟨o, answer⟩) (f answer) Q) :
    M.Guarantees env s (Program.perform o >>= f) Q := by
  intro tr out hrun hsafe
  obtain ⟨answer, rest, rfl, henv, hrest⟩ := Program.runs_perform_bind_iff.1 hrun
  exact h answer henv hsafe.1 rest out hrest hsafe.2

/-- An operation that can fail, its failure an error of the program. -/
theorem perform_ofExcept {Op E : Type} {Row : Op → Type} {M : Monitor ⟨Op, fun o => Except E (Row o)⟩}
    {env : Environment ⟨Op, fun o => Except E (Row o)⟩} {s : M.State} {o : Op} {g : E → ε}
    {f : Row o → Program ⟨Op, fun o => Except E (Row o)⟩ ε α} {Q : Except ε α → M.State → Prop}
    (herror : ∀ e, M.accepts s ⟨o, .error e⟩ → Q (.error (g e)) (M.next s ⟨o, .error e⟩))
    (hf : ∀ row, M.accepts s ⟨o, .ok row⟩ → M.Guarantees env (M.next s ⟨o, .ok row⟩) (f row) Q) :
    M.Guarantees env s ((Program.perform o >>= fun answer => .ofExcept (answer.mapError g)) >>= f) Q := by
  rw [Program.bind_assoc]
  refine perform fun answer _ haccepts => ?_
  cases answer with
  | error e => exact throw (herror e haccepts)
  | ok row => exact hf row haccepts

theorem attempt {p : Program S ε α} {f : Except ε α → Program S ε' β}
    (hp : M.Guarantees env s p Q)
    (hf : ∀ outcome s', Q outcome s' → M.Guarantees env s' (f outcome) Q') :
    M.Guarantees env s (p.attempt >>= f) Q' := by
  refine bind (Q := fun outcome s' => ∃ result, outcome = .ok result ∧ Q result s')
    (handle hp fun outcome s' h => pure ⟨outcome, rfl, h⟩) (fun outcome s' h => ?_) fun e s' h => ?_
  · obtain ⟨result, hresult, hQ⟩ := h
    cases hresult
    exact hf outcome s' hQ
  · obtain ⟨result, hresult, -⟩ := h
    cases hresult

theorem mapError {p : Program S ε α} {g : ε → ε'} {Q' : Except ε' α → M.State → Prop}
    (hp : M.Guarantees env s p fun outcome => Q' (outcome.mapError g)) :
    M.Guarantees env s (p.mapError g) Q' := by
  refine handle hp fun outcome s' h => ?_
  cases outcome with
  | ok a => exact pure h
  | error e => exact throw h

/-- A program whose operations the monitor does not record. -/
theorem quiet {P : S.Op → Prop} {p : Program S ε α} (h : p.Only P)
    (hnext : ∀ step, P step.op → M.next s step = s) :
    M.Guarantees env s p fun _ s' => s' = s := by
  intro tr out hrun hsafe
  have hsteps := hrun.only h
  clear hrun hsafe
  induction tr with
  | nil => rfl
  | cons step rest ih =>
      rw [Monitor.after_cons, hnext step (hsteps step List.mem_cons_self)]
      exact ih fun step hstep => hsteps step (List.mem_cons_of_mem _ hstep)

/-- A program each of whose operations relates the state before it to the one after it. -/
theorem related {P : S.Op → Prop} {p : Program S ε α} (h : p.Only P) {R : M.State → M.State → Prop}
    (hrefl : ∀ s, R s s) (htrans : ∀ {s₁ s₂ s₃}, R s₁ s₂ → R s₂ s₃ → R s₁ s₃)
    (hstep : ∀ s step, P step.op → M.accepts s step → R s (M.next s step)) :
    M.Guarantees env s p fun _ s' => R s s' := by
  intro tr out hrun hsafe
  have hsteps := hrun.only h
  clear hrun
  induction tr generalizing s with
  | nil => exact hrefl s
  | cons step rest ih =>
      have hfirst := hstep s step (hsteps step List.mem_cons_self) hsafe.1
      exact htrans hfirst (ih hsafe.2 fun step hstep => hsteps step (List.mem_cons_of_mem _ hstep))

/-- What computes without an operation. -/
theorem ofExcept_bind {r : Except ε α} {f : α → Program S ε β} {Q' : Except ε β → M.State → Prop}
    (herror : ∀ e, r = .error e → Q' (.error e) s)
    (hok : ∀ a, r = .ok a → M.Guarantees env s (f a) Q') :
    M.Guarantees env s (Program.ofExcept r >>= f) Q' := by
  cases r with
  | ok a => exact hok a rfl
  | error e => exact throw (herror e rfl)

end Monitor.Guarantees

/-- The monitor that keeps the same state and accepts other steps. -/
abbrev Monitor.accepting {S : Signature} (M : Monitor S) (accepts : M.State → Step S → Prop) :
    Monitor S :=
  { M with accepts := accepts }

/-- What holds at the end of every run holds at the end of those that another monitor accepts. -/
theorem Monitor.Ensures.assuming {S : Signature} {M : Monitor S} {env : Environment S} {ε α : Type}
    {s : M.State} {p : Program S ε α} {Q : α → M.State → Prop} {E : ε → M.State → Prop}
    (h : M.Ensures env s p Q E) (accepts : M.State → Step S → Prop) :
    (M.accepting accepts).Guarantees env s p fun out s' => match out with
      | .ok a => Q a s'
      | .error e => E e s' :=
  fun tr out hrun _ => (h tr out hrun).2

/-- The monitor that keeps the steps as well. -/
abbrev Monitor.recording {S : Signature} (M : Monitor S) : Monitor S where
  State := M.State × List (Step S)
  next s step := (M.next s.1 step, s.2 ++ [step])
  accepts s step := M.accepts s.1 step

section Recording

variable {S : Signature} {M : Monitor S} {s : M.State}

theorem Monitor.after_recording (before tr : List (Step S)) :
    M.recording.after (s, before) tr = (M.after s tr, before ++ tr) := by
  induction tr generalizing s before with
  | nil => simp
  | cons step rest ih => simp [ih]

theorem Monitor.safe_recording {before tr : List (Step S)} :
    M.recording.Safe (s, before) tr ↔ M.Safe s tr := by
  induction tr generalizing s before with
  | nil => exact Iff.rfl
  | cons step rest ih => exact and_congr_right fun _ => ih

/-- What the steps were is known at the end of a run. -/
theorem Monitor.Guarantees.recorded {env : Environment S} {ε α : Type} {p : Program S ε α}
    {Q : Except ε α → M.State × List (Step S) → Prop} (h : M.recording.Guarantees env (s, []) p Q)
    {tr : List (Step S)} {out : Except ε α} (hrun : p.Runs env tr out) (hsafe : M.Safe s tr) :
    Q out (M.after s tr, tr) := by
  have hend := h tr out hrun (Monitor.safe_recording.2 hsafe)
  rwa [Monitor.after_recording, List.nil_append] at hend

end Recording

/-! ## Possible runs -/

/-- From the state `s` some run of `p` is rejected, or ends in `Q` of its outcome. -/
def Monitor.May {S : Signature} (M : Monitor S) (env : Environment S) {ε α : Type} (s : M.State)
    (p : Program S ε α) (Q : Except ε α → M.State → Prop) : Prop :=
  ∃ tr out, p.Runs env tr out ∧ (¬ M.Safe s tr ∨ Q out (M.after s tr))

/-- Where every operation has an answer, every program has a run. -/
theorem Program.exists_runs {S : Signature} {env : Environment S} (htotal : ∀ o, ∃ answer, env o answer)
    {ε α : Type} (p : Program S ε α) : ∃ tr out, p.Runs env tr out := by
  induction p with
  | pure a => exact ⟨[], .ok a, .pure a⟩
  | throw e => exact ⟨[], .error e, .throw e⟩
  | op o k ih =>
      obtain ⟨answer, henv⟩ := htotal o
      obtain ⟨tr, out, hrun⟩ := ih answer
      exact ⟨_, out, .op henv hrun⟩

namespace Monitor.May

variable {S : Signature} {M : Monitor S} {env : Environment S} {ε ε' α β : Type} {s : M.State}
  {Q : Except ε α → M.State → Prop} {Q' : Except ε' β → M.State → Prop}

theorem pure {a : α} (h : Q (.ok a) s) : M.May env s (.pure a) Q := ⟨[], _, .pure a, .inr h⟩

theorem throw {e : ε} (h : Q (.error e) s) : M.May env s (.throw e) Q := ⟨[], _, .throw e, .inr h⟩

theorem mono {Q₀ : Except ε α → M.State → Prop} {p : Program S ε α} (h : M.May env s p Q₀)
    (hQ : ∀ out s', Q₀ out s' → Q out s') : M.May env s p Q := by
  obtain ⟨tr, out, hrun, hbad | hout⟩ := h
  · exact ⟨tr, out, hrun, .inl hbad⟩
  · exact ⟨tr, out, hrun, .inr (hQ _ _ hout)⟩

/-- An operation that gets this answer. -/
theorem perform {o : S.Op} {f : S.Answer o → Program S ε α} (answer : S.Answer o)
    (henv : env o answer) (h : M.May env (M.next s ⟨o, answer⟩) (f answer) Q) :
    M.May env s (Program.perform o >>= f) Q := by
  obtain ⟨tr, out, hrun, hend⟩ := h
  refine ⟨⟨o, answer⟩ :: tr, out, .perform henv hrun, ?_⟩
  rcases hend with hbad | hout
  · exact .inl fun hsafe => hbad hsafe.2
  · exact .inr hout

section Total

variable (htotal : ∀ o, ∃ answer, env o answer)

include htotal

/-- An operation that is not accepted. -/
theorem reject {o : S.Op} {f : S.Answer o → Program S ε α}
    (h : ∀ answer, ¬ M.accepts s ⟨o, answer⟩) : M.May env s (Program.perform o >>= f) Q := by
  obtain ⟨answer, henv⟩ := htotal o
  obtain ⟨tr, out, hrun⟩ := Program.exists_runs htotal (f answer)
  exact ⟨⟨o, answer⟩ :: tr, out, .perform henv hrun, .inl fun hsafe => h answer hsafe.1⟩

theorem handle {p : Program S ε α} {f : Except ε α → Program S ε' β}
    (h : M.May env s p fun outcome s' => M.May env s' (f outcome) Q') :
    M.May env s (p.handle f) Q' := by
  obtain ⟨first, outcome, hfirst, hbad | ⟨second, out, hsecond, hend⟩⟩ := h
  · obtain ⟨second, out, hsecond⟩ := Program.exists_runs htotal (f outcome)
    refine ⟨first ++ second, out, Program.runs_handle_iff.2 ⟨outcome, first, second, rfl, hfirst,
      hsecond⟩, .inl fun hsafe => hbad (Monitor.safe_append.1 hsafe).1⟩
  · refine ⟨first ++ second, out, Program.runs_handle_iff.2 ⟨outcome, first, second, rfl, hfirst,
      hsecond⟩, ?_⟩
    rcases hend with hbad | hout
    · exact .inl fun hsafe => hbad (Monitor.safe_append.1 hsafe).2
    · exact .inr (by rwa [Monitor.after_append])

theorem bind {p : Program S ε α} {f : α → Program S ε β} {Q' : Except ε β → M.State → Prop}
    (h : M.May env s p fun outcome s' => match outcome with
      | .ok a => M.May env s' (f a) Q'
      | .error e => Q' (.error e) s') : M.May env s (p >>= f) Q' := by
  refine handle htotal (h.mono fun outcome s' ho => ?_)
  cases outcome with
  | ok a => exact ho
  | error e => exact throw ho

theorem attempt {p : Program S ε α} {f : Except ε α → Program S ε' β}
    (h : M.May env s p fun outcome s' => M.May env s' (f outcome) Q') :
    M.May env s (p.attempt >>= f) Q' :=
  bind htotal (handle htotal (h.mono fun _ _ ho => pure ho))

theorem mapError {p : Program S ε α} {g : ε → ε'} {Q' : Except ε' α → M.State → Prop}
    (h : M.May env s p fun outcome s' => Q' (outcome.mapError g) s') :
    M.May env s (p.mapError g) Q' := by
  refine handle htotal (h.mono fun outcome s' ho => ?_)
  cases outcome with
  | ok a => exact pure ho
  | error e => exact throw ho

end Total

end Monitor.May

/-! ## Accepted runs that exist -/

/-- From the state `s` some run of `p` is accepted and ends in `Q` of its outcome. -/
def Monitor.Can {S : Signature} (M : Monitor S) (env : Environment S) {ε α : Type} (s : M.State)
    (p : Program S ε α) (Q : Except ε α → M.State → Prop) : Prop :=
  ∃ tr out, p.Runs env tr out ∧ M.Safe s tr ∧ Q out (M.after s tr)

namespace Monitor.Can

variable {S : Signature} {M : Monitor S} {env : Environment S} {ε ε' α β : Type} {s : M.State}
  {Q : Except ε α → M.State → Prop} {Q' : Except ε' β → M.State → Prop}

theorem pure {a : α} (h : Q (.ok a) s) : M.Can env s (.pure a) Q := ⟨[], _, .pure a, trivial, h⟩

theorem throw {e : ε} (h : Q (.error e) s) : M.Can env s (.throw e) Q := ⟨[], _, .throw e, trivial, h⟩

/-- An operation that gets this answer. -/
theorem perform {o : S.Op} {f : S.Answer o → Program S ε α} (answer : S.Answer o)
    (henv : env o answer) (haccepts : M.accepts s ⟨o, answer⟩)
    (h : M.Can env (M.next s ⟨o, answer⟩) (f answer) Q) :
    M.Can env s (Program.perform o >>= f) Q := by
  obtain ⟨tr, out, hrun, hsafe, hQ⟩ := h
  exact ⟨⟨o, answer⟩ :: tr, out, .perform henv hrun, ⟨haccepts, hsafe⟩, hQ⟩

theorem handle {p : Program S ε α} {f : Except ε α → Program S ε' β}
    (h : M.Can env s p fun outcome s' => M.Can env s' (f outcome) Q') :
    M.Can env s (p.handle f) Q' := by
  obtain ⟨first, outcome, hfirst, hsafe, second, out, hsecond, hsafe', hQ⟩ := h
  exact ⟨first ++ second, out, Program.runs_handle_iff.2 ⟨outcome, first, second, rfl, hfirst, hsecond⟩,
    Monitor.safe_append.2 ⟨hsafe, hsafe'⟩, by rwa [Monitor.after_append]⟩

theorem mono {p : Program S ε α} {F : Except ε α → M.State → Prop} (h : M.Can env s p F)
    (hQ : ∀ out s', F out s' → Q out s') : M.Can env s p Q := by
  obtain ⟨tr, out, hrun, hsafe, hF⟩ := h
  exact ⟨tr, out, hrun, hsafe, hQ _ _ hF⟩

theorem bind {p : Program S ε α} {f : α → Program S ε β} {Q' : Except ε β → M.State → Prop}
    (h : M.Can env s p fun outcome s' => match outcome with
      | .ok a => M.Can env s' (f a) Q'
      | .error e => Q' (.error e) s') : M.Can env s (p >>= f) Q' := by
  refine handle (h.mono fun outcome s' ho => ?_)
  cases outcome with
  | ok a => exact ho
  | error e => exact throw ho

theorem attempt {p : Program S ε α} {f : Except ε α → Program S ε' β}
    (h : M.Can env s p fun outcome s' => M.Can env s' (f outcome) Q') :
    M.Can env s (p.attempt >>= f) Q' :=
  bind (handle (h.mono fun _ _ ho => pure ho))

/-- A program whose operations the monitor accepts and does not record. -/
theorem quiet {P : S.Op → Prop} {p : Program S ε α} (h : p.Only P)
    (hsteps : ∀ step, P step.op → M.accepts s step ∧ M.next s step = s) {tr : List (Step S)}
    {out : Except ε α} (hrun : p.Runs env tr out) (hQ : Q out s) : M.Can env s p Q := by
  obtain ⟨hsafe, hafter⟩ := Monitor.safe_of_quiet hsteps (hrun.only h)
  exact ⟨tr, out, hrun, hsafe, by rwa [hafter]⟩

end Monitor.Can
