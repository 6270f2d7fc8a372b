import Godwit.Lib.Program

set_option autoImplicit false

/-! # Programs that are stopped

`p.Does tr rest` says that `p` has taken the steps `tr` and has `rest` left: a program can be stopped anywhere, and
one that has a value or an error left has ended. What a program ensures, what is left of it ensures
(`Ensures.of_does`). `Monitor.Restarts` is a program that is started over and over in
one world, and stopped anywhere each time; its run lemma asks what one start does. -/

/-- The steps that a program has taken, and what is left of it. -/
inductive Program.Does {S : Signature} {ε α : Type} : Program S ε α → List (Step S) → Program S ε α → Prop
  | stop (p : Program S ε α) : Does p [] p
  | op {o : S.Op} {k : S.Answer o → Program S ε α} {answer : S.Answer o} {tr : List (Step S)}
      {rest : Program S ε α} (h : Does (k answer) tr rest) : Does (.op o k) (⟨o, answer⟩ :: tr) rest

namespace Program

variable {S : Signature} {ε α β : Type} {tr : List (Step S)}

theorem Does.of_pure {a : α} {rest : Program S ε α} (h : Does (.pure a) tr rest) : tr = [] ∧ rest = .pure a := by
  cases h
  exact ⟨rfl, rfl⟩

theorem Does.of_throw {e : ε} {rest : Program S ε α} (h : Does (.throw e) tr rest) :
    tr = [] ∧ rest = .throw e := by
  cases h
  exact ⟨rfl, rfl⟩

/-- An operation is not performed, or has an answer and what follows it goes on. -/
theorem Does.of_perform {o : S.Op} {f : S.Answer o → Program S ε β} {rest : Program S ε β}
    (h : Does (perform o >>= f) tr rest) :
    (tr = [] ∧ rest = perform o >>= f)
      ∨ ∃ answer later, tr = ⟨o, answer⟩ :: later ∧ Does (f answer) later rest := by
  cases h with
  | stop => exact .inl ⟨rfl, rfl⟩
  | op h => exact .inr ⟨_, _, rfl, h⟩

/-- A result is looked at: an error is what is left. -/
theorem Does.of_ofExcept {r : Except ε α} {f : α → Program S ε β} {rest : Program S ε β}
    (h : Does (ofExcept r >>= f) tr rest) :
    (∃ e, r = .error e ∧ tr = [] ∧ rest = .throw e) ∨ ∃ a, r = .ok a ∧ Does (f a) tr rest := by
  cases r with
  | error e => exact .inl ⟨e, rfl, h.of_throw⟩
  | ok a => exact .inr ⟨a, rfl, h⟩

/-- A sequence is stopped in its first part, or goes on after it. -/
theorem Does.of_bind {p : Program S ε α} {f : α → Program S ε β} {rest : Program S ε β}
    (h : Does (p >>= f) tr rest) :
    (∃ left, Does p tr left ∧ rest = left >>= f)
      ∨ ∃ a first second, tr = first ++ second ∧ Does p first (.pure a) ∧ Does (f a) second rest := by
  induction p generalizing tr with
  | pure a => exact .inr ⟨a, [], tr, rfl, .stop _, h⟩
  | throw e =>
      obtain ⟨rfl, rfl⟩ := Does.of_throw h
      exact .inl ⟨_, .stop _, rfl⟩
  | op o k ih =>
      rcases @Does.of_perform _ _ _ _ o (fun answer => k answer >>= f) _ h with
        ⟨rfl, rfl⟩ | ⟨answer, later, rfl, hlater⟩
      · exact .inl ⟨_, .stop _, rfl⟩
      · rcases ih answer hlater with ⟨left, hleft, rfl⟩ | ⟨a, first, second, rfl, hfirst, hsecond⟩
        · exact .inl ⟨left, .op hleft, rfl⟩
        · exact .inr ⟨a, _ :: first, second, rfl, .op hfirst, hsecond⟩

/-- What is left of a program goes on with its run. -/
theorem Does.runs {env : Environment S} {p rest : Program S ε α} {later : List (Step S)} {out : Except ε α}
    (h : p.Does tr rest) (henv : ∀ step ∈ tr, env step.op step.answer) (hrest : rest.Runs env later out) :
    p.Runs env (tr ++ later) out := by
  induction h with
  | stop p => exact hrest
  | op h ih =>
      obtain ⟨hanswer, henv⟩ := List.forall_mem_cons.1 henv
      exact .op hanswer (ih henv hrest)

/-- The next operation is performed. -/
theorem Does.next {p : Program S ε α} {o : S.Op} {k : S.Answer o → Program S ε α} (h : p.Does tr (.op o k))
    (answer : S.Answer o) : p.Does (tr ++ [⟨o, answer⟩]) (k answer) := by
  generalize hrest : Program.op o k = rest at h
  induction h with
  | stop p =>
      subst hrest
      exact .op (.stop _)
  | op h ih => exact .op (ih hrest)

end Program

namespace Monitor

/-! ## What is left of a program -/

section Left

variable {S : Signature} {M : Monitor S} {env : Environment S} {ε α : Type} {s : M.State} {Q : α → M.State → Prop}
  {E : ε → M.State → Prop} (htotal : ∀ o, ∃ answer, env o answer)

include htotal

/-- A program that is stopped has taken accepted steps, and what is left of it ensures what the program did. -/
theorem Ensures.of_does {p rest : Program S ε α} {tr : List (Step S)} (h : M.Ensures env s p Q E)
    (hdoes : p.Does tr rest) (henv : ∀ step ∈ tr, env step.op step.answer) :
    M.Safe s tr ∧ M.Ensures env (M.after s tr) rest Q E := by
  constructor
  · obtain ⟨later, out, hrest⟩ := Program.exists_runs htotal rest
    exact (safe_append.1 (h _ _ (hdoes.runs henv hrest)).1).1
  · intro later out hrest
    obtain ⟨hsafe, hpost⟩ := h _ _ (hdoes.runs henv hrest)
    rw [after_append] at hpost
    exact ⟨(safe_append.1 hsafe).2, hpost⟩

/-- The operation that is next is accepted. -/
theorem Ensures.accepts {o : S.Op} {k : S.Answer o → Program S ε α} (h : M.Ensures env s (.op o k) Q E)
    {answer : S.Answer o} (hanswer : env o answer) : M.accepts s ⟨o, answer⟩ := by
  obtain ⟨later, out, hrest⟩ := Program.exists_runs htotal (k answer)
  exact (h _ _ (.op hanswer hrest)).1.1

end Left

/-! ## Starting over -/

variable {S : Signature} {ε α : Type} (M : Monitor S)

/-- The program is started again and again from the state `s` of the world on, and stopped anywhere. -/
def Restarts (p : Program S ε α) : M.State → List (List (Step S)) → Prop
  | _, [] => True
  | s, tr :: starts => ((∃ rest, p.Does tr rest) ∧ M.Safe s tr) ∧ Restarts p (M.after s tr) starts

/-- The world after the starts. -/
def afterStarts (s : M.State) (starts : List (List (Step S))) : M.State := starts.foldl M.after s

variable {M}

/-- An invariant of every start, and a property that a start keeps exactly when it meets a condition: the property
    holds in the end exactly when every start met it. -/
theorem Restarts.kept_iff {p : Program S ε α} {I G : M.State → Prop} {C : List (Step S) → Prop}
    (hstart : ∀ s tr rest, I s → p.Does tr rest → M.Safe s tr →
      I (M.after s tr) ∧ (G (M.after s tr) ↔ G s ∧ C tr))
    {s : M.State} (hs : I s) {starts : List (List (Step S))} (h : M.Restarts p s starts) :
    I (M.afterStarts s starts) ∧ (G (M.afterStarts s starts) ↔ G s ∧ ∀ tr ∈ starts, C tr) := by
  induction starts generalizing s with
  | nil => exact ⟨hs, by simp [afterStarts]⟩
  | cons tr starts ih =>
      obtain ⟨⟨⟨rest, hdoes⟩, hsafe⟩, hlater⟩ := h
      obtain ⟨hinvariant, hkept⟩ := hstart s tr rest hs hdoes hsafe
      obtain ⟨hend, hiff⟩ := ih hinvariant hlater
      refine ⟨hend, hiff.trans ?_⟩
      rw [hkept, List.forall_mem_cons, and_assoc]

end Monitor
