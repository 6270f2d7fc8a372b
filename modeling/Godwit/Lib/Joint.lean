import Mathlib.Logic.Equiv.Defs
import Godwit.Lib.Program

set_option autoImplicit false

/-! # Programs over part of a signature

A program over some of the operations of a signature is a program over all of them. Its runs are its own,
step by step, and a monitor of the larger signature judges them as its restriction does. -/

/-- The operations of `S` among those of `T`. -/
structure Signature.Embedding (S T : Signature) where
  op : S.Op → T.Op
  answer : ∀ o, S.Answer o ≃ T.Answer (op o)

/-- The operations of both. -/
def Signature.sum (S T : Signature) : Signature := ⟨S.Op ⊕ T.Op, Sum.elim S.Answer T.Answer⟩

variable {S T : Signature} {ε α : Type}

namespace Signature.Embedding

/-- The operations of the first component. -/
def left : S.Embedding (S.sum T) := ⟨.inl, fun _ => .refl _⟩

/-- The operations of the second component. -/
def right : T.Embedding (S.sum T) := ⟨.inr, fun _ => .refl _⟩

variable (i : S.Embedding T)

/-- The step of the component as a step of the whole. -/
def step (step : Step S) : Step T := ⟨i.op step.op, i.answer step.op step.answer⟩

/-- What an environment of all operations says about some. -/
def restrict (env : Environment T) : Environment S := fun o answer => env (i.op o) (i.answer o answer)

/-- A monitor of all operations on some. -/
abbrev monitor (M : Monitor T) : Monitor S where
  State := M.State
  next s step := M.next s (i.step step)
  accepts s step := M.accepts s (i.step step)

end Signature.Embedding

/-- The program over all operations. -/
def Program.embed (i : S.Embedding T) : Program S ε α → Program T ε α
  | .pure a => .pure a
  | .throw e => .throw e
  | .op o k => .op (i.op o) fun answer => (k ((i.answer o).symm answer)).embed i

section Embed

variable {i : S.Embedding T} {env : Environment T} {p : Program S ε α}

/-- The runs of an embedded program are its own. -/
theorem Program.runs_embed_iff {tr : List (Step T)} {out : Except ε α} :
    (p.embed i).Runs env tr out ↔ ∃ own, tr = own.map i.step ∧ p.Runs (i.restrict env) own out := by
  induction p generalizing tr with
  | pure a =>
      rw [embed, runs_pure_iff]
      constructor
      · rintro ⟨rfl, rfl⟩
        exact ⟨[], rfl, .pure a⟩
      · rintro ⟨own, rfl, hrun⟩
        obtain ⟨rfl, rfl⟩ := runs_pure_iff.1 hrun
        exact ⟨rfl, rfl⟩
  | throw e =>
      rw [embed, runs_throw_iff]
      constructor
      · rintro ⟨rfl, rfl⟩
        exact ⟨[], rfl, .throw e⟩
      · rintro ⟨own, rfl, hrun⟩
        obtain ⟨rfl, rfl⟩ := runs_throw_iff.1 hrun
        exact ⟨rfl, rfl⟩
  | op o k ih =>
      rw [embed, runs_op_iff]
      constructor
      · rintro ⟨answer, rest, rfl, henv, hrest⟩
        obtain ⟨own, rfl, hrun⟩ := (ih _).1 hrest
        have hanswer := (i.answer o).apply_symm_apply answer
        refine ⟨⟨o, (i.answer o).symm answer⟩ :: own, ?_, .op ?_ hrun⟩
        · rw [List.map_cons, Signature.Embedding.step, hanswer]
        · rwa [Signature.Embedding.restrict, hanswer]
      · rintro ⟨own, rfl, hrun⟩
        obtain ⟨answer, rest, rfl, henv, hrest⟩ := runs_op_iff.1 hrun
        refine ⟨_, rest.map i.step, rfl, henv, (ih _).2 ⟨rest, rfl, ?_⟩⟩
        rwa [Equiv.symm_apply_apply]

theorem Program.Only.embed {P : T.Op → Prop} (h : p.Only fun o => P (i.op o)) : (p.embed i).Only P := by
  induction p with
  | pure a => trivial
  | throw e => trivial
  | op o k ih => exact ⟨h.1, fun answer => ih _ (h.2 _)⟩

variable {M : Monitor T} {s : M.State}

theorem Monitor.after_map_step (tr : List (Step S)) :
    M.after s (tr.map i.step) = (i.monitor M).after s tr := by
  induction tr generalizing s with
  | nil => rfl
  | cons step tr ih => exact ih

theorem Monitor.safe_map_step (tr : List (Step S)) :
    M.Safe s (tr.map i.step) ↔ (i.monitor M).Safe s tr := by
  induction tr generalizing s with
  | nil => exact Iff.rfl
  | cons step tr ih => exact and_congr_right fun _ => ih

theorem Monitor.Guarantees.embed {Q : Except ε α → M.State → Prop}
    (h : (i.monitor M).Guarantees (i.restrict env) s p Q) : M.Guarantees env s (p.embed i) Q := by
  intro tr out hrun hsafe
  obtain ⟨own, rfl, hown⟩ := Program.runs_embed_iff.1 hrun
  rw [Monitor.after_map_step]
  exact h own out hown (Monitor.safe_map_step own |>.1 hsafe)

theorem Monitor.Ensures.embed {Q : α → M.State → Prop} {E : ε → M.State → Prop}
    (h : (i.monitor M).Ensures (i.restrict env) s p Q E) : M.Ensures env s (p.embed i) Q E := by
  intro tr out hrun
  obtain ⟨own, rfl, hown⟩ := Program.runs_embed_iff.1 hrun
  obtain ⟨hsafe, hend⟩ := h own out hown
  rw [Monitor.after_map_step]
  exact ⟨Monitor.safe_map_step own |>.2 hsafe, hend⟩

end Embed
