import Godwit.Lib.Program

set_option autoImplicit false

/-! # Requests one after another

A session is a sequence of requests to one service, each run to its end before the next begins. The
world they share is the state of a monitor that accepts the answers the world can give. -/

/-- A request, the steps it took and how it ended. -/
structure Exchange (S : Signature) (ρ ε α : Type) where
  request : ρ
  steps : List (Step S)
  outcome : Except ε α

namespace Monitor

variable {S : Signature} {ρ ε α : Type} (M : Monitor S)

/-- The exchanges are what the service does from the state `s` of the world on. -/
def Serves (env : Environment S) (serve : ρ → Program S ε α) :
    M.State → List (Exchange S ρ ε α) → Prop
  | _, [] => True
  | s, x :: rest =>
    ((serve x.request).Runs env x.steps x.outcome ∧ M.Safe s x.steps)
      ∧ Serves env serve (M.after s x.steps) rest

/-- Every exchange satisfies `P` between the world before it and the world after it. -/
def Throughout (P : M.State → Exchange S ρ ε α → M.State → Prop) :
    M.State → List (Exchange S ρ ε α) → Prop
  | _, [] => True
  | s, x :: rest => P s x (M.after s x.steps) ∧ Throughout P (M.after s x.steps) rest

/-- The world after the exchanges. -/
def afterAll (s : M.State) (exchanges : List (Exchange S ρ ε α)) : M.State :=
  exchanges.foldl (fun s x => M.after s x.steps) s

variable {M}

/-- A session goes on where another ends. -/
theorem serves_append {env : Environment S} {serve : ρ → Program S ε α} {s : M.State}
    {first second : List (Exchange S ρ ε α)} :
    M.Serves env serve s (first ++ second)
      ↔ M.Serves env serve s first ∧ M.Serves env serve (M.afterAll s first) second := by
  induction first generalizing s with
  | nil => exact ⟨fun h => ⟨trivial, h⟩, And.right⟩
  | cons x rest ih => exact (and_congr_right fun _ => ih).trans and_assoc.symm

/-- What each exchange does where a condition holds is done throughout a session that meets it. -/
theorem Serves.throughout {env : Environment S} {serve : ρ → Program S ε α}
    {C P : M.State → Exchange S ρ ε α → M.State → Prop}
    (hexchange : ∀ s x, (serve x.request).Runs env x.steps x.outcome → M.Safe s x.steps →
      C s x (M.after s x.steps) → P s x (M.after s x.steps))
    {s : M.State} {exchanges : List (Exchange S ρ ε α)} (h : M.Serves env serve s exchanges)
    (hC : M.Throughout C s exchanges) : M.Throughout P s exchanges := by
  induction exchanges generalizing s with
  | nil => exact trivial
  | cons x rest ih =>
      obtain ⟨⟨hrun, hsafe⟩, hrest⟩ := h
      exact ⟨hexchange s x hrun hsafe hC.1, ih hrest hC.2⟩

/-- An invariant that an exchange keeps exactly when it meets a condition holds throughout a session exactly when
    every exchange meets it. -/
theorem Serves.throughout_iff {env : Environment S} {serve : ρ → Program S ε α} {I : M.State → Prop}
    {C : M.State → Exchange S ρ ε α → Prop}
    (hexchange : ∀ s x, I s → (serve x.request).Runs env x.steps x.outcome → M.Safe s x.steps →
      (I (M.after s x.steps) ↔ C s x))
    {s : M.State} (hs : I s) {exchanges : List (Exchange S ρ ε α)} (h : M.Serves env serve s exchanges) :
    M.Throughout (fun _ _ s' => I s') s exchanges ↔ M.Throughout (fun s x _ => C s x) s exchanges := by
  induction exchanges generalizing s with
  | nil => exact Iff.rfl
  | cons x rest ih =>
      obtain ⟨⟨hrun, hsafe⟩, hrest⟩ := h
      have hfirst := hexchange s x hs hrun hsafe
      constructor
      · rintro ⟨hkept, hlater⟩
        exact ⟨hfirst.1 hkept, (ih hkept hrest).1 hlater⟩
      · rintro ⟨hmeets, hlater⟩
        have hkept := hfirst.2 hmeets
        exact ⟨hkept, (ih hkept hrest).2 hlater⟩

theorem Throughout.of_forall {P : M.State → Exchange S ρ ε α → M.State → Prop}
    (h : ∀ s x s', P s x s') (s : M.State) (exchanges : List (Exchange S ρ ε α)) :
    M.Throughout P s exchanges := by
  induction exchanges generalizing s with
  | nil => exact trivial
  | cons x rest ih => exact ⟨h _ _ _, ih _⟩

end Monitor
