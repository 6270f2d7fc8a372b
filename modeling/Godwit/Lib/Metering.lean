import Mathlib.Algebra.Order.Monoid.Defs
import Mathlib.Algebra.BigOperators.Group.List.Basic

set_option autoImplicit false

/-! # A limit that is checked before the use is known

Users of a shared meter are admitted while the total is below a limit, and settle what they have used
some time later. The total can exceed the limit by what was in flight at the last admission, and by no
more. -/

/-- A user is let in, or settles an amount. -/
inductive MeterEvent (ι α : Type) where
  | grant (i : ι)
  | settle (i : ι) (amount : α)

namespace MeterEvent

variable {ι α : Type}

/-- The settlements of a history, in order. -/
def settled (events : List (MeterEvent ι α)) : List (ι × α) :=
  events.filterMap fun
    | .settle i amount => some (i, amount)
    | .grant _ => none

@[simp] theorem settled_nil : settled ([] : List (MeterEvent ι α)) = [] := rfl

@[simp] theorem settled_append (first second : List (MeterEvent ι α)) :
    settled (first ++ second) = settled first ++ settled second :=
  List.filterMap_append

@[simp] theorem settled_grant (i : ι) (rest : List (MeterEvent ι α)) :
    settled (.grant i :: rest) = settled rest := rfl

@[simp] theorem settled_settle (i : ι) (amount : α) (rest : List (MeterEvent ι α)) :
    settled (.settle i amount :: rest) = (i, amount) :: settled rest := rfl

theorem mem_settled {i : ι} {amount : α} {events : List (MeterEvent ι α)} :
    (i, amount) ∈ settled events ↔ .settle i amount ∈ events := by
  induction events with
  | nil => simp
  | cons event rest ih =>
      cases event <;> simp [ih]

/-- The user was admitted and has not settled yet. -/
def InFlight (events : List (MeterEvent ι α)) (i : ι) : Prop :=
  .grant i ∈ events ∧ i ∉ (settled events).map Prod.fst

section Total

variable [AddCommMonoid α]

/-- What the meter shows after a history that it began with `start`. -/
def total (start : α) (events : List (MeterEvent ι α)) : α :=
  start + ((settled events).map Prod.snd).sum

@[simp] theorem total_nil (start : α) : total start ([] : List (MeterEvent ι α)) = start := by
  simp [total]

theorem total_append (start : α) (first second : List (MeterEvent ι α)) :
    total start (first ++ second) = total start first + ((settled second).map Prod.snd).sum := by
  simp [total, add_assoc]

end Total

end MeterEvent

open MeterEvent

/-- Users are admitted below the limit only, and each settles once at most, after it was admitted. -/
structure LimitedMeter {ι α : Type} [AddCommMonoid α] [PartialOrder α] (limit start : α)
    (events : List (MeterEvent ι α)) : Prop where
  below : ∀ before i after, events = before ++ .grant i :: after → total start before < limit
  admitted : ∀ before i amount after, events = before ++ .settle i amount :: after → .grant i ∈ before
  once : ((settled events).map Prod.fst).Nodup

/-- Either no element has the property, or there is a last one that does. -/
theorem exists_last {γ : Type} (P : γ → Prop) (l : List γ) :
    (∀ x ∈ l, ¬ P x) ∨ ∃ before x after, l = before ++ x :: after ∧ P x ∧ ∀ y ∈ after, ¬ P y := by
  induction l with
  | nil => exact .inl fun x hx => absurd hx List.not_mem_nil
  | cons head rest ih =>
      rcases ih with hnone | ⟨before, x, after, rfl, hx, hafter⟩
      · by_cases hhead : P head
        · exact .inr ⟨[], head, rest, rfl, hhead, hnone⟩
        · exact .inl (List.forall_mem_cons.2 ⟨hhead, hnone⟩)
      · exact .inr ⟨head :: before, x, after, rfl, hx, hafter⟩

/-- The last admission of a history: whoever settled after it was in flight then. -/
structure LastAdmission {ι α : Type} (events before : List (MeterEvent ι α)) (i : ι)
    (after : List (MeterEvent ι α)) : Prop where
  split : events = before ++ .grant i :: after
  last : ∀ j, .grant j ∉ after
  inFlight : ∀ j ∈ (settled after).map Prod.fst, InFlight (before ++ [.grant i]) j
  distinct : ((settled after).map Prod.fst).Nodup

/-- A metered total stays where it was, or exceeds the limit by less than those settled that were in
    flight at the last admission. -/
theorem LimitedMeter.total_lt {ι α : Type} [AddCommMonoid α] [PartialOrder α] [IsOrderedCancelAddMonoid α]
    {limit start : α} {events : List (MeterEvent ι α)} (h : LimitedMeter limit start events) :
    total start events = start ∨ ∃ before i after, LastAdmission events before i after
      ∧ total start events < limit + ((settled after).map Prod.snd).sum := by
  rcases exists_last (fun event => ∃ i, event = MeterEvent.grant i) events with
    hnone | ⟨before, event, after, rfl, ⟨i, rfl⟩, hlast⟩
  · left
    have hsettled : settled events = [] := by
      refine List.eq_nil_iff_forall_not_mem.2 fun entry hentry => ?_
      obtain ⟨before, after, hsplit⟩ := List.append_of_mem (mem_settled.1 hentry)
      have hadmit := h.admitted before entry.1 entry.2 after hsplit
      exact hnone (.grant entry.1) (by simp [hsplit, hadmit]) ⟨entry.1, rfl⟩
    simp [total, hsettled]
  · right
    have honce := h.once
    rw [settled_append, settled_grant, List.map_append] at honce
    refine ⟨before, i, after, ⟨rfl, fun j hj => hlast _ hj ⟨j, rfl⟩, fun j hj => ?_,
      (List.nodup_append.1 honce).2.1⟩, ?_⟩
    · obtain ⟨⟨user, amount⟩, hentry, rfl⟩ := List.mem_map.1 hj
      obtain ⟨earlier, later, hsplit⟩ := List.append_of_mem (mem_settled.1 hentry)
      have hadmit := h.admitted (before ++ .grant i :: earlier) user amount later (by simp [hsplit])
      refine ⟨?_, fun hbefore => ?_⟩
      · -- the admission is not among the events after the last one
        rcases List.mem_append.1 hadmit with hmem | hmem
        · exact List.mem_append_left _ hmem
        · rcases List.mem_cons.1 hmem with heq | hmem
          · exact List.mem_append_right _ (List.mem_singleton.2 heq)
          · exact absurd ⟨_, rfl⟩ (hlast _ (by rw [hsplit]; exact List.mem_append_left _ hmem))
      · rw [settled_append, settled_grant, settled_nil, List.append_nil] at hbefore
        exact (List.nodup_append.1 honce).2.2 _ hbefore _ hj rfl
    · rw [total_append, settled_grant]
      exact add_lt_add_left (h.below before i after rfl) _
