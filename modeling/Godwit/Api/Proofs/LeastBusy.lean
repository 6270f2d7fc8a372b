import Godwit.Lib.Balance
import Godwit.Api.Proofs.InFlight

set_option autoImplicit false

/-! # How far `LeastBusy` lets the replicas drift apart

A call selects a row by counts that it read one after the other and counts itself later, so calls that overlap may
all pick the same row. Still the counts of two rows never differ by more than the calls that run at the same time, as
long as no guard goes: the counts are the loads of `Levelled`, and a call aims at the row it would select. -/

namespace Godwit

theorem countP_set_add {α : Type} {p : α → Bool} {l : List α} {t : Nat} {a b : α} (h : l[t]? = some a) :
    (l.set t b).countP p + (if p a then 1 else 0) = l.countP p + if p b then 1 else 0 := by
  obtain ⟨ht, rfl⟩ := List.getElem?_eq_some_iff.1 h
  have hle := List.boole_getElem_le_countP (p := p) ht
  rw [List.countP_set ht]
  omega

namespace BusyWorld

variable {ids : List Uuid} {calls : Nat} {w : BusyWorld}

/-! ## A call that runs alone -/

theorem setResolver_setResolver (w : BusyWorld) (t : Nat) (r r' : Resolver) :
    (w.setResolver t r).setResolver t r' = w.setResolver t r' := by
  simp [setResolver, List.set_set]

theorem resolvers_setResolver {t : Nat} {r : Resolver} (h : w.resolvers[t]? = some r) (r' : Resolver) :
    (w.setResolver t r').resolvers[t]? = some r' := by
  obtain ⟨ht, -⟩ := List.getElem?_eq_some_iff.1 h
  simp [setResolver, ht]

/-- The rest of a loop that nothing interrupts. -/
theorem run_selecting (rest : List Uuid) {t i minIdx : Nat} {minInFlight : BitVec 64}
    (h : w.resolvers[t]? = some (.selecting i minIdx minInFlight)) (hrest : ids.drop i = rest) :
    w.run ids (List.replicate (rest.length + 1) (.advance t))
      = some (w.setResolver t
          ((ids[firstLeast (fun id => (w.lb id).inFlight) rest i minIdx minInFlight]?).elim .done .selected)) := by
  induction rest generalizing w i minIdx minInFlight with
  | nil =>
      have hend : ids[i]? = none := List.getElem?_eq_none (List.drop_eq_nil_iff.1 hrest)
      simp [run, step, advance, h, hend, firstLeast]
  | cons id rest ih =>
      have hid : ids[i]? = some id := by
        rw [← List.head?_drop, hrest]
        rfl
      have hnext : ids.drop (i + 1) = rest := by
        rw [← List.tail_drop, hrest]
        rfl
      rw [List.length_cons, List.replicate_succ, run]
      simp only [step, advance, h, hid]
      by_cases hless : (w.lb id).inFlight < minInFlight
      · rw [if_pos hless, Option.bind_some, ih (resolvers_setResolver h _) hnext, setResolver_setResolver,
          firstLeast, if_pos hless]
        rfl
      · rw [if_neg hless, Option.bind_some, ih (resolvers_setResolver h _) hnext, setResolver_setResolver,
          firstLeast, if_neg hless]
        rfl

/-- It selects what `select_provider` does. -/
theorem run_selectProvider {t : Nat} (hids : ids ≠ [])
    (h : w.resolvers[t]? = some (.selecting 0 0 (BitVec.allOnes 64))) :
    w.run ids (List.replicate (ids.length + 1) (.advance t))
      = some (w.setResolver t
          (((w.lb.selectProvider .leastBusy ids).1.bind (ids[·]?)).elim .done .selected)) := by
  obtain ⟨first, rest, rfl⟩ := List.exists_cons_of_ne_nil hids
  exact run_selecting _ h rfl

/-! ## Loads and aims -/

/-- The count of a row. -/
def load (w : BusyWorld) (id : Uuid) : Nat := (w.lb.inFlightOf id).toNat

end BusyWorld

/-- The call would count itself on the row, which it saw at the level or below it. -/
def Resolver.aimsAt (ids : List Uuid) (id : Uuid) (level : Nat) : Resolver → Bool
  | .selecting i minIdx minInFlight => 0 < i ∧ ids[minIdx]? = some id ∧ minInFlight.toNat ≤ level
  | .selected modelId => modelId = id
  | .guarded _ => false
  | .done => false

/-- What the loop has seen: no count so far is below the least one. -/
def Resolver.Seen (ids : List Uuid) (load : Uuid → Nat) : Resolver → Prop
  | .selecting i _ minInFlight => (i = 0 → minInFlight = BitVec.allOnes 64)
      ∧ ∀ k < i, ∀ id, ids[k]? = some id → minInFlight.toNat ≤ load id
  | _ => True

theorem Resolver.Seen.mono {ids : List Uuid} {load load' : Uuid → Nat} {r : Resolver} (h : r.Seen ids load)
    (hload : ∀ id, load id ≤ load' id) : r.Seen ids load' := by
  cases r with
  | selecting i minIdx minInFlight => exact ⟨h.1, fun k hk id hid => (h.2 k hk id hid).trans (hload id)⟩
  | selected modelId => trivial
  | guarded modelId => trivial
  | done => trivial

namespace BusyWorld

variable {ids : List Uuid} {calls : Nat} {w : BusyWorld}

/-- How many calls are about to pick the row at this level. -/
def aims (ids : List Uuid) (w : BusyWorld) (id : Uuid) (level : Nat) : Nat :=
  w.resolvers.countP (Resolver.aimsAt ids id level)

theorem aims_le_inProgress (w : BusyWorld) (id : Uuid) (level : Nat) : w.aims ids id level ≤ w.inProgress :=
  List.countP_mono_left fun r _ haims => by
    cases r with
    | selecting i minIdx minInFlight => rfl
    | selected modelId => rfl
    | guarded modelId => cases haims
    | done => cases haims

theorem aims_setResolver {t : Nat} {r : Resolver} (h : w.resolvers[t]? = some r) (r' : Resolver) (id : Uuid)
    (level : Nat) :
    (w.setResolver t r').aims ids id level + (if r.aimsAt ids id level then 1 else 0)
      = w.aims ids id level + if r'.aimsAt ids id level then 1 else 0 :=
  countP_set_add h

/-- A step to where the call aims at no new row. -/
theorem aims_setResolver_le {t : Nat} {r r' : Resolver} (h : w.resolvers[t]? = some r) {id : Uuid} {level : Nat}
    (haims : r'.aimsAt ids id level = true → r.aimsAt ids id level = true) :
    (w.setResolver t r').aims ids id level ≤ w.aims ids id level := by
  have hcount : _ = w.aims ids id level + _ := aims_setResolver h r' id level
  by_cases hr' : r'.aimsAt ids id level = true
  · rw [if_pos hr', if_pos (haims hr')] at hcount
    omega
  · rw [if_neg hr'] at hcount
    omega

/-! ## The invariant -/

/-- The loads are those of the guards, and the calls that saw them differ by little. -/
structure Sound (ids : List Uuid) (calls : Nat) (w : BusyWorld) : Prop where
  counted : ∀ id, w.load id = w.resolvers.count (.guarded id) ∧ w.resolvers.count (.guarded id) ≤ maxRefcount
  seen : ∀ r ∈ w.resolvers, r.Seen ids w.load
  levelled : Levelled ids calls w.load (w.aims ids)

theorem new_sound (ids : List Uuid) (calls : Nat) : Sound ids calls .new where
  counted _ := ⟨rfl, Nat.zero_le _⟩
  seen _ hr := absurd hr List.not_mem_nil
  levelled := .start fun _ _ _ _ => Nat.zero_le _

theorem count_setResolver {t : Nat} {r r' : Resolver} (h : w.resolvers[t]? = some r) {id : Uuid}
    (hr : r ≠ .guarded id) (hr' : r' ≠ .guarded id) :
    (w.setResolver t r').resolvers.count (.guarded id) = w.resolvers.count (.guarded id) := by
  have hcount := countP_set_add (p := (· == Resolver.guarded id)) (b := r') h
  simpa [hr, hr', List.count, setResolver] using hcount

/-- A step that leaves the counts alone. -/
theorem Sound.setResolver (h : Sound ids calls w) {t : Nat} {r r' : Resolver} (ht : w.resolvers[t]? = some r)
    (hr : ∀ id, r ≠ .guarded id) (hr' : ∀ id, r' ≠ .guarded id) (hseen : r'.Seen ids w.load)
    (hlevelled : Levelled ids calls w.load ((w.setResolver t r').aims ids)) :
    Sound ids calls (w.setResolver t r') where
  counted id := by
    rw [count_setResolver ht (hr id) (hr' id)]
    exact h.counted id
  seen s hs := by
    rcases List.mem_or_eq_of_mem_set hs with hs | rfl
    · exact h.seen s hs
    · exact hseen
  levelled := hlevelled

/-- A count is far from its bound. -/
theorem Sound.load_lt (h : Sound ids calls w) (id : Uuid) : w.load id < (BitVec.allOnes 64).toNat := by
  obtain ⟨hload, hbound⟩ := h.counted id
  rw [hload]
  exact hbound.trans_lt (by decide)

section Advance

variable {t : Nat}

/-- A look at the next count. -/
theorem Sound.look (h : Sound ids calls w) {i minIdx : Nat} {minInFlight : BitVec 64} {id : Uuid}
    (ht : w.resolvers[t]? = some (.selecting i minIdx minInFlight)) (hid : ids[i]? = some id) {w' : BusyWorld}
    (hcalls : w'.inProgress ≤ calls) (hstep : w.advance ids t = some w') : Sound ids calls w' := by
  simp only [advance, ht, hid] at hstep
  obtain ⟨hzero, hseen⟩ := h.seen _ (List.mem_of_getElem? ht)
  by_cases hless : (w.lb id).inFlight < minInFlight
  · rw [if_pos hless, Option.some.injEq] at hstep
    subst hstep
    refine h.setResolver ht nofun nofun ⟨nofun, fun k hk other hother => ?_⟩ ?_
    · rcases Nat.lt_succ_iff_lt_or_eq.1 hk with hk | rfl
      · exact (BitVec.le_of_lt hless).trans (hseen k hk other hother)
      · rw [hid] at hother
        cases hother
        exact le_rfl
    · refine h.levelled.aim id fun b _ level _ => ?_
      by_cases hnew : b = id ∧ w.load id ≤ level
      · exact .inr ⟨hnew.1, hnew.2, (aims_le_inProgress _ b level).trans hcalls⟩
      · refine .inl (aims_setResolver_le ht fun haims => absurd ?_ hnew)
        simp only [Resolver.aimsAt, hid, decide_eq_true_eq, Option.some.injEq] at haims
        exact ⟨haims.2.1.symm, haims.2.2⟩
  · rw [if_neg hless, Option.some.injEq] at hstep
    subst hstep
    -- The first count is below the start value of the loop.
    have hpos : 0 < i := by
      refine Nat.pos_of_ne_zero fun hi => hless ?_
      rw [hzero hi]
      exact h.load_lt id
    refine h.setResolver ht nofun nofun ⟨nofun, fun k hk other hother => ?_⟩ ?_
    · rcases Nat.lt_succ_iff_lt_or_eq.1 hk with hk | rfl
      · exact hseen k hk other hother
      · rw [hid] at hother
        cases hother
        exact BitVec.not_lt.1 hless
    · refine h.levelled.mono fun b _ level _ => aims_setResolver_le ht fun haims => ?_
      simp only [Resolver.aimsAt, decide_eq_true_eq] at haims ⊢
      exact ⟨hpos, haims.2⟩

/-- The end of the loop: every count that was seen is still at its least one or above it. -/
theorem Sound.select (h : Sound ids calls w) {i minIdx : Nat} {minInFlight : BitVec 64}
    (ht : w.resolvers[t]? = some (.selecting i minIdx minInFlight)) (hend : ids[i]? = none) :
    Sound ids calls (w.setResolver t ((ids[minIdx]?).elim .done .selected)) := by
  obtain ⟨-, hseen⟩ := h.seen _ (List.mem_of_getElem? ht)
  have hlength : ids.length ≤ i := List.getElem?_eq_none_iff.1 hend
  cases hmin : ids[minIdx]? with
  | none =>
      exact h.setResolver ht nofun nofun trivial
        (h.levelled.mono fun b _ level _ => aims_setResolver_le ht nofun)
  | some modelId =>
      refine h.setResolver ht nofun nofun trivial (h.levelled.mono ?_)
      rintro b - level ⟨m, hm, hlevel⟩
      refine aims_setResolver_le ht fun haims => ?_
      obtain ⟨k, hk, rfl⟩ := List.getElem_of_mem hm
      have hleast := hseen k (hk.trans_le hlength) _ (List.getElem?_eq_getElem hk)
      simp only [Resolver.aimsAt, decide_eq_true_eq, Option.elim_some] at haims ⊢
      exact ⟨(Nat.zero_le k).trans_lt (hk.trans_le hlength), by rw [hmin, haims], hleast.trans hlevel⟩

/-- The call counts itself on the row that it has selected. -/
theorem Sound.count (h : Sound ids calls w) {modelId : Uuid} (ht : w.resolvers[t]? = some (.selected modelId))
    (hclone : w.strongCount modelId ≤ maxRefcount) :
    Sound ids calls { w.setResolver t (.guarded modelId) with lb := w.lb.incrementInFlight modelId } := by
  have hload : ∀ id, load { w.setResolver t (.guarded modelId) with lb := w.lb.incrementInFlight modelId } id
      = w.load id + if id = modelId then 1 else 0 := by
    intro id
    simp only [load, LoadBalancer.inFlightOf_increment]
    by_cases hid : id = modelId
    · have hsmall := h.load_lt id
      have hmax : (BitVec.allOnes 64).toNat + 1 = 2 ^ 64 := by decide
      rw [if_pos hid, if_pos hid, BitVec.toNat_add, show (1 : BitVec 64).toNat = 1 from rfl]
      refine Nat.mod_eq_of_lt ?_
      rw [load] at hsmall
      omega
    · rw [if_neg hid, if_neg hid, Nat.add_zero]
  refine ⟨fun id => ?_, fun r hr => ?_, h.levelled.place modelId hload fun id level => ?_⟩
  · have hcount := countP_set_add (p := (· == Resolver.guarded id)) (b := Resolver.guarded modelId) ht
    obtain ⟨hcounted, hbound⟩ := h.counted id
    rw [hload, hcounted]
    simp only [strongCount] at hclone
    by_cases hid : id = modelId
    · subst hid
      simp only [beq_iff_eq, reduceCtorEq, if_false, if_true, Nat.add_zero] at hcount ⊢
      rw [BusyWorld.setResolver, List.count, hcount]
      exact ⟨rfl, hclone⟩
    · have hother : ¬ Resolver.guarded modelId = .guarded id := fun heq => hid (Resolver.guarded.inj heq).symm
      simp only [beq_iff_eq, reduceCtorEq, hother, if_false, Nat.add_zero] at hcount
      rw [if_neg hid, Nat.add_zero, BusyWorld.setResolver, List.count, hcount]
      exact ⟨rfl, hbound⟩
  · have hgrown : ∀ id, w.load id ≤ load
        { w.setResolver t (.guarded modelId) with lb := w.lb.incrementInFlight modelId } id := fun id => by
      rw [hload]
      exact Nat.le_add_right _ _
    rcases List.mem_or_eq_of_mem_set hr with hr | rfl
    · exact (h.seen r hr).mono hgrown
    · trivial
  · have hcount : _ = w.aims ids id level + _ := aims_setResolver ht (.guarded modelId) id level
    simp only [Resolver.aimsAt, Bool.false_eq_true, if_false, decide_eq_true_eq, Nat.add_zero] at hcount
    refine (Nat.add_le_add_left (le_of_eq ?_) _).trans_eq hcount
    simp only [eq_comm]

theorem Sound.advance (h : Sound ids calls w) {w' : BusyWorld} (hcalls : w'.inProgress ≤ calls)
    (hstep : w.advance ids t = some w') : Sound ids calls w' := by
  cases ht : w.resolvers[t]? with
  | none =>
      simp only [BusyWorld.advance, ht, Option.some.injEq] at hstep
      exact hstep ▸ h
  | some r =>
      cases r with
      | selecting i minIdx minInFlight =>
          cases hid : ids[i]? with
          | some id => exact h.look ht hid hcalls hstep
          | none =>
              simp only [BusyWorld.advance, ht, hid, Option.some.injEq] at hstep
              exact hstep ▸ h.select ht hid
      | selected modelId =>
          simp only [BusyWorld.advance, ht] at hstep
          split at hstep
          · cases hstep
            exact h.setResolver ht nofun nofun trivial
              (h.levelled.mono fun b _ level _ => aims_setResolver_le ht nofun)
          · split at hstep
            · cases hstep
            · cases hstep
              exact h.count ht (not_lt.1 ‹_›)
      | guarded modelId =>
          simp only [BusyWorld.advance, ht, Option.some.injEq] at hstep
          exact hstep ▸ h
      | done =>
          simp only [BusyWorld.advance, ht, Option.some.injEq] at hstep
          exact hstep ▸ h

end Advance

theorem Sound.step (h : Sound ids calls w) (e : BusyEvent) {w' : BusyWorld} (hcalls : w'.inProgress ≤ calls)
    (hstep : w.step ids e = some w') : Sound ids calls w' := by
  cases e with
  | resolve =>
      cases hstep
      refine ⟨fun id => ?_, fun r hr => ?_, h.levelled.mono fun b _ level _ => ?_⟩
      · simpa [load] using h.counted id
      · rcases List.mem_append.1 hr with hr | hr
        · exact h.seen r hr
        · rw [List.mem_singleton.1 hr]
          exact ⟨fun _ => rfl, nofun⟩
      · simp [aims, Resolver.aimsAt]
  | advance t => exact h.advance hcalls hstep
  | fail t =>
      cases ht : w.resolvers[t]? with
      | none =>
          simp only [BusyWorld.step, ht, Option.some.injEq] at hstep
          exact hstep ▸ h
      | some r =>
          cases r with
          | selected modelId =>
              simp only [BusyWorld.step, ht, Option.some.injEq] at hstep
              subst hstep
              exact h.setResolver ht nofun nofun trivial
                (h.levelled.mono fun b _ level _ => aims_setResolver_le ht nofun)
          | selecting i minIdx minInFlight =>
              simp only [BusyWorld.step, ht, Option.some.injEq] at hstep
              exact hstep ▸ h
          | guarded modelId =>
              simp only [BusyWorld.step, ht, Option.some.injEq] at hstep
              exact hstep ▸ h
          | done =>
              simp only [BusyWorld.step, ht, Option.some.injEq] at hstep
              exact hstep ▸ h

/-! ## Runs -/

/-- At no point of the run more calls are in progress than these. -/
def AtMost (ids : List Uuid) (calls : Nat) : BusyWorld → List BusyEvent → Prop
  | w, [] => w.inProgress ≤ calls
  | w, e :: rest => w.inProgress ≤ calls ∧ ∀ w' ∈ w.step ids e, AtMost ids calls w' rest

instance (ids : List Uuid) (calls : Nat) : (w : BusyWorld) → (events : List BusyEvent) →
    Decidable (AtMost ids calls w events)
  | w, [] => inferInstanceAs (Decidable (w.inProgress ≤ calls))
  | w, e :: rest =>
    match h : w.step ids e with
    | none => decidable_of_iff (w.inProgress ≤ calls) (by simp [AtMost, h])
    | some w' =>
      have := instDecidableAtMost ids calls w' rest
      decidable_of_iff (w.inProgress ≤ calls ∧ AtMost ids calls w' rest) (by simp [AtMost, h])

theorem AtMost.now {events : List BusyEvent} (h : AtMost ids calls w events) : w.inProgress ≤ calls := by
  cases events with
  | nil => exact h
  | cons e rest => exact h.1

theorem Sound.run (h : Sound ids calls w) (events : List BusyEvent) (hcalls : AtMost ids calls w events)
    {w' : BusyWorld} (hrun : w.run ids events = some w') : Sound ids calls w' := by
  induction events generalizing w with
  | nil =>
      cases hrun
      exact h
  | cons e rest ih =>
      obtain ⟨next, hstep, hrest⟩ := Option.bind_eq_some_iff.1 hrun
      have hlater := hcalls.2 next hstep
      exact ih (h.step e hlater.now hstep) hlater hrest

/-- As long as no guard goes, the counts of two replicas differ by no more than the calls that run at the same
    time. -/
theorem run_spread (ids : List Uuid) (calls : Nat) (events : List BusyEvent) {w : BusyWorld}
    (hcalls : AtMost ids calls .new events) (hrun : BusyWorld.new.run ids events = some w) {id other : Uuid}
    (hid : id ∈ ids) (hother : other ∈ ids) :
    (w.lb id).inFlight.toNat ≤ (w.lb other).inFlight.toNat + calls :=
  ((new_sound ids calls).run events hcalls hrun).levelled.spread hid hother

/-- Two calls that overlap pick the same one of two idle replicas, and are as far apart as two calls can be. -/
def overlapping : List BusyEvent :=
  [.resolve, .resolve, .advance 0, .advance 1, .advance 0, .advance 1, .advance 0, .advance 1, .advance 0, .advance 1]

theorem run_spread_overlapping :
    ∃ w, BusyWorld.new.run [1, 2] overlapping = some w ∧ (w.lb 1).inFlight.toNat = (w.lb 2).inFlight.toNat + 2
      ∧ (w.lb 1).inFlight.toNat ≤ (w.lb 2).inFlight.toNat + 2 := by
  have hcalls : AtMost [1, 2] 2 .new overlapping := by decide +kernel
  have hends : (BusyWorld.new.run [1, 2] overlapping).map
      (fun w => ((w.lb 1).inFlight.toNat, (w.lb 2).inFlight.toNat)) = some (2, 0) := by decide +kernel
  obtain ⟨w, hrun, hw⟩ := Option.map_eq_some_iff.1 hends
  obtain ⟨hfirst, hsecond⟩ := Prod.mk.inj hw
  refine ⟨w, hrun, by rw [hfirst, hsecond], run_spread [1, 2] 2 overlapping hcalls hrun ?_ ?_⟩
  · exact List.mem_cons_self
  · exact List.mem_cons_of_mem _ List.mem_cons_self

end BusyWorld

end Godwit
