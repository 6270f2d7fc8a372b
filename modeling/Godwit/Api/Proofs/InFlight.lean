import Mathlib.Data.List.Perm.Basic
import Godwit.Api.InFlight
import Godwit.Api.Proofs.ModelRouter

set_option autoImplicit false

/-! # A counter is the number of its live guards

A guard that a failing `resolve` drops leaves the counters as they were (`resolveGuarded_eq_some`), and
every other step adds or removes the same id from the counters and from the live guards. A guard holds a
reference to its entry, so their number stays below the bound of the counter, and `LeastBusy` picks the
first id with the fewest guards. -/

namespace Godwit

/-! ## The counter of an id -/

/-- The in-flight count alone. -/
def LoadBalancer.inFlightOf (lb : LoadBalancer) (id : Uuid) : BitVec 64 := (lb id).inFlight

section Counter

variable (lb : LoadBalancer)

theorem LoadBalancer.inFlightOf_increment (modelId id : Uuid) :
    (lb.incrementInFlight modelId).inFlightOf id
      = if id = modelId then lb.inFlightOf id + 1 else lb.inFlightOf id := by
  by_cases hid : id = modelId
  · subst hid
    simp [LoadBalancer.inFlightOf, LoadBalancer.incrementInFlight]
  · simp [LoadBalancer.inFlightOf, LoadBalancer.incrementInFlight, hid]

theorem LoadBalancer.inFlightOf_release (modelId id : Uuid) :
    (lb.releaseInFlight modelId).inFlightOf id
      = if id = modelId then lb.inFlightOf id - 1 else lb.inFlightOf id := by
  by_cases hid : id = modelId
  · subst hid
    simp [LoadBalancer.inFlightOf, LoadBalancer.releaseInFlight]
  · simp [LoadBalancer.inFlightOf, LoadBalancer.releaseInFlight, hid]

theorem LoadBalancer.inFlightOf_recordLatency (modelId id : Uuid) (durationMs : ℚ) :
    (lb.recordLatency modelId durationMs).inFlightOf id = lb.inFlightOf id := by
  by_cases hid : id = modelId
  · subst hid
    simp only [LoadBalancer.inFlightOf, LoadBalancer.recordLatency, Function.update_self,
      LoadBalancerState.updateEwma]
    split_ifs <;> rfl
  · simp [LoadBalancer.inFlightOf, LoadBalancer.recordLatency, Function.update_of_ne hid]

theorem LoadBalancer.inFlightOf_selectProvider (strategy : LoadBalanceStrategy) (ids : List Uuid) (id : Uuid) :
    (lb.selectProvider strategy ids).2.inFlightOf id = lb.inFlightOf id := by
  cases ids with
  | nil => rfl
  | cons first rest =>
      cases strategy with
      | roundRobin =>
          by_cases hid : id = first
          · subst hid
            simp [LoadBalancer.selectProvider, LoadBalancer.inFlightOf]
          · simp [LoadBalancer.selectProvider, LoadBalancer.inFlightOf, Function.update_of_ne hid]
      | leastBusy => rfl
      | latency => rfl

/-- A guard that is made and dropped leaves no trace. -/
theorem LoadBalancer.release_increment (modelId : Uuid) :
    (lb.incrementInFlight modelId).releaseInFlight modelId = lb := by
  have hback : (lb modelId).inFlight + 1#64 - 1#64 = (lb modelId).inFlight := by bv_omega
  simp [LoadBalancer.incrementInFlight, LoadBalancer.releaseInFlight, hback]

/-- The choice of a row leaves the in-flight counts alone. -/
theorem DbModelRouter.chooseRow_inFlightOf (r : DbModelRouter) (modelRef : String) (capability : Capability)
    (id : Uuid) : (r.chooseRow lb modelRef capability).2.inFlightOf id = lb.inFlightOf id := by
  unfold DbModelRouter.chooseRow
  split
  · rfl
  · unfold DbModelRouter.bareRow
    split
    · rfl
    · rfl
    · rename_i candidates _ _
      have hselect := lb.inFlightOf_selectProvider (strategyFor (r.candidates modelRef))
        ((r.candidates modelRef).map Model.id) id
      rcases hpick : selectLoadBalanced lb (r.candidates modelRef) (strategyFor (r.candidates modelRef))
        with ⟨_ | model, lb'⟩
      all_goals
        have hlb' : lb' = (lb.selectProvider (strategyFor (r.candidates modelRef))
            ((r.candidates modelRef).map Model.id)).2 := (congrArg Prod.snd hpick).symm
        rw [← hlb'] at hselect
        exact hselect

end Counter

/-! ## What `resolve` returns -/

section Resolve

variable {r : DbModelRouter} {lb : LoadBalancer} {strongCount : Uuid → Nat} {modelRef : String}
  {capability : Capability}

/-- A process that goes on has resolved the reference as `resolve` says, and could clone the entry of the
    guard that it returns. -/
theorem DbModelRouter.resolveGuarded_eq_some {result : Except PasteurError ResolvedModel × LoadBalancer}
    (h : r.resolveGuarded lb strongCount modelRef capability = some result) :
    result = r.resolve lb modelRef capability
      ∧ ∀ resolved, result.1 = .ok resolved → ∀ guard ∈ resolved.inFlight, strongCount guard ≤ maxRefcount := by
  unfold DbModelRouter.resolveGuarded at h
  unfold DbModelRouter.resolve
  generalize r.chooseRow lb modelRef capability = row at h ⊢
  obtain ⟨e | ⟨model, profile⟩, lb⟩ := row
  · cases h
    exact ⟨rfl, by rintro _ ⟨⟩⟩
  simp only at h ⊢
  by_cases hcapable : (!model.hasCapability capability) = true
  · rw [if_pos hcapable] at h ⊢
    cases h
    exact ⟨rfl, by rintro _ ⟨⟩⟩
  rw [if_neg hcapable] at h ⊢
  by_cases haborts : model.id ≠ Uuid.nil ∧ maxRefcount < strongCount model.id
  · rw [if_pos haborts] at h
    cases h
  rw [if_neg haborts] at h
  -- the guard of a call that fails is made and dropped
  have hback : ((if model.id = Uuid.nil then none else some model.id).elim lb lb.incrementInFlight).dropGuard
      (if model.id = Uuid.nil then none else some model.id) = lb := by
    split_ifs
    · rfl
    · exact lb.release_increment model.id
  simp only [hback] at h
  cases hcred : r.resolveCredentials profile with
  | error e =>
      simp only [hcred] at h ⊢
      cases h
      exact ⟨rfl, by rintro _ ⟨⟩⟩
  | ok credentials =>
      simp only [hcred] at h ⊢
      by_cases hprotocol : profile.protocol ∈ r.registry
      · rw [if_pos hprotocol] at h ⊢
        cases h
        refine ⟨rfl, ?_⟩
        rintro _ ⟨⟩ guard hguard
        by_cases hnil : model.id = Uuid.nil
        · simp [hnil] at hguard
        · obtain rfl : model.id = guard := by simpa [hnil] using hguard
          exact not_lt.1 fun habort => haborts ⟨hnil, habort⟩
      · rw [if_neg hprotocol] at h ⊢
        cases h
        exact ⟨rfl, by rintro _ ⟨⟩⟩

/-- The guard that a call returns. -/
def returnedGuard : Except PasteurError ResolvedModel → Option Uuid
  | .error _ => none
  | .ok resolved => resolved.inFlight

/-- What a call leaves: the counts as they were, and one more for the guard that it returns. -/
theorem DbModelRouter.resolve_inFlightOf {outcome : Except PasteurError ResolvedModel} {lb' : LoadBalancer}
    (h : r.resolve lb modelRef capability = (outcome, lb')) (id : Uuid) :
    lb'.inFlightOf id
      = if returnedGuard outcome = some id then lb.inFlightOf id + 1 else lb.inFlightOf id := by
  rw [← r.chooseRow_inFlightOf lb modelRef capability id]
  unfold DbModelRouter.resolve at h
  generalize r.chooseRow lb modelRef capability = row at h ⊢
  obtain ⟨e | ⟨model, profile⟩, lb⟩ := row
  · cases h
    rfl
  simp only at h
  by_cases hcapable : (!model.hasCapability capability) = true
  · rw [if_pos hcapable] at h
    cases h
    rfl
  rw [if_neg hcapable] at h
  cases hcred : r.resolveCredentials profile with
  | error e =>
      simp only [hcred] at h
      cases h
      rfl
  | ok credentials =>
      simp only [hcred] at h
      by_cases hprotocol : profile.protocol ∈ r.registry
      · rw [if_pos hprotocol] at h
        cases h
        by_cases hnil : model.id = Uuid.nil
        · simp [returnedGuard, hnil]
        · simp [returnedGuard, hnil, LoadBalancer.inFlightOf_increment, eq_comm]
      · rw [if_neg hprotocol] at h
        cases h
        rfl

end Resolve

/-! ## Steps and runs -/

/-- Every counter is the number of the live guards of its id, which leaves it far from its bound. -/
def RouterWorld.Counted (w : RouterWorld) : Prop :=
  ∀ id, (w.lb.inFlightOf id).toNat = w.liveGuards.count id ∧ w.liveGuards.count id ≤ maxRefcount

section Steps

variable {w : RouterWorld}

/-- A guard goes: its counter and the number of its guards are one less. -/
theorem RouterWorld.Counted.release (h : w.Counted) {guard : Uuid} {resolved : List ResolvedModel}
    {guards : List Uuid}
    (hgone : w.liveGuards.Perm (guard :: (resolved.filterMap ResolvedModel.inFlight ++ guards))) :
    RouterWorld.Counted ⟨w.lb.releaseInFlight guard, resolved, guards⟩ := by
  intro id
  obtain ⟨hcount, hbound⟩ := h id
  have hgone := hgone.count_eq id
  rw [List.count_cons] at hgone
  simp only [RouterWorld.liveGuards, LoadBalancer.inFlightOf_release]
  by_cases hid : id = guard
  · subst hid
    simp only [beq_self_eq_true, if_true] at hgone ⊢
    have hone : (1 : BitVec 64) ≤ w.lb.inFlightOf id := by
      show (1 : BitVec 64).toNat ≤ (w.lb.inFlightOf id).toNat
      rw [hcount, hgone]
      exact Nat.le_add_left 1 _
    rw [BitVec.toNat_sub_of_le hone, hcount, show (1 : BitVec 64).toNat = 1 from rfl]
    omega
  · have hother : (guard == id) = false := by simpa using Ne.symm hid
    simp only [hother, Bool.false_eq_true, if_false, hid] at hgone ⊢
    omega

/-- The live guards are only moved. -/
theorem RouterWorld.Counted.move (h : w.Counted) {w' : RouterWorld}
    (hlb : ∀ id, w'.lb.inFlightOf id = w.lb.inFlightOf id) (hmoved : w'.liveGuards.Perm w.liveGuards) :
    w'.Counted := by
  intro id
  rw [hlb id, hmoved.count_eq id]
  exact h id

/-- A guard comes: its counter and the number of its guards are one more. -/
theorem RouterWorld.Counted.resolve (h : w.Counted) {lb : LoadBalancer} {resolved : ResolvedModel}
    (hclone : ∀ guard ∈ resolved.inFlight, w.strongCount guard ≤ maxRefcount)
    (hlb : ∀ id, lb.inFlightOf id
      = if resolved.inFlight = some id then w.lb.inFlightOf id + 1 else w.lb.inFlightOf id) :
    RouterWorld.Counted { w with lb, resolved := resolved :: w.resolved } := by
  intro id
  obtain ⟨hcount, hbound⟩ := h id
  simp only [RouterWorld.liveGuards, hlb]
  cases hguard : resolved.inFlight with
  | none =>
      simp only [List.filterMap_cons, hguard, reduceCtorEq, if_false]
      exact ⟨hcount, hbound⟩
  | some guard =>
      have hlimit := hclone guard hguard
      simp only [List.filterMap_cons, hguard, List.cons_append, List.count_cons, Option.some.injEq]
      by_cases hid : guard = id
      · subst hid
        have hsucc : (w.lb.inFlightOf guard + 1).toNat = (w.lb.inFlightOf guard).toNat + 1 := by
          have hsmall : w.liveGuards.count guard + 1 < 2 ^ 64 := by
            unfold RouterWorld.strongCount maxRefcount at hlimit
            omega
          rw [BitVec.toNat_add, show (1 : BitVec 64).toNat = 1 from rfl, hcount]
          exact Nat.mod_eq_of_lt hsmall
        simp only [beq_self_eq_true, if_true, hsucc, hcount]
        exact ⟨rfl, hlimit⟩
      · have hother : (guard == id) = false := by simpa using hid
        simp only [hother, Bool.false_eq_true, if_false, hid, Nat.add_zero]
        exact ⟨hcount, hbound⟩

theorem RouterWorld.Counted.step (h : w.Counted) (e : RouterEvent) {w' : RouterWorld}
    (hstep : w.step e = some w') : w'.Counted := by
  cases e with
  | resolve r modelRef capability =>
      simp only [RouterWorld.step] at hstep
      cases hresolve : r.resolveGuarded w.lb w.strongCount modelRef capability with
      | none => simp [hresolve] at hstep
      | some result =>
          obtain ⟨heq, hclone⟩ := DbModelRouter.resolveGuarded_eq_some hresolve
          obtain ⟨e | resolved, lb⟩ := result
          · simp only [hresolve, Option.some.injEq] at hstep
            subst hstep
            exact h.move (DbModelRouter.resolve_inFlightOf heq.symm) (List.Perm.refl _)
          · simp only [hresolve, Option.some.injEq] at hstep
            subst hstep
            exact h.resolve (hclone resolved rfl) (DbModelRouter.resolve_inFlightOf heq.symm)
  | recordLatency modelId durationMs =>
      cases hstep
      exact h.move (w.lb.inFlightOf_recordLatency modelId · durationMs) (List.Perm.refl _)
  | takeGuard i =>
      simp only [RouterWorld.step] at hstep
      cases hat : w.resolved[i]? with
      | none =>
          rw [hat] at hstep
          cases hstep
          exact h
      | some resolved =>
          rw [hat] at hstep
          cases hstep
          obtain ⟨hi, rfl⟩ := List.getElem?_eq_some_iff.1 hat
          refine h.move (fun _ => rfl) ?_
          have hset := (List.set_perm_cons_eraseIdx hi { w.resolved[i] with inFlight := none }).filterMap
            ResolvedModel.inFlight
          have hold := (List.getElem_cons_eraseIdx_perm hi).filterMap ResolvedModel.inFlight
          simp only [List.filterMap_cons] at hset hold
          refine (hset.append_right _).trans (List.Perm.trans ?_ (hold.append_right w.guards))
          cases hguard : w.resolved[i].inFlight with
          | none => simp
          | some guard => simp
  | dropResolved i =>
      simp only [RouterWorld.step] at hstep
      cases hat : w.resolved[i]? with
      | none =>
          rw [hat] at hstep
          cases hstep
          exact h
      | some resolved =>
          rw [hat] at hstep
          cases hstep
          obtain ⟨hi, rfl⟩ := List.getElem?_eq_some_iff.1 hat
          have hold := (List.getElem_cons_eraseIdx_perm hi).filterMap ResolvedModel.inFlight
          simp only [List.filterMap_cons] at hold
          cases hguard : w.resolved[i].inFlight with
          | none =>
              rw [hguard] at hold
              exact h.move (fun _ => rfl) (hold.append_right w.guards)
          | some guard =>
              rw [hguard] at hold
              exact h.release (hold.symm.append_right w.guards)
  | dropGuard i =>
      simp only [RouterWorld.step] at hstep
      cases hat : w.guards[i]? with
      | none =>
          rw [hat] at hstep
          cases hstep
          exact h
      | some guard =>
          rw [hat] at hstep
          cases hstep
          obtain ⟨hi, rfl⟩ := List.getElem?_eq_some_iff.1 hat
          have hold := (List.getElem_cons_eraseIdx_perm hi).symm
          exact h.release ((hold.append_left _).trans List.perm_middle)

theorem RouterWorld.Counted.run (h : w.Counted) (events : List RouterEvent) {w' : RouterWorld}
    (hrun : w.run events = some w') : w'.Counted := by
  induction events generalizing w with
  | nil =>
      cases hrun
      exact h
  | cons e rest ih =>
      obtain ⟨next, hnext, hrest⟩ := Option.bind_eq_some_iff.1 hrun
      exact ih (h.step e hnext) hrest

theorem RouterWorld.new_counted : RouterWorld.new.Counted := fun _ => ⟨rfl, Nat.zero_le _⟩

end Steps

/-! ## The least busy id -/

/-- The loop finds the first index of a least key, or keeps the index it came with. The keys compare as
    their ranks do. -/
theorem firstLeast_spec {κ : Type} [LT κ] [DecidableLT κ] (key : Uuid → κ) {rank : κ → Nat}
    (hrank : ∀ a b, a < b ↔ rank a < rank b) (ids : List Uuid) (i minIdx : Nat) (least : κ) :
    firstLeast key ids i minIdx least = minIdx ∧ (∀ id ∈ ids, rank least ≤ rank (key id))
      ∨ ∃ j, ∃ hj : j < ids.length, firstLeast key ids i minIdx least = i + j
        ∧ rank (key ids[j]) < rank least ∧ (∀ id ∈ ids, rank (key ids[j]) ≤ rank (key id))
        ∧ ∀ k, ∀ hk : k < j, rank (key ids[j]) < rank (key ids[k]) := by
  induction ids generalizing i minIdx least with
  | nil => exact .inl ⟨rfl, by simp⟩
  | cons id rest ih =>
      rw [firstLeast]
      by_cases hless : key id < least
      · rw [if_pos hless]
        rw [hrank] at hless
        rcases ih (i + 1) i (key id) with ⟨hidx, hleast⟩ | ⟨j, hj, hidx, hlt, hleast, hfirst⟩
        · exact .inr ⟨0, by simp, hidx, hless, by simpa using hleast, by simp⟩
        · refine .inr ⟨j + 1, by simpa using hj, by rw [hidx]; omega, hlt.trans hless, ?_, ?_⟩
          · simpa using ⟨hlt.le, hleast⟩
          · rintro (_ | k) hk
            · exact hlt
            · exact hfirst k (by omega)
      · rw [if_neg hless]
        rw [hrank, not_lt] at hless
        rcases ih (i + 1) minIdx least with ⟨hidx, hleast⟩ | ⟨j, hj, hidx, hlt, hleast, hfirst⟩
        · exact .inl ⟨hidx, by simpa using ⟨hless, hleast⟩⟩
        · refine .inr ⟨j + 1, by simpa using hj, by rw [hidx]; omega, hlt, ?_, ?_⟩
          · simpa using ⟨(hlt.trans_le hless).le, hleast⟩
          · rintro (_ | k) hk
            · exact hlt.trans_le hless
            · exact hfirst k (by omega)

/-- The first index whose id has the fewest live guards. -/
def RouterWorld.LeastBusy (w : RouterWorld) (ids : List Uuid) (i : Nat) : Prop :=
  ∃ hi : i < ids.length, (∀ id ∈ ids, w.liveGuards.count ids[i] ≤ w.liveGuards.count id)
    ∧ ∀ k, ∀ hk : k < i, w.liveGuards.count ids[i] < w.liveGuards.count ids[k]

theorem RouterWorld.Counted.selectProvider {w : RouterWorld} (h : w.Counted) {ids : List Uuid}
    (hids : ids ≠ []) :
    ∃ i, (w.lb.selectProvider .leastBusy ids).1 = some i ∧ w.LeastBusy ids i := by
  obtain ⟨first, rest, rfl⟩ := List.exists_cons_of_ne_nil hids
  refine ⟨_, rfl, ?_⟩
  show w.LeastBusy (first :: rest) (firstLeast w.lb.inFlightOf (first :: rest) 0 0 (BitVec.allOnes 64))
  rcases firstLeast_spec w.lb.inFlightOf (fun _ _ => BitVec.lt_def) (first :: rest) 0 0 (BitVec.allOnes 64) with
    ⟨-, hleast⟩ | ⟨j, hj, hidx, -, hleast, hfirst⟩
  · -- no counter is at its bound
    have hfull := hleast first List.mem_cons_self
    obtain ⟨hcount, hbound⟩ := h first
    rw [BitVec.toNat_allOnes, hcount] at hfull
    unfold maxRefcount at hbound
    omega
  · rw [hidx, Nat.zero_add]
    simp only [fun id => (h id).1] at hleast hfirst
    exact ⟨hj, hleast, hfirst⟩

/-- After every run of the router every counter is the number of live guards of its id, so a guard that is
    dropped finds a count to take back, and `LeastBusy` picks the first id with the fewest guards. -/
theorem RouterWorld.run_inFlight (events : List RouterEvent) {w : RouterWorld}
    (hrun : RouterWorld.new.run events = some w) :
    (∀ id, (w.lb id).inFlight.toNat = w.liveGuards.count id)
      ∧ (∀ guard ∈ w.liveGuards, 1 ≤ (w.lb guard).inFlight.toNat)
      ∧ (∀ ids, ids ≠ [] →
          ∃ i, (w.lb.selectProvider .leastBusy ids).1 = some i ∧ w.LeastBusy ids i) := by
  have hcounted := RouterWorld.new_counted.run events hrun
  refine ⟨fun id => (hcounted id).1, fun guard hguard => ?_, fun ids hids => hcounted.selectProvider hids⟩
  exact (List.count_pos_iff.2 hguard).trans_eq (hcounted guard).1.symm

/-! ## Two replicas -/

/-- A chat row of a profile whose replicas are picked by `LeastBusy`. -/
def busyRow (id : Uuid) (profileId : Uuid) : Model :=
  { sampleRow id "gpt" profileId with config := .obj [("load_balance", .str "least_busy")] }

/-- The router of the two replicas. -/
def busyRouter (registry : List String) : DbModelRouter where
  catalog :=
    { models := [busyRow 1 11, busyRow 2 12]
      profiles := [sampleProfile 11 "east" true, sampleProfile 12 "west" true]
      modelIds_nodup := by decide
      profileIds_nodup := (replicas true).profileIds_nodup
      profileNames_nodup := (replicas true).profileNames_nodup
      publicIds_nodup := by decide
      profile_exists := by simp [busyRow, sampleRow, sampleProfile]
      models_bounded := by simp }
  registry := registry
  vault := ⟨fun _ => .error "none stored", fun _ => .ok ""⟩

/-- Two calls go to the two replicas. The guard of the second one is taken out and outlives its resolved
    model, and a call without an adapter fails. When that guard goes, the second replica is the idle one. -/
def busyRun : List RouterEvent :=
  [.resolve (busyRouter ["openai"]) "gpt" .chat, .resolve (busyRouter ["openai"]) "gpt" .chat, .takeGuard 0,
    .resolve (busyRouter []) "gpt" .chat, .dropResolved 0, .dropGuard 0]

theorem RouterWorld.run_inFlight_busyRun :
    ∃ w, RouterWorld.new.run busyRun = some w ∧ w.liveGuards = [1]
      ∧ (∀ id, (w.lb id).inFlight.toNat = ([1] : List Uuid).count id)
      ∧ (w.lb.selectProvider .leastBusy [1, 2]).1 = some 1 := by
  have hends : (RouterWorld.new.run busyRun).map (fun w =>
      (w.liveGuards, (w.lb.selectProvider .leastBusy [1, 2]).1)) = some ([1], some 1) := by decide +kernel
  obtain ⟨w, hrun, hw⟩ := Option.map_eq_some_iff.1 hends
  obtain ⟨hguards, hpick⟩ := Prod.mk.inj hw
  obtain ⟨hcount, -, -⟩ := RouterWorld.run_inFlight busyRun hrun
  rw [hguards] at hcount
  exact ⟨w, hrun, hguards, hcount, hpick⟩

end Godwit
