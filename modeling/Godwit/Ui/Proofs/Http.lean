import Mathlib.Order.Nat
import Godwit.Ui.Http

set_option autoImplicit false

/-! # One refresh at a time, two requests a call

A new refresh is made only when there is no shared promise, and the shared promise goes when its refresh has ended:
every refresh but the shared one has settled. -/

namespace Godwit.Ui

/-! ## The shared refresh -/

/-- The refresh has ended. -/
def RefreshPromise.isSettled : RefreshPromise → Bool
  | .settled _ => true
  | _ => false

/-- Every refresh has settled, but the last one while it is shared. -/
def OneRefresh : Option Nat → List RefreshPromise → Prop
  | none, refreshes => ∀ p ∈ refreshes, p.isSettled
  | some j, refreshes => ∃ before p, refreshes = before ++ [p] ∧ before.length = j
      ∧ (∀ q ∈ before, q.isSettled) ∧ p.isSettled = false

theorem OneRefresh.make {refreshes : List RefreshPromise} (h : OneRefresh none refreshes) :
    OneRefresh (some refreshes.length) (refreshes ++ [.sent]) :=
  ⟨refreshes, .sent, rfl, rfl, h, rfl⟩

/-- A refresh that has not settled is the shared one, which comes last. -/
theorem OneRefresh.shared {shared : Option Nat} {refreshes : List RefreshPromise} (h : OneRefresh shared refreshes)
    {j : Nat} {p : RefreshPromise} (hp : refreshes[j]? = some p) (hopen : p.isSettled = false) :
    shared = some j ∧ ∃ before, refreshes = before ++ [p] ∧ before.length = j ∧ ∀ q ∈ before, q.isSettled := by
  cases shared with
  | none =>
      have hsettled := h p (List.mem_of_getElem? hp)
      rw [hopen] at hsettled
      cases hsettled
  | some k =>
      obtain ⟨before, last, rfl, rfl, hbefore, -⟩ := h
      rcases Nat.lt_trichotomy j before.length with hlt | rfl | hgt
      · rw [List.getElem?_append_left hlt] at hp
        have hsettled := hbefore p (List.mem_of_getElem? hp)
        rw [hopen] at hsettled
        cases hsettled
      · obtain rfl : last = p := by simpa using hp
        exact ⟨rfl, before, rfl, rfl, hbefore⟩
      · rw [List.getElem?_eq_none (by simp; omega)] at hp
        cases hp

/-- The shared refresh goes on. -/
theorem OneRefresh.next {shared : Option Nat} {refreshes : List RefreshPromise} (h : OneRefresh shared refreshes)
    {j : Nat} {p p' : RefreshPromise} (hp : refreshes[j]? = some p) (hopen : p.isSettled = false)
    (hopen' : p'.isSettled = false) : OneRefresh shared (refreshes.set j p') := by
  obtain ⟨rfl, before, rfl, rfl, hbefore⟩ := h.shared hp hopen
  exact ⟨before, p', by simp, rfl, hbefore, hopen'⟩

/-- The shared refresh settles, and is no longer shared. -/
theorem OneRefresh.settle {shared : Option Nat} {refreshes : List RefreshPromise} (h : OneRefresh shared refreshes)
    {j : Nat} {p p' : RefreshPromise} (hp : refreshes[j]? = some p) (hopen : p.isSettled = false)
    (hsettled : p'.isSettled = true) : OneRefresh none (refreshes.set j p') := by
  obtain ⟨rfl, before, rfl, rfl, hbefore⟩ := h.shared hp hopen
  intro q hq
  rw [List.set_append_right _ _ le_rfl, Nat.sub_self, List.set_cons_zero, List.mem_append, List.mem_singleton] at hq
  rcases hq with hq | rfl
  · exact hbefore q hq
  · exact hsettled

theorem count_sent_of_settled {refreshes : List RefreshPromise} (h : ∀ p ∈ refreshes, p.isSettled) :
    refreshes.count .sent = 0 :=
  List.count_eq_zero.2 fun hmem => absurd (h _ hmem) (by decide)

theorem OneRefresh.count_le {shared : Option Nat} {refreshes : List RefreshPromise} (h : OneRefresh shared refreshes) :
    refreshes.count .sent ≤ 1 := by
  cases shared with
  | none => exact (count_sent_of_settled h).le.trans (by decide)
  | some j =>
      obtain ⟨before, p, rfl, -, hbefore, -⟩ := h
      rw [List.count_append, count_sent_of_settled hbefore, Nat.zero_add]
      exact List.count_le_length

/-! ## The requests of a call -/

/-- How many requests a call may have issued. -/
def ApiFetchPhase.requests : ApiFetchPhase → Nat
  | .fetching | .refreshing _ => 1
  | .retrying | .done _ => 2

theorem ApiFetchPhase.requests_le (phase : ApiFetchPhase) : phase.requests ≤ 2 := by
  cases phase <;> simp [requests]

/-- The call has issued no more requests than its phase allows. -/
def ApiFetchCall.InBudget (call : ApiFetchCall) : Prop := call.issued.length ≤ call.phase.requests

namespace HttpClient

/-- The invariant of the client. -/
structure Inv (s : HttpClient) : Prop where
  refreshes : OneRefresh s.refreshPromise s.refreshes
  calls : ∀ call ∈ s.calls, call.InBudget

theorem new_inv : HttpClient.new.Inv := ⟨by simp [new, OneRefresh], by simp [new]⟩

variable {s s' : HttpClient}

theorem Inv.setCall (h : s.Inv) {i : Nat} {call : ApiFetchCall} (hcall : call.InBudget) : (s.setCall i call).Inv := by
  refine ⟨h.refreshes, fun other hother => ?_⟩
  rcases List.mem_or_eq_of_mem_set hother with hmem | rfl
  · exact h.calls other hmem
  · exact hcall

theorem Inv.sharedRefresh (h : s.Inv) : s.sharedRefresh.2.Inv := by
  have hrefreshes := h.refreshes
  unfold HttpClient.sharedRefresh
  cases hshared : s.refreshPromise with
  | some promise => exact h
  | none =>
      rw [hshared] at hrefreshes
      exact ⟨hrefreshes.make, h.calls⟩

/-- A call that has issued one request may go on to any phase. -/
theorem Inv.afterFetch (h : s.Inv) {i : Nat} {call : ApiFetchCall} (hcall : call.issued.length ≤ 1)
    (result : Fetched) : (s.afterFetch i call result).Inv := by
  cases result with
  | error msg => exact h.setCall (hcall.trans (Nat.le_succ 1))
  | ok r =>
      rw [HttpClient.afterFetch]
      split
      · exact h.setCall (hcall.trans (Nat.le_succ 1))
      · have hbudget : ApiFetchCall.InBudget { call with phase := .refreshing s.sharedRefresh.1 } := hcall
        exact h.sharedRefresh.setCall hbudget

theorem Inv.afterRefresh (h : s.Inv) {i : Nat} {call : ApiFetchCall} (hcall : call.issued.length ≤ 1) (ok : Bool) :
    (s.afterRefresh i call ok).Inv := by
  unfold HttpClient.afterRefresh
  split
  · exact h.setCall (hcall.trans (Nat.le_succ 1))
  · refine h.setCall ?_
    simpa [ApiFetchCall.InBudget, ApiFetchPhase.requests] using hcall

/-- What an event does, for each kind of event. -/
theorem Inv.step (h : s.Inv) {e : HttpEvent} (hstep : s.step e = some s') : s'.Inv := by
  cases e with
  | apiFetch path init =>
      obtain rfl := Option.some.inj hstep
      refine ⟨h.refreshes, fun call hcall => ?_⟩
      rcases List.mem_append.1 hcall with hmem | hnew
      · exact h.calls call hmem
      · obtain rfl := List.mem_singleton.1 hnew
        exact Nat.le_refl 1
  | fetched i result =>
      obtain ⟨call, hcall, hstep⟩ := Option.bind_eq_some_iff.1 hstep
      have hbudget := h.calls call (List.mem_of_getElem? hcall)
      cases hphase : call.phase with
      | fetching =>
          simp only [hphase, Option.some.injEq] at hstep
          rw [ApiFetchCall.InBudget, hphase] at hbudget
          exact hstep ▸ h.afterFetch hbudget result
      | retrying =>
          simp only [hphase, Option.some.injEq] at hstep
          rw [ApiFetchCall.InBudget, hphase] at hbudget
          exact hstep ▸ h.setCall hbudget
      | refreshing promise => simp [hphase] at hstep
      | done outcome => simp [hphase] at hstep
  | refreshFetched j result =>
      obtain ⟨p, hp, hstep⟩ := Option.bind_eq_some_iff.1 hstep
      cases p with
      | sent =>
          obtain rfl := Option.some.inj hstep
          exact ⟨h.refreshes.next hp rfl rfl, h.calls⟩
      | returned ok => cases hstep
      | settled ok => cases hstep
  | refreshFinally j =>
      obtain ⟨p, hp, hstep⟩ := Option.bind_eq_some_iff.1 hstep
      cases p with
      | returned ok =>
          obtain rfl := Option.some.inj hstep
          exact ⟨h.refreshes.settle hp rfl rfl, h.calls⟩
      | sent => cases hstep
      | settled ok => cases hstep
  | refreshed i =>
      obtain ⟨call, hcall, hstep⟩ := Option.bind_eq_some_iff.1 hstep
      have hbudget := h.calls call (List.mem_of_getElem? hcall)
      cases hphase : call.phase with
      | refreshing promise =>
          simp only [hphase] at hstep
          obtain ⟨p, hp, hstep⟩ := Option.bind_eq_some_iff.1 hstep
          rw [ApiFetchCall.InBudget, hphase] at hbudget
          cases p with
          | settled ok =>
              obtain rfl := Option.some.inj hstep
              exact h.afterRefresh hbudget ok
          | sent => cases hstep
          | returned ok => cases hstep
      | fetching => simp [hphase] at hstep
      | retrying => simp [hphase] at hstep
      | done outcome => simp [hphase] at hstep

theorem Inv.run (h : s.Inv) {events : List HttpEvent} (hrun : s.run events = some s') : s'.Inv := by
  induction events generalizing s with
  | nil =>
      obtain rfl := Option.some.inj hrun
      exact h
  | cons e rest ih =>
      obtain ⟨next, hstep, hrest⟩ := Option.bind_eq_some_iff.1 hrun
      exact ih (h.step hstep) hrest

/-- However calls and responses interleave, one refresh at most is in flight, and no call has issued its request more
    than twice. -/
theorem one_refresh_two_requests {events : List HttpEvent} (hrun : HttpClient.new.run events = some s) :
    s.refreshesInFlight ≤ 1 ∧ ∀ call ∈ s.calls, call.issued.length ≤ 2 := by
  have hinv := new_inv.run hrun
  exact ⟨hinv.refreshes.count_le, fun call hcall => (hinv.calls call hcall).trans call.phase.requests_le⟩

/-- Two calls fail with 401, share one refresh and are retried. -/
def sharedEvents : List HttpEvent :=
  [.apiFetch "/api/v1/admin/stats" ⟨none, [], none, none⟩, .apiFetch "/api/v1/admin/keys" ⟨none, [], none, none⟩,
    .fetched 0 (.ok ⟨401, ""⟩), .fetched 1 (.ok ⟨401, ""⟩), .refreshFetched 0 (.ok ⟨200, ""⟩), .refreshFinally 0,
    .refreshed 0, .refreshed 1]

theorem one_refresh_two_requests_shared :
    ∃ s, HttpClient.new.run sharedEvents = some s ∧ s.refreshesInFlight ≤ 1
      ∧ ∀ call ∈ s.calls, call.issued.length ≤ 2 :=
  ⟨_, rfl, one_refresh_two_requests (show HttpClient.new.run sharedEvents = some _ from rfl)⟩

end HttpClient

end Godwit.Ui
