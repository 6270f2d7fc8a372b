import Godwit.Mcp.Client
import Godwit.Mcp.Proofs.JsonRpc

set_option autoImplicit false

/-! # Calls and their answers

As long as no call was abandoned, a connection holds one answer at most: none while the client is ready, and
while a call waits the answer to its request, which is still to be written or stands in the pipe
(`McpSession.Orderly`). So a call with no abandoned call before it returns its own answer (`run_own`). After an
abandoned call the answers are one behind, and a later call takes an answer that is not its own. -/

namespace Godwit

/-! ## What holds while no call was abandoned -/

/-- What a call returns for a response. -/
def RpcResponse.outcome (method : String) : RpcResponse → Except McpClientError Json
  | .result _ value => .ok value
  | .error _ e => .error (.remote method e.code e.message)

/-- The call returned what the server answered to its request. -/
def FinishedCall.Own (answers : List RpcResponse) (c : FinishedCall) : Prop :=
  ∃ answer, answers[c.number]? = some answer ∧ answer.id = c.id ∧ c.outcome = answer.outcome c.method

section Session

variable (serde : RpcSerde)

/-- The response in a line, when there is one. -/
def lineResponse (line : String) : Option RpcResponse :=
  if trimText line = "" then none
  else
    match RpcMessage.fromFrame serde (utf8Bytes (trimText line)) with
    | .ok (.response r) => some r
    | _ => none

/-- A line that is blank or a message. -/
def ReadableLine (line : String) : Prop :=
  trimText line = "" ∨ ∃ m, RpcMessage.fromFrame serde (utf8Bytes (trimText line)) = .ok m

/-- The answer to a request, which is the last one: still to be written, or in the pipe. -/
def McpSession.Expects (s : McpSession) (id : Int64) (number : Nat) : Prop :=
  (∃ request, s.unanswered = [request] ∧ request.id = id ∧ s.pipe.filterMap (lineResponse serde) = []
      ∧ s.answers.length = number)
    ∨ ∃ answer, s.unanswered = [] ∧ s.pipe.filterMap (lineResponse serde) = [answer] ∧ answer.id = id
      ∧ s.answers.length = number + 1 ∧ s.answers[number]? = some answer

/-- No answer is to come. -/
def McpSession.Quiet (s : McpSession) : Prop :=
  s.unanswered = [] ∧ s.pipe.filterMap (lineResponse serde) = [] ∧ s.answers.length = s.requested

/-- What is in flight in each phase. -/
def McpSession.InPhase (s : McpSession) : ClientPhase → Prop
  | .fresh => s.Quiet serde
  | .ready => s.Quiet serde
  | .handshake id => ∃ number, s.requested = number + 1 ∧ s.Expects serde id number
  | .waiting id _ number _ => s.requested = number + 1 ∧ s.Expects serde id number
  | .gone => True

/-- The lines in flight can be read, and are those of the phase. -/
structure McpSession.Orderly (s : McpSession) : Prop where
  readable : s.phase ≠ .gone → ∀ line ∈ s.pipe, ReadableLine serde line
  phase : s.InPhase serde s.phase

/-- The calls so far, and the order of the connection unless a call was abandoned. -/
structure McpSession.Inv (s : McpSession) : Prop where
  own : ∀ c ∈ s.finished, c.abandonedBefore = 0 → c.Own s.answers
  orderly : s.abandoned = 0 → s.Orderly serde
  since : ∀ id method number abandonedBefore, s.phase = .waiting id method number abandonedBefore →
    abandonedBefore = s.abandoned

theorem McpSession.inv_new : McpSession.new.Inv serde where
  own _ hc := absurd hc List.not_mem_nil
  orderly _ := ⟨fun _ _ hline => absurd hline List.not_mem_nil, rfl, rfl, rfl⟩
  since _ _ _ _ h := by simp [McpSession.new] at h

variable {serde}

/-! ## Lines -/

/-- A call goes on at a line without a response, and ends at its response. -/
theorem requestLine_eq {line : String} (hblank : trimText line ≠ "") (hline : ReadableLine serde line) (id : Int64)
    (method : String) (hid : ∀ answer ∈ lineResponse serde line, answer.id = id) :
    requestLine serde id method (trimText line) = (lineResponse serde line).map (RpcResponse.outcome method) := by
  obtain ⟨m, hm⟩ := hline.resolve_left hblank
  rw [lineResponse, if_neg hblank, hm] at hid ⊢
  rw [requestLine, hm]
  rcases m with r | (⟨rid, value⟩ | ⟨rid, e⟩) | n
  · rfl
  · have hown : rid = id := hid _ rfl
    dsimp only
    rw [if_neg (not_not_intro hown)]
    rfl
  · rfl
  · rfl

theorem initializeLine_eq {line : String} (hblank : trimText line ≠ "") (hline : ReadableLine serde line) :
    initializeLine serde (trimText line)
      = (lineResponse serde line).map fun answer => (answer.outcome "initialize").map fun _ => () := by
  obtain ⟨m, hm⟩ := hline.resolve_left hblank
  rw [lineResponse, if_neg hblank, hm, initializeLine, hm]
  rcases m with r | (⟨rid, value⟩ | ⟨rid, e⟩) | n <;> rfl

/-! ## The events -/

/-- A request is made while the client is quiet, and its answer is what is to come. -/
theorem McpSession.expects_writeRequest {s : McpSession} (hquiet : s.Quiet serde) (phase : ClientPhase)
    (method : String) (params : Option Json) :
    (s.writeRequest phase method params).Expects serde s.nextId s.requested := by
  obtain ⟨hunanswered, hpipe, hlength⟩ := hquiet
  refine .inl ⟨⟨s.nextId, method, params⟩, ?_, rfl, hpipe, hlength⟩
  rw [McpSession.writeRequest, hunanswered, List.nil_append]

theorem McpSession.inv_connect {s s' : McpSession} (h : s.Inv serde) {params : Json}
    (hstep : s.step serde (.connect params) = some s') : s'.Inv serde := by
  simp only [McpSession.step] at hstep
  split at hstep
  · rename_i hphase
    obtain rfl := Option.some_inj.1 hstep
    refine ⟨h.own, fun habandoned => ?_, fun _ _ _ _ hwaiting => by simp [McpSession.writeRequest] at hwaiting⟩
    obtain ⟨hreadable, hin⟩ := h.orderly habandoned
    rw [hphase] at hin hreadable
    exact ⟨fun _ => hreadable (by simp), s.requested, rfl, McpSession.expects_writeRequest hin _ _ _⟩
  · exact absurd hstep (by simp)

theorem McpSession.inv_call {s s' : McpSession} (h : s.Inv serde) {method : String} {params : Option Json}
    (hstep : s.step serde (.call method params) = some s') : s'.Inv serde := by
  simp only [McpSession.step] at hstep
  split at hstep
  · rename_i hphase
    obtain rfl := Option.some_inj.1 hstep
    refine ⟨h.own, fun habandoned => ?_, fun id method' number abandonedBefore hwaiting => ?_⟩
    · obtain ⟨hreadable, hin⟩ := h.orderly habandoned
      rw [hphase] at hin hreadable
      exact ⟨fun _ => hreadable (by simp), rfl, McpSession.expects_writeRequest hin _ _ _⟩
    · obtain ⟨-, -, -, rfl⟩ := ClientPhase.waiting.inj hwaiting
      rfl
  · exact absurd hstep (by simp)

/-- What the server may write: a line without a response, or the answer to the first request. -/
theorem McpSession.write_cases {s s' : McpSession} {line : String} (h : s.write serde line = some s') :
    ReadableLine serde line
      ∧ ((lineResponse serde line = none ∧ s' = { s with pipe := s.pipe ++ [line] })
        ∨ ∃ answer request later, lineResponse serde line = some answer ∧ s.unanswered = request :: later
          ∧ answer.id = request.id ∧ s' = { s with
              pipe := s.pipe ++ [line], unanswered := later, answers := s.answers ++ [answer] }) := by
  by_cases hblank : trimText line = ""
  · rw [McpSession.write, if_pos hblank] at h
    exact ⟨.inl hblank, .inl ⟨if_pos hblank, (Option.some_inj.1 h).symm⟩⟩
  · rw [McpSession.write, if_neg hblank] at h
    have hresponse : lineResponse serde line = _ := if_neg hblank
    cases hm : RpcMessage.fromFrame serde (utf8Bytes (trimText line)) with
    | error e => simp [hm] at h
    | ok m =>
        refine ⟨.inr ⟨m, hm⟩, ?_⟩
        rw [hm] at h hresponse
        cases m with
        | request r => exact .inl ⟨hresponse, by simpa using h.symm⟩
        | notification n => exact .inl ⟨hresponse, by simpa using h.symm⟩
        | response answer =>
            -- a response is written only when it answers the request that has waited longest
            cases hunanswered : s.unanswered with
            | nil => simp [hunanswered] at h
            | cons request later =>
                simp only [hunanswered] at h
                split at h
                · rename_i hid
                  exact .inr ⟨answer, request, later, hresponse, rfl, hid, (Option.some_inj.1 h).symm⟩
                · exact absurd h (by simp)

/-- What a step of a waiting client leaves when it only takes or finds a line without a response. -/
theorem McpSession.InPhase.of_same {s s' : McpSession} {phase : ClientPhase} (h : s.InPhase serde phase)
    (hunanswered : s'.unanswered = s.unanswered) (hanswers : s'.answers = s.answers)
    (hrequested : s'.requested = s.requested)
    (hpipe : s'.pipe.filterMap (lineResponse serde) = s.pipe.filterMap (lineResponse serde)) :
    s'.InPhase serde phase := by
  cases phase with
  | gone => trivial
  | _ =>
      simp only [McpSession.InPhase, McpSession.Quiet, McpSession.Expects, hunanswered, hanswers, hrequested,
        hpipe] at h ⊢
      exact h

theorem FinishedCall.Own.append {answers : List RpcResponse} {c : FinishedCall} (h : c.Own answers)
    (answer : RpcResponse) : c.Own (answers ++ [answer]) := by
  obtain ⟨own, hown, hid, houtcome⟩ := h
  obtain ⟨hlength, -⟩ := List.getElem?_eq_some_iff.1 hown
  exact ⟨own, by rw [List.getElem?_append_left hlength, hown], hid, houtcome⟩

/-- The answer that is to come is written. -/
theorem McpSession.Expects.write {s : McpSession} {id : Int64} {number : Nat} (h : s.Expects serde id number)
    {line : String} {answer : RpcResponse} (hline : lineResponse serde line = some answer) {request : RpcRequest}
    {later : List RpcRequest} (hunanswered : s.unanswered = request :: later) (hid : answer.id = request.id) :
    McpSession.Expects serde { s with
      pipe := s.pipe ++ [line], unanswered := later, answers := s.answers ++ [answer] } id number := by
  rcases h with ⟨own, hown, hownId, hpipe, hlength⟩ | ⟨-, hnone, -⟩
  · rw [hunanswered] at hown
    obtain ⟨rfl, rfl⟩ := List.cons.inj hown
    refine .inr ⟨answer, rfl, ?_, hid.trans hownId, ?_, ?_⟩
    · rw [List.filterMap_append, hpipe, List.nil_append, List.filterMap_cons_some hline, List.filterMap_nil]
    · rw [List.length_append, hlength, List.length_singleton]
    · rw [← hlength]
      exact List.getElem?_concat_length
  · rw [hunanswered] at hnone
    exact absurd hnone (List.cons_ne_nil _ _)

theorem McpSession.InPhase.write {s : McpSession} {phase : ClientPhase} (h : s.InPhase serde phase)
    {line : String} {answer : RpcResponse} (hline : lineResponse serde line = some answer) {request : RpcRequest}
    {later : List RpcRequest} (hunanswered : s.unanswered = request :: later) (hid : answer.id = request.id) :
    McpSession.InPhase serde { s with
      pipe := s.pipe ++ [line], unanswered := later, answers := s.answers ++ [answer] } phase := by
  have hquiet : ¬ s.Quiet serde := by
    rintro ⟨hnone, -⟩
    rw [hunanswered] at hnone
    exact absurd hnone (List.cons_ne_nil _ _)
  cases phase with
  | fresh => exact absurd h hquiet
  | ready => exact absurd h hquiet
  | handshake id =>
      obtain ⟨number, hnumber, hexpects⟩ := h
      exact ⟨number, hnumber, hexpects.write hline hunanswered hid⟩
  | waiting id method number abandonedBefore => exact ⟨h.1, h.2.write hline hunanswered hid⟩
  | gone => trivial

theorem McpSession.inv_write {s s' : McpSession} (h : s.Inv serde) {line : String}
    (hstep : s.step serde (.write line) = some s') : s'.Inv serde := by
  simp only [McpSession.step] at hstep
  obtain ⟨hline, hcases⟩ := McpSession.write_cases hstep
  have hreadable (ho : s.Orderly serde) (hphase : s.phase ≠ .gone) :
      ∀ l ∈ s.pipe ++ [line], ReadableLine serde l := by
    intro l hl
    rcases List.mem_append.1 hl with hl | hl
    · exact ho.readable hphase l hl
    · rwa [List.mem_singleton.1 hl]
  rcases hcases with ⟨hnone, rfl⟩ | ⟨answer, request, later, hsome, hunanswered, hid, rfl⟩
  · refine ⟨h.own, fun habandoned => ?_, h.since⟩
    have ho := h.orderly habandoned
    refine ⟨hreadable ho, ho.phase.of_same rfl rfl rfl ?_⟩
    rw [List.filterMap_append, List.filterMap_cons_none hnone, List.filterMap_nil, List.append_nil]
  · refine ⟨fun c hc hbefore => (h.own c hc hbefore).append answer, fun habandoned => ?_, h.since⟩
    have ho := h.orderly habandoned
    exact ⟨hreadable ho, ho.phase.write hsome hunanswered hid⟩

theorem McpSession.inv_abandon {s s' : McpSession} (h : s.Inv serde) {lost : Nat}
    (hstep : s.step serde (.abandon lost) = some s') : s'.Inv serde := by
  simp only [McpSession.step, McpSession.abandon] at hstep
  split at hstep
  · obtain rfl := Option.some_inj.1 hstep
    exact ⟨h.own, fun _ => ⟨fun hgone => absurd rfl hgone, trivial⟩, fun _ _ _ _ hw => by simp at hw⟩
  · obtain rfl := Option.some_inj.1 hstep
    exact ⟨h.own, fun habandoned => absurd habandoned (Nat.succ_ne_zero _), fun _ _ _ _ hw => by simp at hw⟩
  · exact absurd hstep (by simp)

/-- The response that is taken from the pipe is the answer that is to come, and nothing is after it. -/
theorem McpSession.Expects.take {s : McpSession} {id : Int64} {number : Nat} (h : s.Expects serde id number)
    {line : String} {pipe : List String} (hpipe : s.pipe = line :: pipe) {answer : RpcResponse}
    (hline : lineResponse serde line = some answer) :
    answer.id = id ∧ s.answers[number]? = some answer ∧ s.answers.length = number + 1 ∧ s.unanswered = []
      ∧ pipe.filterMap (lineResponse serde) = [] := by
  rw [McpSession.Expects, hpipe, List.filterMap_cons_some hline] at h
  rcases h with ⟨_, _, _, hnone, _⟩ | ⟨own, hunanswered, hown, hid, hlength, hanswer⟩
  · exact absurd hnone (List.cons_ne_nil _ _)
  · obtain ⟨rfl, hrest⟩ := List.cons.inj hown
    exact ⟨hid, hanswer, hlength, hunanswered, hrest⟩

/-- A line without a response is taken from the pipe. -/
theorem McpSession.Orderly.skip {s : McpSession} (h : s.Orderly serde) (hphase : s.phase ≠ .gone) {line : String}
    {pipe : List String} (hpipe : s.pipe = line :: pipe) (hline : lineResponse serde line = none) :
    McpSession.Orderly serde { s with pipe := pipe } := by
  refine ⟨fun _ l hl => h.readable hphase l (hpipe ▸ List.mem_cons_of_mem line hl), ?_⟩
  refine h.phase.of_same rfl rfl rfl ?_
  rw [hpipe, List.filterMap_cons_none hline]

theorem McpSession.Inv.skip {s : McpSession} (h : s.Inv serde) (hphase : s.phase ≠ .gone) {line : String}
    {pipe : List String} (hpipe : s.pipe = line :: pipe)
    (hline : s.Orderly serde → lineResponse serde line = none) : McpSession.Inv serde { s with pipe := pipe } :=
  ⟨h.own, fun habandoned => (h.orderly habandoned).skip hphase hpipe (hline (h.orderly habandoned)), h.since⟩

theorem lineResponse_blank {line : String} (hblank : trimText line = "") : lineResponse serde line = none :=
  if_pos hblank

theorem McpSession.inv_read_handshake {s s' : McpSession} (h : s.Inv serde) {id : Int64}
    (hphase : s.phase = .handshake id) (hstep : s.step serde .read = some s') : s'.Inv serde := by
  simp only [McpSession.step, McpSession.read, hphase] at hstep
  cases hpipe : s.pipe with
  | nil => simp [hpipe] at hstep
  | cons line pipe =>
      have hlive : s.phase ≠ .gone := by simp [hphase]
      have hreadable (ho : s.Orderly serde) : ReadableLine serde line :=
        ho.readable hlive line (by simp [hpipe])
      simp only [hpipe] at hstep
      split at hstep
      · rename_i hblank
        rw [← hphase] at hstep
        obtain rfl := Option.some_inj.1 hstep
        exact h.skip hlive hpipe fun _ => lineResponse_blank hblank
      · rename_i hblank
        split at hstep
        · rename_i hnone
          rw [← hphase] at hstep
          obtain rfl := Option.some_inj.1 hstep
          refine h.skip hlive hpipe fun ho => ?_
          rwa [initializeLine_eq hblank (hreadable ho), Option.map_eq_none_iff] at hnone
        · rename_i hdone
          obtain rfl := Option.some_inj.1 hstep
          refine ⟨h.own, fun habandoned => ?_, fun _ _ _ _ hw => by simp at hw⟩
          -- the answer that was expected is taken, and nothing is left to be answered
          have ho := h.orderly habandoned
          rw [initializeLine_eq hblank (hreadable ho), Option.map_eq_some_iff] at hdone
          obtain ⟨answer, hanswer, -⟩ := hdone
          have hin := ho.phase
          rw [hphase] at hin
          obtain ⟨number, hnumber, hexpects⟩ := hin
          obtain ⟨-, -, hlength, hunanswered, hrest⟩ := hexpects.take hpipe hanswer
          exact ⟨fun _ l hl => ho.readable hlive l (hpipe ▸ List.mem_cons_of_mem line hl), hunanswered, hrest,
            hlength.trans hnumber.symm⟩
        · obtain rfl := Option.some_inj.1 hstep
          exact ⟨h.own, fun _ => ⟨fun hgone => absurd rfl hgone, trivial⟩, fun _ _ _ _ hw => by simp at hw⟩

theorem McpSession.inv_read_waiting {s s' : McpSession} (h : s.Inv serde) {id : Int64} {method : String}
    {number abandonedBefore : Nat} (hphase : s.phase = .waiting id method number abandonedBefore)
    (hstep : s.step serde .read = some s') : s'.Inv serde := by
  simp only [McpSession.step, McpSession.read, hphase] at hstep
  cases hpipe : s.pipe with
  | nil => simp [hpipe] at hstep
  | cons line pipe =>
      have hlive : s.phase ≠ .gone := by simp [hphase]
      have hreadable (ho : s.Orderly serde) : ReadableLine serde line :=
        ho.readable hlive line (by simp [hpipe])
      have hexpects (ho : s.Orderly serde) : s.requested = number + 1 ∧ s.Expects serde id number := by
        have hin := ho.phase
        rwa [hphase] at hin
      -- the response in the line, if there is one, is the answer to the call
      have hrequestLine (ho : s.Orderly serde) (hblank : trimText line ≠ "") :=
        requestLine_eq hblank (hreadable ho) id method
          fun answer hanswer => ((hexpects ho).2.take hpipe hanswer).1
      simp only [hpipe] at hstep
      split at hstep
      · rename_i hblank
        rw [← hphase] at hstep
        obtain rfl := Option.some_inj.1 hstep
        exact h.skip hlive hpipe fun _ => lineResponse_blank hblank
      · rename_i hblank
        split at hstep
        · rename_i hnone
          rw [← hphase] at hstep
          obtain rfl := Option.some_inj.1 hstep
          refine h.skip hlive hpipe fun ho => ?_
          rwa [hrequestLine ho hblank, Option.map_eq_none_iff] at hnone
        · rename_i outcome hsome
          obtain rfl := Option.some_inj.1 hstep
          refine ⟨fun c hc hbefore => ?_, fun habandoned => ?_, fun _ _ _ _ hw => by simp at hw⟩
          · rcases List.mem_append.1 hc with hc | hc
            · exact h.own c hc hbefore
            · -- the call that ends here: nothing was abandoned before it, so the session is orderly
              obtain rfl := List.mem_singleton.1 hc
              have ho := h.orderly ((h.since _ _ _ _ hphase).symm.trans hbefore)
              rw [hrequestLine ho hblank, Option.map_eq_some_iff] at hsome
              obtain ⟨answer, hanswer, houtcome⟩ := hsome
              obtain ⟨hid, hown, -⟩ := (hexpects ho).2.take hpipe hanswer
              exact ⟨answer, hown, hid, houtcome.symm⟩
          · have ho := h.orderly habandoned
            rw [hrequestLine ho hblank, Option.map_eq_some_iff] at hsome
            obtain ⟨answer, hanswer, -⟩ := hsome
            obtain ⟨-, -, hlength, hunanswered, hrest⟩ := (hexpects ho).2.take hpipe hanswer
            exact ⟨fun _ l hl => ho.readable hlive l (hpipe ▸ List.mem_cons_of_mem line hl), hunanswered, hrest,
              hlength.trans (hexpects ho).1.symm⟩

theorem McpSession.inv_step {s s' : McpSession} (h : s.Inv serde) {event : McpEvent}
    (hstep : s.step serde event = some s') : s'.Inv serde := by
  cases event with
  | connect params => exact McpSession.inv_connect h hstep
  | call method params => exact McpSession.inv_call h hstep
  | write line => exact McpSession.inv_write h hstep
  | abandon lost => exact McpSession.inv_abandon h hstep
  | read =>
      cases hphase : s.phase with
      | handshake id => exact McpSession.inv_read_handshake h hphase hstep
      | waiting id method number abandonedBefore => exact McpSession.inv_read_waiting h hphase hstep
      | _ =>
          simp only [McpSession.step, McpSession.read, hphase] at hstep
          cases hpipe : s.pipe <;> simp [hpipe] at hstep

theorem McpSession.inv_run {s s' : McpSession} (h : s.Inv serde) {events : List McpEvent}
    (hrun : s.run serde events = some s') : s'.Inv serde := by
  induction events generalizing s with
  | nil =>
      obtain rfl := Option.some_inj.1 hrun
      exact h
  | cons event events ih =>
      rw [McpSession.run, Option.bind_eq_some_iff] at hrun
      obtain ⟨next, hstep, hrest⟩ := hrun
      exact ih (McpSession.inv_step h hstep) hrest

/-- The answer that a waiting call takes is still to be written or in the pipe. -/
theorem McpSession.Expects.exists {s : McpSession} {id : Int64} {number : Nat} (h : s.Expects serde id number) :
    (∃ request ∈ s.unanswered, request.id = id)
      ∨ ∃ answer ∈ s.pipe.filterMap (lineResponse serde), answer.id = id := by
  rcases h with ⟨request, hrequest, hid, -⟩ | ⟨answer, -, hanswer, hid, -⟩
  · exact .inl ⟨request, by simp [hrequest], hid⟩
  · exact .inr ⟨answer, by simp [hanswer], hid⟩

end Session

/-- In every run, a call before which no call was abandoned returns its own answer, and while it waits its
    answer is to come. -/
theorem McpSession.run_own (serde : RpcSerde) (events : List McpEvent) (s : McpSession)
    (hrun : McpSession.new.run serde events = some s) :
    (∀ c ∈ s.finished, c.abandonedBefore = 0 → c.Own s.answers)
      ∧ ∀ id method number, s.phase = .waiting id method number 0 →
        (∃ request ∈ s.unanswered, request.id = id)
          ∨ ∃ answer ∈ s.pipe.filterMap (lineResponse serde), answer.id = id := by
  have hinv := McpSession.inv_run (McpSession.inv_new serde) hrun
  refine ⟨hinv.own, fun id method number hphase => ?_⟩
  have hin := (hinv.orderly (hinv.since id method number 0 hphase).symm).phase
  rw [hphase] at hin
  exact hin.2.exists

/-! ## A call after an abandoned one -/

/-- The response is no error. -/
def RpcResponse.isResult : RpcResponse → Bool
  | .result _ _ => true
  | .error _ _ => false

/-- A handshake. -/
def handshakeEvents : List McpEvent :=
  [.connect (.obj []), .write "\x7b\"id\":1,\"result\":\"\"\x7d", .read]

/-- The first call is abandoned, and its answer is the first line that the second call takes. -/
def staleAnswerEvents : List McpEvent :=
  handshakeEvents ++ [.call "tools/list" none, .abandon 0, .write "\x7b\"id\":2,\"result\":\"\"\x7d",
    .call "tools/list" none, .write "\x7b\"id\":3,\"result\":\"\"\x7d", .read]

theorem staleAnswer_view : ((McpSession.new.run .plain staleAnswerEvents).map fun s =>
      (s.answers.map RpcResponse.isResult, s.finished.map fun c => (c.number, c.outcome.isOk)))
    = some ([true, true, true], [(2, false)]) := by
  decide +kernel

/-- Every request was answered with a result, and the call that returned did not return its own. -/
theorem staleAnswer_not_own : ∃ s, McpSession.new.run .plain staleAnswerEvents = some s
    ∧ ∃ c ∈ s.finished, ¬ c.Own s.answers := by
  obtain ⟨s, hrun, hview⟩ := Option.map_eq_some_iff.1 staleAnswer_view
  obtain ⟨hanswers, hfinished⟩ := Prod.mk.inj hview
  obtain ⟨c, hc, hview⟩ := List.exists_of_mem_map (hfinished ▸ List.mem_cons_self)
  obtain ⟨hnumber, hfailed⟩ := Prod.mk.inj hview
  refine ⟨s, hrun, c, hc, ?_⟩
  rintro ⟨answer, hanswer, -, houtcome⟩
  have hresult : (s.answers.map RpcResponse.isResult)[2]? = some answer.isResult := by
    rw [List.getElem?_map, ← hnumber, hanswer, Option.map_some]
  rw [hanswers] at hresult
  rw [houtcome] at hfailed
  cases answer with
  | result id value => exact absurd hfailed (by simp [RpcResponse.outcome, Except.isOk, Except.toBool])
  | error id e => exact absurd hresult (by simp [RpcResponse.isResult])

/-- A call on a new connection. -/
def firstCallEvents : List McpEvent :=
  handshakeEvents ++ [.call "tools/list" none, .write "\x7b\"id\":2,\"result\":\"\"\x7d", .read]

theorem firstCall_returns :
    ((McpSession.new.run .plain firstCallEvents).map fun s => s.finished.length) = some 1 := by
  decide +kernel

theorem McpSession.run_own_firstCall : ∃ s, McpSession.new.run .plain firstCallEvents = some s
    ∧ s.finished.length = 1
    ∧ (∀ c ∈ s.finished, c.abandonedBefore = 0 → c.Own s.answers)
    ∧ ∀ id method number, s.phase = .waiting id method number 0 →
        (∃ request ∈ s.unanswered, request.id = id)
          ∨ ∃ answer ∈ s.pipe.filterMap (lineResponse .plain), answer.id = id := by
  obtain ⟨s, hrun, hfinished⟩ := Option.map_eq_some_iff.1 firstCall_returns
  exact ⟨s, hrun, hfinished, McpSession.run_own .plain firstCallEvents s hrun⟩

end Godwit
