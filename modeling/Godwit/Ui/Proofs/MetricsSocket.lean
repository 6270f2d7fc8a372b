import Mathlib.Order.Nat
import Mathlib.Data.List.Count
import Godwit.Ui.MetricsSocket

set_option autoImplicit false

/-! # One socket, one timer, three reconnects

A page is idle, connected or waiting for its reconnect timer. Only a connected page has a socket that is not dead,
the current one, and only a waiting page has a reconnect timer. The retry count bounds the reconnects since it was
set to zero. -/

namespace Godwit.Ui

/-! ## Dead sockets -/

/-- Not live, and without the handlers that start a reconnect. -/
structure WebSocket.Dead (ws : WebSocket) : Prop where
  live : ws.live = false
  onclose : ws.onclose = false
  onerror : ws.onerror = false

namespace WebSocket

variable {ws : WebSocket}

theorem Dead.setOpen (h : ws.Dead) : ws.setOpen.Dead := ⟨h.live, h.onclose, h.onerror⟩

theorem Dead.setEnded (h : ws.Dead) : ws.setEnded.Dead := ⟨by simp [WebSocket.live, WebSocket.setEnded], h.onclose, h.onerror⟩

theorem Dead.send (h : ws.Dead) (message : String) :
    (if ws.readyState = .open then { ws with sent := ws.sent ++ [message] } else ws).Dead := by
  split
  · exact ⟨h.live, h.onclose, h.onerror⟩
  · exact h

theorem dead_detached (ws : WebSocket) : ({ ws with onclose := false, onerror := false }.close).Dead :=
  ⟨rfl, rfl, rfl⟩

end WebSocket

/-- A change of sockets that brings no dead one back. -/
def KeepsDead (f : WebSocket → WebSocket) : Prop := ∀ ws : WebSocket, ws.Dead → (f ws).Dead

theorem getElem?_modify_eq_some {α : Type} {l : List α} {f : α → α} {i j : Nat} {b : α}
    (h : (l.modify i f)[j]? = some b) : ∃ a, l[j]? = some a ∧ b = if i = j then f a else a := by
  rw [List.getElem?_modify] at h
  obtain ⟨a, ha, rfl⟩ := Option.map_eq_some_iff.1 h
  exact ⟨a, ha, rfl⟩

/-- What a page is doing. -/
inductive MetricsPhase where
  | idle
  | connected
  | waiting
  deriving DecidableEq, Repr

/-- Where one index at most satisfies a condition, the condition is met once at most. -/
theorem countP_le_one {α : Type} {q : α → Bool} {l : List α}
    (h : ∀ (i j : Nat) (a b : α), l[i]? = some a → l[j]? = some b → q a = true → q b = true → i = j) : l.countP q ≤ 1 := by
  induction l with
  | nil => simp
  | cons a l ih =>
      rw [List.countP_cons]
      cases ha : q a with
      | false => simpa using ih fun i j b c hb hc hqb hqc => by simpa using h (i + 1) (j + 1) b c hb hc hqb hqc
      | true =>
          have hnone : l.countP q = 0 := by
            rw [List.countP_eq_zero]
            intro b hb hqb
            obtain ⟨j, hj⟩ := List.mem_iff_getElem?.1 hb
            have hzero := h 0 (j + 1) a b rfl hj ha hqb
            omega
          simp [hnone]

namespace MetricsPage

variable {p : MetricsPage}

/-! ## The phases of a page -/

/-- Every socket but the current one is dead. -/
def OnlyCurrent (p : MetricsPage) : Prop :=
  ∀ (i : Nat) (ws : WebSocket), p.sockets[i]? = some ws → ws.Dead ∨ p.ws = some i

/-- No socket can deliver anything. -/
def AllDead (p : MetricsPage) : Prop := ∀ (i : Nat) (ws : WebSocket), p.sockets[i]? = some ws → ws.Dead

/-- Nothing is open and no timer runs. -/
structure Idle (p : MetricsPage) : Prop where
  dead : p.AllDead
  timers : p.timers = []

/-- One socket is in use; the only timer is the one of its connection. -/
structure Connected (p : MetricsPage) : Prop where
  closed : p.closed = false
  current : p.OnlyCurrent
  timers : ∀ t ∈ p.timers, t.callback = .connectTimeout ∧ p.connectTimer = some t.id

/-- No socket is in use; the only timer is the one of the next attempt. -/
structure Waiting (p : MetricsPage) : Prop where
  closed : p.closed = false
  dead : p.AllDead
  timers : ∀ t ∈ p.timers, t.callback = .reconnect ∧ p.reconnectTimer = some t.id
  single : p.timers.length ≤ 1

/-- The page is in a phase. -/
def In (p : MetricsPage) : MetricsPhase → Prop
  | .idle => p.Idle
  | .connected => p.Connected
  | .waiting => p.Waiting

variable {phase : MetricsPhase}

/-! ## Changes that stay in the phase -/

theorem AllDead.modify (h : p.AllDead) {i : Nat} {f : WebSocket → WebSocket} (hf : KeepsDead f) {j : Nat}
    {ws : WebSocket} (hws : (p.sockets.modify i f)[j]? = some ws) : ws.Dead := by
  obtain ⟨old, hold, rfl⟩ := getElem?_modify_eq_some hws
  split
  · exact hf old (h j old hold)
  · exact h j old hold

theorem OnlyCurrent.modify (h : p.OnlyCurrent) {i : Nat} {f : WebSocket → WebSocket} (hf : KeepsDead f) {j : Nat}
    {ws : WebSocket} (hws : (p.sockets.modify i f)[j]? = some ws) : ws.Dead ∨ p.ws = some j := by
  obtain ⟨old, hold, rfl⟩ := getElem?_modify_eq_some hws
  rcases h j old hold with hdead | hcurrent
  · left
    split
    · exact hf old hdead
    · exact hdead
  · exact .inr hcurrent

theorem In.deliver (h : p.In phase) {f : WebSocket → WebSocket} (hf : KeepsDead f) (i : Nat) :
    (p.deliver i f).In phase := by
  cases phase with
  | idle => exact ⟨fun _ _ => h.dead.modify hf, h.timers⟩
  | connected => exact ⟨h.closed, fun _ _ => h.current.modify hf, h.timers⟩
  | waiting => exact ⟨h.closed, fun _ _ => h.dead.modify hf, h.timers, h.single⟩

theorem mem_clearTimeout {timer : Option Nat} {t : Timer} :
    t ∈ (p.clearTimeout timer).timers ↔ t ∈ p.timers ∧ some t.id ≠ timer := by
  simp [clearTimeout]

theorem In.clearTimeout (h : p.In phase) (timer : Option Nat) : (p.clearTimeout timer).In phase := by
  cases phase with
  | idle => exact ⟨h.dead, by simp [MetricsPage.clearTimeout, h.timers]⟩
  | connected => exact ⟨h.closed, h.current, fun t ht => h.timers t (mem_clearTimeout.1 ht).1⟩
  | waiting =>
      exact ⟨h.closed, h.dead, fun t ht => h.timers t (mem_clearTimeout.1 ht).1,
        (List.length_filter_le _ _).trans h.single⟩

theorem In.send (h : p.In phase) (message : String) : (p.send message).In phase := by
  unfold MetricsPage.send
  cases p.ws with
  | none => exact h
  | some i => exact h.deliver (fun ws hws => hws.send message) i

/-- A message changes sockets only. -/
theorem send_eq (p : MetricsPage) (message : String) :
    ∃ sockets, p.send message = { p with sockets } ∧ sockets.length = p.sockets.length := by
  unfold MetricsPage.send
  cases p.ws with
  | none => exact ⟨p.sockets, rfl, rfl⟩
  | some i => exact ⟨_, rfl, List.length_modify ..⟩

/-- Other fields do not matter. -/
theorem In.congr {q : MetricsPage} (h : p.In phase) (hws : q.ws = p.ws) (hsockets : q.sockets = p.sockets)
    (htimers : q.timers = p.timers) (hconnect : q.connectTimer = p.connectTimer)
    (hreconnect : q.reconnectTimer = p.reconnectTimer) (hclosed : q.closed = p.closed) : q.In phase := by
  cases phase with
  | idle => exact ⟨by rw [AllDead, hsockets]; exact h.dead, htimers.trans h.timers⟩
  | connected =>
      exact ⟨hclosed.trans h.closed, by rw [OnlyCurrent, hsockets, hws]; exact h.current,
        by rw [htimers, hconnect]; exact h.timers⟩
  | waiting =>
      exact ⟨hclosed.trans h.closed, by rw [AllDead, hsockets]; exact h.dead,
        by rw [htimers, hreconnect]; exact h.timers, by rw [htimers]; exact h.single⟩

theorem In.onopen (h : p.In phase) : p.onopen.In phase := by
  have hcleared := h.clearTimeout p.connectTimer
  have hopen : ({ p.clearTimeout p.connectTimer with status := .open, retryCount := 0 } : MetricsPage).In phase :=
    hcleared.congr rfl rfl rfl rfl rfl rfl
  exact hopen.send subscribeMessage

/-- An open event sets the retry count to zero. -/
theorem onopen_fields (p : MetricsPage) :
    p.onopen.retryCount = 0 ∧ p.onopen.failures = p.failures ∧ p.onopen.sockets.length = p.sockets.length := by
  obtain ⟨sockets, hsend, hlength⟩ :=
    send_eq { p.clearTimeout p.connectTimer with status := .open, retryCount := 0 } subscribeMessage
  have honopen : p.onopen = { { p.clearTimeout p.connectTimer with status := .open, retryCount := 0 } with sockets } :=
    hsend
  rw [honopen]
  exact ⟨rfl, rfl, hlength⟩

theorem subscribe_eq (p : MetricsPage) (listener : Nat) :
    ∃ listeners, p.subscribe listener = { p with listeners } := by
  unfold MetricsPage.subscribe
  split
  · exact ⟨p.listeners, rfl⟩
  · exact ⟨_, rfl⟩

theorem onmessage_eq (p : MetricsPage) (data : Option IncomingMessage) :
    ∃ dispatched, p.onmessage data = { p with dispatched } := by
  unfold MetricsPage.onmessage
  split
  · split
    · split
      · exact ⟨_, rfl⟩
      · exact ⟨p.dispatched, rfl⟩
    · exact ⟨p.dispatched, rfl⟩
  · exact ⟨p.dispatched, rfl⟩

/-! ## Changes of the phase -/

/-- A connected page has only the timer that `connectTimer` names. -/
theorem Connected.cleared (h : p.Connected) : (p.clearTimeout p.connectTimer).timers = [] := by
  refine List.eq_nil_iff_forall_not_mem.2 fun t ht => ?_
  obtain ⟨hmem, hne⟩ := mem_clearTimeout.1 ht
  exact hne (h.timers t hmem).2.symm

theorem AllDead.onlyCurrent (h : p.AllDead) : p.OnlyCurrent := fun i ws hws => .inl (h i ws hws)

theorem In.onlyCurrent (h : p.In phase) : p.OnlyCurrent := by
  cases phase with
  | idle => exact AllDead.onlyCurrent h.dead
  | connected => exact h.current
  | waiting => exact AllDead.onlyCurrent h.dead

/-- The current socket is dead once it is detached. -/
theorem OnlyCurrent.detach (h : p.OnlyCurrent) : p.detach.AllDead := by
  intro j ws hws
  unfold MetricsPage.detach at hws
  cases hcurrent : p.ws with
  | none =>
      rw [hcurrent] at hws
      rcases h j ws hws with hdead | hj
      · exact hdead
      · rw [hcurrent] at hj
        cases hj
  | some i =>
      rw [hcurrent] at hws
      obtain ⟨old, hold, rfl⟩ := getElem?_modify_eq_some hws
      split
      · exact WebSocket.dead_detached old
      · rename_i hij
        rcases h j old hold with hdead | hj
        · exact hdead
        · rw [hcurrent] at hj
          exact absurd (Option.some.inj hj) hij

/-- `detach` changes sockets only. -/
theorem detach_eq (p : MetricsPage) :
    ∃ sockets, p.detach = { p with sockets } ∧ sockets.length = p.sockets.length := by
  unfold MetricsPage.detach
  cases p.ws with
  | none => exact ⟨p.sockets, rfl, rfl⟩
  | some i => exact ⟨_, rfl, List.length_modify ..⟩

/-- A page without live sockets and timers opens one. -/
theorem Idle.openSocket (h : p.Idle) (hopen : p.closed = false) : p.openSocket.Connected := by
  unfold MetricsPage.openSocket
  rw [if_neg (by simp [hopen])]
  refine ⟨hopen, fun i ws hws => ?_, fun t ht => ?_⟩
  · have hsocket : (p.sockets ++ [WebSocket.new])[i]? = some ws := hws
    rcases Nat.lt_trichotomy i p.sockets.length with hlt | rfl | hgt
    · rw [List.getElem?_append_left hlt] at hsocket
      exact .inl (h.dead i ws hsocket)
    · exact .inr rfl
    · rw [List.getElem?_eq_none (by simp; omega)] at hsocket
      cases hsocket
  · have htimers : t ∈ p.timers ++ [⟨p.nextTimer, .connectTimeout, 5000⟩] := ht
    rw [h.timers, List.nil_append, List.mem_singleton] at htimers
    subst htimers
    exact ⟨rfl, rfl⟩

/-- A failure of a connected page sets the reconnect timer, or gives up when there is no delay left. -/
theorem Connected.handleFailure (h : p.Connected) :
    p.handleFailure.sockets.length = p.sockets.length ∧
      ((p.handleFailure.Waiting ∧ p.handleFailure.retryCount = p.retryCount + 1 ∧ p.handleFailure.retryCount ≤ 3
          ∧ p.handleFailure.failures = p.failures)
        ∨ p.handleFailure.Idle ∧ p.handleFailure.retryCount = p.retryCount
          ∧ p.handleFailure.failures = p.failures + 1) := by
  have hdead := OnlyCurrent.detach (p := p.clearTimeout p.connectTimer) h.current
  obtain ⟨sockets, hdetach, hlength⟩ := detach_eq (p.clearTimeout p.connectTimer)
  unfold MetricsPage.handleFailure
  rw [if_neg (by simp [h.closed]), hdetach]
  rw [hdetach] at hdead
  have htimers := h.cleared
  dsimp only
  split
  · rename_i delay hdelay
    have hlt : p.retryCount < 3 := (List.getElem?_eq_some_iff.1 hdelay).1
    refine ⟨hlength, .inl ⟨?_, rfl, hlt, rfl⟩⟩
    refine ⟨h.closed, hdead, fun t ht => ?_, ?_⟩
    · have ht' : t ∈ (p.clearTimeout p.connectTimer).timers ++ [⟨p.nextTimer, .reconnect, delay⟩] := ht
      rw [htimers, List.nil_append, List.mem_singleton] at ht'
      subst ht'
      exact ⟨rfl, rfl⟩
    · have hsingle : ((p.clearTimeout p.connectTimer).timers ++ [Timer.mk p.nextTimer .reconnect delay]).length = 1 := by
        rw [htimers]
        rfl
      exact hsingle.le
  · exact ⟨hlength, .inr ⟨⟨hdead, htimers⟩, rfl, rfl⟩⟩

/-- After `close` the page is idle. -/
theorem In.close (h : p.In phase) : p.close.Idle ∧ p.close.sockets.length = p.sockets.length
    ∧ p.close.retryCount = p.retryCount := by
  let q := ({ p with closed := true }.clearTimeout p.connectTimer).clearTimeout p.reconnectTimer
  have hdead : q.detach.AllDead := OnlyCurrent.detach (p := q) h.onlyCurrent
  obtain ⟨sockets, hdetach, hlength⟩ := detach_eq q
  have htimers : q.timers = [] := by
    refine List.eq_nil_iff_forall_not_mem.2 fun t ht => ?_
    obtain ⟨hmem, hreconnect⟩ := mem_clearTimeout.1 ht
    obtain ⟨hmem, hconnect⟩ := mem_clearTimeout.1 hmem
    cases phase with
    | idle => simp [show p.timers = [] from h.timers] at hmem
    | connected => exact hconnect (h.timers t hmem).2.symm
    | waiting => exact hreconnect (h.timers t hmem).2.symm
  have hclose : p.close = { q.detach with ws := none, listeners := [] } := rfl
  rw [hclose]
  refine ⟨⟨hdead, ?_⟩, ?_, ?_⟩
  · rw [hdetach]
    exact htimers
  · rw [hdetach]
    exact hlength
  · rw [hdetach]
    rfl

/-- `connect` opens a socket. -/
theorem Idle.connect (h : p.Idle) : p.connect.Connected ∧ p.connect.retryCount = 0 := by
  have hidle : ({ p with closed := false, retryCount := 0 } : MetricsPage).Idle := ⟨h.dead, h.timers⟩
  exact ⟨hidle.openSocket rfl, rfl⟩

/-- The only timer of a waiting page opens the next socket. -/
theorem Waiting.fire (h : p.Waiting) {t : Timer} (ht : t ∈ p.timers) :
    t.callback = .reconnect ∧ (p.fire t).Connected ∧ (p.fire t).retryCount = p.retryCount
      ∧ (p.fire t).failures = p.failures := by
  have hcallback := (h.timers t ht).1
  have hnone : p.timers.erase t = [] := by
    have hlength := List.length_erase_of_mem ht
    have hsingle := h.single
    exact List.eq_nil_of_length_eq_zero (by omega)
  have hidle : ({ p with timers := p.timers.erase t } : MetricsPage).Idle := ⟨h.dead, hnone⟩
  have hfire : p.fire t = ({ p with timers := p.timers.erase t } : MetricsPage).openSocket := by
    rw [MetricsPage.fire, hcallback]
  have hopen : ({ p with timers := p.timers.erase t } : MetricsPage).openSocket.retryCount = p.retryCount
      ∧ ({ p with timers := p.timers.erase t } : MetricsPage).openSocket.failures = p.failures := by
    unfold MetricsPage.openSocket
    rw [if_neg (by simp [h.closed])]
    exact ⟨rfl, rfl⟩
  rw [hfire]
  exact ⟨hcallback, hidle.openSocket h.closed, hopen⟩

/-- The only timer of a connected page is a failure. -/
theorem Connected.fire (h : p.Connected) {t : Timer} (ht : t ∈ p.timers) :
    t.callback = .connectTimeout
      ∧ ∃ q : MetricsPage, q.Connected ∧ q.retryCount = p.retryCount ∧ q.failures = p.failures
        ∧ q.sockets = p.sockets ∧ p.fire t = q.handleFailure := by
  have hcallback := (h.timers t ht).1
  refine ⟨hcallback, { p with timers := p.timers.erase t }, ⟨h.closed, h.current, fun t' ht' => ?_⟩, rfl, rfl, rfl, ?_⟩
  · exact h.timers t' (List.mem_of_mem_erase ht')
  · rw [MetricsPage.fire, hcallback]

end MetricsPage

/-! ## What a step can do -/

/-- The page connects. -/
def MetricsEvent.isConnect : MetricsEvent → Bool
  | .connect => true
  | _ => false

/-- A socket opens. -/
def MetricsEvent.isOpened : MetricsEvent → Bool
  | .opened _ => true
  | _ => false

/-- The reconnect timer fires. -/
def MetricsEvent.isReconnect : MetricsEvent → Bool
  | .timer t => t.callback = .reconnect
  | _ => false

namespace MetricsRun

/-- The phase of the page; `connect` may be called where it is idle. -/
structure In (r : MetricsRun) (phase : MetricsPhase) : Prop where
  page : r.page.In phase
  mayConnect : r.mayConnect = decide (phase = .idle)

/-- What an event can do, phase by phase. -/
inductive Moves (r r' : MetricsRun) : MetricsPhase → MetricsEvent → MetricsPhase → Prop
  | stays {phase : MetricsPhase} {e : MetricsEvent} (hsockets : r'.page.sockets.length = r.page.sockets.length)
      (hretry : r'.page.retryCount = r.page.retryCount) (hconnect : e.isConnect = false)
      (hreconnect : e.isReconnect = false) : Moves r r' phase e phase
  | opened {phase : MetricsPhase} {i : Nat} (hsockets : r'.page.sockets.length = r.page.sockets.length)
      (hretry : r'.page.retryCount = 0) : Moves r r' phase (.opened i) phase
  | connects (hretry : r'.page.retryCount = 0) : Moves r r' .idle .connect .connected
  | closes {phase : MetricsPhase} (hsockets : r'.page.sockets.length = r.page.sockets.length)
      (hretry : r'.page.retryCount = r.page.retryCount) : Moves r r' phase .close .idle
  | fails {e : MetricsEvent} (hretry : r'.page.retryCount = r.page.retryCount + 1) (hle : r'.page.retryCount ≤ 3)
      (hreconnect : e.isReconnect = false) : Moves r r' .connected e .waiting
  | givesUp {e : MetricsEvent} (hretry : r'.page.retryCount = r.page.retryCount)
      (hreconnect : e.isReconnect = false) : Moves r r' .connected e .idle
  | reconnects {e : MetricsEvent} (hretry : r'.page.retryCount = r.page.retryCount) (hreconnect : e.isReconnect = true) :
      Moves r r' .waiting e .connected

variable {r r' : MetricsRun} {phase : MetricsPhase}

theorem In.goOn (h : r.In phase) {p : MetricsPage} (hp : p.In phase) (hfailures : p.failures = r.page.failures) :
    (r.goOn p).In phase :=
  ⟨hp, by simp [MetricsRun.goOn, h.mayConnect, hfailures]⟩

/-- A failure of a connected page. -/
theorem moves_failure (h : r.In .connected) {p : MetricsPage} (hp : p.Connected)
    (hretry : p.retryCount = r.page.retryCount) (hfailures : p.failures = r.page.failures) {e : MetricsEvent}
    (hreconnect : e.isReconnect = false) :
    ∃ phase', (r.goOn p.handleFailure).In phase' ∧ Moves r (r.goOn p.handleFailure) .connected e phase' := by
  obtain ⟨-, ⟨hwaiting, hcount, hle, hsame⟩ | ⟨hidle, hcount, hmore⟩⟩ := hp.handleFailure
  · refine ⟨.waiting, ⟨hwaiting, ?_⟩, .fails (hcount.trans (by rw [hretry])) hle hreconnect⟩
    simp [MetricsRun.goOn, h.mayConnect, hsame, hfailures]
  · refine ⟨.idle, ⟨hidle, ?_⟩, .givesUp (hcount.trans hretry) hreconnect⟩
    simp [MetricsRun.goOn, hmore, hfailures]

/-- A close or error event starts a reconnect only of a connected page: the handler of another socket is gone. -/
theorem moves_ended (h : r.In phase) {i : Nat} {ws : WebSocket} (hws : r.page.sockets[i]? = some ws) {handler : Bool}
    (hdead : ws.Dead → handler = false) {e : MetricsEvent} (hconnect : e.isConnect = false)
    (hreconnect : e.isReconnect = false) :
    ∃ phase', (r.goOn (if handler then (r.page.deliver i WebSocket.setEnded).handleFailure
        else r.page.deliver i WebSocket.setEnded)).In phase'
      ∧ Moves r (r.goOn (if handler then (r.page.deliver i WebSocket.setEnded).handleFailure
        else r.page.deliver i WebSocket.setEnded)) phase e phase' := by
  have hdelivered := h.page.deliver (f := WebSocket.setEnded) (fun ws hws => hws.setEnded) i
  have hstays : ∃ phase', (r.goOn (r.page.deliver i WebSocket.setEnded)).In phase'
      ∧ Moves r (r.goOn (r.page.deliver i WebSocket.setEnded)) phase e phase' :=
    ⟨phase, h.goOn hdelivered rfl, .stays (List.length_modify ..) rfl hconnect hreconnect⟩
  cases handler with
  | false => exact hstays
  | true =>
      cases phase with
      | idle => cases hdead (h.page.dead i ws hws)
      | waiting => cases hdead (h.page.dead i ws hws)
      | connected => exact moves_failure h hdelivered rfl rfl hreconnect

/-- An open event stays in the phase, whichever socket it is of. -/
theorem In.opened (h : r.In phase) {i : Nat} (hstep : r.step (.opened i) = some r') :
    r'.In phase ∧ r'.page.retryCount = 0 ∧ r'.page.sockets.length = r.page.sockets.length := by
  obtain ⟨ws, -, rfl⟩ := Option.map_eq_some_iff.1 hstep
  have hopened := (h.page.deliver (f := WebSocket.setOpen) (fun ws hws => hws.setOpen) i).onopen
  obtain ⟨hretry, hfailures, hsockets⟩ := (r.page.deliver i WebSocket.setOpen).onopen_fields
  exact ⟨h.goOn hopened hfailures, hretry, hsockets.trans (List.length_modify ..)⟩

theorem In.connect (h : r.In phase) (hstep : r.step .connect = some r') :
    phase = .idle ∧ r'.In .connected ∧ r'.page.retryCount = 0 := by
  simp only [MetricsRun.step, Option.ite_none_right_eq_some, Option.some.injEq] at hstep
  obtain ⟨hmay, rfl⟩ := hstep
  obtain rfl : phase = .idle := by simpa [h.mayConnect] using hmay
  obtain ⟨hconnected, hretry⟩ := h.page.connect
  exact ⟨rfl, ⟨hconnected, rfl⟩, hretry⟩

/-- Every event moves a page from phase to phase. -/
theorem In.step (h : r.In phase) {e : MetricsEvent} (hstep : r.step e = some r') :
    ∃ phase', r'.In phase' ∧ Moves r r' phase e phase' := by
  cases e with
  | connect =>
      obtain ⟨rfl, hconnected, hretry⟩ := h.connect hstep
      exact ⟨.connected, hconnected, .connects hretry⟩
  | close =>
      obtain rfl := Option.some.inj hstep
      obtain ⟨hidle, hsockets, hretry⟩ := h.page.close
      exact ⟨.idle, ⟨hidle, rfl⟩, .closes hsockets hretry⟩
  | subscribe listener =>
      obtain rfl := Option.some.inj hstep
      obtain ⟨listeners, heq⟩ := r.page.subscribe_eq listener
      rw [heq]
      exact ⟨phase, h.goOn (h.page.congr rfl rfl rfl rfl rfl rfl) rfl, .stays rfl rfl rfl rfl⟩
  | unsubscribe listener =>
      obtain rfl := Option.some.inj hstep
      exact ⟨phase, h.goOn (h.page.congr rfl rfl rfl rfl rfl rfl) rfl, .stays rfl rfl rfl rfl⟩
  | opened i =>
      obtain ⟨hin, hretry, hsockets⟩ := h.opened hstep
      exact ⟨phase, hin, .opened hsockets hretry⟩
  | message i data =>
      obtain ⟨ws, -, rfl⟩ := Option.map_eq_some_iff.1 hstep
      obtain ⟨dispatched, heq⟩ := r.page.onmessage_eq data
      rw [heq]
      exact ⟨phase, h.goOn (h.page.congr rfl rfl rfl rfl rfl rfl) rfl, .stays rfl rfl rfl rfl⟩
  | errored i =>
      obtain ⟨ws, hws, rfl⟩ := Option.map_eq_some_iff.1 hstep
      exact moves_ended h hws (fun hdead => hdead.onerror) rfl rfl
  | ended i =>
      obtain ⟨ws, hws, rfl⟩ := Option.map_eq_some_iff.1 hstep
      exact moves_ended h hws (fun hdead => hdead.onclose) rfl rfl
  | timer t =>
      simp only [MetricsRun.step, Option.ite_none_right_eq_some, Option.some.injEq] at hstep
      obtain ⟨ht, rfl⟩ := hstep
      cases phase with
      | idle => simp [show r.page.timers = [] from h.page.timers] at ht
      | connected =>
          obtain ⟨hcallback, q, hq, hretry, hfailures, -, hfire⟩ := MetricsPage.Connected.fire h.page ht
          rw [hfire]
          exact moves_failure h hq hretry hfailures (by simp [MetricsEvent.isReconnect, hcallback])
      | waiting =>
          obtain ⟨hcallback, hconnected, hretry, hfailures⟩ := MetricsPage.Waiting.fire h.page ht
          refine ⟨.connected, ⟨hconnected, ?_⟩, .reconnects hretry (by simp [MetricsEvent.isReconnect, hcallback])⟩
          simp [MetricsRun.goOn, h.mayConnect, hfailures]

/-! ## Runs -/

theorem new_in : MetricsRun.new.In .idle := ⟨⟨by simp [MetricsPage.AllDead, MetricsRun.new, MetricsPage.new], rfl⟩, rfl⟩

theorem In.run (h : r.In phase) {events : List MetricsEvent} (hrun : r.run events = some r') :
    ∃ phase', r'.In phase' := by
  induction events generalizing r phase with
  | nil =>
      obtain rfl := Option.some.inj hrun
      exact ⟨phase, h⟩
  | cons e rest ih =>
      obtain ⟨next, hstep, hrest⟩ := Option.bind_eq_some_iff.1 hrun
      obtain ⟨phase', hnext, -⟩ := h.step hstep
      exact ih hnext hrest

theorem run_append {first second : List MetricsEvent} (h : r.run (first ++ second) = some r') :
    ∃ middle, r.run first = some middle ∧ middle.run second = some r' := by
  induction first generalizing r with
  | nil => exact ⟨r, rfl, h⟩
  | cons e rest ih =>
      obtain ⟨next, hstep, hrest⟩ := Option.bind_eq_some_iff.1 h
      obtain ⟨middle, hfirst, hsecond⟩ := ih hrest
      exact ⟨middle, Option.bind_eq_some_iff.2 ⟨next, hstep, hfirst⟩, hsecond⟩

/-- An idle page opens no socket until `connect` is called. -/
theorem In.run_idle (h : r.In .idle) {events : List MetricsEvent} (hrun : r.run events = some r')
    (hconnect : ∀ e ∈ events, e.isConnect = false) : r'.page.sockets.length = r.page.sockets.length := by
  induction events generalizing r with
  | nil =>
      obtain rfl := Option.some.inj hrun
      rfl
  | cons e rest ih =>
      obtain ⟨hnot, hlater⟩ := List.forall_mem_cons.1 hconnect
      obtain ⟨next, hstep, hrest⟩ := Option.bind_eq_some_iff.1 hrun
      obtain ⟨phase', hnext, hmoves⟩ := h.step hstep
      cases hmoves with
      | stays hsockets | opened hsockets | closes hsockets => exact (ih hnext hrest hlater).trans hsockets
      | connects => cases hnot

/-- The reconnects of a run. -/
def reconnects (events : List MetricsEvent) : Nat := events.countP MetricsEvent.isReconnect

/-- The reconnects that are due in a phase. -/
def due : MetricsPhase → Nat
  | .waiting => 1
  | _ => 0

/-- Until an open event or a `connect`, the retry count bounds the reconnects that have happened or are due. -/
theorem In.run_reconnects (h : r.In phase) {n : Nat} (hcount : n + due phase ≤ r.page.retryCount)
    (hle : r.page.retryCount ≤ 3) {events : List MetricsEvent} (hrun : r.run events = some r')
    (hquiet : ∀ e ∈ events, e.isOpened = false ∧ e.isConnect = false) : n + reconnects events ≤ 3 := by
  induction events generalizing r phase n with
  | nil =>
      rw [reconnects, List.countP_nil]
      omega
  | cons e rest ih =>
      obtain ⟨⟨hopened, hconnect⟩, hlater⟩ := List.forall_mem_cons.1 hquiet
      obtain ⟨next, hstep, hrest⟩ := Option.bind_eq_some_iff.1 hrun
      obtain ⟨phase', hnext, hmoves⟩ := h.step hstep
      have hrestcount : reconnects (e :: rest) = reconnects rest + if e.isReconnect then 1 else 0 :=
        List.countP_cons
      cases hmoves with
      | stays _ hretry _ hreconnect =>
          have := ih (n := n) hnext (by omega) (by omega) hrest hlater
          rwa [hrestcount, hreconnect]
      | closes _ hretry =>
          have := ih (n := n) hnext (by simp only [due]; omega) (by omega) hrest hlater
          rwa [hrestcount]
      | fails hretry hbound hreconnect =>
          have := ih (n := n) hnext (by simp only [due] at hcount ⊢; omega) hbound hrest hlater
          rwa [hrestcount, hreconnect]
      | givesUp hretry hreconnect =>
          have := ih (n := n) hnext (by simp only [due] at hcount ⊢; omega) (by omega) hrest hlater
          rwa [hrestcount, hreconnect]
      | reconnects hretry hreconnect =>
          have := ih (n := n + 1) hnext (by simp only [due] at hcount ⊢; omega) (by omega) hrest hlater
          rw [hrestcount, hreconnect, if_pos rfl]
          omega
      | opened => cases hopened
      | connects => cases hconnect

/-- The sockets that are live. -/
def liveSockets (r : MetricsRun) : Nat := r.page.sockets.countP WebSocket.live

/-- The reconnect timers that are pending. -/
def pendingReconnects (r : MetricsRun) : Nat := r.page.timers.countP fun t => t.callback = .reconnect

theorem In.liveSockets_le (h : r.In phase) : r.liveSockets ≤ 1 := by
  have hcurrent := h.page.onlyCurrent
  have hlive : ∀ (i : Nat) (ws : WebSocket), r.page.sockets[i]? = some ws → ws.live = true → r.page.ws = some i := by
    intro i ws hws hlive
    rcases hcurrent i ws hws with hdead | hi
    · rw [hdead.live] at hlive
      cases hlive
    · exact hi
  exact countP_le_one fun i j a b ha hb hqa hqb =>
    Option.some.inj ((hlive i a ha hqa).symm.trans (hlive j b hb hqb))

theorem In.pendingReconnects_le (h : r.In phase) : r.pendingReconnects ≤ 1 := by
  cases phase with
  | idle => simp [pendingReconnects, show r.page.timers = [] from h.page.timers]
  | connected =>
      have hnone : r.pendingReconnects = 0 := List.countP_eq_zero.2 fun t ht => by simp [(h.page.timers t ht).1]
      rw [hnone]
      exact Nat.zero_le 1
  | waiting => exact List.countP_le_length.trans h.page.single

/-- Only a connected page has a live socket. -/
theorem In.connected_of_live (h : r.In phase) {i : Nat} {ws : WebSocket} (hws : r.page.sockets[i]? = some ws)
    (hlive : ws.live = true) : phase = .connected := by
  cases phase with
  | idle =>
      rw [(h.page.dead i ws hws).live] at hlive
      cases hlive
  | connected => rfl
  | waiting =>
      rw [(h.page.dead i ws hws).live] at hlive
      cases hlive

/-- The event is a `connect`, or an open event of a live socket. -/
def Restarts (r : MetricsRun) (e : MetricsEvent) : Prop :=
  e = .connect ∨ ∃ i ws, e = .opened i ∧ r.page.sockets[i]? = some ws ∧ ws.live = true

/-- After such an event the page is connected, and has no retry behind it. -/
theorem In.restarted (h : r.In phase) {e : MetricsEvent} (he : r.Restarts e) (hstep : r.step e = some r') :
    r'.In .connected ∧ r'.page.retryCount = 0 := by
  rcases he with rfl | ⟨i, ws, rfl, hws, hlive⟩
  · exact (h.connect hstep).2
  · obtain rfl := h.connected_of_live hws hlive
    obtain ⟨hin, hretry, -⟩ := h.opened hstep
    exact ⟨hin, hretry⟩

/-! ## The results together -/

/-- In every run one socket at most is live and one reconnect timer at most is pending; from a `connect` or an open
    event of a live socket on, three reconnects at most happen until the next `connect` or open event; and from a
    `close` on no socket is opened until the next `connect`. -/
theorem run_bounded {events : List MetricsEvent} (hrun : MetricsRun.new.run events = some r) :
    r.liveSockets ≤ 1 ∧ r.pendingReconnects ≤ 1
      ∧ (∀ before e stretch start, events = before ++ e :: stretch → MetricsRun.new.run before = some start →
          start.Restarts e → (∀ e' ∈ stretch, e'.isOpened = false ∧ e'.isConnect = false) → reconnects stretch ≤ 3)
      ∧ ∀ before stretch start, events = before ++ .close :: stretch → MetricsRun.new.run before = some start →
          (∀ e ∈ stretch, e.isConnect = false) → r.page.sockets.length = start.page.sockets.length := by
  obtain ⟨phase, hin⟩ := new_in.run hrun
  refine ⟨hin.liveSockets_le, hin.pendingReconnects_le, ?_, ?_⟩
  · rintro before e stretch start rfl hbefore hrestarts hquiet
    obtain ⟨middle, hfirst, hsecond⟩ := run_append hrun
    obtain rfl := Option.some.inj (hbefore.symm.trans hfirst)
    obtain ⟨next, hstep, hrest⟩ := Option.bind_eq_some_iff.1 hsecond
    obtain ⟨phase', hstart⟩ := new_in.run hbefore
    obtain ⟨hnext, hretry⟩ := hstart.restarted hrestarts hstep
    simpa using hnext.run_reconnects (n := 0) (by simp [due]) (by omega) hrest hquiet
  · rintro before stretch start rfl hbefore hconnect
    obtain ⟨middle, hfirst, hsecond⟩ := run_append hrun
    obtain rfl := Option.some.inj (hbefore.symm.trans hfirst)
    obtain ⟨next, hstep, hrest⟩ := Option.bind_eq_some_iff.1 hsecond
    obtain ⟨phase', hstart⟩ := new_in.run hbefore
    obtain rfl := Option.some.inj hstep
    obtain ⟨hidle, hsockets, -⟩ := hstart.page.close
    have hclosed : (MetricsRun.mk start.page.close true).In .idle := ⟨hidle, rfl⟩
    exact (hclosed.run_idle hrest hconnect).trans hsockets

/-- A socket fails, and another one after it opens and is closed. -/
def openedEvents : List MetricsEvent :=
  [.connect, .errored 0, .timer ⟨1, .reconnect, 2000⟩, .opened 1, .close]

theorem run_bounded_opened :
    ∃ r, MetricsRun.new.run openedEvents = some r ∧ r.liveSockets ≤ 1 ∧ r.pendingReconnects ≤ 1
      ∧ (∀ before e stretch start, openedEvents = before ++ e :: stretch → MetricsRun.new.run before = some start →
          start.Restarts e → (∀ e' ∈ stretch, e'.isOpened = false ∧ e'.isConnect = false) → reconnects stretch ≤ 3)
      ∧ ∀ before stretch start, openedEvents = before ++ .close :: stretch → MetricsRun.new.run before = some start →
          (∀ e ∈ stretch, e.isConnect = false) → r.page.sockets.length = start.page.sockets.length :=
  ⟨_, rfl, run_bounded (show MetricsRun.new.run openedEvents = some _ from rfl)⟩

/-! ## Four reconnects -/

/-- The run goes on, and its status is not `failed` in any state of it. -/
def staysUnfailed (r : MetricsRun) : List MetricsEvent → Bool
  | [] => r.page.status ≠ .failed
  | e :: rest => r.page.status ≠ .failed && (r.step e).any fun r => r.staysUnfailed rest

/-- Some part of a run has four reconnects, without an open event and before the status becomes `failed`. -/
def FourReconnects (before stretch : List MetricsEvent) : Prop :=
  ∃ start, MetricsRun.new.run before = some start ∧ start.staysUnfailed stretch = true
    ∧ (∀ e ∈ stretch, e.isOpened = false) ∧ reconnects stretch = 4

/-- `close` and `connect` start the count again. -/
def reconnectedEvents : List MetricsEvent :=
  [.connect, .errored 0, .timer ⟨1, .reconnect, 2000⟩, .errored 1, .timer ⟨3, .reconnect, 5000⟩, .errored 2,
    .timer ⟨5, .reconnect, 10000⟩, .close, .connect, .errored 4, .timer ⟨8, .reconnect, 2000⟩]

/-- The first socket is given up after five seconds, and its open event still comes: its handler stays, and starts the
    count again while a reconnect is due. -/
def lateOpening : List MetricsEvent := [.connect, .timer ⟨0, .connectTimeout, 5000⟩, .opened 0]

/-- Each attempt fails, until the delays are used up. -/
def lateReconnects : List MetricsEvent :=
  [.timer ⟨1, .reconnect, 2000⟩, .errored 1, .timer ⟨3, .reconnect, 2000⟩, .errored 2, .timer ⟨5, .reconnect, 5000⟩,
    .errored 3, .timer ⟨7, .reconnect, 10000⟩]

theorem four_reconnects : FourReconnects [] reconnectedEvents ∧ FourReconnects lateOpening lateReconnects :=
  ⟨⟨_, rfl, by decide, by decide, by decide⟩, _, rfl, by decide, by decide, by decide⟩

end MetricsRun

end Godwit.Ui
