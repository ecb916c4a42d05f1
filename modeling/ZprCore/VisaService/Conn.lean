-- SUMMARY: The connection to the visa service, and when a stop of it is final.
import ZprCore.Lib.Run

/-!
# The connection to the visa service

`VSConn` of `vsconn.rs`: `run` dials the visa service and then serves commands until it fails or is
stopped, and `run_with_reconnect` starts it again after a failure. Other tasks send it commands, each
with a channel for the answer, and follow its lifecycle events.

Commands are handled one at a time, so that a step takes a command together with the outcome of the
call it makes. How long things take is left out.
-/

namespace ZprCore.VisaService

/-! ## Commands, answers and events -/

inductive StateFlag where
  | noState
  | hasState
deriving DecidableEq

inductive ErrorCode where
  | outOfSync
  | authRequired
  | internal
  | other (code : Nat)
deriving DecidableEq

inductive VSApiError where
  | connClosed
  | runLoopRestart
  | commandFailed (text : String)
  | authFailed (text : String)
  | ioError
  | codedError (code : ErrorCode)
  | capnp
  | tlsError
  | timeout (operation : String)
deriving DecidableEq

/-- The requests that need a handle and are passed on to the visa service. -/
inductive VSRequest where
  | visaRequest
  | registerVss
  | authorizeConnect
  | reauthorize
  | notifyDisconnect
  | ping
  | visaIdsRequest
  | visaByIdsRequest
deriving DecidableEq

inductive VS2Command where
  | stop (deregister : Bool)
  | restart
  | connect (state : StateFlag)
  | «open» (state : StateFlag)
  | reauthenticate
  | request (request : VSRequest)
deriving DecidableEq

inductive VSConnLifecycleEvent where
  | runLoopStarts
  | connectedToVsApi (state : StateFlag)
  | runLoopExits
deriving DecidableEq

/-- What a call is answered with: an error is one of the transport, a timeout or an answer that
    cannot be read; the visa service itself may answer with an error code. -/
abbrev Rpc := Except VSApiError (Option ErrorCode)

/-- The result of a call where an error code is an error. -/
def Rpc.result : Rpc → Except VSApiError Unit
  | .error e => .error e
  | .ok (some code) => .error (.codedError code)
  | .ok none => .ok ()

inductive Output where
  | dial
  | lifecycle (event : VSConnLifecycleEvent)
  | answer (command : VS2Command) (result : Except VSApiError Unit)

def Output.isDial : Output → Bool
  | .dial => true
  | _ => false

def Output.isStart : Output → Bool
  | .lifecycle .runLoopStarts => true
  | _ => false

/-! ## The run loop -/

/-- Where `run_with_reconnect` is. -/
inductive Phase where
  /-- the TCP connect of `run` -/
  | dialing
  /-- the TLS connect of `run` -/
  | securing
  /-- the loop over commands, with `vs_handle.is_some()` -/
  | running (connected : Bool) (pingFailures : Nat)
  /-- the delay before the next `run` -/
  | delaying
  | returned
deriving DecidableEq

structure VSConn where
  phase : Phase
  log : List Output

def vsapiMaxPingFailures : Nat := 2

/-- `handle_command`: whether there is a handle afterwards, what is sent to others, and the result. -/
def handleCommand (connected : Bool) (rpc : Rpc) (cmd : VS2Command) :
    Bool × List Output × Except VSApiError Unit :=
  match cmd with
  | .stop deregister =>
    if deregister && connected then
      match rpc with
      | .error e => (connected, [], .error e)
      -- an error code is only logged, there is nobody to tell it
      | .ok _ => (connected, [], .ok ())
    else (connected, [], .ok ())
  | .restart => (connected, [], .error .runLoopRestart)
  | .connect state =>
    if connected then
      let text := "connect called but already connected to VS-API"
      (connected, [.answer cmd (.error (.commandFailed text))], .ok ())
    else connecting state
  | .open state =>
    if connected then
      let text := "open called but already connected to VS-API"
      (connected, [.answer cmd (.error (.commandFailed text))], .ok ())
    else connecting state
  | .reauthenticate =>
    if !connected then
      let text := "reauthenticate called but not connected to VS-API"
      (connected, [.answer cmd (.error (.commandFailed text))], .ok ())
    else (connected, [.answer cmd rpc.result], .ok ())
  | .request _ =>
    if !connected then
      (connected, [.answer cmd (.error (.commandFailed "not connected to VS-API"))], .ok ())
    else (connected, [.answer cmd rpc.result], .ok ())
where
  connecting (state : StateFlag) : Bool × List Output × Except VSApiError Unit :=
    match rpc.result with
    | .ok () => (true, [.lifecycle (.connectedToVsApi state), .answer cmd (.ok ())], .ok ())
    | .error e => (connected, [.answer cmd (.error e)], .ok ())

/-- A command is dropped, with the channel for its answer if it has one. -/
def dropCommand : VS2Command → List Output
  | .stop _ | .restart => []
  | cmd => [.answer cmd (.error .connClosed)]

/-- What one of the futures that are waited for has resolved to. -/
inductive Input where
  | dialed (ok : Bool)
  | secured (ok : Bool)
  | command (cmd : VS2Command) (rpc : Rpc)
  /-- all senders of commands are gone -/
  | commandsClosed
  /-- the interval has elapsed, and whether the ping succeeds if there is one -/
  | pingTimeout (ok : Bool)
  | reconnectTimeout

namespace VSConn

/-- `run_with_reconnect` has called `run`, which dials. -/
def init : VSConn := ⟨.dialing, [.dial]⟩

def become (s : VSConn) (phase : Phase) (outputs : List Output) : VSConn := ⟨phase, s.log ++ outputs⟩

def step (s : VSConn) : Input → Option VSConn
  | .dialed ok =>
    match s.phase with
    | .dialing => some (s.become (if ok then .securing else .delaying) [])
    | _ => none
  | .secured ok =>
    match s.phase with
    | .securing =>
      some (if ok then s.become (.running false 0) [.lifecycle .runLoopStarts] else s.become .delaying [])
    | _ => none
  | .command cmd rpc =>
    match s.phase, cmd with
    | .dialing, .stop _ => some (s.become .returned [.lifecycle .runLoopExits])
    | .dialing, cmd => some (s.become .dialing (dropCommand cmd))
    | .delaying, .stop _ => some (s.become .returned [])
    | .delaying, cmd => some (s.become .delaying (dropCommand cmd))
    | .running connected pingFailures, cmd =>
      match handleCommand connected rpc cmd with
      | (_, outputs, .error _) => some (s.become .delaying (outputs ++ [.lifecycle .runLoopExits]))
      | (connected, outputs, .ok ()) =>
        match cmd with
        | .stop _ => some (s.become .returned (outputs ++ [.lifecycle .runLoopExits]))
        | _ => some (s.become (.running connected pingFailures) outputs)
    | _, _ => none
  | .commandsClosed =>
    match s.phase with
    | .dialing | .running _ _ => some (s.become .returned [.lifecycle .runLoopExits])
    | .delaying => some (s.become .returned [])
    | _ => none
  | .pingTimeout ok =>
    match s.phase with
    | .running false _ => some (s.become (.running false 0) [])
    | .running true pingFailures =>
      if ok then some (s.become (.running true 0) [])
      else if vsapiMaxPingFailures ≤ pingFailures + 1 then
        some (s.become .delaying [.lifecycle .runLoopExits])
      else some (s.become (.running true (pingFailures + 1)) [])
    | _ => none
  | .reconnectTimeout =>
    match s.phase with
    | .delaying => some (s.become .dialing [.dial])
    | _ => none

/-! ## Stopping -/

/-- How often the visa service was dialed and how often a run loop was announced. -/
def dials (s : VSConn) : Nat := s.log.countP Output.isDial

def starts (s : VSConn) : Nat := s.log.countP Output.isStart

def isConnected (s : VSConn) : Bool :=
  match s.phase with
  | .running connected _ => connected
  | _ => false

/-- From `s'` on, `run_with_reconnect` has returned and nothing is dialed or announced any more, with
    `s` as the state to compare with. -/
structure Over (s s' : VSConn) : Prop where
  returned : s'.phase = .returned
  dials : ∀ {s''}, Run step (· = s') (fun _ _ => True) s'' → s''.dials = s.dials
  starts : ∀ {s''}, Run step (· = s') (fun _ _ => True) s'' → s''.starts = s.starts

/-- The deregistration that goes with a stop fails other than by an answer of the visa service. -/
def deregistrationFails (s : VSConn) (deregister : Bool) (rpc : Rpc) : Bool :=
  deregister && s.isConnected && !rpc.isOk

variable {s s' : VSConn}

theorem eq_of_run_returned (hs : s.phase = .returned) (hrun : Run step (· = s) (fun _ _ => True) s') :
    s' = s := by
  induction hrun with
  | start h => exact h
  | @next _ s' a _ _ h ih =>
    subst ih
    cases a <;> simp only [step, hs] at h <;> cases h

theorem over_become {outputs : List Output} (hdial : outputs.countP Output.isDial = 0)
    (hstart : outputs.countP Output.isStart = 0) : s.Over (s.become .returned outputs) where
  returned := rfl
  dials hrun := by
    rw [eq_of_run_returned rfl hrun, dials, become, List.countP_append, hdial, Nat.add_zero, dials]
  starts hrun := by
    rw [eq_of_run_returned rfl hrun, starts, become, List.countP_append, hstart, Nat.add_zero, starts]

/-- A stop that was taken from the command channel is final, in whichever phase it was taken, unless
    it is to deregister a node with a handle and the call of the visa service fails. -/
theorem stop_final_iff {deregister : Bool} {rpc : Rpc}
    (h : s.step (.command (.stop deregister) rpc) = some s') :
    s.Over s' ↔ s.deregistrationFails deregister rpc = false := by
  cases hphase : s.phase with
  | dialing | delaying =>
    simp only [step, hphase, Option.some.injEq] at h
    subst h
    simp only [deregistrationFails, isConnected, hphase, Bool.and_false, Bool.false_and, iff_true]
    exact over_become rfl rfl
  | running connected pingFailures =>
    simp only [step, hphase, handleCommand] at h
    simp only [deregistrationFails, isConnected, hphase]
    cases hd : deregister && connected with
    | false =>
      rw [hd] at h
      cases h
      simp only [Bool.false_and, iff_true]
      exact over_become rfl rfl
    | true =>
      rw [hd] at h
      cases rpc with
      | ok reply =>
        cases h
        exact iff_of_true (over_become rfl rfl) rfl
      | error e =>
        cases h
        refine iff_of_false (fun hover => ?_) nofun
        cases hover.returned
  | securing | returned =>
    simp only [step, hphase] at h
    cases h

def sampleConnected : List Input :=
  [.dialed true, .secured true, .command (.connect .noState) (.ok none)]

/-- A stop is final if the visa service refuses the deregistration. -/
theorem stop_final_refused :
    ∃ s s', Run step (· = init) (fun _ _ => True) s ∧ s.isConnected = true ∧
      s.step (.command (.stop true) (.ok (some .authRequired))) = some s' ∧ s.Over s' := by
  obtain ⟨s, s', hrun, h, hconnected⟩ : ∃ s s', Run step (· = init) (fun _ _ => True) s ∧
      s.step (.command (.stop true) (.ok (some .authRequired))) = some s' ∧ s.isConnected = true :=
    Run.reaches_some rfl sampleConnected (by decide)
  exact ⟨s, s', hrun, hconnected, h, (stop_final_iff h).mpr (Bool.and_false _)⟩

/-- The call times out, and after the delay the visa service is dialed again and a new run loop is
    announced. -/
theorem stopped_connection_redials :
    ∃ s s' s'', Run step (· = init) (fun _ _ => True) s ∧
      s.step (.command (.stop true) (.error (.timeout "notify_disconnect"))) = some s' ∧
      Run step (· = s') (fun _ _ => True) s'' ∧
      s.dials = 1 ∧ s''.dials = 2 ∧ s.starts = 1 ∧ s''.starts = 2 := by
  obtain ⟨s, s', hrun, h, hdials, hstarts, s'', h', hdials', hstarts'⟩ : ∃ s s',
      Run step (· = init) (fun _ _ => True) s ∧
      s.step (.command (.stop true) (.error (.timeout "notify_disconnect"))) = some s' ∧
      s.dials = 1 ∧ s.starts = 1 ∧ ∃ s'', replay step (fun _ _ => True) s'
        [.reconnectTimeout, .dialed true, .secured true] = some s'' ∧ s''.dials = 2 ∧ s''.starts = 2 :=
    Run.reaches_some rfl sampleConnected (by decide)
  exact ⟨s, s', s'', hrun, h, .replayed h', hdials, hdials', hstarts, hstarts'⟩

end VSConn

end ZprCore.VisaService
