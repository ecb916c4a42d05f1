-- SUMMARY: The task that keeps a node registered with the visa service.
import ZprCore.Dock.Revocation
import ZprCore.Link.State
import ZprCore.VisaService.Conn

/-!
# The visa service worker

`vs_worker::launch`: it waits for a run loop of the connection to start, connects, registers the
node's own service, and sends the connect request of the visa service's adapter if one was deferred.
Then it waits for the next run loop. Every wait is a state here, and every step resolves one of the
futures waited for, with any of its outcomes. Other tasks may defer a connect request at any time, and
change the tables of the node; those that the worker finds are part of the outcome.
-/

namespace ZprCore.VisaService

open Link (IpAddr)
open Dock (VisaOp LinkId withdrawnBy)

inductive LifecycleRecv where
  | event (event : VSConnLifecycleEvent)
  | lagged (skipped : Nat)
  | closed
deriving DecidableEq

/-- What the visa service grants an adapter. -/
structure Connection where
  zprAddr : IpAddr
  /-- in seconds since the epoch -/
  authExpires : Nat
deriving DecidableEq

/-- A connect request that waits for the node to have access. -/
structure DeferredConnect where
  linkId : Nat
  assignedAddr : IpAddr
deriving DecidableEq

inductive DeferredError where
  | vsApi (error : VSApiError)
  /-- The text names both addresses. -/
  | granted (zprAddr assignedAddr : IpAddr)
deriving DecidableEq

/-- The seconds since the epoch that a `SystemTime` can hold; an addition beyond them panics. -/
def systemTimeMax : Nat := 2 ^ 63 - 1

/-- `record_auth_expires`, as far as it can panic -/
def recordAuthExpires (peerExists : Bool) (authExpires : Nat) : Option Unit :=
  if peerExists && systemTimeMax < authExpires then none else some ()

/-- `send_deferred_vs_connect` -/
def sendDeferredVsConnect (deferred : DeferredConnect) (peerExists : Bool) :
    Except VSApiError Connection → Option (Except DeferredError Unit)
  | .error e => some (.error (.vsApi e))
  | .ok conn =>
    if conn.zprAddr ≠ deferred.assignedAddr then
      some (.error (.granted conn.zprAddr deferred.assignedAddr))
    else (recordAuthExpires peerExists conn.authExpires).map .ok

section

variable (isDateTime : Nat → Bool)

/-- `process_visaop`, with `none` for a panic. `isDateTime` says of which expiry `DateTime::from` can
    make a date. -/
def processVisaop (tables : Dock.Node) : VisaOp → Option Dock.Node
  | .grant visa =>
    if isDateTime visa.expires then (tables.insertVisa visa).toOption else none
  | .revokeVisaId v => (tables.handleRevocation v).toOption

/-- The operations that were pending when the node registered. -/
def processVisaops (tables : Dock.Node) : List VisaOp → Option Dock.Node
  | [] => some tables
  | op :: ops => (processVisaop isDateTime tables op).bind fun tables => processVisaops tables ops

/-- A visa that can be inserted: it is not for forwarding only, and has a dock PEP and a date. -/
def insertable : VisaOp → Bool
  | .grant visa => visa.visaType = .full && visa.dockPep.isSome && isDateTime visa.expires
  | .revokeVisaId _ => true

end

/-- `disconnect_adapters` resets the links, each of which is dropped in the end. -/
def disconnectAdapters (dropped : List (Dock.Node × LinkId)) : Option Unit :=
  if dropped.all fun (tables, link) => (tables.dropPeer link).isOk then some () else none

/-- The streams of all visas on a link can be withdrawn. -/
def droppable (dropped : Dock.Node × LinkId) : Bool :=
  let (tables, link) := dropped
  tables.removable (withdrawnBy tables.streams ((tables.boundTo link).map .revokeVisaId))

inductive Wait where
  /-- `wait_for_runloop_start` -/
  | runLoopStart
  /-- the race of `connect` against the lifecycle events -/
  | connect
  /-- `disconnect_adapters` -/
  | disconnectAdapters
  | registerVss
  | authorizeConnect (deferred : DeferredConnect)
  | notifyDisconnect
  | restart
  /-- the wait before a retry -/
  | retry
  | returned
  | panicked
deriving DecidableEq

structure VsWorker where
  wait : Wait
  state : StateFlag
  /-- `deferred_vs_connect` of the assembly -/
  deferred : Option DeferredConnect

inductive WorkerInput where
  | lifecycle (recv : LifecycleRecv)
  | connected (result : Except VSApiError Unit)
  /-- with the tables of the node as they were when each link was dropped -/
  | adaptersDisconnected (dropped : List (Dock.Node × LinkId))
  | registered (tables : Dock.Node) (result : Except VSApiError (List VisaOp))
  | authorized (result : Except VSApiError Connection) (peerExists : Bool)
  | disconnected (result : Except VSApiError Unit)
  | restarted (result : Except VSApiError Unit)
  | retry
  /-- The adapter of the visa service authenticates. -/
  | defer (deferred : DeferredConnect)

namespace VsWorker

def init (deferred : Option DeferredConnect) : VsWorker := ⟨.runLoopStart, .noState, deferred⟩

def registered (w : VsWorker) : VsWorker := { w with state := .hasState, wait := .runLoopStart }

variable (isDateTime : Nat → Bool)

def step (w : VsWorker) : WorkerInput → Option VsWorker
  | .lifecycle recv =>
    match w.wait, recv with
    | .runLoopStart, .event .runLoopStarts => some { w with wait := .connect }
    | .runLoopStart, .event _ | .runLoopStart, .lagged _ => some w
    -- the wait returns, and the race that follows finds the channel closed again
    | .runLoopStart, .closed => some { w with wait := .connect }
    | .connect, .event .runLoopExits => some { w with wait := .runLoopStart }
    | .connect, .event .runLoopStarts => some { w with wait := .retry }
    | .connect, .event (.connectedToVsApi _) => some { w with wait := .registerVss }
    | .connect, .lagged _ => some { w with wait := .retry }
    | .connect, .closed => some { w with wait := .returned }
    | _, _ => none
  | .connected result =>
    match w.wait, result with
    | .connect, .ok () => some { w with wait := .registerVss }
    | .connect, .error (.codedError .outOfSync) =>
      some { w with state := .noState, wait := .disconnectAdapters }
    | .connect, .error _ => some { w with wait := .retry }
    | _, _ => none
  | .adaptersDisconnected dropped =>
    match w.wait with
    | .disconnectAdapters =>
      match disconnectAdapters dropped with
      | some () => some { w with wait := .retry }
      | none => some { w with wait := .panicked }
    | _ => none
  | .registered tables result =>
    match w.wait, result with
    | .registerVss, .ok ops =>
      match processVisaops isDateTime tables ops, w.deferred with
      | none, _ => some { w with wait := .panicked }
      | some _, some deferred =>
        some { w with wait := .authorizeConnect deferred, deferred := none }
      | some _, none => some w.registered
    | .registerVss, .error _ => some { w with wait := .notifyDisconnect }
    | _, _ => none
  | .authorized result peerExists =>
    match w.wait with
    | .authorizeConnect deferred =>
      match sendDeferredVsConnect deferred peerExists result with
      | some (.ok ()) => some w.registered
      | some (.error _) | none => some { w with wait := .panicked }
    | _ => none
  | .disconnected _ =>
    match w.wait with
    | .notifyDisconnect => some { w with wait := .restart }
    | _ => none
  | .restarted _ =>
    match w.wait with
    | .restart => some { w with wait := .runLoopStart }
    | _ => none
  | .retry =>
    match w.wait with
    | .retry => some { w with wait := .connect }
    | _ => none
  | .defer deferred => some { w with deferred := some deferred }

/-! ## What ends the worker -/

def isAlive (w : VsWorker) : Bool :=
  match w.wait with
  | .returned | .panicked => false
  | _ => true

end VsWorker

def WorkerInput.isOpen : WorkerInput → Bool
  | .lifecycle .closed => false
  | _ => true

/-- The visa service grants the adapter what it has, until a time that can be represented. -/
def Connection.confirms (conn : Connection) (deferred : DeferredConnect) (peerExists : Bool) : Bool :=
  conn.zprAddr = deferred.assignedAddr && !(peerExists && systemTimeMax < conn.authExpires)

namespace VsWorker

/-- The deferred connect request is answered with anything else than the grant it needs. -/
def deferredFails (w : VsWorker) : WorkerInput → Bool
  | .authorized result peerExists =>
    match w.wait, result with
    | .authorizeConnect deferred, .ok conn => !conn.confirms deferred peerExists
    | .authorizeConnect _, .error _ => true
    | _, _ => false
  | _ => false

/-- A pending visa cannot be inserted, or the streams of a revoked visa or a dropped link cannot be
    withdrawn. -/
def tablesFail (isDateTime : Nat → Bool) : WorkerInput → Bool
  | .registered tables (.ok ops) =>
    !(ops.all (insertable isDateTime) && tables.removable (withdrawnBy tables.streams ops))
  | .adaptersDisconnected dropped => !dropped.all droppable
  | _ => false

variable {isDateTime} {w w' : VsWorker} {a : WorkerInput} {deferred : DeferredConnect} {peerExists : Bool}

theorem sendDeferredVsConnect_eq_ok_iff {conn : Connection} :
    sendDeferredVsConnect deferred peerExists (.ok conn) = some (.ok ()) ↔
      conn.confirms deferred peerExists = true := by
  dsimp only [sendDeferredVsConnect, recordAuthExpires, Connection.confirms]
  split
  · next hne => simp [hne]
  · next heq =>
    rw [not_not] at heq
    cases hlate : peerExists && decide (systemTimeMax < conn.authExpires) <;> simp [heq]

theorem deferredFails_eq_true_iff {result : Except VSApiError Connection}
    (hwait : w.wait = .authorizeConnect deferred) :
    w.deferredFails (.authorized result peerExists) = true ↔
      sendDeferredVsConnect deferred peerExists result ≠ some (.ok ()) := by
  cases result with
  | error e => simp [deferredFails, hwait, sendDeferredVsConnect]
  | ok conn => simp [deferredFails, hwait, sendDeferredVsConnect_eq_ok_iff]

/-- One operation, with what it means for those after it. -/
theorem processVisaop_spec {n : Dock.Node} (op : VisaOp) (ops : List VisaOp) :
    match processVisaop isDateTime n op with
    | none => (insertable isDateTime op && n.removable (withdrawnBy n.streams (op :: ops))) = false
    | some m => insertable isDateTime op = true ∧
        n.removable (withdrawnBy n.streams (op :: ops)) = m.removable (withdrawnBy m.streams ops) := by
  cases op with
  | grant visa =>
    cases hdate : isDateTime visa.expires with
    | false => simp [processVisaop, insertable, hdate]
    | true =>
      rw [processVisaop, if_pos hdate]
      cases hn : n.insertVisa visa with
      | error e =>
        rw [Dock.Node.insertVisa] at hn
        cases hfull : decide (visa.visaType = .full) <;> cases hpep : visa.dockPep <;>
          simp_all [insertable, Except.toOption]
      | ok m =>
        have hfull : visa.visaType = .full := by
          rw [Dock.Node.insertVisa] at hn
          by_contra hne
          rw [if_pos hne] at hn
          cases hn
        obtain ⟨dockPep, hpep, rfl⟩ := Dock.Node.insertVisa_ok hn
        refine ⟨by simp [insertable, hfull, hpep, hdate], ?_⟩
        rw [withdrawnBy, ← Dock.Node.streams_insert (show (visa.stored dockPep).streams = [] from rfl)]
        rfl
  | revokeVisaId v =>
    cases hm : n.revokeNoRebuild v with
    | error e =>
      simp only [processVisaop, Dock.Node.handleRevocation, hm, Except.map, Except.toOption]
      rw [insertable, Bool.true_and, Bool.eq_false_iff]
      intro hrem
      obtain ⟨r, hr⟩ := Dock.Node.revokeNoRebuild_ok_iff.mpr (Dock.Node.removable_left hrem)
      cases hm.symm.trans hr
    | ok r =>
      simp only [processVisaop, Dock.Node.handleRevocation, hm, Except.map, Except.toOption,
        Dock.Node.withdrawStreams_eq]
      refine ⟨rfl, Bool.eq_iff_iff.mpr ?_⟩
      rw [withdrawnBy, Dock.Node.removable_revoked hm, ← (Dock.Node.revokeNoRebuild_ok hm).streams]
      rfl

/-- The pending operations are processed without a panic exactly if every granted visa can be inserted
    and all that is revoked can be withdrawn. -/
theorem processVisaops_isSome {n : Dock.Node} {ops : List VisaOp} :
    (processVisaops isDateTime n ops).isSome =
      (ops.all (insertable isDateTime) && n.removable (withdrawnBy n.streams ops)) := by
  induction ops generalizing n with
  | nil => rfl
  | cons op ops ih =>
    have hspec := @processVisaop_spec isDateTime n op ops
    rw [processVisaops, List.all_cons]
    cases hop : processVisaop isDateTime n op with
    | none =>
      rw [hop] at hspec
      rw [Bool.and_assoc, Bool.and_left_comm, hspec, Bool.and_false]
      rfl
    | some m =>
      rw [hop] at hspec
      rw [hspec.1, hspec.2, Bool.true_and]
      exact ih

theorem disconnectAdapters_isSome {dropped : List (Dock.Node × LinkId)} :
    (disconnectAdapters dropped).isSome = dropped.all droppable := by
  have hdrop : (fun d : Dock.Node × LinkId => (d.1.dropPeer d.2).isOk) = droppable := by
    funext ⟨n, link⟩
    have hrevoke := @Dock.Node.revokeAll_ok_iff n (n.boundTo link)
    rw [droppable, Dock.Node.dropPeer, Dock.Node.revokeForLink]
    cases hr : n.revokeAll (n.boundTo link) with
    | error e =>
      rw [hr] at hrevoke
      exact (Bool.eq_false_iff.mpr fun h => by obtain ⟨r, ⟨⟩⟩ := hrevoke.mpr h).symm
    | ok r => exact (hrevoke.mp ⟨r, hr⟩).symm
  rw [disconnectAdapters, ← hdrop]
  split <;> simp_all

/-- The worker ends by a deferred connect request that is not confirmed, or by tables that have come
    apart. -/
theorem step_ends_iff (halive : w.isAlive = true) (ha : a.isOpen = true)
    (h : w.step isDateTime a = some w') :
    w'.isAlive = false ↔ w.deferredFails a = true ∨ tablesFail isDateTime a = true := by
  cases a with
  | authorized result peerExists =>
    simp only [step] at h
    cases hwait : w.wait with
    | authorizeConnect deferred =>
      have htables : tablesFail isDateTime (.authorized result peerExists) = false := rfl
      rw [deferredFails_eq_true_iff hwait, htables, or_iff_left Bool.false_ne_true]
      rw [hwait] at h
      dsimp only at h
      split at h
      · next hsend =>
        cases h
        exact iff_of_false nofun (not_not.mpr hsend)
      all_goals next hsend =>
        cases h
        exact iff_of_true rfl (by rw [hsend]; nofun)
    | _ => simp only [hwait, reduceCtorEq] at h
  | adaptersDisconnected dropped =>
    simp only [step] at h
    cases hwait : w.wait with
    | disconnectAdapters =>
      simp only [deferredFails, tablesFail, ← disconnectAdapters_isSome]
      rw [hwait] at h
      cases hd : disconnectAdapters dropped <;> rw [hd] at h <;> cases h <;> simp [isAlive]
    | _ => simp only [hwait, reduceCtorEq] at h
  | registered tables result =>
    simp only [step] at h
    cases hwait : w.wait with
    | registerVss =>
      rw [hwait] at h
      cases result with
      | error e =>
        cases h
        exact iff_of_false nofun (by simp [deferredFails, tablesFail])
      | ok ops =>
        simp only [deferredFails, tablesFail, ← processVisaops_isSome]
        cases hops : processVisaops isDateTime tables ops with
        | none =>
          simp only [hops] at h
          cases h
          simp [isAlive]
        | some n =>
          cases hd : w.deferred <;> simp only [hops, hd] at h <;> cases h <;>
            simp [isAlive, VsWorker.registered]
    | _ => simp only [hwait, reduceCtorEq] at h
  | _ =>
    -- no other input leads to a wait that ends the worker, unless the channel is closed
    refine iff_of_false (fun hdead => ?_) (by simp [deferredFails, tablesFail])
    simp only [step] at h
    repeat' split at h
    all_goals cases h
    all_goals first
      | exact Bool.noConfusion hdead
      | exact Bool.noConfusion (halive.symm.trans hdead)
      | exact Bool.noConfusion ha

/-- As long as the lifecycle channel is open, the worker runs for ever if every deferred connect
    request is confirmed and the visa operations fit the tables, and panics at the first that does
    not. -/
theorem worker_survives_iff (deferred : Option DeferredConnect) :
    (∀ w, Run (step isDateTime) (· = init deferred) (fun w a => a.isOpen = true ∧
        w.deferredFails a = false ∧ tablesFail isDateTime a = false) w → w.isAlive = true) ∧
    ∀ w a w', Run (step isDateTime) (· = init deferred) (fun _ a => a.isOpen = true) w →
      w.isAlive = true → a.isOpen = true → w.step isDateTime a = some w' →
        (w'.isAlive = false ↔ w.deferredFails a = true ∨ tablesFail isDateTime a = true) := by
  refine ⟨fun w hrun => ?_, fun w a w' _ halive ha h => step_ends_iff halive ha h⟩
  refine hrun.invariant (P := fun w => w.isAlive = true) ?_ fun w a w' halive hok h => ?_
  · rintro _ rfl
    rfl
  · rw [← Bool.not_eq_false, step_ends_iff halive hok.1 h, hok.2.1, hok.2.2]
    simp

/-- A node with a visa under which a stream was bound. -/
def sampleTables : Dock.Node :=
  (replay (Dock.Node.step .internet Dock.firstMatch) (fun _ _ => True) (.boot Dock.Node.sampleConfig)
    (Dock.Node.sampleAdapters ++ Dock.Node.sampleBind 1000)).getD (.boot Dock.Node.sampleConfig)

def sampleRegistered : List WorkerInput :=
  [.defer ⟨5, .v6 7⟩, .lifecycle (.event .runLoopStarts), .connected (.ok ()),
    .registered sampleTables (.ok [])]

/-- A registration that fails in every way, and then succeeds, with visas to grant and to revoke. -/
def sampleFailures : List WorkerInput :=
  [.lifecycle (.event .runLoopStarts), .connected (.error .connClosed), .retry,
    .connected (.error (.codedError .outOfSync)), .adaptersDisconnected [(sampleTables, 3)], .retry,
    .connected (.ok ()), .registered sampleTables (.error (.timeout "register_vss")),
    .disconnected (.error (.codedError .authRequired)), .restarted (.error .connClosed),
    .defer ⟨5, .v6 7⟩, .lifecycle (.event .runLoopStarts),
    .lifecycle (.event (.connectedToVsApi .noState)),
    .registered sampleTables
      (.ok [.grant (Dock.Node.sampleVisa 1001 9), .revokeVisaId 1000, .revokeVisaId 1001]),
    .authorized (.ok ⟨.v6 7, 100⟩) true]

theorem worker_survives_failures :
    ∃ w, Run (step (· < 100)) (· = init none) (fun w a => a.isOpen = true ∧
        w.deferredFails a = false ∧ tablesFail (· < 100) a = false) w ∧
      w.state = .hasState ∧ w.isAlive = true := by
  refine Run.reaches_imp (P := fun w => w.state = .hasState) rfl sampleFailures (by decide +kernel) ?_
  intro w hrun hw
  exact ⟨hw, (worker_survives_iff none).1 w hrun⟩

/-- The run loop is recycled while the deferred request is under way, and the node panics. -/
theorem deferred_connect_panics :
    ∃ w w', Run (step fun _ => true) (· = init none) (fun _ a => a.isOpen = true) w ∧
      w.step (fun _ => true) (.authorized (.error .connClosed) true) = some w' ∧
      w'.wait = .panicked :=
  Run.reaches_some rfl sampleRegistered (by decide +kernel)

end VsWorker

end ZprCore.VisaService
