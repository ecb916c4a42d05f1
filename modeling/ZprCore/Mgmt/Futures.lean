-- SUMMARY: The futures of management packets and every operation on them.
import ZprCore.Zdpr.Session

/-!
# Send futures

Model of the futures in `mgmt/core.rs`. A future caches a `PacketId`, which may lag behind
the state of the sender. The argument `peer` of each function is what `peer_state()` returns:
the sender the future reaches through its link id and generation, or `none` when the link is
gone or restarted. A panic (`unreachable!` included) is `none`.

`FutureOp.run` collects the methods, the `Future` and `Drop` impls and `From<Acked>` as one
step of a future.
-/

namespace ZprCore.Mgmt

open Zdpr

variable {Pkt : Type}

inductive PacketId where
  | queued (id : QueuedPacketId)
  | sent (sn : SeqNum)
  | acked
  | canceled
deriving DecidableEq

inductive PacketStatus where
  | acked
  | canceled
deriving DecidableEq

inductive Resolution where
  /-- `Ok` of a `Sent`; the `Acked` future it carries is spawned beside it -/
  | sent
  /-- `Ok(())` of an `Acked` -/
  | acked
  /-- `Ok(status)` of an `AckedOrCanceled` -/
  | status (status : PacketStatus)
  /-- `Err(LinkClosed)` -/
  | linkClosed
deriving DecidableEq

def updateSentPacketId : Option SeqNum → PacketId
  | some sn => .sent sn
  | none => .acked

/-! ## The methods of Sent -/

namespace Sent

def isSent (peer : Option (Sender Pkt)) : PacketId → Option Bool
  | .queued id =>
    match peer with
    | none => some true
    | some zdprSend => zdprSend.isSent id
  | _ => some true

/-- The cancelled packet if there was one to cancel, the cached id and the sender. -/
def tryCancelInternal (peer : Option (Sender Pkt)) (packetId : PacketId) :
    Option (Option Pkt × PacketId × Option (Sender Pkt)) :=
  match packetId, peer with
  | .queued id, some zdprSend =>
    match zdprSend.cancelQueuedPacket id with
    | none => none
    | some (some pkt, zdprSend) => some (some pkt, packetId, some zdprSend)
    | some (none, zdprSend) =>
      (zdprSend.lookupSeqNum id).map fun sn => (none, updateSentPacketId sn, some zdprSend)
  | _, _ => some (none, packetId, peer)

/-- The second half of `request_cancel_internal`: anything but `Sent` is `unreachable!`. The
    list holds the number an immediate cancellation request is sent for. -/
def requestCancelSent (peer : Option (Sender Pkt)) (packetId : PacketId) :
    Option (PacketId × Option (Sender Pkt) × List SeqNum) :=
  match packetId, peer with
  | .sent sn, some zdprSend =>
    (zdprSend.cancelSentPacket sn).map fun (pkt, zdprSend) =>
      (packetId, some zdprSend, if pkt.isSome then [sn] else [])
  | _, _ => none

def requestCancelInternal (peer : Option (Sender Pkt)) (packetId : PacketId) :
    Option (PacketId × Option (Sender Pkt) × List SeqNum) :=
  match packetId, peer with
  | .acked, _ | .canceled, _ => some (packetId, peer, [])
  | _, none => some (packetId, none, [])
  | .queued id, some zdprSend =>
    match tryCancelInternal (some zdprSend) (.queued id) with
    | none => none
    | some (some _, _, peer) => some (.canceled, peer, [])
    | some (none, packetId, peer) => requestCancelSent peer packetId
  | .sent sn, some zdprSend => requestCancelSent (some zdprSend) (.sent sn)

def limitRetriesInternal (peer : Option (Sender Pkt)) (packetId : PacketId) (retryLimit : UInt8) :
    Option (Option (Sender Pkt)) :=
  match packetId, peer with
  | .acked, _ | .canceled, _ => some peer
  | _, none => some none
  | .queued id, some zdprSend => (zdprSend.limitRetriesById id retryLimit).map some
  | .sent sn, some zdprSend => (zdprSend.limitRetriesBySeqNum sn retryLimit).map some

def drop (peer : Option (Sender Pkt)) (packetId : PacketId) : Option (Option (Sender Pkt)) :=
  (tryCancelInternal peer packetId).map (·.2.2)

/-- The cached id after the poll, which is also that of the `Acked` it resolves to. -/
def poll (peer : Option (Sender Pkt)) (cx : Waker) (packetId : PacketId) :
    Option (Poll Resolution × PacketId × Option (Sender Pkt)) :=
  match packetId, peer with
  | .queued _, none => some (.ready .linkClosed, packetId, none)
  | .queued id, some zdprSend =>
    match zdprSend.pollSend cx id with
    | none => none
    | some (.pending, zdprSend) => some (.pending, packetId, some zdprSend)
    | some (.ready sn, zdprSend) => some (.ready .sent, updateSentPacketId sn, some zdprSend)
  | _, _ => some (.ready .sent, packetId, peer)

end Sent

/-! ## Acked and AckedOrCanceled -/

namespace Acked

def pollAckStage (zdprSend : Sender Pkt) (cx : Waker) (sn : SeqNum) :
    Option (Poll Resolution × PacketId × Option (Sender Pkt)) :=
  match zdprSend.pollAck cx sn with
  | none => none
  | some (.pending, zdprSend) => some (.pending, .sent sn, some zdprSend)
  | some (.ready (), zdprSend) => some (.ready .acked, .sent sn, some zdprSend)

def poll (peer : Option (Sender Pkt)) (cx : Waker) (packetId : PacketId) :
    Option (Poll Resolution × PacketId × Option (Sender Pkt)) :=
  match packetId, peer with
  | .acked, _ => some (.ready .acked, packetId, peer)
  | _, none => some (.ready .linkClosed, packetId, none)
  | .queued id, some zdprSend =>
    match zdprSend.pollSend cx id with
    | none => none
    | some (.pending, zdprSend) => some (.pending, packetId, some zdprSend)
    | some (.ready none, zdprSend) => some (.ready .acked, packetId, some zdprSend)
    | some (.ready (some sn), zdprSend) => pollAckStage zdprSend cx sn
  | .sent sn, some zdprSend => pollAckStage zdprSend cx sn
  | .canceled, some _ => none

end Acked

namespace AckedOrCanceled

/-- Only a cached sequence number is forgotten. -/
def forgetInternal (peer : Option (Sender Pkt)) (packetId : PacketId) :
    Option (Option (Sender Pkt)) :=
  match packetId, peer with
  | .sent sn, some zdprSend => (zdprSend.forgetCanceledPacket sn).map some
  | _, _ => some peer

/-- `Drop for AckedOrCanceled`, then `Drop` of the `Sent` inside. -/
def drop (peer : Option (Sender Pkt)) (packetId : PacketId) : Option (Option (Sender Pkt)) :=
  (forgetInternal peer packetId).bind fun peer => Sent.drop peer packetId

def pollAckStage (zdprSend : Sender Pkt) (cx : Waker) (sn : SeqNum) :
    Option (Poll Resolution × PacketId × Option (Sender Pkt)) :=
  match zdprSend.pollAck cx sn with
  | none => none
  | some (.pending, zdprSend) => some (.pending, .sent sn, some zdprSend)
  | some (.ready (), zdprSend) =>
    (zdprSend.isCancelAcked sn).map fun canceled =>
      (.ready (.status (if canceled then .canceled else .acked)), .sent sn, some zdprSend)

def poll (peer : Option (Sender Pkt)) (cx : Waker) (packetId : PacketId) :
    Option (Poll Resolution × PacketId × Option (Sender Pkt)) :=
  match packetId, peer with
  | .acked, _ => some (.ready (.status .acked), packetId, peer)
  | .canceled, _ => some (.ready (.status .canceled), packetId, peer)
  | _, none => some (.ready .linkClosed, packetId, none)
  | .queued id, some zdprSend =>
    match zdprSend.pollSend cx id with
    | none => none
    | some (.pending, zdprSend) => some (.pending, packetId, some zdprSend)
    -- the cached id stays `Queued` here
    | some (.ready none, zdprSend) => some (.ready (.status .acked), packetId, some zdprSend)
    | some (.ready (some sn), zdprSend) => pollAckStage zdprSend cx sn
  | .sent sn, some zdprSend => pollAckStage zdprSend cx sn

end AckedOrCanceled

/-! ## One step of a future -/

inductive FutureKind where
  | sent
  | acked
  | ackedOrCanceled
deriving DecidableEq

inductive FutureOp where
  | isSent
  | enqueue
  | tryCancel
  | acked
  | requestCancel
  | limitRetries (retryLimit : UInt8)
  /-- `AckedOrCanceled::from` -/
  | into
  | poll (cx : Waker)
  | drop
deriving DecidableEq

/-- What an operation leaves behind. -/
structure FutureStep (Pkt : Type) where
  /-- the sender that `peer_state()` gave -/
  peer : Option (Sender Pkt)
  /-- the numbers a cancellation request is sent for -/
  cancels : List SeqNum
  /-- the future afterwards, unless it was consumed -/
  future : Option (FutureKind × PacketId)
  /-- what a poll resolved to -/
  resolution : Option Resolution
  /-- the `Acked` future a `Sent` resolved to -/
  spawned : Option PacketId

def FutureOp.run (peer : Option (Sender Pkt)) (kind : FutureKind) (packetId : PacketId) :
    FutureOp → Option (FutureStep Pkt)
  | .isSent =>
    (Sent.isSent peer packetId).map fun _ => ⟨peer, [], some (kind, packetId), none, none⟩
  | .enqueue =>
    match kind with
    | .sent | .acked => some ⟨peer, [], none, none, none⟩
    | .ackedOrCanceled =>
      (AckedOrCanceled.forgetInternal peer packetId).map fun peer => ⟨peer, [], none, none, none⟩
  | .tryCancel =>
    match kind with
    | .sent =>
      match Sent.tryCancelInternal peer packetId with
      | none => none
      -- on success the `Sent` is dropped as well, which cancels once more
      | some (some _, packetId, peer) =>
        (Sent.drop peer packetId).map fun peer => ⟨peer, [], none, none, none⟩
      | some (none, packetId, peer) => some ⟨peer, [], some (.acked, packetId), none, none⟩
    | .acked | .ackedOrCanceled => none
  | .acked =>
    match kind with
    | .sent => some ⟨peer, [], some (.acked, packetId), none, none⟩
    | .acked | .ackedOrCanceled => none
  | .requestCancel =>
    (Sent.requestCancelInternal peer packetId).map fun (packetId, peer, cancels) =>
      ⟨peer, cancels, some (.ackedOrCanceled, packetId), none, none⟩
  | .limitRetries retryLimit =>
    (Sent.limitRetriesInternal peer packetId retryLimit).map fun peer =>
      ⟨peer, [], some (.ackedOrCanceled, packetId), none, none⟩
  | .into =>
    match kind with
    | .acked => some ⟨peer, [], some (.ackedOrCanceled, packetId), none, none⟩
    | .sent | .ackedOrCanceled => none
  | .poll cx =>
    let polled :=
      match kind with
      | .sent => Sent.poll peer cx packetId
      | .acked => Acked.poll peer cx packetId
      | .ackedOrCanceled => AckedOrCanceled.poll peer cx packetId
    polled.map fun (r, packetId, peer) =>
      match r with
      | .pending => ⟨peer, [], some (kind, packetId), none, none⟩
      | .ready resolution =>
        ⟨peer, [], some (kind, packetId), some resolution,
          if resolution = .sent then some packetId else none⟩
  | .drop =>
    let dropped :=
      match kind with
      | .sent | .acked => Sent.drop peer packetId
      | .ackedOrCanceled => AckedOrCanceled.drop peer packetId
    dropped.map fun peer => ⟨peer, [], none, none, none⟩

/-! ## The futures of a user -/

/-- The futures after the `i`th one was operated on: what is left of it in its place, and the one it
    resolved to behind the others. `update` puts a kind, an id and whether it was polled to completion
    into the future. -/
def FutureStep.after {φ : Type} (r : FutureStep Pkt) (update : FutureKind → PacketId → Bool → φ)
    (futures : List (Option φ)) (i : Nat) : List (Option φ) :=
  futures.set i (r.future.map fun (kind, packetId) => update kind packetId r.resolution.isSome) ++
    (r.spawned.map fun packetId => some (update .acked packetId false)).toList

namespace FutureStep

variable {φ : Type} {r : FutureStep Pkt} {update : FutureKind → PacketId → Bool → φ}
  {futures : List (Option φ)} {i j : Nat} {g : φ}

theorem getElem?_after_ne (hj : j < futures.length) (hij : j ≠ i) :
    (r.after update futures i)[j]? = futures[j]? := by
  rw [after, List.getElem?_append_left (by simpa using hj), List.getElem?_set_ne hij.symm]

theorem getElem?_after_self (hi : i < futures.length) :
    (r.after update futures i)[i]? =
      some (r.future.map fun (kind, packetId) => update kind packetId r.resolution.isSome) := by
  rw [after, List.getElem?_append_left (by simpa using hi), List.getElem?_set_self hi]

/-- Where a future comes from that is there afterwards. -/
theorem of_getElem?_after (hi : i < futures.length)
    (h : (r.after update futures i)[j]? = some (some g)) :
    (j ≠ i ∧ futures[j]? = some (some g)) ∨
    (j = i ∧ ∃ kind packetId, r.future = some (kind, packetId) ∧
      g = update kind packetId r.resolution.isSome) ∨
    (j = futures.length ∧ ∃ packetId, r.spawned = some packetId ∧
      g = update .acked packetId false) := by
  by_cases hj : j < futures.length
  · by_cases hij : j = i
    · subst hij
      rw [getElem?_after_self hi] at h
      obtain ⟨⟨kind, packetId⟩, hfut, rfl⟩ := Option.map_eq_some_iff.mp (Option.some.inj h)
      exact .inr (.inl ⟨rfl, kind, packetId, hfut, rfl⟩)
    · rw [getElem?_after_ne hj hij] at h
      exact .inl ⟨hij, h⟩
  · rw [after, List.getElem?_append_right (by simpa using hj), List.length_set] at h
    have hmem := List.mem_of_getElem? h
    obtain ⟨packetId, hspawn, heq⟩ := Option.map_eq_some_iff.mp (Option.mem_toList.mp hmem)
    obtain ⟨hlt, -⟩ := List.getElem?_eq_some_iff.mp h
    simp only [hspawn, Option.map_some, Option.toList_some, List.length_singleton] at hlt
    exact .inr (.inr ⟨by omega, packetId, hspawn, (Option.some.inj heq).symm⟩)

end FutureStep

/-! ## Polls -/

def pollAs (peer : Option (Sender Pkt)) (cx : Waker) (packetId : PacketId) :
    FutureKind → Option (Poll Resolution × PacketId × Option (Sender Pkt))
  | .sent => Sent.poll peer cx packetId
  | .acked => Acked.poll peer cx packetId
  | .ackedOrCanceled => AckedOrCanceled.poll peer cx packetId

/-- What a future resolves to when its record is gone. -/
def FutureKind.onGone : FutureKind → Resolution
  | .sent => .sent
  | .acked => .acked
  | .ackedOrCanceled => .status .acked

/-- What a future resolves to once number `sn` is settled. -/
def FutureKind.onSettled (zdprSend : Sender Pkt) (sn : SeqNum) : FutureKind → Option Resolution
  | .sent => some .sent
  | .acked => some .acked
  | .ackedOrCanceled =>
    (zdprSend.isCancelAcked sn).map fun canceled =>
      .status (if canceled then .canceled else .acked)

variable {s s' : Sender Pkt} {id : QueuedPacketId} {sn : SeqNum} {cx : Waker} {limit : UInt8}
  {kind : FutureKind} {packetId packetId' : PacketId} {pkt : Option Pkt}
  {peer : Option (Sender Pkt)} {cancels : List SeqNum}

theorem pollAs_sent (hk : kind ≠ .sent) :
    pollAs (some s) cx (.sent sn) kind = (s.pollAck cx sn).bind fun
      | (.pending, t) => some (.pending, .sent sn, some t)
      | (.ready (), t) => (kind.onSettled t sn).map fun resolution =>
        (.ready resolution, .sent sn, some t) := by
  cases kind with
  | sent => exact absurd rfl hk
  | acked =>
    simp only [pollAs, Acked.poll, Acked.pollAckStage]
    rcases s.pollAck cx sn with _ | ⟨_ | _, t⟩ <;> rfl
  | ackedOrCanceled =>
    simp only [pollAs, AckedOrCanceled.poll, AckedOrCanceled.pollAckStage]
    rcases s.pollAck cx sn with _ | ⟨_ | _, t⟩
    · rfl
    · simp [FutureKind.onSettled, Function.comp_def]
    · rfl

theorem pollAs_queued (hk : kind ≠ .sent) :
    pollAs (some s) cx (.queued id) kind = (s.pollSend cx id).bind fun
      | (.pending, t) => some (.pending, .queued id, some t)
      | (.ready none, t) => some (.ready kind.onGone, .queued id, some t)
      | (.ready (some sn), t) => pollAs (some t) cx (.sent sn) kind := by
  cases kind with
  | sent => exact absurd rfl hk
  | acked =>
    simp only [pollAs, Acked.poll]
    rcases s.pollSend cx id with _ | ⟨(_ | _) | _, t⟩ <;> rfl
  | ackedOrCanceled =>
    simp only [pollAs, AckedOrCanceled.poll]
    rcases s.pollSend cx id with _ | ⟨(_ | _) | _, t⟩ <;> rfl

/-! ## What an operation does to its sender -/

/-- The number that an operation passes to `forget_canceled_packet`. -/
def FutureOp.forgets (kind : FutureKind) (packetId : PacketId) : FutureOp → Option SeqNum
  | .enqueue | .drop =>
    match kind, packetId with
    | .ackedOrCanceled, .sent sn => some sn
    | _, _ => none
  | _ => none

/-- The sender operations that futures use, apart from forgetting. -/
def ofFuture : SenderOp Pkt → Prop
  | .pollSend .. | .pollAck .. | .cancelQueuedPacket _ | .cancelSentPacket _
  | .limitRetriesById .. | .limitRetriesBySeqNum .. => True
  | _ => False

abbrev Touched (s : Sender Pkt) (sent : List (Message Pkt)) (s' : Sender Pkt) : Prop :=
  SenderOp.Runs ofFuture s sent s'

namespace Touched

theorem pollSend {r : Poll (Option SeqNum)} (h : s.pollSend cx id = some (r, s')) :
    Touched s [] s' :=
  .single (.pollSend cx id) trivial (by simp [SenderOp.run, h])

theorem pollAck {r : Poll Unit} (h : s.pollAck cx sn = some (r, s')) : Touched s [] s' :=
  .single (.pollAck cx sn) trivial (by simp [SenderOp.run, h])

theorem cancelQueuedPacket (h : s.cancelQueuedPacket id = some (pkt, s')) : Touched s [] s' :=
  .single (.cancelQueuedPacket id) trivial (by simp [SenderOp.run, h])

theorem cancelSentPacket (h : s.cancelSentPacket sn = some (pkt, s')) :
    Touched s ((if pkt.isSome then [sn] else []).map .cancel) s' := by
  refine .single (.cancelSentPacket sn) trivial ?_
  cases pkt <;> simp [SenderOp.run, h]

end Touched

theorem tryCancelInternal_runs
    (h : Sent.tryCancelInternal (some s) packetId = some (pkt, packetId', peer)) :
    ∃ s', peer = some s' ∧ Touched s [] s' := by
  cases packetId with
  | queued id =>
    simp only [Sent.tryCancelInternal] at h
    split at h
    · cases h
    · next hc =>
      cases h
      exact ⟨_, rfl, .cancelQueuedPacket hc⟩
    · next hc =>
      obtain ⟨sn, -, heq⟩ := Option.map_eq_some_iff.mp h
      cases heq
      exact ⟨_, rfl, .cancelQueuedPacket hc⟩
  | sent | acked | canceled =>
    cases h
    exact ⟨s, rfl, .nil⟩

theorem requestCancelSent_runs
    (h : Sent.requestCancelSent (some s) packetId = some (packetId', peer, cancels)) :
    ∃ s', peer = some s' ∧ Touched s (cancels.map .cancel) s' := by
  cases packetId with
  | sent sn =>
    obtain ⟨⟨pkt, t⟩, hc, heq⟩ := Option.map_eq_some_iff.mp h
    cases heq
    exact ⟨t, rfl, .cancelSentPacket hc⟩
  | queued | acked | canceled => cases h

theorem requestCancelInternal_runs
    (h : Sent.requestCancelInternal (some s) packetId = some (packetId', peer, cancels)) :
    ∃ s', peer = some s' ∧ Touched s (cancels.map .cancel) s' := by
  cases packetId with
  | acked | canceled =>
    cases h
    exact ⟨s, rfl, .nil⟩
  | sent sn =>
    simp only [Sent.requestCancelInternal] at h
    exact requestCancelSent_runs h
  | queued id =>
    simp only [Sent.requestCancelInternal] at h
    split at h
    · cases h
    · next hc =>
      cases h
      exact tryCancelInternal_runs hc
    · next hc =>
      obtain ⟨t, rfl, htry⟩ := tryCancelInternal_runs hc
      obtain ⟨u, hu, hrest⟩ := requestCancelSent_runs h
      exact ⟨u, hu, htry.trans hrest⟩

theorem limitRetriesInternal_runs
    (h : Sent.limitRetriesInternal (some s) packetId limit = some peer) :
    ∃ s', peer = some s' ∧ Touched s [] s' := by
  cases packetId with
  | acked | canceled =>
    cases h
    exact ⟨s, rfl, .nil⟩
  | queued id =>
    obtain ⟨t, hl, rfl⟩ := Option.map_eq_some_iff.mp h
    exact ⟨t, rfl, .single (.limitRetriesById id limit) trivial (by simp [SenderOp.run, hl])⟩
  | sent sn =>
    obtain ⟨t, hl, rfl⟩ := Option.map_eq_some_iff.mp h
    exact ⟨t, rfl, .single (.limitRetriesBySeqNum sn limit) trivial (by simp [SenderOp.run, hl])⟩

theorem Sent.drop_runs (h : Sent.drop (some s) packetId = some peer) :
    ∃ s', peer = some s' ∧ Touched s [] s' := by
  obtain ⟨⟨pkt, id, peer'⟩, hc, rfl⟩ := Option.map_eq_some_iff.mp h
  exact tryCancelInternal_runs hc

section

variable {r : Poll Resolution}

theorem pollAs_sent_runs (hk : kind ≠ .sent)
    (h : pollAs (some s) cx (.sent sn) kind = some (r, packetId', peer)) :
    ∃ s', peer = some s' ∧ Touched s [] s' := by
  rw [pollAs_sent hk] at h
  obtain ⟨⟨_ | _, t⟩, hp, h⟩ := Option.bind_eq_some_iff.mp h
  · obtain ⟨_, -, heq⟩ := Option.map_eq_some_iff.mp h
    cases heq
    exact ⟨t, rfl, .pollAck hp⟩
  · cases h
    exact ⟨t, rfl, .pollAck hp⟩

theorem pollAs_runs (h : pollAs (some s) cx packetId kind = some (r, packetId', peer)) :
    ∃ s', peer = some s' ∧ Touched s [] s' := by
  cases packetId with
  | acked | canceled =>
    cases kind <;> cases h <;> exact ⟨s, rfl, .nil⟩
  | sent sn =>
    by_cases hk : kind = .sent
    · subst hk
      cases h
      exact ⟨s, rfl, .nil⟩
    · exact pollAs_sent_runs hk h
  | queued id =>
    by_cases hk : kind = .sent
    · subst hk
      simp only [pollAs, Sent.poll] at h
      split at h
      · cases h
      all_goals
        cases h
        exact ⟨_, rfl, .pollSend ‹_›⟩
    · rw [pollAs_queued hk] at h
      obtain ⟨⟨(_ | sn) | _, t⟩, hp, h⟩ := Option.bind_eq_some_iff.mp h
      · cases h
        exact ⟨t, rfl, .pollSend hp⟩
      · obtain ⟨u, hu, hrest⟩ := pollAs_sent_runs hk h
        exact ⟨u, hu, (Touched.pollSend hp).trans hrest⟩
      · cases h
        exact ⟨t, rfl, .pollSend hp⟩

end

/-- An operation on a future forgets one number, or is made of operations that do not forget. -/
theorem FutureOp.run_runs {op : FutureOp} {r : FutureStep Pkt}
    (h : op.run (some s) kind packetId = some r) :
    ∃ s', r.peer = some s' ∧
      (op.forgets kind packetId = none ∧ Touched s (r.cancels.map .cancel) s' ∨
        ∃ sn, op.forgets kind packetId = some sn ∧ r.cancels = [] ∧
          s.forgetCanceledPacket sn = some s') := by
  cases op with
  | isSent =>
    obtain ⟨_, -, rfl⟩ := Option.map_eq_some_iff.mp h
    exact ⟨s, rfl, .inl ⟨rfl, .nil⟩⟩
  | enqueue =>
    cases kind with
    | sent | acked =>
      cases h
      exact ⟨s, rfl, .inl ⟨rfl, .nil⟩⟩
    | ackedOrCanceled =>
      obtain ⟨peer, hf, rfl⟩ := Option.map_eq_some_iff.mp h
      cases packetId with
      | sent sn =>
        obtain ⟨t, ht, rfl⟩ := Option.map_eq_some_iff.mp hf
        exact ⟨t, rfl, .inr ⟨sn, rfl, rfl, ht⟩⟩
      | queued | acked | canceled =>
        cases hf
        exact ⟨s, rfl, .inl ⟨rfl, .nil⟩⟩
  | tryCancel =>
    cases kind with
    | acked | ackedOrCanceled => cases h
    | sent =>
      simp only [FutureOp.run] at h
      split at h
      · cases h
      · next hc =>
        obtain ⟨peer, hd, rfl⟩ := Option.map_eq_some_iff.mp h
        obtain ⟨t, rfl, hrun⟩ := tryCancelInternal_runs hc
        obtain ⟨u, rfl, hrun'⟩ := Sent.drop_runs hd
        exact ⟨u, rfl, .inl ⟨rfl, hrun.trans hrun'⟩⟩
      · next hc =>
        cases h
        obtain ⟨t, ht, hrun⟩ := tryCancelInternal_runs hc
        exact ⟨t, ht, .inl ⟨rfl, hrun⟩⟩
  | acked | into =>
    cases kind <;> cases h
    exact ⟨s, rfl, .inl ⟨rfl, .nil⟩⟩
  | requestCancel =>
    obtain ⟨⟨id, peer, cancels⟩, hc, rfl⟩ := Option.map_eq_some_iff.mp h
    obtain ⟨t, ht, hrun⟩ := requestCancelInternal_runs hc
    exact ⟨t, ht, .inl ⟨rfl, hrun⟩⟩
  | limitRetries limit =>
    obtain ⟨peer, hl, rfl⟩ := Option.map_eq_some_iff.mp h
    obtain ⟨t, ht, hrun⟩ := limitRetriesInternal_runs hl
    exact ⟨t, ht, .inl ⟨rfl, hrun⟩⟩
  | poll cx =>
    obtain ⟨⟨res, id, peer⟩, hp, rfl⟩ := Option.map_eq_some_iff.mp h
    obtain ⟨t, rfl, hrun⟩ := pollAs_runs hp
    cases res <;> exact ⟨t, rfl, .inl ⟨rfl, hrun⟩⟩
  | drop =>
    obtain ⟨peer, hd, rfl⟩ := Option.map_eq_some_iff.mp h
    cases kind with
    | sent | acked =>
      obtain ⟨t, rfl, hrun⟩ := Sent.drop_runs hd
      exact ⟨t, rfl, .inl ⟨rfl, hrun⟩⟩
    | ackedOrCanceled =>
      obtain ⟨peer', hf, hd⟩ := Option.bind_eq_some_iff.mp hd
      cases packetId with
      | sent sn =>
        obtain ⟨t, ht, rfl⟩ := Option.map_eq_some_iff.mp hf
        cases hd
        exact ⟨t, rfl, .inr ⟨sn, rfl, rfl, ht⟩⟩
      | queued | acked | canceled =>
        cases hf
        obtain ⟨t, rfl, hrun⟩ := Sent.drop_runs hd
        exact ⟨t, rfl, .inl ⟨rfl, hrun⟩⟩

end ZprCore.Mgmt
