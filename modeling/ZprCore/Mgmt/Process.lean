-- SUMMARY: All links of a process with their senders, and the send futures that outlive them.
import ZprCore.Lib.Run
import ZprCore.Mgmt.Futures
import ZprCore.Zdpr.Queues

/-!
# Links and send futures of a process

The part of the peer table that send futures depend on: each occupied slot holds a peer with
its sender and its session generation. Links are added to vacant slots, restarted and removed;
management packets are sent, acknowledged and retried; and every future returned by
`send_mgmt_helper` is polled, cancelled, limited, enqueued or dropped at any time after.
The management workers all run on one thread, so that each action is atomic.

Each session (the life of one sender, from the creation or restart of a link to the next
restart or removal) has a number of its own, which the code does not see.
-/

namespace ZprCore.Mgmt

open Zdpr

variable {Pkt : Type}

abbrev LinkId := Nat

def linkIdUnknown : LinkId := 0

/-! ## Senders as the dispatcher and the retry worker drive them -/

/-- `while sender.unblock_needed() { sender.enqueue_next_blocked_packet() }`, with the packets
    put on the wire. -/
def drainBlocked : Nat → Sender Pkt → Option (Sender Pkt × List (SeqNum × Pkt))
  | 0, sender => some (sender, [])
  | fuel + 1, sender =>
    if sender.unblockNeeded then
      match sender.enqueueNextBlockedPacket with
      | none => none
      | some (snPkt, sender) =>
        (drainBlocked fuel sender).map fun (sender, sent) => (sender, snPkt :: sent)
    else some (sender, [])

def handleAcknowledgementCanceledCommon (sender : Sender Pkt) (seqNum : SeqNum)
    (isCanceled : Bool) : Option (Sender Pkt × List (SeqNum × Pkt)) :=
  let processed :=
    if isCanceled then sender.processCanceled seqNum
    else (sender.processAck seqNum).map (·.2)
  processed.bind fun sender => drainBlocked sender.blocked.length sender

/-- The rounds of the loop. -/
inductive Drains : Sender Pkt → List (SeqNum × Pkt) → Sender Pkt → Prop where
  | nil {s : Sender Pkt} : Drains s [] s
  | cons {s t s' : Sender Pkt} {r : SeqNum × Pkt} {sent : List (SeqNum × Pkt)}
      (hnext : s.enqueueNextBlockedPacket = some (r, t)) (hrest : Drains t sent s') :
      Drains s (r :: sent) s'

theorem drains_of_drainBlocked {fuel : Nat} {s s' : Sender Pkt} {sent : List (SeqNum × Pkt)}
    (h : drainBlocked fuel s = some (s', sent)) : Drains s sent s' := by
  induction fuel generalizing s sent with
  | zero =>
    cases h
    exact .nil
  | succ fuel ih =>
    simp only [drainBlocked] at h
    split at h
    · split at h
      · cases h
      next hnext =>
      obtain ⟨_, hrest, heq⟩ := Option.map_eq_some_iff.mp h
      cases heq
      exact .cons hnext (ih hrest)
    · cases h
      exact .nil

/-- One tick of `zdpr_worker`: the aged sender, the packets and the cancels to resend. -/
def retryTick (zdprSend : Sender Pkt) : Sender Pkt × List (SeqNum × Pkt) × List SeqNum :=
  let zdprSend := zdprSend.ageRetries.2
  (zdprSend, zdprSend.retryPackets, zdprSend.retryCancels)

inductive TlvValue where
  | u16 (value : UInt16)
  | other
deriving DecidableEq

/-- The entries of a WINDOW_SIZE TLV are applied one by one, up to one of the wrong type. -/
def processWindowSizeTlv (zdprSend : Sender Pkt) : List TlvValue → Option (Sender Pkt)
  | [] => some zdprSend
  | .u16 windowSize :: rest =>
    if windowSize < 1 then processWindowSizeTlv zdprSend rest
    else
      (zdprSend.adjustWindowSize windowSize.toNat).bind fun zdprSend =>
        processWindowSizeTlv zdprSend rest
  | .other :: _ => some zdprSend

/-- What reaches a sender from elsewhere than its user. -/
inductive SenderInput where
  | reply (reply : Zdpr.Reply)
  | retryTick
  | windowSizeTlv (tlvValue : List TlvValue)

/-- The sender after an input, the packets it has numbered, and the messages that are sent again. -/
def SenderInput.apply (s : Sender Pkt) :
    SenderInput → Option (Sender Pkt × List (SeqNum × Pkt) × List (Message Pkt))
  | .reply (.ack sn) =>
    (handleAcknowledgementCanceledCommon s sn false).map fun (s, sent) => (s, sent, [])
  | .reply (.canceled sn) =>
    (handleAcknowledgementCanceledCommon s sn true).map fun (s, sent) => (s, sent, [])
  | .retryTick =>
    let (s, packets, cancels) := Mgmt.retryTick s
    some (s, [], packets.map (fun r => .packet r.1 r.2) ++ cancels.map .cancel)
  | .windowSizeTlv tlvValue => (processWindowSizeTlv s tlvValue).map fun s => (s, [], [])

/-! ## The process -/

structure Peer (Pkt : Type) where
  zdprSend : Sender Pkt
  zdprGeneration : BitVec 64
  /-- the number of the session `zdprSend` belongs to -/
  session : Nat
  /-- the number of the session with which the peer took the slot -/
  firstSession : Nat

structure Future where
  kind : FutureKind
  linkId : LinkId
  packetId : PacketId
  generation : BitVec 64
  /-- the session the packet was sent on, if the link existed -/
  session : Option Nat
  /-- polled to completion: from now on it is only dropped -/
  resolved : Bool

def Future.update (f : Future) (kind : FutureKind) (packetId : PacketId) (resolved : Bool) : Future :=
  { f with kind, packetId, resolved }

structure Process (Pkt : Type) where
  peers : LinkId → Option (Peer Pkt)
  /-- every future returned so far, `none` once it is consumed -/
  futures : List (Option Future)
  /-- how many sessions have begun -/
  sessions : Nat

inductive ProcessAction (Pkt : Type) where
  | addPeer (link : LinkId)
  | removePeer (link : LinkId)
  | resetZdprSession (link : LinkId)
  | sendMgmt (link : LinkId) (packet : Pkt)
  | input (link : LinkId) (input : SenderInput)
  | future (i : Nat) (op : FutureOp)

namespace Process

def init : Process Pkt := ⟨fun _ => none, [], 0⟩

def setPeer (p : Process Pkt) (link : LinkId) (peer : Option (Peer Pkt)) : Process Pkt :=
  { p with peers := Function.update p.peers link peer }

def peerState (p : Process Pkt) (f : Future) : Option (Peer Pkt) :=
  match p.peers f.linkId with
  | some peer => if peer.zdprGeneration = f.generation then some peer else none
  | none => none

theorem peers_of_peerState {p : Process Pkt} {f : Future} {peer : Peer Pkt}
    (h : p.peerState f = some peer) : p.peers f.linkId = some peer := by
  unfold peerState at h
  split at h
  · next heq =>
    split at h
    · exact heq.trans h
    · cases h
  · cases h

/-- Replace the sender of a link, if there is such a link. -/
def updateSender (p : Process Pkt) (link : LinkId) (f : Sender Pkt → Option (Sender Pkt)) :
    Option (Process Pkt) :=
  match p.peers link with
  | none => some p
  | some peer =>
    (f peer.zdprSend).map fun zdprSend => p.setPeer link (some { peer with zdprSend })

def sendMgmtHelper (p : Process Pkt) (link : LinkId) (packet : Pkt) : Process Pkt :=
  match p.peers link with
  | none =>
    { p with futures := p.futures ++ [some ⟨.sent, linkIdUnknown, .queued 0, 0, none, false⟩] }
  | some peer =>
    let (result, zdprSend) := peer.zdprSend.enqueuePacket packet
    let packetId :=
      match result with
      | .sent sn _ => .sent sn
      | .queued id => .queued id
    let future : Future :=
      ⟨.sent, link, packetId, peer.zdprGeneration, some peer.session, false⟩
    { p.setPeer link (some { peer with zdprSend }) with futures := p.futures ++ [some future] }

/-- An operation on the `i`th future `f` that reaches `peer`, or finds its link gone. A resolved
    future is only dropped. -/
def futureStepWith (p : Process Pkt) (i : Nat) (f : Future) (op : FutureOp)
    (peer : Option (Peer Pkt)) : Option (Process Pkt) :=
  if f.resolved ∧ op ≠ .drop then none
  else
    (op.run (peer.map (·.zdprSend)) f.kind f.packetId).map fun r =>
      let futures := r.after f.update p.futures i
      match peer, r.peer with
      | some peer, some zdprSend =>
        { p.setPeer f.linkId (some { peer with zdprSend }) with futures }
      | _, _ => { p with futures }

def futureStep (p : Process Pkt) (i : Nat) (op : FutureOp) : Option (Process Pkt) :=
  match p.futures[i]? with
  | some (some f) => p.futureStepWith i f op (p.peerState f)
  | _ => none

def step (p : Process Pkt) : ProcessAction Pkt → Option (Process Pkt)
  | .addPeer link =>
    if link = linkIdUnknown ∨ (p.peers link).isSome then none
    else some
      { p.setPeer link (some ⟨.new, 0, p.sessions, p.sessions⟩) with sessions := p.sessions + 1 }
  | .removePeer link => some (p.setPeer link none)
  | .resetZdprSession link =>
    match p.peers link with
    | none => some p
    | some peer =>
      some
        { p.setPeer link (some
            ⟨peer.zdprSend.reset, peer.zdprGeneration + 1, p.sessions, peer.firstSession⟩) with
          sessions := p.sessions + 1 }
  | .sendMgmt link packet => some (p.sendMgmtHelper link packet)
  | .input link input => p.updateSender link fun s => (input.apply s).map (·.1)
  | .future i op => p.futureStep i op

end Process

end ZprCore.Mgmt
