-- SUMMARY: A ZDP-R sender and receiver joined by two unreliable channels.
import ZprCore.Lib.Run
import ZprCore.Zdpr.Receiver
import ZprCore.Zdpr.Status

/-!
# ZDP-R session

One `Sender` and one `Receiver` connected by a forward channel (packets and cancellation
requests) and a backward channel (acknowledgements). A channel is the list of all messages
ever put on it, and any of them may be delivered at any time, any number of times, or never:
this is loss, duplication and reordering, without forgery. The caller of the sender may invoke
its operations in any order; an operation that panics has no successor state.

Beside the two machines a session records what has been observed so far: how many packets were
sent, which numbers the receiver processed or refused, and which acknowledgements moved an
entry of the sender.
-/

namespace ZprCore.Zdpr

variable {Pkt : Type}

inductive Message (Pkt : Type) where
  | packet (sn : SeqNum) (packet : Pkt)
  | cancel (sn : SeqNum)
deriving DecidableEq

def Message.sn : Message Pkt → SeqNum
  | .packet sn _ => sn
  | .cancel sn => sn

inductive Reply where
  | ack (sn : SeqNum)
  | canceled (sn : SeqNum)
deriving DecidableEq

/-- The answer to a message with this disposition, if there is one. -/
def Disposition.reply (d : Disposition) (sn : SeqNum) : List Reply :=
  if d.shouldAck then [if d.ackIsCanceled then .canceled sn else .ack sn] else []

/-- The operations a caller may invoke on its sender. -/
inductive SenderOp (Pkt : Type) where
  | enqueuePacket (packet : Pkt)
  | enqueueNextBlockedPacket
  | retryPackets
  | retryCancels
  | ageRetries
  | cancelQueuedPacket (id : QueuedPacketId)
  | cancelSentPacket (sn : SeqNum)
  | limitRetriesById (id : QueuedPacketId) (retryLimit : UInt8)
  | limitRetriesBySeqNum (sn : SeqNum) (retryLimit : UInt8)
  | forgetCanceledPacket (sn : SeqNum)
  | adjustWindowSize (windowSize : Nat)
  | pollSend (cx : Waker) (id : QueuedPacketId)
  | pollAck (cx : Waker) (sn : SeqNum)
  | pollSendAndAck (cx : Waker) (id : QueuedPacketId)

/-- The sender after an operation, and the messages its caller puts on the wire. -/
def SenderOp.run (s : Sender Pkt) : SenderOp Pkt → Option (Sender Pkt × List (Message Pkt))
  | .enqueuePacket packet =>
    match s.enqueuePacket packet with
    | (.queued _, s) => some (s, [])
    | (.sent sn packet, s) => some (s, [.packet sn packet])
  | .enqueueNextBlockedPacket =>
    -- `while zdpr_send.unblock_needed()`
    if s.unblockNeeded then
      s.enqueueNextBlockedPacket.map fun r => (r.2, [.packet r.1.1 r.1.2])
    else none
  | .retryPackets => some (s, s.retryPackets.map fun r => .packet r.1 r.2)
  | .retryCancels => some (s, s.retryCancels.map .cancel)
  | .ageRetries => some (s.ageRetries.2, [])
  | .cancelQueuedPacket id => (s.cancelQueuedPacket id).map fun r => (r.2, [])
  | .cancelSentPacket sn =>
    -- the caller may also send the cancellation request at once
    (s.cancelSentPacket sn).map fun r => (r.2, if r.1.isSome then [.cancel sn] else [])
  | .limitRetriesById id retryLimit => (s.limitRetriesById id retryLimit).map fun s => (s, [])
  | .limitRetriesBySeqNum sn retryLimit =>
    (s.limitRetriesBySeqNum sn retryLimit).map fun s => (s, [])
  | .forgetCanceledPacket sn => (s.forgetCanceledPacket sn).map fun s => (s, [])
  | .adjustWindowSize windowSize => (s.adjustWindowSize windowSize).map fun s => (s, [])
  | .pollSend cx id => (s.pollSend cx id).map fun r => (r.2, [])
  | .pollAck cx sn => (s.pollAck cx sn).map fun r => (r.2, [])
  | .pollSendAndAck cx id => (s.pollSendAndAck cx id).map fun r => (r.2, [])

/-- Operations that all satisfy `ok`, one after another, with all messages they send. -/
inductive SenderOp.Runs (ok : SenderOp Pkt → Prop) :
    Sender Pkt → List (Message Pkt) → Sender Pkt → Prop where
  | nil {s : Sender Pkt} : Runs ok s [] s
  | cons {op : SenderOp Pkt} {s t u : Sender Pkt} {sent rest : List (Message Pkt)} (hop : ok op)
      (hrun : op.run s = some (t, sent)) (hrest : Runs ok t rest u) : Runs ok s (sent ++ rest) u

variable {ok : SenderOp Pkt → Prop} {sent : List (Message Pkt)}

theorem SenderOp.Runs.single (op : SenderOp Pkt) {s t : Sender Pkt} (hop : ok op)
    (hrun : op.run s = some (t, sent)) : Runs ok s sent t := by
  have h := Runs.cons hop hrun .nil
  rwa [List.append_nil] at h

theorem SenderOp.Runs.trans {s t u : Sender Pkt} {sent' : List (Message Pkt)} (h : Runs ok s sent t)
    (h' : Runs ok t sent' u) : Runs ok s (sent ++ sent') u := by
  induction h with
  | nil => exact h'
  | cons hop hrun _ ih =>
    rw [List.append_assoc]
    exact .cons hop hrun (ih h')

structure Session (Pkt : Type) where
  sender : Sender Pkt
  receiver : Receiver
  /-- every packet and cancellation request put on the wire so far -/
  forward : List (Message Pkt)
  /-- every acknowledgement put on the wire so far -/
  backward : List Reply
  /-- how many sequence numbers the sender has assigned -/
  sentCount : Nat
  /-- the numbers `process_packet` returned `AckAndProcess` for, once per occurrence -/
  processed : List SeqNum
  /-- the numbers the receiver returned `AckCancelDoNotProcess` for -/
  refused : List SeqNum
  /-- the numbers whose entry a `process_ack` moved to `Acked` -/
  acked : List SeqNum
  /-- the numbers whose entry a `process_canceled` moved out of `CancelRequested` -/
  cancelAcked : List SeqNum

inductive SessionAction (Pkt : Type) where
  | sender (op : SenderOp Pkt)
  /-- the `i`th message of the forward channel reaches the receiver -/
  | deliver (i : Nat)
  /-- the `i`th message of the backward channel reaches the sender -/
  | deliverReply (i : Nat)

namespace Session

def start (W : Nat) : Option (Session Pkt) :=
  (Receiver.new W).map fun r => ⟨.new, r, [], [], 0, [], [], [], []⟩

/-- Record the answer of the receiver to a message with number `sn`. -/
def answer (c : Session Pkt) (sn : SeqNum) (d : Disposition) (r : Receiver) : Session Pkt :=
  { c with
    receiver := r
    backward := c.backward ++ d.reply sn
    processed := if d.shouldProcess then c.processed ++ [sn] else c.processed
    refused := if d.ackIsCanceled then c.refused ++ [sn] else c.refused }

/-- An acknowledgement moved the entry for `sn` to an acknowledged state. -/
def newlyAcked (s s' : Sender Pkt) (sn : SeqNum) : Bool :=
  s.isAcked sn == some false && s'.isAcked sn == some true

/-- The sender after an acknowledgement message. -/
def receiveReply (s : Sender Pkt) : Reply → Option (Sender Pkt)
  | .ack sn => (s.processAck sn).map (·.2)
  | .canceled sn => s.processCanceled sn

def step (c : Session Pkt) : SessionAction Pkt → Option (Session Pkt)
  | .sender op =>
    (op.run c.sender).map fun (s, messages) =>
      { c with
        sender := s
        forward := c.forward ++ messages
        sentCount := c.sentCount + if s.lastSent = c.sender.lastSent then 0 else 1 }
  | .deliver i =>
    match c.forward[i]? with
    | none => none
    | some (.packet sn _) => (c.receiver.processPacket sn).map fun (d, r) => c.answer sn d r
    | some (.cancel sn) => (c.receiver.processCancel sn).map fun (d, r) => c.answer sn d r
  | .deliverReply i =>
    match c.backward[i]? with
    | none => none
    | some (.ack sn) =>
      (c.sender.processAck sn).map fun (_, s) =>
        { c with
          sender := s
          acked := if newlyAcked c.sender s sn then c.acked ++ [sn] else c.acked }
    | some (.canceled sn) =>
      (c.sender.processCanceled sn).map fun s =>
        { c with
          sender := s
          cancelAcked := if newlyAcked c.sender s sn then c.cancelAcked ++ [sn] else c.cancelAcked }

theorem deliver_eq_answer {c c' : Session Pkt} {i : Nat} (h : step c (.deliver i) = some c') :
    ∃ sn d r, c' = c.answer sn d r := by
  simp only [step] at h
  split at h
  · cases h
  all_goals
    obtain ⟨⟨d, r⟩, -, rfl⟩ := Option.map_eq_some_iff.mp h
    exact ⟨_, d, r, rfl⟩

/-- The sender's window is never adjusted above `W`. -/
def WindowAtMost (W : Nat) : Session Pkt → SessionAction Pkt → Prop
  | _, .sender (.adjustWindowSize windowSize) => windowSize ≤ W
  | _, _ => True

instance {W : Nat} (c : Session Pkt) : (a : SessionAction Pkt) → Decidable (WindowAtMost W c a)
  | .sender (.adjustWindowSize windowSize) => inferInstanceAs (Decidable (windowSize ≤ W))
  | .sender (.enqueuePacket _) | .sender .enqueueNextBlockedPacket | .sender .retryPackets
  | .sender .retryCancels | .sender .ageRetries | .sender (.cancelQueuedPacket _)
  | .sender (.cancelSentPacket _) | .sender (.limitRetriesById _ _)
  | .sender (.limitRetriesBySeqNum _ _) | .sender (.forgetCanceledPacket _)
  | .sender (.pollSend _ _) | .sender (.pollAck _ _) | .sender (.pollSendAndAck _ _)
  | .deliver _ | .deliverReply _ => inferInstanceAs (Decidable True)

def Reachable (W : Nat) : Session Pkt → Prop := Run step (start W = some ·) (WindowAtMost W)

end Session

end ZprCore.Zdpr
