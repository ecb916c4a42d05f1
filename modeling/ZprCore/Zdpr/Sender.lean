-- SUMMARY: The sending half of a reliable ZDP session.
import Mathlib.Data.BitVec

/-!
# ZDP-R sender

Model of `Sender` in `zdpr.rs`. Sequence numbers and queued-packet ids are 64-bit words, and
a word is located in a queue by its signed distance from the queue's newest entry, as the
source does. A function that panics (a failed `assert!`, a `panic!`, a negation or an addition
that overflows `i64`) returns `none`. `VecDeque` is `List`, the usize lengths and the
statistics counters are `Nat`, and the wakers that `wake()` was called on are recorded in the
field `woken`, oldest first.
-/

namespace ZprCore.Zdpr

abbrev SeqNum := BitVec 64

/-- ID of a packet which was queued for sending (but maybe not yet sent). -/
abbrev QueuedPacketId := BitVec 64

/-- `std::task::Waker`: the no-op waker, or the waker of a task. -/
inductive Waker where
  | noop
  | task (id : Nat)
deriving DecidableEq

inductive Poll (α : Type) where
  | ready (a : α)
  | pending
deriving DecidableEq

/-! ## Locating a word in a queue -/

def wrappingOffset (a b : BitVec 64) : Int := (a - b).toInt

/-- Where a signed offset from the newest entry of a queue falls. -/
inductive Position where
  /-- newer than every entry -/
  | ahead
  /-- older than every entry -/
  | behind
  /-- the entry with this index from the front -/
  | at (idx : Nat)
  /-- `-offset` overflows -/
  | overflow
deriving DecidableEq

/-- The test `offset > 0`, the test `-offset >= len` and the index `len + offset - 1`, in the
    order in which every operation of the sender makes them. -/
def position (offset : Int) (len : Nat) : Position :=
  if offset > 0 then .ahead
  else if offset = -2 ^ 63 then .overflow
  else if -offset ≥ len then .behind
  else .at (len + offset - 1).toNat

/-! ## Packet states -/

inductive SenderStat where
  | invalidAck
  | tooOldAck
  | duplicateAck
  | tooNewAck
deriving DecidableEq

/-- State of a packet that has been sent and has not left the window. -/
inductive UnackedState (Pkt : Type) where
  | unacked (packet : Pkt) (waker : Waker) (retryLimit : Option UInt8) (retryCount : UInt8)
      (forgotten : Bool)
  | cancelRequested (waker : Waker) (forgotten : Bool)
  | acked
  | cancelAcked
deriving DecidableEq

/-- State of a packet that waits for room in the window. -/
inductive BlockedState (Pkt : Type) where
  | blocked (packet : Pkt) (waker : Waker) (retryLimit : Option UInt8)
  | canceled
deriving DecidableEq

/-- `Some(min(limit, current.unwrap_or(u8::MAX)))` -/
def lowerLimit (limit : UInt8) (current : Option UInt8) : Option UInt8 :=
  some (min limit (current.getD 255))

variable {Pkt : Type}

namespace UnackedState

def isAcked : UnackedState Pkt → Bool
  | .acked | .cancelAcked => true
  | .unacked .. | .cancelRequested .. => false

def cancel : UnackedState Pkt → Option Pkt × UnackedState Pkt
  | .unacked packet waker _ _ forgotten => (some packet, .cancelRequested waker forgotten)
  | s => (none, s)

def limitRetries (limit : UInt8) : UnackedState Pkt → UnackedState Pkt
  | .unacked packet waker retryLimit retryCount forgotten =>
    .unacked packet waker (lowerLimit limit retryLimit) retryCount forgotten
  | s => s

/-- A packet that is neither cancelled nor retry-limited is left alone. -/
def forget : UnackedState Pkt → UnackedState Pkt
  | .unacked packet waker (some limit) retryCount _ =>
    .unacked packet waker (some limit) retryCount true
  | .cancelRequested waker _ => .cancelRequested waker true
  | .cancelAcked => .acked
  | s => s

def saturatingInc (n : UInt8) : UInt8 := if n = 255 then 255 else n + 1

def ageRetries : UnackedState Pkt → Option Pkt × UnackedState Pkt
  | .unacked packet waker (some limit) retryCount forgotten =>
    if retryCount ≥ limit then
      cancel (.unacked packet waker (some limit) retryCount forgotten)
    else
      (none, .unacked packet waker (some limit) (saturatingInc retryCount) forgotten)
  | .unacked packet waker none retryCount forgotten =>
    (none, .unacked packet waker none (saturatingInc retryCount) forgotten)
  | s => (none, s)

/-- The wakers that `destruct` wakes, and the packet it returns. -/
def destruct : UnackedState Pkt → List Waker × Option Pkt
  | .unacked packet waker _ _ _ => ([waker], some packet)
  | .cancelRequested waker _ => ([waker], none)
  | .acked | .cancelAcked => ([], none)

end UnackedState

namespace BlockedState

def cancel : BlockedState Pkt → Option (Pkt × Waker) × BlockedState Pkt
  | .blocked packet waker _ => (some (packet, waker), .canceled)
  | .canceled => (none, .canceled)

def limitRetries (limit : UInt8) : BlockedState Pkt → BlockedState Pkt
  | .blocked packet waker retryLimit => .blocked packet waker (lowerLimit limit retryLimit)
  | .canceled => .canceled

def destruct : BlockedState Pkt → List Waker × Option Pkt
  | .blocked packet waker _ => ([waker], some packet)
  | .canceled => ([], none)

def isCanceled : BlockedState Pkt → Bool
  | .canceled => true
  | .blocked .. => false

end BlockedState

/-! ## The sender and its queries -/

/-- State of the sending side of a reliable ZDP session. -/
structure Sender (Pkt : Type) where
  windowSize : Nat
  /-- the sequence number of the most recent packet sent -/
  lastSent : SeqNum
  /-- outstanding packets; the last entry has sequence number `lastSent` -/
  unacked : List (UnackedState Pkt)
  /-- the ID of the most recent packet queued -/
  lastEnqueued : QueuedPacketId
  /-- packets waiting to be sent; the last entry has ID `lastEnqueued` -/
  blocked : List (BlockedState Pkt)
  /-- queued packets that have left `blocked`; the last has ID `lastEnqueued - blocked.len()` -/
  sent : List (Option SeqNum)
  stats : SenderStat → Nat
  woken : List Waker

/-- State of a packet which was just enqueued. -/
inductive EnqueueResult (Pkt : Type) where
  | sent (sn : SeqNum) (packet : Pkt)
  | queued (id : QueuedPacketId)

namespace Sender

def maxWindowSize : Nat := 2 ^ 64 - 1

def new : Sender Pkt where
  windowSize := 1
  lastSent := BitVec.allOnes 64
  unacked := []
  lastEnqueued := BitVec.allOnes 64
  blocked := []
  sent := []
  stats := fun _ => 0
  woken := []

def wake (s : Sender Pkt) (waker : Waker) : Sender Pkt := { s with woken := s.woken ++ [waker] }

def countStat (s : Sender Pkt) (stat : SenderStat) : Sender Pkt :=
  { s with stats := fun t => if t = stat then s.stats t + 1 else s.stats t }

/-- The wakers that dropping the sender wakes, and the packets it disposes of. -/
def destruct (s : Sender Pkt) : List Waker × List Pkt :=
  let parts := s.unacked.map (·.destruct) ++ s.blocked.map (·.destruct)
  (parts.flatMap (·.1), parts.filterMap (·.2))

/-- Begin a fresh session. The old sender is dropped, which wakes its waiters. -/
def reset (s : Sender Pkt) : Sender Pkt := { new with woken := s.woken ++ s.destruct.1 }

def adjustWindowSize (s : Sender Pkt) (windowSize : Nat) : Option (Sender Pkt) :=
  if windowSize ≥ 1 then some { s with windowSize := min maxWindowSize windowSize } else none

def isBlocked (s : Sender Pkt) : Bool := decide (s.unacked.length ≥ s.windowSize)

def hasBlockedPackets (s : Sender Pkt) : Bool := !s.blocked.isEmpty

def unblockNeeded (s : Sender Pkt) : Bool := !s.isBlocked && s.hasBlockedPackets

def retryNeeded (s : Sender Pkt) : Bool := s.unacked.any fun pkt => !pkt.isAcked

def seqNumPosition (s : Sender Pkt) (sn : SeqNum) : Position :=
  position (wrappingOffset sn s.lastSent) s.unacked.length

def blockedPosition (s : Sender Pkt) (id : QueuedPacketId) : Position :=
  position (wrappingOffset id s.lastEnqueued) s.blocked.length

def sentPosition (s : Sender Pkt) (id : QueuedPacketId) : Position :=
  position (wrappingOffset id s.lastEnqueued + s.blocked.length) s.sent.length

/-- `is_sent` negates the offset without looking at its sign first. -/
def isSent (s : Sender Pkt) (id : QueuedPacketId) : Option Bool :=
  let offset := wrappingOffset id s.lastEnqueued
  if offset = -2 ^ 63 then none else some (decide (-offset ≥ s.blocked.length))

def isAcked (s : Sender Pkt) (sn : SeqNum) : Option Bool :=
  match s.seqNumPosition sn with
  | .ahead => some false
  | .overflow => none
  | .behind => some true
  | .at idx => s.unacked[idx]?.map (·.isAcked)

def isCancelAcked (s : Sender Pkt) (sn : SeqNum) : Option Bool :=
  match s.seqNumPosition sn with
  | .ahead | .overflow => none
  | .behind => some false
  | .at idx =>
    match s.unacked[idx]? with
    | some .cancelAcked => some true
    | some .acked => some false
    | _ => none

/-- The inner `none` is the answer that the packet has already been acknowledged. -/
def lookupSeqNum (s : Sender Pkt) (id : QueuedPacketId) : Option (Option SeqNum) :=
  match s.sentPosition id with
  | .ahead | .overflow => none
  | .behind => some none
  | .at idx => s.sent[idx]?

/-! ## Queue maintenance -/

def setUnacked (s : Sender Pkt) (idx : Nat) (st : UnackedState Pkt) : Sender Pkt :=
  { s with unacked := s.unacked.set idx st }

def setBlocked (s : Sender Pkt) (idx : Nat) (st : BlockedState Pkt) : Sender Pkt :=
  { s with blocked := s.blocked.set idx st }

/-- Move the canceled entries at the front of `blocked` to the end of `sent`. -/
def cleanBlockedQueue (s : Sender Pkt) : Sender Pkt :=
  { s with
    blocked := s.blocked.dropWhile (·.isCanceled)
    sent := s.sent ++ (s.blocked.takeWhile (·.isCanceled)).map fun _ => none }

def isAckedEntry : UnackedState Pkt → Bool
  | .acked => true
  | _ => false

/-- Remove the `Acked` entries at the front of `unacked`; `CancelAcked` entries stay put. -/
def cleanUnackedQueue (s : Sender Pkt) : Sender Pkt :=
  { s with unacked := s.unacked.dropWhile isAckedEntry }

/-- The loop of `clean_sent_queue`, over what is left of `sent`. -/
def dropStale (s : Sender Pkt) : List (Option SeqNum) → Option (List (Option SeqNum))
  | [] => some []
  | none :: rest => s.dropStale rest
  | some sn :: rest =>
    match s.isAcked sn with
    | none => none
    | some false => some (some sn :: rest)
    | some true => s.dropStale rest

/-- Remove the stale entries at the front of `sent`. `is_acked` also holds of `CancelAcked`. -/
def cleanSentQueue (s : Sender Pkt) : Option (Sender Pkt) :=
  (s.dropStale s.sent).map fun sent => { s with sent }

/-- What follows every change of the entry at `idx` to an acknowledged one. -/
def cleanQueues (s : Sender Pkt) (idx : Nat) : Option (Sender Pkt) :=
  let s := if idx = 0 then s.cleanUnackedQueue else s
  s.cleanSentQueue

/-! ## Polling -/

def pollSend (s : Sender Pkt) (cx : Waker) (id : QueuedPacketId) :
    Option (Poll (Option SeqNum) × Sender Pkt) :=
  match s.blockedPosition id with
  | .ahead | .overflow => none
  | .behind => (s.lookupSeqNum id).map fun sn => (.ready sn, s)
  | .at idx =>
    match s.blocked[idx]? with
    | some (.blocked packet _ retryLimit) =>
      some (.pending, s.setBlocked idx (.blocked packet cx retryLimit))
    | _ => none

def pollAck (s : Sender Pkt) (cx : Waker) (sn : SeqNum) : Option (Poll Unit × Sender Pkt) :=
  match s.seqNumPosition sn with
  | .ahead | .overflow => none
  | .behind => some (.ready (), s)
  | .at idx =>
    match s.unacked[idx]? with
    | some .acked | some .cancelAcked => some (.ready (), s)
    | some (.unacked packet _ retryLimit retryCount forgotten) =>
      some (.pending, s.setUnacked idx (.unacked packet cx retryLimit retryCount forgotten))
    | some (.cancelRequested _ forgotten) =>
      some (.pending, s.setUnacked idx (.cancelRequested cx forgotten))
    | none => none

def pollSendAndAck (s : Sender Pkt) (cx : Waker) (id : QueuedPacketId) :
    Option (Poll Unit × Sender Pkt) :=
  match s.pollSend cx id with
  | none => none
  | some (.pending, s) => some (.pending, s)
  | some (.ready (some sn), s) => s.pollAck cx sn
  | some (.ready none, s) => some (.ready (), s)

/-! ## Sending, cancelling, limiting and forgetting -/

/-- Append a packet to the window under the next sequence number. -/
def pushUnacked (s : Sender Pkt) (packet : Pkt) (retryLimit : Option UInt8) : Sender Pkt :=
  { s with
    unacked := s.unacked ++ [.unacked packet .noop retryLimit 0 false]
    lastSent := s.lastSent + 1 }

def enqueuePacket (s : Sender Pkt) (packet : Pkt) : EnqueueResult Pkt × Sender Pkt :=
  if s.isBlocked || s.hasBlockedPackets then
    let id := s.lastEnqueued + 1
    (.queued id,
      { s with lastEnqueued := id, blocked := s.blocked ++ [.blocked packet .noop none] })
  else
    let s := s.pushUnacked packet none
    (.sent s.lastSent packet, s)

/-- Enqueue the oldest blocked packet; panics unless `unblock_needed()`. -/
def enqueueNextBlockedPacket (s : Sender Pkt) : Option ((SeqNum × Pkt) × Sender Pkt) :=
  if s.isBlocked then none
  else
    match s.blocked with
    | .blocked packet waker retryLimit :: rest =>
      let s := { s with blocked := rest }.pushUnacked packet retryLimit
      let sn := s.lastSent
      let s := { s with sent := s.sent ++ [some sn] }.cleanBlockedQueue
      some ((sn, packet), s.wake waker)
    | _ => none

def cancelQueuedPacket (s : Sender Pkt) (id : QueuedPacketId) : Option (Option Pkt × Sender Pkt) :=
  match s.blockedPosition id with
  | .ahead | .overflow => none
  | .behind => some (none, s)
  | .at idx =>
    match s.blocked[idx]? with
    | none => none
    | some st =>
      match st.cancel with
      | (none, _) => some (none, s)
      | (some (packet, waker), st) =>
        let s := s.setBlocked idx st
        let s := if idx = 0 then s.cleanBlockedQueue else s
        some (some packet, s.wake waker)

def cancelSentPacket (s : Sender Pkt) (sn : SeqNum) : Option (Option Pkt × Sender Pkt) :=
  match s.seqNumPosition sn with
  | .overflow => none
  | .ahead | .behind => some (none, s)
  | .at idx => s.unacked[idx]?.map fun st => (st.cancel.1, s.setUnacked idx st.cancel.2)

def limitRetriesBySeqNum (s : Sender Pkt) (sn : SeqNum) (retryLimit : UInt8) :
    Option (Sender Pkt) :=
  match s.seqNumPosition sn with
  | .overflow => none
  | .ahead | .behind => some s
  | .at idx => s.unacked[idx]?.map fun st => s.setUnacked idx (st.limitRetries retryLimit)

def limitRetriesById (s : Sender Pkt) (id : QueuedPacketId) (retryLimit : UInt8) :
    Option (Sender Pkt) :=
  match s.blockedPosition id with
  | .ahead | .overflow => none
  | .behind =>
    match s.lookupSeqNum id with
    | none => none
    | some none => some s
    | some (some sn) => s.limitRetriesBySeqNum sn retryLimit
  | .at idx => s.blocked[idx]?.map fun st => s.setBlocked idx (st.limitRetries retryLimit)

def forgetCanceledPacket (s : Sender Pkt) (sn : SeqNum) : Option (Sender Pkt) :=
  match s.seqNumPosition sn with
  | .overflow => none
  | .ahead | .behind => some s
  | .at idx =>
    match s.unacked[idx]? with
    | none => none
    | some st => (s.setUnacked idx st.forget).cleanQueues idx

/-! ## Acknowledgements and retries -/

/-- The index of an acknowledged entry, counting acknowledgements outside the window. -/
def lookupAckIndex (s : Sender Pkt) (sn : SeqNum) : Option (Option Nat × Sender Pkt) :=
  match s.seqNumPosition sn with
  | .ahead => some (none, s.countStat .tooNewAck)
  | .overflow => none
  | .behind => some (none, s.countStat .tooOldAck)
  | .at idx => some (some idx, s)

def processAck (s : Sender Pkt) (sn : SeqNum) : Option (Option Pkt × Sender Pkt) :=
  match s.lookupAckIndex sn with
  | none => none
  | some (none, s) => some (none, s)
  | some (some idx, s) =>
    match s.unacked[idx]? with
    | some (.unacked packet waker _ _ _) =>
      ((s.setUnacked idx .acked).cleanQueues idx).map fun s => (some packet, s.wake waker)
    | some (.cancelRequested waker _) =>
      ((s.setUnacked idx .acked).cleanQueues idx).map fun s => (none, s.wake waker)
    | some .acked => some (none, s.countStat .duplicateAck)
    | some .cancelAcked => some (none, s.countStat .invalidAck)
    | none => none

def processCanceled (s : Sender Pkt) (sn : SeqNum) : Option (Sender Pkt) :=
  match s.lookupAckIndex sn with
  | none => none
  | some (none, s) => some s
  | some (some idx, s) =>
    match s.unacked[idx]? with
    | some (.cancelRequested waker forgotten) =>
      ((s.setUnacked idx (if forgotten then .acked else .cancelAcked)).cleanQueues idx).map
        fun s => s.wake waker
    | some (.unacked ..) | some .acked => some (s.countStat .invalidAck)
    | some .cancelAcked => some (s.countStat .duplicateAck)
    | none => none

/-- The packets cancelled by reaching their retry limit, and the aged sender. -/
def ageRetries (s : Sender Pkt) : List Pkt × Sender Pkt :=
  (s.unacked.filterMap (·.ageRetries.1), { s with unacked := s.unacked.map (·.ageRetries.2) })

/-- The sequence number of the oldest entry of `unacked`. -/
def snBase (s : Sender Pkt) : SeqNum := s.lastSent - BitVec.ofNat 64 s.unacked.length + 1

def retryPackets (s : Sender Pkt) : List (SeqNum × Pkt) :=
  s.unacked.zipIdx.filterMap fun
    | (.unacked packet .., offset) => some (s.snBase + BitVec.ofNat 64 offset, packet)
    | _ => none

def retryCancels (s : Sender Pkt) : List SeqNum :=
  s.unacked.zipIdx.filterMap fun
    | (.cancelRequested .., offset) => some (s.snBase + BitVec.ofNat 64 offset)
    | _ => none

def fetchResetStat (s : Sender Pkt) (stat : SenderStat) : Nat × Sender Pkt :=
  (s.stats stat, { s with stats := fun t => if t = stat then 0 else s.stats t })

end Sender

/-! ## Display -/

/-- What `fmt` writes for the entry, unless `limit - retry_count` overflows. -/
def UnackedState.symbol : UnackedState Pkt → Option String
  | .unacked _ _ none _ _ => some "u"
  | .unacked _ _ (some limit) retryCount _ =>
    if limit < retryCount then none else some (toString (limit - retryCount).toNat)
  | .cancelRequested _ forgotten => some (if forgotten then "f" else "c")
  | .acked => some "A"
  | .cancelAcked => some "C"

def BlockedState.symbol : BlockedState Pkt → String
  | .blocked _ _ none => "b"
  | .blocked _ _ (some limit) => toString limit.toNat
  | .canceled => "C"

/-- The three lines, with what is written for the entries of `unacked` and of `blocked`. -/
def Sender.layout (s : Sender Pkt) (unacked blocked : List String) : String :=
  let oldestSent := s.lastSent + 1 - BitVec.ofNat 64 s.unacked.length
  let oldestEnqueued := s.lastEnqueued + 1 - BitVec.ofNat 64 s.blocked.length
  s!"window size: {s.windowSize}\n" ++
    s!"Unacked: {oldestSent.toNat} {String.join unacked} {s.lastSent.toNat}\n" ++
    s!"Blocked: {oldestEnqueued.toNat} {String.join blocked} {s.lastEnqueued.toNat}\n"

def Sender.fmt (s : Sender Pkt) : Option String :=
  (s.unacked.mapM UnackedState.symbol).map fun unacked =>
    s.layout unacked (s.blocked.map BlockedState.symbol)

end ZprCore.Zdpr
