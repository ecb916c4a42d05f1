-- SUMMARY: The waker that a pending poll leaves in the sender is woken in the end.
import ZprCore.Zdpr.Located

/-!
# Wake-ups

A poll that returns `Pending` leaves its waker in an entry of `blocked` or `unacked`. The entry is
rewritten, moved and trimmed by the calls that follow. Each of them keeps the waker in the entry,
or wakes it and ends what the poll waits for: the entry of `blocked` is sent or cancelled, the
entry of `unacked` is acknowledged. A poll for both the send and the acknowledgement waits in one
queue first and in the other one later; it has to be repeated in between, and its waker is woken
for that.
-/

namespace ZprCore.Zdpr

variable {Pkt : Type} {m : Move Pkt}

/-- One of the three polls, with the packet it asks about. -/
inductive Watch where
  | send (id : QueuedPacketId)
  | ack (sn : SeqNum)
  | sendAndAck (id : QueuedPacketId)
deriving DecidableEq

/-- The entry that a poll looks at. -/
inductive Slot where
  | blocked (idx : Nat)
  | unacked (idx : Nat)
deriving DecidableEq

namespace Watch

/-- Whether the poll with waker `cx` returns `Pending`, and the sender after it. -/
def poll (s : Sender Pkt) (cx : Waker) : Watch → Option (Bool × Sender Pkt)
  | .send id => (s.pollSend cx id).map fun (r, s) => (decide (r = .pending), s)
  | .ack sn => (s.pollAck cx sn).map fun (r, s) => (decide (r = .pending), s)
  | .sendAndAck id => (s.pollSendAndAck cx id).map fun (r, s) => (decide (r = .pending), s)

def pending (s : Sender Pkt) (watch : Watch) : Bool := (watch.poll s .noop).any (·.1)

def ackSlot (s : Sender Pkt) (sn : SeqNum) : Option Slot :=
  match s.seqNumPosition sn with
  | .at idx => some (.unacked idx)
  | _ => none

def slot (s : Sender Pkt) : Watch → Option Slot
  | .send id =>
    match s.blockedPosition id with
    | .at idx => some (.blocked idx)
    | _ => none
  | .ack sn => ackSlot s sn
  | .sendAndAck id =>
    match s.blockedPosition id with
    | .at idx => some (.blocked idx)
    | .behind => (s.lookupSeqNum id).join.bind (ackSlot s)
    | _ => none

end Watch

def SenderCall.watch? : SenderCall → Option Watch
  | .pollSend _ id => some (.send id)
  | .pollAck _ sn => some (.ack sn)
  | .pollSendAndAck _ id => some (.sendAndAck id)
  | _ => none

namespace SenderAction

/-- The action is a poll of the entry that `watch` waits at. -/
def replaces (s : Sender Pkt) (watch : Watch) : SenderAction Pkt → Bool
  | .call c => c.watch?.any fun other => other.slot s == watch.slot s
  | _ => false

def isReset : SenderAction Pkt → Bool
  | .reset => true
  | _ => false

end SenderAction

/-! ## Which moves touch which wakers -/

namespace Move

/-- The move leaves the wakers of `blocked` where they are. -/
def keepsSlots : Move Pkt → Bool
  | .slot _ .cancel | .slot _ (.setWaker _) | .unblock _ => false
  | _ => true

/-- The move leaves the wakers of `unacked` where they are. -/
def keepsEntries : Move Pkt → Bool
  | .entry _ .ack | .entry _ .cancelAck | .entry _ (.setWaker _) => false
  | _ => true

end Move

namespace SenderCall

/-- The call may send, cancel or poll for a packet in `blocked`. -/
def touchesSlots : SenderCall → Bool
  | .enqueueNextBlockedPacket | .cancelQueuedPacket _ | .pollSend .. | .pollSendAndAck .. => true
  | _ => false

/-- The call may append to, acknowledge or poll for a packet in `unacked`. -/
def touchesEntries : SenderCall → Bool
  | .enqueueNextBlockedPacket | .processAck _ | .processCanceled _ | .pollAck ..
  | .pollSendAndAck .. => true
  | _ => false

theorem keepsSlots_of_allows {c : SenderCall} (hc : c.touchesSlots = false)
    (h : c.allows m = true) : m.keepsSlots = true ∧ m.isSteady = true := by
  cases m with
  | quiet | entry | trim | trimBlocked => exact ⟨rfl, rfl⟩
  | slot idx op =>
    cases op with
    | limit => exact ⟨rfl, rfl⟩
    | setWaker | cancel => cases c <;> simp_all [allows, touchesSlots]
  | queue | send | unblock => cases c <;> simp_all [allows, touchesSlots]

theorem keepsEntries_of_allows {c : SenderCall} (hc : c.touchesEntries = false)
    (h : c.allows m = true) : m.keepsEntries = true ∧ m.isSteady = true := by
  cases m with
  | quiet | slot | trim | trimBlocked => exact ⟨rfl, rfl⟩
  | entry idx op =>
    cases op with
    | limit | forget | cancel | age => exact ⟨rfl, rfl⟩
    | setWaker | ack | cancelAck => cases c <;> simp_all [allows, touchesEntries]
  | queue | send | unblock => cases c <;> simp_all [allows, touchesEntries]

end SenderCall

/-! ## Wakers in entries -/

def UnackedState.waker? : UnackedState Pkt → Option Waker
  | .unacked _ waker _ _ _ | .cancelRequested waker _ => some waker
  | .acked | .cancelAcked => none

namespace Sender

variable {s s' t : Sender Pkt} {id : QueuedPacketId} {sn : SeqNum} {w : Waker} {idx : Nat}

/-- The wakers woken on the way from `s` to `s'`. -/
def wokenUntil (s s' : Sender Pkt) : List Waker := s'.woken.drop s.woken.length

/-- The packet waits in `blocked`, with waker `w`. -/
def HeldSend (s : Sender Pkt) (id : QueuedPacketId) (w : Waker) : Prop :=
  ∃ p l, s.SlotAt id (.blocked p w l)

/-- The packet is not acknowledged yet, and its entry has waker `w`. -/
def HeldAck (s : Sender Pkt) (sn : SeqNum) (w : Waker) : Prop :=
  ∃ e, s.EntryAt sn e ∧ e.waker? = some w

/-- The packet was withdrawn while it waited. -/
def CanceledAt (s : Sender Pkt) (id : QueuedPacketId) : Prop :=
  s.SlotAt id .canceled ∨ s.RecordAt id none

variable {e : UnackedState Pkt} {op : EntryOp} {ps : List Pkt} {id' : QueuedPacketId} {cx : Waker}
  {c : SenderCall} {r : Sender Pkt}

theorem isAcked_of_waker? (h : e.waker? = some w) : e.isAcked = false := by
  cases e <;> first | rfl | cases h

theorem blockedPosition_of_behind (h : s.sentPosition id = .behind) :
    s.blockedPosition id = .behind ∨ s.blockedPosition id = .overflow := by
  unfold sentPosition position at h
  unfold blockedPosition position
  split_ifs at h with h1 h2 h3
  rw [if_neg (by omega)]
  split_ifs with h4 h5
  · exact .inr rfl
  · exact .inl rfl
  · omega

theorem HeldAck.isAcked (h : s.HeldAck sn w) : s.isAcked sn = some false := by
  obtain ⟨e, hat, hw⟩ := h
  rw [hat.isAcked, isAcked_of_waker? hw]

/-! ## One move -/

theorem HeldAck.trim (h : s.HeldAck sn w) (hs : s.Short) (hc : s.cleanQueues idx = some s') :
    s'.HeldAck sn w := by
  obtain ⟨e, hat, hw⟩ := h
  exact ⟨e, (entryAt_trim hs hc (isAckedEntry_of_isAcked (isAcked_of_waker? hw))).mpr hat, hw⟩

theorem CanceledAt.trimBlocked (h : s.CanceledAt id) (hs : s.Short) :
    s.cleanBlockedQueue.CanceledAt id := by
  rcases h with hslot | hrecord
  · have hq := hs.queues
    have hsplit := List.takeWhile_append_dropWhile (p := (·.isCanceled)) (l := s.blocked)
    unfold SlotAt at hslot
    rw [← hsplit, finds_append (by rw [hsplit]; omega)] at hslot
    rcases hslot with hfront | hback
    · exact .inr ((recordAt_trimBlocked hs).mpr (.inr ⟨rfl, hfront⟩))
    · exact .inl hback
  · exact .inr ((recordAt_trimBlocked hs).mpr (.inl hrecord))

/-- The acknowledgement of `sn` is awaited with waker `w`, and the queue id in `note` is known to
    stand for `sn`. -/
structure Tracked (s : Sender Pkt) (note : Option QueuedPacketId) (sn : SeqNum) (w : Waker) :
    Prop where
  held : s.HeldAck sn w
  noted : ∀ id ∈ note, s.RecordAt id (some sn)

/-- The acknowledgement of `sn` has come, and what is left of the record says so. -/
structure Over (s : Sender Pkt) (note : Option QueuedPacketId) (sn : SeqNum) : Prop where
  acked : s.AckedAt sn
  noted : ∀ id ∈ note, s.RecordAt id (some sn) ∨ s.sentPosition id = .behind

variable {note : Option QueuedPacketId} {o : Outcome Pkt}

theorem entryOp_waker (hw : e.waker? = some w) (hop : ∀ cx, op ≠ .setWaker cx) :
    (op.apply e).waker? = some w ∨ (op.woken e = [w] ∧ (op.apply e).isAcked = true) := by
  cases e with
  | acked | cancelAcked => cases hw
  | cancelRequested w' x =>
    cases hw
    cases op with
    | setWaker cx => exact absurd rfl (hop cx)
    | limit | forget | cancel | age => exact .inl rfl
    | ack => exact .inr ⟨rfl, rfl⟩
    | cancelAck => exact .inr ⟨rfl, by cases x <;> rfl⟩
  | unacked p w' l c x =>
    cases hw
    cases op with
    | setWaker cx => exact absurd rfl (hop cx)
    | limit | cancel | cancelAck => exact .inl rfl
    | forget => exact .inl (by cases l <;> rfl)
    | ack => exact .inr ⟨rfl, rfl⟩
    | age =>
      refine .inl ?_
      cases l with
      | none => rfl
      | some limit =>
        simp only [EntryOp.apply, UnackedState.ageRetries]
        split <;> rfl

theorem Tracked.entry (h : s.Tracked note sn w) (he : s.unacked[idx]? = some e)
    (hop : s.seqNumPosition sn = .at idx → ∀ cx, op ≠ .setWaker cx) :
    Tracked { s.setUnacked idx (op.apply e) with woken := s.woken ++ op.woken e } note sn w ∨
    (op.woken e = [w] ∧
      Over { s.setUnacked idx (op.apply e) with woken := s.woken ++ op.woken e } note sn) := by
  obtain ⟨⟨e', hat, hw⟩, hnoted⟩ := h
  by_cases hpos : s.seqNumPosition sn = .at idx
  · obtain rfl := hat.unique ⟨idx, hpos, he⟩
    have hat' : (s.setUnacked idx (op.apply e')).EntryAt sn (op.apply e') :=
      (entryAt_setUnacked he).mpr (.inl ⟨hpos, rfl⟩)
    rcases entryOp_waker hw (hop hpos) with hkeep | ⟨hwoken, hacked⟩
    · exact .inl ⟨⟨_, hat', hkeep⟩, hnoted⟩
    · exact .inr ⟨hwoken, .inr ⟨_, hat', hacked⟩, fun id hid => .inl (hnoted id hid)⟩
  · exact .inl ⟨⟨e', (entryAt_setUnacked he).mpr (.inr ⟨hpos, hat⟩), hw⟩, hnoted⟩

theorem Tracked.trim (h : s.Tracked note sn w) (hs : s.Short) (hc : s.cleanQueues idx = some s') :
    s'.Tracked note sn w := by
  have hheld := h.held.trim hs hc
  refine ⟨hheld, fun id hid => ?_⟩
  rcases (h.noted id hid).trim hs hc with hnoted | ⟨-, hacked⟩
  · exact hnoted
  · cases hheld.isAcked.symm.trans hacked

theorem Over.trim (h : s.Over note sn) (hs : s.Short) (hc : s.cleanQueues idx = some s') :
    s'.Over note sn := by
  refine ⟨h.acked.trim hs hc, fun id hid => ?_⟩
  rcases h.noted id hid with hnoted | hbehind
  · rcases hnoted.trim hs hc with hnoted | ⟨hbehind, -⟩
    · exact .inl hnoted
    · exact .inr hbehind
  obtain ⟨hlast, hblocked, pre, hsent, -⟩ := cleanQueues_sent hc
  have hle : s'.sent.length ≤ s.sent.length := by
    rw [hsent, List.length_append]
    exact Nat.le_add_left _ _
  refine .inr ?_
  unfold sentPosition
  rw [hlast, hblocked]
  exact position_behind_mono hbehind hle

theorem HeldSend.move (h : s.HeldSend id w) (hs : s.Short) (hm : Moved s m s')
    (hk : m.keepsSlots = true) : s'.HeldSend id w := by
  cases hm with
  | quiet | entry | send => exact h
  | @slot idx b op hb =>
    cases op with
    | setWaker | cancel => cases hk
    | limit l =>
      obtain ⟨p, l', hat⟩ := h
      by_cases hpos : s.blockedPosition id = .at idx
      · obtain rfl := hat.unique ⟨idx, hpos, hb⟩
        exact ⟨p, lowerLimit l l', (slotAt_setBlocked hb).mpr (.inl ⟨hpos, rfl⟩)⟩
      · exact ⟨p, l', (slotAt_setBlocked hb).mpr (.inr ⟨hpos, hat⟩)⟩
  | trim hc =>
    obtain ⟨p, l, hat⟩ := h
    obtain ⟨hlast, hblocked, -⟩ := cleanQueues_sent hc
    refine ⟨p, l, ?_⟩
    unfold SlotAt
    rw [hlast, hblocked]
    exact hat
  | trimBlocked =>
    obtain ⟨p, l, hat⟩ := h
    exact ⟨p, l, (slotAt_trimBlocked hs rfl).mpr hat⟩
  | queue packet =>
    obtain ⟨p, l, hat⟩ := h
    exact ⟨p, l, (slotAt_queue hs packet).mpr (.inl hat)⟩
  | unblock => cases hk

theorem Tracked.move (h : s.Tracked note sn w) (hs : s.Short) (hm : Moved s m s')
    (hk : m.keepsEntries = true) : s'.Tracked note sn w := by
  cases hm with
  | quiet => exact ⟨h.held, h.noted⟩
  | @entry idx e op he =>
    have hop : ∀ cx, op ≠ .setWaker cx := by
      rintro cx rfl
      cases hk
    rcases h.entry he (fun _ => hop) with hkeep | ⟨hwoken, -⟩
    · exact hkeep
    · cases op with
      | ack | cancelAck | setWaker => cases hk
      | limit | forget | cancel | age => cases e <;> cases hwoken
  | slot op hb => exact ⟨h.held, fun id hid => recordAt_setBlocked.mpr (h.noted id hid)⟩
  | trim hc => exact h.trim hs hc
  | trimBlocked =>
    exact ⟨h.held, fun id hid => (recordAt_trimBlocked hs).mpr (.inl (h.noted id hid))⟩
  | queue packet => exact ⟨h.held, fun id hid => (recordAt_queue hs packet).mpr (h.noted id hid)⟩
  | send packet =>
    obtain ⟨e, hat, hw⟩ := h.held
    exact ⟨⟨e, (entryAt_pushUnacked hs packet none).mpr (.inl hat), hw⟩, h.noted⟩
  | unblock hfree hfront =>
    obtain ⟨e, hat, hw⟩ := h.held
    exact ⟨⟨e, (entryAt_popBlocked hs).mpr (.inl hat), hw⟩,
      fun id hid => (recordAt_popBlocked hs hfront).mpr (.inl (h.noted id hid))⟩

/-! ## One call -/

theorem wokenUntil_of_eq {l : List Waker} (h : s'.woken = s.woken ++ l) : s.wokenUntil s' = l := by
  unfold wokenUntil
  rw [h, List.drop_left]

section

variable (h : s.HeldSend id w)

include h

theorem HeldSend.enqueueNextBlockedPacket (hfits : s.fits = true)
    {r : SeqNum × Pkt} (hr : s.enqueueNextBlockedPacket = some (r, s')) :
    s'.HeldSend id w ∨ (w ∈ s.wokenUntil s' ∧ ∃ sn, s'.Tracked (some id) sn .noop) := by
  have hs := short_of_fits hfits
  obtain ⟨-, waker, limit, rest, hfront, -, hshort, rfl⟩ := enqueueNextBlockedPacket_inv hfits hr
  obtain ⟨p, l, hat⟩ := h
  rcases (slotAt_front hs hfront).mp hat with ⟨hoff, heq⟩ | hback
  · cases heq
    refine .inr ⟨?_, s.lastSent + 1, ?_⟩
    · rw [wokenUntil_of_eq (l := [w]) rfl]
      exact List.mem_singleton_self w
    have htracked :
        Tracked (s.popBlocked r.2 w limit rest) (some id) (s.lastSent + 1) .noop := by
      refine ⟨⟨_, (entryAt_popBlocked hs).mpr (.inr ⟨rfl, rfl⟩), rfl⟩, ?_⟩
      rintro _ ⟨⟩
      exact (recordAt_popBlocked hs hfront).mpr (.inr ⟨hoff, rfl⟩)
    exact htracked.move hshort (.trimBlocked _) rfl
  · exact .inl ⟨p, l, (slotAt_trimBlocked hshort rfl).mpr hback⟩

theorem HeldSend.cancelQueuedPacket (hs : s.Short) {r : Option Pkt}
    (hr : s.cancelQueuedPacket id' = some (r, s')) :
    s'.HeldSend id w ∨ (w ∈ s.wokenUntil s' ∧ s'.CanceledAt id) := by
  rcases cancelQueuedPacket_cases hr with ⟨-, rfl⟩ | ⟨idx, p, w', l, -, -, hb, rfl⟩
  · exact .inl h
  have hshort : (s.setBlocked idx .canceled).Short :=
    ⟨hs.unacked, by simpa [setBlocked] using hs.queues⟩
  have hwoken : s.wokenUntil ((if idx = 0 then (s.setBlocked idx .canceled).cleanBlockedQueue
      else s.setBlocked idx .canceled).wake w') = [w'] := by
    split <;> exact wokenUntil_of_eq rfl
  obtain ⟨p', l', hat⟩ := h
  by_cases hpos : s.blockedPosition id = .at idx
  · cases hat.unique ⟨idx, hpos, hb⟩
    refine .inr ⟨by rw [hwoken]; exact List.mem_singleton_self w, ?_⟩
    have hcanceled : CanceledAt (s.setBlocked idx .canceled) id :=
      .inl ((slotAt_setBlocked hb).mpr (.inl ⟨hpos, rfl⟩))
    split
    · exact CanceledAt.trimBlocked hcanceled hshort
    · exact hcanceled
  · have hkept : SlotAt (s.setBlocked idx .canceled) id (.blocked p' w l') :=
      (slotAt_setBlocked hb).mpr (.inr ⟨hpos, hat⟩)
    left
    split
    · exact ⟨p', l', (slotAt_trimBlocked hshort rfl).mpr hkept⟩
    · exact ⟨p', l', hkept⟩

theorem HeldSend.pollSend {r : Poll (Option SeqNum)}
    (hr : s.pollSend cx id' = some (r, s')) (hne : s.blockedPosition id' ≠ s.blockedPosition id) :
    s'.HeldSend id w := by
  rcases pollSend_moves hr with ⟨idx, p, w', l, -, hpos, -, hms⟩ | ⟨o, -, -, -, rfl⟩
  · obtain ⟨b, hb, rfl⟩ := hms.slot_inv
    obtain ⟨p, l, hat⟩ := h
    have hother : s.blockedPosition id ≠ .at idx := fun heq => hne (hpos.trans heq.symm)
    exact ⟨p, l, (slotAt_setBlocked hb).mpr (.inr ⟨hother, hat⟩)⟩
  · exact h

theorem HeldSend.pollSendAndAck (hs : s.Short) {r : Poll Unit}
    (hr : s.pollSendAndAck cx id' = some (r, s'))
    (hne : s.blockedPosition id' ≠ s.blockedPosition id) : s'.HeldSend id w := by
  rcases pollSendAndAck_cases hr with ⟨-, hsend⟩ | ⟨-, hsend⟩ | ⟨sn, -, hack⟩
  · exact h.pollSend hsend hne
  · exact h.pollSend hsend hne
  · cases pollAck_effect hack with
    | idle => exact h
    | entry _ hms => exact hms.keep h hs HeldSend.move (by simp [Move.keepsSlots, Move.isSteady])

end

theorem slot_send (h : s.blockedPosition id = .at idx) :
    (Watch.send id).slot s = some (.blocked idx) := by
  simp only [Watch.slot, h]

theorem slot_sendAndAck (h : s.blockedPosition id = .at idx) :
    (Watch.sendAndAck id).slot s = some (.blocked idx) := by
  simp only [Watch.slot, h]

/-- A call that does not poll for the packet leaves its waker in `blocked`, or wakes it when the
    packet is sent or withdrawn. -/
theorem HeldSend.call (h : s.HeldSend id w) (hfits : s.fits = true) (hc : c.perform s = some o)
    (hav : ∀ other ∈ c.watch?, other.slot s ≠ (Watch.send id).slot s) :
    o.sender.HeldSend id w ∨
    (w ∈ s.wokenUntil o.sender ∧
      (o.sender.CanceledAt id ∨ ∃ sn, o.sender.Tracked (some id) sn .noop)) := by
  have hs := short_of_fits hfits
  by_cases htouch : c.touchesSlots = false
  · obtain ⟨ms, hms, hall⟩ := SenderCall.perform_allows hc
    exact .inl (hms.keep h hs HeldSend.move fun m hm =>
      SenderCall.keepsSlots_of_allows htouch (hall m hm))
  have ⟨p, l, idx, hpos, _⟩ := h
  cases c with
  | enqueueNextBlockedPacket =>
    obtain ⟨⟨r, s'⟩, hr, rfl⟩ := Option.map_eq_some_iff.mp hc
    rcases h.enqueueNextBlockedPacket hfits hr with hheld | ⟨hwoken, htracked⟩
    · exact .inl hheld
    · exact .inr ⟨hwoken, .inr htracked⟩
  | cancelQueuedPacket id' =>
    obtain ⟨⟨r, s'⟩, hr, rfl⟩ := Option.map_eq_some_iff.mp hc
    rcases h.cancelQueuedPacket hs hr with hheld | ⟨hwoken, hcanceled⟩
    · exact .inl hheld
    · exact .inr ⟨hwoken, .inl hcanceled⟩
  | pollSend cx id' =>
    obtain ⟨⟨r, s'⟩, hr, rfl⟩ := Option.map_eq_some_iff.mp hc
    refine .inl (h.pollSend hr fun heq => hav _ rfl ?_)
    rw [slot_send hpos, slot_send (heq.trans hpos)]
  | pollSendAndAck cx id' =>
    obtain ⟨⟨r, s'⟩, hr, rfl⟩ := Option.map_eq_some_iff.mp hc
    refine .inl (h.pollSendAndAck hs hr fun heq => hav _ rfl ?_)
    rw [slot_send hpos, slot_sendAndAck (heq.trans hpos)]
  | _ => exact absurd rfl htouch

theorem Tracked.pollAck (h : s.Tracked note sn w) {sn' : SeqNum} {r : Poll Unit}
    (hr : s.pollAck cx sn' = some (r, s')) (hne : Watch.ackSlot s sn' ≠ Watch.ackSlot s sn) :
    s'.Tracked note sn w := by
  cases pollAck_effect hr with
  | idle => exact h
  | @entry _ idx _ hpos hms =>
    obtain ⟨e, he, rfl⟩ := hms.entry_inv
    have hother : s.seqNumPosition sn ≠ .at idx := by
      intro hat
      exact hne (by simp only [Watch.ackSlot, hpos, hat])
    rcases h.entry he (fun hat => absurd hat hother) with hkeep | ⟨hwoken, -⟩
    · exact hkeep
    · cases hwoken

theorem Tracked.settles (h : s.Tracked note sn w) (hs : s.Short) {sn' : SeqNum}
    (hst : s.Settles op sn' ps s') (hop : ∀ cx, op ≠ .setWaker cx) :
    s'.Tracked note sn w ∨ (w ∈ s.wokenUntil s' ∧ s'.Over note sn) := by
  cases hst with
  | idle | counted => exact .inl ⟨h.held, h.noted⟩
  | entry _ hms =>
  obtain ⟨e, t, he, rfl, hc⟩ := hms.entry_trim_inv
  have hshort := (Moved.entry op he).short rfl hs
  rcases h.entry he (fun _ => hop) with hkeep | ⟨hwoken, hover⟩
  · exact .inl (hkeep.trim hshort hc)
  refine .inr ⟨?_, hover.trim hshort hc⟩
  have hlast : s'.woken = s.woken ++ [w] := by
    obtain ⟨pre, sent, -, rfl, -⟩ := cleanQueues_eq hc
    rw [← hwoken]
  rw [wokenUntil_of_eq hlast]
  exact List.mem_singleton_self w

theorem RecordAt.slot_sendAndAck (h : s.RecordAt id (some sn)) (hs : s.Short) :
    (Watch.sendAndAck id).slot s = Watch.ackSlot s sn := by
  simp only [Watch.slot, h.blockedPosition hs, h.lookupSeqNum, Option.join_some, Option.bind_some]

/-- A call that does not poll for the packet leaves its waker in `unacked`, or wakes it when the
    packet is acknowledged. -/
theorem Tracked.call (h : s.Tracked note sn w) (hfits : s.fits = true) (hc : c.perform s = some o)
    (hav : ∀ other ∈ c.watch?, other.slot s ≠ Watch.ackSlot s sn) :
    o.sender.Tracked note sn w ∨ (w ∈ s.wokenUntil o.sender ∧ o.sender.Over note sn) := by
  have hs := short_of_fits hfits
  by_cases htouch : c.touchesEntries = false
  · obtain ⟨ms, hms, hall⟩ := SenderCall.perform_allows hc
    exact .inl (hms.keep h hs Tracked.move fun m hm =>
      SenderCall.keepsEntries_of_allows htouch (hall m hm))
  cases c with
  | enqueueNextBlockedPacket =>
    obtain ⟨⟨r, s'⟩, hr, rfl⟩ := Option.map_eq_some_iff.mp hc
    obtain ⟨-, _, _, _, -, hm, hshort, rfl⟩ := enqueueNextBlockedPacket_inv hfits hr
    exact .inl ((h.move hs hm rfl).move hshort (.trimBlocked _) rfl)
  | processAck sn' =>
    obtain ⟨⟨r, s'⟩, hr, rfl⟩ := Option.map_eq_some_iff.mp hc
    exact h.settles hs (processAck_effect hr) nofun
  | processCanceled sn' =>
    obtain ⟨s', hr, rfl⟩ := Option.map_eq_some_iff.mp hc
    exact h.settles hs (processCanceled_effect hr) nofun
  | pollAck cx sn' =>
    obtain ⟨⟨r, s'⟩, hr, rfl⟩ := Option.map_eq_some_iff.mp hc
    exact .inl (h.pollAck hr (hav _ rfl))
  | pollSendAndAck cx id' =>
    obtain ⟨⟨r, s'⟩, hr, rfl⟩ := Option.map_eq_some_iff.mp hc
    rcases pollSendAndAck_cases hr with ⟨-, hsend⟩ | ⟨-, hsend⟩ | ⟨sn', hsend, hack⟩
    · rcases pollSend_moves hsend with ⟨idx, p, w', l, -, -, -, hms⟩ | ⟨o, -, -, -, rfl⟩
      · exact .inl (hms.keep h hs Tracked.move (by simp [Move.keepsEntries, Move.isSteady]))
      · exact .inl h
    · rcases pollSend_moves hsend with ⟨idx, p, w', l, ⟨⟩, -⟩ | ⟨o, -, -, -, rfl⟩
      exact .inl h
    · rcases pollSend_moves hsend with ⟨idx, p, w', l, ⟨⟩, -⟩ | ⟨o, ho, -, hlook, -⟩
      cases ho
      have hslot := (recordAt_of_lookupSeqNum hlook).slot_sendAndAck hs
      exact .inl (h.pollAck hack fun heq => hav _ rfl (hslot.trans heq))
  | _ => exact absurd rfl htouch

/-! ## What the polls say -/

theorem HeldSend.pollSend_pending (h : s.HeldSend id w) (cx : Waker) :
    ∃ s', s.pollSend cx id = some (.pending, s') := by
  obtain ⟨p, l, idx, hpos, hget⟩ := h
  have hpos' : s.blockedPosition id = .at idx := hpos
  unfold Sender.pollSend
  simp only [hpos', hget]
  exact ⟨_, rfl⟩

theorem HeldSend.pending_send (h : s.HeldSend id w) : (Watch.send id).pending s = true := by
  obtain ⟨s', hpoll⟩ := h.pollSend_pending .noop
  simp [Watch.pending, Watch.poll, hpoll]

theorem HeldSend.pending_sendAndAck (h : s.HeldSend id w) :
    (Watch.sendAndAck id).pending s = true := by
  obtain ⟨s', hpoll⟩ := h.pollSend_pending .noop
  simp [Watch.pending, Watch.poll, Sender.pollSendAndAck, hpoll]

theorem HeldAck.pollAck_pending (h : s.HeldAck sn w) (cx : Waker) :
    ∃ s', s.pollAck cx sn = some (.pending, s') := by
  obtain ⟨e, ⟨idx, hpos, hget⟩, hw⟩ := h
  have hpos' : s.seqNumPosition sn = .at idx := hpos
  unfold Sender.pollAck
  simp only [hpos', hget]
  cases e with
  | unacked | cancelRequested => exact ⟨_, rfl⟩
  | acked | cancelAcked => cases hw

theorem HeldAck.pending_ack (h : s.HeldAck sn w) : (Watch.ack sn).pending s = true := by
  obtain ⟨s', hpoll⟩ := h.pollAck_pending .noop
  simp [Watch.pending, Watch.poll, hpoll]

theorem AckedAt.pollAck_ready (h : s.AckedAt sn) (cx : Waker) :
    s.pollAck cx sn = some (.ready (), s) := by
  unfold Sender.pollAck
  rcases h with hbehind | ⟨e, ⟨idx, hpos, hget⟩, he⟩
  · simp only [hbehind]
  have hpos' : s.seqNumPosition sn = .at idx := hpos
  simp only [hpos', hget]
  cases e with
  | unacked | cancelRequested => cases he
  | acked | cancelAcked => rfl

theorem RecordAt.pollSend_ready {o : Option SeqNum} (h : s.RecordAt id o) (hs : s.Short)
    (cx : Waker) : s.pollSend cx id = some (.ready o, s) := by
  unfold Sender.pollSend
  simp only [h.blockedPosition hs, h.lookupSeqNum, Option.map_some]

theorem Tracked.pending_send (h : s.Tracked (some id) sn w) (hs : s.Short) :
    (Watch.send id).pending s = false := by
  simp [Watch.pending, Watch.poll, (h.noted id rfl).pollSend_ready hs]

theorem Tracked.pending_sendAndAck (h : s.Tracked (some id) sn w) (hs : s.Short) :
    (Watch.sendAndAck id).pending s = true := by
  obtain ⟨s', hpoll⟩ := h.held.pollAck_pending .noop
  simp [Watch.pending, Watch.poll, Sender.pollSendAndAck, (h.noted id rfl).pollSend_ready hs, hpoll]

theorem Over.pending_ack (h : s.Over note sn) : (Watch.ack sn).pending s = false := by
  simp [Watch.pending, Watch.poll, h.acked.pollAck_ready]

theorem Over.pending_sendAndAck (h : s.Over (some id) sn) (hs : s.Short) :
    (Watch.sendAndAck id).pending s = false := by
  rcases h.noted id rfl with hnoted | hbehind
  · simp [Watch.pending, Watch.poll, Sender.pollSendAndAck, hnoted.pollSend_ready hs,
      h.acked.pollAck_ready]
  have hpoll : s.pollSend .noop id = some (.ready none, s) ∨ s.pollSend .noop id = none := by
    unfold pollSend lookupSeqNum
    rcases blockedPosition_of_behind hbehind with hpos | hpos <;>
      simp only [hpos, hbehind, Option.map_some, true_or, or_true]
  rcases hpoll with hpoll | hpoll <;>
    simp [Watch.pending, Watch.poll, Sender.pollSendAndAck, hpoll]

section

variable (h : s.CanceledAt id) (hs : s.Short)

include h hs

theorem CanceledAt.pollSend (cx : Waker) :
    s.pollSend cx id = none ∨ s.pollSend cx id = some (.ready none, s) := by
  rcases h with ⟨idx, hpos, hget⟩ | hrecord
  · have hpos' : s.blockedPosition id = .at idx := hpos
    left
    unfold Sender.pollSend
    simp only [hpos', hget]
  · exact .inr (hrecord.pollSend_ready hs cx)

theorem CanceledAt.pending_send :
    (Watch.send id).pending s = false := by
  rcases h.pollSend hs .noop with hpoll | hpoll <;> simp [Watch.pending, Watch.poll, hpoll]

theorem CanceledAt.pending_sendAndAck :
    (Watch.sendAndAck id).pending s = false := by
  rcases h.pollSend hs .noop with hpoll | hpoll <;>
    simp [Watch.pending, Watch.poll, Sender.pollSendAndAck, hpoll]

end

theorem HeldSend.mem_destruct (h : s.HeldSend id w) : w ∈ s.destruct.1 := by
  obtain ⟨p, l, hat⟩ := h
  have hpart := List.mem_map_of_mem (f := BlockedState.destruct) hat.mem
  exact List.mem_flatMap.mpr ⟨_, List.mem_append_right _ hpart, List.mem_singleton_self w⟩

theorem HeldAck.mem_destruct (h : s.HeldAck sn w) : w ∈ s.destruct.1 := by
  obtain ⟨e, hat, hw⟩ := h
  have hpart := List.mem_map_of_mem (f := UnackedState.destruct) hat.mem
  refine List.mem_flatMap.mpr ⟨_, List.mem_append_left _ hpart, ?_⟩
  cases e with
  | unacked | cancelRequested =>
    cases hw
    exact List.mem_singleton_self w
  | acked | cancelAcked => cases hw

/-! ## Runs -/

/-- The action polls for nothing at the same entry, and the poll would still return `Pending` after
    it. -/
def Waits (watch : Watch) (s : Sender Pkt) (a : SenderAction Pkt) : Prop :=
  a.replaces s watch = false ∧ a.isReset = false ∧
    (s.step a).any (fun s' => watch.pending s') = true

instance (watch : Watch) (s : Sender Pkt) (a : SenderAction Pkt) : Decidable (Waits watch s a) :=
  inferInstanceAs (Decidable (_ ∧ _ ∧ _))

/-- A poll with waker `w` returned `Pending` and left the sender in `s₀`. It has not come to an end
    since, up to `s`, and no other poll has taken its place. -/
def Awaits (watch : Watch) (w : Waker) (s₀ s : Sender Pkt) : Prop :=
  (∃ r : Sender Pkt, r.Reachable ∧ watch.poll r w = some (true, s₀)) ∧
    Run step (· = s₀) (Waits watch) s

/-- The poll was for the send and the acknowledgement, the packet was sent in between, and the waker
    was woken for that. -/
def WokenBySend (w : Waker) (s₀ s : Sender Pkt) : Watch → Prop
  | .sendAndAck id => ∃ t a t',
      Run step (· = s₀) (Waits (.sendAndAck id)) t ∧ Waits (.sendAndAck id) t a ∧
      step t a = some t' ∧ (∃ idx, t.blockedPosition id = .at idx) ∧
      t'.blockedPosition id = .behind ∧ w ∈ t.wokenUntil t' ∧
      Run step (· = t') (Waits (.sendAndAck id)) s
  | _ => False

/-- Where the waker of a pending poll is. -/
def Holds (w : Waker) (s : Sender Pkt) : Watch → Prop
  | .send id => s.HeldSend id w
  | .ack sn => s.Tracked none sn w
  | .sendAndAck id => s.HeldSend id w ∨ ∃ sn, s.Tracked (some id) sn w

variable {watch : Watch} {s₀ : Sender Pkt} {a : SenderAction Pkt}

theorem Holds.pending (h : Holds w s watch) (hs : s.Short) : watch.pending s = true := by
  cases watch with
  | send id => exact HeldSend.pending_send h
  | ack sn => exact (Tracked.held h).pending_ack
  | sendAndAck id =>
    rcases h with hsend | ⟨sn, htracked⟩
    · exact hsend.pending_sendAndAck
    · exact htracked.pending_sendAndAck hs

theorem Holds.mem_destruct (h : Holds w s watch) : w ∈ s.destruct.1 := by
  cases watch with
  | send id => exact HeldSend.mem_destruct h
  | ack sn => exact (Tracked.held h).mem_destruct
  | sendAndAck id =>
    rcases h with hsend | ⟨sn, htracked⟩
    · exact hsend.mem_destruct
    · exact htracked.held.mem_destruct

theorem step_eq (h : s.step a = some s') :
    ∃ o, a.perform s = some o ∧ o.sender = s' ∧ s'.fits = true := by
  obtain ⟨o, ho, rfl⟩ := Option.map_eq_some_iff.mp h
  obtain ⟨hperform, hfits⟩ := SenderAction.run_eq ho
  exact ⟨o, hperform, rfl, hfits⟩

section

variable (hstep : s.step a = some s') (hreset : a.isReset = false)
  (hother : a.replaces s watch = false)

include hstep hreset hother

/-- An action that leaves the entry of a poll alone queues a packet, or is a call that polls for
    nothing there. -/
theorem step_cases :
    (∃ m, Moved s m s' ∧ m.keepsSlots = true ∧ m.keepsEntries = true) ∨
    ∃ c o, SenderCall.perform s c = some o ∧ o.sender = s' ∧
      ∀ other ∈ c.watch?, other.slot s ≠ watch.slot s := by
  obtain ⟨o, hperform, rfl, -⟩ := step_eq hstep
  cases a with
  | enqueuePacket packet =>
    obtain ⟨-, -, ⟨hm, -⟩ | ⟨hm, -⟩⟩ := SenderAction.perform_enqueuePacket hperform
    all_goals exact .inl ⟨_, hm, rfl, rfl⟩
  | call c =>
    refine .inr ⟨c, o, hperform, rfl, fun other hmem heq => ?_⟩
    simp [SenderAction.replaces, Option.mem_def.mp hmem, heq] at hother
  | reset => cases hreset

theorem HeldSend.step (h : s.HeldSend id w) (hfits : s.fits = true)
    (hslot : watch.slot s = (Watch.send id).slot s) :
    s'.HeldSend id w ∨
    (w ∈ s.wokenUntil s' ∧ (s'.CanceledAt id ∨ ∃ sn, s'.Tracked (some id) sn .noop)) := by
  rcases step_cases hstep hreset hother with ⟨m, hm, hk, -⟩ | ⟨c, o, hc, rfl, hav⟩
  · exact .inl (h.move (short_of_fits hfits) hm hk)
  · exact h.call hfits hc (hslot ▸ hav)

theorem Tracked.step (h : s.Tracked note sn w) (hfits : s.fits = true)
    (hslot : watch.slot s = Watch.ackSlot s sn) :
    s'.Tracked note sn w ∨ (w ∈ s.wokenUntil s' ∧ s'.Over note sn) := by
  rcases step_cases hstep hreset hother with ⟨m, hm, -, hk⟩ | ⟨c, o, hc, rfl, hav⟩
  · exact .inl (h.move (short_of_fits hfits) hm hk)
  · exact h.call hfits hc (hslot ▸ hav)

/-- The waker of a pending poll stays where it is, or is woken because the poll is over, or because
    the packet was sent and now waits for its acknowledgement. -/
theorem Holds.step (h : Holds w s watch) (hfits : s.fits = true) :
    Holds w s' watch ∨
    (w ∈ s.wokenUntil s' ∧ (watch.pending s' = false ∨
      ∃ id idx sn, watch = .sendAndAck id ∧ s.blockedPosition id = .at idx ∧
        s'.Tracked (some id) sn .noop)) := by
  obtain ⟨-, -, -, hfits'⟩ := step_eq hstep
  have hs' := short_of_fits hfits'
  cases watch with
  | send id =>
    rcases HeldSend.step hstep hreset hother h hfits rfl with
      hheld | ⟨hwoken, hcanceled | ⟨sn, hsent⟩⟩
    · exact .inl hheld
    · exact .inr ⟨hwoken, .inl (hcanceled.pending_send hs')⟩
    · exact .inr ⟨hwoken, .inl (hsent.pending_send hs')⟩
  | ack sn =>
    rcases Tracked.step hstep hreset hother h hfits rfl with htracked | ⟨hwoken, hover⟩
    · exact .inl htracked
    · exact .inr ⟨hwoken, .inl hover.pending_ack⟩
  | sendAndAck id =>
    rcases h with hsend | ⟨sn, htracked⟩
    · have ⟨p, l, idx, hpos, _⟩ := hsend
      have hslot := (slot_sendAndAck hpos).trans (slot_send hpos).symm
      rcases hsend.step hstep hreset hother hfits hslot with
        hheld | ⟨hwoken, hcanceled | ⟨sn, hsent⟩⟩
      · exact .inl (.inl hheld)
      · exact .inr ⟨hwoken, .inl (hcanceled.pending_sendAndAck hs')⟩
      · exact .inr ⟨hwoken, .inr ⟨id, idx, sn, rfl, hpos, hsent⟩⟩
    · have hslot := (htracked.noted id rfl).slot_sendAndAck (short_of_fits hfits)
      rcases htracked.step hstep hreset hother hfits hslot with htracked | ⟨hwoken, hover⟩
      · exact .inl (.inr ⟨sn, htracked⟩)
      · exact .inr ⟨hwoken, .inl (hover.pending_sendAndAck hs')⟩

end

theorem fits_of_lengths (h : s.fits = true) (hu : s'.unacked.length = s.unacked.length)
    (hb : s'.blocked.length = s.blocked.length) (hsent : s'.sent = s.sent) : s'.fits = true := by
  unfold fits at h ⊢
  rw [hu, hb, hsent]
  exact h

theorem pollSend_holds (hfits : r.fits = true) (h : r.pollSend w id = some (.pending, s)) :
    s.fits = true ∧ s.HeldSend id w := by
  rcases pollSend_moves h with ⟨idx, p, w', l, -, hpos, hget, hms⟩ | ⟨o, ⟨⟩, -⟩
  obtain ⟨b, hb, rfl⟩ := hms.slot_inv
  cases hget.symm.trans hb
  exact ⟨fits_of_lengths hfits rfl (by simp [setBlocked]) rfl, p, l,
    (slotAt_setBlocked hb).mpr (.inl ⟨hpos, rfl⟩)⟩

theorem pollAck_holds (hfits : r.fits = true) (h : r.pollAck w sn = some (.pending, s))
    (hnote : ∀ id ∈ note, r.RecordAt id (some sn)) : s.fits = true ∧ s.Tracked note sn w := by
  rcases pollAck_moves h with ⟨idx, e, -, hpos, hget, hopen, hms⟩ | ⟨⟨⟩, -⟩
  obtain ⟨e', he, rfl⟩ := hms.entry_inv
  cases hget.symm.trans he
  refine ⟨fits_of_lengths hfits (by simp [setUnacked]) rfl rfl,
    ⟨e.setWaker w, (entryAt_setUnacked he).mpr (.inl ⟨hpos, rfl⟩), ?_⟩, hnote⟩
  cases e with
  | unacked | cancelRequested => rfl
  | acked | cancelAcked => cases hopen

theorem pending_of_map {α : Type} [DecidableEq α] {x : Option (Poll α × Sender Pkt)}
    (h : (x.map fun (r, s) => (decide (r = .pending), s)) = some (true, s)) :
    x = some (.pending, s) := by
  obtain ⟨⟨res, t⟩, hpoll, heq⟩ := Option.map_eq_some_iff.mp h
  obtain ⟨hres, rfl⟩ := Prod.mk.inj heq
  obtain rfl := of_decide_eq_true hres
  exact hpoll

theorem Watch.poll_holds (hfits : r.fits = true) (h : watch.poll r w = some (true, s)) :
    s.fits = true ∧ Holds w s watch := by
  cases watch with
  | send id => exact pollSend_holds hfits (pending_of_map h)
  | ack sn => exact pollAck_holds hfits (pending_of_map h) (by simp)
  | sendAndAck id =>
    rcases pollSendAndAck_cases (pending_of_map h) with ⟨-, hsend⟩ | ⟨⟨⟩, -⟩ | ⟨sn, hsend, hack⟩
    · obtain ⟨hfits', hheld⟩ := pollSend_holds hfits hsend
      exact ⟨hfits', .inl hheld⟩
    rcases pollSend_moves hsend with ⟨_, _, _, _, ⟨⟩, -⟩ | ⟨o, ho, -, hlook, -⟩
    cases ho
    have hnote : ∀ id' ∈ some id, r.RecordAt id' (some sn) := by
      rintro _ ⟨⟩
      exact recordAt_of_lookupSeqNum hlook
    obtain ⟨hfits', htracked⟩ := pollAck_holds hfits hack hnote
    exact ⟨hfits', .inr ⟨sn, htracked⟩⟩

theorem WokenBySend.next (h : WokenBySend w s₀ s watch) (hwaits : Waits watch s a)
    (hstep : s.step a = some s') : WokenBySend w s₀ s' watch := by
  cases watch with
  | send | ack => cases h
  | sendAndAck id =>
    obtain ⟨t, b, t', hrun, hb, ht', hbefore, hafter, hwoken, hrun'⟩ := h
    exact ⟨t, b, t', hrun, hb, ht', hbefore, hafter, hwoken, hrun'.next hwaits hstep⟩

/-- While a poll is pending its waker is in the sender, or was woken when the packet was sent. -/
theorem Awaits.holds (h : Awaits watch w s₀ s) :
    s.fits = true ∧ (Holds w s watch ∨ WokenBySend w s₀ s watch ∧
      ∃ id sn, watch = .sendAndAck id ∧ s.Tracked (some id) sn .noop) := by
  obtain ⟨⟨r, hr, hpoll⟩, hrun⟩ := h
  have hfits := hr.recorded.2
  induction hrun with
  | start heq =>
    obtain rfl := heq
    obtain ⟨hfits', hheld⟩ := Watch.poll_holds hfits hpoll
    exact ⟨hfits', .inl hheld⟩
  | @next s s' a hrun hwaits hstep ih =>
    obtain ⟨-, -, -, hfits'⟩ := step_eq hstep
    obtain ⟨hother, hreset, hpend⟩ := id hwaits
    rw [hstep, Option.any_some] at hpend
    obtain ⟨hfits, hheld | ⟨hwoken, id, sn, rfl, htracked⟩⟩ := ih
    · rcases hheld.step hstep hreset hother hfits with
        hheld' | ⟨hwoken, hover | ⟨id, idx, sn, rfl, hpos, hsent⟩⟩
      · exact ⟨hfits', .inl hheld'⟩
      · cases hover.symm.trans hpend
      · have hbehind := (hsent.noted id rfl).blockedPosition (short_of_fits hfits')
        have hsend : WokenBySend w s₀ s' (.sendAndAck id) :=
          ⟨s, a, s', hrun, hwaits, hstep, ⟨idx, hpos⟩, hbehind, hwoken, .start rfl⟩
        exact ⟨hfits', .inr ⟨hsend, id, sn, rfl, hsent⟩⟩
    · have hslot := (htracked.noted id rfl).slot_sendAndAck (short_of_fits hfits)
      rcases htracked.step hstep hreset hother hfits hslot with htracked' | ⟨-, hover⟩
      · exact ⟨hfits', .inr ⟨hwoken.next hwaits hstep, id, sn, rfl, htracked'⟩⟩
      · cases (hover.pending_sendAndAck (short_of_fits hfits')).symm.trans hpend

/-- No wake-up is lost: while a poll is pending, dropping the sender wakes its waker, and so does
    the first operation that resets the sender or after which the poll is no longer pending. The
    exception is a poll for the send and the acknowledgement of a packet that was sent in the
    meantime; its waker was woken by the operation that sent the packet. -/
theorem pending_poll_woken (h : Awaits watch w s₀ s) :
    (w ∈ s.destruct.1 ∨ WokenBySend w s₀ s watch) ∧
    ∀ a s', s.step a = some s' → a.replaces s watch = false →
      (a.isReset = true ∨ watch.pending s' = false) →
      w ∈ s.wokenUntil s' ∨ WokenBySend w s₀ s watch := by
  obtain ⟨hfits, hheld | ⟨hwoken, -⟩⟩ := h.holds
  · refine ⟨.inl hheld.mem_destruct, fun a s' hstep hother hend => .inl ?_⟩
    obtain ⟨o, hperform, rfl, hfits'⟩ := step_eq hstep
    by_cases hreset : a.isReset = true
    · cases a with
      | enqueuePacket | call => cases hreset
      | reset =>
        cases hperform
        rw [wokenUntil_of_eq rfl]
        exact hheld.mem_destruct
    · rcases hheld.step hstep (by simpa using hreset) hother hfits with hheld' | ⟨hwoken, -⟩
      · have hpend := hheld'.pending (short_of_fits hfits')
        rcases hend with hr | hover
        · exact absurd hr hreset
        · cases hpend.symm.trans hover
      · exact hwoken
  · exact ⟨.inr hwoken, fun _ _ _ _ _ => .inr hwoken⟩

theorem exists_awaits (watch : Watch) (w : Waker) (acts rest : List (SenderAction Pkt))
    (P : Sender Pkt → Bool)
    (h : ((replay step (fun _ _ => True) (new : Sender Pkt) acts).bind fun r =>
      (watch.poll r w).bind fun p => if p.1 then replay step (Waits watch) p.2 rest else none).any P
        = true) :
    ∃ s₀ s, Awaits watch w s₀ s ∧ P s = true := by
  obtain ⟨s, hs, hP⟩ := (Option.any_eq_true _ _).mp h
  obtain ⟨r, hr, hs⟩ := Option.bind_eq_some_iff.mp hs
  obtain ⟨⟨b, s₀⟩, hpoll, hs⟩ := Option.bind_eq_some_iff.mp hs
  cases b with
  | false => cases hs
  | true => exact ⟨s₀, s, ⟨⟨r, .replayed hr, hpoll⟩, .replayed hs⟩, hP⟩

/-- The waiter for an acknowledgement is kept through a request to cancel the packet and woken by
    the confirmation of the cancellation. -/
theorem pending_poll_woken_canceled :
    ∃ s₀ s s' : Sender Nat, Awaits (.ack 0) (.task 7) s₀ s ∧
      s.step (.call (.processCanceled 0)) = some s' ∧ (Watch.ack 0).pending s' = false ∧
      (.task 7 ∈ s.wokenUntil s' ∨ WokenBySend (.task 7) s₀ s (.ack 0)) := by
  obtain ⟨s₀, s, hawaits, hs⟩ := exists_awaits (.ack 0) (.task 7) [.enqueuePacket 10]
    [.call (.cancelSentPacket 0)]
    (fun s => (s.step (.call (.processCanceled 0))).any fun s' => !(Watch.ack 0).pending s')
    (by decide +kernel)
  obtain ⟨s', hstep, hend⟩ := (Option.any_eq_true _ _).mp hs
  have hover : (Watch.ack 0).pending s' = false := by simpa using hend
  exact ⟨s₀, s, s', hawaits, hstep, hover,
    (pending_poll_woken hawaits).2 _ s' hstep rfl (.inr hover)⟩

/-- A packet that waits behind another one is polled for its acknowledgement, sent and acknowledged.
    The acknowledgement ends the poll and wakes nobody. -/
theorem acknowledged_without_wake_up :
    ∃ s₀ s s' : Sender Nat, Awaits (.sendAndAck 0) (.task 7) s₀ s ∧
      s.step (.call (.processAck 1)) = some s' ∧
      (SenderAction.call (.processAck 1) : SenderAction Nat).replaces s (.sendAndAck 0) = false ∧
      (s'.pollSendAndAck (.task 7) 0).map (·.1) = some (.ready ()) ∧
      .task 7 ∉ s.wokenUntil s' := by
  obtain ⟨s₀, s, hawaits, hs⟩ := exists_awaits (.sendAndAck 0) (.task 7)
    [.enqueuePacket 10, .enqueuePacket 11]
    [.call (.processAck 0), .call .enqueueNextBlockedPacket]
    (fun s : Sender Nat => (s.step (.call (.processAck 1))).any fun s' : Sender Nat =>
      decide ((s'.pollSendAndAck (.task 7) 0).map (·.1) = some (.ready ()) ∧
        Waker.task 7 ∉ s.wokenUntil s')) (by decide +kernel)
  obtain ⟨s', hstep, hend⟩ := (Option.any_eq_true _ _).mp hs
  obtain ⟨hready, hsilent⟩ := of_decide_eq_true hend
  exact ⟨s₀, s, s', hawaits, hstep, rfl, hready, hsilent⟩

end Sender

end ZprCore.Zdpr
