-- SUMMARY: The few things an operation of the sender can do to its queues.
import Mathlib.Data.List.Basic
import ZprCore.Zdpr.Sender

/-!
# Moves of the sender

Every operation of the sender is a short chain of moves: rewrite an entry of `unacked` or
`blocked`, trim a queue, or move a packet into the window. A property that every move keeps is
kept by every operation, whatever the numbers and ids it is called with.
-/

namespace ZprCore.Zdpr

variable {Pkt : Type}

theorem exists_split {α : Type} {l : List α} {i : Nat} {x : α} (h : l[i]? = some x) :
    ∃ l₁ l₂, l = l₁ ++ x :: l₂ ∧ l₁.length = i ∧ ∀ y, l.set i y = l₁ ++ y :: l₂ := by
  obtain ⟨hi, rfl⟩ := List.getElem?_eq_some_iff.mp h
  refine ⟨l.take i, l.drop (i + 1), ?_, by simp [hi.le], fun y => ?_⟩
  · rw [← List.drop_eq_getElem_cons hi, List.take_append_drop]
  · rw [List.set_eq_take_append_cons_drop, if_pos hi]

/-- What an acknowledgement does to a status. -/
def UnackedState.ack : UnackedState Pkt → UnackedState Pkt
  | .unacked .. | .cancelRequested .. => .acked
  | e => e

/-- What a cancel-acknowledgement does to a status. -/
def UnackedState.cancelAck : UnackedState Pkt → UnackedState Pkt
  | .cancelRequested _ forgotten => if forgotten then .acked else .cancelAcked
  | e => e

def UnackedState.setWaker (cx : Waker) : UnackedState Pkt → UnackedState Pkt
  | .unacked packet _ retryLimit retryCount forgotten =>
    .unacked packet cx retryLimit retryCount forgotten
  | .cancelRequested _ forgotten => .cancelRequested cx forgotten
  | e => e

/-- What an operation can do to an entry of `unacked`. -/
inductive EntryOp where
  | setWaker (cx : Waker)
  | limit (retryLimit : UInt8)
  | forget
  | cancel
  | ack
  | cancelAck
  | age
deriving DecidableEq

namespace EntryOp

def apply : EntryOp → UnackedState Pkt → UnackedState Pkt
  | .setWaker cx, e => e.setWaker cx
  | .limit retryLimit, e => e.limitRetries retryLimit
  | .forget, e => e.forget
  | .cancel, e => e.cancel.2
  | .ack, e => e.ack
  | .cancelAck, e => e.cancelAck
  | .age, e => e.ageRetries.2

def returned : EntryOp → UnackedState Pkt → Option Pkt
  | .cancel, e => e.cancel.1
  | .age, e => e.ageRetries.1
  | .ack, .unacked packet _ _ _ _ => some packet
  | _, _ => none

def woken : EntryOp → UnackedState Pkt → List Waker
  | .ack, .unacked _ waker _ _ _ | .ack, .cancelRequested waker _ => [waker]
  | .cancelAck, .cancelRequested waker _ => [waker]
  | _, _ => []

end EntryOp

/-- What an operation can do to an entry of `blocked`. -/
inductive SlotOp where
  | setWaker (cx : Waker)
  | limit (retryLimit : UInt8)
  | cancel
deriving DecidableEq

def BlockedState.setWaker (cx : Waker) : BlockedState Pkt → BlockedState Pkt
  | .blocked packet _ retryLimit => .blocked packet cx retryLimit
  | .canceled => .canceled

namespace SlotOp

def apply : SlotOp → BlockedState Pkt → BlockedState Pkt
  | .setWaker cx, b => b.setWaker cx
  | .limit retryLimit, b => b.limitRetries retryLimit
  | .cancel, b => b.cancel.2

def returned : SlotOp → BlockedState Pkt → Option Pkt
  | .cancel, .blocked packet _ _ => some packet
  | _, _ => none

def woken : SlotOp → BlockedState Pkt → List Waker
  | .cancel, .blocked _ waker _ => [waker]
  | _, _ => []

end SlotOp

inductive Move (Pkt : Type) where
  /-- the window size or a statistic -/
  | quiet
  | entry (idx : Nat) (op : EntryOp)
  | slot (idx : Nat) (op : SlotOp)
  /-- `clean_unacked_queue` if `idx` is 0, then `clean_sent_queue` -/
  | trim (idx : Nat)
  | trimBlocked
  | queue (packet : Pkt)
  | send (packet : Pkt)
  | unblock (packet : Pkt)

namespace Sender

/-- The oldest blocked packet, taken out of `blocked`, gets the next sequence number. -/
def popBlocked (s : Sender Pkt) (packet : Pkt) (waker : Waker) (retryLimit : Option UInt8)
    (rest : List (BlockedState Pkt)) : Sender Pkt :=
  { ({ s with blocked := rest }.pushUnacked packet retryLimit) with
    sent := s.sent ++ [some (s.lastSent + 1)]
    woken := s.woken ++ [waker] }

inductive Moved : Sender Pkt → Move Pkt → Sender Pkt → Prop where
  | quiet (s : Sender Pkt) (windowSize : Nat) (stats : SenderStat → Nat) :
      Moved s .quiet { s with windowSize, stats }
  | entry {s : Sender Pkt} {idx : Nat} {e : UnackedState Pkt} (op : EntryOp)
      (h : s.unacked[idx]? = some e) :
      Moved s (.entry idx op)
        { s.setUnacked idx (op.apply e) with woken := s.woken ++ op.woken e }
  | slot {s : Sender Pkt} {idx : Nat} {b : BlockedState Pkt} (op : SlotOp)
      (h : s.blocked[idx]? = some b) :
      Moved s (.slot idx op) { s.setBlocked idx (op.apply b) with woken := s.woken ++ op.woken b }
  | trim {s s' : Sender Pkt} {idx : Nat} (h : s.cleanQueues idx = some s') : Moved s (.trim idx) s'
  | trimBlocked (s : Sender Pkt) : Moved s .trimBlocked s.cleanBlockedQueue
  | queue (s : Sender Pkt) (packet : Pkt) :
      Moved s (.queue packet)
        { s with
          lastEnqueued := s.lastEnqueued + 1
          blocked := s.blocked ++ [.blocked packet .noop none] }
  | send {s : Sender Pkt} (packet : Pkt) (hfree : s.isBlocked = false)
      (hnone : s.hasBlockedPackets = false) : Moved s (.send packet) (s.pushUnacked packet none)
  | unblock {s : Sender Pkt} {packet : Pkt} {waker : Waker} {retryLimit : Option UInt8}
      {rest : List (BlockedState Pkt)} (hfree : s.isBlocked = false)
      (hfront : s.blocked = .blocked packet waker retryLimit :: rest) :
      Moved s (.unblock packet) (s.popBlocked packet waker retryLimit rest)

def returned (s : Sender Pkt) : Move Pkt → List Pkt
  | .entry idx op => (s.unacked[idx]?.bind op.returned).toList
  | .slot idx op => (s.blocked[idx]?.bind op.returned).toList
  | _ => []

/-- A chain of moves, with all packets handed back. -/
inductive Moves : Sender Pkt → List (Move Pkt) → List Pkt → Sender Pkt → Prop where
  | nil {s : Sender Pkt} : Moves s [] [] s
  | cons {s t u : Sender Pkt} {m : Move Pkt} {ms : List (Move Pkt)} {ps : List Pkt}
      (h : Moved s m t) (hrest : Moves t ms ps u) : Moves s (m :: ms) (s.returned m ++ ps) u

variable {s s' t : Sender Pkt} {sn : SeqNum} {id : QueuedPacketId} {cx : Waker} {idx : Nat}
  {ps : List Pkt} {r : Option Pkt} {e : UnackedState Pkt} {op : EntryOp} {e' : UnackedState Pkt}
  {ms : List (Move Pkt)} {m : Move Pkt} {b b' : BlockedState Pkt} {limit : UInt8}

theorem Moves.single (h : Moved s m s') : Moves s [m] (s.returned m) s' := by
  have hms := Moves.cons h .nil
  rwa [List.append_nil] at hms

theorem Moves.trans {ms' : List (Move Pkt)} {ps' : List Pkt} (h : Moves s ms ps t)
    (h' : Moves t ms' ps' s') : Moves s (ms ++ ms') (ps ++ ps') s' := by
  induction h with
  | nil => exact h'
  | cons hm _ ih =>
    rw [List.append_assoc]
    exact .cons hm (ih h')

theorem Moves.cons_inv (h : Moves s (m :: ms) ps s') :
    ∃ t qs, Moved s m t ∧ Moves t ms qs s' ∧ ps = s.returned m ++ qs := by
  generalize hms : m :: ms = l at h
  cases h with
  | nil => cases hms
  | cons hm hrest =>
    cases hms
    exact ⟨_, _, hm, hrest, rfl⟩

theorem Moves.entry_inv (h : Moves s [.entry idx op] ps s') :
    ∃ e, s.unacked[idx]? = some e ∧
      s' = { s.setUnacked idx (op.apply e) with woken := s.woken ++ op.woken e } := by
  obtain ⟨t, _, hm, hnil, -⟩ := h.cons_inv
  cases hnil
  cases hm with
  | entry _ he => exact ⟨_, he, rfl⟩

theorem Moves.entry_trim_inv (h : Moves s [.entry idx op, .trim idx] ps s') :
    ∃ e t, s.unacked[idx]? = some e ∧
      t = { s.setUnacked idx (op.apply e) with woken := s.woken ++ op.woken e } ∧
      t.cleanQueues idx = some s' := by
  obtain ⟨t, _, hm, hrest, -⟩ := h.cons_inv
  obtain ⟨_, _, hm', hnil, -⟩ := hrest.cons_inv
  cases hnil
  cases hm with
  | entry _ he =>
    cases hm' with
    | trim hc => exact ⟨_, _, he, rfl, hc⟩

theorem Moves.slot_inv {op : SlotOp} (h : Moves s [.slot idx op] ps s') :
    ∃ b, s.blocked[idx]? = some b ∧
      s' = { s.setBlocked idx (op.apply b) with woken := s.woken ++ op.woken b } := by
  obtain ⟨t, _, hm, hnil, -⟩ := h.cons_inv
  cases hnil
  cases hm with
  | slot _ hb => exact ⟨_, hb, rfl⟩

theorem Moves.quiet (s : Sender Pkt) (windowSize : Nat) (stats : SenderStat → Nat) :
    Moves s [.quiet] [] { s with windowSize, stats } :=
  .single (.quiet s windowSize stats)

theorem Moves.entry (op : EntryOp) (h : s.unacked[idx]? = some e) :
    Moves s [.entry idx op] (op.returned e).toList
      { s.setUnacked idx (op.apply e) with woken := s.woken ++ op.woken e } := by
  have hms := Moves.single (Moved.entry op h)
  rwa [returned, h, Option.bind_some] at hms

theorem Moves.slot (op : SlotOp) (h : s.blocked[idx]? = some b) :
    Moves s [.slot idx op] (op.returned b).toList
      { s.setBlocked idx (op.apply b) with woken := s.woken ++ op.woken b } := by
  have hms := Moves.single (Moved.slot op h)
  rwa [returned, h, Option.bind_some] at hms

theorem Moves.entry_silent (op : EntryOp) (h : s.unacked[idx]? = some e) (happly : op.apply e = e')
    (hwoken : op.woken e = []) :
    Moves s [.entry idx op] (op.returned e).toList (s.setUnacked idx e') := by
  have hms := Moves.entry op h
  rwa [happly, hwoken, List.append_nil] at hms

theorem Moves.slot_silent (op : SlotOp)
    (h : s.blocked[idx]? = some b) (happly : op.apply b = b') (hwoken : op.woken b = []) :
    Moves s [.slot idx op] (op.returned b).toList (s.setBlocked idx b') := by
  have hms := Moves.slot op h
  rwa [happly, hwoken, List.append_nil] at hms

/-! ## Trimming -/

/-- The records that `clean_sent_queue` drops are those of cancelled and settled packets. -/
theorem dropStale_split {l l' : List (Option SeqNum)} (h : s.dropStale l = some l') :
    ∃ pre, l = pre ++ l' ∧ ∀ sn, some sn ∈ pre → s.isAcked sn = some true := by
  induction l with
  | nil =>
    cases h
    exact ⟨[], rfl, by simp⟩
  | cons o rest ih =>
    cases o with
    | none =>
      obtain ⟨pre, rfl, hpre⟩ := ih h
      exact ⟨none :: pre, rfl, by simpa using hpre⟩
    | some sn =>
      simp only [dropStale] at h
      split at h
      · cases h
      · cases h
        exact ⟨[], rfl, by simp⟩
      next hacked =>
      obtain ⟨pre, rfl, hpre⟩ := ih h
      refine ⟨some sn :: pre, rfl, ?_⟩
      intro x hx
      rcases List.mem_cons.mp hx with heq | hmem
      · cases heq
        exact hacked
      · exact hpre x hmem

theorem cleanQueues_eq (h : s.cleanQueues idx = some s') :
    ∃ pre sent, s.sent = pre ++ sent ∧
      s' = { s with
        unacked := if idx = 0 then s.unacked.dropWhile isAckedEntry else s.unacked
        sent } ∧
      ∀ sn, some sn ∈ pre → s'.isAcked sn = some true := by
  obtain ⟨sent, hsent, rfl⟩ := Option.map_eq_some_iff.mp h
  obtain ⟨pre, hsplit, hpre⟩ := dropStale_split hsent
  refine ⟨pre, sent, ?_, ?_, hpre⟩
  · rw [← hsplit]
    split <;> rfl
  · split <;> rfl

/-- The operation has no entry to rewrite, or would leave it as it is. -/
def Idle (s : Sender Pkt) (op : EntryOp) (sn : SeqNum) : Prop :=
  ∀ idx e, s.seqNumPosition sn = .at idx → s.unacked[idx]? = some e → op.apply e = e

theorem idle_of_position (h : ∀ idx, s.seqNumPosition sn ≠ .at idx) : s.Idle op sn :=
  fun idx _ hpos _ => absurd hpos (h idx)

theorem idle_of_entry (hpos : s.seqNumPosition sn = .at idx) (he : s.unacked[idx]? = some e)
    (hop : op.apply e = e) : s.Idle op sn := by
  intro i e' hpos' he'
  cases hpos.symm.trans hpos'
  cases he.symm.trans he'
  exact hop

/-- `op` rewrites the entry with number `sn`, or there is nothing to rewrite. -/
inductive Applies (op : EntryOp) (sn : SeqNum) (s : Sender Pkt) :
    List Pkt → Sender Pkt → Prop where
  | idle (h : s.Idle op sn) : Applies op sn s [] s
  | entry {s' : Sender Pkt} {idx : Nat} {ps : List Pkt} (hpos : s.seqNumPosition sn = .at idx)
      (h : Moves s [.entry idx op] ps s') : Applies op sn s ps s'

/-- The same with the queues trimmed afterwards. An acknowledgement of nothing is counted. -/
inductive Settles (op : EntryOp) (sn : SeqNum) (s : Sender Pkt) :
    List Pkt → Sender Pkt → Prop where
  | idle (h : s.Idle op sn) : Settles op sn s [] s
  | counted (h : s.Idle op sn) (stat : SenderStat) (hop : op ≠ .forget := by simp) :
      Settles op sn s [] (s.countStat stat)
  | entry {s' : Sender Pkt} {idx : Nat} {ps : List Pkt} (hpos : s.seqNumPosition sn = .at idx)
      (h : Moves s [.entry idx op, .trim idx] ps s') : Settles op sn s ps s'

/-! ## Polls -/

theorem pollSend_moves {r : Poll (Option SeqNum)} (h : s.pollSend cx id = some (r, s')) :
    (∃ idx p w l, r = .pending ∧ s.blockedPosition id = .at idx ∧
      s.blocked[idx]? = some (.blocked p w l) ∧ Moves s [.slot idx (.setWaker cx)] [] s') ∨
    (∃ o, r = .ready o ∧ s.blockedPosition id = .behind ∧ s.lookupSeqNum id = some o ∧ s' = s) := by
  unfold pollSend at h
  split at h
  · cases h
  · cases h
  · next hpos =>
    obtain ⟨o, ho, heq⟩ := Option.map_eq_some_iff.mp h
    cases heq
    exact .inr ⟨o, rfl, hpos, ho, rfl⟩
  · next idx hpos =>
    split at h
    · next p w l hb =>
      cases h
      exact .inl ⟨idx, p, w, l, rfl, hpos, hb, .slot_silent (.setWaker cx) hb rfl rfl⟩
    · cases h

theorem pollAck_moves {r : Poll Unit} (h : s.pollAck cx sn = some (r, s')) :
    (∃ idx e, r = .pending ∧ s.seqNumPosition sn = .at idx ∧ s.unacked[idx]? = some e ∧
      e.isAcked = false ∧ Moves s [.entry idx (.setWaker cx)] [] s') ∨
    (r = .ready () ∧ s' = s ∧ s.Idle (.setWaker cx) sn) := by
  unfold pollAck at h
  split at h
  · cases h
  · cases h
  · next hpos =>
    cases h
    exact .inr ⟨rfl, rfl, idle_of_position (by simp [hpos])⟩
  next idx hpos =>
  split at h
  · next he =>
    cases h
    exact .inr ⟨rfl, rfl, idle_of_entry hpos he rfl⟩
  · next he =>
    cases h
    exact .inr ⟨rfl, rfl, idle_of_entry hpos he rfl⟩
  · next he =>
    cases h
    exact .inl ⟨idx, _, rfl, hpos, he, rfl, .entry_silent (.setWaker cx) he rfl rfl⟩
  · next he =>
    cases h
    exact .inl ⟨idx, _, rfl, hpos, he, rfl, .entry_silent (.setWaker cx) he rfl rfl⟩
  · cases h

theorem pollAck_effect {r : Poll Unit} (h : s.pollAck cx sn = some (r, s')) :
    s.Applies (.setWaker cx) sn [] s' := by
  rcases pollAck_moves h with ⟨idx, e, -, hpos, -, -, hms⟩ | ⟨-, rfl, hidle⟩
  · exact .entry hpos hms
  · exact .idle hidle

theorem pollSendAndAck_cases {r : Poll Unit} (h : s.pollSendAndAck cx id = some (r, s')) :
    (r = .pending ∧ s.pollSend cx id = some (.pending, s')) ∨
    (r = .ready () ∧ s.pollSend cx id = some (.ready none, s')) ∨
    (∃ sn, s.pollSend cx id = some (.ready (some sn), s) ∧ s.pollAck cx sn = some (r, s')) := by
  unfold pollSendAndAck at h
  split at h
  · cases h
  · next hsend =>
    cases h
    exact .inl ⟨rfl, hsend⟩
  · next sn t hsend =>
    rcases pollSend_moves hsend with ⟨_, _, _, _, ⟨⟩, -⟩ | ⟨_, -, -, -, rfl⟩
    exact .inr (.inr ⟨sn, hsend, h⟩)
  · next hsend =>
    cases h
    exact .inr (.inl ⟨rfl, hsend⟩)

/-! ## Sending -/

theorem enqueuePacket_moves (packet : Pkt) :
    (∃ id, (s.enqueuePacket packet).1 = .queued id ∧
      Moves s [.queue packet] [] (s.enqueuePacket packet).2) ∨
    ((s.enqueuePacket packet).1 = .sent (s.lastSent + 1) packet ∧
      Moves s [.send packet] [] (s.enqueuePacket packet).2) := by
  unfold enqueuePacket
  split
  · exact .inl ⟨_, rfl, .single (.queue s packet)⟩
  · next hc =>
    simp only [Bool.or_eq_true, not_or, Bool.not_eq_true] at hc
    exact .inr ⟨rfl, .single (.send packet hc.1 hc.2)⟩

theorem enqueueNextBlockedPacket_moves {r : SeqNum × Pkt}
    (h : s.enqueueNextBlockedPacket = some (r, s')) :
    r.1 = s.lastSent + 1 ∧ Moves s [.unblock r.2, .trimBlocked] [] s' := by
  unfold enqueueNextBlockedPacket at h
  split at h
  · cases h
  next hfree =>
  split at h
  · next hfront =>
    cases h
    refine ⟨rfl, .cons (.unblock (by simpa using hfree) hfront) ?_⟩
    exact Moves.single (Moved.trimBlocked _)
  · cases h

/-! ## Cancelling, limiting and forgetting -/

theorem cancelQueuedPacket_cases (h : s.cancelQueuedPacket id = some (r, s')) :
    (r = none ∧ s' = s) ∨
    (∃ idx p w l, r = some p ∧ s.blockedPosition id = .at idx ∧
      s.blocked[idx]? = some (.blocked p w l) ∧
      s' = (if idx = 0 then (s.setBlocked idx .canceled).cleanBlockedQueue
        else s.setBlocked idx .canceled).wake w) := by
  unfold cancelQueuedPacket at h
  split at h
  · cases h
  · cases h
  · cases h
    exact .inl ⟨rfl, rfl⟩
  next idx hpos =>
  split at h
  · cases h
  next b hb =>
  cases b with
  | canceled =>
    cases h
    exact .inl ⟨rfl, rfl⟩
  | blocked p w l =>
    cases h
    exact .inr ⟨idx, p, w, l, rfl, hpos, hb, rfl⟩

theorem cancelQueuedPacket_moves (h : s.cancelQueuedPacket id = some (r, s')) :
    (r = none ∧ s' = s) ∨
    (∃ idx p w l, r = some p ∧ s.blockedPosition id = .at idx ∧
      s.blocked[idx]? = some (.blocked p w l) ∧
      Moves s (.slot idx .cancel :: if idx = 0 then [.trimBlocked] else []) [p] s') := by
  refine (cancelQueuedPacket_cases h).imp_right ?_
  rintro ⟨idx, p, w, l, hr, hpos, hb, rfl⟩
  refine ⟨idx, p, w, l, hr, hpos, hb, ?_⟩
  split
  · exact (Moves.slot .cancel hb).trans (.single (.trimBlocked _))
  · exact Moves.slot .cancel hb

theorem cancelSentPacket_effect (h : s.cancelSentPacket sn = some (r, s')) :
    s.Applies .cancel sn r.toList s' := by
  unfold cancelSentPacket at h
  split at h
  · cases h
  · next hpos =>
    cases h
    exact .idle (idle_of_position (by simp [hpos]))
  · next hpos =>
    cases h
    exact .idle (idle_of_position (by simp [hpos]))
  · next hpos =>
    obtain ⟨e, he, heq⟩ := Option.map_eq_some_iff.mp h
    cases heq
    exact .entry hpos (.entry_silent .cancel he rfl rfl)

theorem limitRetriesBySeqNum_effect
    (h : s.limitRetriesBySeqNum sn limit = some s') : s.Applies (.limit limit) sn [] s' := by
  unfold limitRetriesBySeqNum at h
  split at h
  · cases h
  · next hpos =>
    cases h
    exact .idle (idle_of_position (by simp [hpos]))
  · next hpos =>
    cases h
    exact .idle (idle_of_position (by simp [hpos]))
  · next hpos =>
    obtain ⟨e, he, rfl⟩ := Option.map_eq_some_iff.mp h
    exact .entry hpos (.entry_silent (.limit limit) he rfl rfl)

theorem limitRetriesById_moves (h : s.limitRetriesById id limit = some s') :
    (∃ idx, s.blockedPosition id = .at idx ∧ Moves s [.slot idx (.limit limit)] [] s') ∨
    (s.blockedPosition id = .behind ∧ ∃ o, s.lookupSeqNum id = some o ∧
      (o = none ∧ s' = s ∨ ∃ sn, o = some sn ∧ s.limitRetriesBySeqNum sn limit = some s')) := by
  unfold limitRetriesById at h
  split at h
  · cases h
  · cases h
  · next hpos =>
    split at h
    · cases h
    · next hlook =>
      cases h
      exact .inr ⟨hpos, none, hlook, .inl ⟨rfl, rfl⟩⟩
    · next sn hlook => exact .inr ⟨hpos, some sn, hlook, .inr ⟨sn, rfl, h⟩⟩
  · next idx hpos =>
    obtain ⟨b, hb, rfl⟩ := Option.map_eq_some_iff.mp h
    exact .inl ⟨idx, hpos, .slot_silent (.limit limit) hb rfl rfl⟩

theorem forgetCanceledPacket_effect (h : s.forgetCanceledPacket sn = some s') :
    s.Settles .forget sn [] s' := by
  unfold forgetCanceledPacket at h
  split at h
  · cases h
  · next hpos =>
    cases h
    exact .idle (idle_of_position (by simp [hpos]))
  · next hpos =>
    cases h
    exact .idle (idle_of_position (by simp [hpos]))
  · next idx hpos =>
    split at h
    · cases h
    · next he =>
      exact .entry hpos ((Moves.entry_silent .forget he rfl rfl).trans (.single (.trim h)))

/-! ## Acknowledgements and retries -/

theorem cleanQueues_wake (s : Sender Pkt) (w : Waker) (idx : Nat) :
    (s.wake w).cleanQueues idx = (s.cleanQueues idx).map (·.wake w) := by
  have hdrop : ∀ (t : Sender Pkt) (l : List (Option SeqNum)),
      (t.wake w).dropStale l = t.dropStale l := by
    intro t l
    induction l with
    | nil => rfl
    | cons o rest ih =>
      cases o with
      | none => exact ih
      | some sn =>
        simp only [dropStale, ih]
        rfl
  unfold cleanQueues cleanSentQueue
  split
  · change Option.map _ ((s.cleanUnackedQueue.wake w).dropStale s.sent) = _
    rw [hdrop, Option.map_map]
    rfl
  · change Option.map _ ((s.wake w).dropStale s.sent) = _
    rw [hdrop, Option.map_map]
    rfl

theorem Moves.entry_trim {w : Waker} (op : EntryOp) (h : s.unacked[idx]? = some e)
    (happly : op.apply e = e') (hwoken : op.woken e = [w])
    (hclean : (s.setUnacked idx e').cleanQueues idx = some t) :
    Moves s [.entry idx op, .trim idx] (op.returned e).toList (t.wake w) := by
  have hentry := Moves.entry op h
  rw [happly, hwoken] at hentry
  have htrim : ((s.setUnacked idx e').wake w).cleanQueues idx = some (t.wake w) := by
    rw [cleanQueues_wake, hclean]
    rfl
  have hms := hentry.trans (.single (.trim htrim))
  simp only [returned, List.append_nil] at hms
  exact hms

theorem adjustWindowSize_eq {w : Nat} (h : s.adjustWindowSize w = some s') :
    s' = { s with windowSize := min maxWindowSize w } :=
  (Option.some.inj (Option.ite_none_right_eq_some.mp h).2).symm

theorem countStat_moves (stat : SenderStat) : Moves s [.quiet] [] (s.countStat stat) :=
  .quiet s s.windowSize _

theorem lookupAckIndex_cases {r : Option Nat} (h : s.lookupAckIndex sn = some (r, s')) :
    (∃ idx, r = some idx ∧ s' = s ∧ s.seqNumPosition sn = .at idx) ∨
    (r = none ∧ (∃ stat, s' = s.countStat stat) ∧ ∀ idx, s.seqNumPosition sn ≠ .at idx) := by
  unfold lookupAckIndex at h
  split at h
  · next hpos =>
    cases h
    exact .inr ⟨rfl, ⟨_, rfl⟩, by simp [hpos]⟩
  · cases h
  · next hpos =>
    cases h
    exact .inr ⟨rfl, ⟨_, rfl⟩, by simp [hpos]⟩
  · next hpos =>
    cases h
    exact .inl ⟨_, rfl, rfl, hpos⟩

theorem processAck_effect (h : s.processAck sn = some (r, s')) :
    s.Settles .ack sn r.toList s' := by
  unfold processAck at h
  split at h
  · cases h
  · next hidx =>
    cases h
    rcases lookupAckIndex_cases hidx with ⟨_, ⟨⟩, -⟩ | ⟨-, ⟨stat, rfl⟩, hpos⟩
    exact .counted (idle_of_position hpos) stat
  next idx _ hidx =>
  rcases lookupAckIndex_cases hidx with ⟨i, heq, rfl, hpos⟩ | ⟨hnone, -⟩
  swap
  · cases hnone
  cases heq
  split at h
  · next he =>
    obtain ⟨t, ht, heq⟩ := Option.map_eq_some_iff.mp h
    cases heq
    exact .entry hpos (.entry_trim .ack he rfl rfl ht)
  · next he =>
    obtain ⟨t, ht, heq⟩ := Option.map_eq_some_iff.mp h
    cases heq
    exact .entry hpos (.entry_trim .ack he rfl rfl ht)
  · next he =>
    cases h
    exact .counted (idle_of_entry hpos he rfl) _
  · next he =>
    cases h
    exact .counted (idle_of_entry hpos he rfl) _
  · cases h

theorem processCanceled_effect (h : s.processCanceled sn = some s') :
    s.Settles .cancelAck sn [] s' := by
  unfold processCanceled at h
  split at h
  · cases h
  · next hidx =>
    cases h
    rcases lookupAckIndex_cases hidx with ⟨_, ⟨⟩, -⟩ | ⟨-, ⟨stat, rfl⟩, hpos⟩
    exact .counted (idle_of_position hpos) stat
  next idx _ hidx =>
  rcases lookupAckIndex_cases hidx with ⟨i, heq, rfl, hpos⟩ | ⟨hnone, -⟩
  swap
  · cases hnone
  cases heq
  split at h
  · next he =>
    obtain ⟨t, ht, rfl⟩ := Option.map_eq_some_iff.mp h
    exact .entry hpos (.entry_trim .cancelAck he rfl rfl ht)
  · next he =>
    cases h
    exact .counted (idle_of_entry hpos he rfl) _
  · next he =>
    cases h
    exact .counted (idle_of_entry hpos he rfl) _
  · next he =>
    cases h
    exact .counted (idle_of_entry hpos he rfl) _
  · cases h

/-- `age_retries` with an iterator that is dropped after `count` entries. -/
def ageRetriesOf (s : Sender Pkt) (count : Nat) : List Pkt × Sender Pkt :=
  ((s.unacked.take count).filterMap (·.ageRetries.1),
    { s with
      unacked := (s.unacked.take count).map (·.ageRetries.2) ++ s.unacked.drop count })

theorem ageRetriesOf_length (s : Sender Pkt) : s.ageRetriesOf s.unacked.length = s.ageRetries := by
  simp [ageRetriesOf, ageRetries]

theorem ageRetriesOf_moves {count : Nat} (hcount : count ≤ s.unacked.length) :
    Moves s ((List.range count).map (.entry · .age)) (s.ageRetriesOf count).1
      (s.ageRetriesOf count).2 := by
  induction count with
  | zero => exact .nil
  | succ count ih =>
    have hlt : count < s.unacked.length := by omega
    have hlen : ((s.unacked.take count).map (·.ageRetries.2)).length = count := by
      simp only [List.length_map, List.length_take]
      omega
    have hget : (s.ageRetriesOf count).2.unacked[count]? = some s.unacked[count] := by
      simp only [ageRetriesOf]
      rw [List.getElem?_append_right (by omega), hlen, Nat.sub_self, List.getElem?_drop,
        Nat.add_zero, List.getElem?_eq_getElem hlt]
    have hpackets : (s.ageRetriesOf (count + 1)).1 =
        (s.ageRetriesOf count).1 ++ (EntryOp.age.returned s.unacked[count]).toList := by
      simp only [ageRetriesOf, List.take_succ_eq_append_getElem hlt, List.filterMap_append,
        EntryOp.returned, List.filterMap_cons, List.filterMap_nil]
      cases (s.unacked[count]).ageRetries.1 <;> rfl
    have hstate : (s.ageRetriesOf (count + 1)).2 =
        (s.ageRetriesOf count).2.setUnacked count (EntryOp.age.apply s.unacked[count]) := by
      simp only [ageRetriesOf, setUnacked, EntryOp.apply, List.take_succ_eq_append_getElem hlt,
        List.set_append_right _ _ hlen.le, hlen, Nat.sub_self, List.drop_eq_getElem_cons hlt,
        List.set_cons_zero, List.map_append, List.map_singleton, List.append_assoc,
        List.singleton_append]
    rw [List.range_succ, List.map_append, List.map_singleton, hpackets, hstate]
    exact (ih (by omega)).trans (.entry_silent .age hget rfl rfl)

end Sender

end ZprCore.Zdpr
