-- SUMMARY: What became of every queued packet, as a function of its id.
import ZprCore.Zdpr.Status

/-!
# Queued packets by id

The queues `sent` and `blocked` of a sender that has queued `m` packets hold the last of them,
in the order of their ids: first those that have left `blocked`, then those that still wait.
`Sender.queued` reads both as one function of the id `j < m`, with `gone` for the ids whose
record was trimmed. Moving cancelled entries from `blocked` to `sent` does not change it.
-/

namespace ZprCore.Zdpr

variable {Pkt : Type} {m j idx : Nat} {id : QueuedPacketId}

/-- What the queues still say about a queued packet. -/
inductive QueueState (Pkt : Type) where
  | waiting (packet : Pkt) (waker : Waker) (retryLimit : Option UInt8)
  | sentAs (sn : SeqNum)
  | canceled
  | gone

def BlockedState.toQueueState : BlockedState Pkt → QueueState Pkt
  | .blocked packet waker retryLimit => .waiting packet waker retryLimit
  | .canceled => .canceled

def QueueState.ofSent : Option SeqNum → QueueState Pkt
  | some sn => .sentAs sn
  | none => .canceled

namespace Sender

variable {s s' : Sender Pkt} {r : Option Pkt} {o : Option SeqNum} {packet p : Pkt} {waker w : Waker}
  {limit l : Option UInt8} {n : Nat}

def queue (s : Sender Pkt) : List (QueueState Pkt) :=
  s.sent.map .ofSent ++ s.blocked.map (·.toQueueState)

/-- The sender has queued exactly the packets with ids `0, …, m - 1`. -/
structure HasQueued (s : Sender Pkt) (m : Nat) : Prop where
  lastEnqueued : s.lastEnqueued = BitVec.ofNat 64 m - 1
  length_le : s.queue.length ≤ m

/-- What the queues say about the packet with id `j`. -/
def queued (s : Sender Pkt) (m j : Nat) : QueueState Pkt :=
  Window.read .gone (m - s.queue.length) s.queue j

theorem queue_length (s : Sender Pkt) : s.queue.length = s.sent.length + s.blocked.length := by
  simp [queue]

theorem new_hasQueued : (new : Sender Pkt).HasQueued 0 :=
  ⟨show BitVec.allOnes 64 = BitVec.ofNat 64 0 - 1 by decide, by simp [new, queue]⟩

/-! ## Positions -/

theorem HasQueued.blockedPosition_ofNat (hq : s.HasQueued m) (hm : m < 2 ^ 63) (hj : j < m) :
    s.blockedPosition (BitVec.ofNat 64 j) =
      if j < m - s.blocked.length then .behind else .at (j - (m - s.blocked.length)) := by
  have hlen := hq.length_le
  rw [queue_length] at hlen
  unfold blockedPosition
  rw [hq.lastEnqueued, wrappingOffset_ofNat hj (by omega), position_of_lt (by omega) (by omega) hj]

theorem HasQueued.sentPosition_ofNat (hq : s.HasQueued m) (hm : m < 2 ^ 63)
    (hj : j < m - s.blocked.length) :
    s.sentPosition (BitVec.ofNat 64 j) =
      if j < m - s.queue.length then .behind else .at (j - (m - s.queue.length)) := by
  have hlen := hq.length_le
  rw [queue_length] at hlen ⊢
  have hoff : (j : Int) - m + 1 + s.blocked.length
      = (j : Int) - (m - s.blocked.length : Nat) + 1 := by omega
  unfold sentPosition
  rw [hq.lastEnqueued, wrappingOffset_ofNat (by omega) (by omega), hoff,
    position_of_lt (by omega) (by omega) hj, Nat.sub_sub, Nat.add_comm s.blocked.length]

theorem HasQueued.queued_blocked (hq : s.HasQueued m) {b : BlockedState Pkt}
    (hb : s.blocked[idx]? = some b) :
    s.queued m (m - s.blocked.length + idx) = b.toQueueState := by
  have hlen := hq.length_le
  rw [queue_length] at hlen
  apply Window.read_of_get?
  · rw [queue_length]
    omega
  have hpos : m - s.blocked.length + idx - (m - s.queue.length) = s.sent.length + idx := by
    rw [queue_length]
    omega
  rw [hpos, queue, List.getElem?_append_right (by simp), List.length_map,
    Nat.add_sub_cancel_left, List.getElem?_map, hb]
  rfl

theorem queued_sent (ho : s.sent[idx]? = some o) :
    s.queued m (m - s.queue.length + idx) = .ofSent o := by
  obtain ⟨hidx, -⟩ := List.getElem?_eq_some_iff.mp ho
  apply Window.read_of_get? (Nat.le_add_right _ _)
  rw [Nat.add_sub_cancel_left, queue, List.getElem?_append_left (by simpa using hidx),
    List.getElem?_map, ho]
  rfl

theorem queued_gone (hj : j < m - s.queue.length) : s.queued m j = .gone :=
  Window.read_of_lt hj

theorem mem_blocked_of_queued
    (h : s.queued m j = .waiting packet waker limit) : .blocked packet waker limit ∈ s.blocked := by
  have hmem := Window.mem_of_read h nofun
  rcases List.mem_append.mp hmem with hsent | hblocked
  · obtain ⟨o, -, ho⟩ := List.mem_map.mp hsent
    cases o <;> cases ho
  · obtain ⟨b, hb, heq⟩ := List.mem_map.mp hblocked
    cases b <;> cases heq
    exact hb

theorem HasQueued.lookupSeqNum (hq : s.HasQueued m) (hm : m < 2 ^ 63)
    (hj : j < m - s.blocked.length) :
    (∃ sn, s.lookupSeqNum (BitVec.ofNat 64 j) = some (some sn) ∧ s.queued m j = .sentAs sn) ∨
    (s.lookupSeqNum (BitVec.ofNat 64 j) = some none ∧
      (s.queued m j = .gone ∨ s.queued m j = .canceled)) := by
  have hql := queue_length s
  unfold Sender.lookupSeqNum
  rw [hq.sentPosition_ofNat hm hj]
  by_cases hb : j < m - s.queue.length
  · rw [if_pos hb]
    exact .inr ⟨rfl, .inl (queued_gone hb)⟩
  rw [if_neg hb]
  have hlt : j - (m - s.queue.length) < s.sent.length := by omega
  have hst := queued_sent (m := m) (List.getElem?_eq_getElem hlt)
  have hjeq : m - s.queue.length + (j - (m - s.queue.length)) = j := by omega
  rw [hjeq] at hst
  simp only [List.getElem?_eq_getElem hlt, hst]
  cases s.sent[j - (m - s.queue.length)] with
  | none => exact .inr ⟨rfl, .inr rfl⟩
  | some sn => exact .inl ⟨sn, rfl, rfl⟩

theorem HasQueued.lookupSeqNum_cases (hq : s.HasQueued m) (hm : m < 2 ^ 63) (hj : j < m)
    (h : s.lookupSeqNum (BitVec.ofNat 64 j) = some o) :
    (∃ sn, o = some sn ∧ s.queued m j = .sentAs sn) ∨
    (o = none ∧ (s.queued m j = .gone ∨ s.queued m j = .canceled)) := by
  by_cases hb : j < m - s.blocked.length
  · rcases hq.lookupSeqNum hm hb with ⟨sn, hsome, hst⟩ | ⟨hnone, hst⟩
    · exact .inl ⟨sn, Option.some.inj (h.symm.trans hsome), hst⟩
    · exact .inr ⟨Option.some.inj (h.symm.trans hnone), hst⟩
  · have hpos : s.sentPosition (BitVec.ofNat 64 j) = .ahead := by
      unfold sentPosition position
      rw [hq.lastEnqueued, wrappingOffset_ofNat hj (by omega), if_pos (by omega)]
    simp only [Sender.lookupSeqNum, hpos] at h
    cases h

/-! ## Operations on waiting packets -/

theorem queue_cleanBlockedQueue (s : Sender Pkt) : s.cleanBlockedQueue.queue = s.queue := by
  have hcanceled : (s.blocked.takeWhile (·.isCanceled)).map (·.toQueueState)
      = ((s.blocked.takeWhile (·.isCanceled)).map fun _ => none).map (@QueueState.ofSent Pkt) := by
    rw [List.map_map]
    apply List.map_congr_left
    intro b hb
    have := List.all_eq_true.mp List.all_takeWhile b hb
    cases b with
    | blocked => cases this
    | canceled => rfl
  have hsplit : s.blocked.map (·.toQueueState)
      = (s.blocked.takeWhile (·.isCanceled)).map (·.toQueueState)
        ++ (s.blocked.dropWhile (·.isCanceled)).map (·.toQueueState) := by
    rw [← List.map_append, List.takeWhile_append_dropWhile]
  unfold queue
  rw [hsplit, hcanceled]
  simp only [cleanBlockedQueue, List.map_append, List.append_assoc]

theorem queue_setBlocked (s : Sender Pkt) (idx : Nat) (b : BlockedState Pkt) :
    (s.setBlocked idx b).queue = s.queue.set (s.sent.length + idx) b.toQueueState := by
  simp only [queue, setBlocked, List.map_set]
  simp

section

variable (hq : s.HasQueued m)

include hq

theorem HasQueued.of_queue_eq (hl : s'.lastEnqueued = s.lastEnqueued) (heq : s'.queue = s.queue) :
    s'.HasQueued m ∧ s'.queued m = s.queued m := by
  refine ⟨⟨hl.trans hq.lastEnqueued, heq ▸ hq.length_le⟩, ?_⟩
  unfold queued
  rw [heq]

theorem HasQueued.setBlocked (hj : j < m) (hb : ¬ j < m - s.blocked.length) (b : BlockedState Pkt) :
    (s.setBlocked (j - (m - s.blocked.length)) b).HasQueued m ∧
    (s.setBlocked (j - (m - s.blocked.length)) b).queued m
      = Function.update (s.queued m) j b.toQueueState := by
  have hlen := hq.length_le
  have hql := queue_length s
  refine ⟨⟨hq.lastEnqueued, by rw [queue_setBlocked, List.length_set]; exact hlen⟩, ?_⟩
  unfold queued
  have hpos : m - s.queue.length + (s.sent.length + (j - (m - s.blocked.length))) = j := by omega
  rw [queue_setBlocked, List.length_set, Window.read_set (by omega), hpos]

theorem HasQueued.get_blocked (hj : j < m) (hb : ¬ j < m - s.blocked.length) :
    ∃ b, s.blocked[j - (m - s.blocked.length)]? = some b ∧ s.queued m j = b.toQueueState := by
  have hlt : j - (m - s.blocked.length) < s.blocked.length := by omega
  have hst := hq.queued_blocked (List.getElem?_eq_getElem hlt)
  have hjeq : m - s.blocked.length + (j - (m - s.blocked.length)) = j := by omega
  rw [hjeq] at hst
  exact ⟨_, List.getElem?_eq_getElem hlt, hst⟩

theorem HasQueued.not_waiting (hm : m < 2 ^ 63) (hj : j < m - s.blocked.length) (packet : Pkt)
    (waker : Waker) (limit : Option UInt8) : s.queued m j ≠ .waiting packet waker limit := by
  rcases hq.lookupSeqNum hm hj with ⟨sn, -, h⟩ | ⟨-, h | h⟩ <;> rw [h] <;> exact nofun

theorem HasQueued.cancelQueuedPacket (hm : m < 2 ^ 63) (hj : j < m)
    (h : s.cancelQueuedPacket (BitVec.ofNat 64 j) = some (r, s')) :
    (r = none ∧ s' = s ∧ ∀ p w l, s.queued m j ≠ .waiting p w l) ∨
    (∃ p w l, r = some p ∧ s.queued m j = .waiting p w l ∧ s'.HasQueued m ∧
      s'.queued m = Function.update (s.queued m) j .canceled) := by
  unfold Sender.cancelQueuedPacket at h
  rw [hq.blockedPosition_ofNat hm hj] at h
  by_cases hb : j < m - s.blocked.length
  · rw [if_pos hb] at h
    cases h
    exact .inl ⟨rfl, rfl, hq.not_waiting hm hb⟩
  rw [if_neg hb] at h
  obtain ⟨b, hget, hst⟩ := hq.get_blocked hj hb
  obtain ⟨hq', hset⟩ := hq.setBlocked hj hb .canceled
  cases b with
  | canceled =>
    simp only [hget, BlockedState.cancel] at h
    cases h
    exact .inl ⟨rfl, rfl, fun _ _ _ => by rw [hst]; exact nofun⟩
  | blocked p w l =>
    simp only [hget, BlockedState.cancel] at h
    cases h
    refine .inr ⟨p, w, l, rfl, hst, ?_⟩
    rw [← show (@BlockedState.canceled Pkt).toQueueState = .canceled from rfl, ← hset]
    -- neither the waker nor the cleaning that follows shows in the queue
    split
    · exact hq'.of_queue_eq rfl (queue_cleanBlockedQueue _)
    · exact hq'.of_queue_eq rfl rfl

theorem HasQueued.pollSend (hm : m < 2 ^ 63) (hj : j < m) {cx : Waker} {r : Poll (Option SeqNum)}
    (h : s.pollSend cx (BitVec.ofNat 64 j) = some (r, s')) :
    (∃ p w l, r = .pending ∧ s.queued m j = .waiting p w l ∧ s'.HasQueued m ∧
      s'.queued m = Function.update (s.queued m) j (.waiting p cx l)) ∨
    (∃ sn, r = .ready (some sn) ∧ s' = s ∧ s.queued m j = .sentAs sn) ∨
    (r = .ready none ∧ s' = s ∧ (s.queued m j = .gone ∨ s.queued m j = .canceled)) := by
  unfold Sender.pollSend at h
  rw [hq.blockedPosition_ofNat hm hj] at h
  by_cases hb : j < m - s.blocked.length
  · rw [if_pos hb] at h
    obtain ⟨o, hlook, heq⟩ := Option.map_eq_some_iff.mp h
    cases heq
    rcases hq.lookupSeqNum_cases hm hj hlook with ⟨sn, rfl, hst⟩ | ⟨rfl, hst⟩
    · exact .inr (.inl ⟨sn, rfl, rfl, hst⟩)
    · exact .inr (.inr ⟨rfl, rfl, hst⟩)
  · rw [if_neg hb] at h
    obtain ⟨b, hget, hst⟩ := hq.get_blocked hj hb
    cases b with
    | canceled =>
      simp only [hget] at h
      cases h
    | blocked p w l =>
      simp only [hget] at h
      cases h
      exact .inl ⟨p, w, l, rfl, hst, hq.setBlocked hj hb _⟩

end

theorem HasQueued.limitRetriesById (hs : s.HasSent n) (hq : s.HasQueued m) (hm : m < 2 ^ 63)
    (hj : j < m) {limit : UInt8} (h : s.limitRetriesById (BitVec.ofNat 64 j) limit = some s') :
    (∃ p w l, s.queued m j = .waiting p w l ∧ Evolves n (fun _ e => e) s s' ∧ s'.HasQueued m ∧
      s'.queued m = Function.update (s.queued m) j (.waiting p w (lowerLimit limit l))) ∨
    (∃ sn, s.queued m j = .sentAs sn ∧ s.limitRetriesBySeqNum sn limit = some s') ∨
    ((∀ p w l, s.queued m j ≠ .waiting p w l) ∧ Evolves n (fun _ e => e) s s' ∧
      s'.HasQueued m ∧ s'.queued m = s.queued m) := by
  unfold Sender.limitRetriesById at h
  rw [hq.blockedPosition_ofNat hm hj] at h
  by_cases hb : j < m - s.blocked.length
  · simp only [if_pos hb] at h
    rcases hq.lookupSeqNum hm hb with ⟨sn, hsome, hst⟩ | ⟨hnone, hst⟩
    · rw [hsome] at h
      exact .inr (.inl ⟨sn, hst, h⟩)
    · rw [hnone] at h
      cases h
      exact .inr (.inr ⟨hq.not_waiting hm hb, hs.evolves_refl, hq, rfl⟩)
  · obtain ⟨b, hget, hst⟩ := hq.get_blocked hj hb
    simp only [if_neg hb, hget, Option.map_some, Option.some.injEq] at h
    obtain ⟨hq', hset⟩ := hq.setBlocked hj hb (b.limitRetries limit)
    have hev : Evolves n (fun _ e => e) s s' := by
      subst h
      exact hs.evolves_of_eq rfl rfl rfl fun _ hsn => hsn
    rw [h] at hq' hset
    cases b with
    | blocked p w l => exact .inl ⟨p, w, l, hst, hev, hq', hset⟩
    | canceled =>
      refine .inr (.inr ⟨fun _ _ _ => by rw [hst]; exact nofun, hev, hq', ?_⟩)
      rw [hset, ← Function.update_eq_self j (s.queued m), hst]
      simp [BlockedState.limitRetries]

/-! ## Queueing, sending and trimming -/

theorem HasQueued.enqueuePacket (hq : s.HasQueued m) (packet : Pkt)
    (h : (s.enqueuePacket packet).1 = .queued id) :
    id = BitVec.ofNat 64 m ∧ (s.enqueuePacket packet).2.HasQueued (m + 1) ∧
    (s.enqueuePacket packet).2.queued (m + 1)
      = Function.update (s.queued m) m (.waiting packet .noop none) := by
  have hlen := hq.length_le
  have hlast : s.lastEnqueued + 1 = BitVec.ofNat 64 m := by rw [hq.lastEnqueued, sub_add_cancel]
  unfold Sender.enqueuePacket at h ⊢
  split
  · next hc =>
    rw [if_pos hc] at h
    have hqueue : queue { s with
          lastEnqueued := s.lastEnqueued + 1
          blocked := s.blocked ++ [.blocked packet .noop none] }
        = s.queue ++ [.waiting packet .noop none] := by
      simp [queue, BlockedState.toQueueState]
    refine ⟨(EnqueueResult.queued.inj h).symm.trans hlast, ⟨?_, ?_⟩, ?_⟩
    · refine hlast.trans ?_
      rw [BitVec.ofNat_add]
      exact (add_sub_cancel_right _ _).symm
    · rw [hqueue, List.length_append, List.length_singleton]
      omega
    · unfold queued
      have hbase : m + 1 - (s.queue.length + 1) = m - s.queue.length := by omega
      have hpos : m - s.queue.length + s.queue.length = m := by omega
      rw [hqueue, List.length_append, List.length_singleton, hbase, Window.read_push, hpos]
  · next hc =>
    rw [if_neg hc] at h
    cases h

theorem HasQueued.enqueuePacket_sent (hq : s.HasQueued m) {sn : SeqNum}
    (h : (s.enqueuePacket packet).1 = .sent sn p) :
    (s.enqueuePacket packet).2.HasQueued m ∧ (s.enqueuePacket packet).2.queued m = s.queued m := by
  unfold Sender.enqueuePacket at h ⊢
  split
  · next hc =>
    rw [if_pos hc] at h
    cases h
  · exact hq.of_queue_eq rfl rfl

theorem HasQueued.popBlocked (hq : s.HasQueued m)
    {rest : List (BlockedState Pkt)} (hfront : s.blocked = .blocked p w l :: rest) :
    (s.popBlocked p w l rest).HasQueued m ∧
    (s.popBlocked p w l rest).queued m
      = Function.update (s.queued m) (m - s.blocked.length) (.sentAs (s.lastSent + 1)) := by
  have hlen := hq.length_le
  have hql := queue_length s
  have hblen : s.blocked.length = rest.length + 1 := by rw [hfront, List.length_cons]
  have hqueue : (s.popBlocked p w l rest).queue
      = s.queue.set s.sent.length (.sentAs (s.lastSent + 1)) := by
    simp [queue, Sender.popBlocked, hfront, pushUnacked, QueueState.ofSent]
  refine ⟨⟨hq.lastEnqueued, by rw [hqueue, List.length_set]; exact hlen⟩, ?_⟩
  unfold queued
  have hpos : m - s.queue.length + s.sent.length = m - s.blocked.length := by omega
  rw [hqueue, List.length_set, Window.read_set (by omega), hpos]

theorem HasQueued.enqueueNextBlockedPacket (hs : s.HasSent n) (hq : s.HasQueued m)
    {r : SeqNum × Pkt} (h : s.enqueueNextBlockedPacket = some (r, s')) :
    ∃ j < m, ∃ p w l, s.queued m j = .waiting p w l ∧ r = (BitVec.ofNat 64 n, p) ∧
      Sends n p l s s' ∧ s'.HasQueued m ∧
      s'.queued m = Function.update (s.queued m) j (.sentAs (BitVec.ofNat 64 n)) := by
  have hlen := hq.length_le
  rw [queue_length] at hlen
  obtain ⟨p, w, l, rest, hfront, hr, hsends⟩ := hs.enqueueNextBlockedPacket h
  have hhead : s.blocked[0]? = some (.blocked p w l) := by rw [hfront]; rfl
  have hst := hq.queued_blocked hhead
  have hblen : s.blocked.length = rest.length + 1 := by rw [hfront, List.length_cons]
  have hfree : ¬ s.isBlocked = true := by
    simpa [isBlocked] using hsends.not_blocked
  unfold Sender.enqueueNextBlockedPacket at h
  simp only [if_neg hfree, hfront] at h
  cases h
  obtain ⟨hq', hupd⟩ := hq.popBlocked hfront
  rw [hs.lastSent, sub_add_cancel] at hupd
  refine ⟨m - s.blocked.length, by omega, p, w, l, hst, hr, hsends, ?_⟩
  rw [← hupd]
  exact hq'.of_queue_eq rfl (queue_cleanBlockedQueue _)

/-- From `s` to `s'` only records of cancelled and settled packets were dropped. -/
structure Trims (m : Nat) (s s' : Sender Pkt) : Prop where
  hasQueued : s'.HasQueued m
  queued : ∀ j, s'.queued m j = s.queued m j ∨ s'.queued m j = .gone ∧
    (s.queued m j = .canceled ∨ ∃ sn, s.queued m j = .sentAs sn ∧ s'.isAcked sn = some true)

theorem HasQueued.cleanQueues (hq : s.HasQueued m) (h : s.cleanQueues idx = some s') :
    Trims m s s' := by
  have hlen := hq.length_le
  obtain ⟨pre, sent, hsplit, hs', hpre⟩ := cleanQueues_eq h
  have hqueue : s.queue = pre.map .ofSent ++ s'.queue := by
    simp [queue, hsplit, hs']
  have hql := congrArg List.length hqueue
  rw [List.length_append, List.length_map] at hql
  refine ⟨⟨by rw [hs']; exact hq.lastEnqueued, by omega⟩, ?_⟩
  intro j
  have hbase : m - s'.queue.length
      = m - s.queue.length + (pre.map (@QueueState.ofSent Pkt)).length := by
    rw [List.length_map]
    omega
  have hread : s'.queued m j = if j < m - s.queue.length + (pre.map (@QueueState.ofSent Pkt)).length
      then .gone else s.queued m j := by
    unfold queued
    rw [hbase, Window.read_trim, ← hqueue]
  rw [hread, List.length_map]
  by_cases hj : j < m - s.queue.length
  · rw [queued_gone hj, if_pos (by omega)]
    exact .inl rfl
  by_cases hlt : j < m - s.queue.length + pre.length
  · have hi : j - (m - s.queue.length) < pre.length := by omega
    have hget : s.sent[j - (m - s.queue.length)]? = some pre[j - (m - s.queue.length)] := by
      rw [hsplit, List.getElem?_append_left hi, List.getElem?_eq_getElem hi]
    have hst := queued_sent (m := m) hget
    have hjeq : m - s.queue.length + (j - (m - s.queue.length)) = j := by omega
    rw [hjeq] at hst
    rw [if_pos hlt, hst]
    refine .inr ⟨rfl, ?_⟩
    cases ho : pre[j - (m - s.queue.length)] with
    | none => exact .inl rfl
    | some sn => exact .inr ⟨sn, rfl, hpre sn (ho ▸ List.getElem_mem hi)⟩
  · rw [if_neg hlt]
    exact .inl rfl

theorem Trims.of_queued_eq {t : Sender Pkt} (h : Trims m t s') (heq : t.queued m = s.queued m) :
    Trims m s s' := by
  refine ⟨h.hasQueued, ?_⟩
  rw [← heq]
  exact h.queued

theorem HasQueued.trims_of_queue_eq (hq : s.HasQueued m) (hl : s'.lastEnqueued = s.lastEnqueued)
    (heq : s'.queue = s.queue) : Trims m s s' := by
  obtain ⟨hq', hst⟩ := hq.of_queue_eq hl heq
  exact ⟨hq', fun j => .inl (congrFun hst j)⟩

section Window

variable {sn : SeqNum} {op : EntryOp} {ps : List Pkt}

section

variable (hq : s.HasQueued m)

include hq

theorem HasQueued.entry (h : Moves s [.entry idx op] ps s') : Trims m s s' := by
  obtain ⟨e, -, rfl⟩ := h.entry_inv
  exact hq.trims_of_queue_eq rfl rfl

theorem HasQueued.entry_trim (h : Moves s [.entry idx op, .trim idx] ps s') : Trims m s s' := by
  obtain ⟨e, t, -, ht, hc⟩ := h.entry_trim_inv
  have hset : t.HasQueued m ∧ t.queued m = s.queued m :=
    hq.of_queue_eq (by rw [ht]; rfl) (by rw [ht]; rfl)
  exact (hset.1.cleanQueues hc).of_queued_eq hset.2

theorem HasQueued.applies (h : s.Applies op sn ps s') : Trims m s s' := by
  cases h with
  | idle => exact hq.trims_of_queue_eq rfl rfl
  | entry _ hms => exact hq.entry hms

theorem HasQueued.settles (h : s.Settles op sn ps s') : Trims m s s' := by
  cases h with
  | idle | counted => exact hq.trims_of_queue_eq rfl rfl
  | entry _ hms => exact hq.entry_trim hms

theorem HasQueued.ageRetries : Trims m s s.ageRetries.2 :=
  hq.trims_of_queue_eq rfl rfl

end

end Window

end Sender

end ZprCore.Zdpr
