-- SUMMARY: Where every packet handed to a sender is.
import Mathlib.Algebra.Order.Group.Multiset
import Mathlib.Tactic.Abel
import ZprCore.Zdpr.Calls

/-!
# Custody of packets

A sender over tagged packets, where the tag of a packet is its place in the order in which the
packets were handed over. `Custody` adds to the sender what its caller has seen: the packets
handed over, numbered and handed back. `Custody.Sound` ties the queues to that record and is kept
by every move of the sender.
-/

namespace ZprCore.Zdpr

open Sender

variable {Pkt : Type} {s : Sender (Nat × Pkt)}

def UnackedState.packet? : UnackedState Pkt → Option Pkt
  | .unacked packet _ _ _ _ => some packet
  | .cancelRequested .. | .acked | .cancelAcked => none

def BlockedState.packet? : BlockedState Pkt → Option Pkt
  | .blocked packet _ _ => some packet
  | .canceled => none

/-- The packets of the `Unacked` entries, oldest first. -/
def Sender.inWindow (s : Sender Pkt) : List Pkt := s.unacked.filterMap (·.packet?)

/-- The packets that wait for room in the window, oldest first. -/
def Sender.waiting (s : Sender Pkt) : List Pkt := s.blocked.filterMap (·.packet?)

structure Custody (Pkt : Type) where
  sender : Sender (Nat × Pkt)
  /-- the packets handed to this sender -/
  enqueued : List (Nat × Pkt)
  /-- the packets given a sequence number, in that order -/
  numbered : List (SeqNum × Nat × Pkt)
  /-- the tags of the packets that `cancel_queued_packet` handed back -/
  withdrawn : List Nat
  /-- the packets handed back, by any operation -/
  returned : List (Nat × Pkt)
  /-- the packets handed to, and back by, the senders before this one (see `finish`) -/
  finished : List (List (Nat × Pkt) × List (Nat × Pkt))

inductive CustodyAction (Pkt : Type) where
  | enqueuePacket (packet : Pkt)
  | call (c : SenderCall)
  | reset
  /-- the sender is consumed; the caller goes on with a new one -/
  | destruct

def SenderCall.withdraws : SenderCall → Bool
  | .cancelQueuedPacket _ => true
  | _ => false

namespace Custody

def start : Custody Pkt := ⟨.new, [], [], [], [], []⟩

/-- The sender goes away. `destruct` hands back the packets it holds and `reset` disposes of them,
    through the same `destruct_internal`. -/
def finish (c : Custody Pkt) (next : Sender (Nat × Pkt)) : Custody Pkt :=
  { start with
    sender := next
    finished := c.finished ++ [(c.enqueued, c.returned ++ c.sender.destruct.2)] }

def step (c : Custody Pkt) : CustodyAction Pkt → Option (Custody Pkt)
  | .enqueuePacket packet =>
    let tagged := (c.enqueued.length, packet)
    ((SenderAction.enqueuePacket tagged).run c.sender).map fun o =>
      { c with
        sender := o.sender
        enqueued := c.enqueued ++ [tagged]
        numbered := c.numbered ++ o.numbered }
  | .call call =>
    ((SenderAction.call call).run c.sender).map fun o =>
      { c with
        sender := o.sender
        numbered := c.numbered ++ o.numbered
        withdrawn :=
          if call.withdraws then c.withdrawn ++ o.returned.map (·.1) else c.withdrawn
        returned := c.returned ++ o.returned }
  | .reset => some (c.finish c.sender.reset)
  | .destruct => some (c.finish .new)

def Reachable : Custody Pkt → Prop := Run step (· = start) fun _ _ => True

/-- The queues agree with what was handed over, numbered and handed back. -/
structure Sound (c : Custody Pkt) : Prop where
  tags : c.enqueued.map (·.1) = List.range c.enqueued.length
  custody : (c.sender.waiting + c.sender.inWindow + c.returned : Multiset (Nat × Pkt)) = c.enqueued
  hasSent : c.sender.HasSent c.numbered.length
  numbers : c.numbered.map (·.1) = (List.range c.numbered.length).map (BitVec.ofNat 64)
  entries : ∀ k < c.numbered.length, ∀ p,
    (c.sender.status c.numbered.length k).packet? = some p → (c.numbered.map (·.2))[k]? = some p
  order : c.numbered.map (·.2) ++ c.sender.waiting =
    c.enqueued.filter fun p => decide (p.1 ∉ c.withdrawn)
  withdrawn : ∀ i ∈ c.withdrawn, i < c.enqueued.length

theorem start_sound : (start : Custody Pkt).Sound where
  tags := rfl
  custody := rfl
  hasSent := new_hasSent
  numbers := rfl
  entries _ hk := by cases hk
  order := rfl
  withdrawn := by simp [start]

/-! ## Moves that leave the queue of waiting packets alone -/

variable {α β : Type} {f : α → Option β} {l : List α}

theorem filterMap_dropWhile {p : α → Bool}
    (h : ∀ x, p x = true → f x = none) : (l.dropWhile p).filterMap f = l.filterMap f := by
  induction l with
  | nil => rfl
  | cons x l ih =>
    by_cases hx : p x = true
    · rw [List.dropWhile_cons_of_pos hx, ih, List.filterMap_cons_none (h x hx)]
    · rw [List.dropWhile_cons_of_neg hx]

/-- The packet of an entry stays there or is handed back. -/
theorem entryOp_packet (op : EntryOp) (e : UnackedState Pkt) :
    (op.apply e).packet?.toList ++ (op.returned e).toList = e.packet?.toList := by
  cases e with
  | unacked p w l n f =>
    cases op with
    | forget => cases l <;> rfl
    | age =>
      cases l with
      | none => rfl
      | some limit =>
        simp only [EntryOp.returned, EntryOp.apply, UnackedState.ageRetries]
        split <;> rfl
    | _ => rfl
  | cancelRequested w f =>
    cases op with
    | cancelAck => cases f <;> rfl
    | _ => rfl
  | acked | cancelAcked => cases op <;> rfl

theorem slotOp_packet {op : SlotOp} (hop : op ≠ .cancel) (b : BlockedState Pkt) :
    op.returned b = none ∧ (op.apply b).packet? = b.packet? := by
  cases op with
  | cancel => exact absurd rfl hop
  | setWaker | limit => cases b <;> exact ⟨rfl, rfl⟩

theorem filterMap_set {i : Nat} {x y : α} (h : l[i]? = some x) :
    ∃ l₁ l₂, l.filterMap f = l₁ ++ (f x).toList ++ l₂ ∧
      (l.set i y).filterMap f = l₁ ++ (f y).toList ++ l₂ := by
  obtain ⟨u, v, rfl, -, hset⟩ := exists_split h
  refine ⟨u.filterMap f, v.filterMap f, ?_, ?_⟩
  · cases hx : f x <;> simp [hx]
  · rw [hset]
    cases hy : f y <;> simp [hy]

variable {c : Custody Pkt} {s' : Sender (Nat × Pkt)} {p : Nat × Pkt} {o : Outcome (Nat × Pkt)}

section

variable (h : c.Sound) {idx : Nat}

include h

theorem Sound.of_window (returned : List (Nat × Pkt)) (hwaiting : s'.waiting = c.sender.waiting)
    (hwindow : (s'.inWindow + returned : Multiset (Nat × Pkt)) = c.sender.inWindow)
    (hsent : s'.HasSent c.numbered.length)
    (hentries : ∀ k < c.numbered.length, ∀ p, (s'.status c.numbered.length k).packet? = some p →
      (c.sender.status c.numbered.length k).packet? = some p) :
    Sound { c with sender := s', returned := c.returned ++ returned } where
  tags := h.tags
  custody := by
    rw [hwaiting, ← h.custody, ← hwindow, ← Multiset.coe_add]
    abel
  hasSent := hsent
  numbers := h.numbers
  entries k hk p hp := h.entries k hk p (hentries k hk p hp)
  order := (congrArg _ hwaiting).trans h.order
  withdrawn := h.withdrawn

theorem Sound.entry {e : UnackedState (Nat × Pkt)} (op : EntryOp)
    (he : c.sender.unacked[idx]? = some e) :
    Sound { c with
      sender := { c.sender.setUnacked idx (op.apply e) with
        woken := c.sender.woken ++ op.woken e }
      returned := c.returned ++ (op.returned e).toList } := by
  have hop := entryOp_packet op e
  have hlen : (c.sender.unacked.set idx (op.apply e)).length = c.sender.unacked.length :=
    List.length_set
  refine h.of_window _ rfl ?_ ⟨h.hasSent.lastSent, hlen.le.trans h.hasSent.length_le⟩ ?_
  · obtain ⟨u, v, hu, hu'⟩ := filterMap_set (f := (·.packet?)) (y := op.apply e) he
    simp only [Sender.inWindow, Sender.setUnacked]
    rw [hu, hu', ← hop]
    simp only [← Multiset.coe_add]
    abel
  · intro k _ p hp
    change ((c.sender.setUnacked idx (op.apply e)).status _ k).packet? = some p at hp
    rw [status_setUnacked (List.getElem?_eq_some_iff.mp he).1, Function.update_apply] at hp
    split at hp
    · next hk =>
      rw [hk, status_at he]
      cases hold : e.packet? <;> simp_all
    · exact hp

theorem Sound.trim (hc : c.sender.cleanQueues idx = some s') :
    Sound { c with sender := s' } := by
  obtain ⟨hblocked, -, hunacked⟩ := cleanQueues_fields hc
  have hev := h.hasSent.cleanQueues hc
  have hacked : ∀ e : UnackedState (Nat × Pkt), isAckedEntry e = true → e.packet? = none := by
    intro e he
    cases e <;> first | rfl | cases he
  have hwindow : s'.inWindow = c.sender.inWindow := by
    unfold Sender.inWindow
    rw [hunacked]
    split
    · exact filterMap_dropWhile hacked
    · rfl
  have hmove := h.of_window [] (congrArg (List.filterMap _) hblocked)
    (by rw [hwindow, Multiset.coe_nil, add_zero]) hev.hasSent fun k hk p hp =>
      hev.status k hk ▸ hp
  rwa [List.append_nil] at hmove

theorem Sound.of_waiting (s' : Sender (Nat × Pkt)) (hw : s'.waiting = c.sender.waiting)
    (hu : s'.unacked = c.sender.unacked) (hl : s'.lastSent = c.sender.lastSent) :
    Sound { c with sender := s' } := by
  have hmove := h.of_window [] hw (by rw [Multiset.coe_nil, add_zero, Sender.inWindow, hu]; rfl)
    ⟨hl.trans h.hasSent.lastSent, hu ▸ h.hasSent.length_le⟩ fun k _ p hp => by
      rwa [Sender.status, hu] at hp
  rwa [List.append_nil] at hmove

theorem Sound.plain_move {m : Move (Nat × Pkt)} (hplain : m.isPlain = true)
    (hm : c.sender.Moved m s') :
    Sound { c with sender := s', returned := c.returned ++ c.sender.returned m } := by
  cases hm with
  | quiet windowSize stats =>
    have hmove := h.of_waiting { c.sender with windowSize, stats } rfl rfl rfl
    simpa only [Sender.returned, List.append_nil] using hmove
  | @entry idx e op he =>
    have hmove := h.entry op he
    simpa only [Sender.returned, he, Option.bind_some] using hmove
  | @slot idx b op hb =>
    have hop : op ≠ .cancel := by
      rintro rfl
      cases hplain
    obtain ⟨hret, hkeep⟩ := slotOp_packet hop b
    have hmove := h.of_waiting { c.sender.setBlocked idx (op.apply b) with
      woken := c.sender.woken ++ op.woken b } (by
        obtain ⟨u, v, hu, hu'⟩ := filterMap_set (f := (·.packet?)) (y := op.apply b) hb
        change List.filterMap _ (c.sender.blocked.set idx (op.apply b)) =
          List.filterMap _ c.sender.blocked
        rw [hu, hu', hkeep]) rfl rfl
    simpa only [Sender.returned, hb, Option.bind_some, hret, Option.toList_none, List.append_nil]
      using hmove
  | trim hc =>
    have hmove := h.trim hc
    simpa only [Sender.returned, List.append_nil] using hmove
  | trimBlocked =>
    have hcanceled : ∀ b : BlockedState (Nat × Pkt), b.isCanceled = true → b.packet? = none := by
      intro b hb
      cases b <;> first | rfl | cases hb
    have hmove := h.of_waiting c.sender.cleanBlockedQueue (filterMap_dropWhile hcanceled)
      rfl rfl
    simpa only [Sender.returned, List.append_nil] using hmove
  | queue | send | unblock => cases hplain

theorem Sound.plain {ms : List (Move (Nat × Pkt))} {ps : List (Nat × Pkt)}
    (hs : c.sender = s) (hms : s.Moves ms ps s') (hplain : ∀ m ∈ ms, m.isPlain = true) :
    Sound { c with sender := s', returned := c.returned ++ ps } := by
  induction hms generalizing c with
  | nil =>
    subst hs
    simpa using h
  | @cons s t u m ms ps hm hrest ih =>
    subst hs
    have hmove := h.plain_move (hplain m List.mem_cons_self) hm
    have hnext := ih hmove rfl fun m hm => hplain m (List.mem_cons_of_mem _ hm)
    rw [← List.append_assoc]
    exact hnext

end

/-! ## Handing over, numbering and withdrawing -/

theorem Sound.queue (h : c.Sound) (s' : Sender (Nat × Pkt)) (hp : p.1 = c.enqueued.length)
    (hu : s'.unacked = c.sender.unacked) (hl : s'.lastSent = c.sender.lastSent)
    (hw : s'.waiting = c.sender.waiting ++ [p]) :
    Sound { c with sender := s', enqueued := c.enqueued ++ [p] } where
  tags := by simp [h.tags, hp, List.range_succ]
  custody := by
    have hwindow : s'.inWindow = c.sender.inWindow := congrArg (List.filterMap _) hu
    rw [hw, hwindow, ← Multiset.coe_add, ← Multiset.coe_add, ← h.custody]
    abel
  hasSent := ⟨hl.trans h.hasSent.lastSent, hu ▸ h.hasSent.length_le⟩
  numbers := h.numbers
  entries := by
    simp only [Sender.status, hu]
    exact h.entries
  order := by
    have hnew : p.1 ∉ c.withdrawn := fun hmem => by
      have := h.withdrawn _ hmem
      omega
    rw [hw, ← List.append_assoc, h.order, List.filter_append]
    simp [hnew]
  withdrawn := by
    intro i hi
    have := h.withdrawn i hi
    simp only [List.length_append, List.length_singleton]
    omega

theorem Sound.unblock (h : c.Sound) (s' : Sender (Nat × Pkt)) {w : Waker}
    {l : Option UInt8} (hu : s'.unacked = c.sender.unacked ++ [.unacked p w l 0 false])
    (hl : s'.lastSent = c.sender.lastSent + 1) (hw : c.sender.waiting = [p] ++ s'.waiting) :
    Sound { c with
      sender := s'
      numbered := c.numbered ++ [(c.sender.lastSent + 1, p)] } := by
  have hn : c.sender.lastSent + 1 = BitVec.ofNat 64 c.numbered.length := by
    rw [h.hasSent.lastSent, sub_add_cancel]
  have hle := h.hasSent.length_le
  have hlen : s'.unacked.length = c.sender.unacked.length + 1 := by rw [hu]; simp
  have hwindow : s'.inWindow = c.sender.inWindow ++ [p] := by
    unfold Sender.inWindow
    rw [hu, List.filterMap_append]
    rfl
  exact
    { tags := h.tags
      custody := by
        rw [hwindow, ← h.custody, hw]
        simp only [← Multiset.coe_add]
        abel
      hasSent := by
        refine ⟨hl.trans ?_, ?_⟩
        · rw [hn, List.length_append, List.length_singleton, BitVec.ofNat_add]
          exact (add_sub_cancel_right _ _).symm
        · simp only [List.length_append, List.length_singleton]
          omega
      numbers := by
        simp only [List.map_append, h.numbers, List.map_cons, List.map_nil, hn,
          List.length_append, List.length_singleton, List.range_succ]
      entries := by
        intro k hk q hq
        rw [List.length_append, List.length_singleton] at hk hq
        rw [h.hasSent.status_concat hu, Function.update_apply] at hq
        rw [List.map_append]
        split at hq
        · next heq =>
          cases hq
          rw [heq, ← @List.length_map _ _ c.numbered (·.2)]
          exact List.getElem?_concat_length
        · have hold := h.entries k (by omega) q hq
          rw [List.getElem?_append_left (List.getElem?_eq_some_iff.mp hold).1]
          exact hold
      order := by
        rw [List.map_append, List.append_assoc]
        exact (congrArg _ hw).symm.trans h.order
      withdrawn := h.withdrawn }

theorem Sound.send (h : c.Sound) (hp : p.1 = c.enqueued.length)
    (hnone : c.sender.hasBlockedPackets = false) :
    Sound { c with
      sender := c.sender.pushUnacked p none
      enqueued := c.enqueued ++ [p]
      numbered := c.numbered ++ [(c.sender.lastSent + 1, p)] } := by
  have hempty : c.sender.blocked = [] := by
    simpa [hasBlockedPackets] using hnone
  have hwaiting : c.sender.waiting = [] := by
    unfold Sender.waiting
    rw [hempty]
    rfl
  -- as if it had waited for a moment
  have hqueued := h.queue { c.sender with blocked := [.blocked p .noop none] } hp rfl rfl
    (by rw [hwaiting]; rfl)
  exact hqueued.unblock (c.sender.pushUnacked p none) rfl rfl
    (by change [p] = p :: c.sender.waiting; rw [hwaiting])

theorem filter_ne_of_nodup {l₁ l₂ : List (Nat × α)} {p : Nat × α}
    (h : ((l₁ ++ p :: l₂).map (·.1)).Nodup) :
    (l₁ ++ p :: l₂).filter (fun q => decide (q.1 ≠ p.1)) = l₁ ++ l₂ := by
  have hmid := List.nodup_middle.mp (by simpa using h)
  obtain ⟨hp, -⟩ := List.nodup_cons.mp hmid
  have hkeep : ∀ q ∈ l₁ ++ l₂, decide (q.1 ≠ p.1) = true := by
    intro q hq
    simp only [decide_eq_true_eq]
    intro heq
    apply hp
    rw [← heq, ← List.map_append]
    exact List.mem_map_of_mem hq
  have hrest := List.filter_eq_self.mpr hkeep
  rw [List.filter_append] at hrest ⊢
  rw [List.filter_cons_of_neg (by simp)]
  exact hrest

theorem Sound.withdraw (h : c.Sound) {before after : List (Nat × Pkt)}
    (hu : s'.unacked = c.sender.unacked) (hl : s'.lastSent = c.sender.lastSent)
    (hw : c.sender.waiting = before ++ [p] ++ after) (hw' : s'.waiting = before ++ after) :
    Sound { c with
      sender := s'
      withdrawn := c.withdrawn ++ [p.1]
      returned := c.returned ++ [p] } where
  tags := h.tags
  custody := by
    have hwindow : s'.inWindow = c.sender.inWindow := congrArg (List.filterMap _) hu
    rw [← h.custody, hw', hw, hwindow]
    simp only [← Multiset.coe_add]
    abel
  hasSent := ⟨hl.trans h.hasSent.lastSent, hu ▸ h.hasSent.length_le⟩
  numbers := h.numbers
  entries := by
    simp only [Sender.status, hu]
    exact h.entries
  order := by
    -- no two packets have one tag, so the filter takes out just this one
    have hmore : c.enqueued.filter (fun q => decide (q.1 ∉ c.withdrawn ++ [p.1])) =
        (c.enqueued.filter fun q => decide (q.1 ∉ c.withdrawn)).filter
          fun q => decide (q.1 ≠ p.1) := by
      rw [List.filter_filter]
      refine List.filter_congr fun q _ => ?_
      simp [and_comm]
    have hsplit : c.enqueued.filter (fun q => decide (q.1 ∉ c.withdrawn)) =
        (c.numbered.map (·.2) ++ before) ++ p :: after := by
      rw [← h.order, hw]
      simp
    have hnodup : (((c.numbered.map (·.2) ++ before) ++ p :: after).map (·.1)).Nodup := by
      rw [← hsplit]
      refine List.Nodup.sublist (List.filter_sublist.map _) ?_
      rw [h.tags]
      exact List.nodup_range
    rw [hmore, hsplit, filter_ne_of_nodup hnodup, hw', List.append_assoc]
  withdrawn := by
    intro i hi
    rcases List.mem_append.mp hi with hold | hnew
    · exact h.withdrawn i hold
    rw [List.mem_singleton.mp hnew]
    have hmem : p ∈ (c.enqueued : Multiset (Nat × Pkt)) := by
      rw [← h.custody]
      simp [hw]
    have htag : p.1 ∈ c.enqueued.map (·.1) := List.mem_map_of_mem hmem
    rw [h.tags] at htag
    exact List.mem_range.mp htag

/-! ## Steps -/

theorem Sound.enqueuePacket (h : c.Sound) {packet : Pkt}
    (ho : (SenderAction.enqueuePacket (c.enqueued.length, packet)).perform c.sender = some o) :
    Sound { c with
      sender := o.sender
      enqueued := c.enqueued ++ [(c.enqueued.length, packet)]
      numbered := c.numbered ++ o.numbered } := by
  obtain ⟨-, -, ⟨hm, hnum⟩ | ⟨hm, hnum⟩⟩ := SenderAction.perform_enqueuePacket ho
  · generalize o.sender = s' at hm
    cases hm with
    | queue =>
      have hqueued := h.queue (p := (c.enqueued.length, packet)) { c.sender with
        lastEnqueued := c.sender.lastEnqueued + 1
        blocked := c.sender.blocked ++ [.blocked (c.enqueued.length, packet) .noop none] }
        rfl rfl rfl (by simp [Sender.waiting, BlockedState.packet?])
      simpa only [hnum, List.append_nil] using hqueued
  · generalize o.sender = s' at hm
    cases hm with
    | send _ _ hnone =>
      rw [hnum]
      exact h.send rfl hnone

theorem Sound.cancelQueuedPacket (h : c.Sound) {id : QueuedPacketId} {r : Option (Nat × Pkt)}
    (hr : c.sender.cancelQueuedPacket id = some (r, s')) :
    Sound { c with
      sender := s'
      withdrawn := c.withdrawn ++ r.toList.map (·.1)
      returned := c.returned ++ r.toList } := by
  rcases cancelQueuedPacket_moves hr with ⟨rfl, rfl⟩ | ⟨idx, p, w, l, rfl, -, hb, hms⟩
  · simpa using h
  obtain ⟨u, v, hu, hu'⟩ := filterMap_set (f := (·.packet?)) (y := BlockedState.canceled) hb
  obtain ⟨t, qs, hm, hrest, hps⟩ := hms.cons_inv
  have hret : c.sender.returned (.slot idx .cancel) = [p] := by
    simp [Sender.returned, hb, SlotOp.returned]
  obtain rfl : qs = [] := by simpa [hret] using hps
  have hback : Sound { c with
      sender := t
      withdrawn := c.withdrawn ++ [p.1]
      returned := c.returned ++ [p] } := by
    cases hm with
    | slot op hb' =>
      cases hb.symm.trans hb'
      exact h.withdraw rfl rfl hu (hu'.trans (congrArg (· ++ v) (List.append_nil u)))
  have hclean := hback.plain rfl hrest (by split <;> simp [Move.isPlain])
  simpa only [List.append_nil, Option.toList_some, List.map_singleton] using hclean

theorem Sound.enqueueNextBlockedPacket (h : c.Sound) {r : SeqNum × Nat × Pkt}
    (hr : c.sender.enqueueNextBlockedPacket = some (r, s')) :
    Sound { c with sender := s', numbered := c.numbered ++ [r] } := by
  obtain ⟨hnum, hms⟩ := Sender.enqueueNextBlockedPacket_moves hr
  obtain ⟨t, qs, hm, hrest, hps⟩ := hms.cons_inv
  obtain rfl : qs = [] := by simpa [Sender.returned] using hps
  have hnext : Sound { c with sender := t, numbered := c.numbered ++ [r] } := by
    obtain ⟨sn, p⟩ := r
    obtain rfl : sn = c.sender.lastSent + 1 := hnum
    cases hm with
    | unblock hfree hfront =>
      refine h.unblock _ rfl rfl ?_
      simp only [Sender.waiting, hfront]
      rfl
  have hclean := hnext.plain rfl hrest (by simp [Move.isPlain])
  simpa only [List.append_nil] using hclean

theorem Sound.call (h : c.Sound) {call : SenderCall} (ho : call.perform c.sender = some o) :
    Sound { c with
      sender := o.sender
      numbered := c.numbered ++ o.numbered
      withdrawn :=
        if call.withdraws then c.withdrawn ++ o.returned.map (·.1) else c.withdrawn
      returned := c.returned ++ o.returned } := by
  by_cases hc : call.movesPackets = true
  · cases call with
    | enqueueNextBlockedPacket =>
      obtain ⟨⟨r, s'⟩, hr, rfl⟩ := Option.map_eq_some_iff.mp ho
      simpa only [SenderCall.withdraws, Bool.false_eq_true, if_false, List.append_nil] using
        h.enqueueNextBlockedPacket hr
    | cancelQueuedPacket id =>
      obtain ⟨⟨r, s'⟩, hr, rfl⟩ := Option.map_eq_some_iff.mp ho
      simpa only [SenderCall.withdraws, if_true, List.append_nil] using h.cancelQueuedPacket hr
    | _ => cases hc
  · obtain ⟨hnum, ms, hms, hplain⟩ := SenderCall.perform_plain (by simpa using hc) ho
    have hno : call.withdraws = false := by
      cases call <;> first | rfl | exact absurd rfl hc
    have hmove := h.plain rfl hms hplain
    rw [hnum]
    simpa only [hno, Bool.false_eq_true, if_false, List.append_nil] using hmove

theorem destruct_packets (s : Sender (Nat × Pkt)) : s.destruct.2 = s.inWindow ++ s.waiting := by
  unfold destruct Sender.inWindow Sender.waiting
  simp only [List.filterMap_append, List.filterMap_map]
  congr 1
  · refine List.filterMap_congr fun e _ => ?_
    cases e <;> rfl
  · refine List.filterMap_congr fun b _ => ?_
    cases b <;> rfl

theorem Sound.finish (h : c.Sound) :
    (c.returned ++ c.sender.destruct.2).Perm c.enqueued := by
  rw [← Multiset.coe_eq_coe, destruct_packets, ← h.custody]
  simp only [← Multiset.coe_add]
  abel

end Custody

/-! ## The fronts of the queues, and growth -/

namespace SenderCall

/-- The call frees no room and withdraws no packet. -/
def isCalm : SenderCall → Bool
  | .cancelSentPacket _ | .limitRetriesById .. | .limitRetriesBySeqNum .. | .ageRetries _
  | .pollSend .. | .pollAck .. | .pollSendAndAck .. => true
  | _ => false

theorem isCalm_of_allows {c : SenderCall} {m : Move Pkt} (hc : c.isCalm = true)
    (h : c.allows m = true) : m.isCalm = true := by
  cases m with
  | entry idx op => cases op <;> cases c <;> simp_all [allows, isCalm, Move.isCalm, EntryOp.isCalm]
  | slot idx op => cases op <;> cases c <;> simp_all [allows, isCalm, Move.isCalm]
  | quiet | trim | trimBlocked | queue | send | unblock => cases c <;> simp_all [allows, isCalm]

end SenderCall

namespace Sender

variable {s s' : Sender Pkt} {o : Outcome Pkt}

theorem Tidy.call (h : s.Tidy) {c : SenderCall} (ho : c.perform s = some o) : o.sender.Tidy := by
  by_cases hcalm : c.isCalm = true
  · obtain ⟨ms, hms, hall⟩ := SenderCall.perform_allows ho
    exact (hms.calm fun m hm => SenderCall.isCalm_of_allows hcalm (hall m hm)).tidy h
  cases c with
  | enqueueNextBlockedPacket =>
    obtain ⟨⟨r, s'⟩, hr, rfl⟩ := Option.map_eq_some_iff.mp ho
    exact h.enqueueNextBlockedPacket hr
  | cancelQueuedPacket id =>
    obtain ⟨⟨r, s'⟩, hr, rfl⟩ := Option.map_eq_some_iff.mp ho
    exact (calm_cancelQueuedPacket hr).tidy h
  | forgetCanceledPacket sn =>
    obtain ⟨s', hr, rfl⟩ := Option.map_eq_some_iff.mp ho
    exact h.settles (forgetCanceledPacket_effect hr)
  | processAck sn =>
    obtain ⟨⟨r, s'⟩, hr, rfl⟩ := Option.map_eq_some_iff.mp ho
    exact h.settles (processAck_effect hr)
  | processCanceled sn =>
    obtain ⟨s', hr, rfl⟩ := Option.map_eq_some_iff.mp ho
    exact h.settles (processCanceled_effect hr)
  | adjustWindowSize windowSize =>
    obtain ⟨s', hr, rfl⟩ := Option.map_eq_some_iff.mp ho
    exact h.adjustWindowSize hr
  | fetchResetStat stat =>
    cases ho
    exact ⟨h.unacked, h.blocked⟩
  | _ => exact absurd rfl hcalm

theorem length_le_of_isBlocked {a : SenderAction Pkt} (hfull : s.isBlocked = true)
    (ho : a.perform s = some o) : o.sender.unacked.length ≤ s.unacked.length := by
  cases a with
  | enqueuePacket packet =>
    simp only [SenderAction.perform, enqueuePacket, hfull, Bool.true_or, if_true] at ho
    cases ho
    exact le_refl _
  | reset =>
    cases ho
    exact Nat.zero_le _
  | call c =>
    by_cases hc : c.movesPackets = true
    · cases c with
      | enqueueNextBlockedPacket =>
        simp only [SenderAction.perform, SenderCall.perform, enqueueNextBlockedPacket, hfull,
          if_true] at ho
        cases ho
      | cancelQueuedPacket id =>
        obtain ⟨⟨r, s'⟩, hr, rfl⟩ := Option.map_eq_some_iff.mp ho
        exact (calm_cancelQueuedPacket hr).length_eq.le
      | _ => cases hc
    · obtain ⟨-, ms, hms, hplain⟩ := SenderCall.perform_plain (by simpa using hc) ho
      have hgrow := hms.length_le
      rw [Move.totalSends_of_plain hplain] at hgrow
      exact hgrow

theorem retryPackets_packets (s : Sender Pkt) : s.retryPackets.map (·.2) = s.inWindow := by
  unfold retryPackets inWindow
  rw [List.map_filterMap]
  have hzip : s.unacked = s.unacked.zipIdx.map (·.1) := by simp
  conv_rhs => rw [hzip, List.filterMap_map]
  refine List.filterMap_congr fun x _ => ?_
  obtain ⟨e, i⟩ := x
  cases e <;> rfl

end Sender

namespace Custody

variable {c c' : Custody Pkt}

theorem Sound.retryPackets (h : c.Sound) {x : SeqNum × Nat × Pkt}
    (hx : x ∈ c.sender.retryPackets) : x ∈ c.numbered := by
  obtain ⟨sn, p⟩ := x
  obtain ⟨k, hk, rfl, -, w, l, n, f, hst⟩ := h.hasSent.mem_retryPackets hx
  have hpacket := h.entries k hk p (by rw [hst]; rfl)
  rw [List.getElem?_map] at hpacket
  obtain ⟨⟨sn, q⟩, hget, rfl⟩ := Option.map_eq_some_iff.mp hpacket
  have hnum : (c.numbered.map (·.1))[k]? = some sn := by
    rw [List.getElem?_map, hget]
    rfl
  rw [h.numbers, List.getElem?_map, List.getElem?_range hk] at hnum
  cases hnum
  exact List.mem_of_getElem? hget

/-- Every packet of a sender that is gone was handed back, and once. -/
def Settled (x : List (Nat × Pkt) × List (Nat × Pkt)) : Prop :=
  x.1.map (·.1) = List.range x.1.length ∧ x.2.Perm x.1

theorem Sound.settled (h : c.Sound) (hfin : ∀ x ∈ c.finished, Settled x)
    (next : Sender (Nat × Pkt)) : ∀ x ∈ (c.finish next).finished, Settled x := by
  intro x hx
  rcases List.mem_append.mp hx with hold | hnew
  · exact hfin x hold
  · rw [List.mem_singleton.mp hnew]
    exact ⟨h.tags, h.finish⟩

theorem start_sound_of_new (hu : s.unacked = []) (hb : s.blocked = [])
    (hl : s.lastSent = BitVec.allOnes 64) (fin : List (List (Nat × Pkt) × List (Nat × Pkt))) :
    Sound { (start : Custody Pkt) with sender := s, finished := fin } := by
  have hsound : (start : Custody Pkt).Sound := start_sound
  have hstart := hsound.of_waiting s (by simp [Sender.waiting, hb, start, new]) hu hl
  exact { hstart with }

theorem Reachable.sound (h : Reachable c) :
    c.Sound ∧ c.sender.Tidy ∧ ∀ x ∈ c.finished, Settled x := by
  refine Run.invariant
    (P := fun c : Custody Pkt => c.Sound ∧ c.sender.Tidy ∧ ∀ x ∈ c.finished, Settled x) ?_ ?_ h
  · rintro c rfl
    exact ⟨start_sound, tidy_new, by simp [start]⟩
  rintro c a c' ⟨hsound, htidy, hfin⟩ - hstep
  cases a with
  | enqueuePacket packet =>
    obtain ⟨o, ho, rfl⟩ := Option.map_eq_some_iff.mp hstep
    obtain ⟨ho, -⟩ := SenderAction.run_eq ho
    refine ⟨hsound.enqueuePacket ho, ?_, hfin⟩
    have htidy' := htidy.enqueuePacket (c.enqueued.length, packet)
    simp only [SenderAction.perform] at ho
    split at ho
    all_goals
      next heq =>
      cases ho
      rw [heq] at htidy'
      exact htidy'
  | call call =>
    obtain ⟨o, ho, rfl⟩ := Option.map_eq_some_iff.mp hstep
    obtain ⟨ho, -⟩ := SenderAction.run_eq ho
    exact ⟨hsound.call ho, htidy.call ho, hfin⟩
  | reset =>
    cases hstep
    exact ⟨start_sound_of_new rfl rfl rfl _, tidy_reset _, hsound.settled hfin _⟩
  | destruct =>
    cases hstep
    exact ⟨start_sound_of_new rfl rfl rfl _, tidy_new, hsound.settled hfin _⟩

/-- After every sequence of operations: each packet handed to the sender waits, is in an `Unacked`
    entry or was handed back, in exactly one way; the packets not withdrawn from the queue have
    the numbers `0, 1, 2, …` in the order in which they were handed over; `retry_packets` yields
    the `Unacked` packets under their numbers; the fronts of the queues are in use; and `unacked`
    does not grow while the window is full. -/
theorem sender_conserves_packets (h : Reachable c) :
    c.enqueued.map (·.1) = List.range c.enqueued.length ∧
    (c.sender.waiting ++ c.sender.inWindow ++ c.returned).Perm c.enqueued ∧
    (∀ x ∈ c.finished, Settled x) ∧
    c.numbered.map (·.1) = (List.range c.numbered.length).map (BitVec.ofNat 64) ∧
    c.numbered.map (·.2) ++ c.sender.waiting =
      (c.enqueued.filter fun p => decide (p.1 ∉ c.withdrawn)) ∧
    c.sender.retryPackets.map (·.2) = c.sender.inWindow ∧
    (∀ x ∈ c.sender.retryPackets, x ∈ c.numbered) ∧
    c.sender.Tidy ∧
    ∀ a c', step c a = some c' → c.sender.windowSize ≤ c.sender.unacked.length →
      c'.sender.unacked.length ≤ c.sender.unacked.length := by
  obtain ⟨hsound, htidy, hfin⟩ := h.sound
  refine ⟨hsound.tags, Multiset.coe_eq_coe.mp hsound.custody, hfin, hsound.numbers, hsound.order,
    c.sender.retryPackets_packets, fun x hx => hsound.retryPackets hx, htidy, ?_⟩
  intro a c' hstep hfull
  have hblocked : c.sender.isBlocked = true := by simpa [isBlocked] using hfull
  cases a with
  | enqueuePacket | call =>
    obtain ⟨o, ho, rfl⟩ := Option.map_eq_some_iff.mp hstep
    exact Sender.length_le_of_isBlocked hblocked (SenderAction.run_eq ho).1
  | reset | destruct =>
    cases hstep
    exact Nat.zero_le _

/-- Three packets through a window of 1: the first acknowledged, the second withdrawn while it
    waits, the third unblocked and retried. -/
theorem sender_conserves_packets_withdrawn :
    ∃ c : Custody Nat, Reachable c ∧ c.numbered = [(0, 0, 10), (1, 2, 12)] ∧
      c.returned = [(1, 11), (0, 10)] ∧ (∀ x ∈ c.sender.retryPackets, x ∈ c.numbered) ∧
      c.sender.retryPackets = [(1, 2, 12)] := by
  refine Run.reaches_imp (P := fun c : Custody Nat => c.numbered = [(0, 0, 10), (1, 2, 12)] ∧
    c.returned = [(1, 11), (0, 10)] ∧ c.sender.retryPackets = [(1, 2, 12)]) rfl
    [.enqueuePacket 10, .enqueuePacket 11, .enqueuePacket 12, .call (.cancelQueuedPacket 0),
      .call (.processAck 0), .call .enqueueNextBlockedPacket, .call (.ageRetries 1)]
    (by decide +kernel) ?_
  rintro c hrun ⟨hnum, hret, hretry⟩
  exact ⟨hnum, hret, (sender_conserves_packets hrun).2.2.2.2.2.2.1, hretry⟩

end Custody

end ZprCore.Zdpr
