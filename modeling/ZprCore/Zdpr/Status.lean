-- SUMMARY: The sender's window as the status of every packet sent so far.
import Mathlib.Data.BitVec
import Mathlib.Tactic.Ring
import ZprCore.Lib.Window
import ZprCore.Zdpr.Moves

/-!
# Status of sent packets

The `unacked` queue of a sender that has sent `n` packets holds the states of the last few of
them. `Sender.status` reads it as a function of the packet number `k < n`, with `acked` for
the numbers that have left the queue. Removing acknowledged entries from the front of the
queue does not change this function, so that each operation of the sender is a pointwise
update of it.
-/

namespace ZprCore.Zdpr

variable {Pkt : Type} {n k idx : Nat} {sn : SeqNum} {a b len : Nat}

/-! ## Words and positions -/

theorem ofNat_inj_of_lt (ha : a < 2 ^ 63) (hb : b < 2 ^ 63)
    (h : BitVec.ofNat 64 a = BitVec.ofNat 64 b) : a = b := by
  have h' := congrArg BitVec.toNat h
  simp only [BitVec.toNat_ofNat] at h'
  omega

theorem ofInt_sub (a b : Int) : BitVec.ofInt 64 (a - b) = BitVec.ofInt 64 a - BitVec.ofInt 64 b := by
  rw [Int.sub_eq_add_neg, BitVec.ofInt_add, BitVec.ofInt_neg, sub_eq_add_neg]

theorem wrappingOffset_ofInt {a b : Int} (hlo : -2 ^ 63 ≤ a - b) (hhi : a - b < 2 ^ 63) :
    wrappingOffset (BitVec.ofInt 64 a) (BitVec.ofInt 64 b) = a - b := by
  unfold wrappingOffset
  rw [← ofInt_sub, BitVec.toInt_ofInt, Int.bmod_eq_of_le (by omega) (by omega)]

theorem ofNat_sub_one (n : Nat) : BitVec.ofNat 64 n - 1 = BitVec.ofInt 64 ((n : Int) - 1) := by
  rw [ofInt_sub, BitVec.ofInt_natCast]
  rfl

theorem wrappingOffset_ofNat (hk : k < n) (hnear : n ≤ k + 2 ^ 63) :
    wrappingOffset (BitVec.ofNat 64 k) (BitVec.ofNat 64 n - 1) = (k : Int) - n + 1 := by
  rw [ofNat_sub_one, ← BitVec.ofInt_natCast, wrappingOffset_ofInt (by omega) (by omega)]
  omega

theorem eq_add_wrappingOffset (a b : BitVec 64) : a = b + BitVec.ofInt 64 (wrappingOffset a b) := by
  unfold wrappingOffset
  rw [BitVec.ofInt_toInt, add_sub_cancel]

theorem position_of_lt (hlen : len ≤ n) (hnear : n ≤ k + 2 ^ 63) (hk : k < n) :
    position ((k : Int) - n + 1) len = if k < n - len then .behind else .at (k - (n - len)) := by
  unfold position
  rw [if_neg (by omega), if_neg (by omega)]
  by_cases hb : k < n - len
  · rw [if_pos hb, if_pos (by omega)]
  · rw [if_neg hb, if_neg (by omega)]
    congr 1
    omega

theorem position_at {offset : Int} (h : position offset len = .at idx) :
    idx < len ∧ offset = (idx : Int) - len + 1 := by
  unfold position at h
  split_ifs at h with h1 h2 h3
  have hidx : (len + offset - 1).toNat = idx := Position.at.inj h
  omega

/-! ## Status -/

namespace Sender

variable {s s' : Sender Pkt} {e : UnackedState Pkt} {op : EntryOp} {r : Option Pkt} {cx : Waker}
  {f g : Nat → UnackedState Pkt → UnackedState Pkt} {id : QueuedPacketId}

/-- The sender has sent exactly the packets numbered `0, …, n - 1`. -/
structure HasSent (s : Sender Pkt) (n : Nat) : Prop where
  lastSent : s.lastSent = BitVec.ofNat 64 n - 1
  length_le : s.unacked.length ≤ n

theorem new_hasSent : (new : Sender Pkt).HasSent 0 :=
  ⟨show BitVec.allOnes 64 = BitVec.ofNat 64 0 - 1 by decide, by simp [new]⟩

def status (s : Sender Pkt) (n k : Nat) : UnackedState Pkt :=
  Window.read .acked (n - s.unacked.length) s.unacked k

/-- Apply `f` to the packet with sequence number `sn` only. -/
def onSeqNum (sn : SeqNum) (f : UnackedState Pkt → UnackedState Pkt) (k : Nat)
    (e : UnackedState Pkt) : UnackedState Pkt :=
  if BitVec.ofNat 64 k = sn then f e else e

/-- From `s` to `s'` nothing was sent and every packet's status changed by `f`. -/
structure Evolves (n : Nat) (f : Nat → UnackedState Pkt → UnackedState Pkt)
    (s s' : Sender Pkt) : Prop where
  hasSent : s'.HasSent n
  windowSize : s'.windowSize = s.windowSize
  length_le : s'.unacked.length ≤ s.unacked.length
  sent_mem : ∀ sn, some sn ∈ s'.sent → some sn ∈ s.sent
  status : ∀ k < n, s'.status n k = f k (s.status n k)

theorem HasSent.seqNumPosition_ofNat (hs : s.HasSent n) (hnear : n ≤ k + 2 ^ 63) (hk : k < n) :
    s.seqNumPosition (BitVec.ofNat 64 k) =
      if k < n - s.unacked.length then .behind else .at (k - (n - s.unacked.length)) := by
  unfold seqNumPosition
  rw [hs.lastSent, wrappingOffset_ofNat hk hnear, position_of_lt hs.length_le hnear hk]

theorem HasSent.eq_ofNat_of_position (hs : s.HasSent n) (h : s.seqNumPosition sn = .at idx) :
    idx < s.unacked.length ∧ sn = BitVec.ofNat 64 (n - s.unacked.length + idx) := by
  have hlen := hs.length_le
  obtain ⟨hidx, hoff⟩ := position_at h
  refine ⟨hidx, ?_⟩
  rw [eq_add_wrappingOffset sn s.lastSent, hoff, hs.lastSent, ofNat_sub_one, ← BitVec.ofInt_add,
    ← BitVec.ofInt_natCast]
  congr 1
  omega

theorem status_at (he : s.unacked[idx]? = some e) :
    s.status n (n - s.unacked.length + idx) = e := by
  exact Window.read_of_get? (Nat.le_add_right _ _) (by simpa using he)

theorem HasSent.position_status (hs : s.HasSent n) (hnear : n ≤ k + 2 ^ 63) (hk : k < n) :
    (s.seqNumPosition (BitVec.ofNat 64 k) = .behind ∧ s.status n k = .acked) ∨
    (∃ idx, s.seqNumPosition (BitVec.ofNat 64 k) = .at idx ∧
      s.unacked[idx]? = some (s.status n k)) := by
  rw [hs.seqNumPosition_ofNat hnear hk]
  by_cases hb : k < n - s.unacked.length
  · exact .inl ⟨if_pos hb, Window.read_of_lt hb⟩
  have hlt : k - (n - s.unacked.length) < s.unacked.length := by omega
  have hst := status_at (n := n) (List.getElem?_eq_getElem hlt)
  rw [show n - s.unacked.length + (k - (n - s.unacked.length)) = k by omega] at hst
  exact .inr ⟨_, if_neg hb, by rw [hst]; exact List.getElem?_eq_getElem hlt⟩

theorem HasSent.onSeqNum_of_idle (hs : s.HasSent n) (hn : n < 2 ^ 63) (hidle : s.Idle op sn)
    (hk : k < n) : onSeqNum sn op.apply k (s.status n k) = s.status n k := by
  unfold onSeqNum
  split
  · next heq =>
    subst heq
    rcases hs.position_status (by omega) hk with ⟨-, hst⟩ | ⟨idx, hpos, hget⟩
    · rw [hst]
      cases op <;> rfl
    · exact hidle idx _ hpos hget
  · rfl

theorem HasSent.evolves_refl (hs : s.HasSent n) : Evolves n (fun _ e => e) s s :=
  ⟨hs, rfl, le_rfl, fun _ h => h, fun _ _ => rfl⟩

theorem Evolves.congr (h : Evolves n f s s')
    (hfg : ∀ k < n, f k (s.status n k) = g k (s.status n k)) : Evolves n g s s' :=
  { h with status := fun k hk => (h.status k hk).trans (hfg k hk) }

theorem HasSent.evolves_idle (hs : s.HasSent n) (hn : n < 2 ^ 63) (hidle : s.Idle op sn) :
    Evolves n (onSeqNum sn op.apply) s s :=
  hs.evolves_refl.congr fun _ hk => (hs.onSeqNum_of_idle hn hidle hk).symm

theorem status_setUnacked (hidx : idx < s.unacked.length) (e : UnackedState Pkt) :
    (s.setUnacked idx e).status n =
      Function.update (s.status n) (n - s.unacked.length + idx) e := by
  unfold status
  simp only [setUnacked, List.length_set]
  rw [Window.read_set hidx]

theorem HasSent.status_concat (hs : s.HasSent n) (hu : s'.unacked = s.unacked ++ [e]) :
    s'.status (n + 1) = Function.update (s.status n) n e := by
  unfold status
  rw [hu, List.length_append, List.length_singleton, Nat.add_sub_add_right, Window.read_push,
    Nat.sub_add_cancel hs.length_le]

theorem HasSent.setUnacked (hs : s.HasSent n) (hn : n < 2 ^ 63)
    (hpos : s.seqNumPosition sn = .at idx) (he : s.unacked[idx]? = some e)
    (f : UnackedState Pkt → UnackedState Pkt) :
    Evolves n (onSeqNum sn f) s (s.setUnacked idx (f e)) := by
  have hlen := hs.length_le
  obtain ⟨hidx, hsn⟩ := hs.eq_ofNat_of_position hpos
  refine ⟨⟨hs.lastSent, by simpa [Sender.setUnacked] using hlen⟩, rfl, ?_, fun _ h => h, ?_⟩
  · simp [Sender.setUnacked]
  intro k hk
  rw [status_setUnacked hidx]
  unfold onSeqNum
  by_cases hki : k = n - s.unacked.length + idx
  · subst hki
    rw [Function.update_self, if_pos hsn.symm, status_at he]
  · rw [Function.update_of_ne hki, if_neg]
    intro heq
    exact hki (ofNat_inj_of_lt (by omega) (by omega) (heq.trans hsn))

theorem Evolves.trans {s'' : Sender Pkt} (h : Evolves n f s s') (h' : Evolves n g s' s'') :
    Evolves n (fun k e => g k (f k e)) s s'' where
  hasSent := h'.hasSent
  windowSize := h'.windowSize.trans h.windowSize
  length_le := h'.length_le.trans h.length_le
  sent_mem sn hsn := h.sent_mem sn (h'.sent_mem sn hsn)
  status k hk := by rw [h'.status k hk, h.status k hk]

section

variable (hs : s.HasSent n) {ps : List Pkt}

include hs

theorem HasSent.evolves_of_eq (hu : s'.unacked = s.unacked)
    (hl : s'.lastSent = s.lastSent) (hw : s'.windowSize = s.windowSize)
    (hsent : ∀ sn, some sn ∈ s'.sent → some sn ∈ s.sent) : Evolves n (fun _ e => e) s s' where
  hasSent := ⟨hl.trans hs.lastSent, hu ▸ hs.length_le⟩
  windowSize := hw
  length_le := by rw [hu]
  sent_mem := hsent
  status k _ := by simp only [Sender.status, hu]

theorem HasSent.cleanUnackedQueue :
    Evolves n (fun _ e => e) s s.cleanUnackedQueue := by
  have hlen := (List.dropWhile_suffix (l := s.unacked) isAckedEntry).length_le
  refine ⟨⟨hs.lastSent, hlen.trans hs.length_le⟩, rfl, hlen, fun _ h => h, ?_⟩
  intro k _
  have hp : ∀ e : UnackedState Pkt, isAckedEntry e = true → e = .acked := by
    intro e he
    cases e <;> simp_all [isAckedEntry]
  exact congrFun (Window.read_dropWhile hp hs.length_le) k

theorem HasSent.cleanQueues (h : s.cleanQueues idx = some s') :
    Evolves n (fun _ e => e) s s' := by
  obtain ⟨pre, sent, hsent, rfl, -⟩ := cleanQueues_eq h
  have hsub : ∀ sn, some sn ∈ sent → some sn ∈ s.sent := by
    rw [hsent]
    exact fun _ hmem => List.mem_append_right pre hmem
  split
  · exact hs.cleanUnackedQueue.trans
      (hs.cleanUnackedQueue.hasSent.evolves_of_eq rfl rfl rfl hsub)
  · exact hs.evolves_of_eq rfl rfl rfl hsub

theorem HasSent.entry (hn : n < 2 ^ 63) (hpos : s.seqNumPosition sn = .at idx)
    (h : Moves s [.entry idx op] ps s') :
    Evolves n (onSeqNum sn op.apply) s s' := by
  obtain ⟨e, he, rfl⟩ := h.entry_inv
  have hset := hs.setUnacked hn hpos he op.apply
  exact { hset with hasSent := ⟨hset.hasSent.lastSent, hset.hasSent.length_le⟩ }

theorem HasSent.entry_trim (hn : n < 2 ^ 63) (hpos : s.seqNumPosition sn = .at idx)
    (h : Moves s [.entry idx op, .trim idx] ps s') : Evolves n (onSeqNum sn op.apply) s s' := by
  obtain ⟨e, t, he, rfl, hc⟩ := h.entry_trim_inv
  have hset := hs.entry hn hpos (.entry op he)
  exact hset.trans (hset.hasSent.cleanQueues hc)

theorem HasSent.applies (hn : n < 2 ^ 63)
    (h : s.Applies op sn ps s') : Evolves n (onSeqNum sn op.apply) s s' := by
  cases h with
  | idle hidle => exact hs.evolves_idle hn hidle
  | entry hpos hms => exact hs.entry hn hpos hms

theorem HasSent.settles (hn : n < 2 ^ 63)
    (h : s.Settles op sn ps s') : Evolves n (onSeqNum sn op.apply) s s' := by
  cases h with
  | idle hidle => exact hs.evolves_idle hn hidle
  | counted hidle stat =>
    have hcount : Evolves n (fun _ e => e) s (s.countStat stat) :=
      hs.evolves_of_eq rfl rfl rfl fun _ h => h
    exact (hs.evolves_idle hn hidle).trans hcount
  | entry hpos hms => exact hs.entry_trim hn hpos hms

end

/-! ## The operations -/

theorem HasSent.ageRetries (hs : s.HasSent n) :
    Evolves n (fun _ e => e.ageRetries.2) s s.ageRetries.2 := by
  refine ⟨⟨hs.lastSent, ?_⟩, rfl, ?_, fun _ h => h, ?_⟩
  · simpa [Sender.ageRetries] using hs.length_le
  · simp [Sender.ageRetries]
  · intro k _
    simp only [Sender.status, Sender.ageRetries, List.length_map]
    rw [Window.read_map rfl]

theorem HasSent.pollSend (hs : s.HasSent n) {r : Poll (Option SeqNum)}
    (h : s.pollSend cx id = some (r, s')) : Evolves n (fun _ e => e) s s' := by
  rcases pollSend_moves h with ⟨idx, p, w, l, -, -, -, hms⟩ | ⟨o, -, -, -, rfl⟩
  · obtain ⟨b, -, rfl⟩ := hms.slot_inv
    exact hs.evolves_of_eq rfl rfl rfl fun _ h => h
  · exact hs.evolves_refl

theorem cleanBlockedQueue_sent_mem (s : Sender Pkt) (sn : SeqNum)
    (h : some sn ∈ s.cleanBlockedQueue.sent) : some sn ∈ s.sent := by
  simpa [cleanBlockedQueue] using h

theorem HasSent.cancelQueuedPacket (hs : s.HasSent n) (h : s.cancelQueuedPacket id = some (r, s')) :
    Evolves n (fun _ e => e) s s' := by
  rcases cancelQueuedPacket_cases h with ⟨-, rfl⟩ | ⟨idx, p, w, l, -, -, -, rfl⟩
  · exact hs.evolves_refl
  · split
    · exact hs.evolves_of_eq rfl rfl rfl (cleanBlockedQueue_sent_mem _)
    · exact hs.evolves_of_eq rfl rfl rfl fun _ h => h

/-- From `s` to `s'` packet number `n` was sent. -/
structure Sends (n : Nat) (packet : Pkt) (retryLimit : Option UInt8) (s s' : Sender Pkt) :
    Prop where
  hasSent : s'.HasSent (n + 1)
  lastSent : s'.lastSent = BitVec.ofNat 64 n
  windowSize : s'.windowSize = s.windowSize
  length_eq : s'.unacked.length = s.unacked.length + 1
  not_blocked : s.unacked.length < s.windowSize
  status_new : s'.status (n + 1) n = .unacked packet .noop retryLimit 0 false
  status_old : ∀ k < n, s'.status (n + 1) k = s.status n k
  sent_mem : ∀ sn, some sn ∈ s'.sent → some sn ∈ s.sent ∨ sn = BitVec.ofNat 64 n

variable (hs : s.HasSent n)

include hs

theorem HasSent.pushUnacked (hb : s.isBlocked = false) (packet : Pkt) (retryLimit : Option UInt8) :
    Sends n packet retryLimit s (s.pushUnacked packet retryLimit) := by
  have hlen := hs.length_le
  have hlast : s.lastSent + 1 = BitVec.ofNat 64 n := by rw [hs.lastSent, sub_add_cancel]
  have hread : (s.pushUnacked packet retryLimit).status (n + 1) = _ := hs.status_concat rfl
  refine ⟨⟨?_, by simpa [Sender.pushUnacked] using hlen⟩, hlast, rfl,
    by simp [Sender.pushUnacked], by simpa [isBlocked] using hb, ?_, ?_,
    fun _ h => .inl h⟩
  · refine hlast.trans ?_
    rw [BitVec.ofNat_add]
    exact (add_sub_cancel_right _ _).symm
  · rw [hread, Function.update_self]
  · intro k hk
    rw [hread, Function.update_of_ne (Nat.ne_of_lt hk)]

theorem HasSent.enqueuePacket (packet : Pkt) :
    (∃ id, (s.enqueuePacket packet).1 = .queued id ∧
      Evolves n (fun _ e => e) s (s.enqueuePacket packet).2) ∨
    ((s.enqueuePacket packet).1 = .sent (BitVec.ofNat 64 n) packet ∧
      Sends n packet none s (s.enqueuePacket packet).2) := by
  unfold Sender.enqueuePacket
  split
  · exact .inl ⟨_, rfl, hs.evolves_of_eq rfl rfl rfl fun _ h => h⟩
  next hb =>
  simp only [Bool.or_eq_true, not_or, Bool.not_eq_true] at hb
  have hsends := hs.pushUnacked hb.1 packet none
  exact .inr ⟨congrArg (EnqueueResult.sent · packet) hsends.lastSent, hsends⟩

theorem HasSent.enqueueNextBlockedPacket {r : SeqNum × Pkt}
    (h : s.enqueueNextBlockedPacket = some (r, s')) :
    ∃ packet waker retryLimit rest, s.blocked = .blocked packet waker retryLimit :: rest ∧
      r = (BitVec.ofNat 64 n, packet) ∧ Sends n packet retryLimit s s' := by
  unfold Sender.enqueueNextBlockedPacket at h
  split at h
  · cases h
  next hb =>
  split at h
  · next packet waker retryLimit rest hq =>
    cases h
    have hs' : HasSent { s with blocked := rest } n := ⟨hs.lastSent, hs.length_le⟩
    have hsends := hs'.pushUnacked (by simpa [isBlocked] using hb) packet retryLimit
    refine ⟨packet, waker, retryLimit, rest, hq, by rw [hsends.lastSent], ?_⟩
    exact
      { hasSent := ⟨hsends.hasSent.lastSent, hsends.hasSent.length_le⟩
        lastSent := hsends.lastSent
        windowSize := hsends.windowSize
        length_eq := hsends.length_eq
        not_blocked := hsends.not_blocked
        status_new := hsends.status_new
        status_old := hsends.status_old
        sent_mem := by
          intro sn hsn
          have hsn := cleanBlockedQueue_sent_mem _ _ hsn
          rcases List.mem_append.mp hsn with hold | hnew
          · exact .inl hold
          · cases List.mem_singleton.mp hnew
            exact .inr hsends.lastSent }
  · cases h

/-! ## Queries -/

theorem HasSent.isAcked_ofNat (hnear : n ≤ k + 2 ^ 63) (hk : k < n) :
    s.isAcked (BitVec.ofNat 64 k) = some (s.status n k).isAcked := by
  unfold isAcked
  rcases hs.position_status hnear hk with ⟨hpos, hst⟩ | ⟨idx, hpos, hget⟩
  · rw [hpos, hst]
    rfl
  · simp only [hpos, hget, Option.map_some]

theorem HasSent.isCancelAcked_ofNat (hn : n < 2 ^ 63) (hk : k < n) {b : Bool}
    (h : s.isCancelAcked (BitVec.ofNat 64 k) = some b) :
    s.status n k = if b then .cancelAcked else .acked := by
  unfold isCancelAcked at h
  rcases hs.position_status (by omega) hk with ⟨hpos, hst⟩ | ⟨idx, hpos, hget⟩
  · rw [hpos] at h
    cases h
    exact hst
  simp only [hpos, hget] at h
  split at h
  · next he =>
    cases h
    exact Option.some.inj he
  · next he =>
    cases h
    exact Option.some.inj he
  · cases h

theorem HasSent.pollAck_ready (hn : n < 2 ^ 63) (hk : k < n)
    (h : s.pollAck cx (BitVec.ofNat 64 k) = some (.ready (), s')) :
    s' = s ∧ (s.status n k).isAcked = true := by
  unfold Sender.pollAck at h
  rcases hs.position_status (by omega) hk with ⟨hpos, hst⟩ | ⟨idx, hpos, hget⟩
  · rw [hpos] at h
    cases h
    exact ⟨rfl, by rw [hst]; rfl⟩
  simp only [hpos, hget] at h
  cases hst : s.status n k with
  | acked | cancelAcked =>
    simp only [hst] at h
    cases h
    exact ⟨rfl, rfl⟩
  | unacked | cancelRequested =>
    simp only [hst] at h
    cases h

theorem HasSent.snBase_add (idx : Nat) :
    s.snBase + BitVec.ofNat 64 idx = BitVec.ofNat 64 (n - s.unacked.length + idx) := by
  have hlen := hs.length_le
  have hn : BitVec.ofNat 64 n
      = BitVec.ofNat 64 (n - s.unacked.length) + BitVec.ofNat 64 s.unacked.length := by
    rw [← BitVec.ofNat_add, Nat.sub_add_cancel hlen]
  unfold snBase
  rw [hs.lastSent, hn, BitVec.ofNat_add (n - s.unacked.length) idx]
  ring

theorem HasSent.mem_retryPackets {packet : Pkt} (h : (sn, packet) ∈ s.retryPackets) :
    ∃ k < n, sn = BitVec.ofNat 64 k ∧ n ≤ k + s.unacked.length ∧
      ∃ w l c f, s.status n k = .unacked packet w l c f := by
  have hlen := hs.length_le
  obtain ⟨⟨e, i⟩, hmem, heq⟩ := List.mem_filterMap.mp h
  have hi := List.mem_zipIdx_iff_getElem?.mp hmem
  obtain ⟨hlt, -⟩ := List.getElem?_eq_some_iff.mp hi
  have hst := status_at (n := n) hi
  cases e with
  | unacked p w l c f =>
    cases heq
    exact ⟨_, by omega, hs.snBase_add _, by omega, w, l, c, f, hst⟩
  | cancelRequested | acked | cancelAcked => cases heq

theorem HasSent.mem_retryCancels (h : sn ∈ s.retryCancels) :
    ∃ k < n, sn = BitVec.ofNat 64 k ∧ n ≤ k + s.unacked.length ∧
      ∃ w f, s.status n k = .cancelRequested w f := by
  have hlen := hs.length_le
  obtain ⟨⟨e, i⟩, hmem, heq⟩ := List.mem_filterMap.mp h
  have hi := List.mem_zipIdx_iff_getElem?.mp hmem
  obtain ⟨hlt, -⟩ := List.getElem?_eq_some_iff.mp hi
  have hst := status_at (n := n) hi
  cases e with
  | cancelRequested w f =>
    cases heq
    exact ⟨_, by omega, hs.snBase_add _, by omega, w, f, hst⟩
  | unacked | acked | cancelAcked => cases heq

end Sender

end ZprCore.Zdpr
