-- SUMMARY: Which calls of the sender cannot panic.
import ZprCore.Zdpr.Calls
import ZprCore.Zdpr.QueueIds

/-!
# Places of queued packets

A sender that has numbered `n` packets and queued `m` knows every number below `n` and every id
below `m`, as long as both stay below `2^63` so that distances do not wrap around. Here the calls
are shown to be total on them: a call with such a number never fails an assertion, and a call
with such an id only when its packet was withdrawn from the queue. Each call keeps the other
packets in their places.
-/

namespace ZprCore.Zdpr

variable {Pkt : Type}

/-- The move queues no packet and withdraws none. -/
def Move.keepsPlaces : Move Pkt → Bool
  | .queue _ | .slot _ .cancel => false
  | _ => true

theorem Move.keepsPlaces_of_plain {mv : Move Pkt} (h : mv.isPlain = true) :
    mv.keepsPlaces = true := by
  cases mv with
  | slot idx op => cases op <;> first | rfl | cases h
  | queue => cases h
  | _ => rfl

namespace Sender

variable {s s' : Sender Pkt} {n m j k : Nat} {cx : Waker} {idx : Nat} {p : Pkt}
  {queueId : QueuedPacketId} {ms : List (Move Pkt)} {own : Nat → Prop} {l : Option UInt8}
  {ps : List Pkt} {packetId id : QueuedPacketId} {w : Waker}

/-- The queues agree with the number of packets that were numbered and queued. -/
structure Counted (s : Sender Pkt) (n m : Nat) : Prop where
  recorded : s.Recorded n
  hasQueued : s.HasQueued m

/-- The packet with id `j` was queued and nobody withdrew it. -/
def InPlace (s : Sender Pkt) (m j : Nat) : Prop := j < m ∧ s.queued m j ≠ .canceled

theorem Counted.hasSent (hc : s.Counted n m) : s.HasSent n := hc.recorded.hasSent

/-! ## Moves and places -/

theorem InPlace.of_queued_eq (h : s.InPlace m j) (heq : s'.queued m = s.queued m) :
    s'.InPlace m j :=
  ⟨h.1, by rw [heq]; exact h.2⟩

theorem InPlace.update {j' : Nat} {v : QueueState Pkt} (h : s.InPlace m j)
    (hupd : s'.queued m = Function.update (s.queued m) j' v) (hv : j = j' → v ≠ .canceled) :
    s'.InPlace m j := by
  refine ⟨h.1, ?_⟩
  rw [hupd]
  by_cases hj : j = j'
  · rw [hj, Function.update_self]
    exact hv hj
  · rw [Function.update_of_ne hj]
    exact h.2

theorem HasQueued.move {mv : Move Pkt} (hq : s.HasQueued m) (hm : Moved s mv s')
    (hk : mv.keepsPlaces = true) : s'.HasQueued m ∧ ∀ j, s.InPlace m j → s'.InPlace m j := by
  have hsame : ∀ {t : Sender Pkt}, t.lastEnqueued = s.lastEnqueued → t.queue = s.queue →
      t.HasQueued m ∧ ∀ j, s.InPlace m j → t.InPlace m j := fun hl heq =>
    ⟨(hq.of_queue_eq hl heq).1, fun j h => h.of_queued_eq (hq.of_queue_eq hl heq).2⟩
  cases hm with
  | quiet | entry | send => exact hsame rfl rfl
  | @slot idx b op hb =>
    have hlen := hq.length_le
    rw [queue_length] at hlen
    obtain ⟨hidx, -⟩ := List.getElem?_eq_some_iff.mp hb
    have hpos : m - s.blocked.length + idx - (m - s.blocked.length) = idx := by omega
    obtain ⟨hq', hset⟩ := hq.setBlocked (j := m - s.blocked.length + idx) (by omega) (by omega)
      (op.apply b)
    rw [hpos] at hq' hset
    refine ⟨⟨hq'.lastEnqueued, hq'.length_le⟩, fun j h => ?_⟩
    refine h.update hset ?_
    rintro rfl
    have hst := h.2
    rw [hq.queued_blocked hb] at hst
    cases op with
    | cancel => cases hk
    | setWaker | limit =>
      cases b with
      | canceled => exact absurd rfl hst
      | blocked => exact nofun
  | trim hc =>
    have ht := hq.cleanQueues hc
    refine ⟨ht.hasQueued, fun j h => ⟨h.1, ?_⟩⟩
    rcases ht.queued j with heq | ⟨hgone, -⟩
    · rw [heq]
      exact h.2
    · rw [hgone]
      exact nofun
  | trimBlocked => exact hsame rfl (queue_cleanBlockedQueue s)
  | queue => cases hk
  | unblock hfree hfront =>
    obtain ⟨hq', hset⟩ := hq.popBlocked hfront
    exact ⟨hq', fun j h => h.update hset fun _ => nofun⟩

theorem Counted.moves (hc : s.Counted n m) (hn : n + Move.totalSends ms ≤ 2 ^ 63)
    (hms : s.Moves ms ps s') (hk : ∀ mv ∈ ms, mv.keepsPlaces = true) :
    s'.Counted (n + Move.totalSends ms) m ∧ ∀ j, s.InPlace m j → s'.InPlace m j := by
  have hle := hc.hasSent.length_le
  have hrec := hc.recorded.moves (by omega) hms
  have hplaces : s'.HasQueued m ∧ ∀ j, s.InPlace m j → s'.InPlace m j := by
    have hq := hc.hasQueued
    clear hn hle hrec hc
    induction hms with
    | nil => exact ⟨hq, fun _ h => h⟩
    | cons hm _ ih =>
      obtain ⟨hq', hfirst⟩ := hq.move hm (hk _ List.mem_cons_self)
      obtain ⟨hq'', hrest⟩ := ih (fun mv hmv => hk mv (List.mem_cons_of_mem _ hmv)) hq'
      exact ⟨hq'', fun j h => hrest j (hfirst j h)⟩
  exact ⟨⟨hrec, hplaces.1⟩, hplaces.2⟩

/-- From `s` to `s'` the counts stay, and so do the places of all packets but those in `own`. -/
structure Keeps (n m : Nat) (own : Nat → Prop) (s s' : Sender Pkt) : Prop where
  counted : s'.Counted n m
  inPlace : ∀ j, ¬ own j → s.InPlace m j → s'.InPlace m j

theorem Keeps.refl (hc : s.Counted n m) (own : Nat → Prop) : Keeps n m own s s :=
  ⟨hc, fun _ _ h => h⟩

theorem Keeps.trans {s'' : Sender Pkt} (h : Keeps n m own s s') (h' : Keeps n m own s' s'') :
    Keeps n m own s s'' :=
  ⟨h'.counted, fun j hj hp => h'.inPlace j hj (h.inPlace j hj hp)⟩

theorem Keeps.mono {own' : Nat → Prop} (h : Keeps n m own s s') (hown : ∀ j, own j → own' j) :
    Keeps n m own' s s' :=
  ⟨h.counted, fun j hj => h.inPlace j fun ho => hj (hown j ho)⟩

/-- The change keeps every packet in its place. -/
abbrev KeepsAll (n m : Nat) (s s' : Sender Pkt) : Prop := Keeps n m (fun _ => False) s s'

theorem Counted.keeps_plain (hc : s.Counted n m) (hn : n < 2 ^ 63)
    (hms : s.Moves ms ps s') (hp : ∀ mv ∈ ms, mv.isPlain = true) : KeepsAll n m s s' := by
  have htotal := Move.totalSends_of_plain hp
  obtain ⟨hc', hplaces⟩ := hc.moves (by omega) hms fun mv hmv =>
    Move.keepsPlaces_of_plain (hp mv hmv)
  rw [htotal] at hc'
  exact ⟨hc', fun j _ => hplaces j⟩

/-! ## Calls that do not panic -/

theorem HasSent.entry_of_lt (hs : s.HasSent n) (hn : n < 2 ^ 63) (hk : k < n) :
    s.seqNumPosition (BitVec.ofNat 64 k) = .behind ∨
    ∃ idx e, s.seqNumPosition (BitVec.ofNat 64 k) = .at idx ∧ s.unacked[idx]? = some e := by
  rcases hs.position_status (by omega) hk with ⟨hpos, -⟩ | ⟨idx, hpos, hget⟩
  · exact .inl hpos
  · exact .inr ⟨idx, _, hpos, hget⟩

theorem Counted.isSent (hc : s.Counted n m) (hm : m < 2 ^ 63) (hj : j < m) :
    ∃ b, s.isSent (BitVec.ofNat 64 j) = some b := by
  unfold Sender.isSent
  rw [hc.hasQueued.lastEnqueued, wrappingOffset_ofNat hj (by omega), if_neg (by omega)]
  exact ⟨_, rfl⟩

section

variable (hc : s.Counted n m) (hn : n < 2 ^ 63) (hk : k < n)

include hc hn hk

theorem Counted.limitRetriesBySeqNum (limit : UInt8) :
    ∃ s', s.limitRetriesBySeqNum (BitVec.ofNat 64 k) limit = some s' ∧ KeepsAll n m s s' := by
  unfold Sender.limitRetriesBySeqNum
  rcases hc.hasSent.entry_of_lt hn hk with hpos | ⟨idx, e, hpos, he⟩
  · simp only [hpos]
    exact ⟨_, rfl, .refl hc _⟩
  · simp only [hpos, he]
    exact ⟨_, rfl, hc.keeps_plain hn (.entry_silent (.limit limit) he rfl rfl)
      (by simp [Move.isPlain])⟩

theorem Counted.cancelSentPacket :
    ∃ r s', s.cancelSentPacket (BitVec.ofNat 64 k) = some (r, s') ∧ KeepsAll n m s s' := by
  unfold Sender.cancelSentPacket
  rcases hc.hasSent.entry_of_lt hn hk with hpos | ⟨idx, e, hpos, he⟩
  · simp only [hpos]
    exact ⟨_, _, rfl, .refl hc _⟩
  · simp only [hpos, he]
    exact ⟨_, _, rfl, hc.keeps_plain hn (.entry_silent .cancel he rfl rfl) (by simp [Move.isPlain])⟩

theorem Counted.forgetCanceledPacket :
    ∃ s', s.forgetCanceledPacket (BitVec.ofNat 64 k) = some s' ∧ KeepsAll n m s s' := by
  unfold Sender.forgetCanceledPacket
  rcases hc.hasSent.entry_of_lt hn hk with hpos | ⟨idx, e, hpos, he⟩
  · simp only [hpos]
    exact ⟨_, rfl, .refl hc _⟩
  simp only [hpos, he]
  have hforget := Moves.entry_silent .forget he rfl rfl
  have hmid := hc.keeps_plain hn hforget (by simp [Move.isPlain])
  have hlen := hmid.counted.hasSent.length_le
  obtain ⟨s', hs', -⟩ := hmid.counted.recorded.cleanQueues (by omega) idx
  exact ⟨s', hs', hc.keeps_plain hn (hforget.trans (.single (.trim hs'))) (by simp [Move.isPlain])⟩

theorem Counted.pollAck (cx : Waker) :
    ∃ r s', s.pollAck cx (BitVec.ofNat 64 k) = some (r, s') ∧ KeepsAll n m s s' ∧
      (r = .ready () → ∃ b, s'.isCancelAcked (BitVec.ofNat 64 k) = some b) := by
  unfold Sender.pollAck Sender.isCancelAcked
  rcases hc.hasSent.entry_of_lt hn hk with hpos | ⟨idx, e, hpos, he⟩
  · simp only [hpos]
    exact ⟨_, _, rfl, .refl hc _, fun _ => by simp only [hpos]; exact ⟨_, rfl⟩⟩
  simp only [hpos, he]
  cases e with
  | acked | cancelAcked =>
    exact ⟨_, _, rfl, .refl hc _, fun _ => by simp only [hpos, he]; exact ⟨_, rfl⟩⟩
  | unacked | cancelRequested =>
    exact ⟨_, _, rfl, hc.keeps_plain hn (.entry_silent (.setWaker cx) he rfl rfl)
      (by simp [Move.isPlain]), nofun⟩

end

theorem Counted.lookupSeqNum_lt (hc : s.Counted n m) {sn : SeqNum}
    (h : s.lookupSeqNum packetId = some (some sn)) : ∃ k < n, sn = BitVec.ofNat 64 k := by
  have hmem : some sn ∈ s.sent := by
    unfold Sender.lookupSeqNum at h
    split at h
    · cases h
    · cases h
    · cases h
    · exact List.mem_of_getElem? h
  obtain ⟨ks, hks, -, hwin⟩ := hc.recorded.sent
  have hsn : sn ∈ s.sent.filterMap id := List.mem_filterMap.mpr ⟨_, hmem, rfl⟩
  rw [hks] at hsn
  obtain ⟨k, hk, rfl⟩ := List.mem_map.mp hsn
  exact ⟨k, (hwin k hk).2, rfl⟩

theorem lookupSeqNum_of_blocked (h : s.blockedPosition id = .at idx) :
    s.lookupSeqNum id = none := by
  have hat := position_at h
  have hahead : s.sentPosition id = .ahead := by
    unfold sentPosition position
    rw [if_pos (by omega)]
  unfold lookupSeqNum
  rw [hahead]

theorem Counted.locate (hc : s.Counted n m) (hm : m < 2 ^ 63) (hp : s.InPlace m j) :
    (s.blockedPosition (BitVec.ofNat 64 j) = .behind ∧
      ∃ o, s.lookupSeqNum (BitVec.ofNat 64 j) = some o) ∨
    (∃ idx p w l, s.blockedPosition (BitVec.ofNat 64 j) = .at idx ∧
      s.blocked[idx]? = some (.blocked p w l) ∧ s.lookupSeqNum (BitVec.ofNat 64 j) = none) := by
  have hpos := hc.hasQueued.blockedPosition_ofNat hm hp.1
  by_cases hb : j < m - s.blocked.length
  · rw [if_pos hb] at hpos
    rcases hc.hasQueued.lookupSeqNum hm hb with ⟨sn, hlook, -⟩ | ⟨hlook, -⟩
    all_goals exact .inl ⟨hpos, _, hlook⟩
  · rw [if_neg hb] at hpos
    obtain ⟨b, hget, hst⟩ := hc.hasQueued.get_blocked hp.1 hb
    cases b with
    | canceled => exact absurd hst hp.2
    | blocked p w l => exact .inr ⟨_, p, w, l, hpos, hget, lookupSeqNum_of_blocked hpos⟩

theorem cancelQueuedPacket_front (hpos : s.blockedPosition queueId = .at 0)
    (hget : s.blocked[0]? = some (.blocked p w l)) :
    ∃ s', s.cancelQueuedPacket queueId = some (some p, s') ∧ s'.blocked.length < s.blocked.length := by
  unfold Sender.cancelQueuedPacket
  simp only [hpos, hget, BlockedState.cancel, if_true]
  refine ⟨_, rfl, ?_⟩
  cases hbl : s.blocked with
  | nil =>
    rw [hbl] at hget
    cases hget
  | cons b rest =>
    simp only [wake, cleanBlockedQueue, setBlocked, hbl]
    rw [List.set_cons_zero, List.dropWhile_cons_of_pos rfl, List.length_cons]
    exact Nat.lt_succ_of_le (List.dropWhile_suffix _).length_le

theorem cancelQueuedPacket_inside (hpos : s.blockedPosition queueId = .at (idx + 1))
    (hget : s.blocked[idx + 1]? = some (.blocked p w l)) :
    ∃ s', s.cancelQueuedPacket queueId = some (some p, s') ∧
      s'.blockedPosition queueId = .at (idx + 1) ∧ s'.blocked[idx + 1]? = some .canceled := by
  unfold Sender.cancelQueuedPacket
  simp only [hpos, hget, BlockedState.cancel, Nat.add_one_ne_zero, if_false]
  refine ⟨_, rfl, ?_, ?_⟩
  · rw [← hpos]
    simp [blockedPosition, setBlocked, wake]
  · exact List.getElem?_set_self (List.getElem?_eq_some_iff.mp hget).1

section

variable (hc : s.Counted n m) (hn : n < 2 ^ 63) (hm : m < 2 ^ 63) (hp : s.InPlace m j)

include hc hn hm hp

theorem Counted.cancelQueuedPacket
    (h : s.cancelQueuedPacket (BitVec.ofNat 64 j) = some (some p, s')) :
    Keeps n m (· = j) s s' := by
  have hlen := hc.hasSent.length_le
  rcases hc.hasQueued.cancelQueuedPacket hm hp.1 h with ⟨hnone, -⟩ | ⟨p', w', l', -, -, hq', hupd⟩
  · cases hnone
  rcases cancelQueuedPacket_moves h with ⟨hnone, -⟩ | ⟨idx, p', w', l', -, -, -, hms⟩
  · cases hnone
  have htotal : Move.totalSends
      ((Move.slot idx .cancel : Move Pkt) :: if idx = 0 then [.trimBlocked] else []) = 0 := by
    split <;> rfl
  have hrec := hc.recorded.moves (by omega) hms
  rw [htotal] at hrec
  exact ⟨⟨hrec, hq'⟩, fun i hi hplace => hplace.update hupd fun heq => absurd heq hi⟩

/-- After a packet was withdrawn, a second call finds nothing to withdraw. It is taken for sent, and
    asking for its number panics unless the packet was the oldest one that waited. -/
theorem Counted.cancelQueuedPacket_twice (hpos : s.blockedPosition (BitVec.ofNat 64 j) = .at idx) :
    ∃ p s', s.cancelQueuedPacket (BitVec.ofNat 64 j) = some (some p, s') ∧
      Keeps n m (· = j) s s' ∧ s'.cancelQueuedPacket (BitVec.ofNat 64 j) = some (none, s') ∧
      (s'.lookupSeqNum (BitVec.ofNat 64 j) = none ↔ idx ≠ 0) := by
  rcases hc.locate hm hp with ⟨hbehind, -⟩ | ⟨i, p, w, l, hat, hget, -⟩
  · rw [hpos] at hbehind
    cases hbehind
  obtain rfl : i = idx := Position.at.inj (hat.symm.trans hpos)
  cases i with
  | zero =>
    obtain ⟨s', hs', hshort⟩ := cancelQueuedPacket_front hpos hget
    have hkeeps := hc.cancelQueuedPacket hn hm hp hs'
    have hq' := hkeeps.counted.hasQueued
    have hlt : j < m - s'.blocked.length := by
      have hlen := hc.hasQueued.length_le
      rw [queue_length] at hlen
      have hback := hc.hasQueued.blockedPosition_ofNat hm hp.1
      rw [hpos] at hback
      split at hback
      · cases hback
      · have hzero := Position.at.inj hback
        omega
    have hbehind := hq'.blockedPosition_ofNat hm hp.1
    rw [if_pos hlt] at hbehind
    refine ⟨p, s', hs', hkeeps, ?_, ?_⟩
    · unfold Sender.cancelQueuedPacket
      simp only [hbehind]
    · rcases hq'.lookupSeqNum hm hlt with ⟨sn, hlook, -⟩ | ⟨hlook, -⟩ <;> simp [hlook]
  | succ i =>
    obtain ⟨s', hs', hat', hmark⟩ := cancelQueuedPacket_inside hpos hget
    refine ⟨p, s', hs', hc.cancelQueuedPacket hn hm hp hs', ?_, ?_⟩
    · unfold Sender.cancelQueuedPacket
      simp only [hat', hmark, BlockedState.cancel]
    · simp [lookupSeqNum_of_blocked hat']

theorem Counted.pollSend (cx : Waker) :
    ∃ r s', s.pollSend cx (BitVec.ofNat 64 j) = some (r, s') ∧ KeepsAll n m s s' ∧
      (r = .pending ∨ ∃ o, r = .ready o ∧ s.lookupSeqNum (BitVec.ofNat 64 j) = some o) := by
  unfold Sender.pollSend
  rcases hc.locate hm hp with ⟨hbehind, o, ho⟩ | ⟨idx, p, w, l, hat, hget, -⟩
  · simp only [hbehind, ho]
    exact ⟨_, _, rfl, .refl hc _, .inr ⟨o, rfl, rfl⟩⟩
  · simp only [hat, hget]
    exact ⟨_, _, rfl, hc.keeps_plain hn (.slot_silent (.setWaker cx) hget rfl rfl)
      (by simp [Move.isPlain]), .inl rfl⟩

theorem Counted.limitRetriesById (limit : UInt8) :
    ∃ s', s.limitRetriesById (BitVec.ofNat 64 j) limit = some s' ∧ KeepsAll n m s s' := by
  unfold Sender.limitRetriesById
  rcases hc.locate hm hp with ⟨hbehind, o, ho⟩ | ⟨idx, p, w, l, hat, hget, -⟩
  · simp only [hbehind, ho]
    cases o with
    | none => exact ⟨_, rfl, .refl hc _⟩
    | some sn =>
      obtain ⟨k, hk, rfl⟩ := hc.lookupSeqNum_lt ho
      exact hc.limitRetriesBySeqNum hn hk limit
  · simp only [hat, hget]
    exact ⟨_, rfl, hc.keeps_plain hn (.slot_silent (.limit limit) hget rfl rfl)
      (by simp [Move.isPlain])⟩

end

end Sender

end ZprCore.Zdpr
