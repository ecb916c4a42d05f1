-- SUMMARY: What a sequence number or a queue id stands for in the sender's queues.
import Mathlib.Data.List.TakeWhile
import ZprCore.Zdpr.Calls
import ZprCore.Zdpr.QueueIds

/-!
# Located entries

The sender finds an entry of a queue by its distance from the last one. Entries that leave at the
front do not change this distance, and an entry that arrives at the back changes it by one.
`Finds` is such a lookup in any list. `EntryAt`, `SlotAt` and `RecordAt` are the lookups in
`unacked`, `blocked` and `sent`, and the lemmas say what they find after each move.

Distances are computed in 64 bits. They are exact as long as no queue is near `2 ^ 63` entries
(`Short`), for any number of packets sent.
-/

namespace ZprCore.Zdpr

variable {Pkt : Type}

/-! ## Lookup by the distance from the end -/

section Finds

variable {α β : Type} {offset : Int} {l l' : List α} {x y : α} {i len idx len' k k' : Nat}
  {a b a' : BitVec 64}

/-- The element of `l` at distance `offset` from the last one. -/
def Finds (offset : Int) (l : List α) (x : α) : Prop :=
  ∃ idx, position offset l.length = .at idx ∧ l[idx]? = some x

theorem position_eq_at (hlen : len ≤ 2 ^ 63) (hidx : idx < len)
    (h : offset = (idx : Int) - len + 1) : position offset len = .at idx := by
  unfold position
  rw [if_neg (by omega), if_neg (by omega), if_neg (by omega)]
  congr 1
  omega

theorem position_behind_mono (h : position offset len = .behind)
    (hlen : len' ≤ len) : position offset len' = .behind := by
  unfold position at h ⊢
  split_ifs at h with h1 h2 h3
  rw [if_neg h1, if_neg h2, if_pos (by omega)]

theorem finds_iff (hlen : l.length ≤ 2 ^ 63) :
    Finds offset l x ↔ ∃ idx : Nat, l[idx]? = some x ∧ offset = idx - l.length + 1 := by
  constructor
  · rintro ⟨idx, hpos, hget⟩
    exact ⟨idx, hget, (position_at hpos).2⟩
  · rintro ⟨idx, hget, hoff⟩
    exact ⟨idx, position_eq_at hlen (List.getElem?_eq_some_iff.mp hget).1 hoff, hget⟩

theorem Finds.unique (h : Finds offset l x) (h' : Finds offset l y) : x = y := by
  obtain ⟨idx, hpos, hget⟩ := h
  obtain ⟨idx', hpos', hget'⟩ := h'
  cases hpos.symm.trans hpos'
  exact Option.some.inj (hget.symm.trans hget')

theorem Finds.mem (h : Finds offset l x) : x ∈ l := by
  obtain ⟨idx, -, hget⟩ := h
  exact List.mem_of_getElem? hget

theorem finds_map {f : α → β} {y : β} :
    Finds offset (l.map f) y ↔ ∃ x, Finds offset l x ∧ f x = y := by
  unfold Finds
  rw [List.length_map]
  constructor
  · rintro ⟨idx, hpos, hget⟩
    rw [List.getElem?_map] at hget
    obtain ⟨x, hx, rfl⟩ := Option.map_eq_some_iff.mp hget
    exact ⟨x, ⟨idx, hpos, hx⟩, rfl⟩
  · rintro ⟨x, ⟨idx, hpos, hget⟩, rfl⟩
    refine ⟨idx, hpos, ?_⟩
    rw [List.getElem?_map, hget]
    rfl

theorem finds_append (hlen : (l ++ l').length ≤ 2 ^ 63) :
    Finds offset (l ++ l') x ↔ Finds (offset + l'.length) l x ∨ Finds offset l' x := by
  have hsum := hlen
  rw [List.length_append] at hsum
  rw [finds_iff hlen, finds_iff (l := l) (by omega), finds_iff (l := l') (by omega),
    List.length_append]
  constructor
  · rintro ⟨idx, hget, hoff⟩
    by_cases hidx : idx < l.length
    · rw [List.getElem?_append_left hidx] at hget
      exact .inl ⟨idx, hget, by omega⟩
    · rw [List.getElem?_append_right (by omega)] at hget
      exact .inr ⟨idx - l.length, hget, by omega⟩
  · rintro (⟨idx, hget, hoff⟩ | ⟨idx, hget, hoff⟩)
    · have hidx := (List.getElem?_eq_some_iff.mp hget).1
      exact ⟨idx, by rw [List.getElem?_append_left hidx]; exact hget, by omega⟩
    · refine ⟨l.length + idx, ?_, by omega⟩
      rw [List.getElem?_append_right (Nat.le_add_right _ _), Nat.add_sub_cancel_left]
      exact hget

theorem finds_singleton : Finds offset [y] x ↔ offset = 0 ∧ x = y := by
  rw [finds_iff (by simp)]
  constructor
  · rintro ⟨idx, hget, hoff⟩
    obtain ⟨hidx, rfl⟩ := List.getElem?_eq_some_iff.mp hget
    simp only [List.length_singleton] at hidx hoff ⊢
    obtain rfl : idx = 0 := by omega
    exact ⟨by omega, rfl⟩
  · rintro ⟨rfl, rfl⟩
    exact ⟨0, rfl, rfl⟩

theorem finds_set (hi : i < l.length) :
    Finds offset (l.set i y) x ↔
      position offset l.length = .at i ∧ x = y ∨
      position offset l.length ≠ .at i ∧ Finds offset l x := by
  unfold Finds
  rw [List.length_set]
  constructor
  · rintro ⟨idx, hpos, hget⟩
    by_cases hidx : idx = i
    · subst hidx
      rw [List.getElem?_set_self hi] at hget
      exact .inl ⟨hpos, (Option.some.inj hget).symm⟩
    · rw [List.getElem?_set_ne (Ne.symm hidx)] at hget
      exact .inr ⟨fun hat => hidx (Position.at.inj (hpos.symm.trans hat)), idx, hpos, hget⟩
  · rintro (⟨hpos, rfl⟩ | ⟨hne, idx, hpos, hget⟩)
    · exact ⟨i, hpos, List.getElem?_set_self hi⟩
    · refine ⟨idx, hpos, ?_⟩
      have hidx : i ≠ idx := by
        rintro rfl
        exact hne hpos
      rw [List.getElem?_set_ne hidx]
      exact hget

theorem finds_dropWhile {p : α → Bool} (hlen : l.length ≤ 2 ^ 63) (hx : p x = false) :
    Finds offset (l.dropWhile p) x ↔ Finds offset l x := by
  have hsplit := List.takeWhile_append_dropWhile (p := p) (l := l)
  have happend : Finds offset (l.takeWhile p ++ l.dropWhile p) x ↔ _ :=
    finds_append (by rw [hsplit]; exact hlen)
  rw [hsplit] at happend
  refine ⟨fun h => happend.mpr (.inr h), fun h => ?_⟩
  rcases happend.mp h with hfront | hback
  · have hdropped := List.mem_takeWhile_imp hfront.mem
    rw [hx] at hdropped
    cases hdropped
  · exact hback

theorem Finds.dropWhile (h : Finds offset l x) (hlen : l.length < 2 ^ 63) (p : α → Bool) :
    Finds offset (l.dropWhile p) x ∨ position offset (l.dropWhile p).length = .behind := by
  have hsplit := List.takeWhile_append_dropWhile (p := p) (l := l)
  have hsum := congrArg List.length hsplit
  rw [List.length_append] at hsum
  rw [← hsplit, finds_append (by rw [hsplit]; omega)] at h
  rcases h with ⟨i, hpos, -⟩ | hback
  · obtain ⟨hi, hoff⟩ := position_at hpos
    right
    unfold position
    rw [if_neg (by omega), if_neg (by omega), if_pos (by omega)]
  · exact .inl hback

theorem wrappingOffset_succ (a b : BitVec 64) :
    wrappingOffset a (b + 1) = wrappingOffset a b - 1 ∨
    (wrappingOffset a b = -2 ^ 63 ∧ wrappingOffset a (b + 1) = 2 ^ 63 - 1) := by
  have hlo : -2 ^ 63 ≤ wrappingOffset a b := BitVec.le_toInt _
  have hlt : wrappingOffset a b < 2 ^ 63 := BitVec.toInt_lt
  have hsub : a - (b + 1) = BitVec.ofInt 64 (wrappingOffset a b - 1) := by
    rw [ofInt_sub, wrappingOffset, BitVec.ofInt_toInt]
    exact (sub_sub a b 1).symm
  have hto : wrappingOffset a (b + 1) = (BitVec.ofInt 64 (wrappingOffset a b - 1)).toInt := by
    rw [← hsub]
    rfl
  rw [hto, BitVec.toInt_ofInt]
  by_cases hmin : wrappingOffset a b = -2 ^ 63
  · right
    rw [hmin]
    exact ⟨rfl, by decide⟩
  · left
    exact Int.bmod_eq_of_le (by omega) (by omega)

theorem wrappingOffset_eq_zero : wrappingOffset a b = 0 ↔ a = b := by
  constructor
  · intro h
    have hword := eq_add_wrappingOffset a b
    rw [h] at hword
    exact hword.trans (add_zero b)
  · rintro rfl
    unfold wrappingOffset
    rw [sub_self]
    rfl

theorem wrappingOffset_inj (h : wrappingOffset a b = wrappingOffset a' b) :
    a = a' := by
  rw [eq_add_wrappingOffset a b, h]
  exact (eq_add_wrappingOffset a' b).symm

theorem finds_succ (hk : k' = k + 1) (hlen : l.length + k < 2 ^ 63) :
    Finds (wrappingOffset a (b + 1) + k') l x ↔ Finds (wrappingOffset a b + k) l x := by
  rw [finds_iff (by omega), finds_iff (by omega)]
  refine exists_congr fun idx => and_congr_right fun hget => ?_
  have hidx := (List.getElem?_eq_some_iff.mp hget).1
  rcases wrappingOffset_succ a b with hoff | ⟨hmin, hmax⟩
  · constructor <;> intro h <;> omega
  · constructor <;> intro h <;> omega

end Finds

/-- The move makes no queue longer. -/
def Move.isSteady : Move Pkt → Bool
  | .queue _ | .send _ | .unblock _ => false
  | _ => true

namespace Sender

variable {s s' : Sender Pkt} {id : QueuedPacketId} {sn : SeqNum} {idx : Nat}

/-- No queue is near the length at which distances wrap around. -/
structure Short (s : Sender Pkt) : Prop where
  unacked : s.unacked.length < 2 ^ 62
  queues : s.blocked.length + s.sent.length < 2 ^ 62

theorem fits_lengths (h : s.fits = true) :
    s.unacked.length < 2 ^ 59 ∧ s.blocked.length < 2 ^ 59 ∧ s.sent.length < 2 ^ 59 := by
  simp only [fits, Bool.and_eq_true] at h
  exact ⟨of_decide_eq_true h.1.1, of_decide_eq_true h.1.2, of_decide_eq_true h.2⟩

theorem short_of_fits (h : s.fits = true) : s.Short := by
  obtain ⟨hu, hb, hsent⟩ := fits_lengths h
  exact ⟨by omega, by omega⟩

/-! ## The window -/

/-- The entry of `unacked` for a sequence number. -/
def EntryAt (s : Sender Pkt) (sn : SeqNum) (e : UnackedState Pkt) : Prop :=
  Finds (wrappingOffset sn s.lastSent) s.unacked e

variable {e e' : UnackedState Pkt}

theorem seqNumPosition_inj {sn' : SeqNum} (h : s.seqNumPosition sn = .at idx)
    (h' : s.seqNumPosition sn' = .at idx) : sn = sn' :=
  wrappingOffset_inj ((position_at h).2.trans (position_at h').2.symm)

theorem not_entryAt_next : ¬ s.EntryAt (s.lastSent + 1) e := by
  rintro ⟨idx, hpos, -⟩
  obtain ⟨hidx, hoff⟩ := position_at hpos
  have hone : wrappingOffset (s.lastSent + 1) s.lastSent = 1 := by
    unfold wrappingOffset
    rw [add_sub_cancel_left]
    rfl
  omega

theorem EntryAt.isAcked (h : s.EntryAt sn e) : s.isAcked sn = some e.isAcked := by
  obtain ⟨idx, hpos, hget⟩ := h
  have hpos' : s.seqNumPosition sn = .at idx := hpos
  unfold Sender.isAcked
  rw [hpos']
  simp only [hget, Option.map_some]

theorem entryAt_setUnacked (he : s.unacked[idx]? = some e') :
    (s.setUnacked idx e).EntryAt sn e'' ↔
      s.seqNumPosition sn = .at idx ∧ e'' = e ∨
      s.seqNumPosition sn ≠ .at idx ∧ s.EntryAt sn e'' :=
  finds_set (List.getElem?_eq_some_iff.mp he).1

theorem entryAt_pushUnacked (hs : s.Short) (packet : Pkt) (limit : Option UInt8) :
    (s.pushUnacked packet limit).EntryAt sn e ↔
      s.EntryAt sn e ∨ sn = s.lastSent + 1 ∧ e = .unacked packet .noop limit 0 false := by
  have hu := hs.unacked
  unfold EntryAt Sender.pushUnacked
  have hsucc := finds_succ (a := sn) (b := s.lastSent) (k := 0) (x := e) (l := s.unacked) rfl
    (by omega)
  rw [Int.natCast_zero, add_zero] at hsucc
  rw [finds_append (by simp only [List.length_append, List.length_singleton]; omega),
    finds_singleton, List.length_singleton, hsucc, wrappingOffset_eq_zero]

theorem isAckedEntry_of_isAcked (h : e.isAcked = false) : isAckedEntry e = false := by
  cases e <;> first | rfl | cases h

theorem entryAt_trim (hs : s.Short) (hc : s.cleanQueues idx = some s')
    (he : isAckedEntry e = false) : s'.EntryAt sn e ↔ s.EntryAt sn e := by
  have hu := hs.unacked
  obtain ⟨pre, sent, -, rfl, -⟩ := cleanQueues_eq hc
  split
  · exact finds_dropWhile (by omega) he
  · exact Iff.rfl

/-- The packet is acknowledged, or was and has left the window. -/
def AckedAt (s : Sender Pkt) (sn : SeqNum) : Prop :=
  s.seqNumPosition sn = .behind ∨ ∃ e, s.EntryAt sn e ∧ e.isAcked = true

theorem AckedAt.trim (h : s.AckedAt sn) (hs : s.Short) (hc : s.cleanQueues idx = some s') :
    s'.AckedAt sn := by
  have hu := hs.unacked
  obtain ⟨pre, sent, -, rfl, -⟩ := cleanQueues_eq hc
  split
  · rcases h with hbehind | ⟨e, hat, he⟩
    · exact .inl (position_behind_mono hbehind (List.dropWhile_suffix _).length_le)
    · rcases hat.dropWhile (by omega) isAckedEntry with hat' | hbehind
      · exact .inr ⟨e, hat', he⟩
      · exact .inl hbehind
  · exact h

theorem AckedAt.isAcked (h : s.AckedAt sn) : s.isAcked sn = some true := by
  rcases h with hbehind | ⟨e, hat, he⟩
  · unfold Sender.isAcked
    rw [hbehind]
  · rw [hat.isAcked, he]

/-! ## The waiting packets -/

def SlotAt (s : Sender Pkt) (id : QueuedPacketId) (b : BlockedState Pkt) : Prop :=
  Finds (wrappingOffset id s.lastEnqueued) s.blocked b

def RecordAt (s : Sender Pkt) (id : QueuedPacketId) (o : Option SeqNum) : Prop :=
  Finds (wrappingOffset id s.lastEnqueued + s.blocked.length) s.sent o

variable {b b' : BlockedState Pkt} {o : Option SeqNum}

theorem blockedPosition_inj {id' : QueuedPacketId} (h : s.blockedPosition id = .at idx)
    (h' : s.blockedPosition id' = .at idx) : id = id' :=
  wrappingOffset_inj ((position_at h).2.trans (position_at h').2.symm)

theorem RecordAt.blockedPosition (h : s.RecordAt id o) (hs : s.Short) :
    s.blockedPosition id = .behind := by
  have hq := hs.queues
  obtain ⟨idx, hpos, -⟩ := h
  obtain ⟨hidx, hoff⟩ := position_at hpos
  unfold Sender.blockedPosition position
  rw [if_neg (by omega), if_neg (by omega), if_pos (by omega)]

theorem RecordAt.lookupSeqNum (h : s.RecordAt id o) : s.lookupSeqNum id = some o := by
  obtain ⟨idx, hpos, hget⟩ := h
  have hpos' : s.sentPosition id = .at idx := hpos
  unfold Sender.lookupSeqNum
  rw [hpos']
  exact hget

theorem recordAt_of_lookupSeqNum (h : s.lookupSeqNum id = some (some sn)) :
    s.RecordAt id (some sn) := by
  unfold lookupSeqNum at h
  split at h
  · cases h
  · cases h
  · cases h
  · next idx hpos => exact ⟨idx, hpos, h⟩

theorem slotAt_setBlocked (hb : s.blocked[idx]? = some b') :
    (s.setBlocked idx b).SlotAt id b'' ↔
      s.blockedPosition id = .at idx ∧ b'' = b ∨
      s.blockedPosition id ≠ .at idx ∧ s.SlotAt id b'' :=
  finds_set (List.getElem?_eq_some_iff.mp hb).1

theorem recordAt_setBlocked : (s.setBlocked idx b).RecordAt id o ↔ s.RecordAt id o := by
  unfold RecordAt Sender.setBlocked
  rw [List.length_set]

theorem slotAt_trimBlocked (hs : s.Short) (hb : b.isCanceled = false) :
    s.cleanBlockedQueue.SlotAt id b ↔ s.SlotAt id b := by
  have hq := hs.queues
  exact finds_dropWhile (by omega) hb

theorem recordAt_trimBlocked (hs : s.Short) :
    s.cleanBlockedQueue.RecordAt id o ↔
      s.RecordAt id o ∨ o = none ∧
        Finds (wrappingOffset id s.lastEnqueued + s.cleanBlockedQueue.blocked.length)
          (s.blocked.takeWhile (·.isCanceled)) .canceled := by
  have hq := hs.queues
  have hlen := congrArg List.length (List.takeWhile_append_dropWhile
    (p := (·.isCanceled)) (l := s.blocked))
  rw [List.length_append] at hlen
  have hcanceled : ∀ x ∈ s.blocked.takeWhile (·.isCanceled), x = .canceled := by
    intro x hx
    have hp := List.mem_takeWhile_imp hx
    cases x with
    | blocked => cases hp
    | canceled => rfl
  have hsum : wrappingOffset id s.lastEnqueued + (s.blocked.dropWhile (·.isCanceled)).length +
      (s.blocked.takeWhile (·.isCanceled)).length
        = wrappingOffset id s.lastEnqueued + s.blocked.length := by omega
  unfold RecordAt cleanBlockedQueue
  rw [finds_append (by simp only [List.length_append, List.length_map]; omega), List.length_map,
    hsum]
  rw [finds_map]
  refine or_congr_right ⟨?_, ?_⟩
  · rintro ⟨x, hfound, rfl⟩
    exact ⟨rfl, hcanceled x hfound.mem ▸ hfound⟩
  · rintro ⟨rfl, hfound⟩
    exact ⟨_, hfound, rfl⟩

theorem slotAt_queue (hs : s.Short) (packet : Pkt) :
    SlotAt { s with
      lastEnqueued := s.lastEnqueued + 1
      blocked := s.blocked ++ [.blocked packet .noop none] } id b ↔
      s.SlotAt id b ∨ id = s.lastEnqueued + 1 ∧ b = .blocked packet .noop none := by
  have hq := hs.queues
  unfold SlotAt
  have hsucc := finds_succ (a := id) (b := s.lastEnqueued) (k := 0) (x := b) (l := s.blocked) rfl
    (by omega)
  rw [Int.natCast_zero, add_zero] at hsucc
  rw [finds_append (by simp only [List.length_append, List.length_singleton]; omega),
    finds_singleton, List.length_singleton, hsucc, wrappingOffset_eq_zero]

theorem recordAt_queue (hs : s.Short) (packet : Pkt) :
    RecordAt { s with
      lastEnqueued := s.lastEnqueued + 1
      blocked := s.blocked ++ [.blocked packet .noop none] } id o ↔ s.RecordAt id o := by
  have hq := hs.queues
  have hlen : s.sent.length + s.blocked.length < 2 ^ 63 := by omega
  exact finds_succ (by simp) hlen

section Unblock

variable {packet : Pkt} {waker : Waker} {limit : Option UInt8} {rest : List (BlockedState Pkt)}

theorem exists_frontId (hs : s.Short) (hfront : s.blocked = b' :: rest) :
    ∃ id, wrappingOffset id s.lastEnqueued + rest.length = 0 := by
  have hq := hs.queues
  rw [hfront, List.length_cons] at hq
  refine ⟨s.lastEnqueued + BitVec.ofInt 64 (-rest.length), ?_⟩
  unfold wrappingOffset
  rw [add_sub_cancel_left, BitVec.toInt_ofInt, Int.bmod_eq_of_le (by omega) (by omega)]
  omega

theorem slotAt_front (hs : s.Short) (hfront : s.blocked = b' :: rest) :
    s.SlotAt id b ↔
      wrappingOffset id s.lastEnqueued + rest.length = 0 ∧ b = b' ∨
      Finds (wrappingOffset id s.lastEnqueued) rest b := by
  have hq := hs.queues
  unfold SlotAt
  rw [hfront, List.length_cons] at hq
  rw [hfront, ← List.singleton_append,
    finds_append (by simp only [List.length_append, List.length_singleton]; omega), finds_singleton]

theorem entryAt_popBlocked (hs : s.Short) :
    (s.popBlocked packet waker limit rest).EntryAt sn e ↔
      s.EntryAt sn e ∨ sn = s.lastSent + 1 ∧ e = .unacked packet .noop limit 0 false :=
  entryAt_pushUnacked hs packet limit

theorem recordAt_popBlocked (hs : s.Short) (hfront : s.blocked = b' :: rest) :
    (s.popBlocked packet waker limit rest).RecordAt id o ↔
      s.RecordAt id o ∨
      wrappingOffset id s.lastEnqueued + rest.length = 0 ∧ o = some (s.lastSent + 1) := by
  have hq := hs.queues
  unfold RecordAt popBlocked
  rw [hfront, List.length_cons] at hq ⊢
  rw [finds_append (by simp only [List.length_append, List.length_singleton]; omega),
    finds_singleton, List.length_singleton, add_assoc]
  rfl

end Unblock

theorem cleanQueues_sent (hc : s.cleanQueues idx = some s') :
    s'.lastEnqueued = s.lastEnqueued ∧ s'.blocked = s.blocked ∧
    ∃ pre, s.sent = pre ++ s'.sent ∧ ∀ sn, some sn ∈ pre → s'.isAcked sn = some true := by
  obtain ⟨pre, sent, hsplit, rfl, hpre⟩ := cleanQueues_eq hc
  exact ⟨rfl, rfl, pre, hsplit, hpre⟩

/-- A record is trimmed only once its packet is acknowledged. -/
theorem RecordAt.trim (h : s.RecordAt id (some sn)) (hs : s.Short)
    (hc : s.cleanQueues idx = some s') :
    s'.RecordAt id (some sn) ∨ s'.sentPosition id = .behind ∧ s'.isAcked sn = some true := by
  have hq := hs.queues
  obtain ⟨hlast, hblocked, pre, hsent, hpre⟩ := cleanQueues_sent hc
  unfold RecordAt at h ⊢
  have hlen := congrArg List.length hsent
  rw [List.length_append] at hlen
  rw [hsent, finds_append (by rw [← hsent]; omega)] at h
  rw [hlast, hblocked]
  rcases h with hgone | hkept
  · obtain ⟨i, hpos, hget⟩ := hgone
    obtain ⟨hi, hoff⟩ := position_at hpos
    refine .inr ⟨?_, hpre sn (List.mem_of_getElem? hget)⟩
    unfold sentPosition position
    rw [hlast, hblocked, if_neg (by omega), if_neg (by omega), if_pos (by omega)]
  · exact .inl hkept

theorem recordAt_of_trim (hs : s.Short) (hc : s.cleanQueues idx = some s')
    (h : s'.RecordAt id o) : s.RecordAt id o := by
  have hq := hs.queues
  obtain ⟨hlast, hblocked, pre, hsent, -⟩ := cleanQueues_sent hc
  unfold RecordAt at h ⊢
  rw [hlast, hblocked] at h
  rw [hsent, finds_append (by rw [← hsent]; omega)]
  exact .inr h

/-! ## Queues that stay short -/

theorem Moved.short {m : Move Pkt} (hm : Moved s m s') (hk : m.isSteady = true) (hs : s.Short) :
    s'.Short := by
  obtain ⟨hu, hq⟩ := hs
  cases hm with
  | quiet => exact ⟨hu, hq⟩
  | entry => exact ⟨by simpa [setUnacked] using hu, hq⟩
  | slot => exact ⟨hu, by simpa [setBlocked] using hq⟩
  | trim hc =>
    obtain ⟨pre, sent, hsplit, rfl, -⟩ := cleanQueues_eq hc
    rw [hsplit, List.length_append] at hq
    refine ⟨?_, by simp only; omega⟩
    split
    · exact lt_of_le_of_lt (List.dropWhile_suffix _).length_le hu
    · exact hu
  | trimBlocked =>
    have hlen := congrArg List.length (List.takeWhile_append_dropWhile
      (p := (·.isCanceled)) (l := s.blocked))
    rw [List.length_append] at hlen
    refine ⟨hu, ?_⟩
    simp only [cleanBlockedQueue, List.length_append, List.length_map]
    omega
  | queue | send | unblock => cases hk

/-- What each move of a kind keeps in a short sender, steady moves of that kind keep together. -/
theorem Moves.keep {ms : List (Move Pkt)} {ps : List Pkt} {P : Sender Pkt → Prop}
    {ok : Move Pkt → Prop} (hms : s.Moves ms ps s') (h : P s) (hs : s.Short)
    (hstep : ∀ {s s' m}, P s → s.Short → Moved s m s' → ok m → P s')
    (hk : ∀ m ∈ ms, ok m ∧ m.isSteady = true) : P s' := by
  induction hms with
  | nil => exact h
  | cons hm _ ih =>
    obtain ⟨hkeep, hsteady⟩ := hk _ List.mem_cons_self
    exact ih (hstep h hs hm hkeep) (hm.short hsteady hs)
      fun m hmem => hk m (List.mem_cons_of_mem _ hmem)

/-- The packet at the front is sent, and the rest of `blocked` is cleaned while it is short. -/
theorem enqueueNextBlockedPacket_inv {r : SeqNum × Pkt} (hfits : s.fits = true)
    (h : s.enqueueNextBlockedPacket = some (r, s')) :
    r.1 = s.lastSent + 1 ∧ ∃ w l rest, s.blocked = .blocked r.2 w l :: rest ∧
      s.Moved (.unblock r.2) (s.popBlocked r.2 w l rest) ∧ (s.popBlocked r.2 w l rest).Short ∧
      s' = (s.popBlocked r.2 w l rest).cleanBlockedQueue := by
  obtain ⟨hu, hb, hsent⟩ := fits_lengths hfits
  obtain ⟨hsn, hms⟩ := enqueueNextBlockedPacket_moves h
  obtain ⟨t, _, hfirst, hms, -⟩ := hms.cons_inv
  obtain ⟨_, _, hsecond, hms, -⟩ := hms.cons_inv
  cases hms
  cases hsecond
  cases hfirst with
  | @unblock _ w l rest hfree hfront =>
    refine ⟨hsn, w, l, rest, hfront, .unblock hfree hfront, ⟨?_, ?_⟩, rfl⟩
    all_goals
      rw [hfront, List.length_cons] at hb
      simp only [popBlocked, Sender.pushUnacked, List.length_append, List.length_singleton]
      omega

end Sender

end ZprCore.Zdpr
