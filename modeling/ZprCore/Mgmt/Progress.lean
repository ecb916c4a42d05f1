-- SUMMARY: What the sender does to packets nobody operates on at the moment.
import ZprCore.Mgmt.Handles
import ZprCore.Mgmt.Stall

/-!
# Progress of the sender

Packets also move when no future is operated on: they are queued, sent, retried, acknowledged
and cancelled. `Progress` says that such a move keeps what futures know about their packets, and
that it limits, cancels or withdraws no packet by itself.
-/

namespace ZprCore.Zdpr.UnackedState

variable {Pkt : Type}

/-- An update that limits and cancels nothing by itself. -/
structure Gentle (f : UnackedState Pkt → UnackedState Pkt) : Prop where
  plain : ∀ e, e.Plain → (f e).Plain
  not_leaky : ∀ e, ¬ e.Leaky → ¬ (f e).Leaky

namespace Gentle

theorem id : Gentle (fun e : UnackedState Pkt => e) := ⟨fun _ h => h, fun _ h => h⟩

theorem onSeqNum {f : UnackedState Pkt → UnackedState Pkt} (hf : Gentle f) (sn : SeqNum)
    (k : Nat) : Gentle (Sender.onSeqNum sn f k) := by
  unfold Sender.onSeqNum
  by_cases h : BitVec.ofNat 64 k = sn
  · simp only [h, if_true]
    exact hf
  · simp only [h, if_false]
    exact .id

theorem ack : Gentle (fun e : UnackedState Pkt => e.ack) := by
  refine ⟨?_, ?_⟩
  · intro e he
    cases e with
    | unacked | cancelRequested | acked => trivial
    | cancelAcked => exact he.elim
  · intro e he
    cases e with
    | unacked | cancelRequested | acked => exact fun h => h
    | cancelAcked => exact he

theorem cancelAck : Gentle (fun e : UnackedState Pkt => e.cancelAck) := by
  refine ⟨?_, ?_⟩
  · intro e he
    cases e with
    | unacked | acked => exact he
    | cancelRequested | cancelAcked => exact he.elim
  · intro e he
    cases e with
    | unacked | acked | cancelAcked => exact he
    | cancelRequested w x =>
      cases x with
      | false => exact absurd trivial he
      | true => exact fun h => h

/-- A packet that nobody limited is never cancelled by ageing, and one whose cancellation was
    forgotten in advance is not waited for. -/
theorem ageRetries : Gentle (fun e : UnackedState Pkt => e.ageRetries.2) := by
  refine ⟨?_, ?_⟩
  · intro e he
    cases e with
    | unacked p w l c x =>
      cases l with
      | none => cases x <;> exact he
      | some => exact he.elim
    | acked => trivial
    | cancelRequested | cancelAcked => exact he.elim
  · intro e he
    cases e with
    | unacked p w l c x =>
      cases l with
      | none => exact fun h => h
      | some limit =>
        cases x with
        | false => exact absurd trivial he
        | true =>
          simp only [UnackedState.ageRetries]
          split <;> exact fun h => h
    | cancelRequested | acked | cancelAcked => exact he

end Gentle

end ZprCore.Zdpr.UnackedState

namespace ZprCore.Mgmt

open Zdpr

variable {Pkt : Type} {s s' s'' : Sender Pkt} {numbers ids numbers' ids' numbers'' ids'' : List Pkt}
  {t p : Pkt} {old : Pkt → Prop}

/-- From `s` to `s'` the packets in `old` were not operated on. -/
structure Progress (old : Pkt → Prop) (s : Sender Pkt) (numbers ids : List Pkt) (s' : Sender Pkt)
    (numbers' ids' : List Pkt) : Prop where
  ledger : s'.Ledger numbers' ids'
  numbers_grow : ∀ (k : Nat) p, numbers[k]? = some p → numbers'[k]? = some p
  ids_grow : ∀ (j : Nat) p, ids[j]? = some p → ids'[j]? = some p
  acked : ∀ k < numbers.length, s.status numbers.length k = .acked →
    s'.status numbers'.length k = .acked
  withdrawn : ∀ p, old p → (s.Withdrawn numbers ids p ↔ s'.Withdrawn numbers' ids' p)
  plain : ∀ p, old p → Plain s numbers ids p → Plain s' numbers' ids' p
  leakFree : ∀ p, old p → LeakFree s numbers ids p → LeakFree s' numbers' ids' p

namespace Progress

theorem refl (hl : s.Ledger numbers ids) : Progress old s numbers ids s numbers ids :=
  ⟨hl, fun _ _ h => h, fun _ _ h => h, fun _ _ h => h, fun _ _ => Iff.rfl, fun _ _ h => h,
    fun _ _ h => h⟩

theorem trans (h : Progress old s numbers ids s' numbers' ids')
    (h' : Progress old s' numbers' ids' s'' numbers'' ids'') :
    Progress old s numbers ids s'' numbers'' ids'' where
  ledger := h'.ledger
  numbers_grow k p hk := h'.numbers_grow k p (h.numbers_grow k p hk)
  ids_grow j p hj := h'.ids_grow j p (h.ids_grow j p hj)
  acked k hk hst := by
    have hk' : k < numbers'.length :=
      Sender.lt_of_getElem? (h.numbers_grow k _ (List.getElem?_eq_getElem hk))
    exact h'.acked k hk' (h.acked k hk hst)
  withdrawn p hp := (h.withdrawn p hp).trans (h'.withdrawn p hp)
  plain p hp hst := h'.plain p hp (h.plain p hp hst)
  leakFree p hp hst := h'.leakFree p hp (h.leakFree p hp hst)

theorem holds (h : Progress old s numbers ids s' numbers' ids') (hp : old p) {kind : FutureKind}
    {packetId : PacketId} (hh : Holds s numbers ids p kind packetId) :
    Holds s' numbers' ids' p kind packetId := by
  cases packetId with
  | queued id =>
    obtain ⟨j, hj, hid, hnw⟩ := hh
    exact ⟨j, hj, h.ids_grow j p hid, fun hw => hnw ((h.withdrawn p hp).mpr hw)⟩
  | sent sn =>
    obtain ⟨k, hk, hnum⟩ := hh
    exact ⟨k, hk, h.numbers_grow k p hnum⟩
  | acked =>
    obtain ⟨k, hnum, hst⟩ := hh
    exact ⟨k, h.numbers_grow k p hnum, h.acked k (Sender.lt_of_getElem? hnum) hst⟩
  | canceled => exact ⟨hh.1, (h.withdrawn p hp).mp hh.2⟩

variable {m j windowSize : Nat} {l limit : Option UInt8} {w : Waker} {sn seqNum : SeqNum}

theorem trims_waiting (ht : Sender.Trims m s s') :
    s'.queued m j = .waiting p w l ↔ s.queued m j = .waiting p w l := by
  rcases ht.queued j with heq | ⟨hgone, hcanceled | ⟨sn, hsent, -⟩⟩
  · rw [heq]
  · rw [hgone, hcanceled]
    constructor <;> exact nofun
  · rw [hgone, hsent]
    constructor <;> exact nofun

theorem trims (hl : s.Ledger numbers ids) (hn : numbers.length < 2 ^ 63)
    {f : Nat → UnackedState Pkt → UnackedState Pkt}
    (hev : Sender.Evolves numbers.length f s s') (hf : ∀ k, Lawful (f k))
    (hg : ∀ k, UnackedState.Gentle (f k)) (ht : Sender.Trims ids.length s s') :
    Progress old s numbers ids s' numbers ids := by
  have hstatus := hev.status_eq hl.hasSent hf
  refine ⟨hl.trims hn hev hf ht, fun _ _ h => h, fun _ _ h => h, ?_, ?_, ?_, ?_⟩
  · intro k _ hst
    rw [hstatus, hst, (hf k).acked]
  · intro p _
    refine and_congr Iff.rfl ?_
    simp only [ne_eq, trims_waiting ht]
  · intro p _ hp
    exact ⟨fun j w l hw => hp.waiting j w l ((trims_waiting ht).mp hw),
      fun k hk => hstatus k ▸ (hg k).plain _ (hp.status k hk)⟩
  · intro p _ hp
    exact ⟨fun j w l hw => hp.waiting j w l ((trims_waiting ht).mp hw),
      fun k hk => hstatus k ▸ (hg k).not_leaky _ (hp.status k hk)⟩

theorem settles (hl : s.Ledger numbers ids) (hn : numbers.length < 2 ^ 63) {op : EntryOp}
    {ps : List Pkt} (h : s.Settles op sn ps s') (hg : UnackedState.Gentle (@op.apply Pkt)) :
    Progress old s numbers ids s' numbers ids :=
  .trims hl hn (hl.hasSent.settles hn h) (fun k => (Lawful.apply op).onSeqNum _ k)
    (fun k => hg.onSeqNum _ k) (hl.hasQueued.settles h)

theorem queue (hl : s.Ledger numbers ids) (ht : t ∉ numbers) (ht' : t ∉ ids)
    (hev : Sender.Evolves numbers.length (fun _ e => e) s s') (hq : s'.HasQueued (ids.length + 1))
    (hupd : s'.queued (ids.length + 1)
      = Function.update (s.queued ids.length) ids.length (.waiting t .noop none)) :
    Progress (· ≠ t) s numbers ids s' numbers (ids ++ [t]) := by
  have hstatus := hev.status_eq hl.hasSent fun _ => .id
  have hlen : (ids ++ [t]).length = ids.length + 1 := by simp
  -- the other packets wait where they waited
  have hwait : ∀ q, q ≠ t → ∀ j w l, s'.queued (ids ++ [t]).length j = .waiting q w l ↔
      s.queued ids.length j = .waiting q w l := by
    intro q hq j w l
    rw [hlen, hupd]
    by_cases hj : j = ids.length
    · subst hj
      rw [Function.update_self]
      constructor
      · rintro ⟨⟩
        exact absurd rfl hq
      · intro hw
        have := Sender.lt_of_getElem? (hl.waiting _ q w l hw).1
        omega
    · rw [Function.update_of_ne hj]
  refine ⟨hl.queue ht ht' hev hq hupd, fun _ _ h => h,
    fun _ _ h => Sender.Ledger.getElem?_concat_of_some h, ?_, ?_, ?_, ?_⟩
  · intro k _ hst
    exact (hstatus k).trans hst
  · intro q hq
    refine and_congr Iff.rfl ?_
    simp only [ne_eq, hwait q hq]
  all_goals
    intro q hq hp
    exact ⟨fun j w l hw => hp.waiting j w l ((hwait q hq j w l).mp hw),
      fun k hk => hstatus k ▸ hp.status k hk⟩

theorem queue_fresh (kind : FutureKind) (hl : s'.Ledger numbers (ids ++ [t])) (ht : t ∉ numbers)
    (hst : s'.queued (ids.length + 1) ids.length = .waiting t .noop none) :
    Holds s' numbers (ids ++ [t]) t kind (.queued (BitVec.ofNat 64 ids.length)) ∧
      Plain s' numbers (ids ++ [t]) t := by
  have hlen : (ids ++ [t]).length = ids.length + 1 := by simp
  have hid : (ids ++ [t])[ids.length]? = some t := List.getElem?_concat_length
  refine ⟨⟨ids.length, rfl, hid, fun hw => hw.2 ids.length .noop none (hlen ▸ hst)⟩, ?_, ?_⟩
  · intro j w l hw
    obtain rfl := Sender.eq_of_getElem? hl.ids_nodup (hl.waiting j t w l hw).1 hid
    rw [hlen, hst] at hw
    cases hw
    rfl
  · intro k hk
    exact absurd (List.mem_of_getElem? hk) ht

theorem send_fresh (kind : FutureKind) (hl : s'.Ledger (numbers ++ [t]) ids)
    (hst : s'.status (numbers.length + 1) numbers.length = .unacked t .noop none 0 false) :
    Holds s' (numbers ++ [t]) ids t kind (.sent (BitVec.ofNat 64 numbers.length)) ∧
      Plain s' (numbers ++ [t]) ids t := by
  have hnum : (numbers ++ [t])[numbers.length]? = some t := List.getElem?_concat_length
  refine ⟨⟨numbers.length, rfl, hnum⟩, ?_, ?_⟩
  · intro j w l hw
    exact absurd (List.mem_of_getElem? hnum) (hl.waiting j t w l hw).2
  intro k hk
  obtain rfl := Sender.eq_of_getElem? hl.numbers_nodup hk hnum
  rw [List.length_append, List.length_singleton, hst]
  trivial

theorem send (hl : s.Ledger numbers ids) (ht : t ∉ numbers) (ht' : t ∉ ids)
    (hs : Sender.Sends numbers.length t limit s s')
    (hq : s'.HasQueued ids.length) (heq : s'.queued ids.length = s.queued ids.length) :
    Progress (· ≠ t) s numbers ids s' (numbers ++ [t]) ids := by
  have hnum : ∀ q, q ≠ t → ∀ k : Nat, (numbers ++ [t])[k]? = some q → numbers[k]? = some q := by
    intro q hq k hk
    rcases Sender.Ledger.getElem?_concat hk with hold | ⟨-, rfl⟩
    · exact hold
    · exact absurd rfl hq
  refine ⟨hl.send ht ht' hs hq heq, fun _ _ h => Sender.Ledger.getElem?_concat_of_some h,
    fun _ _ h => h, ?_, ?_, ?_, ?_⟩
  · intro k hk hst
    exact (Sender.Ledger.sends_status hs hk).trans hst
  · intro q hq
    refine and_congr (by simp [hq]) ?_
    rw [heq]
  all_goals
    intro q hq hp
    refine ⟨fun j w l hw => hp.waiting j w l (heq ▸ hw), fun k hk => ?_⟩
    have hold := hnum q hq k hk
    rw [Sender.Ledger.sends_status hs (Sender.lt_of_getElem? hold)]
    exact hp.status k hold

theorem unblock (hl : s.Ledger numbers ids) (hw : s.queued ids.length j = .waiting t w limit)
    (hs : Sender.Sends numbers.length t limit s s') (hq : s'.HasQueued ids.length)
    (hupd : s'.queued ids.length
      = Function.update (s.queued ids.length) j (.sentAs (BitVec.ofNat 64 numbers.length))) :
    Progress old s numbers ids s' (numbers ++ [t]) ids := by
  -- what still waits waited before
  have hwait : ∀ {q i w' l'}, s'.queued ids.length i = .waiting q w' l' →
      i ≠ j ∧ s.queued ids.length i = .waiting q w' l' := by
    intro q i w' l' hi
    rw [hupd] at hi
    by_cases hij : i = j
    · subst hij
      rw [Function.update_self] at hi
      cases hi
    · rw [Function.update_of_ne hij] at hi
      exact ⟨hij, hi⟩
  refine ⟨hl.unblock hw hs hq hupd, fun _ _ h => Sender.Ledger.getElem?_concat_of_some h,
    fun _ _ h => h, ?_, ?_, ?_, ?_⟩
  · intro k hk hst
    exact (Sender.Ledger.sends_status hs hk).trans hst
  · intro q _
    constructor
    · rintro ⟨hnum, hnot⟩
      have hne : q ≠ t := by
        rintro rfl
        exact hnot j w limit hw
      exact ⟨by simpa using ⟨hnum, hne⟩, fun i w' l' hi => hnot i w' l' (hwait hi).2⟩
    · rintro ⟨hnum, hnot⟩
      have hnum' : q ∉ numbers ∧ q ≠ t := by simpa using hnum
      refine ⟨hnum'.1, fun i w' l' hi => hnot i w' l' ?_⟩
      have hij : i ≠ j := by
        rintro rfl
        rw [hw] at hi
        cases hi
        exact hnum'.2 rfl
      rw [hupd, Function.update_of_ne hij]
      exact hi
  all_goals
    intro q _ hp
    refine ⟨fun i w' l' hi => hp.waiting i w' l' (hwait hi).2, fun k hk => ?_⟩
    rcases Sender.Ledger.getElem?_concat hk with hold | ⟨rfl, rfl⟩
    · rw [Sender.Ledger.sends_status hs (Sender.lt_of_getElem? hold)]
      exact hp.status k hold
    · rw [List.length_append, List.length_singleton, hs.status_new, hp.waiting j w limit hw]
      first | trivial | exact fun h => h

/-! ## The dispatcher and the retry worker -/

variable {sent : List (SeqNum × Pkt)}

variable (hl : s.Ledger numbers ids)

include hl

theorem drains (h : Drains s sent s') :
    Progress old s numbers ids s' (numbers ++ sent.map (·.2)) ids ∧ ∀ r ∈ sent, r.2 ∈ ids := by
  induction h generalizing numbers with
  | nil =>
    rw [List.map_nil, List.append_nil]
    exact ⟨.refl hl, nofun⟩
  | @cons s t _ _ _ hnext _ ih =>
    obtain ⟨j, -, p, w, l, hw, rfl, hs, hq, hupd⟩ :=
      hl.hasQueued.enqueueNextBlockedPacket hl.hasSent hnext
    have hstep : Progress old s numbers ids t (numbers ++ [p]) ids := .unblock hl hw hs hq hupd
    obtain ⟨hmore, hmem⟩ := ih hstep.ledger
    rw [List.append_assoc] at hmore
    refine ⟨hstep.trans hmore, List.forall_mem_cons.mpr ⟨?_, hmem⟩⟩
    exact List.mem_of_getElem? (hl.waiting j p w l hw).1

theorem handleAcknowledgement {isCanceled : Bool} (hn : numbers.length < 2 ^ 63)
    (h : handleAcknowledgementCanceledCommon s seqNum isCanceled = some (s', sent)) :
    Progress old s numbers ids s' (numbers ++ sent.map (·.2)) ids ∧ ∀ r ∈ sent, r.2 ∈ ids := by
  obtain ⟨u, hu, hdrain⟩ := Option.bind_eq_some_iff.mp h
  have hprocessed : Progress old s numbers ids u numbers ids := by
    split at hu
    · exact .settles hl hn (Sender.processCanceled_effect hu) .cancelAck
    · obtain ⟨⟨r, v⟩, hack, rfl⟩ := Option.map_eq_some_iff.mp hu
      exact .settles hl hn (Sender.processAck_effect hack) .ack
  obtain ⟨hdrains, hmem⟩ := drains hprocessed.ledger (drains_of_drainBlocked hdrain)
  exact ⟨hprocessed.trans hdrains, hmem⟩

theorem retryTick (hn : numbers.length < 2 ^ 63) :
    Progress old s numbers ids s.ageRetries.2 numbers ids :=
  .trims hl hn hl.hasSent.ageRetries (fun _ => Lawful.apply .age)
    (fun _ => UnackedState.Gentle.ageRetries) hl.hasQueued.ageRetries

theorem adjustWindowSize (h : s.adjustWindowSize windowSize = some s') :
    Progress old s numbers ids s' numbers ids := by
  obtain rfl := Sender.adjustWindowSize_eq h
  exact
    { ledger :=
        { hl with
          hasSent := ⟨hl.hasSent.lastSent, hl.hasSent.length_le⟩
          hasQueued := ⟨hl.hasQueued.lastEnqueued, hl.hasQueued.length_le⟩
          unacked := hl.unacked, fits := hl.fits }
      numbers_grow := fun _ _ h => h
      ids_grow := fun _ _ h => h
      acked := fun _ _ h => h
      withdrawn := fun _ _ => Iff.rfl
      plain := fun _ _ h => ⟨h.waiting, h.status⟩
      leakFree := fun _ _ h => ⟨h.waiting, h.status⟩ }

theorem input {input : SenderInput} {messages : List (Message Pkt)} (hn : numbers.length < 2 ^ 63)
    (h : input.apply s = some (s', sent, messages)) :
    Progress old s numbers ids s' (numbers ++ sent.map (·.2)) ids ∧ ∀ r ∈ sent, r.2 ∈ ids := by
  rcases SenderInput.apply_cases h with ⟨_, _, hack⟩ | ⟨rfl, hrest⟩
  · exact handleAcknowledgement hl hn hack
  rw [List.map_nil, List.append_nil]
  refine ⟨?_, nofun⟩
  rcases hrest with rfl | rfl | ⟨_, _, -, -, hadj⟩
  · exact .retryTick hl hn
  · exact .refl hl
  · exact .adjustWindowSize hl hadj

end Progress

end ZprCore.Mgmt
