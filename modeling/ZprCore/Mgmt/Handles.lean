-- SUMMARY: What a send future knows about its packet.
import ZprCore.Mgmt.Futures
import ZprCore.Zdpr.Ledger

/-!
# Futures as handles of packets

A future is created for one packet and caches an id of it that may be out of date. `Holds` says
what the cached id still guarantees. Under it every operation on the future changes the entries
of its own packet only (`Alters`), leaves a future that again holds the packet, and says of a
`Sent` or `Acked` that nobody limited or cancelled the packet (`Plain`).
-/

namespace ZprCore.Zdpr.UnackedState

variable {Pkt : Type} {e : UnackedState Pkt}

/-- The entry keeps its window slot until somebody forgets it. -/
def Leaky : UnackedState Pkt → Prop
  | .unacked _ _ (some _) _ false | .cancelRequested _ false | .cancelAcked => True
  | _ => False

/-- Nobody limited, cancelled or forgot the packet. -/
def Plain : UnackedState Pkt → Prop
  | .unacked _ _ none _ false | .acked => True
  | _ => False

theorem Plain.not_leaky (h : e.Plain) : ¬ e.Leaky := by
  cases e with
  | unacked p w l c x => cases l <;> cases x <;> simp_all [Plain, Leaky]
  | cancelRequested | acked | cancelAcked => simp_all [Plain, Leaky]

theorem Plain.setWaker (h : e.Plain) (cx : Waker) : (e.setWaker cx).Plain := by
  cases e with
  | unacked p w l c x => cases l <;> cases x <;> simp_all [Plain, UnackedState.setWaker]
  | cancelRequested | acked | cancelAcked => simp_all [Plain, UnackedState.setWaker]

theorem Plain.eq_acked (h : e.Plain) (he : e.isAcked = true) : e = .acked := by
  cases e <;> simp_all [Plain, isAcked]

theorem not_leaky_forget (e : UnackedState Pkt) : ¬ e.forget.Leaky := by
  cases e with
  | unacked p w l c x => cases l <;> simp [UnackedState.forget, Leaky]
  | cancelRequested | acked | cancelAcked => simp [UnackedState.forget, Leaky]

instance (e : UnackedState Pkt) : Decidable e.Leaky := by
  unfold Leaky
  split <;> infer_instance

end ZprCore.Zdpr.UnackedState

namespace ZprCore.Mgmt

open Zdpr

variable {Pkt : Type} {s s' : Sender Pkt} {numbers ids : List Pkt} {t : Pkt} {j k : Nat}

/-! ## What a future knows -/

/-- What the cached id of a future for packet `t` guarantees. -/
def Holds (s : Sender Pkt) (numbers ids : List Pkt) (t : Pkt) (kind : FutureKind) :
    PacketId → Prop
  | .queued id =>
    ∃ j, id = BitVec.ofNat 64 j ∧ ids[j]? = some t ∧ ¬ s.Withdrawn numbers ids t
  | .sent sn => ∃ k, sn = BitVec.ofNat 64 k ∧ numbers[k]? = some t
  | .acked => ∃ k, numbers[k]? = some t ∧ s.status numbers.length k = .acked
  | .canceled => kind = .ackedOrCanceled ∧ s.Withdrawn numbers ids t

/-- Nobody limited, cancelled or forgot packet `t`. -/
structure Plain (s : Sender Pkt) (numbers ids : List Pkt) (t : Pkt) : Prop where
  waiting : ∀ j w l, s.queued ids.length j = .waiting t w l → l = none
  status : ∀ k, numbers[k]? = some t → (s.status numbers.length k).Plain

/-- No entry of packet `t` waits to be forgotten, now or once it is sent. -/
structure LeakFree (s : Sender Pkt) (numbers ids : List Pkt) (t : Pkt) : Prop where
  waiting : ∀ j w l, s.queued ids.length j = .waiting t w l → l = none
  status : ∀ k, numbers[k]? = some t → ¬ (s.status numbers.length k).Leaky

theorem Plain.leakFree (h : Plain s numbers ids t) : LeakFree s numbers ids t :=
  ⟨h.waiting, fun k hk => (h.status k hk).not_leaky⟩

theorem plain_of_withdrawn (h : s.Withdrawn numbers ids t) : Plain s numbers ids t :=
  ⟨fun j w l hw => absurd hw (h.2 j w l), fun _ hk => absurd (List.mem_of_getElem? hk) h.1⟩

/-- The answer `status` is what the sender knows about packet `t`. -/
def Tells (s : Sender Pkt) (numbers ids : List Pkt) (t : Pkt) : PacketStatus → Prop
  | .acked => ∃ k, numbers[k]? = some t ∧ s.status numbers.length k = .acked
  | .canceled =>
    s.Withdrawn numbers ids t ∨ ∃ k, numbers[k]? = some t ∧ s.status numbers.length k = .cancelAcked

/-- The answer `Acked` is taken from a missing record while the packet is `CancelAcked`. -/
def Misleads (s : Sender Pkt) (numbers : List Pkt) (t : Pkt) (packetId : PacketId)
    (status : PacketStatus) : Prop :=
  status = .acked ∧ ∃ id, packetId = .queued id ∧ s.lookupSeqNum id = some none ∧
    ∃ k, numbers[k]? = some t ∧ s.status numbers.length k = .cancelAcked

/-- From `s` to `s'` only the entries of packet `t` changed. -/
structure Alters (numbers ids : List Pkt) (t : Pkt) (s s' : Sender Pkt) : Prop where
  ledger : s'.Ledger numbers ids
  status : ∀ k, numbers[k]? ≠ some t → s'.status numbers.length k = s.status numbers.length k
  acked : ∀ k, s.status numbers.length k = .acked → s'.status numbers.length k = .acked
  queued : ∀ j, ids[j]? ≠ some t → s'.queued ids.length j = s.queued ids.length j ∨
    s'.queued ids.length j = .gone ∧ ∀ p w l, s.queued ids.length j ≠ .waiting p w l
  waiting : ∀ j p w l, s'.queued ids.length j = .waiting p w l →
    ∃ w' l', s.queued ids.length j = .waiting p w' l'

namespace Alters

theorem refl (hl : s.Ledger numbers ids) : Alters numbers ids t s s :=
  ⟨hl, fun _ _ => rfl, fun _ h => h, fun _ _ => .inl rfl, fun _ _ w l h => ⟨w, l, h⟩⟩

theorem trans {s'' : Sender Pkt} (h : Alters numbers ids t s s')
    (h' : Alters numbers ids t s' s'') : Alters numbers ids t s s'' where
  ledger := h'.ledger
  status k hk := (h'.status k hk).trans (h.status k hk)
  acked k hk := h'.acked k (h.acked k hk)
  queued := by
    intro j hj
    rcases h'.queued j hj with heq' | ⟨hgone', hnw'⟩
    · rw [heq']
      exact h.queued j hj
    refine .inr ⟨hgone', ?_⟩
    intro p w l hw
    rcases h.queued j hj with heq | ⟨-, hnw⟩
    · exact hnw' p w l (heq.trans hw)
    · exact hnw p w l hw
  waiting := by
    intro j p w l hw
    obtain ⟨w', l', hw'⟩ := h'.waiting j p w l hw
    exact h.waiting j p w' l' hw'

variable {l : Option UInt8}

theorem requeue (hl : s.Ledger numbers ids) {v : QueueState Pkt} {w : Waker}
    (hw : s.queued ids.length j = .waiting t w l)
    (hv : v = .canceled ∨ ∃ w' l', v = .waiting t w' l')
    (hev : Sender.Evolves numbers.length (fun _ e => e) s s') (hq : s'.HasQueued ids.length)
    (hupd : s'.queued ids.length = Function.update (s.queued ids.length) j v) :
    Alters numbers ids t s s' := by
  have hstatus : ∀ k, s'.status numbers.length k = s.status numbers.length k :=
    fun k => hev.status_eq hl.hasSent (fun _ => .id) k
  refine ⟨hl.requeue hw hv hev hq hupd, fun k _ => hstatus k, fun k h => (hstatus k).trans h,
    ?_, ?_⟩
  · intro i hi
    have hne : i ≠ j := by
      rintro rfl
      exact hi (hl.waiting i t w l hw).1
    rw [hupd, Function.update_of_ne hne]
    exact .inl rfl
  · intro i p w' l' h
    rw [hupd] at h
    by_cases hi : i = j
    · subst hi
      rw [Function.update_self] at h
      rcases hv with rfl | ⟨w'', l'', rfl⟩
      · cases h
      · cases h
        exact ⟨w, l, hw⟩
    · rw [Function.update_of_ne hi] at h
      exact ⟨w', l', h⟩

/-- Changing the status of packet `t`, with the cleaning of the queues that may follow. -/
theorem onSeqNum (hl : s.Ledger numbers ids) (hn : numbers.length < 2 ^ 63)
    (hk : numbers[k]? = some t) {f : UnackedState Pkt → UnackedState Pkt} (hf : Lawful f)
    (hev : Sender.Evolves numbers.length (Sender.onSeqNum (BitVec.ofNat 64 k) f) s s')
    (ht : Sender.Trims ids.length s s') : Alters numbers ids t s s' := by
  have hstatus := hev.status_eq hl.hasSent fun i => hf.onSeqNum (BitVec.ofNat 64 k) i
  refine ⟨hl.trims hn hev (fun i => hf.onSeqNum _ i) ht, ?_, ?_, ?_, ?_⟩
  · intro i hi
    rw [hstatus]
    by_cases hlt : i < numbers.length
    · have hne : BitVec.ofNat 64 i ≠ BitVec.ofNat 64 k := by
        intro heq
        have hk' := Sender.lt_of_getElem? hk
        obtain rfl := ofNat_inj_of_lt (by omega) (by omega) heq
        exact hi hk
      exact if_neg hne
    · rw [hl.hasSent.status_of_ge (by omega)]
      exact (hf.onSeqNum _ i).acked
  · intro i hi
    rw [hstatus, hi]
    exact (hf.onSeqNum _ i).acked
  · intro j _
    rcases ht.queued j with heq | ⟨hgone, hcanceled | ⟨sn, hsent, -⟩⟩
    · exact .inl heq
    · exact .inr ⟨hgone, fun _ _ _ h => by rw [hcanceled] at h; cases h⟩
    · exact .inr ⟨hgone, fun _ _ _ h => by rw [hsent] at h; cases h⟩
  · intro j p w l h
    rcases ht.queued j with heq | ⟨hgone, -⟩
    · exact ⟨w, l, heq ▸ h⟩
    · rw [hgone] at h
      cases h

theorem applies (hl : s.Ledger numbers ids) (hn : numbers.length < 2 ^ 63)
    (hk : numbers[k]? = some t) {op : EntryOp} {ps : List Pkt}
    (h : s.Applies op (BitVec.ofNat 64 k) ps s') : Alters numbers ids t s s' :=
  .onSeqNum hl hn hk (.apply op) (hl.hasSent.applies hn h) (hl.hasQueued.applies h)

theorem withdrawn (h : Alters numbers ids t s s') {p : Pkt} (hp : s.Withdrawn numbers ids p) :
    s'.Withdrawn numbers ids p := by
  refine ⟨hp.1, ?_⟩
  intro j w l hw
  obtain ⟨w', l', hw'⟩ := h.waiting j p w l hw
  exact hp.2 j w' l' hw'

variable {p : Pkt}

section

variable (h : Alters numbers ids t s s')

include h

theorem not_withdrawn (hl : s.Ledger numbers ids) (hne : p ≠ t) (hp : ¬ s.Withdrawn numbers ids p) :
    ¬ s'.Withdrawn numbers ids p := by
  rintro ⟨hnum, hwait⟩
  refine hp ⟨hnum, ?_⟩
  intro j w l hw
  have hj : ids[j]? ≠ some t := by
    rw [(hl.waiting j p w l hw).1]
    exact fun heq => hne (Option.some.inj heq)
  rcases h.queued j hj with heq | ⟨-, hnw⟩
  · exact hwait j w l (heq.trans hw)
  · exact hnw p w l hw

theorem holds (hl : s.Ledger numbers ids) (hne : p ≠ t) {kind : FutureKind} {packetId : PacketId}
    (hp : Holds s numbers ids p kind packetId) : Holds s' numbers ids p kind packetId := by
  cases packetId with
  | queued id =>
    obtain ⟨j, hj, hid, hnw⟩ := hp
    exact ⟨j, hj, hid, h.not_withdrawn hl hne hnw⟩
  | sent sn => exact hp
  | acked =>
    obtain ⟨k, hk, hacked⟩ := hp
    exact ⟨k, hk, h.acked k hacked⟩
  | canceled => exact ⟨hp.1, h.withdrawn hp.2⟩

theorem waiting_other (hne : p ≠ t) {w : Waker} (hw : s'.queued ids.length j = .waiting p w l) :
    s.queued ids.length j = .waiting p w l := by
  have hj : ids[j]? ≠ some t := by
    rw [(h.ledger.waiting j p w l hw).1]
    exact fun heq => hne (Option.some.inj heq)
  rcases h.queued j hj with heq | ⟨hgone, -⟩
  · exact heq.symm.trans hw
  · rw [hgone] at hw
    cases hw

theorem status_other (hne : p ≠ t) (hk : numbers[k]? = some p) :
    s'.status numbers.length k = s.status numbers.length k := by
  apply h.status
  rw [hk]
  exact fun heq => hne (Option.some.inj heq)

theorem plain (hne : p ≠ t) (hp : Plain s numbers ids p) : Plain s' numbers ids p :=
  ⟨fun j w l hw => hp.waiting j w l (h.waiting_other hne hw),
    fun k hk => h.status_other hne hk ▸ hp.status k hk⟩

theorem leakFree (hne : p ≠ t) (hp : LeakFree s numbers ids p) : LeakFree s' numbers ids p :=
  ⟨fun j w l hw => hp.waiting j w l (h.waiting_other hne hw),
    fun k hk => h.status_other hne hk ▸ hp.status k hk⟩

end

end Alters

/-! ## Locating the packet -/

/-- The packet has a number, and the queues know what `lookup_seq_num` says about it. -/
def Located (s : Sender Pkt) (numbers : List Pkt) (t : Pkt) (packetId : PacketId) : Prop :=
  (∃ k, packetId = .sent (BitVec.ofNat 64 k) ∧ numbers[k]? = some t) ∨
  packetId = .acked ∧ ∃ k, numbers[k]? = some t ∧ (s.status numbers.length k).isAcked = true

theorem waits_nowhere (hl : s.Ledger numbers ids) (hid : ids[j]? = some t)
    (hnot : ∀ w l, s.queued ids.length j ≠ .waiting t w l) :
    ∀ i w l, s.queued ids.length i ≠ .waiting t w l := by
  intro i w l hw
  obtain rfl := Sender.eq_of_getElem? hl.ids_nodup (hl.waiting i t w l hw).1 hid
  exact hnot w l hw

/-- A queued packet that nobody withdrew still waits, was sent, or is settled. -/
theorem locate (hl : s.Ledger numbers ids) (hid : ids[j]? = some t)
    (hnw : ¬ s.Withdrawn numbers ids t) :
    (∃ w l, s.queued ids.length j = .waiting t w l) ∨
    (∃ k, s.queued ids.length j = .sentAs (BitVec.ofNat 64 k) ∧ numbers[k]? = some t) ∨
    (s.queued ids.length j = .gone ∧
      ∃ k, numbers[k]? = some t ∧ (s.status numbers.length k).isAcked = true) := by
  -- a packet that waits nowhere but is not withdrawn has a number
  have hnumbered : (∀ w l, s.queued ids.length j ≠ .waiting t w l) → ∃ k : Nat, numbers[k]? = some t := by
    intro hnot
    by_contra hnone
    exact hnw ⟨fun hmem => hnone (List.getElem?_of_mem hmem), waits_nowhere hl hid hnot⟩
  cases hst : s.queued ids.length j with
  | waiting p w l =>
    cases hid.symm.trans (hl.waiting j p w l hst).1
    exact .inl ⟨w, l, rfl⟩
  | sentAs sn =>
    obtain ⟨k, p, rfl, hnum, hid'⟩ := hl.sentAs j sn hst
    cases hid.symm.trans hid'
    exact .inr (.inl ⟨k, rfl, hnum⟩)
  | gone =>
    obtain ⟨k, hk⟩ := hnumbered fun w l h => by rw [hst] at h; cases h
    exact .inr (.inr ⟨rfl, k, hk, hl.gone j k t hst hid hk⟩)
  | canceled =>
    obtain ⟨k, hk⟩ := hnumbered fun w l h => by rw [hst] at h; cases h
    exact absurd (List.mem_of_getElem? hk) (hl.canceled j t hst hid)

theorem not_withdrawn_of_mem (hk : numbers[k]? = some t) : ¬ s.Withdrawn numbers ids t :=
  fun h => h.1 (List.mem_of_getElem? hk)

theorem Holds.kind_mono {kind : FutureKind} {packetId : PacketId}
    (h : Holds s numbers ids t kind packetId) :
    Holds s numbers ids t .ackedOrCanceled packetId := by
  cases packetId with
  | queued | sent | acked => exact h
  | canceled => exact ⟨rfl, h.2⟩

theorem Holds.of_sent {kind : FutureKind} {packetId : PacketId}
    (h : Holds s numbers ids t .sent packetId) : Holds s numbers ids t kind packetId := by
  cases packetId with
  | queued | sent | acked => exact h
  | canceled => cases h.1

theorem Located.holds {kind : FutureKind} {packetId : PacketId}
    (h : Located s numbers t packetId) (hp : Plain s numbers ids t) :
    Holds s numbers ids t kind packetId := by
  rcases h with ⟨k, rfl, hk⟩ | ⟨rfl, k, hk, hacked⟩
  · exact ⟨k, rfl, hk⟩
  · exact ⟨k, hk, (hp.status k hk).eq_acked hacked⟩

theorem Holds.static {kind : FutureKind} {packetId : PacketId}
    (h : Holds s numbers ids t kind packetId) :
    ∀ id, packetId = .queued id → ∃ j, id = BitVec.ofNat 64 j ∧ ids[j]? = some t := by
  rintro id rfl
  obtain ⟨j, hj, hid, -⟩ := h
  exact ⟨j, hj, hid⟩

/-! ## Operations on the sender -/

section

variable (hl : s.Ledger numbers ids) {cx : Waker} {packetId packetId' : PacketId}
  {kind : FutureKind} {peer : Option (Sender Pkt)} {cancels : List SeqNum} {limit : UInt8}

include hl

section

variable (hn : numbers.length < 2 ^ 63)

include hn

theorem requestCancelSent_spec (hloc : Located s numbers t packetId)
    (h : Sent.requestCancelSent (some s) packetId = some (packetId', peer, cancels)) :
    ∃ s', peer = some s' ∧ Alters numbers ids t s s' ∧
      Holds s' numbers ids t .ackedOrCanceled packetId' := by
  rcases hloc with ⟨k, rfl, hk⟩ | ⟨rfl, -⟩
  · obtain ⟨⟨pkt, s'⟩, hc, heq⟩ := Option.map_eq_some_iff.mp h
    cases heq
    exact ⟨s', rfl, .applies hl hn hk (Sender.cancelSentPacket_effect hc), k, rfl, hk⟩
  · cases h

theorem pollAck_spec (hk : numbers[k]? = some t) {r : Poll Unit}
    (h : s.pollAck cx (BitVec.ofNat 64 k) = some (r, s')) :
    Alters numbers ids t s s' ∧ (Plain s numbers ids t → Plain s' numbers ids t) := by
  have hev := hl.hasSent.applies hn (Sender.pollAck_effect h)
  have ht := hl.hasQueued.applies (Sender.pollAck_effect h)
  refine ⟨.onSeqNum hl hn hk (.apply (.setWaker cx)) hev ht, fun hp => ⟨fun j w l hw => ?_, fun i hi => ?_⟩⟩
  · rcases ht.queued j with heq | ⟨hgone, -⟩
    · exact hp.waiting j w l (heq ▸ hw)
    · rw [hgone] at hw
      cases hw
  · rw [hev.status_eq hl.hasSent fun i => (Lawful.apply (.setWaker cx)).onSeqNum _ i]
    unfold Sender.onSeqNum
    split
    · exact (hp.status i hi).setWaker cx
    · exact hp.status i hi

omit hn in
theorem leakFree_of_status (hk : numbers[k]? = some t)
    (hst : ¬ (s.status numbers.length k).Leaky) : LeakFree s numbers ids t := by
  refine ⟨fun j w l hw => absurd (List.mem_of_getElem? hk) (hl.waiting j t w l hw).2, fun i hi => ?_⟩
  obtain rfl := Sender.eq_of_getElem? hl.numbers_nodup hi hk
  exact hst

theorem forget_spec (hk : numbers[k]? = some t)
    (h : s.forgetCanceledPacket (BitVec.ofNat 64 k) = some s') :
    Alters numbers ids t s s' ∧ LeakFree s' numbers ids t := by
  have hev := hl.hasSent.settles hn (Sender.forgetCanceledPacket_effect h)
  have halt := Alters.onSeqNum hl hn hk (.apply .forget) hev
    (hl.hasQueued.settles (Sender.forgetCanceledPacket_effect h))
  refine ⟨halt, leakFree_of_status halt.ledger hk ?_⟩
  rw [hev.status k (Sender.lt_of_getElem? hk), Sender.onSeqNum, if_pos rfl]
  exact UnackedState.not_leaky_forget _

/-- Forgetting leaves no leak behind, unless the future still caches a queue id. -/
theorem forgetInternal_spec (hh : Holds s numbers ids t .ackedOrCanceled packetId)
    (h : AckedOrCanceled.forgetInternal (some s) packetId = some peer) :
    ∃ s', peer = some s' ∧ Alters numbers ids t s s' ∧
      (LeakFree s' numbers ids t ∨ (∃ id, packetId = .queued id) ∧ s' = s) := by
  cases packetId with
  | sent sn =>
    obtain ⟨s', hs', rfl⟩ := Option.map_eq_some_iff.mp h
    obtain ⟨k, rfl, hk⟩ := hh
    obtain ⟨halt, hfree⟩ := forget_spec hl hn hk hs'
    exact ⟨s', rfl, halt, .inl hfree⟩
  | queued id =>
    cases h
    exact ⟨s, rfl, .refl hl, .inr ⟨⟨id, rfl⟩, rfl⟩⟩
  | canceled =>
    cases h
    exact ⟨s, rfl, .refl hl, .inl (plain_of_withdrawn hh.2).leakFree⟩
  | acked =>
    cases h
    obtain ⟨k, hk, hacked⟩ := hh
    refine ⟨s, rfl, .refl hl, .inl (leakFree_of_status hl hk ?_)⟩
    rw [hacked]
    exact id

end

variable (hm : ids.length < 2 ^ 63)

include hm

/-- A poll for the sending finds the packet waiting, or locates it and changes nothing. -/
theorem pollSend_spec (hid : ids[j]? = some t) (hnw : ¬ s.Withdrawn numbers ids t)
    {r : Poll (Option SeqNum)} (h : s.pollSend cx (BitVec.ofNat 64 j) = some (r, s')) :
    (r = .pending ∧ Alters numbers ids t s s' ∧ ¬ s'.Withdrawn numbers ids t ∧
      (Plain s numbers ids t → Plain s' numbers ids t)) ∨
    (∃ k, r = .ready (some (BitVec.ofNat 64 k)) ∧ s' = s ∧ numbers[k]? = some t) ∨
    (r = .ready none ∧ s' = s ∧ s.lookupSeqNum (BitVec.ofNat 64 j) = some none ∧
      ∃ k, numbers[k]? = some t ∧ (s.status numbers.length k).isAcked = true) := by
  have hj := Sender.lt_of_getElem? hid
  have hev := hl.hasSent.pollSend h
  rcases hl.hasQueued.pollSend hm hj h with
    ⟨p, w, l, rfl, hw, hq, hupd⟩ | ⟨sn, rfl, rfl, hsent⟩ | ⟨rfl, rfl, hst⟩
  · cases hid.symm.trans (hl.waiting j p w l hw).1
    have halt := Alters.requeue hl hw (.inr ⟨cx, l, rfl⟩) hev hq hupd
    refine .inl ⟨rfl, halt, ?_, fun hp => ⟨?_, ?_⟩⟩
    · intro hwd
      exact hwd.2 j cx l (by rw [hupd, Function.update_self])
    · intro i w' l' hw'
      rw [hupd] at hw'
      by_cases hi : i = j
      · subst hi
        rw [Function.update_self] at hw'
        cases hw'
        exact hp.waiting i w l hw
      · rw [Function.update_of_ne hi] at hw'
        exact hp.waiting i w' l' hw'
    · intro k hk
      rw [hev.status_eq hl.hasSent fun _ => .id]
      exact hp.status k hk
  · obtain ⟨k, p, rfl, hk, hid'⟩ := hl.sentAs j sn hsent
    cases hid.symm.trans hid'
    exact .inr (.inl ⟨k, rfl, rfl, hk⟩)
  · have hlook : s'.lookupSeqNum (BitVec.ofNat 64 j) = some none := by
      rcases Sender.pollSend_moves h with ⟨_, _, _, _, hr, -⟩ | ⟨o, hr, -, ho, -⟩ <;> cases hr
      exact ho
    rcases locate hl hid hnw with ⟨w, l, hw⟩ | ⟨k, hsent, -⟩ | ⟨-, hk⟩
    · rw [hw] at hst
      rcases hst with hst | hst <;> cases hst
    · rw [hsent] at hst
      rcases hst with hst | hst <;> cases hst
    · exact .inr (.inr ⟨rfl, rfl, hlook, hk⟩)

theorem cancelQueuedPacket_alters (hid : ids[j]? = some t) {r : Option Pkt}
    (h : s.cancelQueuedPacket (BitVec.ofNat 64 j) = some (r, s')) :
    (r = none ∧ s' = s ∧ ∀ w l, s.queued ids.length j ≠ .waiting t w l) ∨
    (r.isSome = true ∧ Alters numbers ids t s s' ∧ s'.Withdrawn numbers ids t) := by
  have hj := Sender.lt_of_getElem? hid
  rcases hl.hasQueued.cancelQueuedPacket hm hj h with ⟨hr, heq, hnot⟩ | ⟨p, w, l, rfl, hw, hq, hupd⟩
  · exact .inl ⟨hr, heq, fun w l => hnot t w l⟩
  obtain ⟨hid', hnum⟩ := hl.waiting j p w l hw
  cases hid.symm.trans hid'
  have hev := hl.hasSent.cancelQueuedPacket h
  refine .inr ⟨rfl, .requeue hl hw (.inl rfl) hev hq hupd, hnum, ?_⟩
  intro i w' l' hw'
  rw [hupd] at hw'
  by_cases hi : i = j
  · subst hi
    rw [Function.update_self] at hw'
    cases hw'
  · rw [Function.update_of_ne hi] at hw'
    exact hi (Sender.eq_of_getElem? hl.ids_nodup (hl.waiting i t w' l' hw').1 hid)

/-- Dropping or cancelling: the packet is withdrawn, or nothing happens and it is located. -/
theorem tryCancelInternal_spec {pkt : Option Pkt}
    (hh : ∀ id, packetId = .queued id → ∃ j, id = BitVec.ofNat 64 j ∧ ids[j]? = some t)
    (h : Sent.tryCancelInternal (some s) packetId = some (pkt, packetId', peer)) :
    (∃ s', peer = some s' ∧ pkt.isSome = true ∧ packetId' = packetId ∧ Alters numbers ids t s s' ∧
      s'.Withdrawn numbers ids t) ∨
    (peer = some s ∧ pkt = none ∧
      ((∀ id, packetId ≠ .queued id) ∧ packetId' = packetId ∨
        (∃ id, packetId = .queued id) ∧ (∀ j w l, s.queued ids.length j ≠ .waiting t w l) ∧
        (¬ s.Withdrawn numbers ids t → Located s numbers t packetId'))) := by
  cases packetId with
  | sent | acked | canceled =>
    cases h
    exact .inr ⟨rfl, rfl, .inl ⟨nofun, rfl⟩⟩
  | queued id =>
    obtain ⟨j, rfl, hid⟩ := hh id rfl
    simp only [Sent.tryCancelInternal] at h
    split at h
    · cases h
    · next hc =>
      cases h
      rcases cancelQueuedPacket_alters hl hm hid hc with ⟨⟨⟩, -⟩ | ⟨hsome, halt, hw⟩
      exact .inl ⟨_, rfl, hsome, rfl, halt, hw⟩
    next hc =>
    obtain ⟨sn, hlook, heq⟩ := Option.map_eq_some_iff.mp h
    cases heq
    rcases cancelQueuedPacket_alters hl hm hid hc with ⟨-, rfl, hnot⟩ | ⟨⟨⟩, -⟩
    refine .inr ⟨rfl, rfl, .inr ⟨⟨_, rfl⟩, waits_nowhere hl hid hnot, fun hnw => ?_⟩⟩
    rcases hl.hasQueued.lookupSeqNum_cases hm (Sender.lt_of_getElem? hid) hlook with
      ⟨sn, rfl, hst⟩ | ⟨rfl, hst⟩
    · obtain ⟨k, p, rfl, hnum, hid'⟩ := hl.sentAs j sn hst
      cases hid.symm.trans hid'
      exact .inl ⟨k, rfl, hnum⟩
    · rcases locate hl hid hnw with ⟨w, l, hw⟩ | ⟨k, hsent, -⟩ | ⟨-, k, hnum, hacked⟩
      · exact absurd hw (hnot w l)
      · rw [hsent] at hst
        rcases hst with hst | hst <;> cases hst
      · exact .inr ⟨rfl, k, hnum, hacked⟩

theorem sent_drop_spec
    (hh : ∀ id, packetId = .queued id → ∃ j, id = BitVec.ofNat 64 j ∧ ids[j]? = some t)
    (h : Sent.drop (some s) packetId = some peer) :
    (∃ s', peer = some s' ∧ Alters numbers ids t s s' ∧ s'.Withdrawn numbers ids t) ∨
    (peer = some s ∧ ((∀ id, packetId ≠ .queued id) ∨
      ∀ j w l, s.queued ids.length j ≠ .waiting t w l)) := by
  obtain ⟨⟨pkt, packetId', peer'⟩, hc, rfl⟩ := Option.map_eq_some_iff.mp h
  rcases tryCancelInternal_spec hl hm hh hc with ⟨s', hpeer, -, -, halt, hw⟩ | ⟨hpeer, -, hrest⟩
  · exact .inl ⟨s', hpeer, halt, hw⟩
  · exact .inr ⟨hpeer, hrest.imp And.left fun h => h.2.1⟩

variable (hn : numbers.length < 2 ^ 63)

include hn

theorem requestCancelInternal_spec (hh : Holds s numbers ids t kind packetId)
    (h : Sent.requestCancelInternal (some s) packetId = some (packetId', peer, cancels)) :
    ∃ s', peer = some s' ∧ Alters numbers ids t s s' ∧
      Holds s' numbers ids t .ackedOrCanceled packetId' := by
  cases packetId with
  | acked | canceled =>
    cases h
    exact ⟨s, rfl, .refl hl, hh.kind_mono⟩
  | sent sn =>
    obtain ⟨k, rfl, hk⟩ := hh
    exact requestCancelSent_spec hl hn (.inl ⟨k, rfl, hk⟩) h
  | queued id =>
    have hstatic := hh.static
    obtain ⟨j, rfl, hid, hnw⟩ := hh
    simp only [Sent.requestCancelInternal] at h
    split at h
    · cases h
    · next hc =>
      cases h
      rcases tryCancelInternal_spec hl hm hstatic hc with ⟨s', hpeer, -, -, halt, hw⟩ | ⟨-, ⟨⟩, -⟩
      exact ⟨s', hpeer, halt, rfl, hw⟩
    · next hc =>
      rcases tryCancelInternal_spec hl hm hstatic hc with
        ⟨-, -, hsome, -⟩ | ⟨rfl, -, ⟨hne, -⟩ | ⟨-, -, hloc⟩⟩
      · cases hsome
      · exact absurd rfl (hne _)
      · exact requestCancelSent_spec hl hn (hloc hnw) h

theorem limitRetriesInternal_spec (hh : Holds s numbers ids t kind packetId)
    (h : Sent.limitRetriesInternal (some s) packetId limit = some peer) :
    ∃ s', peer = some s' ∧ Alters numbers ids t s s' ∧
      Holds s' numbers ids t .ackedOrCanceled packetId := by
  cases packetId with
  | acked | canceled =>
    cases h
    exact ⟨s, rfl, .refl hl, hh.kind_mono⟩
  | sent sn =>
    obtain ⟨s', hs', rfl⟩ := Option.map_eq_some_iff.mp h
    obtain ⟨k, rfl, hk⟩ := hh
    exact ⟨s', rfl, Alters.applies hl hn hk (Sender.limitRetriesBySeqNum_effect hs'), k, rfl, hk⟩
  | queued id =>
    obtain ⟨s', hs', rfl⟩ := Option.map_eq_some_iff.mp h
    obtain ⟨j, rfl, hid, hnw⟩ := hh
    rcases hl.hasQueued.limitRetriesById hl.hasSent hm (Sender.lt_of_getElem? hid) hs' with
      ⟨p, w, l, hw, hev, hq, hupd⟩ | ⟨sn, hsent, hs''⟩ | ⟨hnot, hev, hq, heq⟩
    · cases hid.symm.trans (hl.waiting j p w l hw).1
      refine ⟨s', rfl, .requeue hl hw (.inr ⟨_, _, rfl⟩) hev hq hupd, j, rfl, hid, ?_⟩
      intro hwd
      exact hwd.2 j _ _ (by rw [hupd, Function.update_self])
    · obtain ⟨k, p, rfl, hk, hid'⟩ := hl.sentAs j sn hsent
      cases hid.symm.trans hid'
      have halt := Alters.applies hl hn hk (Sender.limitRetriesBySeqNum_effect hs'')
      exact ⟨s', rfl, halt, j, rfl, hid, not_withdrawn_of_mem hk⟩
    · have hev' := hl.trims hn hev (fun _ => .id) ⟨hq, fun i => .inl (congrFun heq i)⟩
      have hstatus := hev.status_eq hl.hasSent fun _ => .id
      refine ⟨s', rfl, ⟨hev', fun k _ => hstatus k, fun k hk => (hstatus k).trans hk,
        fun i _ => .inl (congrFun heq i), fun i p w l hw => ⟨w, l, heq ▸ hw⟩⟩, j, rfl, hid, ?_⟩
      rintro ⟨hnum, hwait⟩
      exact hnw ⟨hnum, fun i w l hw => hwait i w l (heq ▸ hw)⟩

end

/-! ## Polls -/

/-- What a poll of a future for packet `t` leaves behind. It resolves to what the sender knows about
    the packet, unless the record behind a cached queue id is gone: the answer is `Acked` then,
    even for a cancelled packet. -/
structure Polls (numbers ids : List Pkt) (t : Pkt) (kind : FutureKind) (packetId : PacketId)
    (s s' : Sender Pkt) (r : Poll Resolution) (packetId' : PacketId) : Prop where
  alters : Alters numbers ids t s s'
  holds : Holds s' numbers ids t kind packetId'
  plain : kind ≠ .ackedOrCanceled → Plain s' numbers ids t
  answer : r = .pending ∨ ∃ resolution, r = .ready resolution ∧ (resolution = .sent ↔ kind = .sent) ∧
    (kind = .sent → ∀ id, packetId' ≠ .queued id) ∧ ∀ status, resolution = .status status →
      kind = .ackedOrCanceled ∧
        (Tells s numbers ids t status ∨ Misleads s numbers t packetId status)

section

variable {cx : Waker} {packetId packetId' : PacketId} {kind : FutureKind}
  {peer : Option (Sender Pkt)} {r : Poll Resolution} (hl : s.Ledger numbers ids)
  (hn : numbers.length < 2 ^ 63) (hp : kind ≠ .ackedOrCanceled → Plain s numbers ids t)

include hl hn hp

theorem pollAs_sent_spec (packetId : PacketId) (hkind : kind ≠ .sent) (hk : numbers[k]? = some t)
    (h : pollAs (some s) cx (.sent (BitVec.ofNat 64 k)) kind = some (r, packetId', peer)) :
    ∃ s', peer = some s' ∧ Polls numbers ids t kind packetId s s' r packetId' := by
  rw [pollAs_sent hkind] at h
  obtain ⟨⟨_ | _, s'⟩, hpoll, h⟩ := Option.bind_eq_some_iff.mp h
  · obtain ⟨resolution, hres, heq⟩ := Option.map_eq_some_iff.mp h
    cases heq
    have hlt := Sender.lt_of_getElem? hk
    obtain ⟨rfl, -⟩ := hl.hasSent.pollAck_ready hn hlt hpoll
    refine ⟨s', rfl, .refl hl, ⟨k, rfl, hk⟩, hp, .inr ⟨resolution, rfl, ?_, fun h => absurd h hkind, ?_⟩⟩
    · cases kind with
      | sent => exact absurd rfl hkind
      | acked =>
        cases hres
        simp
      | ackedOrCanceled =>
        obtain ⟨b, -, rfl⟩ := Option.map_eq_some_iff.mp hres
        simp
    · rintro status rfl
      cases kind with
      | sent | acked => cases hres
      | ackedOrCanceled =>
        obtain ⟨b, hb, heq⟩ := Option.map_eq_some_iff.mp hres
        have hst := hl.hasSent.isCancelAcked_ofNat hn hlt hb
        refine ⟨rfl, .inl ?_⟩
        cases b <;> cases heq
        · exact ⟨k, hk, hst⟩
        · exact .inr ⟨k, hk, hst⟩
  · cases h
    obtain ⟨halt, hplain⟩ := pollAck_spec hl hn hk hpoll
    exact ⟨s', rfl, halt, ⟨k, rfl, hk⟩, fun h => hplain (hp h), .inl rfl⟩

theorem pollAs_spec (hm : ids.length < 2 ^ 63) (hh : Holds s numbers ids t kind packetId)
    (h : pollAs (some s) cx packetId kind = some (r, packetId', peer)) :
    ∃ s', peer = some s' ∧ Polls numbers ids t kind packetId s s' r packetId' := by
  cases packetId with
  | acked =>
    obtain ⟨rfl, rfl, rfl⟩ : r = .ready kind.onGone ∧ packetId' = .acked ∧ peer = some s := by
      cases kind <;> cases h <;> exact ⟨rfl, rfl, rfl⟩
    refine ⟨s, rfl, .refl hl, hh, hp, .inr ⟨_, rfl, ?_, by simp, ?_⟩⟩
    · cases kind <;> simp [FutureKind.onGone]
    · intro status hs
      cases kind <;> cases hs
      exact ⟨rfl, .inl hh⟩
  | canceled =>
    obtain ⟨rfl, hw⟩ := hh
    cases h
    refine ⟨s, rfl, .refl hl, ⟨rfl, hw⟩, hp, .inr ⟨_, rfl, by simp, by simp, ?_⟩⟩
    rintro _ ⟨⟩
    exact ⟨rfl, .inl (.inl hw)⟩
  | sent sn =>
    obtain ⟨k, rfl, hk⟩ := hh
    by_cases hkind : kind = .sent
    · subst hkind
      cases h
      exact ⟨s, rfl, .refl hl, ⟨k, rfl, hk⟩, hp, .inr ⟨_, rfl, by simp, by simp, by simp⟩⟩
    · exact pollAs_sent_spec hl hn hp _ hkind hk h
  | queued id =>
    -- the queue id is resolved first, and that is all a `Sent` waits for
    obtain ⟨j, rfl, hid, hnw⟩ := hh
    by_cases hkind : kind = .sent
    · subst hkind
      simp only [pollAs, Sent.poll] at h
      split at h
      · cases h
      · next hpoll =>
        cases h
        rcases pollSend_spec hl hm hid hnw hpoll with ⟨-, halt, hnw', hp'⟩ | ⟨_, ⟨⟩, -⟩ | ⟨⟨⟩, -⟩
        exact ⟨_, rfl, halt, ⟨j, rfl, hid, hnw'⟩, fun h => hp' (hp h), .inl rfl⟩
      next hpoll =>
      cases h
      rcases pollSend_spec hl hm hid hnw hpoll with
        ⟨hr, -⟩ | ⟨k, hr, rfl, hk⟩ | ⟨hr, rfl, -, k, hk, hacked⟩ <;> cases hr
      · exact ⟨_, rfl, .refl hl, ⟨k, rfl, hk⟩, hp,
          .inr ⟨_, rfl, by simp, by rintro - _ ⟨⟩, by simp⟩⟩
      · exact ⟨_, rfl, .refl hl, ⟨k, hk, ((hp (by simp)).status k hk).eq_acked hacked⟩, hp,
          .inr ⟨_, rfl, by simp, by rintro - _ ⟨⟩, by simp⟩⟩
    · rw [pollAs_queued hkind] at h
      obtain ⟨⟨o, u⟩, hpoll, hrest⟩ := Option.bind_eq_some_iff.mp h
      rcases pollSend_spec hl hm hid hnw hpoll with
        ⟨rfl, halt, hnw', hp'⟩ | ⟨k, rfl, rfl, hk⟩ | ⟨rfl, rfl, hlook, k, hk, hacked⟩
      · cases hrest
        exact ⟨u, rfl, halt, ⟨j, rfl, hid, hnw'⟩, fun h => hp' (hp h), .inl rfl⟩
      · exact pollAs_sent_spec hl hn hp _ hkind hk hrest
      cases hrest
      refine ⟨u, rfl, .refl hl, ⟨j, rfl, hid, hnw⟩, hp,
        .inr ⟨_, rfl, ?_, fun h => absurd h hkind, ?_⟩⟩
      · cases kind <;> simp_all [FutureKind.onGone]
      intro status hs
      cases kind <;> cases hs
      refine ⟨rfl, ?_⟩
      cases hst : u.status numbers.length k with
      | acked => exact .inl ⟨k, hk, hst⟩
      | cancelAcked => exact .inr ⟨rfl, _, rfl, hlook, k, hk, hst⟩
      | unacked | cancelRequested =>
        rw [hst] at hacked
        cases hacked

end

/-! ## One step of a future -/

/-- The release of an `AckedOrCanceled` that forgets nothing, because it still caches a queue
    id: it is enqueued, or dropped when there is nothing left to cancel. -/
def Overlooks (s : Sender Pkt) (ids : List Pkt) (t : Pkt) (packetId : PacketId) (op : FutureOp) :
    Prop :=
  (∃ id, packetId = .queued id) ∧
    (op = .enqueue ∨ op = .drop ∧ ∀ j w l, s.queued ids.length j ≠ .waiting t w l)

/-- What an operation on a future for packet `t` does to the sender and leaves behind. -/
structure Handled (numbers ids : List Pkt) (t : Pkt) (kind : FutureKind) (packetId : PacketId)
    (op : FutureOp) (s s' : Sender Pkt) (r : FutureStep Pkt) : Prop where
  alters : Alters numbers ids t s s'
  /-- the future still holds its packet -/
  future : ∀ kind' packetId', r.future = some (kind', packetId') →
    Holds s' numbers ids t kind' packetId' ∧
      (kind' ≠ .ackedOrCanceled → Plain s' numbers ids t)
  /-- a consumed future leaves no leak behind, unless it still cached a queue id -/
  released : r.future = none → LeakFree s' numbers ids t ∨
    kind = .ackedOrCanceled ∧ Overlooks s ids t packetId op ∧ s' = s
  spawned : ∀ packetId', r.spawned = some packetId' →
    Holds s' numbers ids t .acked packetId' ∧ Plain s' numbers ids t ∧
      (∀ id, packetId' ≠ .queued id) ∧ r.future = some (.sent, packetId') ∧
      r.resolution = some .sent
  resolved_sent : r.resolution.isSome = true → ∀ packetId', r.future = some (.sent, packetId') →
    r.spawned = some packetId'
  status : ∀ status, r.resolution = some (.status status) →
    kind = .ackedOrCanceled ∧
      (Tells s numbers ids t status ∨ Misleads s numbers t packetId status)

variable {op : FutureOp} {kind : FutureKind} {packetId packetId' : PacketId}
  {peer : Option (Sender Pkt)} {cx : Waker} {r : FutureStep Pkt}

section

variable (halt : Alters numbers ids t s s')

include halt

theorem Handled.unresolved {kind' : FutureKind} {cancels : List SeqNum}
    (hh : Holds s' numbers ids t kind' packetId')
    (hp : kind' ≠ .ackedOrCanceled → Plain s' numbers ids t) :
    Handled numbers ids t kind packetId op s s'
      ⟨peer, cancels, some (kind', packetId'), none, none⟩ where
  alters := halt
  future _ _ h := by
    cases h
    exact ⟨hh, hp⟩
  released := nofun
  spawned := nofun
  resolved_sent := nofun
  status := nofun

theorem Handled.consumed (hfree : LeakFree s' numbers ids t ∨
      kind = .ackedOrCanceled ∧ Overlooks s ids t packetId op ∧ s' = s) :
    Handled numbers ids t kind packetId op s s' ⟨peer, [], none, none, none⟩ where
  alters := halt
  future := nofun
  released _ := hfree
  spawned := nofun
  resolved_sent := nofun
  status := nofun

theorem Handled.resolved {resolution : Resolution} (hh : Holds s' numbers ids t kind packetId')
    (hp : kind ≠ .ackedOrCanceled → Plain s' numbers ids t)
    (hsent : resolution = .sent ↔ kind = .sent) (hid : kind = .sent → ∀ id, packetId' ≠ .queued id)
    (hstatus : ∀ status, resolution = .status status → kind = .ackedOrCanceled ∧
      (Tells s numbers ids t status ∨ Misleads s numbers t packetId status)) :
    Handled numbers ids t kind packetId op s s' ⟨peer, [], some (kind, packetId'),
      some resolution, if resolution = .sent then some packetId' else none⟩ where
  alters := halt
  future _ _ h := by
    cases h
    exact ⟨hh, hp⟩
  released := nofun
  spawned _ h := by
    obtain ⟨hres, heq⟩ := Option.ite_none_right_eq_some.mp h
    cases heq
    obtain rfl := hsent.mp hres
    exact ⟨hh.of_sent, hp nofun, hid rfl, rfl, congrArg some hres⟩
  resolved_sent _ _ h := by
    cases h
    exact if_pos (hsent.mpr rfl)
  status _ h := hstatus _ (Option.some.inj h)

end

section

variable (hl : s.Ledger numbers ids) (hm : ids.length < 2 ^ 63)

include hl hm

/-- `try_cancel`: the packet is withdrawn and the future gone, or an `Acked` is left. -/
theorem Handled.tryCancel (hh : Holds s numbers ids t .sent packetId) (hp : Plain s numbers ids t)
    (h : FutureOp.run (some s) .sent packetId .tryCancel = some r) :
    ∃ s', r.peer = some s' ∧ Handled numbers ids t .sent packetId .tryCancel s s' r := by
  simp only [FutureOp.run] at h
  split at h
  · cases h
  · next hc =>
    obtain ⟨peer, hd, rfl⟩ := Option.map_eq_some_iff.mp h
    rcases tryCancelInternal_spec hl hm hh.static hc with
      ⟨s', rfl, -, rfl, halt, hw⟩ | ⟨-, ⟨⟩, -⟩
    -- the second cancellation, of the drop, finds nothing left to cancel
    rcases sent_drop_spec halt.ledger hm hh.static hd with ⟨s'', rfl, halt', hw'⟩ | ⟨rfl, -⟩
    · exact ⟨s'', rfl, .consumed (halt.trans halt') (.inl (plain_of_withdrawn hw').leakFree)⟩
    · exact ⟨s', rfl, .consumed halt (.inl (plain_of_withdrawn hw).leakFree)⟩
  · next hc =>
    cases h
    rcases tryCancelInternal_spec hl hm hh.static hc with ⟨-, -, ⟨⟩, -⟩ | ⟨rfl, -, hrest⟩
    refine ⟨s, rfl, .unresolved (.refl hl) ?_ fun _ => hp⟩
    rcases hrest with ⟨-, rfl⟩ | ⟨⟨id, rfl⟩, -, hloc⟩
    · exact hh.of_sent
    · obtain ⟨_, -, -, hnw⟩ := hh
      exact (hloc hnw).holds hp

variable (hn : numbers.length < 2 ^ 63)

include hn

theorem Handled.drop (hh : Holds s numbers ids t kind packetId)
    (hp : kind ≠ .ackedOrCanceled → Plain s numbers ids t)
    (h : FutureOp.run (some s) kind packetId .drop = some r) :
    ∃ s', r.peer = some s' ∧ Handled numbers ids t kind packetId .drop s s' r := by
  obtain ⟨peer, hd, rfl⟩ := Option.map_eq_some_iff.mp h
  cases kind with
  | sent | acked =>
    rcases sent_drop_spec hl hm hh.static hd with ⟨s', rfl, halt, hw⟩ | ⟨rfl, -⟩
    · exact ⟨s', rfl, .consumed halt (.inl (plain_of_withdrawn hw).leakFree)⟩
    · exact ⟨s, rfl, .consumed (.refl hl) (.inl (hp nofun).leakFree)⟩
  | ackedOrCanceled =>
    obtain ⟨peer', hf, hd⟩ := Option.bind_eq_some_iff.mp hd
    obtain ⟨s', rfl, halt, hfree⟩ := forgetInternal_spec hl hn hh hf
    rcases sent_drop_spec halt.ledger hm hh.static hd with ⟨s'', rfl, halt', hw⟩ | ⟨rfl, hnot⟩
    · exact ⟨s'', rfl, .consumed (halt.trans halt') (.inl (plain_of_withdrawn hw).leakFree)⟩
    · refine ⟨s', rfl, .consumed halt (hfree.imp id ?_)⟩
      rintro ⟨⟨id, rfl⟩, rfl⟩
      exact ⟨rfl, ⟨⟨id, rfl⟩, .inr ⟨rfl, hnot.resolve_left fun h => h id rfl⟩⟩, rfl⟩

/-- Every operation on a future that holds its packet acts on that packet only. -/
theorem FutureOp.run_handled (hh : Holds s numbers ids t kind packetId)
    (hp : kind ≠ .ackedOrCanceled → Plain s numbers ids t)
    (h : op.run (some s) kind packetId = some r) :
    ∃ s', r.peer = some s' ∧ Handled numbers ids t kind packetId op s s' r := by
  cases op with
  | isSent =>
    obtain ⟨_, -, rfl⟩ := Option.map_eq_some_iff.mp h
    exact ⟨s, rfl, .unresolved (.refl hl) hh hp⟩
  | enqueue =>
    cases kind with
    | sent | acked =>
      cases h
      exact ⟨s, rfl, .consumed (.refl hl) (.inl (hp nofun).leakFree)⟩
    | ackedOrCanceled =>
      obtain ⟨peer, hf, rfl⟩ := Option.map_eq_some_iff.mp h
      obtain ⟨s', rfl, halt, hfree⟩ := forgetInternal_spec hl hn hh hf
      exact ⟨s', rfl, .consumed halt (hfree.imp id fun h => ⟨rfl, ⟨h.1, .inl rfl⟩, h.2⟩)⟩
  | tryCancel =>
    cases kind with
    | sent => exact Handled.tryCancel hl hm hh (hp nofun) h
    | acked | ackedOrCanceled => cases h
  | acked =>
    cases kind <;> cases h
    exact ⟨s, rfl, .unresolved (.refl hl) hh.of_sent fun _ => hp nofun⟩
  | requestCancel =>
    obtain ⟨⟨packetId', peer, cancels⟩, hc, rfl⟩ := Option.map_eq_some_iff.mp h
    obtain ⟨s', rfl, halt, hh'⟩ := requestCancelInternal_spec hl hm hn hh hc
    exact ⟨s', rfl, .unresolved halt hh' fun h => absurd rfl h⟩
  | limitRetries limit =>
    obtain ⟨peer, hlim, rfl⟩ := Option.map_eq_some_iff.mp h
    obtain ⟨s', rfl, halt, hh'⟩ := limitRetriesInternal_spec hl hm hn hh hlim
    exact ⟨s', rfl, .unresolved halt hh' fun h => absurd rfl h⟩
  | into =>
    cases kind <;> cases h
    exact ⟨s, rfl, .unresolved (.refl hl) hh.kind_mono fun h => absurd rfl h⟩
  | poll cx =>
    obtain ⟨⟨res, packetId', peer⟩, hpoll, rfl⟩ := Option.map_eq_some_iff.mp h
    obtain ⟨s', rfl, halt, hh', hp', hanswer⟩ := pollAs_spec hl hn hp hm hh hpoll
    rcases hanswer with rfl | ⟨resolution, rfl, hsent, hid, hstatus⟩
    · exact ⟨s', rfl, .unresolved halt hh' hp'⟩
    · exact ⟨s', rfl, .resolved halt hh' hp' hsent hid hstatus⟩
  | drop => exact Handled.drop hl hm hn hh hp h

end

end ZprCore.Mgmt
