-- SUMMARY: Management packets of a link between receiver and processor queue.
import ZprCore.Wire.Dispatch
import ZprCore.Zdpr.Reception

/-!
# Inbound management packets

`dispatch_mgmt_packet_with_link` with the receiver of the link and the bounded queue of its
management processor. A packet is put into the queue between the question whether it is to be
processed and the call that takes note of it, so that a full queue leaves no trace. The numbers that
were put into the queue and those that were acknowledged are kept beside the link, counted on without
the wrap-around of the sequence space.
-/

namespace ZprCore.Zdpr

open ZprCore.Flow (Bytes)
open Wire (Context Admission isControl beNat dispatch_not_control)
open Fastpath (ZdpPacketType)

inductive MgmtProcessorMessage where
  | packet (pkt : Bytes)
  | testPacket
deriving DecidableEq

/-- The receiver of a link and the queue of its management processor. -/
structure Inbound where
  receiver : Receiver
  queue : List MgmtProcessorMessage
  capacity : Nat

/-- What others see of a dispatched packet. -/
inductive InboundEvent where
  | enqueued (sn : SeqNum)
  /-- `send_acknowledgement` -/
  | acknowledgement (sn : SeqNum)
  /-- `send_canceled` -/
  | canceled (sn : SeqNum)
deriving DecidableEq

def Receiver.countStats (r : Receiver) : Receiver :=
  [ReceiverStat.tooOld, .duplicate, .tooNew, .outOfOrder].foldl (fun r stat => (r.fetchResetStat stat).2) r

def Disposition.events (d : Disposition) (sn : SeqNum) : List InboundEvent :=
  if d.shouldAck then [if d.ackIsCanceled then .canceled sn else .acknowledgement sn] else []

variable {W : Nat} {l' : Inbound} {A : AcceptedNumbers}

namespace Inbound

def hasRoom (l : Inbound) : Bool := l.queue.length < l.capacity

/-- The question to the receiver and the attempt to queue the packet. -/
def admission (l : Inbound) (sn : SeqNum) : Admission :=
  if l.receiver.shouldProcessPacket sn = some true then
    if l.hasRoom then .queued else .full
  else .notProcessed

/-- `process_packet` or `process_cancel`, and the answer to the peer; `none` is a panic. -/
def process (l : Inbound) (a : Arrival) : Option (Inbound × List InboundEvent) :=
  (l.receiver.process a).map fun (disp, receiver) =>
    ({ l with receiver := receiver.countStats }, disp.events a.sn)

/-- `dispatch_mgmt_packet_with_link`. What is done with acknowledgements and key management is not a
    matter of the receiver. -/
def dispatch (l : Inbound) (cx : Context) (pkt : Bytes) : Option (Inbound × List InboundEvent) :=
  match Wire.dispatchMgmtPacketWithLink cx l.admission pkt with
  | none => none
  | some (.queued sn) =>
    (process { l with queue := l.queue ++ [.packet pkt] } (.packet sn)).map fun (l, events) =>
      (l, .enqueued sn :: events)
  | some (.notProcessed sn) => l.process (.packet sn)
  | some (.cancel sn) => l.process (.cancel sn)
  | some _ => some (l, [])

end Inbound

/-- A link with what was queued and acknowledged since its session began. -/
structure InboundHistory where
  link : Inbound
  /-- `highest_seen`, counted on -/
  highest : Int
  enqueued : List Int
  acknowledged : List Int

inductive InboundAction where
  | receive (cx : Context) (pkt : Bytes)
  /-- The processor takes the first message of its queue. -/
  | take
  /-- `enqueue_test_packet`, once there is room -/
  | testPacket

namespace InboundHistory

/-- The number that a sequence number stands for. -/
def number (t : InboundHistory) (sn : SeqNum) : Int :=
  t.highest + wrappingOffset sn t.link.receiver.highestSeen

def note (t : InboundHistory) (l : Inbound) (events : List InboundEvent) : InboundHistory where
  link := l
  highest := t.number l.receiver.highestSeen
  enqueued := t.enqueued ++ events.filterMap fun
    | .enqueued sn => some (t.number sn)
    | _ => none
  acknowledged := t.acknowledged ++ events.filterMap fun
    | .acknowledgement sn => some (t.number sn)
    | _ => none

def step (t : InboundHistory) : InboundAction → Option InboundHistory
  | .receive cx pkt => (t.link.dispatch cx pkt).map fun (l, events) => t.note l events
  | .take => some { t with link := { t.link with queue := t.link.queue.tail } }
  | .testPacket =>
    if t.link.hasRoom then
      some { t with link := { t.link with queue := t.link.queue ++ [.testPacket] } }
    else none

/-- A new session, with any queue. -/
def Starts (W : Nat) (t : InboundHistory) : Prop :=
  Receiver.new W = some t.link.receiver ∧ t.highest = -1 ∧ t.enqueued = [] ∧ t.acknowledged = []

end InboundHistory

/-! ## Question and answer -/

variable {sn : SeqNum} {r r' : Receiver}

theorem Receiver.shouldProcessPacket_eq {d : Disposition}
    (h : r.processPacket sn = some (d, r')) : r.shouldProcessPacket sn = some d.shouldProcess := by
  simp only [processPacket, processPacketOrCancel, Bool.false_eq_true, if_false] at h
  unfold shouldProcessPacket
  split at h
  · next hold =>
    cases h
    exact if_pos hold
  next hold =>
  rw [if_neg hold]
  split at h
  · next hnew =>
    cases h
    exact if_pos hnew
  next hnew =>
  rw [if_neg hnew]
  split at h
  · next hpos =>
    rw [if_pos hpos]
    split at h
    · cases h
    · cases h
      rfl
  next hpos =>
  rw [if_neg hpos]
  split at h
  · cases h
  next hbits =>
  rw [if_neg hbits]
  split at h
  · next hclear =>
    cases h
    rw [hclear]
    rfl
  · next hclear =>
    rw [Bool.eq_false_iff.mpr hclear]
    split at h <;> cases h <;> rfl

theorem Receiver.Implements.countStats (h : r.Implements W A) : r.countStats.Implements W A :=
  ⟨h.windowSize, { h.represents with }⟩

theorem AcceptedNumbers.receive_cases (W : Nat) (A : AcceptedNumbers) (sn : SeqNum) (isCancel : Bool) :
    A.receive W sn isCancel = (.ignore, A) ∨
    (A.decision (A.number sn) = none ∧ A.receive W sn isCancel =
      (Receiver.freshDisposition isCancel, A.accept (A.number sn) (.first isCancel))) ∨
    (A.decision (A.number sn) = some .processed ∧ A.receive W sn isCancel = (.ackDoNotProcess, A)) ∨
    (A.decision (A.number sn) = some .canceled ∧ A.receive W sn isCancel = (.ackCancelDoNotProcess, A)) := by
  unfold receive answer
  split
  · exact .inl rfl
  cases hd : A.decision (A.number sn) with
  | none => exact .inr (.inl ⟨rfl, rfl⟩)
  | some d =>
    rw [Acceptance.accept_of_accepted (Option.isSome_of_eq_some hd)]
    cases d with
    | processed => exact .inr (.inr (.inl ⟨rfl, rfl⟩))
    | canceled => exact .inr (.inr (.inr ⟨rfl, rfl⟩))

/-! ## One packet -/

/-- What is seen of a number, by the answer of the receiver. -/
def eventsOf (d : Disposition) (sn : SeqNum) : List InboundEvent :=
  if d = .ackAndProcess then .enqueued sn :: d.events sn else d.events sn

namespace Inbound

variable {l : Inbound} {events : List InboundEvent} {cx : Context} {pkt : Bytes}

theorem process_spec (l : Inbound) (h : l.receiver.Implements W A) (hW : W ≤ 63) (a : Arrival) :
    ∃ r, l.receiver.process a = some ((A.receive W a.sn a.isCancel).1, r) ∧
      l.process a = some ({ l with receiver := r.countStats }, (A.receive W a.sn a.isCancel).1.events a.sn) ∧
      r.countStats.Implements W (A.receive W a.sn a.isCancel).2 := by
  obtain ⟨r, heq, hnext⟩ := h.receive (by omega) (h.not_shiftsOut hW) a.isCancel
  rw [← Receiver.process_eq] at heq
  exact ⟨r, heq, by rw [process, heq]; rfl, hnext.countStats⟩

theorem admission_eq (h : l.receiver.Implements W A) (hW : W ≤ 63) (sn : SeqNum) :
    l.admission sn = if (A.receive W sn false).1 = .ackAndProcess then
      if l.hasRoom then .queued else .full
    else .notProcessed := by
  obtain ⟨r, heq, -⟩ := process_spec l h hW (.packet sn)
  have hask : l.receiver.shouldProcessPacket sn = some (A.receive W sn false).1.shouldProcess :=
    Receiver.shouldProcessPacket_eq heq
  rw [admission, hask]
  cases (A.receive W sn false).1 <;> rfl

theorem dispatch_spec (h : l.receiver.Implements W A) (hW : W ≤ 63)
    (hd : l.dispatch cx pkt = some (l', events)) :
    (l' = l ∧ events = []) ∨
      ∃ sn isCancel, l'.receiver.Implements W (A.receive W sn isCancel).2 ∧
        events = eventsOf (A.receive W sn isCancel).1 sn := by
  unfold dispatch at hd
  split at hd
  · cases hd
  · next sn hsn =>
    have hadm := (Wire.admission_of_dispatch hsn).1 sn rfl
    obtain ⟨r, -, hproc, hnext⟩ := process_spec { l with queue := l.queue ++ [.packet pkt] } h hW (.packet sn)
    rw [hproc] at hd
    cases hd
    refine .inr ⟨sn, false, hnext, (if_pos ?_).symm⟩
    by_contra hne
    rw [admission_eq h hW, if_neg hne] at hadm
    cases hadm
  · next sn hsn =>
    have hadm := (Wire.admission_of_dispatch hsn).2 sn rfl
    obtain ⟨r, -, hproc, hnext⟩ := process_spec l h hW (.packet sn)
    rw [hproc] at hd
    cases hd
    refine .inr ⟨sn, false, hnext, (if_neg fun heq => ?_).symm⟩
    rw [admission_eq h hW, if_pos heq] at hadm
    split at hadm <;> cases hadm
  · next sn hsn =>
    obtain ⟨r, -, hproc, hnext⟩ := process_spec l h hW (.cancel sn)
    rw [hproc] at hd
    cases hd
    refine .inr ⟨sn, true, hnext, (if_neg ?_).symm⟩
    rcases A.receive_cases W sn true with heq | ⟨-, heq⟩ | ⟨-, heq⟩ | ⟨-, heq⟩ <;> rw [heq] <;> nofun
  · cases hd
    exact .inl ⟨rfl, rfl⟩

end Inbound

/-! ## Every run -/

theorem AcceptedNumbers.ofInt_number (A : AcceptedNumbers) (sn : SeqNum) :
    BitVec.ofInt 64 (A.number sn) = sn := by
  rw [number, wrappingOffset, BitVec.ofInt_add, BitVec.ofInt_toInt, BitVec.add_comm,
    BitVec.sub_add_cancel]

namespace InboundHistory

variable {t t' : InboundHistory} {isCancel : Bool}

/-- The link stands for the record `A`, whose processed numbers are those that were queued. -/
structure Tells (W : Nat) (t : InboundHistory) (A : AcceptedNumbers) : Prop where
  implements : t.link.receiver.Implements W A
  highest : A.highest = t.highest
  processed : ∀ k, A.decision k = some .processed ↔ k ∈ t.enqueued
  nodup : t.enqueued.Nodup
  acknowledged : ∀ k, k ∈ t.acknowledged ↔ k ∈ t.enqueued

theorem Tells.number (h : t.Tells W A) (sn : SeqNum) : t.number sn = A.number sn := by
  rw [h.implements.number, h.highest, InboundHistory.number]

theorem Tells.highest_receive (h : t.Tells W A)
    (hl : l'.receiver.Implements W (A.receive W sn isCancel).2) :
    (A.receive W sn isCancel).2.highest = t.number l'.receiver.highestSeen := by
  have hseen := hl.represents.highest
  have hcases : (A.receive W sn isCancel).2.highest = A.highest ∨
      (A.receive W sn isCancel).2.highest = A.number sn := by
    rcases A.receive_cases W sn isCancel with heq | ⟨-, heq⟩ | ⟨-, heq⟩ | ⟨-, heq⟩ <;> rw [heq]
    · exact .inl rfl
    · rw [Acceptance.accept_highest]
      exact max_choice ..
    all_goals exact .inl rfl
  rcases hcases with heq | heq
  · rw [heq] at hseen ⊢
    rw [InboundHistory.number, hseen, h.implements.represents.highest, wrappingOffset, BitVec.sub_self,
      h.highest]
    simp
  · rw [heq] at hseen ⊢
    rw [hseen, A.ofInt_number, h.number]

theorem note_eventsOf (t : InboundHistory) (l' : Inbound) (d : Disposition) (sn : SeqNum) :
    (t.note l' (eventsOf d sn)).enqueued =
      t.enqueued ++ (if d = .ackAndProcess then [t.number sn] else []) ∧
    (t.note l' (eventsOf d sn)).acknowledged =
      t.acknowledged ++ (if d = .ackAndProcess ∨ d = .ackDoNotProcess then [t.number sn] else []) := by
  cases d <;> exact ⟨rfl, rfl⟩

theorem Tells.note (h : t.Tells W A) (hl : l'.receiver.Implements W (A.receive W sn isCancel).2) :
    (t.note l' (eventsOf (A.receive W sn isCancel).1 sn)).Tells W (A.receive W sn isCancel).2 := by
  have hhighest := h.highest_receive hl
  obtain ⟨henq, hack⟩ := note_eventsOf t l' (A.receive W sn isCancel).1 sn
  rw [h.number] at henq hack
  rcases A.receive_cases W sn isCancel with heq | ⟨hnone, heq⟩ | ⟨hdec, heq⟩ | ⟨hdec, heq⟩ <;>
    rw [heq] at hl hhighest henq hack ⊢
  · refine ⟨hl, hhighest, fun k => ?_, ?_, fun k => ?_⟩
    · simpa [henq] using h.processed k
    · simpa [henq] using h.nodup
    · simpa [henq, hack] using h.acknowledged k
  · have hnot : A.number sn ∉ t.enqueued := fun hmem => by
      cases hnone.symm.trans ((h.processed _).mpr hmem)
    -- a number whose first message is a cancellation is none of the processed ones
    have hprocessed : ∀ k, (A.accept (A.number sn) (.first isCancel)).decision k = some .processed ↔
        k ∈ t.enqueued ∨ isCancel = false ∧ k = A.number sn := by
      intro k
      by_cases hk : k = A.number sn
      · subst hk
        rw [Acceptance.accept_decision_self hnone]
        cases isCancel <;> simp [Decision.first, hnot]
      · rw [Acceptance.accept_decision_of_ne hk]
        simp [hk, h.processed]
    refine ⟨hl, hhighest, fun k => ?_, ?_, fun k => ?_⟩
    · rw [hprocessed, henq]
      cases isCancel <;> simp [Receiver.freshDisposition]
    · rw [henq]
      cases isCancel
      · exact List.nodup_append.mpr ⟨h.nodup, List.nodup_singleton _, fun k hk j hj => by
          cases List.mem_singleton.mp hj
          exact fun he => hnot (he ▸ hk)⟩
      · simpa [Receiver.freshDisposition] using h.nodup
    · rw [henq, hack]
      cases isCancel <;> simp [Receiver.freshDisposition, h.acknowledged]
  · have hmem := (h.processed _).mp hdec
    refine ⟨hl, hhighest, fun k => ?_, ?_, fun k => ?_⟩
    · simpa [henq] using h.processed k
    · simpa [henq] using h.nodup
    · simpa [henq, hack, h.acknowledged] using fun hk : k = A.number sn => hk ▸ hmem
  · refine ⟨hl, hhighest, fun k => ?_, ?_, fun k => ?_⟩
    · simpa [henq] using h.processed k
    · simpa [henq] using h.nodup
    · simpa [henq, hack] using h.acknowledged k

theorem note_nil : t.note t.link [] = t := by
  simp [InboundHistory.note, InboundHistory.number, wrappingOffset]

theorem Tells.dispatch (h : t.Tells W A) (hW : W ≤ 63) {cx : Context} {pkt : Bytes}
    {events : List InboundEvent} (hd : t.link.dispatch cx pkt = some (l', events)) :
    ∃ A', (t.note l' events).Tells W A' := by
  rcases Inbound.dispatch_spec h.implements hW hd with ⟨rfl, rfl⟩ | ⟨sn, isCancel, hl, rfl⟩
  · exact ⟨A, note_nil ▸ h⟩
  · exact ⟨_, h.note hl⟩

theorem Tells.step (h : t.Tells W A) (hW : W ≤ 63) {a : InboundAction} (hs : t.step a = some t') :
    ∃ A', t'.Tells W A' := by
  cases a with
  | receive cx pkt =>
    obtain ⟨⟨l', events⟩, hd, heq⟩ := Option.map_eq_some_iff.mp hs
    cases heq
    exact h.dispatch hW hd
  | take =>
    cases hs
    exact ⟨A, h.implements, h.highest, h.processed, h.nodup, h.acknowledged⟩
  | testPacket =>
    rw [InboundHistory.step] at hs
    split at hs
    · cases hs
      exact ⟨A, h.implements, h.highest, h.processed, h.nodup, h.acknowledged⟩
    · cases hs

theorem tells_of_run (hW : W ≤ 63) (h : Run step (Starts W) (fun _ _ => True) t) : ∃ A, t.Tells W A := by
  refine Run.invariant (P := fun t => ∃ A, t.Tells W A) ?_ (fun _ _ _ ⟨_, h⟩ _ hs => h.step hW hs) h
  rintro t ⟨hnew, hhighest, henq, hack⟩
  refine ⟨.start, Receiver.new_implements hnew, Acceptance.initial_highest.trans hhighest.symm,
    fun k => ?_, by simp [henq], by simp [henq, hack]⟩
  simp [AcceptedNumbers.start, Acceptance.initial, henq]

/-- A packet with a management header is put into the queue exactly if the receiver would process it
    and there is room. It is acknowledged then, and for the first time only then, and if there is no
    room for a packet to be processed, nothing changes. Since the session began no number was queued
    twice, and just those were acknowledged that were queued. -/
theorem inbound_admission (hhi : W ≤ 63) (h : Run step (Starts W) (fun _ _ => True) t)
    {cx : Context} (packetType excess : UInt8) {rest : Bytes} (htype : isControl packetType = false)
    (hlen : 8 ≤ rest.length) (hlink : cx.linkType.isSome = true)
    {sn : SeqNum} (hsn : sn = .ofNat 64 (beNat (rest.take 8))) :
    (∃ d r l' events, t.link.receiver.processPacket sn = some (d, r) ∧
      t.link.dispatch cx (packetType :: excess :: rest) = some (l', events) ∧
      (.enqueued sn ∈ events ↔ d = .ackAndProcess ∧ t.link.hasRoom = true) ∧
      l'.queue = (if d = .ackAndProcess ∧ t.link.hasRoom = true then
        t.link.queue ++ [.packet (packetType :: excess :: rest)] else t.link.queue) ∧
      (.enqueued sn ∈ events → .acknowledgement sn ∈ events) ∧
      (.acknowledgement sn ∈ events → t.number sn ∉ t.acknowledged → .enqueued sn ∈ events) ∧
      (d = .ackAndProcess → t.link.hasRoom = false → l' = t.link ∧ events = [])) ∧
    t.enqueued.Nodup ∧ ∀ k, k ∈ t.acknowledged ↔ k ∈ t.enqueued := by
  obtain ⟨A, htells⟩ := tells_of_run hhi h
  refine ⟨?_, htells.nodup, htells.acknowledged⟩
  have himp := htells.implements
  obtain ⟨r, heq, hproc, -⟩ := Inbound.process_spec t.link himp hhi (.packet sn)
  have hdisp := @dispatch_not_control cx t.link.admission rest packetType excess htype
  rw [if_neg (by omega), if_neg (by simpa [Option.isSome_iff_ne_none] using hlink), ← hsn,
    Inbound.admission_eq himp hhi] at hdisp
  by_cases hfirst : (A.receive W sn false).1 = .ackAndProcess
  · rw [if_pos hfirst] at hdisp
    cases hroom : t.link.hasRoom with
    | true =>
      rw [hroom, if_pos rfl] at hdisp
      have heq' : t.link.receiver.process (.packet sn) = some (.ackAndProcess, r) := hfirst ▸ heq
      refine ⟨_, r,
        ⟨r.countStats, t.link.queue ++ [.packet (packetType :: excess :: rest)], t.link.capacity⟩,
        [.enqueued sn, .acknowledgement sn], heq', ?_, by simp, by simp, by simp,
        fun _ _ => by simp, nofun⟩
      rw [Inbound.dispatch, hdisp]
      dsimp only
      rw [Inbound.process, heq']
      rfl
    | false =>
      rw [hroom] at hdisp
      refine ⟨_, r, t.link, [], heq, ?_, by simp, by simp, nofun, nofun, fun _ _ => ⟨rfl, rfl⟩⟩
      rw [Inbound.dispatch, hdisp]
      rfl
  · rw [if_neg hfirst] at hdisp
    have hnot : InboundEvent.enqueued sn ∉ (A.receive W sn false).1.events sn := by
      unfold Disposition.events
      split
      · split <;> simp
      · simp
    refine ⟨_, r, { t.link with receiver := r.countStats }, (A.receive W sn false).1.events sn, heq, ?_,
      iff_of_false hnot fun h => hfirst h.1, (if_neg fun h => hfirst h.1).symm,
      fun h => absurd h hnot, fun hack hnew => ?_, fun h => absurd h hfirst⟩
    · rw [Inbound.dispatch, hdisp]
      exact hproc
    -- an acknowledgement without processing is one of a number that was queued before
    exfalso
    rcases A.receive_cases W sn false with heq | ⟨-, heq⟩ | ⟨hdec, -⟩ | ⟨-, heq⟩
    · rw [heq] at hack
      cases hack
    · exact hfirst (congrArg Prod.fst heq)
    · rw [htells.acknowledged, ← htells.processed, htells.number] at hnew
      exact hnew hdec
    · rw [heq] at hack
      cases List.mem_singleton.mp hack

/-- A link with a queue for one message. -/
def sample : InboundHistory where
  link := ⟨⟨32, BitVec.allOnes 64, BitVec.allOnes 64, BitVec.allOnes 64, fun _ => 0⟩, [], 1⟩
  highest := -1
  enqueued := []
  acknowledged := []

theorem starts_sample : sample.Starts 32 := ⟨rfl, rfl, rfl, rfl⟩

def samplePacket : Bytes := [130, 0, 0, 0, 0, 0, 0, 0, 0, 0]

theorem inbound_admission_first :
    ∃ l' events, sample.link.dispatch Wire.sampleContext samplePacket = some (l', events) ∧
      .enqueued 0 ∈ events := by
  have hsn : (0 : SeqNum) = .ofNat 64 (beNat ((samplePacket.drop 2).take 8)) := rfl
  have hlink : Wire.sampleContext.linkType.isSome = true := rfl
  obtain ⟨d, r, l', events, hproc, hdisp, henq, -⟩ :=
    (inbound_admission (by decide) (.start starts_sample) 130 0 rfl (by decide) hlink hsn).1
  have hfirst : (sample.link.receiver.processPacket 0).map (·.1) = some .ackAndProcess := by decide +kernel
  rw [hproc] at hfirst
  exact ⟨l', events, hdisp, henq.mpr ⟨Option.some.inj hfirst, rfl⟩⟩

/-- The queue is full and the packet is one that was queued before; it is acknowledged again. -/
theorem full_queue_acknowledges :
    ∃ t x, Run step (Starts 32) (fun _ _ => True) t ∧
      t.link.dispatch Wire.sampleContext samplePacket = some x ∧
      t.link.hasRoom = false ∧ x.2 = [.acknowledgement 0] :=
  Run.reaches_some starts_sample [.receive Wire.sampleContext samplePacket] (by decide +kernel)

end InboundHistory

end ZprCore.Zdpr
