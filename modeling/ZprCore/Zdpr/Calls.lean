-- SUMMARY: All calls of the sender's interface as one step function.
import ZprCore.Lib.Run
import ZprCore.Zdpr.Queues
import ZprCore.Zdpr.Status

/-!
# Calls of the sender

`SenderAction` is everything a caller can do with a `Sender`, in any order and with any
arguments. A call that panics has no outcome. A `VecDeque` holds at most `isize::MAX` bytes and
every element of the three queues has at least 16, so a call that would make a queue longer
than that panics as well (`capacity overflow`).

The last section is about the calls a peer triggers: `process_ack` and `process_canceled`.
-/

namespace ZprCore.Zdpr

open Sender

variable {Pkt : Type} {s : Sender Pkt} {ms : List (Move Pkt)} {m : Move Pkt} {s' : Sender Pkt}
  {sn : SeqNum}

/-- A call that hands no packet to the sender. -/
inductive SenderCall where
  | enqueueNextBlockedPacket
  | cancelQueuedPacket (id : QueuedPacketId)
  | cancelSentPacket (sn : SeqNum)
  | limitRetriesById (id : QueuedPacketId) (retryLimit : UInt8)
  | limitRetriesBySeqNum (sn : SeqNum) (retryLimit : UInt8)
  | forgetCanceledPacket (sn : SeqNum)
  | processAck (sn : SeqNum)
  | processCanceled (sn : SeqNum)
  /-- the iterator is lazy: `count` entries are aged before it is dropped -/
  | ageRetries (count : Nat)
  | adjustWindowSize (windowSize : Nat)
  | pollSend (cx : Waker) (id : QueuedPacketId)
  | pollAck (cx : Waker) (sn : SeqNum)
  | pollSendAndAck (cx : Waker) (id : QueuedPacketId)
  | fetchResetStat (stat : SenderStat)
deriving DecidableEq

inductive SenderAction (Pkt : Type) where
  | enqueuePacket (packet : Pkt)
  | call (c : SenderCall)
  /-- the old sender is dropped, and so are the packets it holds -/
  | reset

/-- What a call leaves and hands out. -/
structure Outcome (Pkt : Type) where
  sender : Sender Pkt
  /-- the packet that was given a sequence number, for the caller to transmit -/
  numbered : List (SeqNum × Pkt)
  /-- the packets handed back -/
  returned : List Pkt

def maxQueueLength : Nat := 2 ^ 59

namespace Sender

def fits (s : Sender Pkt) : Bool :=
  decide (s.unacked.length < maxQueueLength) && decide (s.blocked.length < maxQueueLength) &&
    decide (s.sent.length < maxQueueLength)

end Sender

def SenderCall.perform (s : Sender Pkt) : SenderCall → Option (Outcome Pkt)
  | .enqueueNextBlockedPacket => s.enqueueNextBlockedPacket.map fun (r, s) => ⟨s, [r], []⟩
  | .cancelQueuedPacket id => (s.cancelQueuedPacket id).map fun (r, s) => ⟨s, [], r.toList⟩
  | .cancelSentPacket sn => (s.cancelSentPacket sn).map fun (r, s) => ⟨s, [], r.toList⟩
  | .limitRetriesById id retryLimit => (s.limitRetriesById id retryLimit).map fun s => ⟨s, [], []⟩
  | .limitRetriesBySeqNum sn retryLimit =>
    (s.limitRetriesBySeqNum sn retryLimit).map fun s => ⟨s, [], []⟩
  | .forgetCanceledPacket sn => (s.forgetCanceledPacket sn).map fun s => ⟨s, [], []⟩
  | .processAck sn => (s.processAck sn).map fun (r, s) => ⟨s, [], r.toList⟩
  | .processCanceled sn => (s.processCanceled sn).map fun s => ⟨s, [], []⟩
  | .ageRetries count =>
    let (packets, s) := s.ageRetriesOf (min count s.unacked.length)
    some ⟨s, [], packets⟩
  | .adjustWindowSize windowSize => (s.adjustWindowSize windowSize).map fun s => ⟨s, [], []⟩
  | .pollSend cx id => (s.pollSend cx id).map fun (_, s) => ⟨s, [], []⟩
  | .pollAck cx sn => (s.pollAck cx sn).map fun (_, s) => ⟨s, [], []⟩
  | .pollSendAndAck cx id => (s.pollSendAndAck cx id).map fun (_, s) => ⟨s, [], []⟩
  | .fetchResetStat stat => some ⟨(s.fetchResetStat stat).2, [], []⟩

def SenderAction.perform (s : Sender Pkt) : SenderAction Pkt → Option (Outcome Pkt)
  | .enqueuePacket packet =>
    match s.enqueuePacket packet with
    | (.queued _, s) => some ⟨s, [], []⟩
    | (.sent sn packet, s) => some ⟨s, [(sn, packet)], []⟩
  | .call c => c.perform s
  | .reset => some ⟨s.reset, [], s.destruct.2⟩

/-- An action of the caller, with its outcome unless it panics. -/
def SenderAction.run (s : Sender Pkt) (a : SenderAction Pkt) : Option (Outcome Pkt) :=
  (a.perform s).filter (·.sender.fits)

namespace Sender

def step (s : Sender Pkt) (a : SenderAction Pkt) : Option (Sender Pkt) :=
  (a.run s).map (·.sender)

def Reachable : Sender Pkt → Prop := Run step (· = new) fun _ _ => True

end Sender

variable {o : Outcome Pkt} {a : SenderAction Pkt}

theorem SenderAction.run_eq (h : a.run s = some o) : a.perform s = some o ∧ o.sender.fits = true :=
  Option.filter_eq_some_iff.mp h

/-! ## Calls as moves -/

/-- The moves that a call can be made of. -/
def SenderCall.allows : SenderCall → Move Pkt → Bool
  | .enqueueNextBlockedPacket, .unblock _ | .enqueueNextBlockedPacket, .trimBlocked
  | .cancelQueuedPacket _, .slot _ .cancel | .cancelQueuedPacket _, .trimBlocked
  | .cancelSentPacket _, .entry _ .cancel
  | .limitRetriesById .., .slot _ (.limit _) | .limitRetriesById .., .entry _ (.limit _)
  | .limitRetriesBySeqNum .., .entry _ (.limit _)
  | .forgetCanceledPacket _, .entry _ .forget | .forgetCanceledPacket _, .trim _
  | .processAck _, .entry _ .ack | .processAck _, .trim _ | .processAck _, .quiet
  | .processCanceled _, .entry _ .cancelAck | .processCanceled _, .trim _
  | .processCanceled _, .quiet
  | .ageRetries _, .entry _ .age
  | .adjustWindowSize _, .quiet
  | .pollSend .., .slot _ (.setWaker _)
  | .pollAck .., .entry _ (.setWaker _)
  | .pollSendAndAck .., .slot _ (.setWaker _) | .pollSendAndAck .., .entry _ (.setWaker _)
  | .fetchResetStat _, .quiet => true
  | _, _ => false

variable {c : SenderCall}

namespace SenderCall

variable {op : EntryOp} {ps : List Pkt}

theorem allows_applies (h : s.Applies op sn ps s')
    (hop : ∀ idx, c.allows (.entry idx op : Move Pkt) = true) :
    ∃ ms, s.Moves ms ps s' ∧ ∀ m ∈ ms, c.allows m = true := by
  cases h with
  | idle => exact ⟨[], .nil, by simp⟩
  | entry _ hms => exact ⟨_, hms, by simp [hop]⟩

theorem allows_settles (h : s.Settles op sn ps s')
    (hop : ∀ idx, c.allows (.entry idx op : Move Pkt) = true ∧ c.allows (.trim idx : Move Pkt) = true)
    (hquiet : op ≠ .forget → c.allows (.quiet : Move Pkt) = true) :
    ∃ ms, s.Moves ms ps s' ∧ ∀ m ∈ ms, c.allows m = true := by
  cases h with
  | idle => exact ⟨[], .nil, by simp⟩
  | counted _ stat hne => exact ⟨_, countStat_moves stat, by simp [hquiet hne]⟩
  | entry _ hms => exact ⟨_, hms, by simp [hop]⟩

/-- Every call is a chain of moves that it allows. -/
theorem perform_allows (h : c.perform s = some o) :
    ∃ ms, s.Moves ms o.returned o.sender ∧ ∀ m ∈ ms, c.allows m = true := by
  cases c with
  | enqueueNextBlockedPacket =>
    obtain ⟨⟨r, s'⟩, hr, rfl⟩ := Option.map_eq_some_iff.mp h
    exact ⟨_, (enqueueNextBlockedPacket_moves hr).2, by simp [allows]⟩
  | cancelQueuedPacket id =>
    obtain ⟨⟨r, s'⟩, hr, rfl⟩ := Option.map_eq_some_iff.mp h
    rcases cancelQueuedPacket_moves hr with ⟨rfl, rfl⟩ | ⟨idx, p, w, l, rfl, -, -, hms⟩
    · exact ⟨[], .nil, by simp⟩
    · refine ⟨_, hms, ?_⟩
      split <;> simp [allows]
  | cancelSentPacket sn =>
    obtain ⟨⟨r, s'⟩, hr, rfl⟩ := Option.map_eq_some_iff.mp h
    exact allows_applies (cancelSentPacket_effect hr) fun _ => rfl
  | limitRetriesById id limit =>
    obtain ⟨s', hr, rfl⟩ := Option.map_eq_some_iff.mp h
    rcases limitRetriesById_moves hr with ⟨idx, -, hms⟩ | ⟨-, o, -, ⟨-, rfl⟩ | ⟨sn, -, hlim⟩⟩
    · exact ⟨_, hms, by simp [allows]⟩
    · exact ⟨[], .nil, by simp⟩
    · exact allows_applies (limitRetriesBySeqNum_effect hlim) fun _ => rfl
  | limitRetriesBySeqNum sn limit =>
    obtain ⟨s', hr, rfl⟩ := Option.map_eq_some_iff.mp h
    exact allows_applies (limitRetriesBySeqNum_effect hr) fun _ => rfl
  | forgetCanceledPacket sn =>
    obtain ⟨s', hr, rfl⟩ := Option.map_eq_some_iff.mp h
    exact allows_settles (forgetCanceledPacket_effect hr) (fun _ => ⟨rfl, rfl⟩) (absurd rfl ·)
  | processAck sn =>
    obtain ⟨⟨r, s'⟩, hr, rfl⟩ := Option.map_eq_some_iff.mp h
    exact allows_settles (processAck_effect hr) (fun _ => ⟨rfl, rfl⟩) fun _ => rfl
  | processCanceled sn =>
    obtain ⟨s', hr, rfl⟩ := Option.map_eq_some_iff.mp h
    exact allows_settles (processCanceled_effect hr) (fun _ => ⟨rfl, rfl⟩) fun _ => rfl
  | ageRetries count =>
    cases h
    refine ⟨_, ageRetriesOf_moves (Nat.min_le_right _ _), ?_⟩
    intro m hm
    obtain ⟨idx, -, rfl⟩ := List.mem_map.mp hm
    rfl
  | adjustWindowSize windowSize =>
    obtain ⟨s', hr, rfl⟩ := Option.map_eq_some_iff.mp h
    obtain rfl := adjustWindowSize_eq hr
    exact ⟨_, .quiet s _ s.stats, by simp [allows]⟩
  | pollSend cx id =>
    obtain ⟨⟨r, s'⟩, hr, rfl⟩ := Option.map_eq_some_iff.mp h
    rcases pollSend_moves hr with ⟨idx, p, w, l, -, -, -, hms⟩ | ⟨o, -, -, -, rfl⟩
    · exact ⟨_, hms, by simp [allows]⟩
    · exact ⟨[], .nil, by simp⟩
  | pollAck cx sn =>
    obtain ⟨⟨r, s'⟩, hr, rfl⟩ := Option.map_eq_some_iff.mp h
    exact allows_applies (pollAck_effect hr) fun _ => rfl
  | pollSendAndAck cx id =>
    obtain ⟨⟨r, s'⟩, hr, rfl⟩ := Option.map_eq_some_iff.mp h
    rcases pollSendAndAck_cases hr with ⟨-, hsend⟩ | ⟨-, hsend⟩ | ⟨sn, hsend, hack⟩
    · rcases pollSend_moves hsend with ⟨idx, p, w, l, -, -, -, hms⟩ | ⟨o, ⟨⟩, -⟩
      exact ⟨_, hms, by simp [allows]⟩
    · rcases pollSend_moves hsend with ⟨idx, p, w, l, ⟨⟩, -⟩ | ⟨o, -, -, -, rfl⟩
      exact ⟨[], .nil, by simp⟩
    · exact allows_applies (pollAck_effect hack) fun _ => rfl
  | fetchResetStat stat =>
    cases h
    exact ⟨_, .quiet s s.windowSize _, by simp [allows]⟩

end SenderCall

/-- A move that neither numbers a packet nor changes what waits in `blocked`. -/
def Move.isPlain : Move Pkt → Bool
  | .quiet | .entry .. | .trim _ | .trimBlocked => true
  | .slot _ .cancel => false
  | .slot .. => true
  | .queue _ | .send _ | .unblock _ => false

namespace SenderCall

/-- The call may number a packet or withdraw one from the queue. -/
def movesPackets : SenderCall → Bool
  | .enqueueNextBlockedPacket | .cancelQueuedPacket _ => true
  | _ => false

theorem isPlain_of_allows (hc : c.movesPackets = false) (h : c.allows m = true) :
    m.isPlain = true := by
  cases m with
  | quiet | entry | trim | trimBlocked => rfl
  | slot idx op =>
    cases op with
    | setWaker | limit => rfl
    | cancel => cases c <;> simp_all [allows, movesPackets]
  | queue | send | unblock => cases c <;> simp_all [allows, movesPackets]

theorem perform_numbered (hc : c ≠ .enqueueNextBlockedPacket) (h : c.perform s = some o) :
    o.numbered = [] := by
  cases c with
  | enqueueNextBlockedPacket => cases hc rfl
  | ageRetries | fetchResetStat =>
    cases h
    rfl
  | _ =>
    obtain ⟨r, -, rfl⟩ := Option.map_eq_some_iff.mp h
    rfl

theorem perform_plain (hc : c.movesPackets = false) (h : c.perform s = some o) :
    o.numbered = [] ∧ ∃ ms, s.Moves ms o.returned o.sender ∧ ∀ m ∈ ms, m.isPlain = true := by
  obtain ⟨ms, hms, hall⟩ := perform_allows h
  refine ⟨perform_numbered ?_ h, ms, hms, fun m hm => isPlain_of_allows hc (hall m hm)⟩
  rintro rfl
  cases hc

end SenderCall

/-- How many sequence numbers a move assigns. -/
def Move.sends : Move Pkt → Nat
  | .send _ | .unblock _ => 1
  | _ => 0

def Move.totalSends (ms : List (Move Pkt)) : Nat := (ms.map Move.sends).sum

theorem Move.totalSends_cons (m : Move Pkt) (ms : List (Move Pkt)) :
    totalSends (m :: ms) = m.sends + totalSends ms := by
  simp [totalSends]

theorem Move.totalSends_of_plain (h : ∀ m ∈ ms, m.isPlain = true) : totalSends ms = 0 := by
  induction ms with
  | nil => rfl
  | cons m ms ih =>
    have hplain := h m List.mem_cons_self
    have hsends : m.sends = 0 := by
      cases m <;> first | rfl | cases hplain
    rw [totalSends_cons, hsends, ih fun m hm => h m (List.mem_cons_of_mem _ hm)]

theorem SenderCall.perform_moves (h : c.perform s = some o) :
    ∃ ms, s.Moves ms o.returned o.sender ∧ Move.totalSends ms ≤ 1 := by
  by_cases hc : c.movesPackets = true
  · cases c with
    | enqueueNextBlockedPacket =>
      obtain ⟨⟨r, s'⟩, hr, rfl⟩ := Option.map_eq_some_iff.mp h
      exact ⟨_, (enqueueNextBlockedPacket_moves hr).2, le_refl 1⟩
    | cancelQueuedPacket id =>
      obtain ⟨⟨r, s'⟩, hr, rfl⟩ := Option.map_eq_some_iff.mp h
      rcases cancelQueuedPacket_moves hr with ⟨rfl, rfl⟩ | ⟨idx, p, w, l, rfl, -, -, hms⟩
      · exact ⟨[], .nil, Nat.zero_le 1⟩
      · refine ⟨_, hms, ?_⟩
        split <;> exact Nat.zero_le 1
    | _ => cases hc
  · obtain ⟨-, ms, hms, hplain⟩ := perform_plain (by simpa using hc) h
    exact ⟨ms, hms, by rw [Move.totalSends_of_plain hplain]; exact Nat.zero_le 1⟩

theorem SenderAction.perform_enqueuePacket {packet : Pkt}
    (h : (SenderAction.enqueuePacket packet).perform s = some o) :
    o.sender = (s.enqueuePacket packet).2 ∧ o.returned = [] ∧
    (s.Moved (.queue packet) o.sender ∧ o.numbered = [] ∨
      s.Moved (.send packet) o.sender ∧ o.numbered = [(s.lastSent + 1, packet)]) := by
  cases heq : s.enqueuePacket packet with
  | mk r t =>
    have hmoves := enqueuePacket_moves (s := s) packet
    simp only [perform, heq] at h hmoves
    rcases hmoves with ⟨id, rfl, hms⟩ | ⟨rfl, hms⟩
    · cases h
      obtain ⟨_, _, hm, hnil, -⟩ := hms.cons_inv
      cases hnil
      exact ⟨rfl, rfl, .inl ⟨hm, rfl⟩⟩
    · cases h
      obtain ⟨_, _, hm, hnil, -⟩ := hms.cons_inv
      cases hnil
      exact ⟨rfl, rfl, .inr ⟨hm, rfl⟩⟩

theorem SenderAction.perform_moves (h : a.perform s = some o) :
    (∃ ms, s.Moves ms o.returned o.sender ∧ Move.totalSends ms ≤ 1) ∨ o.sender = s.reset := by
  cases a with
  | enqueuePacket packet =>
    left
    obtain ⟨-, hret, ⟨hm, -⟩ | ⟨hm, -⟩⟩ := perform_enqueuePacket h
    · exact ⟨[.queue packet], hret ▸ .single hm, Nat.zero_le 1⟩
    · exact ⟨[.send packet], hret ▸ .single hm, le_refl 1⟩
  | call c => exact .inl (c.perform_moves h)
  | reset =>
    cases h
    exact .inr rfl

/-! ## The records in `sent` -/

namespace Sender

variable {t : Sender Pkt} {n : Nat}

theorem Moved.length_le (hm : s.Moved m s') : s'.unacked.length ≤ s.unacked.length + m.sends := by
  cases hm with
  | quiet | slot | queue | trimBlocked => exact Nat.le_add_right _ _
  | entry op he => simp [setUnacked]
  | trim hc =>
    rw [(cleanQueues_fields hc).2.2]
    split
    · exact (List.dropWhile_suffix _).length_le
    · exact Nat.le_add_right _ _
  | send | unblock => simp [popBlocked, pushUnacked, Move.sends]

theorem Moves.length_le {ps : List Pkt} (hms : s.Moves ms ps s') :
    s'.unacked.length ≤ s.unacked.length + Move.totalSends ms := by
  induction hms with
  | nil => exact Nat.le_add_right _ _
  | cons hm _ ih =>
    have hgrow := hm.length_le
    rw [Move.totalSends_cons]
    omega

/-- The `n` packets sent are numbered, and the numbers recorded in `sent` are, oldest first, those of
    entries of `unacked`. -/
structure Recorded (s : Sender Pkt) (n : Nat) : Prop where
  hasSent : s.HasSent n
  sent : ∃ ks : List Nat, s.sent.filterMap id = ks.map (BitVec.ofNat 64) ∧ ks.Pairwise (· < ·) ∧
    ∀ k ∈ ks, n - s.unacked.length ≤ k ∧ k < n

theorem new_recorded : (new : Sender Pkt).Recorded 0 :=
  ⟨new_hasSent, [], rfl, .nil, by simp⟩

theorem dropStale_isSome_of {l : List (Option SeqNum)}
    (h : ∀ sn, some sn ∈ l → ∃ b, s.isAcked sn = some b) :
    ∃ l', s.dropStale l = some l' ∧
      (l' = [] ∨ ∃ sn rest, l' = some sn :: rest ∧ s.isAcked sn = some false) := by
  induction l with
  | nil => exact ⟨[], rfl, .inl rfl⟩
  | cons x rest ih =>
    obtain ⟨l', hl', hfront⟩ := ih fun sn hsn => h sn (List.mem_cons_of_mem _ hsn)
    cases x with
    | none => exact ⟨l', hl', hfront⟩
    | some sn =>
      obtain ⟨b, hb⟩ := h sn List.mem_cons_self
      simp only [dropStale, hb]
      cases b with
      | true => exact ⟨l', hl', hfront⟩
      | false => exact ⟨_, rfl, .inr ⟨sn, rest, rfl, hb⟩⟩

section

variable (h : s.Recorded n)

include h

/-- Trimming `unacked` and then `sent` does not panic and leaves records of entries. -/
theorem Recorded.cleanSentQueue (hlen : s.unacked.length ≤ 2 ^ 63) (ht : t.HasSent n)
    (hsent : t.sent = s.sent) : ∃ s', t.cleanSentQueue = some s' ∧ s'.Recorded n := by
  obtain ⟨ks, hks, hsorted, hwin⟩ := h.sent
  have hacked : ∀ k ∈ ks, t.isAcked (BitVec.ofNat 64 k) = some (t.status n k).isAcked := by
    intro k hk
    have hk' := hwin k hk
    exact ht.isAcked_ofNat (by omega) hk'.2
  have hrec : ∀ sn, some sn ∈ t.sent → ∃ k ∈ ks, BitVec.ofNat 64 k = sn := by
    intro sn hsn
    rw [hsent] at hsn
    have hmem : sn ∈ s.sent.filterMap id := List.mem_filterMap.mpr ⟨_, hsn, rfl⟩
    rw [hks] at hmem
    exact List.mem_map.mp hmem
  obtain ⟨l', hl', hfront⟩ := dropStale_isSome_of (s := t) (l := t.sent) (by
    intro sn hsn
    obtain ⟨k, hk, rfl⟩ := hrec sn hsn
    exact ⟨_, hacked k hk⟩)
  refine ⟨{ t with sent := l' }, by simp [Sender.cleanSentQueue, hl'], ⟨ht.lastSent, ht.length_le⟩, ?_⟩
  obtain ⟨pre, hpre, -⟩ := dropStale_split hl'
  have hsplit : ks.map (BitVec.ofNat 64) = pre.filterMap id ++ l'.filterMap id := by
    rw [← hks, ← hsent, hpre, List.filterMap_append]
  obtain ⟨ks₁, ks₂, rfl, -, hks₂⟩ := List.map_eq_append_iff.mp hsplit
  refine ⟨ks₂, hks₂.symm, (List.pairwise_append.mp hsorted).2.1, ?_⟩
  intro k hk
  refine ⟨?_, (hwin k (List.mem_append_right _ hk)).2⟩
  -- the front record is of a packet that is not acknowledged, and the others are newer
  rcases hfront with rfl | ⟨sn, rest, rfl, hopen⟩
  · rw [List.filterMap_nil, List.map_eq_nil_iff] at hks₂
    subst hks₂
    cases hk
  cases ks₂ with
  | nil => cases hk
  | cons k₀ ks₂ =>
    have hk₀ : BitVec.ofNat 64 k₀ = sn := by
      have hcons := hks₂
      simp only [List.map_cons, List.filterMap_cons, id, List.cons.injEq] at hcons
      exact hcons.1
    have hge : n - t.unacked.length ≤ k₀ := by
      by_contra hlt
      have hst : t.status n k₀ = .acked := Window.read_of_lt (by omega)
      rw [← hk₀, hacked k₀ (by simp), hst] at hopen
      cases hopen
    rcases List.mem_cons.mp hk with rfl | hrest
    · exact hge
    · have hlt := (List.pairwise_cons.mp (List.pairwise_append.mp hsorted).2.1).1 k hrest
      change n - t.unacked.length ≤ k
      omega

theorem Recorded.cleanQueues (hlen : s.unacked.length ≤ 2 ^ 63) (idx : Nat) :
    ∃ s', s.cleanQueues idx = some s' ∧ s'.Recorded n := by
  unfold Sender.cleanQueues
  split
  · exact h.cleanSentQueue hlen h.hasSent.cleanUnackedQueue.hasSent rfl
  · exact h.cleanSentQueue hlen h.hasSent rfl

theorem Recorded.of_eq (hl : s'.lastSent = s.lastSent) (hu : s'.unacked.length = s.unacked.length)
    (hsent : s'.sent.filterMap id = s.sent.filterMap id) : s'.Recorded n := by
  obtain ⟨ks, hks, hsorted, hwin⟩ := h.sent
  refine ⟨⟨hl.trans h.hasSent.lastSent, hu ▸ h.hasSent.length_le⟩, ks, hsent.trans hks, hsorted, ?_⟩
  rw [hu]
  exact hwin

theorem Recorded.pushUnacked (packet : Pkt) (limit : Option UInt8) :
    (s.pushUnacked packet limit).Recorded (n + 1) := by
  obtain ⟨ks, hks, hsorted, hwin⟩ := h.sent
  have hlen := h.hasSent.length_le
  have hnext : s.lastSent + 1 = BitVec.ofNat 64 (n + 1) - 1 := by
    rw [h.hasSent.lastSent, sub_add_cancel, BitVec.ofNat_add]
    exact (add_sub_cancel_right _ _).symm
  refine ⟨⟨hnext, ?_⟩, ks, hks, hsorted, ?_⟩
  · simpa [Sender.pushUnacked] using hlen
  intro k hk
  have hk' := hwin k hk
  simp only [Sender.pushUnacked, List.length_append, List.length_singleton]
  omega

/-- One move keeps the records; a packet that is sent gets the next number. -/
theorem Recorded.move (hlen : s.unacked.length ≤ 2 ^ 63) (hm : Moved s m s') :
    s'.Recorded (n + m.sends) := by
  cases hm with
  | quiet | slot | queue => exact h.of_eq rfl rfl rfl
  | entry op he => exact h.of_eq rfl (by simp [setUnacked]) rfl
  | @trim _ idx hc =>
    obtain ⟨t, ht, hrec⟩ := h.cleanQueues hlen idx
    cases ht.symm.trans hc
    exact hrec
  | trimBlocked => exact h.of_eq rfl rfl (by simp [cleanBlockedQueue, List.filterMap_append])
  | send packet => exact h.pushUnacked packet none
  | @unblock packet waker limit rest hfree hfront =>
    have hpush := h.pushUnacked packet limit
    obtain ⟨ks, hks, hsorted, hwin⟩ := h.sent
    have hn : s.lastSent + 1 = BitVec.ofNat 64 n := by rw [h.hasSent.lastSent, sub_add_cancel]
    refine ⟨⟨hpush.hasSent.lastSent, hpush.hasSent.length_le⟩, ks ++ [n], ?_, ?_, ?_⟩
    · simp only [popBlocked, List.filterMap_append, hks, hn, List.map_append]
      rfl
    · refine List.pairwise_append.mpr ⟨hsorted, List.pairwise_singleton _ _, ?_⟩
      intro k hk x hx
      rw [List.mem_singleton.mp hx]
      exact (hwin k hk).2
    · intro k hk
      simp only [popBlocked, Sender.pushUnacked, List.length_append, List.length_singleton, Move.sends]
      rcases List.mem_append.mp hk with hold | hnew
      · have := hwin k hold
        omega
      · rw [List.mem_singleton.mp hnew]
        omega

theorem Recorded.moves {ps : List Pkt} (hlen : s.unacked.length + Move.totalSends ms ≤ 2 ^ 63)
    (hms : s.Moves ms ps s') : s'.Recorded (n + Move.totalSends ms) := by
  induction hms generalizing n with
  | nil => exact h
  | @cons s t u m ms ps hm hrest ih =>
    have htotal := Move.totalSends_cons m ms
    have hgrow := hm.length_le
    rw [htotal, ← Nat.add_assoc]
    exact ih (h.move (by omega) hm) (by omega)

end

theorem fits_unacked (h : s.fits = true) : s.unacked.length < 2 ^ 59 := by
  simp only [fits, Bool.and_eq_true] at h
  exact of_decide_eq_true h.1.1

theorem Reachable.recorded (h : s.Reachable) : (∃ n, s.Recorded n) ∧ s.fits = true := by
  refine Run.invariant (P := fun s : Sender Pkt => (∃ n, s.Recorded n) ∧ s.fits = true) ?_ ?_ h
  · rintro s rfl
    exact ⟨⟨0, new_recorded⟩, rfl⟩
  rintro s a s' ⟨⟨n, hrec⟩, hfit⟩ - hstep
  obtain ⟨o, ho, rfl⟩ := Option.map_eq_some_iff.mp hstep
  obtain ⟨hperform, hfit'⟩ := SenderAction.run_eq ho
  refine ⟨?_, hfit'⟩
  have hlen := fits_unacked hfit
  rcases SenderAction.perform_moves hperform with ⟨ms, hms, htotal⟩ | hreset
  · exact ⟨_, hrec.moves (by omega) hms⟩
  · rw [hreset]
    exact ⟨0, new_recorded.of_eq rfl rfl rfl⟩

/-- The numbers in `sent` are, oldest first, those of entries of `unacked`, and no other number is
    what an id resolves to. -/
theorem ids_resolve_into_window (h : s.Reachable) :
    (∃ idxs : List Nat, s.sent.filterMap id = idxs.map (fun i => s.snBase + BitVec.ofNat 64 i) ∧
      idxs.Pairwise (· < ·) ∧ ∀ i ∈ idxs, i < s.unacked.length) ∧
    ∀ i sn, s.lookupSeqNum i = some (some sn) →
      ∃ idx < s.unacked.length, sn = s.snBase + BitVec.ofNat 64 idx := by
  obtain ⟨⟨n, hrec⟩, -⟩ := h.recorded
  obtain ⟨ks, hks, hsorted, hwin⟩ := hrec.sent
  -- entry `k - (n - len)` has the number `k`
  have hidxs : s.sent.filterMap id =
      (ks.map (· - (n - s.unacked.length))).map (fun i => s.snBase + BitVec.ofNat 64 i) := by
    rw [hks, List.map_map]
    refine List.map_congr_left fun k hk => ?_
    rw [Function.comp_apply, hrec.hasSent.snBase_add, Nat.add_sub_cancel' (hwin k hk).1]
  have hlt : ∀ i ∈ ks.map (· - (n - s.unacked.length)), i < s.unacked.length := by
    refine List.forall_mem_map.mpr fun k hk => ?_
    have := hwin k hk
    omega
  refine ⟨⟨_, hidxs, ?_, hlt⟩, fun i sn hi => ?_⟩
  · refine List.pairwise_map.mpr (hsorted.imp_of_mem fun hk _ hlt => ?_)
    exact Nat.sub_lt_sub_right (hwin _ hk).1 hlt
  have hmem : some sn ∈ s.sent := by
    unfold lookupSeqNum at hi
    split at hi
    · cases hi
    · cases hi
    · cases hi
    · exact List.mem_of_getElem? hi
  have hsn : sn ∈ s.sent.filterMap id := List.mem_filterMap.mpr ⟨_, hmem, rfl⟩
  rw [hidxs] at hsn
  obtain ⟨idx, hidx, rfl⟩ := List.mem_map.mp hsn
  exact ⟨idx, hlt idx hidx, rfl⟩

/-- A packet is queued behind another one, and sent when that one is acknowledged. -/
theorem ids_resolve_unblocked : ∃ s : Sender Nat, s.Reachable ∧ s.lookupSeqNum 0 = some (some 1) ∧
    ∃ idx < s.unacked.length, 1 = s.snBase + BitVec.ofNat 64 idx := by
  refine Run.reaches_imp (P := fun s : Sender Nat => s.lookupSeqNum 0 = some (some 1)) rfl
    [.enqueuePacket 0, .enqueuePacket 1, .call (.processAck 0), .call .enqueueNextBlockedPacket]
    (by decide +kernel) ?_
  intro s hrun hid
  exact ⟨hid, (ids_resolve_into_window hrun).2 0 1 hid⟩

/-! ## Acknowledgements from the wire -/

/-- The number is that of an entry of `unacked` whose state satisfies `P`. -/
def HasEntry (s : Sender Pkt) (sn : SeqNum) (P : UnackedState Pkt → Prop) : Prop :=
  ∃ idx e, s.unacked[idx]? = some e ∧ sn = s.snBase + BitVec.ofNat 64 idx ∧ P e

def IsCancelRequested (e : UnackedState Pkt) : Prop := ∃ w f, e = .cancelRequested w f

/-- An acknowledgement or cancel-acknowledgement of this number does not panic, and unless it
    permits a transition it only counts a statistic. -/
structure AckSafe (s : Sender Pkt) (sn : SeqNum) : Prop where
  ack : (s.processAck sn).isSome
  canceled : (s.processCanceled sn).isSome
  ack_ignored : ¬ s.HasEntry sn (·.isAcked = false) →
    ∃ stat, s.processAck sn = some (none, s.countStat stat)
  canceled_ignored : ¬ s.HasEntry sn IsCancelRequested →
    ∃ stat, s.processCanceled sn = some (s.countStat stat)

theorem seqNumPosition_overflow_iff :
    s.seqNumPosition sn = .overflow ↔ wrappingOffset sn s.lastSent = -2 ^ 63 := by
  unfold seqNumPosition position
  split
  · next hpos =>
    constructor
    · intro h
      cases h
    · omega
  · split
    · next heq => simp [heq]
    · next hne =>
      split <;> simp only [reduceCtorEq, hne]

theorem Recorded.hasEntry_of_position (h : s.Recorded n) {idx : Nat} {e : UnackedState Pkt}
    {P : UnackedState Pkt → Prop} (hpos : s.seqNumPosition sn = .at idx)
    (he : s.unacked[idx]? = some e) (hP : P e) : s.HasEntry sn P := by
  refine ⟨idx, e, he, ?_, hP⟩
  rw [h.hasSent.snBase_add]
  exact (h.hasSent.eq_ofNat_of_position hpos).2

theorem AckSafe.of_ignored (st st' : SenderStat)
    (hack : s.processAck sn = some (none, s.countStat st))
    (hcan : s.processCanceled sn = some (s.countStat st')) : s.AckSafe sn :=
  ⟨by rw [hack]; rfl, by rw [hcan]; rfl, fun _ => ⟨_, hack⟩, fun _ => ⟨_, hcan⟩⟩

theorem Recorded.ackSafe (h : s.Recorded n) (hlen : s.unacked.length ≤ 2 ^ 63)
    (hnear : wrappingOffset sn s.lastSent ≠ -2 ^ 63) : s.AckSafe sn := by
  cases hpos : s.seqNumPosition sn with
  | overflow => exact absurd (seqNumPosition_overflow_iff.mp hpos) hnear
  | ahead =>
    exact .of_ignored .tooNewAck .tooNewAck (by simp [processAck, lookupAckIndex, hpos])
      (by simp [processCanceled, lookupAckIndex, hpos])
  | behind =>
    exact .of_ignored .tooOldAck .tooOldAck (by simp [processAck, lookupAckIndex, hpos])
      (by simp [processCanceled, lookupAckIndex, hpos])
  | «at» idx =>
    have hidx := (h.hasSent.eq_ofNat_of_position hpos).1
    obtain ⟨e, he⟩ : ∃ e, s.unacked[idx]? = some e := ⟨_, List.getElem?_eq_getElem hidx⟩
    -- the queues can be cleaned whatever the entry becomes
    have hclean : ∀ e, ∃ s', (s.setUnacked idx e).cleanQueues idx = some s' := by
      intro e
      have hset : (s.setUnacked idx e).Recorded n := h.of_eq rfl (by simp [setUnacked]) rfl
      obtain ⟨s', hs', -⟩ := hset.cleanQueues (by simpa [setUnacked] using hlen) idx
      exact ⟨s', hs'⟩
    obtain ⟨a, ha⟩ := hclean .acked
    cases e with
    | unacked p w l c f =>
      have hack : s.processAck sn = some (some p, a.wake w) := by
        simp [processAck, lookupAckIndex, hpos, he, ha]
      have hcan : s.processCanceled sn = some (s.countStat .invalidAck) := by
        simp [processCanceled, lookupAckIndex, hpos, he]
      exact ⟨by rw [hack]; rfl, by rw [hcan]; rfl,
        fun hno => (hno (h.hasEntry_of_position hpos he rfl)).elim, fun _ => ⟨_, hcan⟩⟩
    | cancelRequested w f =>
      have hack : s.processAck sn = some (none, a.wake w) := by
        simp [processAck, lookupAckIndex, hpos, he, ha]
      obtain ⟨c, hc⟩ := hclean (if f then .acked else .cancelAcked)
      have hcan : s.processCanceled sn = some (c.wake w) := by
        simp [processCanceled, lookupAckIndex, hpos, he, hc]
      exact ⟨by rw [hack]; rfl, by rw [hcan]; rfl,
        fun hno => (hno (h.hasEntry_of_position hpos he rfl)).elim,
        fun hno => (hno (h.hasEntry_of_position hpos he ⟨w, f, rfl⟩)).elim⟩
    | acked =>
      exact .of_ignored .duplicateAck .invalidAck (by simp [processAck, lookupAckIndex, hpos, he])
        (by simp [processCanceled, lookupAckIndex, hpos, he])
    | cancelAcked =>
      exact .of_ignored .invalidAck .duplicateAck (by simp [processAck, lookupAckIndex, hpos, he])
        (by simp [processCanceled, lookupAckIndex, hpos, he])

/-- In every reachable state an acknowledgement is harmless exactly when its number is not at the
    signed distance `i64::MIN` from `last_sent`. -/
theorem acks_harmless_iff (h : s.Reachable) (sn : SeqNum) :
    s.AckSafe sn ↔ wrappingOffset sn s.lastSent ≠ -2 ^ 63 := by
  obtain ⟨⟨n, hrec⟩, hfit⟩ := h.recorded
  have hlen := fits_unacked hfit
  constructor
  · intro hsafe hfar
    have hnone : s.processAck sn = none := by
      simp [processAck, lookupAckIndex, seqNumPosition_overflow_iff.mpr hfar]
    have hsome := hsafe.ack
    rw [hnone] at hsome
    cases hsome
  · intro hnear
    exact hrec.ackSafe (by omega) hnear

/-- A packet is sent and cancelled; the peer acknowledges a number it was never sent. -/
theorem acks_harmless_unsent :
    ∃ s : Sender Nat, s.Reachable ∧ s.unacked.length = 1 ∧ s.AckSafe 7 := by
  refine Run.reaches_imp (P := fun s : Sender Nat => s.unacked.length = 1 ∧
    wrappingOffset 7 s.lastSent ≠ -2 ^ 63) rfl [.enqueuePacket 0, .call (.cancelSentPacket 0)]
    (by decide +kernel) ?_
  rintro s hrun ⟨hlen, hnear⟩
  exact ⟨hlen, (acks_harmless_iff hrun 7).mpr hnear⟩

/-- An acknowledgement of number `2^63 - 1` kills a sender that has sent nothing. -/
theorem far_ack_panics :
    Reachable (new : Sender Nat) ∧ (new : Sender Nat).processAck (BitVec.ofNat 64 (2 ^ 63 - 1)) = none ∧
      (new : Sender Nat).processCanceled (BitVec.ofNat 64 (2 ^ 63 - 1)) = none :=
  ⟨.start rfl, by decide +kernel, by decide +kernel⟩

end Sender

/-! ## Displaying a sender -/

/-- The packet has not been retried more often than its limit permits. -/
def UnackedState.withinLimit : UnackedState Pkt → Bool
  | .unacked _ _ (some limit) retryCount _ => decide (retryCount ≤ limit)
  | _ => true

/-- A letter or the decimal numeral of a byte. -/
def IsSymbol (t : String) : Prop := t ∈ ["u", "f", "c", "A", "C", "b"] ∨ ∃ n < 256, t = toString n

theorem UnackedState.symbol_spec (e : UnackedState Pkt) :
    (e.withinLimit = true ∧ ∃ t, e.symbol = some t ∧ IsSymbol t) ∨
      (e.withinLimit = false ∧ e.symbol = none) := by
  cases e with
  | unacked packet waker retryLimit retryCount forgotten =>
    cases retryLimit with
    | none => exact .inl ⟨rfl, _, rfl, .inl (by simp)⟩
    | some limit =>
      rw [symbol]
      split
      · next hlt => exact .inr ⟨decide_eq_false (UInt8.not_le.mpr hlt), rfl⟩
      · next hle =>
        exact .inl ⟨decide_eq_true (UInt8.not_lt.mp hle), _, rfl, .inr ⟨_, UInt8.toNat_lt _, rfl⟩⟩
  | cancelRequested waker forgotten =>
    cases forgotten <;> exact .inl ⟨rfl, _, rfl, .inl (by simp)⟩
  | acked | cancelAcked => exact .inl ⟨rfl, _, rfl, .inl (by simp)⟩

theorem BlockedState.isSymbol : ∀ b : BlockedState Pkt, IsSymbol b.symbol
  | .blocked _ _ none | .canceled => .inl (by simp [symbol])
  | .blocked _ _ (some limit) => .inr ⟨_, limit.toNat_lt, rfl⟩

namespace Sender

theorem mapM_symbol (l : List (UnackedState Pkt)) :
    ((∀ e ∈ l, e.withinLimit = true) ∧ ∃ us, l.mapM UnackedState.symbol = some us ∧
      us.length = l.length ∧ ∀ t ∈ us, IsSymbol t) ∨
    (¬ (∀ e ∈ l, e.withinLimit = true) ∧ l.mapM UnackedState.symbol = none) := by
  induction l with
  | nil => exact .inl ⟨by simp, [], rfl, rfl, by simp⟩
  | cons e l ih =>
    rw [List.forall_mem_cons, List.mapM_cons]
    rcases e.symbol_spec with ⟨he, t, ht, hsym⟩ | ⟨he, ht⟩
    · rcases ih with ⟨hl, us, hus, hlen, hall⟩ | ⟨hl, hnone⟩
      · refine .inl ⟨⟨he, hl⟩, t :: us, by simp [ht, hus], congrArg (· + 1) hlen, ?_⟩
        exact List.forall_mem_cons.mpr ⟨hsym, hall⟩
      · exact .inr ⟨fun h => hl h.2, by simp [ht, hnone]⟩
    · exact .inr ⟨by simp [he], by simp [ht]⟩

/-- `fmt` does not overflow, and it writes one symbol for each entry. -/
def Displays (s : Sender Pkt) : Prop :=
  ∃ us bs, s.fmt = some (s.layout us bs) ∧ us.length = s.unacked.length ∧
    bs.length = s.blocked.length ∧ ∀ t ∈ us ++ bs, IsSymbol t

/-- A sender can be displayed exactly if no packet has been retried more often than its limit
    permits. -/
theorem displays_iff (s : Sender Pkt) : s.Displays ↔ ∀ e ∈ s.unacked, e.withinLimit = true := by
  rcases mapM_symbol s.unacked with ⟨hall, us, hus, hlen, hsym⟩ | ⟨hnot, hnone⟩
  · refine iff_of_true ⟨us, _, congrArg _ hus, hlen, List.length_map .., ?_⟩ hall
    refine List.forall_mem_append.mpr ⟨hsym, List.forall_mem_map.mpr fun b _ => b.isSymbol⟩
  refine iff_of_false ?_ hnot
  rintro ⟨us, bs, hfmt, -⟩
  rw [fmt, hnone] at hfmt
  cases hfmt

/-- A packet is retried once and then limited to no retries. -/
theorem lowered_limit_overflows : ∃ s : Sender Nat, s.Reachable ∧ s.fmt = none :=
  Run.reaches rfl
    [.enqueuePacket 7, .call (.ageRetries 1), .call (.limitRetriesBySeqNum 0 0)] (by decide +kernel)

end Sender

end ZprCore.Zdpr
