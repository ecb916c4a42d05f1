-- SUMMARY: Exactly-once delivery in a ZDP-R session.
import ZprCore.Zdpr.Session

/-!
# Delivery guarantees of a ZDP-R session

The invariant `Session.Inv` relates the sender's window, the receiver's bitsets and every
message on the wire. Its core is that a packet whose status is settled has been seen by the
receiver (`settled`), so that everything older than the sender's window has been seen, and that
a packet the sender still wants delivered has not been refused (`wanted`).
-/

namespace ZprCore.Zdpr

open UnackedState

variable {Pkt : Type} {n k W : Nat} {sn : SeqNum} {f : UnackedState Pkt → UnackedState Pkt}

/-! ## What a caller's operation can do -/

def UnackedState.isUnacked : UnackedState Pkt → Bool
  | .unacked .. => true
  | _ => false

/-- An update that neither settles a packet nor takes back a cancellation. -/
def Quiet (f : UnackedState Pkt → UnackedState Pkt) : Prop :=
  ∀ e, ((f e).isAcked = true → e.isAcked = true) ∧ ((f e).isUnacked = true → e.isUnacked = true)

theorem Quiet.onSeqNum (hf : Quiet f) (sn : SeqNum) (k : Nat) : Quiet (Sender.onSeqNum sn f k) := by
  intro e
  unfold Sender.onSeqNum
  split
  · exact hf e
  · exact ⟨fun h => h, fun h => h⟩

theorem quiet_forget : Quiet (fun e : UnackedState Pkt => e.forget) := by
  intro e
  cases e with
  | unacked p w l c f =>
    cases l <;> simp [forget, isAcked, UnackedState.isUnacked]
  | cancelRequested | acked | cancelAcked =>
    simp [forget, isAcked, UnackedState.isUnacked]

def UnackedState.forgotten : UnackedState Pkt → Bool
  | .unacked _ _ _ _ forgotten | .cancelRequested _ forgotten => forgotten
  | .acked | .cancelAcked => false

/-- A quiet update that forgets nothing: it leaves no `Acked` entry and no mark behind. -/
structure Mild (f : UnackedState Pkt → UnackedState Pkt) : Prop where
  quiet : Quiet f
  fixes : f .acked = .acked
  acked : ∀ e, f e = .acked → e = .acked
  forgotten : ∀ e, (f e).forgotten = true → e.forgotten = true

namespace Mild

theorem id : Mild (fun e : UnackedState Pkt => e) :=
  ⟨fun _ => ⟨fun h => h, fun h => h⟩, rfl, fun _ h => h, fun _ h => h⟩

theorem comp {g : UnackedState Pkt → UnackedState Pkt} (hf : Mild f) (hg : Mild g) :
    Mild (fun e => g (f e)) where
  quiet e := ⟨fun h => (hf.quiet e).1 ((hg.quiet _).1 h), fun h => (hf.quiet e).2 ((hg.quiet _).2 h)⟩
  fixes := by rw [hf.fixes, hg.fixes]
  acked e h := hf.acked e (hg.acked _ h)
  forgotten e h := hf.forgotten e (hg.forgotten _ h)

theorem cancelAcked (hf : Mild f) {e : UnackedState Pkt} (h : f e = .cancelAcked) :
    e = .cancelAcked := by
  have hacked : e.isAcked = true := (hf.quiet e).1 (by rw [h]; rfl)
  cases e with
  | cancelAcked => rfl
  | acked =>
    rw [hf.fixes] at h
    cases h
  | unacked | cancelRequested => cases hacked

theorem onSeqNum (hf : Mild f) (sn : SeqNum) (k : Nat) : Mild (Sender.onSeqNum sn f k) := by
  unfold Sender.onSeqNum
  by_cases h : BitVec.ofNat 64 k = sn
  · simp only [h, if_true]
    exact hf
  · simp only [h, if_false]
    exact .id

theorem cancel : Mild (fun e : UnackedState Pkt => e.cancel.2) := by
  refine ⟨fun e => ?_, rfl, fun e => ?_, fun e => ?_⟩ <;>
    cases e <;> simp [UnackedState.cancel, isAcked, UnackedState.isUnacked,
      UnackedState.forgotten]

theorem limitRetries (limit : UInt8) : Mild (fun e : UnackedState Pkt => e.limitRetries limit) := by
  refine ⟨fun e => ?_, rfl, fun e => ?_, fun e => ?_⟩ <;>
    cases e <;> simp [UnackedState.limitRetries, isAcked, UnackedState.isUnacked,
      UnackedState.forgotten]

theorem setWaker (cx : Waker) : Mild (fun e : UnackedState Pkt => e.setWaker cx) := by
  refine ⟨fun e => ?_, rfl, fun e => ?_, fun e => ?_⟩ <;>
    cases e <;> simp [UnackedState.setWaker, isAcked, UnackedState.isUnacked,
      UnackedState.forgotten]

theorem ageRetries_cases (e : UnackedState Pkt) :
    e.ageRetries.2 = e.cancel.2 ∨ e.ageRetries.2 = e ∨ ∃ p w l c c' f,
      e = .unacked p w l c f ∧ e.ageRetries.2 = .unacked p w l c' f := by
  cases e with
  | unacked p w l c f =>
    cases l with
    | none => exact .inr (.inr ⟨p, w, none, c, _, f, rfl, rfl⟩)
    | some limit =>
      simp only [UnackedState.ageRetries]
      split
      · exact .inl rfl
      · exact .inr (.inr ⟨p, w, some limit, c, _, f, rfl, rfl⟩)
  | cancelRequested | acked | cancelAcked => exact .inr (.inl rfl)

theorem ageRetries : Mild (fun e : UnackedState Pkt => e.ageRetries.2) := by
  have hcancel : Mild (fun e : UnackedState Pkt => e.cancel.2) := cancel
  refine ⟨fun e => ?_, rfl, fun e => ?_, fun e => ?_⟩ <;>
    rcases ageRetries_cases e with h | h | ⟨p, w, l, c, c', f, rfl, h⟩ <;> rw [h]
  · exact hcancel.quiet e
  · exact ⟨fun h => h, fun h => h⟩
  · exact ⟨nofun, fun _ => rfl⟩
  · exact hcancel.acked e
  · exact fun h => h
  · exact nofun
  · exact hcancel.forgotten e
  all_goals exact fun h => h

end Mild

/-- A message is about a packet that was sent, and a cancellation request about one that the
    sender no longer wants delivered. -/
def Message.Justified (n : Nat) (s : Sender Pkt) (m : Message Pkt) : Prop :=
  ∃ k < n, m.sn = BitVec.ofNat 64 k ∧
    (m = .cancel (BitVec.ofNat 64 k) → (s.status n k).isUnacked = false)

def SenderOp.forgets : SenderOp Pkt → Bool
  | .forgetCanceledPacket _ => true
  | _ => false

def SenderOp.sendsPacket : SenderOp Pkt → Bool
  | .enqueuePacket _ | .enqueueNextBlockedPacket => true
  | _ => false

/-- What an operation of the caller does to a sender that has sent `n` packets. -/
inductive SenderOp.Effect (n : Nat) (s s' : Sender Pkt) (messages : List (Message Pkt)) :
    SenderOp Pkt → Prop where
  | quiet {op : SenderOp Pkt} (f : Nat → UnackedState Pkt → UnackedState Pkt)
      (evolves : Sender.Evolves n f s s') (quiet : ∀ k, Quiet (f k))
      (mild : op.forgets = false → ∀ k, Mild (f k))
      (justified : ∀ m ∈ messages, m.Justified n s') : Effect n s s' messages op
  | sends {op : SenderOp Pkt} (hop : op.sendsPacket = true) (packet : Pkt)
      (retryLimit : Option UInt8) (sends : Sender.Sends n packet retryLimit s s')
      (messages_eq : messages = [.packet (BitVec.ofNat 64 n) packet]) : Effect n s s' messages op
  | adjusts (windowSize : Nat)
      (sender_eq : s' = { s with windowSize := min Sender.maxWindowSize windowSize })
      (messages_eq : messages = []) : Effect n s s' messages (.adjustWindowSize windowSize)

variable {s s' : Sender Pkt} {messages : List (Message Pkt)} {op : SenderOp Pkt}
  {id : QueuedPacketId}

theorem Sender.HasSent.cancelSentPacket_some (hs : s.HasSent n) {p : Pkt}
    (h : s.cancelSentPacket sn = some (some p, s')) : ∃ k < n, sn = BitVec.ofNat 64 k := by
  have hlen := hs.length_le
  unfold Sender.cancelSentPacket at h
  split at h
  · cases h
  · cases h
  · cases h
  · next hpos =>
    obtain ⟨hidx, hsn⟩ := hs.eq_ofNat_of_position hpos
    exact ⟨_, by omega, hsn⟩

theorem Sender.HasSent.limitRetriesById (hs : s.HasSent n) (hn : n < 2 ^ 63) {limit : UInt8}
    (h : s.limitRetriesById id limit = some s') :
    ∃ f, Sender.Evolves n f s s' ∧ ∀ k, Mild (f k) := by
  unfold Sender.limitRetriesById at h
  split at h
  · cases h
  · cases h
  · split at h
    · cases h
    · cases h
      exact ⟨_, hs.evolves_refl, fun _ => .id⟩
    · exact ⟨_, hs.applies hn (Sender.limitRetriesBySeqNum_effect h), (Mild.limitRetries limit).onSeqNum _⟩
  · obtain ⟨st, -, rfl⟩ := Option.map_eq_some_iff.mp h
    exact ⟨_, hs.evolves_of_eq rfl rfl rfl fun _ h => h, fun _ => .id⟩

theorem Sender.HasSent.pollSendAndAck (hs : s.HasSent n) (hn : n < 2 ^ 63) {cx : Waker}
    {r : Poll Unit} (h : s.pollSendAndAck cx id = some (r, s')) :
    ∃ f, Sender.Evolves n f s s' ∧ ∀ k, Mild (f k) := by
  unfold Sender.pollSendAndAck at h
  split at h
  · cases h
  · next hp =>
    cases h
    exact ⟨_, hs.pollSend hp, fun _ => .id⟩
  · next hp =>
    have hev := hs.pollSend hp
    exact ⟨_, hev.trans (hev.hasSent.applies hn (Sender.pollAck_effect h)),
      (Mild.setWaker cx).onSeqNum _⟩
  · next hp =>
    cases h
    exact ⟨_, hs.pollSend hp, fun _ => .id⟩

theorem SenderOp.Effect.of_mild {f : Nat → UnackedState Pkt → UnackedState Pkt}
    (hev : Sender.Evolves n f s s') (hf : ∀ k, Mild (f k)) (hm : ∀ m ∈ messages, m.Justified n s') :
    SenderOp.Effect n s s' messages op :=
  .quiet f hev (fun k => (hf k).quiet) (fun _ => hf) hm

theorem SenderOp.run_effect (hs : s.HasSent n) (hn : n < 2 ^ 63)
    (h : op.run s = some (s', messages)) : SenderOp.Effect n s s' messages op := by
  have hnone : ∀ (t : Sender Pkt), ∀ m ∈ ([] : List (Message Pkt)), m.Justified n t := by simp
  cases op with
  | enqueuePacket packet =>
    rcases hs.enqueuePacket packet with ⟨id, hres, hev⟩ | ⟨hres, hsends⟩
    all_goals
      simp only [run] at h
      split at h <;> simp_all only [Option.some.injEq, Prod.mk.injEq, reduceCtorEq,
        EnqueueResult.sent.injEq]
    · exact .of_mild hev (fun _ => .id) (hnone _)
    · obtain ⟨rfl, rfl⟩ := h
      exact .sends rfl packet none hsends rfl
  | enqueueNextBlockedPacket =>
    simp only [run] at h
    split at h
    · obtain ⟨⟨r, t⟩, ht, heq⟩ := Option.map_eq_some_iff.mp h
      cases heq
      obtain ⟨packet, -, limit, -, -, rfl, hsends⟩ := hs.enqueueNextBlockedPacket ht
      exact .sends rfl packet limit hsends rfl
    · cases h
  | retryPackets =>
    cases h
    -- a retry repeats a message of an entry that is still open
    refine .of_mild hs.evolves_refl (fun _ => .id) ?_
    intro m hm
    obtain ⟨⟨sn, packet⟩, hmem, rfl⟩ := List.mem_map.mp hm
    obtain ⟨k, hk, hsn, -⟩ := hs.mem_retryPackets hmem
    exact ⟨k, hk, hsn, fun h => by cases h⟩
  | retryCancels =>
    cases h
    refine .of_mild hs.evolves_refl (fun _ => .id) ?_
    intro m hm
    obtain ⟨sn, hmem, rfl⟩ := List.mem_map.mp hm
    obtain ⟨k, hk, hsn, -, w, f, hst⟩ := hs.mem_retryCancels hmem
    exact ⟨k, hk, hsn, fun _ => by rw [hst]; rfl⟩
  | ageRetries =>
    cases h
    exact .of_mild hs.ageRetries (fun _ => .ageRetries) (hnone _)
  | cancelQueuedPacket id =>
    obtain ⟨⟨r, t⟩, ht, heq⟩ := Option.map_eq_some_iff.mp h
    cases heq
    exact .of_mild (hs.cancelQueuedPacket ht) (fun _ => .id) (hnone _)
  | cancelSentPacket sn =>
    obtain ⟨⟨r, t⟩, ht, heq⟩ := Option.map_eq_some_iff.mp h
    cases heq
    have hev := hs.applies hn (Sender.cancelSentPacket_effect ht)
    refine .of_mild hev (Mild.cancel.onSeqNum sn) ?_
    intro m hm
    cases r with
    | none => simp at hm
    | some p =>
      obtain rfl := List.mem_singleton.mp hm
      obtain ⟨k, hk, rfl⟩ := hs.cancelSentPacket_some ht
      refine ⟨k, hk, rfl, fun _ => ?_⟩
      rw [hev.status k hk]
      simp only [Sender.onSeqNum, if_true]
      cases s.status n k <;> rfl
  | limitRetriesById id limit =>
    obtain ⟨t, ht, heq⟩ := Option.map_eq_some_iff.mp h
    cases heq
    obtain ⟨f, hev, hq⟩ := hs.limitRetriesById hn ht
    exact .of_mild hev hq (hnone _)
  | limitRetriesBySeqNum sn limit =>
    obtain ⟨t, ht, heq⟩ := Option.map_eq_some_iff.mp h
    cases heq
    exact .of_mild (hs.applies hn (Sender.limitRetriesBySeqNum_effect ht))
      ((Mild.limitRetries limit).onSeqNum sn) (hnone _)
  | forgetCanceledPacket sn =>
    obtain ⟨t, ht, heq⟩ := Option.map_eq_some_iff.mp h
    cases heq
    exact .quiet _ (hs.settles hn (Sender.forgetCanceledPacket_effect ht))
      (quiet_forget.onSeqNum sn) nofun (hnone _)
  | adjustWindowSize windowSize =>
    obtain ⟨t, ht, heq⟩ := Option.map_eq_some_iff.mp h
    cases heq
    exact .adjusts windowSize (Sender.adjustWindowSize_eq ht) rfl
  | pollSend cx id =>
    obtain ⟨⟨r, t⟩, ht, heq⟩ := Option.map_eq_some_iff.mp h
    cases heq
    exact .of_mild (hs.pollSend ht) (fun _ => .id) (hnone _)
  | pollAck cx sn =>
    obtain ⟨⟨r, t⟩, ht, heq⟩ := Option.map_eq_some_iff.mp h
    cases heq
    exact .of_mild (hs.applies hn (Sender.pollAck_effect ht)) ((Mild.setWaker cx).onSeqNum sn)
      (hnone _)
  | pollSendAndAck cx id =>
    obtain ⟨⟨r, t⟩, ht, heq⟩ := Option.map_eq_some_iff.mp h
    cases heq
    obtain ⟨f, hev, hq⟩ := hs.pollSendAndAck hn ht
    exact .of_mild hev hq (hnone _)

/-! ## The invariant -/

namespace Session

variable {c c' : Session Pkt}

/-- The numbers the receiver has seen, and those it has refused; everything below 0 counts
    as refused, as in the initial bitsets. -/
def Seen (c : Session Pkt) (j : Int) : Prop :=
  j < 0 ∨ ∃ sn, (sn ∈ c.processed ∨ sn ∈ c.refused) ∧ (sn.toNat : Int) = j

def Refused (c : Session Pkt) (j : Int) : Prop := j < 0 ∨ ∃ sn ∈ c.refused, (sn.toNat : Int) = j

structure Inv (W : Nat) (c : Session Pkt) : Prop where
  hasSent : c.sender.HasSent c.sentCount
  sender_window : c.sender.windowSize ≤ W
  sender_length : c.sender.unacked.length ≤ W
  receiver_window : c.receiver.windowSize = W
  represents : ∃ H : Int, -1 ≤ H ∧ H < c.sentCount ∧ c.receiver.Represents H c.Seen c.Refused
  seen_lt : ∀ sn, sn ∈ c.processed ∨ sn ∈ c.refused → sn.toNat < c.sentCount
  nodup : c.processed.Nodup
  disjoint : ∀ sn ∈ c.processed, sn ∉ c.refused
  settled : ∀ k < c.sentCount, (c.sender.status c.sentCount k).isAcked = true →
    BitVec.ofNat 64 k ∈ c.processed ∨ BitVec.ofNat 64 k ∈ c.refused
  wanted : ∀ k < c.sentCount, (c.sender.status c.sentCount k).isUnacked = true →
    BitVec.ofNat 64 k ∉ c.refused ∧ .cancel (BitVec.ofNat 64 k) ∉ c.forward
  forward_lt : ∀ m ∈ c.forward, m.sn.toNat < c.sentCount
  ack_processed : ∀ sn, .ack sn ∈ c.backward → sn ∈ c.processed
  canceled_refused : ∀ sn, .canceled sn ∈ c.backward → sn ∈ c.refused
  acked_processed : ∀ sn ∈ c.acked, sn ∈ c.processed
  cancelAcked_refused : ∀ sn ∈ c.cancelAcked, sn ∈ c.refused
  sent_lt : ∀ sn, some sn ∈ c.sender.sent → sn.toNat < c.sentCount

theorem toNat_ofNat_of_lt (h : k < 2 ^ 63) : (BitVec.ofNat 64 k).toNat = k := by
  rw [BitVec.toNat_ofNat, Nat.mod_eq_of_lt (by omega)]

theorem inv_start (hW : 1 ≤ W) (h : start W = some c) : Inv W c := by
  obtain ⟨r, hr, rfl⟩ := Option.map_eq_some_iff.mp h
  have hrep := Receiver.new_represents hr
  have hwin : r.windowSize = W := by
    unfold Receiver.new at hr
    split at hr
    · cases hr
      rfl
    · cases hr
  have hseen : Seen (⟨.new, r, [], [], 0, [], [], [], []⟩ : Session Pkt) = (· < 0) := by
    funext j
    simp [Seen]
  have hrefused : Refused (⟨.new, r, [], [], 0, [], [], [], []⟩ : Session Pkt) = (· < 0) := by
    funext j
    simp [Refused]
  exact
    { hasSent := Sender.new_hasSent
      sender_window := hW
      sender_length := by simp [Sender.new]
      receiver_window := hwin
      represents := ⟨-1, by omega, by simp, by rw [hseen, hrefused]; exact hrep⟩
      seen_lt := by simp
      nodup := List.nodup_nil
      disjoint := by simp
      settled := by simp
      wanted := by simp
      forward_lt := by simp
      ack_processed := by simp
      canceled_refused := by simp
      acked_processed := by simp
      cancelAcked_refused := by simp
      sent_lt := by simp [Sender.new] }

variable {H : Int} {r : Receiver} {a : SessionAction Pkt} {d : Disposition}

theorem Inv.quiet (hi : Inv W c) (hn : c.sentCount < 2 ^ 63)
    {f : Nat → UnackedState Pkt → UnackedState Pkt} (hev : Sender.Evolves c.sentCount f c.sender s')
    (hq : ∀ k, Quiet (f k)) (hm : ∀ m ∈ messages, m.Justified c.sentCount s') :
    Inv W { c with sender := s', forward := c.forward ++ messages } :=
  { hi with
    hasSent := hev.hasSent
    sender_window := hev.windowSize ▸ hi.sender_window
    sender_length := hev.length_le.trans hi.sender_length
    settled := by
      intro k hk hacked
      simp only [hev.status k hk] at hacked
      exact hi.settled k hk ((hq k _).1 hacked)
    wanted := by
      intro k (hk : k < c.sentCount) hopen
      have hopen' := hopen
      simp only [hev.status k hk] at hopen'
      obtain ⟨hnot, hcancel⟩ := hi.wanted k hk ((hq k _).2 hopen')
      refine ⟨hnot, ?_⟩
      simp only [List.mem_append, not_or]
      refine ⟨hcancel, fun hmem => ?_⟩
      -- a new cancellation request is about a packet that is no longer wanted
      obtain ⟨k', hk', hsn, hjust⟩ := hm _ hmem
      obtain rfl : k = k' := ofNat_inj_of_lt (by omega) (by omega) hsn
      rw [hjust rfl] at hopen
      cases hopen
    forward_lt := by
      intro m hmem
      rcases List.mem_append.mp hmem with hold | hnew
      · exact hi.forward_lt m hold
      · obtain ⟨k, hk, hsn, -⟩ := hm m hnew
        rw [hsn, toNat_ofNat_of_lt (by omega)]
        exact hk
    sent_lt := fun sn hsn => hi.sent_lt sn (hev.sent_mem sn hsn) }

theorem Inv.sends (hi : Inv W c) (hn : c.sentCount + 1 < 2 ^ 63) {packet : Pkt}
    {retryLimit : Option UInt8} (hs : Sender.Sends c.sentCount packet retryLimit c.sender s') :
    Inv W
      { c with
        sender := s'
        forward := c.forward ++ [.packet (BitVec.ofNat 64 c.sentCount) packet]
        sentCount := c.sentCount + 1 } := by
  have hwindow := hi.sender_window
  have hfull := hs.not_blocked
  have hseen : ∀ sn, sn ∈ c.processed ∨ sn ∈ c.refused → sn.toNat < c.sentCount + 1 :=
    fun sn hsn => Nat.lt_succ_of_lt (hi.seen_lt sn hsn)
  have hnew : (BitVec.ofNat 64 c.sentCount).toNat = c.sentCount := toNat_ofNat_of_lt (by omega)
  obtain ⟨H, hlo, hhi, hrep⟩ := hi.represents
  exact
    { hi with
      hasSent := hs.hasSent
      sender_window := hs.windowSize ▸ hi.sender_window
      sender_length := by
        simp only [hs.length_eq]
        omega
      represents := ⟨H, hlo, by simp only [Nat.cast_add, Nat.cast_one]; omega, hrep⟩
      seen_lt := hseen
      settled := by
        intro k hk hacked
        rcases Nat.lt_succ_iff_lt_or_eq.mp hk with hlt | rfl
        · simp only [hs.status_old k hlt] at hacked
          exact hi.settled k hlt hacked
        · simp only [hs.status_new] at hacked
          cases hacked
      wanted := by
        intro k hk hopen
        simp only [List.mem_append, List.mem_singleton, reduceCtorEq, or_false]
        rcases Nat.lt_succ_iff_lt_or_eq.mp hk with hlt | rfl
        · simp only [hs.status_old k hlt] at hopen
          exact hi.wanted k hlt hopen
        -- a new number is on no message and in no log yet
        constructor
        · intro hmem
          have := hi.seen_lt _ (.inr hmem)
          omega
        · intro hmem
          have := hi.forward_lt _ hmem
          simp only [Message.sn] at this
          omega
      forward_lt := by
        intro m hmem
        rcases List.mem_append.mp hmem with hold | hm
        · exact Nat.lt_succ_of_lt (hi.forward_lt m hold)
        · obtain rfl := List.mem_singleton.mp hm
          simp only [Message.sn]
          omega
      sent_lt := by
        intro sn hsn
        rcases hs.sent_mem sn hsn with hold | rfl
        · exact Nat.lt_succ_of_lt (hi.sent_lt sn hold)
        · simp only
          omega }

theorem Inv.adjusts (hi : Inv W c) {windowSize : Nat} (hw : windowSize ≤ W) :
    Inv W
      { c with sender := { c.sender with windowSize := min Sender.maxWindowSize windowSize } } :=
  { hi with
    hasSent := ⟨hi.hasSent.lastSent, hi.hasSent.length_le⟩
    sender_window := (Nat.min_le_right _ _).trans hw
    sender_length := hi.sender_length
    settled := hi.settled
    wanted := hi.wanted
    sent_lt := hi.sent_lt }

theorem exists_toNat_iff {j : Nat} (hj : j < 2 ^ 63) {p : SeqNum → Prop} :
    ((j : Int) < 0 ∨ ∃ sn, p sn ∧ (sn.toNat : Int) = j) ↔ p (BitVec.ofNat 64 j) := by
  constructor
  · rintro (hneg | ⟨sn, hmem, heq⟩)
    · omega
    · obtain rfl : sn = BitVec.ofNat 64 j := by
        rw [← Int.ofNat_inj.mp heq, BitVec.ofNat_toNat, BitVec.setWidth_eq]
      exact hmem
  · intro hmem
    exact .inr ⟨_, hmem, by rw [toNat_ofNat_of_lt hj]⟩

/-- Everything a window below a sent packet has left the sender's window, and was seen. -/
theorem Inv.seen_below (hi : Inv W c) (hn : c.sentCount < 2 ^ 63) (hk : k < c.sentCount) {j : Int}
    (hj : j ≤ k - W) : c.Seen j := by
  have hlen := hi.sender_length
  by_cases hneg : j < 0
  · exact .inl hneg
  obtain ⟨m, rfl⟩ := Int.eq_ofNat_of_zero_le (Int.not_lt.mp hneg)
  refine (exists_toNat_iff (by omega)).mpr (hi.settled m (by omega) ?_)
  unfold Sender.status
  rw [Window.read_of_lt (by omega)]
  rfl

/-- The possible answers to a message about a packet that was sent. -/
inductive Answer (W : Nat) (c : Session Pkt) (sn : SeqNum) (isCancel : Bool) (H : Int)
    (r : Receiver) : Disposition → Prop where
  | tooOld (old : (sn.toNat : Int) + W ≤ H) (represents : r.Represents H c.Seen c.Refused) :
      Answer W c sn isCancel H r .ignore
  | duplicate (processed : sn ∈ c.processed) (represents : r.Represents H c.Seen c.Refused) :
      Answer W c sn isCancel H r .ackDoNotProcess
  | duplicateCancel (refused : sn ∈ c.refused) (represents : r.Represents H c.Seen c.Refused) :
      Answer W c sn isCancel H r .ackCancelDoNotProcess
  | fresh (not_processed : sn ∉ c.processed) (not_refused : sn ∉ c.refused)
      (represents : r.Represents (max H sn.toNat) (fun j => c.Seen j ∨ j = sn.toNat)
        (fun j => c.Refused j ∨ isCancel = true ∧ j = sn.toNat)) :
      Answer W c sn isCancel H r (Receiver.freshDisposition isCancel)

theorem Inv.receive (hi : Inv W c) (hn : c.sentCount < 2 ^ 63) (hW : W ≤ 63)
    (hsn : sn.toNat < c.sentCount) (isCancel : Bool) :
    ∃ (H : Int) (d : Disposition) (r : Receiver),
      -1 ≤ H ∧ H < c.sentCount ∧ r.windowSize = W ∧
      c.receiver.processPacketOrCancel sn isCancel = some (d, r) ∧ Answer W c sn isCancel H r d := by
  obtain ⟨H, hlo, hhi, hrep⟩ := hi.represents
  have hwin := hi.receiver_window
  have hoff : wrappingOffset sn c.receiver.highestSeen = sn.toNat - H := by
    have h := wrappingOffset_ofInt (a := sn.toNat) (b := H) (by omega) (by omega)
    rwa [BitVec.ofInt_natCast, BitVec.ofNat_toNat, BitVec.setWidth_eq, ← hrep.highest] at h
  have hpos : H + wrappingOffset sn c.receiver.highestSeen = sn.toNat := by omega
  have hself : BitVec.ofNat 64 sn.toNat = sn := by rw [BitVec.ofNat_toNat, BitVec.setWidth_eq]
  by_cases hold : wrappingOffset sn c.receiver.highestSeen ≤ -(c.receiver.windowSize : Int)
  · exact ⟨H, _, c.receiver.countStat .tooOld, hlo, hhi, hwin,
      Receiver.processPacketOrCancel_old hold,
      .tooOld (by omega) (hrep.countStat _)⟩
  have hbelow : ∀ j ≤ H + wrappingOffset sn c.receiver.highestSeen - c.receiver.windowSize,
      c.Seen j := by
    intro j hj
    exact hi.seen_below hn hsn (by omega)
  have hseen : c.Seen sn.toNat ↔ _ := exists_toNat_iff (by omega)
  have hrefused : c.Refused sn.toNat ↔ _ := exists_toNat_iff (by omega)
  rw [hself] at hseen hrefused
  by_cases hs : c.Seen sn.toNat
  · obtain ⟨d, heq, hyes, hno⟩ :=
        hrep.processPacketOrCancel_seen isCancel (by omega) hold hbelow (by rwa [hpos])
    rw [hpos, hrefused] at hyes hno
    by_cases hr : sn ∈ c.refused
    · obtain rfl := hyes hr
      exact ⟨H, _, c.receiver.countStat .duplicate, hlo, hhi, hwin, heq,
        .duplicateCancel hr (hrep.countStat _)⟩
    · obtain rfl := hno hr
      have hp : sn ∈ c.processed := (hseen.mp hs).resolve_right hr
      exact ⟨H, _, c.receiver.countStat .duplicate, hlo, hhi, hwin, heq,
        .duplicate hp (hrep.countStat _)⟩
  · have hlim := hrep.offset_le_window hbelow
    obtain ⟨r, heq, hw, hrep'⟩ := hrep.processPacketOrCancel_fresh isCancel (by omega) (by omega)
      hold hbelow (by rwa [hpos])
    rw [hpos] at hrep'
    rw [hseen, not_or] at hs
    exact ⟨H, _, r, hlo, hhi, hw.trans hwin, heq, .fresh hs.1 hs.2 hrep'⟩

theorem answer_seen : (c.answer sn d r).Seen =
    fun j => c.Seen j ∨ (d.shouldProcess = true ∨ d.ackIsCanceled = true) ∧ j = sn.toNat := by
  unfold Seen Session.answer
  cases d <;> simp +decide <;> grind

theorem answer_refused : (c.answer sn d r).Refused =
    fun j => c.Refused j ∨ d.ackIsCanceled = true ∧ j = sn.toNat := by
  unfold Refused Session.answer
  cases d <;> simp +decide
  grind

/-- An answer may repeat an earlier decision. A cancellation request is accepted if it arrives first,
    and is only ever sent for a packet that is no longer wanted. -/
theorem Inv.answer_of (hi : Inv W c) (hsn : sn.toNat < c.sentCount) (hlo : -1 ≤ H)
    (hhi : H < c.sentCount) (hw : r.windowSize = W)
    (hrep : r.Represents H (c.answer sn d r).Seen (c.answer sn d r).Refused)
    (hack : d = .ackDoNotProcess → sn ∈ c.processed)
    (hproc : d.shouldProcess = true → sn ∉ c.processed ∧ sn ∉ c.refused)
    (href : d.ackIsCanceled = true → sn ∉ c.processed ∧ (sn ∈ c.refused ∨ .cancel sn ∈ c.forward)) :
    Inv W (c.answer sn d r) := by
  -- an answer adds its number to one of the records, or to none
  have hp : ∀ x, x ∈ (c.answer sn d r).processed ↔
      x ∈ c.processed ∨ d.shouldProcess = true ∧ x = sn := by
    unfold Session.answer
    cases d <;> simp +decide
  have hr : ∀ x, x ∈ (c.answer sn d r).refused ↔
      x ∈ c.refused ∨ d.ackIsCanceled = true ∧ x = sn := by
    unfold Session.answer
    cases d <;> simp +decide
  exact
    { hi with
      receiver_window := hw
      represents := ⟨H, hlo, hhi, hrep⟩
      seen_lt := by
        intro x hx
        rw [hp, hr] at hx
        rcases hx with (h | ⟨-, rfl⟩) | (h | ⟨-, rfl⟩)
        · exact hi.seen_lt x (.inl h)
        · exact hsn
        · exact hi.seen_lt x (.inr h)
        · exact hsn
      nodup := by
        unfold Session.answer
        split
        · next hd => exact hi.nodup.append (List.nodup_singleton sn) (by simpa using (hproc hd).1)
        · exact hi.nodup
      disjoint := by
        intro x hx hx'
        rcases (hp x).mp hx with h | ⟨hd, rfl⟩
        · rcases (hr x).mp hx' with h' | ⟨hd', rfl⟩
          · exact hi.disjoint x h h'
          · exact (href hd').1 h
        · rcases (hr x).mp hx' with h' | ⟨hd', -⟩
          · exact (hproc hd).2 h'
          · cases d with
            | ackAndProcess => cases hd'
            | _ => cases hd
      settled := fun k hk hacked =>
        (hi.settled k hk hacked).imp (fun h => (hp _).mpr (.inl h)) fun h => (hr _).mpr (.inl h)
      wanted := by
        intro k hk hopen
        obtain ⟨hnot, hcancel⟩ := hi.wanted k hk hopen
        refine ⟨fun hmem => ?_, hcancel⟩
        rcases (hr _).mp hmem with h | ⟨hd, rfl⟩
        · exact hnot h
        · exact (href hd).2.elim hnot hcancel
      ack_processed := by
        intro x hx
        rw [hp]
        rcases List.mem_append.mp hx with hold | hnew
        · exact .inl (hi.ack_processed x hold)
        cases d with
        | ackAndProcess => exact .inr ⟨rfl, Reply.ack.inj (List.mem_singleton.mp hnew)⟩
        | ackDoNotProcess =>
          cases List.mem_singleton.mp hnew
          exact .inl (hack rfl)
        | ackCancelDoNotProcess => cases List.mem_singleton.mp hnew
        | ignore => cases hnew
      canceled_refused := by
        intro x hx
        rw [hr]
        rcases List.mem_append.mp hx with hold | hnew
        · exact .inl (hi.canceled_refused x hold)
        cases d with
        | ackCancelDoNotProcess => exact .inr ⟨rfl, Reply.canceled.inj (List.mem_singleton.mp hnew)⟩
        | ackAndProcess | ackDoNotProcess => cases List.mem_singleton.mp hnew
        | ignore => cases hnew
      acked_processed := fun x hx => (hp x).mpr (.inl (hi.acked_processed x hx))
      cancelAcked_refused := fun x hx => (hr x).mpr (.inl (hi.cancelAcked_refused x hx)) }

theorem Inv.answer (hi : Inv W c) (hsn : sn.toNat < c.sentCount) {isCancel : Bool}
    (hmem : isCancel = true → .cancel sn ∈ c.forward) (hlo : -1 ≤ H) (hhi : H < c.sentCount)
    (hw : r.windowSize = W) (ha : Answer W c sn isCancel H r d) : Inv W (c.answer sn d r) := by
  cases ha with
  | tooOld _ hrep =>
    refine hi.answer_of hsn hlo hhi hw ?_ nofun nofun nofun
    simpa +decide [answer_seen, answer_refused] using hrep
  | duplicate hp hrep =>
    refine hi.answer_of hsn hlo hhi hw ?_ (fun _ => hp) nofun nofun
    simpa +decide [answer_seen, answer_refused] using hrep
  | duplicateCancel hr hrep =>
    refine hi.answer_of hsn hlo hhi hw ?_ nofun nofun fun _ =>
      ⟨fun hp => hi.disjoint sn hp hr, .inl hr⟩
    have hseen : ∀ j : Int, j = sn.toNat → c.Seen j := fun _ hj => .inr ⟨sn, .inr hr, hj.symm⟩
    have hrefused : ∀ j : Int, j = sn.toNat → c.Refused j := fun _ hj => .inr ⟨sn, hr, hj.symm⟩
    simpa +decide [answer_seen, answer_refused, or_iff_left_of_imp (hseen _),
      or_iff_left_of_imp (hrefused _)] using hrep
  | fresh hp hr hrep =>
    have hmax : -1 ≤ max H sn.toNat ∧ max H sn.toNat < c.sentCount := by omega
    cases isCancel with
    | false =>
      refine hi.answer_of hsn hmax.1 hmax.2 hw ?_ nofun (fun _ => ⟨hp, hr⟩) nofun
      simpa +decide [answer_seen, answer_refused] using hrep
    | true =>
      refine hi.answer_of hsn hmax.1 hmax.2 hw ?_ nofun nofun fun _ => ⟨hp, .inr (hmem rfl)⟩
      simpa +decide [answer_seen, answer_refused] using hrep

theorem Inv.settle (hi : Inv W c)
    (hev : Sender.Evolves c.sentCount (Sender.onSeqNum sn f) c.sender s')
    (hf : ∀ e, (f e).isUnacked = true → e.isUnacked = true)
    (hsn : sn ∈ c.processed ∨ sn ∈ c.refused) : Inv W { c with sender := s' } :=
  { hi with
    hasSent := hev.hasSent
    sender_window := hev.windowSize ▸ hi.sender_window
    sender_length := hev.length_le.trans hi.sender_length
    settled := by
      intro k hk hacked
      simp only [hev.status k hk, Sender.onSeqNum] at hacked
      split at hacked
      · next heq => exact heq ▸ hsn
      · exact hi.settled k hk hacked
    wanted := by
      intro k hk hopen
      simp only [hev.status k hk, Sender.onSeqNum] at hopen
      split at hopen
      · exact hi.wanted k hk (hf _ hopen)
      · exact hi.wanted k hk hopen
    sent_lt := fun sn hsn => hi.sent_lt sn (hev.sent_mem sn hsn) }

theorem isUnacked_ack (e : UnackedState Pkt) : e.ack.isUnacked = true → e.isUnacked = true := by
  cases e <;> simp [UnackedState.ack, UnackedState.isUnacked]

theorem isUnacked_cancelAck (e : UnackedState Pkt) :
    e.cancelAck.isUnacked = true → e.isUnacked = true := by
  cases e with
  | cancelRequested w f => cases f <;> simp [cancelAck, UnackedState.isUnacked]
  | unacked | acked | cancelAcked => simp [cancelAck, UnackedState.isUnacked]

theorem records_of_step (h : step c a = some c') :
    c.sentCount ≤ c'.sentCount ∧ ∀ sn ∈ c.cancelAcked, sn ∈ c'.cancelAcked := by
  cases a with
  | sender op =>
    obtain ⟨⟨s, messages⟩, -, rfl⟩ := Option.map_eq_some_iff.mp h
    exact ⟨Nat.le_add_right _ _, fun _ hsn => hsn⟩
  | deliver i =>
    obtain ⟨sn, d, r, rfl⟩ := deliver_eq_answer h
    exact ⟨le_rfl, fun _ hsn => hsn⟩
  | deliverReply i =>
    simp only [step] at h
    split at h
    · cases h
    · obtain ⟨⟨d, r⟩, -, rfl⟩ := Option.map_eq_some_iff.mp h
      exact ⟨le_rfl, fun _ hsn => hsn⟩
    obtain ⟨s, -, rfl⟩ := Option.map_eq_some_iff.mp h
    refine ⟨le_rfl, fun sn hsn => ?_⟩
    split
    · exact List.mem_append_left _ hsn
    · exact hsn

theorem Inv.sender_step (hi : Inv W c) (hok : WindowAtMost W c (.sender op))
    (h : step c (.sender op) = some c') (hn : c'.sentCount < 2 ^ 63) : Inv W c' := by
  obtain ⟨⟨s', messages⟩, hrun, rfl⟩ := Option.map_eq_some_iff.mp h
  have hn' : c.sentCount < 2 ^ 63 := lt_of_le_of_lt (records_of_step h).1 hn
  cases SenderOp.run_effect hi.hasSent hn' hrun with
  | quiet f hev hq _ hm =>
    have hlast : s'.lastSent = c.sender.lastSent :=
      hev.hasSent.lastSent.trans hi.hasSent.lastSent.symm
    simp only [hlast, if_true, Nat.add_zero]
    exact hi.quiet hn' hev hq hm
  | sends _ packet limit hs hmsg =>
    have hlast : ¬ s'.lastSent = c.sender.lastSent := by
      rw [hs.lastSent, hi.hasSent.lastSent]
      intro heq
      have h1 : (1 : BitVec 64) = 0 := by
        rw [← sub_eq_self.mp heq.symm]
      exact absurd h1 (by decide)
    simp only [hlast, if_false] at hn ⊢
    subst hmsg
    exact hi.sends hn hs
  | adjusts windowSize hs hmsg =>
    subst hs hmsg
    simp only [if_true, Nat.add_zero, List.append_nil]
    exact hi.adjusts hok

theorem Inv.step (hW : W ≤ 63) (hi : Inv W c) (hok : WindowAtMost W c a) (h : step c a = some c')
    (hn : c'.sentCount < 2 ^ 63) : Inv W c' := by
  have hn' : c.sentCount < 2 ^ 63 := lt_of_le_of_lt (records_of_step h).1 hn
  cases a with
  | sender op => exact hi.sender_step hok h hn
  | deliver i =>
    simp only [Session.step] at h
    split at h
    · cases h
    · next sn packet hmsg =>
      have hsn : sn.toNat < c.sentCount := hi.forward_lt _ (List.mem_of_getElem? hmsg)
      obtain ⟨H, d, r, hlo, hhi, hw, heq, ha⟩ := hi.receive hn' hW hsn false
      rw [Receiver.processPacket, heq] at h
      cases h
      exact hi.answer hsn (by simp) hlo hhi hw ha
    · next sn hmsg =>
      have hmem := List.mem_of_getElem? hmsg
      have hsn : sn.toNat < c.sentCount := hi.forward_lt _ hmem
      obtain ⟨H, d, r, hlo, hhi, hw, heq, ha⟩ := hi.receive hn' hW hsn true
      rw [Receiver.processCancel, heq] at h
      cases h
      exact hi.answer hsn (fun _ => hmem) hlo hhi hw ha
  | deliverReply i =>
    simp only [Session.step] at h
    split at h
    · cases h
    · next sn hmsg =>
      -- a reply that is under way tells what the receiver has recorded
      have hmem := hi.ack_processed sn (List.mem_of_getElem? hmsg)
      obtain ⟨⟨p, s'⟩, hack, rfl⟩ := Option.map_eq_some_iff.mp h
      have hset := hi.settle (hi.hasSent.settles hn' (Sender.processAck_effect hack)) isUnacked_ack
        (.inl hmem)
      refine { hset with acked_processed := ?_ }
      intro x hx
      split at hx
      · rcases List.mem_append.mp hx with hold | hnew
        · exact hi.acked_processed x hold
        · exact List.mem_singleton.mp hnew ▸ hmem
      · exact hi.acked_processed x hx
    · next sn hmsg =>
      have hmem := hi.canceled_refused sn (List.mem_of_getElem? hmsg)
      obtain ⟨s', hcan, rfl⟩ := Option.map_eq_some_iff.mp h
      have hset := hi.settle (hi.hasSent.settles hn' (Sender.processCanceled_effect hcan))
        isUnacked_cancelAck (.inr hmem)
      refine { hset with cancelAcked_refused := ?_ }
      intro x hx
      split at hx
      · rcases List.mem_append.mp hx with hold | hnew
        · exact hi.cancelAcked_refused x hold
        · exact List.mem_singleton.mp hnew ▸ hmem
      · exact hi.cancelAcked_refused x hx

theorem Reachable.inv (hW : 1 ≤ W) (hW' : W ≤ 63) (h : Reachable W c)
    (hn : c.sentCount < 2 ^ 63) : Inv W c := by
  have hall : c.sentCount < 2 ^ 63 → Inv W c := by
    apply Run.invariant (P := fun c => c.sentCount < 2 ^ 63 → Inv W c) ?_ ?_ h
    · intro s hs _
      exact inv_start hW hs
    · intro s a s' ih hok hs hn'
      exact (ih (lt_of_le_of_lt (records_of_step hs).1 hn')).step hW' hok hs hn'
  exact hall hn

/-! ## Exactly-once delivery -/

/-- In every run, each number is processed at most once; once an acknowledgement has settled it,
    it has been processed exactly once; once a cancel-acknowledgement has settled it, it has not
    been processed and never will be. -/
theorem exactly_once_delivery (hW : 1 ≤ W) (hW' : W ≤ 63) (h : Reachable W c)
    (hn : c.sentCount < 2 ^ 63) (sn : SeqNum) :
    c.processed.count sn ≤ 1 ∧
    (sn ∈ c.acked → c.processed.count sn = 1) ∧
    (sn ∈ c.cancelAcked → ∀ c', Run Session.step (· = c) (WindowAtMost W) c' →
      c'.sentCount < 2 ^ 63 → c'.processed.count sn = 0) := by
  have hi := h.inv hW hW' hn
  refine ⟨List.nodup_iff_count_le_one.mp hi.nodup sn, ?_, ?_⟩
  · intro hsn
    exact List.count_eq_one_of_mem hi.nodup (hi.acked_processed sn hsn)
  intro hsn c' hrun hn'
  have hsn' : sn ∈ c'.cancelAcked := by
    refine Run.invariant (P := fun c' => sn ∈ c'.cancelAcked) ?_ ?_ hrun
    · rintro _ rfl
      exact hsn
    · intro s a s' hmem _ hs
      exact (records_of_step hs).2 sn hmem
  have hi' := Reachable.inv hW hW' (h.trans hrun) hn'
  have hnot : sn ∉ c'.processed := fun hp => hi'.disjoint sn hp (hi'.cancelAcked_refused sn hsn')
  exact List.count_eq_zero_of_not_mem hnot

/-- Packet 0 is sent, processed and acknowledged; packet 1 is sent and its cancellation
    overtakes it. -/
def cancelOvertakes : List (SessionAction Nat) :=
  [.sender (.enqueuePacket 7), .deliver 0, .deliverReply 0, .sender (.enqueuePacket 8),
    .sender (.cancelSentPacket 1), .deliver 2, .deliverReply 1, .deliver 1]

theorem exactly_once_delivery_cancelOvertakes :
    ∃ c : Session Nat, Reachable 1 c ∧ c.acked = [0] ∧ c.cancelAcked = [1] ∧
      c.processed.count 0 = 1 ∧ c.processed.count 1 = 0 := by
  refine Run.reaches_imp (P := fun c : Session Nat => c.acked = [0] ∧ c.cancelAcked = [1] ∧
    c.sentCount = 2) rfl cancelOvertakes (by decide +kernel) ?_
  rintro c hreach ⟨hacked, hcancel, hcount⟩
  have hn : c.sentCount < 2 ^ 63 := by omega
  have h0 := exactly_once_delivery le_rfl (by decide) hreach hn 0
  have h1 := exactly_once_delivery le_rfl (by decide) hreach hn 1
  exact ⟨hacked, hcancel, h0.2.1 (by simp [hacked]), h1.2.2 (by simp [hcancel]) c (.start rfl) hn⟩

/-! ## Retries are answered -/

section

variable (hs : s.HasSent n) (hn : n < 2 ^ 63)

include hs hn

theorem dropStale_isSome {l : List (Option SeqNum)} (hl : ∀ sn, some sn ∈ l → sn.toNat < n) :
    ∃ l', s.dropStale l = some l' := by
  induction l with
  | nil => exact ⟨[], rfl⟩
  | cons x rest ih =>
    obtain ⟨l', hl'⟩ := ih fun sn hsn => hl sn (List.mem_cons_of_mem _ hsn)
    cases x with
    | none => exact ⟨l', hl'⟩
    | some sn =>
      have hacked := hs.isAcked_ofNat (by omega) (hl sn List.mem_cons_self)
      rw [BitVec.ofNat_toNat, BitVec.setWidth_eq] at hacked
      simp only [Sender.dropStale, hacked]
      cases (s.status n sn.toNat).isAcked with
      | true => exact ⟨l', hl'⟩
      | false => exact ⟨_, rfl⟩

theorem cleanQueues_isSome (hl : ∀ sn, some sn ∈ s.sent → sn.toNat < n) (idx : Nat) :
    ∃ s', s.cleanQueues idx = some s' := by
  unfold Sender.cleanQueues Sender.cleanSentQueue
  simp only [Option.map_eq_some_iff]
  split
  · obtain ⟨l', hl'⟩ := dropStale_isSome hs.cleanUnackedQueue.hasSent hn hl
    exact ⟨_, l', hl', rfl⟩
  · obtain ⟨l', hl'⟩ := dropStale_isSome hs hn hl
    exact ⟨_, l', hl', rfl⟩

theorem position_of_open (hk : k < n) (hopen : (s.status n k).isAcked = false) :
    ∃ idx, s.seqNumPosition (BitVec.ofNat 64 k) = .at idx ∧
      s.unacked[idx]? = some (s.status n k) := by
  rcases hs.position_status (by omega) hk with ⟨-, hst⟩ | hat
  · rw [hst] at hopen
    cases hopen
  · exact hat

theorem processAck_settles (hl : ∀ sn, some sn ∈ s.sent → sn.toNat < n) (hk : k < n)
    (hopen : (s.status n k).isAcked = false) :
    ∃ s', receiveReply s (.ack (BitVec.ofNat 64 k)) = some s' ∧
      s'.isAcked (BitVec.ofNat 64 k) = some true := by
  obtain ⟨idx, hpos, he⟩ := position_of_open hs hn hk hopen
  have hset := hs.setUnacked hn hpos he fun _ => .acked
  obtain ⟨t, ht⟩ := cleanQueues_isSome hset.hasSent hn (fun sn hsn => hl sn hsn) idx
  have hsome : ∃ r s', s.processAck (BitVec.ofNat 64 k) = some (r, s') := by
    unfold Sender.processAck Sender.lookupAckIndex
    simp only [hpos, he]
    cases hst : s.status n k with
    | unacked p w l c f => exact ⟨some p, t.wake w, by simp only [ht, Option.map_some]⟩
    | cancelRequested w f => exact ⟨none, t.wake w, by simp only [ht, Option.map_some]⟩
    | acked | cancelAcked =>
      rw [hst] at hopen
      cases hopen
  obtain ⟨r, s', heq⟩ := hsome
  have hev := hs.settles hn (Sender.processAck_effect heq)
  refine ⟨s', by simp only [receiveReply, heq, Option.map_some], ?_⟩
  rw [hev.hasSent.isAcked_ofNat (by omega) hk, hev.status k hk]
  simp only [Sender.onSeqNum, if_true, Option.some.injEq]
  cases s.status n k <;> rfl

theorem processCanceled_settles (hl : ∀ sn, some sn ∈ s.sent → sn.toNat < n) (hk : k < n)
    {w : Waker} {f : Bool} (hreq : s.status n k = .cancelRequested w f) :
    ∃ s', receiveReply s (.canceled (BitVec.ofNat 64 k)) = some s' ∧
      s'.isAcked (BitVec.ofNat 64 k) = some true := by
  obtain ⟨idx, hpos, he⟩ := position_of_open hs hn hk (by rw [hreq]; rfl)
  have hset := hs.setUnacked hn hpos he fun _ => if f then .acked else .cancelAcked
  obtain ⟨t, ht⟩ := cleanQueues_isSome hset.hasSent hn (fun sn hsn => hl sn hsn) idx
  have hsome : ∃ s', s.processCanceled (BitVec.ofNat 64 k) = some s' := by
    unfold Sender.processCanceled Sender.lookupAckIndex
    simp only [hpos, he, hreq, ht, Option.map_some]
    exact ⟨_, rfl⟩
  obtain ⟨s', heq⟩ := hsome
  have hev := hs.settles hn (Sender.processCanceled_effect heq)
  refine ⟨s', heq, ?_⟩
  rw [hev.hasSent.isAcked_ofNat (by omega) hk, hev.status k hk]
  simp only [Sender.onSeqNum, if_true, Option.some.injEq, hreq]
  cases f <;> rfl

end

/-- In every reachable state a retried packet or cancel that reaches the receiver is answered,
    and the answer settles the sender's entry when it reaches the sender. -/
theorem retries_answered (hW : 1 ≤ W) (hW' : W ≤ 63) (h : Reachable W c)
    (hn : c.sentCount < 2 ^ 63) (sn : SeqNum) :
    (∀ packet, (sn, packet) ∈ c.sender.retryPackets →
      ∃ d r reply s', c.receiver.processPacket sn = some (d, r) ∧ d.shouldAck = true ∧
        d.reply sn = [reply] ∧ receiveReply c.sender reply = some s' ∧
        s'.isAcked sn = some true) ∧
    (sn ∈ c.sender.retryCancels →
      ∃ d r reply s', c.receiver.processCancel sn = some (d, r) ∧ d.shouldAck = true ∧
        d.reply sn = [reply] ∧ receiveReply c.sender reply = some s' ∧
        s'.isAcked sn = some true) := by
  have hi := h.inv hW hW' hn
  have hlen := hi.sender_length
  constructor
  · intro packet hmem
    obtain ⟨k, hk, rfl, hwin, w, l, rc, f, hst⟩ := hi.hasSent.mem_retryPackets hmem
    have hkeq : (BitVec.ofNat 64 k).toNat = k := toNat_ofNat_of_lt (by omega)
    have hopen : (c.sender.status c.sentCount k).isAcked = false := by rw [hst]; rfl
    obtain ⟨s', hs', hdone⟩ := processAck_settles hi.hasSent hn hi.sent_lt hk hopen
    have hsn : (BitVec.ofNat 64 k).toNat < c.sentCount := by omega
    obtain ⟨H, d, r, hlo, hhi, hw, heq, ha⟩ := hi.receive hn hW' hsn false
    cases ha with
    | tooOld hold => omega
    | duplicate => exact ⟨.ackDoNotProcess, r, .ack _, s', heq, rfl, rfl, hs', hdone⟩
    | duplicateCancel hr =>
      -- a packet that is still wanted has not been refused
      exact absurd hr (hi.wanted k hk (by rw [hst]; rfl)).1
    | fresh => exact ⟨.ackAndProcess, r, .ack _, s', heq, rfl, rfl, hs', hdone⟩
  · intro hmem
    obtain ⟨k, hk, rfl, hwin, w, f, hst⟩ := hi.hasSent.mem_retryCancels hmem
    have hkeq : (BitVec.ofNat 64 k).toNat = k := toNat_ofNat_of_lt (by omega)
    have hopen : (c.sender.status c.sentCount k).isAcked = false := by rw [hst]; rfl
    obtain ⟨s', hs', hdone⟩ := processAck_settles hi.hasSent hn hi.sent_lt hk hopen
    obtain ⟨t, ht, htdone⟩ := processCanceled_settles hi.hasSent hn hi.sent_lt hk hst
    have hsn : (BitVec.ofNat 64 k).toNat < c.sentCount := by omega
    obtain ⟨H, d, r, hlo, hhi, hw, heq, ha⟩ := hi.receive hn hW' hsn true
    cases ha with
    | tooOld hold => omega
    | duplicate => exact ⟨.ackDoNotProcess, r, .ack _, s', heq, rfl, rfl, hs', hdone⟩
    | duplicateCancel | fresh =>
      exact ⟨.ackCancelDoNotProcess, r, .canceled _, t, heq, rfl, rfl, ht, htdone⟩

theorem retries_answered_lostPacket :
    ∃ c : Session Nat, Reachable 1 c ∧ (0, 7) ∈ c.sender.retryPackets ∧
      ∃ d r reply s', c.receiver.processPacket 0 = some (d, r) ∧ d.shouldAck = true ∧
        d.reply 0 = [reply] ∧ receiveReply c.sender reply = some s' ∧
        s'.isAcked 0 = some true := by
  refine Run.reaches_imp (P := fun c : Session Nat => c.sender.retryPackets = [((0 : SeqNum), 7)] ∧
    c.sentCount = 1) rfl [.sender (.enqueuePacket 7)] (by decide +kernel) ?_
  rintro c hreach ⟨hretry, hcount⟩
  have hmem : (0, 7) ∈ c.sender.retryPackets := by simp [hretry]
  have h := retries_answered le_rfl (by decide) hreach (by omega) 0
  exact ⟨hmem, h.1 7 hmem⟩

end Session

end ZprCore.Zdpr
