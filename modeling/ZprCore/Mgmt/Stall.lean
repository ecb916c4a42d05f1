-- SUMMARY: When no sender is left with packets waiting beside a free window.
import ZprCore.Mgmt.Process

/-!
# Stalled senders

The blocked queue of a sender is drained only when an acknowledgement is processed. This file
shows that this is enough in every run in which two other events that free room, a growing
window and the forgetting of the oldest cancelled packet, do not happen while packets wait,
and gives runs with each of the two that leave a packet waiting.
-/

namespace ZprCore.Mgmt

open Zdpr

variable {Pkt : Type} {s s' : Sender Pkt}

/-! ## One sender -/

/-- Draining with enough fuel ends with nothing left to unblock, and does not panic. -/
theorem drainBlocked_spec (ht : s.Tidy) {fuel : Nat} (hfuel : s.blocked.length ≤ fuel) :
    ∃ s' sent, drainBlocked fuel s = some (s', sent) ∧ s'.Tidy ∧ s'.Drained := by
  induction fuel generalizing s with
  | zero =>
    have hnil : s.blocked = [] := List.length_eq_zero_iff.mp (Nat.le_zero.mp hfuel)
    exact ⟨s, [], rfl, ht, Sender.drained_iff.mpr (.inr hnil)⟩
  | succ fuel ih =>
    cases hu : s.unblockNeeded with
    | false => exact ⟨s, [], by simp [drainBlocked, hu], ht, hu⟩
    | true =>
      obtain ⟨r, t, hnext⟩ := ht.enqueueNextBlockedPacket_isSome hu
      have hlen := Sender.enqueueNextBlockedPacket_length hnext
      obtain ⟨s', sent, hdrain, ht', hd'⟩ := ih (ht.enqueueNextBlockedPacket hnext) (by omega)
      exact ⟨s', r :: sent, by simp [drainBlocked, hu, hnext, hdrain], ht', hd'⟩

theorem handleAcknowledgement_spec (ht : s.Tidy) {seqNum : SeqNum} {isCanceled : Bool}
    {sent : List (SeqNum × Pkt)}
    (h : handleAcknowledgementCanceledCommon s seqNum isCanceled = some (s', sent)) :
    s'.Tidy ∧ s'.Drained := by
  obtain ⟨t, ht', hdrain⟩ := Option.bind_eq_some_iff.mp h
  have htidy : t.Tidy := by
    split at ht'
    · exact ht.settles (Sender.processCanceled_effect ht')
    · obtain ⟨⟨r, u⟩, hack, rfl⟩ := Option.map_eq_some_iff.mp ht'
      exact ht.settles (Sender.processAck_effect hack)
  obtain ⟨u, sent', heq, hu, hd⟩ := drainBlocked_spec htidy le_rfl
  rw [heq] at hdrain
  cases hdrain
  exact ⟨hu, hd⟩

/-- The last window size that a WINDOW_SIZE TLV applies. -/
def appliedWindowSize : List TlvValue → Option Nat
  | [] => none
  | .u16 windowSize :: rest =>
    if windowSize < 1 then appliedWindowSize rest
    else some ((appliedWindowSize rest).getD windowSize.toNat)
  | .other :: _ => none

theorem processWindowSizeTlv_eq (tlvValue : List TlvValue) :
    processWindowSizeTlv s tlvValue =
      match appliedWindowSize tlvValue with
      | none => some s
      | some w => s.adjustWindowSize w := by
  induction tlvValue generalizing s with
  | nil => rfl
  | cons v rest ih =>
    cases v with
    | other => rfl
    | u16 w =>
      simp only [processWindowSizeTlv, appliedWindowSize]
      by_cases hw : w < 1
      · simp only [hw, if_true, ih]
      have hpos : 1 ≤ w.toNat := by
        have := UInt16.not_lt.mp hw
        simpa using UInt16.le_iff_toNat_le.mp this
      simp only [hw, if_false, Sender.adjustWindowSize, hpos, ge_iff_le, if_true,
        Option.bind_some, ih]
      cases appliedWindowSize rest with
      | none => simp only [Option.getD_none, hpos, if_true]
      | some w' => rfl

variable {input : SenderInput} {sent : List (SeqNum × Pkt)} {messages : List (Message Pkt)}

/-- An input is an acknowledgement, or it numbers nothing. -/
theorem SenderInput.apply_cases (h : input.apply s = some (s', sent, messages)) :
    (∃ seqNum isCanceled,
      handleAcknowledgementCanceledCommon s seqNum isCanceled = some (s', sent)) ∨
    sent = [] ∧ (s' = s.ageRetries.2 ∨ s' = s ∨ ∃ tlvValue w, input = .windowSizeTlv tlvValue ∧
      appliedWindowSize tlvValue = some w ∧ s.adjustWindowSize w = some s') := by
  cases input with
  | reply r =>
    cases r with
    | ack sn | canceled sn =>
      obtain ⟨⟨t, sent'⟩, hack, heq⟩ := Option.map_eq_some_iff.mp h
      cases heq
      exact .inl ⟨sn, _, hack⟩
  | retryTick =>
    cases h
    exact .inr ⟨rfl, .inl rfl⟩
  | windowSizeTlv tlvValue =>
    obtain ⟨t, htlv, heq⟩ := Option.map_eq_some_iff.mp h
    cases heq
    rw [processWindowSizeTlv_eq] at htlv
    refine .inr ⟨rfl, .inr ?_⟩
    split at htlv
    · cases htlv
      exact .inl rfl
    · next w hw => exact .inr ⟨tlvValue, w, rfl, hw, htlv⟩

theorem SenderInput.tidy_apply (ht : s.Tidy) (h : input.apply s = some (s', sent, messages)) :
    s'.Tidy := by
  rcases apply_cases h with ⟨_, _, hack⟩ | ⟨-, rfl | rfl | ⟨_, _, -, -, hadj⟩⟩
  · exact (handleAcknowledgement_spec ht hack).1
  · exact Sender.calm_ageRetries.tidy ht
  · exact ht
  · exact ht.adjustWindowSize hadj

/-- The window does not grow beside a waiting packet. -/
def SenderInput.FreesNoRoom (s : Sender Pkt) : SenderInput → Prop
  | .windowSizeTlv tlvValue => ∀ w ∈ appliedWindowSize tlvValue, s.growthFrees w = false
  | .reply _ | .retryTick => True

instance : (input : SenderInput) → Decidable (input.FreesNoRoom s)
  | .windowSizeTlv _ => decidableForallMem (fun _ => inferInstance) _
  | .reply _ | .retryTick => inferInstanceAs (Decidable True)

theorem SenderInput.drained_apply (ht : s.Tidy) (hd : s.Drained) (hok : input.FreesNoRoom s)
    (h : input.apply s = some (s', sent, messages)) : s'.Drained := by
  rcases apply_cases h with ⟨_, _, hack⟩ | ⟨-, rfl | rfl | ⟨_, w, rfl, hw, hadj⟩⟩
  · exact (handleAcknowledgement_spec ht hack).2
  · exact Sender.calm_ageRetries.drained hd
  · exact hd
  · exact .adjustWindowSize (hok w hw) hadj

theorem Touched.calm {sent : List (Message Pkt)} (h : Touched s sent s') : s.Calm s' := by
  induction h with
  | nil => exact .refl _
  | @cons op _ _ _ _ _ hop hrun _ ih =>
    refine Sender.Calm.trans ?_ ih
    cases op with
    | cancelQueuedPacket | cancelSentPacket | pollSend | pollAck =>
      obtain ⟨⟨r, t⟩, ht, heq⟩ := Option.map_eq_some_iff.mp hrun
      cases heq
      first
        | exact Sender.calm_cancelQueuedPacket ht
        | exact Sender.calm_applies (Sender.cancelSentPacket_effect ht) rfl
        | exact Sender.calm_pollSend ht
        | exact Sender.calm_applies (Sender.pollAck_effect ht) rfl
    | limitRetriesById | limitRetriesBySeqNum =>
      obtain ⟨t, ht, heq⟩ := Option.map_eq_some_iff.mp hrun
      cases heq
      first
        | exact Sender.calm_limitRetriesById ht
        | exact Sender.calm_applies (Sender.limitRetriesBySeqNum_effect ht) rfl
    | enqueuePacket | enqueueNextBlockedPacket | retryPackets | retryCancels | ageRetries
    | forgetCanceledPacket | adjustWindowSize | pollSendAndAck => exact hop.elim

/-! ## The process -/

namespace Process

variable {p p' : Process Pkt}

/-- No room is freed beside a waiting packet, other than by an acknowledgement. -/
def FreesNoRoom (p : Process Pkt) : ProcessAction Pkt → Prop
  | .input link input => ∀ peer ∈ p.peers link, input.FreesNoRoom peer.zdprSend
  | .future i op =>
    ∀ f ∈ p.futures[i]?.join, ∀ peer ∈ p.peerState f,
      ∀ sn ∈ op.forgets f.kind f.packetId, peer.zdprSend.forgetFrees sn = false
  | _ => True

instance : (a : ProcessAction Pkt) → Decidable (p.FreesNoRoom a)
  | .input _ _ => decidableForallMem (fun _ => inferInstance) _
  | .future _ _ =>
    decidableForallMem
      (fun _ => decidableForallMem (fun _ => decidableForallMem (fun _ => inferInstance) _) _) _
  | .addPeer _ | .removePeer _ | .resetZdprSession _ | .sendMgmt _ _ =>
    inferInstanceAs (Decidable True)

/-- Every sender in the peer table has tidy queues and no packet waiting beside free room. -/
def AllDrained (p : Process Pkt) : Prop :=
  ∀ link, ∀ peer ∈ p.peers link, peer.zdprSend.Tidy ∧ peer.zdprSend.Drained

theorem AllDrained.setPeer (h : p.AllDrained) {link : LinkId} {peer : Option (Peer Pkt)}
    (hpeer : ∀ q ∈ peer, q.zdprSend.Tidy ∧ q.zdprSend.Drained) : (p.setPeer link peer).AllDrained := by
  intro l q hq
  by_cases hl : l = link
  · subst hl
    simp only [Process.setPeer, Function.update_self] at hq
    exact hpeer q hq
  · simp only [Process.setPeer, Function.update_of_ne hl] at hq
    exact h l q hq

theorem AllDrained.updateSender (h : p.AllDrained) {link : LinkId}
    {f : Sender Pkt → Option (Sender Pkt)} (hp : p.updateSender link f = some p')
    (hf : ∀ peer ∈ p.peers link, ∀ s', f peer.zdprSend = some s' → s'.Tidy ∧ s'.Drained) :
    p'.AllDrained := by
  unfold Process.updateSender at hp
  split at hp
  · cases hp
    exact h
  next peer hpeer =>
  obtain ⟨s', hs', rfl⟩ := Option.map_eq_some_iff.mp hp
  apply h.setPeer
  rintro q ⟨⟩
  exact hf peer hpeer s' hs'

theorem AllDrained.futureStep (h : p.AllDrained) {i : Nat} {op : FutureOp}
    (hok : FreesNoRoom p (.future i op)) (hp : p.futureStep i op = some p') : p'.AllDrained := by
  unfold Process.futureStep at hp
  split at hp
  · next f hf =>
    unfold futureStepWith at hp
    split at hp
    · cases hp
    obtain ⟨r, hr, rfl⟩ := Option.map_eq_some_iff.mp hp
    cases hpeer : p.peerState f with
    | none => exact h
    | some peer =>
      rw [hpeer] at hr
      obtain ⟨ht, hd⟩ := h f.linkId peer (peers_of_peerState hpeer)
      obtain ⟨s', hs', hcase⟩ := FutureOp.run_runs hr
      have hgood : s'.Tidy ∧ s'.Drained := by
        rcases hcase with ⟨-, htouched⟩ | ⟨sn, hsn, -, hforget⟩
        · exact ⟨htouched.calm.tidy ht, htouched.calm.drained hd⟩
        · exact ⟨ht.settles (Sender.forgetCanceledPacket_effect hforget),
            hd.forgetCanceledPacket ht (hok f (by rw [hf]; rfl) peer hpeer sn hsn) hforget⟩
      have hset : (p.setPeer f.linkId (some { peer with zdprSend := s' })).AllDrained := by
        apply h.setPeer
        rintro q ⟨⟩
        exact hgood
      simp only [hs']
      exact hset
  · cases hp

theorem AllDrained.step (h : p.AllDrained) {a : ProcessAction Pkt} (hok : FreesNoRoom p a)
    (hp : p.step a = some p') : p'.AllDrained := by
  cases a with
  | addPeer link =>
    simp only [Process.step] at hp
    split at hp
    · cases hp
    cases hp
    apply h.setPeer
    rintro q ⟨⟩
    exact ⟨Sender.tidy_new, Sender.drained_new⟩
  | removePeer link =>
    cases hp
    exact h.setPeer nofun
  | resetZdprSession link =>
    simp only [Process.step] at hp
    split at hp
    · cases hp
      exact h
    cases hp
    apply h.setPeer
    rintro q ⟨⟩
    exact ⟨Sender.tidy_reset _, Sender.drained_reset _⟩
  | sendMgmt link packet =>
    cases hp
    unfold sendMgmtHelper
    split
    · exact h
    next peer hpeer =>
    obtain ⟨ht, hd⟩ := h link peer hpeer
    apply h.setPeer
    rintro q ⟨⟩
    exact ⟨ht.enqueuePacket packet, hd.enqueuePacket packet⟩
  | input link input =>
    simp only [Process.step] at hp
    apply h.updateSender hp
    intro peer hpeer s' hs'
    obtain ⟨⟨t, sent, messages⟩, happly, rfl⟩ := Option.map_eq_some_iff.mp hs'
    obtain ⟨ht, hd⟩ := h link peer hpeer
    exact ⟨SenderInput.tidy_apply ht happly,
      SenderInput.drained_apply ht hd (hok peer hpeer) happly⟩
  | future i op => exact h.futureStep hok hp

/-- In every run in which neither a growing window nor a forgotten cancellation frees room
    beside a waiting packet, no sender is ever left with a packet waiting and room for it. -/
theorem never_stalled (h : Run step (· = init) FreesNoRoom p) (link : LinkId) (peer : Peer Pkt)
    (hpeer : p.peers link = some peer) : peer.zdprSend.unblockNeeded = false := by
  have hall : p.AllDrained := by
    refine Run.invariant (P := AllDrained) ?_ ?_ h
    · rintro _ rfl _ _ ⟨⟩
    · exact fun _ _ _ hs hok hstep => hs.step hok hstep
  exact (hall link peer hpeer).2

/-- Packet 0 is retried to its limit and cancelled while packet 1 waits. -/
def cancelledHead : List (ProcessAction Nat) :=
  [.addPeer 1, .sendMgmt 1 7, .future 0 (.limitRetries 0), .sendMgmt 1 8,
    .input 1 .retryTick, .input 1 (.reply (.canceled 0))]

theorem never_stalled_cancelledHead :
    ∃ (p : Process Nat) (peer : Peer Nat), Run step (· = init) FreesNoRoom p ∧
      p.peers 1 = some peer ∧ peer.zdprSend.blocked.length = 1 ∧
      peer.zdprSend.unblockNeeded = false := by
  refine Run.reaches_some_imp (P := fun _ peer => peer.zdprSend.blocked.length = 1) rfl cancelledHead
    (by decide +kernel) ?_
  intro p peer hrun hpeer hlen
  exact ⟨hlen, never_stalled hrun 1 peer hpeer⟩

/-- A window that grows while a packet waits leaves it waiting, and so does the future of a
    cancel-acknowledged oldest packet when it is dropped: then nothing is outstanding any more,
    and no acknowledgement will come that could drain the queue. -/
theorem stalled_by_growth_and_by_forgetting :
    (∃ (p : Process Nat) (peer : Peer Nat), Run step (· = init) (fun _ _ => True) p ∧
      p.peers 1 = some peer ∧ peer.zdprSend.unblockNeeded = true) ∧
    (∃ (p : Process Nat) (peer : Peer Nat), Run step (· = init) (fun _ _ => True) p ∧
      p.peers 1 = some peer ∧ peer.zdprSend.unblockNeeded = true ∧
      peer.zdprSend.unacked = []) := by
  refine ⟨?_, ?_⟩
  · exact Run.reaches_some rfl [.addPeer 1, .sendMgmt 1 7, .sendMgmt 1 8,
      .input 1 (.windowSizeTlv [.u16 2])] (by decide +kernel)
  · exact Run.reaches_some rfl (cancelledHead ++ [.future 0 .drop]) (by decide +kernel)

end Process

end ZprCore.Mgmt
