-- SUMMARY: Which calls on a send future panic.
import ZprCore.Mgmt.Stall
import ZprCore.Zdpr.Ledger
import ZprCore.Zdpr.Places

/-!
# Panics of send futures

A future caches an id of its packet while the sender moves on. Every call on a future ends in
assertions of the sender about that id. Here a session is run with all its futures: packets are
sent, acknowledged, cancelled by the peer and retried, the window changes, and any future is
used at any time, also after it has resolved. Two calls panic, and no other: `try_cancel` of a
packet that waits behind others, because the `Sent` it consumes cancels once more when it is
dropped, and `request_cancel` with an id whose record is gone, because the future then learns
`Acked` where it expects `Sent`.
-/

namespace ZprCore.Mgmt

open Zdpr FutureOp

variable {Pkt : Type} {s s' : Sender Pkt} {n m : Nat} {kind kind' : FutureKind}
  {packetId : PacketId}

/-! ## Calls on futures -/

/-- The methods that a future of this kind has. -/
def FutureOp.availableOn (kind : FutureKind) : FutureOp → Bool
  | .tryCancel | .acked => kind = .sent
  | .into => kind = .acked
  | .isSent | .enqueue | .requestCancel | .limitRetries _ | .poll _ | .drop => true

/-- `try_cancel` of a packet that waits, but not as the oldest one; or `request_cancel` with the
    queue id of a packet whose record in `sent` is gone. -/
def FutureOp.Misfires (s : Sender Pkt) (packetId : PacketId) (op : FutureOp) : Prop :=
  ∃ id, packetId = .queued id ∧
    (op = .tryCancel ∧ (∃ idx, s.blockedPosition id = .at idx ∧ idx ≠ 0) ∨
      op = .requestCancel ∧ s.lookupSeqNum id = some none)

/-- What the cached id of a live future guarantees. -/
def Valid (s : Sender Pkt) (n m : Nat) (kind : FutureKind) : PacketId → Prop
  | .queued id => ∃ j, id = BitVec.ofNat 64 j ∧ s.InPlace m j
  | .sent sn => ∃ k < n, sn = BitVec.ofNat 64 k
  | .acked => True
  | .canceled => kind = .ackedOrCanceled

/-- The place of the packet whose queue id is cached. -/
def OwnPlace (packetId : PacketId) (j : Nat) : Prop := packetId = .queued (BitVec.ofNat 64 j)

theorem Valid.change (h : Valid s n m kind packetId)
    (hk : kind = .ackedOrCanceled → kind' = .ackedOrCanceled) : Valid s n m kind' packetId := by
  cases packetId with
  | canceled => exact hk h
  | queued | sent | acked => exact h

theorem Valid.keeps {own : Nat → Prop} (h : Valid s n m kind packetId)
    (hkeeps : s.Keeps n m own s') (hown : ∀ j, OwnPlace packetId j → ¬ own j) :
    Valid s' n m kind packetId := by
  cases packetId with
  | queued id =>
    obtain ⟨j, rfl, hp⟩ := h
    exact ⟨j, rfl, hkeeps.inPlace j (hown j rfl) hp⟩
  | sent | acked | canceled => exact h

theorem Valid.keepsAll (h : Valid s n m kind packetId) (hkeeps : s.KeepsAll n m s') :
    Valid s' n m kind packetId :=
  h.keeps hkeeps fun _ _ => not_false

theorem valid_updateSentPacketId (kind : FutureKind) (hc : s.Counted n m) {queueId : QueuedPacketId}
    {o : Option SeqNum} (h : s.lookupSeqNum queueId = some o) :
    Valid s n m kind (updateSentPacketId o) ∧ ∀ id, updateSentPacketId o ≠ .queued id := by
  cases o with
  | none => exact ⟨trivial, nofun⟩
  | some sn => exact ⟨hc.lookupSeqNum_lt h, nofun⟩

/-! ## What a call leaves -/

/-- A poll that did not panic: it may change a waker, and what it resolves a `Sent` to does not
    cache a queue id. -/
abbrev Polled (n m : Nat) (kind : FutureKind) (packetId : PacketId) (s : Sender Pkt)
    (o : Option (Poll Resolution × PacketId × Option (Sender Pkt))) : Prop :=
  ∃ r packetId' s', o = some (r, packetId', some s') ∧ s.KeepsAll n m s' ∧
    Valid s' n m kind packetId' ∧ (∀ id, packetId' = .queued id → packetId = packetId') ∧
    (r = .ready .sent → kind ≠ .ackedOrCanceled ∧ ∀ id, packetId' ≠ .queued id)

/-- What a call on a future that did not panic leaves behind. -/
structure SafeStep (n m : Nat) (packetId : PacketId) (s : Sender Pkt) (r : FutureStep Pkt)
    (s' : Sender Pkt) : Prop where
  peer : r.peer = some s'
  keeps : s.Keeps n m (OwnPlace packetId) s'
  future : ∀ kind' packetId', r.future = some (kind', packetId') →
    Valid s' n m kind' packetId' ∧ ∀ id, packetId' = .queued id → packetId = packetId'
  spawned : ∀ packetId', r.spawned = some packetId' →
    Valid s' n m .acked packetId' ∧ ∀ id, packetId' ≠ .queued id

/-- The call panics exactly when it misfires. -/
def Settled (op : FutureOp) (n m : Nat) (kind : FutureKind) (packetId : PacketId)
    (s : Sender Pkt) : Prop :=
  (op.Misfires s packetId ∧ op.run (some s) kind packetId = none) ∨
  (¬ op.Misfires s packetId ∧
    ∃ r s', op.run (some s) kind packetId = some r ∧ SafeStep n m packetId s r s')

variable {op : FutureOp} {packetId' : PacketId} {peer : Option (Sender Pkt)}
  {peer' : Option (Sender Pkt)} {cx : Waker}

theorem not_misfires (htry : op ≠ .tryCancel := by simp) (hreq : op ≠ .requestCancel := by simp) :
    ¬ op.Misfires s packetId := by
  rintro ⟨id, -, ⟨rfl, -⟩ | ⟨rfl, -⟩⟩
  · exact htry rfl
  · exact hreq rfl

theorem Settled.consumed (hop : ¬ op.Misfires s packetId)
    (hkeeps : s.Keeps n m (OwnPlace packetId) s')
    (hrun : op.run (some s) kind packetId = some ⟨some s', [], none, none, none⟩) :
    Settled op n m kind packetId s :=
  .inr ⟨hop, _, s', hrun, rfl, hkeeps, nofun, nofun⟩

theorem Settled.left (cancels : List SeqNum) (hop : ¬ op.Misfires s packetId)
    (hkeeps : s.Keeps n m (OwnPlace packetId) s') (hv : Valid s' n m kind' packetId')
    (hsame : ∀ id, packetId' = .queued id → packetId = packetId')
    (hrun : op.run (some s) kind packetId =
      some ⟨some s', cancels, some (kind', packetId'), none, none⟩) :
    Settled op n m kind packetId s := by
  refine .inr ⟨hop, _, s', hrun, rfl, hkeeps, ?_, nofun⟩
  rintro _ _ heq
  cases heq
  exact ⟨hv, hsame⟩

theorem Settled.kept (hop : ¬ op.Misfires s packetId)
    (hv : Valid s n m kind' packetId) (hkeeps : s.KeepsAll n m s')
    (hrun : op.run (some s) kind packetId =
      some ⟨some s', [], some (kind', packetId), none, none⟩) :
    Settled op n m kind packetId s :=
  .left [] hop (hkeeps.mono fun _ => False.elim) (hv.keepsAll hkeeps) (fun _ _ => rfl) hrun

theorem run_poll_pending (h : pollAs peer cx packetId kind = some (.pending, packetId', peer')) :
    (FutureOp.poll cx).run peer kind packetId =
      some ⟨peer', [], some (kind, packetId'), none, none⟩ := by
  cases kind <;> exact congrArg (Option.map _) h

theorem run_poll_ready {resolution : Resolution}
    (h : pollAs peer cx packetId kind = some (.ready resolution, packetId', peer')) :
    (FutureOp.poll cx).run peer kind packetId = some ⟨peer', [], some (kind, packetId'),
      some resolution, if resolution = .sent then some packetId' else none⟩ := by
  cases kind <;> exact congrArg (Option.map _) h

/-! ## One call -/

section

variable (hc : s.Counted n m) (hn : n < 2 ^ 63) {k : Nat}

include hc hn

theorem requestCancelSent_total (hk : k < n) :
    ∃ s' cancels, Sent.requestCancelSent (some s) (.sent (BitVec.ofNat 64 k)) =
      some (.sent (BitVec.ofNat 64 k), some s', cancels) ∧ s.KeepsAll n m s' := by
  obtain ⟨r, s', hr, hkeeps⟩ := hc.cancelSentPacket hn hk
  refine ⟨s', if r.isSome then [BitVec.ofNat 64 k] else [], ?_, hkeeps⟩
  simp [Sent.requestCancelSent, hr]

theorem forgetInternal_total (hv : Valid s n m kind packetId) :
    ∃ s', AckedOrCanceled.forgetInternal (some s) packetId = some (some s') ∧
      s.KeepsAll n m s' := by
  cases packetId with
  | queued | acked | canceled => exact ⟨s, rfl, .refl hc _⟩
  | sent sn =>
    obtain ⟨k, hk, rfl⟩ := hv
    obtain ⟨s', hs', hkeeps⟩ := hc.forgetCanceledPacket hn hk
    exact ⟨s', by simp [AckedOrCanceled.forgetInternal, hs'], hkeeps⟩

theorem pollAs_sent_total (packetId : PacketId) (hkind : kind ≠ .sent) (hk : k < n) (cx : Waker) :
    Polled n m kind packetId s (pollAs (some s) cx (.sent (BitVec.ofNat 64 k)) kind) := by
  obtain ⟨r, s', hr, hkeeps, hstatus⟩ := hc.pollAck hn hk cx
  simp only [pollAs_sent hkind, hr, Option.bind_some]
  cases r with
  | pending => exact ⟨_, _, s', rfl, hkeeps, ⟨k, hk, rfl⟩, nofun, nofun⟩
  | ready =>
    obtain ⟨resolution, hres, hne⟩ : ∃ resolution,
        kind.onSettled s' (BitVec.ofNat 64 k) = some resolution ∧ resolution ≠ .sent := by
      cases kind with
      | sent => exact absurd rfl hkind
      | acked => exact ⟨_, rfl, nofun⟩
      | ackedOrCanceled =>
        obtain ⟨b, hb⟩ := hstatus rfl
        exact ⟨.status (if b then .canceled else .acked), by simp [FutureKind.onSettled, hb], nofun⟩
    simp only [hres, Option.map_some]
    refine ⟨_, _, s', rfl, hkeeps, ⟨k, hk, rfl⟩, nofun, ?_⟩
    rintro ⟨⟩
    exact absurd rfl hne

variable (hm : m < 2 ^ 63)

include hm

section

variable (hv : Valid s n m kind packetId)

include hv

/-- Cancelling what waits: the packet is withdrawn, and whether the same can be tried again depends
    on its place; or nothing happens, and the future knows the packet's number afterwards. -/
theorem tryCancelInternal_cases :
    (∃ id idx pkt s', packetId = .queued id ∧ s.blockedPosition id = .at idx ∧
      Sent.tryCancelInternal (some s) packetId = some (some pkt, packetId, some s') ∧
      s.Keeps n m (OwnPlace packetId) s' ∧
      Sent.drop (some s') packetId = if idx = 0 then some (some s') else none) ∨
    (∃ packetId', Sent.tryCancelInternal (some s) packetId = some (none, packetId', some s) ∧
      Valid s n m kind packetId' ∧ (∀ id, packetId' ≠ .queued id) ∧
      ∀ id, packetId = .queued id →
        ∃ o, s.lookupSeqNum id = some o ∧ packetId' = updateSentPacketId o) := by
  cases packetId with
  | sent | acked | canceled => exact .inr ⟨_, rfl, hv, nofun, nofun⟩
  | queued id =>
    obtain ⟨j, rfl, hp⟩ := hv
    rcases hc.locate hm hp with ⟨hbehind, o, ho⟩ | ⟨idx, -, -, -, hat, -⟩
    · obtain ⟨hv', hne⟩ := valid_updateSentPacketId kind hc ho
      refine .inr ⟨updateSentPacketId o, ?_, hv', hne, ?_⟩
      · simp [Sent.tryCancelInternal, Sender.cancelQueuedPacket, hbehind, ho]
      · rintro id heq
        cases heq
        exact ⟨o, ho, rfl⟩
    · obtain ⟨p, s', hcancel, hkeeps, hagain, hlook⟩ := hc.cancelQueuedPacket_twice hn hm hp hat
      refine .inl ⟨_, idx, p, s', rfl, hat, ?_, ?_, ?_⟩
      · simp [Sent.tryCancelInternal, hcancel]
      · refine hkeeps.mono ?_
        rintro _ rfl
        rfl
      · by_cases hidx : idx = 0
        · have hsome : s'.lookupSeqNum (BitVec.ofNat 64 j) ≠ none := fun h => hlook.mp h hidx
          obtain ⟨o, ho⟩ := Option.ne_none_iff_exists'.mp hsome
          simp [Sent.drop, Sent.tryCancelInternal, hagain, ho, hidx]
        · simp [Sent.drop, Sent.tryCancelInternal, hagain, hlook.mpr hidx, hidx]

theorem sent_drop_total :
    ∃ s', Sent.drop (some s) packetId = some (some s') ∧ s.Keeps n m (OwnPlace packetId) s' := by
  rcases tryCancelInternal_cases hc hn hm hv with
    ⟨id, idx, pkt, s', -, -, htry, hkeeps, -⟩ | ⟨packetId', htry, -⟩
  · exact ⟨s', by simp [Sent.drop, htry], hkeeps⟩
  · exact ⟨s, by simp [Sent.drop, htry], .refl hc _⟩

/-- `request_cancel` reaches `unreachable!` exactly when the record of the packet is gone. -/
theorem requestCancelInternal_cases :
    (FutureOp.requestCancel.Misfires s packetId ∧
      Sent.requestCancelInternal (some s) packetId = none) ∨
    (¬ FutureOp.requestCancel.Misfires s packetId ∧ ∃ packetId' s' cancels,
      Sent.requestCancelInternal (some s) packetId = some (packetId', some s', cancels) ∧
      s.Keeps n m (OwnPlace packetId) s' ∧ Valid s' n m .ackedOrCanceled packetId' ∧
      ∀ id, packetId' ≠ .queued id) := by
  have hsafe : (∀ id, packetId ≠ .queued id) → ¬ FutureOp.requestCancel.Misfires s packetId := by
    rintro hne ⟨id, rfl, -⟩
    exact hne id rfl
  cases packetId with
  | acked => exact .inr ⟨hsafe nofun, _, _, _, rfl, .refl hc _, trivial, nofun⟩
  | canceled => exact .inr ⟨hsafe nofun, _, _, _, rfl, .refl hc _, rfl, nofun⟩
  | sent sn =>
    obtain ⟨k, hk, rfl⟩ := hv
    obtain ⟨s', cancels, hreq, hkeeps⟩ := requestCancelSent_total hc hn hk
    exact .inr ⟨hsafe nofun, _, s', cancels, hreq, hkeeps.mono fun _ => False.elim, ⟨k, hk, rfl⟩,
      nofun⟩
  | queued id =>
    rcases tryCancelInternal_cases hc hn hm hv with
      ⟨id', idx, pkt, s', heq, hat, htry, hkeeps, -⟩ | ⟨packetId', htry, hv', hne, hlearn⟩
    · cases heq
      have hlook := Sender.lookupSeqNum_of_blocked hat
      refine .inr ⟨?_, .canceled, s', [], ?_, hkeeps, rfl, nofun⟩
      · rintro ⟨_, heq, ⟨hop, -⟩ | ⟨-, hgone⟩⟩
        · cases hop
        · cases heq
          cases hlook.symm.trans hgone
      · simp [Sent.requestCancelInternal, htry]
    · obtain ⟨o, ho, rfl⟩ := hlearn id rfl
      cases o with
      | none =>
        refine .inl ⟨⟨id, rfl, .inr ⟨rfl, ho⟩⟩, ?_⟩
        simp [Sent.requestCancelInternal, htry, updateSentPacketId, Sent.requestCancelSent]
      | some sn =>
        obtain ⟨k, hk, rfl⟩ := hc.lookupSeqNum_lt ho
        obtain ⟨s', cancels, hreq, hkeeps⟩ := requestCancelSent_total hc hn hk
        refine .inr ⟨?_, .sent (BitVec.ofNat 64 k), s', cancels, ?_,
          hkeeps.mono fun _ => False.elim, ⟨k, hk, rfl⟩, nofun⟩
        · rintro ⟨_, heq, ⟨hop, -⟩ | ⟨-, hgone⟩⟩
          · cases hop
          · cases heq
            cases ho.symm.trans hgone
        · simp only [Sent.requestCancelInternal, htry]
          exact hreq

theorem limitRetriesInternal_total (limit : UInt8) :
    ∃ s', Sent.limitRetriesInternal (some s) packetId limit = some (some s') ∧
      s.KeepsAll n m s' := by
  cases packetId with
  | acked | canceled => exact ⟨s, rfl, .refl hc _⟩
  | queued id =>
    obtain ⟨j, rfl, hp⟩ := hv
    obtain ⟨s', hs', hkeeps⟩ := hc.limitRetriesById hn hm hp limit
    exact ⟨s', by simp [Sent.limitRetriesInternal, hs'], hkeeps⟩
  | sent sn =>
    obtain ⟨k, hk, rfl⟩ := hv
    obtain ⟨s', hs', hkeeps⟩ := hc.limitRetriesBySeqNum hn hk limit
    exact ⟨s', by simp [Sent.limitRetriesInternal, hs'], hkeeps⟩

theorem pollAs_total (cx : Waker) :
    Polled n m kind packetId s (pollAs (some s) cx packetId kind) := by
  have hdone : ∀ packetId : PacketId, Valid s n m kind packetId → (∀ id, packetId ≠ .queued id) →
      ∀ resolution, (resolution = .sent → kind ≠ .ackedOrCanceled) →
      Polled n m kind packetId s (some (.ready resolution, packetId, some s)) := by
    intro packetId hv hne resolution hres
    refine ⟨_, _, s, rfl, .refl hc _, hv, fun id h => absurd h (hne id), ?_⟩
    rintro ⟨⟩
    exact ⟨hres rfl, hne⟩
  cases packetId with
  | acked => cases kind <;> exact hdone _ hv (by simp) _ (by simp)
  | canceled =>
    obtain rfl := hv
    exact hdone .canceled rfl (by simp) _ (by simp)
  | sent sn =>
    by_cases hkind : kind = .sent
    · subst hkind
      exact hdone _ hv (by simp) _ (by simp)
    · obtain ⟨k, hk, rfl⟩ := hv
      exact pollAs_sent_total hc hn _ hkind hk cx
  | queued id =>
    obtain ⟨j, rfl, hp⟩ := hv
    obtain ⟨r, s', hr, hkeeps, hout⟩ := hc.pollSend hn hm hp cx
    have hstay : Valid s' n m kind (.queued (BitVec.ofNat 64 j)) :=
      ⟨j, rfl, hkeeps.inPlace j not_false hp⟩
    by_cases hkind : kind = .sent
    · subst hkind
      simp only [pollAs, Sent.poll, hr]
      rcases hout with rfl | ⟨o, rfl, ho⟩
      · exact ⟨_, _, s', rfl, hkeeps, hstay, fun _ _ => rfl, (by simp)⟩
      · obtain ⟨hv', hne⟩ := valid_updateSentPacketId .sent hc ho
        exact ⟨_, _, s', rfl, hkeeps, hv'.keepsAll hkeeps, fun id h => absurd h (hne id),
          fun _ => ⟨(by simp), hne⟩⟩
    · simp only [pollAs_queued hkind, hr, Option.bind_some]
      rcases hout with rfl | ⟨_ | sn, rfl, ho⟩
      · exact ⟨_, _, s', rfl, hkeeps, hstay, fun _ _ => rfl, (by simp)⟩
      · refine ⟨_, _, s', rfl, hkeeps, hstay, fun _ _ => rfl, ?_⟩
        cases kind <;> first | exact absurd rfl hkind | rintro ⟨⟩
      obtain ⟨k, hk, rfl⟩ := hc.lookupSeqNum_lt ho
      obtain ⟨r, packetId', s'', hpoll, hkeeps', hrest⟩ :=
        pollAs_sent_total hkeeps.counted hn (.queued (BitVec.ofNat 64 j)) hkind hk cx
      exact ⟨r, packetId', s'', hpoll, hkeeps.trans hkeeps', hrest⟩

end

theorem Settled.tryCancel (hv : Valid s n m .sent packetId) : Settled .tryCancel n m .sent packetId s := by
  rcases tryCancelInternal_cases hc hn hm hv with
    ⟨id, idx, pkt, s', rfl, hat, htry, hkeeps, hdrop⟩ | ⟨packetId', htry, hv', hne, hlearn⟩
  · by_cases hidx : idx = 0
    · rw [if_pos hidx] at hdrop
      refine .consumed ?_ hkeeps (by simp only [run, htry, hdrop, Option.map_some])
      rintro ⟨_, heq, ⟨-, i, hi, hne⟩ | ⟨hop, -⟩⟩
      · cases heq
        cases hat.symm.trans hi
        exact hne hidx
      · cases hop
    · rw [if_neg hidx] at hdrop
      exact .inl ⟨⟨id, rfl, .inl ⟨rfl, idx, hat, hidx⟩⟩,
        by simp only [run, htry, hdrop, Option.map_none]⟩
  · have hacked : Valid s n m .acked packetId' := hv'.change (by rintro ⟨⟩)
    refine .left [] ?_ (.refl hc _) hacked (fun id h => absurd h (hne id))
      (by simp only [run, htry])
    rintro ⟨id, rfl, ⟨-, i, hi, -⟩ | ⟨hop, -⟩⟩
    · obtain ⟨o, ho, -⟩ := hlearn id rfl
      cases ho.symm.trans (Sender.lookupSeqNum_of_blocked hi)
    · cases hop

section

variable (hv : Valid s n m kind packetId)

include hv

theorem Settled.requestCancel : Settled .requestCancel n m kind packetId s := by
  rcases requestCancelInternal_cases hc hn hm hv with
    ⟨hmis, hnone⟩ | ⟨hsafe, packetId', s', cancels, hreq, hkeeps, hv', hne⟩
  · exact .inl ⟨hmis, by simp only [run, hnone, Option.map_none]⟩
  · exact .left cancels hsafe hkeeps hv' (fun id h => absurd h (hne id))
      (by simp only [run, hreq, Option.map_some])

theorem Settled.poll (cx : Waker) : Settled (.poll cx) n m kind packetId s := by
  obtain ⟨r, packetId', s', hr, hkeeps, hv', hsame, hsent⟩ := pollAs_total hc hn hm hv cx
  have hown : s.Keeps n m (OwnPlace packetId) s' := hkeeps.mono fun _ => False.elim
  have hsafe : ¬ (FutureOp.poll cx).Misfires s packetId := not_misfires
  cases r with
  | pending =>
    exact .left [] hsafe hown hv' hsame (run_poll_pending hr)
  | ready resolution =>
    refine .inr ⟨hsafe, _, s', run_poll_ready hr, rfl, hown, ?_, ?_⟩
    · rintro _ _ heq
      cases heq
      exact ⟨hv', hsame⟩
    intro packetId'' hspawn
    split at hspawn
    · next hres =>
      cases hspawn
      obtain ⟨hkind, hne⟩ := hsent (by rw [hres])
      exact ⟨hv'.change fun h => absurd h hkind, hne⟩
    · cases hspawn

theorem Settled.drop : Settled .drop n m kind packetId s := by
  have hsafe : ¬ FutureOp.drop.Misfires s packetId := not_misfires
  cases kind with
  | sent | acked =>
    obtain ⟨s', hdrop, hkeeps⟩ := sent_drop_total hc hn hm hv
    exact .consumed hsafe hkeeps (by simp only [run, hdrop, Option.map_some])
  | ackedOrCanceled =>
    obtain ⟨t, hforget, hkeeps⟩ := forgetInternal_total hc hn hv
    obtain ⟨s', hdrop, hkeeps'⟩ := sent_drop_total hkeeps.counted hn hm (hv.keepsAll hkeeps)
    refine .consumed hsafe ((hkeeps.mono fun _ => False.elim).trans hkeeps') ?_
    simp only [run, AckedOrCanceled.drop, hforget, Option.bind_some, hdrop, Option.map_some]

/-- Every call that a live future offers panics exactly when it misfires. -/
theorem FutureOp.settled (hop : op.availableOn kind = true) :
    Settled op n m kind packetId s := by
  cases op with
  | isSent =>
    have hsent : ∃ b, Sent.isSent (some s) packetId = some b := by
      cases packetId with
      | queued id =>
        obtain ⟨j, rfl, hp⟩ := hv
        exact hc.isSent hm hp.1
      | sent | acked | canceled => exact ⟨true, rfl⟩
    obtain ⟨b, hb⟩ := hsent
    exact .kept not_misfires hv (.refl hc _)
      (by simp only [run, hb, Option.map_some])
  | enqueue =>
    cases kind with
    | sent | acked => exact .consumed not_misfires (.refl hc _) rfl
    | ackedOrCanceled =>
      obtain ⟨s', hforget, hkeeps⟩ := forgetInternal_total hc hn hv
      exact .consumed not_misfires (hkeeps.mono fun _ => False.elim)
        (by simp only [run, hforget, Option.map_some])
  | tryCancel =>
    obtain rfl : kind = .sent := of_decide_eq_true hop
    exact .tryCancel hc hn hm hv
  | acked =>
    obtain rfl : kind = .sent := of_decide_eq_true hop
    exact .kept not_misfires (hv.change (by rintro ⟨⟩)) (.refl hc _) rfl
  | requestCancel => exact .requestCancel hc hn hm hv
  | limitRetries limit =>
    obtain ⟨s', hlimit, hkeeps⟩ := limitRetriesInternal_total hc hn hm hv limit
    exact .kept not_misfires (hv.change fun _ => rfl) hkeeps
      (by simp only [run, hlimit, Option.map_some])
  | into =>
    obtain rfl : kind = .acked := of_decide_eq_true hop
    exact .kept not_misfires (hv.change (by rintro ⟨⟩)) (.refl hc _) rfl
  | poll cx => exact .poll hc hn hm hv cx
  | drop => exact .drop hc hn hm hv

end

end

/-! ## A session and its futures -/

/-- One session with the futures of all its packets. -/
structure FutureTable (Pkt : Type) where
  zdprSend : Sender Pkt
  /-- every future returned so far, `none` once it is consumed -/
  futures : List (Option (FutureKind × PacketId))
  /-- how many packets were given a sequence number -/
  numbered : Nat
  /-- how many packets were queued -/
  queued : Nat

inductive FutureTableAction (Pkt : Type) where
  | sendMgmt (packet : Pkt)
  | input (input : SenderInput)
  | future (i : Nat) (op : FutureOp)

namespace FutureTable

def init : FutureTable Pkt := ⟨.new, [], 0, 0⟩

def sendMgmtHelper (c : FutureTable Pkt) (packet : Pkt) : FutureTable Pkt :=
  match c.zdprSend.enqueuePacket packet with
  | (.sent sn _, zdprSend) =>
    { c with
      zdprSend
      futures := c.futures ++ [some (.sent, .sent sn)]
      numbered := c.numbered + 1 }
  | (.queued id, zdprSend) =>
    { c with
      zdprSend
      futures := c.futures ++ [some (.sent, .queued id)]
      queued := c.queued + 1 }

def futureStep (c : FutureTable Pkt) (i : Nat) (op : FutureOp) : Option (FutureTable Pkt) :=
  match c.futures[i]? with
  | some (some (kind, packetId)) =>
    (op.run (some c.zdprSend) kind packetId).bind fun r =>
      r.peer.map fun zdprSend =>
        { c with zdprSend, futures := r.after (fun kind packetId _ => (kind, packetId)) c.futures i }
  | _ => none

/-- A call that panics ends the process and has no successor. -/
def step (c : FutureTable Pkt) : FutureTableAction Pkt → Option (FutureTable Pkt)
  | .sendMgmt packet => some (c.sendMgmtHelper packet)
  | .input input =>
    (input.apply c.zdprSend).map fun (zdprSend, sent, _) =>
      { c with zdprSend, numbered := c.numbered + sent.length }
  | .future i op => c.futureStep i op

def Reachable : FutureTable Pkt → Prop := Run step (· = init) fun _ _ => True

variable {c c' : FutureTable Pkt} {i : Nat} {sent : List (SeqNum × Pkt)} {a : FutureTableAction Pkt}
  {ms : List (Move Pkt)} {n' m' j : Nat} {ps : List Pkt} {r : FutureStep Pkt}

def Live (c : FutureTable Pkt) (i : Nat) (kind : FutureKind) (packetId : PacketId) : Prop :=
  c.futures[i]? = some (some (kind, packetId))

/-- Every cached id is consistent with the sender, and no two futures cache one queue id. -/
structure Sound (c : FutureTable Pkt) : Prop where
  counted : c.zdprSend.Counted c.numbered c.queued
  valid : ∀ i kind packetId, c.Live i kind packetId →
    Valid c.zdprSend c.numbered c.queued kind packetId
  alone : ∀ i j kind kind' id, c.Live i kind (.queued id) → c.Live j kind' (.queued id) → i = j

theorem sound_init : (init : FutureTable Pkt).Sound where
  counted := ⟨Sender.new_recorded, Sender.new_hasQueued⟩
  valid i kind packetId h := by simp [Live, init] at h
  alone i j kind kind' id h := by simp [Live, init] at h

/-! ## The session goes on -/

theorem valid_of_inPlace (h : Valid s n m kind packetId) (hn : n ≤ n')
    (hplaces : ∀ j, s.InPlace m j → s'.InPlace m' j) : Valid s' n' m' kind packetId := by
  cases packetId with
  | queued id =>
    obtain ⟨j, rfl, hp⟩ := h
    exact ⟨j, rfl, hplaces j hp⟩
  | sent sn =>
    obtain ⟨k, hk, rfl⟩ := h
    exact ⟨k, Nat.lt_of_lt_of_le hk hn, rfl⟩
  | acked | canceled => exact h

theorem Sound.moves {sent : Nat} (hs : c.Sound) (hms : c.zdprSend.Moves ms ps s')
    (hk : ∀ mv ∈ ms, mv.keepsPlaces = true) (htotal : Move.totalSends ms = sent)
    (hn : c.numbered + sent ≤ 2 ^ 63) :
    Sound { c with zdprSend := s', numbered := c.numbered + sent } := by
  obtain ⟨hc', hplaces⟩ := hs.counted.moves (by omega) hms hk
  rw [htotal] at hc'
  exact ⟨hc', fun i kind packetId h =>
    valid_of_inPlace (hs.valid i kind packetId h) (Nat.le_add_right _ _) hplaces, hs.alone⟩

theorem drains_moves (h : Drains s sent s') :
    ∃ ms, s.Moves ms [] s' ∧ (∀ mv ∈ ms, mv.keepsPlaces = true) ∧
      Move.totalSends ms = sent.length := by
  induction h with
  | nil => exact ⟨[], .nil, by simp, rfl⟩
  | cons hnext _ ih =>
    obtain ⟨ms, hms, hk, htotal⟩ := ih
    have hfirst := (Sender.enqueueNextBlockedPacket_moves hnext).2
    refine ⟨_, hfirst.trans hms, ?_, ?_⟩
    · intro mv hmv
      rcases List.mem_append.mp hmv with hmv | hmv
      · simp only [List.mem_cons, List.not_mem_nil, or_false] at hmv
        rcases hmv with rfl | rfl <;> rfl
      · exact hk mv hmv
    · simp only [List.cons_append, List.nil_append, Move.totalSends_cons, htotal, Move.sends,
        List.length_cons]
      omega

theorem Sound.acknowledgement (hs : c.Sound) {seqNum : SeqNum} {isCanceled : Bool}
    (h : handleAcknowledgementCanceledCommon c.zdprSend seqNum isCanceled = some (s', sent))
    (hn : c.numbered + sent.length ≤ 2 ^ 63) :
    Sound { c with zdprSend := s', numbered := c.numbered + sent.length } := by
  obtain ⟨t, ht, hdrain⟩ := Option.bind_eq_some_iff.mp h
  obtain ⟨ms, ps, hms, hplain⟩ : ∃ ms ps, c.zdprSend.Moves ms ps t ∧ ∀ mv ∈ ms, mv.isPlain = true := by
    split at ht
    · obtain ⟨-, ms, hms, hp⟩ := SenderCall.perform_plain (c := .processCanceled seqNum) rfl
        (Option.map_eq_some_iff.mpr ⟨t, ht, rfl⟩)
      exact ⟨ms, _, hms, hp⟩
    · obtain ⟨r, hr, rfl⟩ := Option.map_eq_some_iff.mp ht
      obtain ⟨-, ms, hms, hp⟩ := SenderCall.perform_plain (c := .processAck seqNum) rfl
        (Option.map_eq_some_iff.mpr ⟨r, hr, rfl⟩)
      exact ⟨ms, _, hms, hp⟩
  obtain ⟨ms', hms', hk', htotal⟩ := drains_moves (drains_of_drainBlocked hdrain)
  refine hs.moves (hms.trans hms') ?_ ?_ hn
  · intro mv hmv
    rcases List.mem_append.mp hmv with hmv | hmv
    · exact Move.keepsPlaces_of_plain (hplain mv hmv)
    · exact hk' mv hmv
  · rw [← htotal]
    have hzero := Move.totalSends_of_plain hplain
    simp only [Move.totalSends, List.map_append, List.sum_append] at hzero ⊢
    omega

theorem Sound.plain (hs : c.Sound) (hms : c.zdprSend.Moves ms ps s')
    (hp : ∀ mv ∈ ms, mv.isPlain = true) (hn : c.numbered ≤ 2 ^ 63) :
    Sound { c with zdprSend := s' } :=
  hs.moves hms (fun mv hmv => Move.keepsPlaces_of_plain (hp mv hmv)) (Move.totalSends_of_plain hp) hn

theorem Sound.input (hs : c.Sound) {input : SenderInput} {messages : List (Message Pkt)}
    (h : input.apply c.zdprSend = some (s', sent, messages))
    (hn : c.numbered + sent.length ≤ 2 ^ 63) :
    Sound { c with zdprSend := s', numbered := c.numbered + sent.length } := by
  rcases SenderInput.apply_cases h with ⟨_, _, hack⟩ | ⟨rfl, rfl | rfl | ⟨_, w, -, -, hadj⟩⟩
  · exact hs.acknowledgement hack hn
  · have hms := Sender.ageRetriesOf_moves (s := c.zdprSend) (le_refl c.zdprSend.unacked.length)
    rw [Sender.ageRetriesOf_length] at hms
    refine hs.plain hms ?_ hn
    intro mv hmv
    obtain ⟨idx, -, rfl⟩ := List.mem_map.mp hmv
    rfl
  · exact hs
  · obtain rfl := Sender.adjustWindowSize_eq hadj
    exact hs.plain (.quiet c.zdprSend _ c.zdprSend.stats) (by simp [Move.isPlain]) hn

/-! ## A packet is sent -/

theorem live_concat
    (h : (c.futures ++ [some (kind, packetId)])[i]? = some (some (kind', packetId'))) :
    c.Live i kind' packetId' ∨ i = c.futures.length ∧ kind' = kind ∧ packetId' = packetId := by
  rcases Sender.Ledger.getElem?_concat h with hold | ⟨hi, heq⟩
  · exact .inl hold
  · cases heq
    exact .inr ⟨hi, rfl, rfl⟩

theorem Sound.added (hs : c.Sound) (hc : s'.Counted n' m') (hn : c.numbered ≤ n')
    (hplaces : ∀ j, c.zdprSend.InPlace c.queued j → s'.InPlace m' j)
    (hv : Valid s' n' m' .sent packetId)
    (hfresh : ∀ i kind id, packetId = .queued id → ¬ c.Live i kind (.queued id)) :
    Sound ⟨s', c.futures ++ [some (.sent, packetId)], n', m'⟩ := by
  refine ⟨hc, ?_, ?_⟩
  · intro i kind packetId' h
    rcases live_concat h with hold | ⟨-, rfl, rfl⟩
    · exact valid_of_inPlace (hs.valid i kind packetId' hold) hn hplaces
    · exact hv
  intro i j kind kind' id hi hj
  rcases live_concat hi with hi | ⟨hi, -, heq⟩
  · rcases live_concat hj with hj | ⟨-, -, heq⟩
    · exact hs.alone i j kind kind' id hi hj
    · exact absurd hi (hfresh i kind id heq.symm)
  · rcases live_concat hj with hj | ⟨hj, -, -⟩
    · exact absurd hj (hfresh j kind' id heq.symm)
    · exact hi.trans hj.symm

theorem Sound.sendMgmtHelper (hs : c.Sound) (packet : Pkt)
    (hn : (c.sendMgmtHelper packet).numbered < 2 ^ 63)
    (hm : (c.sendMgmtHelper packet).queued < 2 ^ 63) : (c.sendMgmtHelper packet).Sound := by
  have hlen := hs.counted.hasSent.length_le
  unfold FutureTable.sendMgmtHelper at hn hm ⊢
  cases henq : c.zdprSend.enqueuePacket packet with
  | mk result s' =>
    rcases Sender.enqueuePacket_moves (s := c.zdprSend) packet with ⟨id, hres, hms⟩ | ⟨hres, hms⟩
    · rw [henq] at hres hms
      cases hres
      simp only [henq] at hn hm ⊢
      obtain ⟨hid, hq, hupd⟩ := hs.counted.hasQueued.enqueuePacket packet (by rw [henq])
      rw [henq] at hq hupd
      subst hid
      have hrec := hs.counted.recorded.moves (by simp [Move.totalSends, Move.sends]; omega) hms
      refine hs.added ⟨hrec, hq⟩ (le_refl _) ?_ ?_ ?_
      · rintro j ⟨hj, hst⟩
        refine ⟨Nat.lt_succ_of_lt hj, ?_⟩
        rw [hupd, Function.update_of_ne (Nat.ne_of_lt hj)]
        exact hst
      · refine ⟨c.queued, rfl, Nat.lt_succ_self _, ?_⟩
        rw [hupd, Function.update_self]
        rintro ⟨⟩
      · rintro i kind id heq hlive
        cases heq
        obtain ⟨j, heq, hj, -⟩ := hs.valid i kind _ hlive
        have := ofNat_inj_of_lt (by omega) (by omega) heq
        omega
    · rw [henq] at hres hms
      cases hres
      simp only [henq] at hn hm ⊢
      obtain ⟨hc, hplaces⟩ := hs.counted.moves (by simp [Move.totalSends, Move.sends]; omega) hms
        (by simp [Move.keepsPlaces])
      refine hs.added hc (Nat.le_succ _) hplaces ⟨c.numbered, Nat.lt_succ_self _, ?_⟩ (by rintro _ _ _ ⟨⟩)
      rw [hs.counted.hasSent.lastSent, sub_add_cancel]

/-! ## A future is used -/

theorem futureStep_eq (h : c.futureStep i op = some c') :
    ∃ kind packetId r s', c.Live i kind packetId ∧
      op.run (some c.zdprSend) kind packetId = some r ∧ r.peer = some s' ∧
      c' = { c with
        zdprSend := s'
        futures := r.after (fun kind packetId _ => (kind, packetId)) c.futures i } := by
  unfold futureStep at h
  split at h
  · next hlive =>
    obtain ⟨r, hr, h⟩ := Option.bind_eq_some_iff.mp h
    obtain ⟨s', hpeer, rfl⟩ := Option.map_eq_some_iff.mp h
    exact ⟨_, _, r, s', hlive, hr, hpeer, rfl⟩
  · cases h

theorem live_after (hlive : c.Live i kind packetId)
    (h : (r.after (fun kind packetId _ => (kind, packetId)) c.futures i)[j]? =
      some (some (kind', packetId'))) :
    (j ≠ i ∧ c.Live j kind' packetId') ∨ (j = i ∧ r.future = some (kind', packetId')) ∨
      (kind' = .acked ∧ r.spawned = some packetId') := by
  rcases FutureStep.of_getElem?_after (List.getElem?_eq_some_iff.mp hlive).1 h with
    hold | ⟨hj, _, _, hleft, heq⟩ | ⟨-, _, hspawn, heq⟩
  · exact .inl hold
  · cases heq
    exact .inr (.inl ⟨hj, hleft⟩)
  · cases heq
    exact .inr (.inr ⟨rfl, hspawn⟩)

theorem availableOn_of_run (h : op.run peer kind packetId = some r) :
    op.availableOn kind = true := by
  cases op with
  | tryCancel | acked | into => cases kind <;> first | rfl | cases h
  | isSent | enqueue | requestCancel | limitRetries | poll | drop => rfl

theorem Sound.futureStep (hs : c.Sound) (hn : c.numbered < 2 ^ 63) (hm : c.queued < 2 ^ 63)
    (h : c.futureStep i op = some c') : c'.Sound := by
  obtain ⟨kind, packetId, r, s', hlive, hr, hpeer, rfl⟩ := futureStep_eq h
  rcases op.settled hs.counted hn hm (hs.valid i kind packetId hlive) (availableOn_of_run hr) with
    ⟨-, hnone⟩ | ⟨-, r', t, hr', hsafe⟩
  · cases hnone.symm.trans hr
  cases hr'.symm.trans hr
  cases hsafe.peer.symm.trans hpeer
  refine ⟨hsafe.keeps.counted, ?_, ?_⟩
  · intro j kind' packetId' hj
    rcases live_after hlive hj with ⟨hij, hold⟩ | ⟨-, hleft⟩ | ⟨rfl, hspawn⟩
    · refine (hs.valid j kind' packetId' hold).keeps hsafe.keeps ?_
      rintro k rfl rfl
      exact hij (hs.alone j i kind' kind _ hold hlive)
    · exact (hsafe.future kind' packetId' hleft).1
    · exact (hsafe.spawned packetId' hspawn).1
  · have hold : ∀ {j kind' id}, Live { c with
        zdprSend := s'
        futures := r.after (fun kind packetId _ => (kind, packetId)) c.futures i } j kind' (.queued id) →
        ∃ kind'', c.Live j kind'' (.queued id) := by
      intro j kind' id hj
      rcases live_after hlive hj with ⟨-, hold⟩ | ⟨rfl, hleft⟩ | ⟨-, hspawn⟩
      · exact ⟨kind', hold⟩
      · have heq := (hsafe.future kind' _ hleft).2 id rfl
        exact ⟨kind, heq ▸ hlive⟩
      · exact absurd rfl ((hsafe.spawned _ hspawn).2 id)
    intro j j' kind' kind'' id hj hj'
    obtain ⟨_, hj⟩ := hold hj
    obtain ⟨_, hj'⟩ := hold hj'
    exact hs.alone j j' _ _ id hj hj'

/-! ## Whole runs -/

theorem futureStep_counts (h : c.futureStep i op = some c') :
    c'.numbered = c.numbered ∧ c'.queued = c.queued := by
  obtain ⟨_, _, _, _, -, -, -, rfl⟩ := futureStep_eq h
  exact ⟨rfl, rfl⟩

theorem step_counts (h : c.step a = some c') : c.numbered ≤ c'.numbered ∧ c.queued ≤ c'.queued := by
  cases a with
  | sendMgmt packet =>
    cases h
    unfold sendMgmtHelper
    split
    · exact ⟨Nat.le_succ _, le_refl _⟩
    · exact ⟨le_refl _, Nat.le_succ _⟩
  | input input =>
    obtain ⟨r, -, rfl⟩ := Option.map_eq_some_iff.mp h
    exact ⟨Nat.le_add_right _ _, le_refl _⟩
  | future i op =>
    obtain ⟨hn, hm⟩ := futureStep_counts h
    exact ⟨hn.ge, hm.ge⟩

theorem Sound.step (hs : c.Sound) (h : c.step a = some c') (hn : c'.numbered < 2 ^ 63)
    (hm : c'.queued < 2 ^ 63) : c'.Sound := by
  obtain ⟨hln, hlm⟩ := step_counts h
  cases a with
  | sendMgmt packet =>
    cases h
    exact hs.sendMgmtHelper packet hn hm
  | input input =>
    obtain ⟨⟨s', sent, messages⟩, happly, rfl⟩ := Option.map_eq_some_iff.mp h
    exact hs.input happly hn.le
  | future i op => exact hs.futureStep (by omega) (by omega) h

theorem Reachable.sound (h : c.Reachable) (hn : c.numbered < 2 ^ 63) (hm : c.queued < 2 ^ 63) :
    c.Sound := by
  refine Run.invariant (P := fun c : FutureTable Pkt =>
    c.numbered < 2 ^ 63 → c.queued < 2 ^ 63 → c.Sound) ?_ ?_ h hn hm
  · rintro c rfl _ _
    exact sound_init
  · intro c a c' ih _ hstep hn hm
    obtain ⟨hln, hlm⟩ := step_counts hstep
    exact (ih (by omega) (by omega)).step hstep hn hm

/-- In every state of a session that has numbered and queued fewer than `2^63` packets, a call on a
    future panics exactly when it is a `try_cancel` of a packet that waits behind another one, or
    a `request_cancel` with the queue id of a packet whose record is gone. -/
theorem future_panics_iff (h : c.Reachable) (hn : c.numbered < 2 ^ 63) (hm : c.queued < 2 ^ 63)
    {i : Nat} (hlive : c.Live i kind packetId) {op : FutureOp} (hop : op.availableOn kind = true) :
    op.run (some c.zdprSend) kind packetId = none ↔ op.Misfires c.zdprSend packetId := by
  have hs := h.sound hn hm
  rcases op.settled hs.counted hn hm (hs.valid i kind packetId hlive) hop with
    ⟨hmis, hnone⟩ | ⟨hsafe, r, s', hr, -⟩
  · exact ⟨fun _ => hmis, fun _ => hnone⟩
  · refine ⟨fun hnone => ?_, fun hmis => absurd hmis hsafe⟩
    cases hnone.symm.trans hr

/-- Three packets are sent with window size 1; the last one waits behind the second. Dropping its
    future is fine. -/
theorem future_panics_dropped :
    ∃ c : FutureTable Nat, c.Reachable ∧ c.Live 2 .sent (.queued 1) ∧
      FutureOp.drop.run (some c.zdprSend) .sent (.queued 1) ≠ none := by
  refine Run.reaches_imp (P := fun c : FutureTable Nat => c.numbered < 2 ^ 63 ∧ c.queued < 2 ^ 63 ∧
    c.futures[2]? = some (some (.sent, .queued 1))) rfl [.sendMgmt 0, .sendMgmt 1, .sendMgmt 2]
    (by decide +kernel) ?_
  rintro c hrun ⟨hn, hm, hlive⟩
  refine ⟨hlive, fun hnone => ?_⟩
  have hsafe : ¬ FutureOp.drop.Misfires c.zdprSend (.queued 1) := not_misfires
  exact hsafe ((future_panics_iff hrun hn hm hlive rfl).mp hnone)

/-- The same packet cannot be cancelled with `try_cancel`; and a packet that was queued, sent and
    acknowledged while nobody polled its future cannot be cancelled with `request_cancel`. -/
theorem cancelling_panics :
    (∃ c : FutureTable Nat, c.Reachable ∧ c.Live 2 .sent (.queued 1) ∧
      (FutureOp.tryCancel.run (some c.zdprSend) .sent (.queued 1)).isNone) ∧
    (∃ c : FutureTable Nat, c.Reachable ∧ c.Live 1 .sent (.queued 0) ∧
      (FutureOp.requestCancel.run (some c.zdprSend) .sent (.queued 0)).isNone) := by
  have hfound {k : Nat} {i : PacketId} {op : FutureOp}
      (h : ∃ c : FutureTable Nat, Run step (· = init) (fun _ _ => True) c ∧
        c.futures[k]? = some (some (.sent, i)) ∧ (op.run (some c.zdprSend) .sent i).isNone) :
      ∃ c : FutureTable Nat, c.Reachable ∧ c.Live k .sent i ∧
        (op.run (some c.zdprSend) .sent i).isNone := h
  refine ⟨hfound ?_, hfound ?_⟩
  · exact Run.reaches rfl [.sendMgmt 0, .sendMgmt 1, .sendMgmt 2] (by decide +kernel)
  · exact Run.reaches rfl
      [.sendMgmt 0, .sendMgmt 1, .input (.reply (.ack 0)), .input (.reply (.ack 1))]
      (by decide +kernel)

end FutureTable

end ZprCore.Mgmt
