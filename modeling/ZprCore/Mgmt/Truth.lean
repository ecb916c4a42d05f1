-- SUMMARY: When a resolved future tells the truth about the peer's receiver.
import ZprCore.Mgmt.SendSession

/-!
# What futures say and what the receiver did

The sender is joined to an honest receiver by lossy channels, as in `Session`. An
`AckedOrCanceled` resolves to what the sender knows about its packet, and that is what the
receiver did with it, with one exception. `clean_sent_queue` also drops the records of packets
that are `CancelAcked`, and a future that still caches a queue id reads a missing record as an
acknowledgement.
-/

namespace ZprCore.Mgmt

open Zdpr

/-! ## The wire -/

variable {W : Nat} {net : Session Nat} {numbers : List Nat} {s : Sender Nat} {p : Nat}
  {f : Nat → UnackedState Nat → UnackedState Nat} {limit : Option UInt8} {i : Nat}

theorem Touched.mild {Pkt : Type} {s s' : Sender Pkt} {n : Nat} {sent : List (Message Pkt)}
    (hs : s.HasSent n) (hn : n < 2 ^ 63) (h : Touched s sent s') :
    ∃ f, Sender.Evolves n f s s' ∧ (∀ k, Mild (f k)) ∧ ∀ m ∈ sent, m.Justified n s' := by
  induction h with
  | nil => exact ⟨_, hs.evolves_refl, fun _ => .id, nofun⟩
  | @cons op s t u sent rest hop hrun _ ih =>
    cases SenderOp.run_effect hs hn hrun with
    | quiet f hev _ hmild hm =>
      have hforgets : op.forgets = false := by
        cases op <;> first | rfl | exact hop.elim
      obtain ⟨g, hev', hg, hm'⟩ := ih hev.hasSent
      refine ⟨_, hev.trans hev', fun k => (hmild hforgets k).comp (hg k), ?_⟩
      intro m hmem
      rcases List.mem_append.mp hmem with hold | hnew
      · obtain ⟨k, hk, hsn, hjust⟩ := hm m hold
        refine ⟨k, hk, hsn, fun heq => ?_⟩
        -- what is not wanted any more does not become wanted again
        cases hst : (u.status n k).isUnacked with
        | false => rfl
        | true =>
          rw [hev'.status k hk] at hst
          exact absurd (((hg k).quiet _).2 hst) (by rw [hjust heq]; exact Bool.false_ne_true)
      · exact hm' m hnew
    | sends hsend =>
      cases op <;> first | exact hop.elim | cases hsend
    | adjusts => exact hop.elim

/-- The channels and the receiver agree with the ledger. -/
structure Wire (W : Nat) (net : Session Nat) (numbers : List Nat) : Prop where
  inv : Session.Inv W net
  sentCount : net.sentCount = numbers.length
  sound : ∀ sn p, .packet sn p ∈ net.forward →
    ∃ k, sn = BitVec.ofNat 64 k ∧ numbers[k]? = some p
  complete : ∀ k p, numbers[k]? = some p → .packet (BitVec.ofNat 64 k) p ∈ net.forward
  refused : ∀ k < numbers.length, net.sender.status numbers.length k = .cancelAcked →
    BitVec.ofNat 64 k ∈ net.refused

/-- The sender takes packet `p` for acknowledged only if the receiver processed it, and nobody
    has forgotten its cancellation. -/
def Candid (s : Sender Nat) (processed : List SeqNum) (numbers : List Nat) (p : Nat) : Prop :=
  ∀ k, numbers[k]? = some p →
    (s.status numbers.length k = .acked → BitVec.ofNat 64 k ∈ processed) ∧
    (s.status numbers.length k).forgotten = false

namespace Wire

section

variable (h : Wire W net numbers)

include h

theorem quiet (hn : numbers.length < 2 ^ 63)
    {messages : List (Message Nat)} (hev : Sender.Evolves numbers.length f net.sender s)
    (hq : ∀ k, Quiet (f k)) (hcancel : ∀ k e, f k e = .cancelAcked → e = .cancelAcked)
    (hm : ∀ m ∈ messages, m.Justified numbers.length s)
    (hsound : ∀ sn p, .packet sn p ∈ messages → ∃ k, sn = BitVec.ofNat 64 k ∧ numbers[k]? = some p)
    :
    Wire W { net with sender := s, forward := net.forward ++ messages } numbers where
  inv := by
    have hcount := h.sentCount
    rw [← hcount] at hn hev hm
    exact h.inv.quiet hn hev hq hm
  sentCount := h.sentCount
  sound sn p hmem := by
    rcases List.mem_append.mp hmem with hold | hnew
    · exact h.sound sn p hold
    · exact hsound sn p hnew
  complete k p hk := List.mem_append_left _ (h.complete k p hk)
  refused k hk hst := by
    apply h.refused k hk
    rw [hev.status k hk] at hst
    exact hcancel k _ hst

theorem send (hn : numbers.length + 1 < 2 ^ 63)
    (hs : Sender.Sends numbers.length p limit net.sender s) :
    Wire W
      { net with
        sender := s
        forward := net.forward ++ [.packet (BitVec.ofNat 64 numbers.length) p]
        sentCount := net.sentCount + 1 }
      (numbers ++ [p]) where
  inv := by
    have hcount := h.sentCount
    rw [← hcount] at hn hs ⊢
    exact h.inv.sends hn hs
  sentCount := by
    rw [List.length_append, List.length_singleton, h.sentCount]
  sound sn q hmem := by
    rcases List.mem_append.mp hmem with hold | hnew
    · obtain ⟨k, hk, hnum⟩ := h.sound sn q hold
      exact ⟨k, hk, Sender.Ledger.getElem?_concat_of_some hnum⟩
    · cases List.mem_singleton.mp hnew
      exact ⟨numbers.length, rfl, List.getElem?_concat_length⟩
  complete k q hk := by
    rcases Sender.Ledger.getElem?_concat hk with hold | ⟨rfl, rfl⟩
    · exact List.mem_append_left _ (h.complete k q hold)
    · exact List.mem_append_right _ List.mem_cons_self
  refused k hk hst := by
    rw [List.length_append, List.length_singleton] at hk hst
    rcases Nat.lt_or_ge k numbers.length with hlt | hge
    · rw [hs.status_old k hlt] at hst
      exact h.refused k hlt hst
    · obtain rfl : k = numbers.length := by omega
      rw [hs.status_new] at hst
      cases hst

theorem settle {sn : SeqNum} {f : UnackedState Nat → UnackedState Nat}
    (hev : Sender.Evolves numbers.length (Sender.onSeqNum sn f) net.sender s)
    (hf : ∀ e, (f e).isUnacked = true → e.isUnacked = true)
    (hsn : sn ∈ net.processed ∨ sn ∈ net.refused)
    (hcancel : ∀ e, f e = .cancelAcked → e = .cancelAcked ∨ sn ∈ net.refused) :
    Wire W { net with sender := s } numbers where
  inv := h.inv.settle (h.sentCount ▸ hev) hf hsn
  sentCount := h.sentCount
  sound := h.sound
  complete := h.complete
  refused k hk hst := by
    rw [hev.status k hk, Sender.onSeqNum] at hst
    split at hst
    · next heq => exact (hcancel _ hst).elim (h.refused k hk) fun hmem => heq ▸ hmem
    · exact h.refused k hk hst

theorem adjustWindowSize {windowSize : Nat} (hw : windowSize ≤ W)
    (hadj : net.sender.adjustWindowSize windowSize = some s) :
    Wire W { net with sender := s } numbers := by
  obtain rfl := Sender.adjustWindowSize_eq hadj
  exact ⟨h.inv.adjusts hw, h.sentCount, h.sound, h.complete, h.refused⟩

theorem deliver (hn : numbers.length < 2 ^ 63) (hW : W ≤ 63)
    {net' : Session Nat} (hstep : net.step (.deliver i) = some net') : Wire W net' numbers := by
  have hn' : net.sentCount < 2 ^ 63 := h.sentCount ▸ hn
  obtain ⟨sn, d, r, hanswer⟩ := Session.deliver_eq_answer hstep
  have hcount : net'.sentCount = net.sentCount := by rw [hanswer]; rfl
  have hok : Session.WindowAtMost W net (.deliver i) := trivial
  have hinv : Session.Inv W net' := h.inv.step hW hok hstep (hcount ▸ hn')
  subst hanswer
  refine ⟨hinv, h.sentCount, h.sound, h.complete, ?_⟩
  intro k hk hst
  have hold := h.refused k hk hst
  simp only [Session.answer]
  split
  · exact List.mem_append_left _ hold
  · exact hold

end

end Wire

namespace Candid

variable {processed : List SeqNum} {s' : Sender Nat}

section

variable (h : Candid s processed numbers p)

include h

theorem mono {processed' : List SeqNum} (hproc : ∀ sn ∈ processed, sn ∈ processed') :
    Candid s processed' numbers p :=
  fun k hk => ⟨fun hst => hproc _ ((h k hk).1 hst), (h k hk).2⟩

theorem evolves (hev : Sender.Evolves numbers.length f s s')
    (hf : ∀ k e, e.forgotten = false → (f k e).forgotten = false ∧
      (f k e = .acked → e = .acked ∨ BitVec.ofNat 64 k ∈ processed)) :
    Candid s' processed numbers p := by
  intro k hk
  obtain ⟨hacked, hforgotten⟩ := h k hk
  obtain ⟨hkept, hnew⟩ := hf k _ hforgotten
  rw [hev.status k (Sender.lt_of_getElem? hk)]
  exact ⟨fun hst => (hnew hst).elim hacked id, hkept⟩

theorem mild (hev : Sender.Evolves numbers.length f s s') (hf : ∀ k, Mild (f k)) :
    Candid s' processed numbers p := by
  refine h.evolves hev fun k e he => ⟨?_, fun hst => .inl ((hf k).acked e hst)⟩
  cases hx : (f k e).forgotten with
  | false => rfl
  | true => exact absurd ((hf k).forgotten e hx) (by rw [he]; exact Bool.false_ne_true)

theorem settle {sn : SeqNum} {f : UnackedState Nat → UnackedState Nat}
    (hev : Sender.Evolves numbers.length (Sender.onSeqNum sn f) s s')
    (hf : ∀ e, e.forgotten = false → (f e).forgotten = false ∧
      (f e = .acked → e = .acked ∨ sn ∈ processed)) : Candid s' processed numbers p := by
  refine h.evolves hev fun k e he => ?_
  unfold Sender.onSeqNum
  split
  · next heq => exact heq ▸ hf e he
  · exact ⟨he, .inl⟩

theorem send {q : Nat} (hs : Sender.Sends numbers.length q limit s s') :
    Candid s' processed (numbers ++ [q]) p := by
  intro k hk
  rcases Sender.Ledger.getElem?_concat hk with hold | ⟨rfl, -⟩
  · rw [Sender.Ledger.sends_status hs (Sender.lt_of_getElem? hold)]
    exact h k hold
  · rw [List.length_append, List.length_singleton, hs.status_new]
    exact ⟨nofun, rfl⟩

end

end Candid

/-! ## Steps of the session -/

namespace SendSession

variable {c c' : SendSession} {op : FutureOp} {status : PacketStatus} {r : FutureStep Nat}
  {peer : Option (Sender Nat)} {packetId : PacketId} {kind : FutureKind}

/-- The record behind a cached queue id is gone from the sender's queues. -/
def recordGone (s : Sender Nat) : PacketId → Bool
  | .queued id => s.lookupSeqNum id == some none
  | _ => false

def isCancelAckedEntry : UnackedState Nat → Bool
  | .cancelAcked => true
  | _ => false

/-- Acknowledgements come from the receiver, which never advertises more than its window. -/
def Honest (W : Nat) (c : SendSession) : SendAction → Prop
  | .input (.reply r) => r ∈ c.net.backward
  | .input (.windowSizeTlv tlvValue) => ∀ w ∈ appliedWindowSize tlvValue, w ≤ W
  | _ => True

/-- No `AckedOrCanceled` is polled whose packet is `CancelAcked` while the record behind its
    cached queue id is gone. -/
def PollsInTime (c : SendSession) : SendAction → Prop
  | .future i (.poll _) =>
    ∀ f ∈ c.futures[i]?.join, f.kind = .ackedOrCanceled →
      recordGone c.net.sender f.packetId = true →
      ∀ k < c.numbers.length, c.numbers[k]? = some f.packet →
        isCancelAckedEntry (c.net.sender.status c.numbers.length k) = false
  | _ => True

/-- What the sender may say about packet `p`. -/
abbrev CandidAbout (c : SendSession) (p : Nat) : Prop :=
  Candid c.net.sender c.net.processed c.numbers p

/-- What the channels and the receiver say stays true from `c` to `c'`. -/
structure Faithful (W : Nat) (c c' : SendSession) : Prop where
  wire : Wire W c'.net c'.numbers
  candid : ∀ p, c.CandidAbout p → c'.CandidAbout p
  processed : ∀ sn ∈ c.net.processed, sn ∈ c'.net.processed
  refused : ∀ sn ∈ c.net.refused, sn ∈ c'.net.refused

theorem Faithful.trans {c'' : SendSession} (h : Faithful W c c') (h' : Faithful W c' c'') :
    Faithful W c c'' :=
  ⟨h'.wire, fun p hp => h'.candid p (h.candid p hp), fun sn hsn => h'.processed sn (h.processed sn hsn),
    fun sn hsn => h'.refused sn (h.refused sn hsn)⟩

theorem transmit_nil (c : SendSession) (s : Sender Nat) (messages : List (Message Nat)) :
    c.transmit s [] messages =
      { c with net := { c.net with sender := s, forward := c.net.forward ++ messages } } := by
  simp [transmit]

theorem hasSent_of_wire (h : Wire W c.net c.numbers) : c.net.sender.HasSent c.numbers.length := by
  have hs := h.inv.hasSent
  rwa [h.sentCount] at hs

theorem Faithful.send (h : Wire W c.net c.numbers) (hn : c.numbers.length + 1 < 2 ^ 63)
    (hs : Sender.Sends c.numbers.length p limit c.net.sender s) :
    Faithful W c (c.transmit s [(BitVec.ofNat 64 c.numbers.length, p)] []) := by
  have hw := h.send hn hs
  have hforward : c.net.forward ++ [.packet (BitVec.ofNat 64 c.numbers.length) p] ++ [] =
      c.net.forward ++ [.packet (BitVec.ofNat 64 c.numbers.length) p] := List.append_nil _
  refine ⟨?_, ?_, fun _ h => h, fun _ h => h⟩
  · simp only [transmit, List.map_cons, List.map_nil, hforward, List.length_singleton]
    exact hw
  · intro q hq
    exact hq.send hs

theorem Faithful.refl (h : Wire W c.net c.numbers) : Faithful W c c :=
  ⟨h, fun _ h => h, fun _ h => h, fun _ h => h⟩

theorem transmit_self (c : SendSession) : c.transmit c.net.sender [] [] = c := by
  rw [transmit_nil, List.append_nil]

theorem transmit_cons (c : SendSession) (u s : Sender Nat) (r : SeqNum × Nat)
    (rest : List (SeqNum × Nat)) :
    (c.transmit u [r] []).transmit s rest [] = c.transmit s (r :: rest) [] := by
  simp [transmit, Nat.add_assoc, Nat.add_comm 1]

section

variable (h : Wire W c.net c.numbers)

include h

theorem Faithful.drains {sent : List (SeqNum × Nat)} (hn : c.numbers.length + sent.length < 2 ^ 63)
    (hd : Drains c.net.sender sent s) : Faithful W c (c.transmit s sent []) := by
  generalize hs : c.net.sender = s₀ at hd
  induction hd generalizing c with
  | nil =>
    subst hs
    rw [transmit_self]
    exact .refl h
  | @cons _ u _ r rest hnext _ ih =>
    subst hs
    obtain ⟨q, -, l, -, -, rfl, hsends⟩ := (hasSent_of_wire h).enqueueNextBlockedPacket hnext
    simp only [List.length_cons] at hn
    have hone := Faithful.send h (by omega) hsends
    have hlen : (c.transmit u [(BitVec.ofNat 64 c.numbers.length, q)] []).numbers.length
        = c.numbers.length + 1 := by simp [transmit]
    have hmore := ih hone.wire (by omega) rfl
    rw [transmit_cons] at hmore
    exact hone.trans hmore

theorem Faithful.settle {sn : SeqNum} {f : UnackedState Nat → UnackedState Nat}
    (hev : Sender.Evolves c.numbers.length (Sender.onSeqNum sn f) c.net.sender s)
    (hf : ∀ e, (f e).isUnacked = true → e.isUnacked = true)
    (hsn : sn ∈ c.net.processed ∨ sn ∈ c.net.refused)
    (hcancel : ∀ e, f e = .cancelAcked → e = .cancelAcked ∨ sn ∈ c.net.refused)
    (hkept : ∀ e, e.forgotten = false → (f e).forgotten = false ∧
      (f e = .acked → e = .acked ∨ sn ∈ c.net.processed)) :
    Faithful W c { c with net := { c.net with sender := s } } :=
  ⟨h.settle hev hf hsn hcancel, fun _ hp => hp.settle hev hkept, fun _ h => h, fun _ h => h⟩

theorem Faithful.reply (hn : c.numbers.length < 2 ^ 63) {r : Zdpr.Reply} (hr : r ∈ c.net.backward)
    (hstep : c.step (.input (.reply r)) = some c') (hn' : c'.numbers.length < 2 ^ 63) : Faithful W c c' := by
  have hs := hasSent_of_wire h
  cases r with
  | ack sn =>
    obtain ⟨⟨s, sent, _⟩, happly, rfl⟩ := Option.map_eq_some_iff.mp hstep
    obtain ⟨_, hack, heq⟩ := Option.map_eq_some_iff.mp happly
    cases heq
    obtain ⟨u, hu, hdrain⟩ := Option.bind_eq_some_iff.mp hack
    obtain ⟨⟨packet, v⟩, hack, rfl⟩ := Option.map_eq_some_iff.mp hu
    have hmem := h.inv.ack_processed sn hr
    -- first the entry is settled, and then the queue is drained
    have hfirst : Faithful W c { c with net := { c.net with sender := v } } := by
      refine .settle h (hs.settles hn (Sender.processAck_effect hack)) Session.isUnacked_ack (.inl hmem) ?_ ?_
      · intro e he
        cases e <;> first | exact .inl rfl | cases he
      · intro e _
        exact ⟨by cases e <;> rfl, fun _ => .inr hmem⟩
    exact hfirst.trans (.drains hfirst.wire (by simpa [transmit] using hn')
      (drains_of_drainBlocked hdrain))
  | canceled sn =>
    obtain ⟨⟨s, sent, _⟩, happly, rfl⟩ := Option.map_eq_some_iff.mp hstep
    obtain ⟨_, hcan, heq⟩ := Option.map_eq_some_iff.mp happly
    cases heq
    obtain ⟨v, hcan, hdrain⟩ := Option.bind_eq_some_iff.mp hcan
    have hmem := h.inv.canceled_refused sn hr
    have hfirst : Faithful W c { c with net := { c.net with sender := v } } := by
      refine .settle h (hs.settles hn (Sender.processCanceled_effect hcan))
        Session.isUnacked_cancelAck (.inr hmem) (fun _ _ => .inr hmem) ?_
      intro e he
      cases e with
      | cancelRequested w x =>
        obtain rfl : x = false := he
        exact ⟨rfl, by rintro ⟨⟩⟩
      | unacked | acked | cancelAcked => exact ⟨he, .inl⟩
    exact hfirst.trans (.drains hfirst.wire (by simpa [transmit] using hn')
      (drains_of_drainBlocked hdrain))

theorem Faithful.mild (hn : c.numbers.length < 2 ^ 63) (messages : List (Message Nat))
    (hev : Sender.Evolves c.numbers.length f c.net.sender s) (hf : ∀ k, Mild (f k))
    (hm : ∀ m ∈ messages, m.Justified c.numbers.length s)
    (hsound : ∀ sn p, .packet sn p ∈ messages →
      ∃ k, sn = BitVec.ofNat 64 k ∧ c.numbers[k]? = some p) :
    Faithful W c (c.transmit s [] messages) := by
  rw [transmit_nil]
  exact ⟨h.quiet hn hev (fun k => (hf k).quiet) (fun k _ he => (hf k).cancelAcked he) hm hsound,
    fun p hp => hp.mild hev hf, fun _ h => h, fun _ h => h⟩

theorem Faithful.retryTick (hl : c.net.sender.Ledger c.numbers c.ids)
    (hn : c.numbers.length < 2 ^ 63) (hstep : c.step (.input .retryTick) = some c') : Faithful W c c' := by
  cases hstep
  have hev := hl.hasSent.ageRetries
  have hl' := hl.trims hn hev (fun _ => Lawful.apply .age) hl.hasQueued.ageRetries
  apply Faithful.mild h hn _ hev (fun _ => .ageRetries)
  · intro m hm
    rcases List.mem_append.mp hm with hm | hm
    · obtain ⟨⟨sn, packet⟩, hmem, rfl⟩ := List.mem_map.mp hm
      obtain ⟨k, hk, hsn, -⟩ := hl'.hasSent.mem_retryPackets hmem
      exact ⟨k, hk, hsn, nofun⟩
    · obtain ⟨sn, hmem, rfl⟩ := List.mem_map.mp hm
      obtain ⟨k, hk, hsn, -, w, x, hst⟩ := hl'.hasSent.mem_retryCancels hmem
      exact ⟨k, hk, hsn, fun _ => by rw [hst]; rfl⟩
  · intro sn q hm
    rcases List.mem_append.mp hm with hm | hm
    · obtain ⟨⟨sn, packet⟩, hmem, heq⟩ := List.mem_map.mp hm
      cases heq
      obtain ⟨k, -, hsn, -, w, l, rc, x, hst⟩ := hl'.hasSent.mem_retryPackets hmem
      exact ⟨k, hsn, hl'.unacked k _ w l rc x hst⟩
    · obtain ⟨sn, -, heq⟩ := List.mem_map.mp hm
      cases heq

theorem Faithful.windowSizeTlv {tlvValue : List TlvValue}
    (hw : ∀ w ∈ appliedWindowSize tlvValue, w ≤ W)
    (hstep : c.step (.input (.windowSizeTlv tlvValue)) = some c') : Faithful W c c' := by
  obtain ⟨_, happly, rfl⟩ := Option.map_eq_some_iff.mp hstep
  obtain ⟨s, hs, rfl⟩ := Option.map_eq_some_iff.mp happly
  change Faithful W c (c.transmit s [] [])
  rw [transmit_nil, List.append_nil]
  rw [processWindowSizeTlv_eq] at hs
  split at hs
  · cases hs
    exact .refl h
  next w heq =>
  have hadj := h.adjustWindowSize (hw w heq) hs
  refine ⟨hadj, ?_, fun _ h => h, fun _ h => h⟩
  obtain rfl := Sender.adjustWindowSize_eq hs
  exact fun _ hp => hp

theorem Faithful.deliver (hn : c.numbers.length < 2 ^ 63) (hW : W ≤ 63)
    (hstep : c.step (.deliver i) = some c') : Faithful W c c' := by
  obtain ⟨net, hnet, rfl⟩ := Option.map_eq_some_iff.mp hstep
  have hwire := h.deliver hn hW hnet
  obtain ⟨sn, d, r, rfl⟩ := Session.deliver_eq_answer hnet
  have hproc : ∀ x ∈ c.net.processed, x ∈ (c.net.answer sn d r).processed := by
    intro x hx
    simp only [Session.answer]
    split
    · exact List.mem_append_left _ hx
    · exact hx
  refine ⟨hwire, fun p hp => hp.mono hproc, hproc, ?_⟩
  intro x hx
  simp only [Session.answer]
  split
  · exact List.mem_append_left _ hx
  · exact hx

theorem Faithful.sendMgmt (hn : c.numbers.length + 1 < 2 ^ 63) : Faithful W c c.sendMgmtHelper := by
  have hs := hasSent_of_wire h
  unfold sendMgmtHelper
  rcases hs.enqueuePacket c.total with ⟨id, hres, hev⟩ | ⟨hres, hsends⟩
  · split
    · next heq =>
      rw [heq] at hres
      cases hres
    · next heq =>
      rw [heq] at hev
      have hq := Faithful.mild h (by omega) [] hev (fun _ => .id) nofun nofun
      exact ⟨hq.wire, hq.candid, hq.processed, hq.refused⟩
  · split
    · next heq =>
      rw [heq] at hres hsends
      cases hres
      have hone := Faithful.send h hn hsends
      exact ⟨hone.wire, hone.candid, hone.processed, hone.refused⟩
    · next heq =>
      rw [heq] at hres
      cases hres

end

/-! ## Operations on futures -/

theorem forgets_consumes {sn : SeqNum} (hf : op.forgets kind packetId = some sn)
    (h : op.run peer kind packetId = some r) :
    kind = .ackedOrCanceled ∧ r.future = none ∧ r.spawned = none := by
  cases op with
  | enqueue | drop =>
    cases kind with
    | sent | acked => cases hf
    | ackedOrCanceled =>
      obtain ⟨_, -, rfl⟩ := Option.map_eq_some_iff.mp h
      exact ⟨rfl, rfl, rfl⟩
  | isSent | tryCancel | acked | requestCancel | limitRetries | into | poll => cases hf

theorem poll_of_resolution {resolution : Resolution} (h : op.run peer kind packetId = some r)
    (hr : r.resolution = some resolution) : ∃ cx, op = .poll cx := by
  cases op with
  | poll cx => exact ⟨cx, rfl⟩
  | isSent | requestCancel | limitRetries | drop =>
    obtain ⟨_, -, rfl⟩ := Option.map_eq_some_iff.mp h
    cases hr
  | enqueue =>
    cases kind with
    | sent | acked =>
      cases h
      cases hr
    | ackedOrCanceled =>
      obtain ⟨_, -, rfl⟩ := Option.map_eq_some_iff.mp h
      cases hr
  | tryCancel =>
    cases kind with
    | sent =>
      simp only [FutureOp.run] at h
      split at h
      · cases h
      · obtain ⟨_, -, rfl⟩ := Option.map_eq_some_iff.mp h
        cases hr
      · cases h
        cases hr
    | acked | ackedOrCanceled => cases h
  | acked | into =>
    cases kind <;> cases h
    cases hr

/-- What was answered about packet `p` is so. -/
def Answered (c : SendSession) (p : Nat) : PacketStatus → Prop
  | .acked => ∃ k, c.numbers[k]? = some p ∧ BitVec.ofNat 64 k ∈ c.net.processed
  | .canceled =>
    p < c.total ∧ (c.net.sender.Withdrawn c.numbers c.ids p ∨
      ∃ k, c.numbers[k]? = some p ∧ BitVec.ofNat 64 k ∈ c.net.refused)

structure TruthInv (W : Nat) (c : SendSession) : Prop where
  consistent : c.Consistent
  wire : Wire W c.net c.numbers
  candid : ∀ i f, c.Live i f → ¬ f.Spent → c.CandidAbout f.packet
  answers : ∀ p status, (p, status) ∈ c.resolutions → c.Answered p status

theorem Answered.mono (h : c.Answered p status)
    (hnum : ∀ (k : Nat) q, c.numbers[k]? = some q → c'.numbers[k]? = some q)
    (hproc : ∀ sn ∈ c.net.processed, sn ∈ c'.net.processed)
    (href : ∀ sn ∈ c.net.refused, sn ∈ c'.net.refused) (htotal : c.total ≤ c'.total)
    (hwd : p < c.total → c.net.sender.Withdrawn c.numbers c.ids p →
      c'.net.sender.Withdrawn c'.numbers c'.ids p) : c'.Answered p status := by
  cases status with
  | acked =>
    obtain ⟨k, hk, hmem⟩ := h
    exact ⟨k, hnum k p hk, hproc _ hmem⟩
  | canceled =>
    obtain ⟨hlt, hcase⟩ := h
    refine ⟨Nat.lt_of_lt_of_le hlt htotal, hcase.imp (hwd hlt) ?_⟩
    rintro ⟨k, hk, hmem⟩
    exact ⟨k, hnum k p hk, href _ hmem⟩

theorem TruthInv.moves (h : TruthInv W c) (hf : Faithful W c c') (hm : Moves c c') :
    TruthInv W c' where
  consistent := h.consistent.moves hm
  wire := hf.wire
  candid i f hlive hsp := hf.candid _ (h.candid i f (hm.live.mp hlive) hsp)
  answers p status hmem := by
    rw [hm.resolutions] at hmem
    exact (h.answers p status hmem).mono hm.progress.numbers_grow hf.processed hf.refused
      (Nat.le_of_eq hm.total.symm) fun _ hw => (hm.progress.withdrawn p trivial).mp hw

theorem TruthInv.adds (h : TruthInv W c) (hf : Faithful W c c') {f : SendFuture}
    (ha : Adds f c c') : TruthInv W c' where
  consistent := h.consistent.adds ha
  wire := hf.wire
  candid i g hlive hsp := by
    rcases ha.live hlive with hold | ⟨rfl, -⟩
    · exact hf.candid _ (h.candid i g hold hsp)
    -- a packet that was just sent is neither acknowledged nor forgotten
    apply hf.candid
    intro k hk
    have hlt := h.consistent.numbers_lt _ (List.mem_of_getElem? hk)
    rw [ha.packet] at hlt
    exact absurd hlt (Nat.lt_irrefl _)
  answers p status hmem := by
    rw [ha.resolutions] at hmem
    refine (h.answers p status hmem).mono ha.progress.numbers_grow hf.processed hf.refused
      (by rw [ha.total]; exact Nat.le_succ _) fun hlt hw => ?_
    exact (ha.progress.withdrawn p (Nat.ne_of_lt hlt)).mp hw

theorem mem_answered {q : Nat} {resolution : Option Resolution}
    (h : (p, status) ∈ answered q resolution) : p = q ∧ resolution = some (.status status) := by
  unfold answered at h
  split at h
  · cases List.mem_singleton.mp h
    exact ⟨rfl, rfl⟩
  · cases h

section

variable (h : TruthInv W c) (ht : c.total < 2 ^ 63)

include h ht

theorem TruthInv.touched {cancels : List SeqNum}
    (hrun : Touched c.net.sender (cancels.map .cancel) s) :
    Faithful W c (c.transmit s [] (cancels.map .cancel)) := by
  have hnum := h.consistent.numbers_le
  obtain ⟨f, hev, hf, hm⟩ := hrun.mild (hasSent_of_wire h.wire) (by omega)
  apply Faithful.mild h.wire (by omega) _ hev hf hm
  intro sn q hmem
  obtain ⟨_, -, heq⟩ := List.mem_map.mp hmem
  cases heq

theorem TruthInv.forgets {sn : SeqNum} (hf : c.net.sender.forgetCanceledPacket sn = some s) :
    Wire W (c.transmit s [] []).net (c.transmit s [] []).numbers := by
  have hnum := h.consistent.numbers_le
  have hev := (hasSent_of_wire h.wire).settles (by omega) (Sender.forgetCanceledPacket_effect hf)
  rw [transmit_nil]
  refine h.wire.quiet (by omega) hev (fun k => quiet_forget.onSeqNum sn k) ?_ nofun nofun
  intro k e he
  unfold Sender.onSeqNum at he
  split at he
  · cases e with
    | unacked p w l rc x => cases l <;> cases he
    | cancelRequested | acked | cancelAcked => cases he
  · exact he

/-- What a poll answers is so, unless it is misled. -/
theorem TruthInv.answer (hok : c.PollsInTime (.future i op)) {f : SendFuture}
    (hu : c.Uses i op f r s) (hsp : ¬ f.Spent) (hres : r.resolution = some (.status status)) :
    c.Answered f.packet status := by
  have hf := hu.live
  have hh := h.consistent.handled ht hu hsp
  obtain ⟨hkind, htells | ⟨-, id, hid, hlook, k, hk, hst⟩⟩ := hh.status status hres
  · cases status with
    | acked =>
      obtain ⟨k, hk, hst⟩ := htells
      exact ⟨k, hk, (h.candid i f hf hsp k hk).1 hst⟩
    | canceled =>
      refine ⟨h.consistent.packet_lt i f hf, htells.imp (fun hw => hw) ?_⟩
      rintro ⟨k, hk, hst⟩
      exact ⟨k, hk, h.wire.refused k (Sender.lt_of_getElem? hk) hst⟩
  · obtain ⟨cx, rfl⟩ := poll_of_resolution hu.run hres
    have hgone : recordGone c.net.sender f.packetId = true := by
      rw [hid]
      simp [recordGone, hlook]
    have := hok f (by rw [show c.futures[i]? = _ from hf]; rfl) hkind hgone k
      (Sender.lt_of_getElem? hk) hk
    rw [hst] at this
    cases this

theorem TruthInv.futureStep (hok : c.PollsInTime (.future i op))
    (hstep : c.futureStep i op = some c') : TruthInv W c' := by
  have hc' := h.consistent.futureStep ht hstep
  obtain ⟨f, r, s, hu, rfl⟩ := futureStep_eq hstep
  have hf := hu.live
  have hl := h.consistent.leaves ht hu
  obtain ⟨s', hs', hcase⟩ := FutureOp.run_runs hu.run
  cases hu.peer.symm.trans hs'
  have hanswers : ∀ p status, (p, status) ∈ c.resolutions ++ answered f.packet r.resolution →
      c.Answered p status := by
    intro p status hmem
    rcases List.mem_append.mp hmem with hold | hnew
    · exact h.answers p status hold
    obtain ⟨rfl, hres⟩ := mem_answered hnew
    refine h.answer ht hok hu (fun hsp => ?_) hres
    -- a spent future resolves to nothing
    obtain ⟨-, rfl⟩ := h.consistent.spent_run hu hsp
    cases hres
  have hgrown : ∀ p status, c.Answered p status →
      Answered { c.transmit s [] (r.cancels.map .cancel) with
        futures := r.after f.update c.futures i
        resolutions := c.resolutions ++ answered f.packet r.resolution } p status := by
    intro p status hp
    refine hp.mono ?_ (fun _ h => h) (fun _ h => h) le_rfl ?_
    · simp [transmit]
    · intro _ hw
      simpa [transmit] using hl.alters.withdrawn hw
  rcases hcase with ⟨-, htouched⟩ | ⟨sn, hforgets, hnone, hforget⟩
  · have hfaithful := h.touched ht htouched
    refine ⟨hc', hfaithful.wire, ?_, fun p st hmem => hgrown p st (hanswers p st hmem)⟩
    intro j g hg hsp
    apply hfaithful.candid
    rcases live_after hf hg with ⟨-, hold⟩ | ⟨-, kind, packetId, hfut, rfl⟩ | ⟨-, packetId, hspawn, rfl⟩
    · exact h.candid j g hold hsp
    · exact h.candid i f hf (hl.future kind packetId hfut).1
    · exact h.candid i f hf (hl.future _ _ (hl.spawned packetId hspawn).1).1
  · obtain ⟨hkind, hfut, hspawn⟩ := forgets_consumes hforgets hu.run
    have hwire := h.forgets ht hforget
    rw [hnone] at hc' hgrown ⊢
    refine ⟨hc', hwire, ?_, fun p st hmem => hgrown p st (hanswers p st hmem)⟩
    intro j g hg hsp
    rcases live_after hf hg with ⟨hj, hold⟩ | ⟨-, _, _, hfut', -⟩ | ⟨-, _, hspawn', -⟩
    · have hne : g.packet ≠ f.packet := by
        intro heq
        rcases h.consistent.distinct j i g f hold hf heq hj with hgs | hfs
        · exact hsp hgs
        · exact absurd (hkind.symm.trans hfs.1) (by rintro ⟨⟩)
      suffices hcandid : Candid s c.net.processed c.numbers g.packet by
        simpa [CandidAbout, transmit] using hcandid
      intro k hk
      rw [hl.alters.status_other hne hk]
      exact h.candid j g hold hsp k hk
    · rw [hfut] at hfut'
      cases hfut'
    · rw [hspawn] at hspawn'
      cases hspawn'

end

/-! ## Whole runs -/

theorem truthInv_start (hW : 1 ≤ W) (h : start W = some c) : TruthInv W c := by
  have hc := consistent_start h
  obtain ⟨net, hnet, rfl⟩ := Option.map_eq_some_iff.mp h
  have hinv := Session.inv_start hW hnet
  obtain ⟨r, -, rfl⟩ := Option.map_eq_some_iff.mp hnet
  exact ⟨hc, ⟨hinv, rfl, nofun, nofun, nofun⟩, fun i f hf => by simp [Live] at hf, nofun⟩

theorem TruthInv.step (hW : W ≤ 63) (h : TruthInv W c) {a : SendAction}
    (hok : Honest W c a ∧ c.PollsInTime a) (hstep : c.step a = some c')
    (ht' : c'.total < 2 ^ 63) : TruthInv W c' := by
  have ht : c.total < 2 ^ 63 := lt_of_le_of_lt (total_le_of_step hstep) ht'
  have hc' := h.consistent.step ht hstep
  have hnum := h.consistent.numbers_le
  have hnum' := hc'.numbers_le
  cases a with
  | sendMgmt =>
    cases hstep
    obtain ⟨f, ha⟩ := h.consistent.sendMgmtHelper
    have htotal := ha.total
    exact h.adds (.sendMgmt h.wire (by omega)) ha
  | future i op => exact h.futureStep ht hok.2 hstep
  | input input =>
    have hmoves := h.consistent.network_step ht rfl hstep
    cases input with
    | reply r => exact h.moves (.reply h.wire (by omega) hok.1 hstep (by omega)) hmoves
    | retryTick => exact h.moves (.retryTick h.wire h.consistent.ledger (by omega) hstep) hmoves
    | windowSizeTlv tlvValue => exact h.moves (.windowSizeTlv h.wire hok.1 hstep) hmoves
  | deliver i =>
    exact h.moves (.deliver h.wire (by omega) hW hstep) (h.consistent.network_step ht rfl hstep)

/-- An honest run that polls no future too late. -/
abbrev TruthfulRun (W : Nat) (init : SendSession → Prop) : SendSession → Prop :=
  Run step init fun c a => Honest W c a ∧ c.PollsInTime a

theorem truthInv_of_run (hW : 1 ≤ W) (hW' : W ≤ 63) (h : TruthfulRun W (start W = some ·) c)
    (ht : c.total < 2 ^ 63) : TruthInv W c := by
  have hall : c.total < 2 ^ 63 → TruthInv W c := by
    refine Run.invariant (P := fun c => c.total < 2 ^ 63 → TruthInv W c) ?_ ?_ h
    · exact fun _ hs _ => truthInv_start hW hs
    · intro c a c' ih hok hstep ht'
      have ht : c.total < 2 ^ 63 := lt_of_le_of_lt (total_le_of_step hstep) ht'
      exact (ih ht).step hW' hok hstep ht'
  exact hall ht

theorem resolutions_grow {a : SendAction} (h : c.step a = some c') :
    ∀ r ∈ c.resolutions, r ∈ c'.resolutions := by
  cases a with
  | sendMgmt =>
    cases h
    unfold sendMgmtHelper
    split <;> exact fun _ hr => hr
  | input | deliver =>
    obtain ⟨_, -, rfl⟩ := Option.map_eq_some_iff.mp h
    exact fun _ hr => hr
  | future i op =>
    obtain ⟨_, _, _, -, rfl⟩ := futureStep_eq h
    exact fun _ hr => List.mem_append_left _ hr

/-- The receiver has returned `AckAndProcess` for packet `p`. -/
def Processed (c : SendSession) (p : Nat) : Prop :=
  ∃ sn ∈ c.net.processed, .packet sn p ∈ c.net.forward

instance (p : Nat) : Decidable (c.Processed p) :=
  decidable_of_iff
    (c.net.processed.any fun sn => decide (Message.packet sn p ∈ c.net.forward)) (by simp [Processed])

theorem TruthInv.not_processed (h : TruthInv W c)
    (hmem : (p, .canceled) ∈ c.resolutions) : ¬ c.Processed p := by
  rintro ⟨sn, hproc, hfwd⟩
  obtain ⟨k, rfl, hk⟩ := h.wire.sound sn p hfwd
  obtain ⟨-, hw | ⟨k', hk', href⟩⟩ := h.answers p .canceled hmem
  · exact hw.1 (List.mem_of_getElem? hk)
  · obtain rfl := Sender.eq_of_getElem? h.consistent.ledger.numbers_nodup hk hk'
    exact h.wire.inv.disjoint _ hproc href

/-- In every honest run that polls no future too late, an `AckedOrCanceled` that resolved to
    `Acked` is for a packet the receiver processed, and one that resolved to `Canceled` is for a
    packet the receiver has not processed and never will. -/
theorem futures_tell_the_truth (hW : 1 ≤ W) (hW' : W ≤ 63)
    (h : TruthfulRun W (start W = some ·) c) (ht : c.total < 2 ^ 63) (p : Nat) :
    ((p, .acked) ∈ c.resolutions → c.Processed p) ∧
    ((p, .canceled) ∈ c.resolutions →
      ∀ c', TruthfulRun W (· = c) c' → c'.total < 2 ^ 63 → ¬ c'.Processed p) := by
  have hi := truthInv_of_run hW hW' h ht
  constructor
  · intro hmem
    obtain ⟨k, hk, hproc⟩ := hi.answers p .acked hmem
    exact ⟨_, hproc, hi.wire.complete k p hk⟩
  intro hmem c' hrun ht'
  have hmem' : (p, .canceled) ∈ c'.resolutions := by
    refine Run.invariant (P := fun c' => (p, .canceled) ∈ c'.resolutions) ?_ ?_ hrun
    · rintro _ rfl
      exact hmem
    · exact fun _ _ _ hr _ hstep => resolutions_grow hstep _ hr
  exact (truthInv_of_run hW hW' (h.trans hrun) ht').not_processed hmem'

instance : (a : SendAction) → Decidable (c.PollsInTime a)
  | .future _ (.poll _) => decidableForallMem (fun _ => inferInstance) _
  | .future _ .isSent | .future _ .enqueue | .future _ .tryCancel | .future _ .acked
  | .future _ .requestCancel | .future _ (.limitRetries _) | .future _ .into | .future _ .drop
  | .sendMgmt | .input _ | .deliver _ =>
    inferInstanceAs (Decidable True)

instance : (a : SendAction) → Decidable (Honest W c a)
  | .input (.reply r) => inferInstanceAs (Decidable (r ∈ c.net.backward))
  | .input (.windowSizeTlv _) => decidableForallMem (fun _ => inferInstance) _
  | .future _ _ | .sendMgmt | .input .retryTick | .deliver _ => inferInstanceAs (Decidable True)

/-- Packet 0 is acknowledged. Packet 1 waits with a retry limit, is sent, retried to its limit
    and cancelled. -/
def cancelledInQueue (polls : List SendAction) : List SendAction :=
  [.sendMgmt, .sendMgmt, .future 0 .acked, .future 0 .into, .future 1 (.limitRetries 0),
    .deliver 0, .input (.reply (.ack 0)), .future 0 (.poll .noop)] ++ polls ++
  [.input .retryTick, .deliver 2, .input (.reply (.canceled 1)), .future 1 (.poll .noop)]

/-- A poll in between lets the future of packet 1 learn the number. -/
theorem futures_tell_the_truth_cancelledInQueue :
    ∃ c : SendSession, TruthfulRun 1 (start 1 = some ·) c ∧ c.total = 2 ∧
      c.resolutions = [(0, .acked), (1, .canceled)] ∧ c.Processed 0 ∧ ¬ c.Processed 1 := by
  refine Run.reaches_imp (P := fun c => c.total = 2 ∧
    c.resolutions = [(0, .acked), (1, .canceled)]) rfl
    (cancelledInQueue [.future 1 (.poll .noop)]) (by decide +kernel) ?_
  rintro c hreach ⟨htotal, hres⟩
  have h0 := futures_tell_the_truth le_rfl (by decide) hreach (by omega) 0
  have h1 := futures_tell_the_truth le_rfl (by decide) hreach (by omega) 1
  exact ⟨htotal, hres, h0.1 (by simp [hres]), h1.2 (by simp [hres]) c (.start rfl) (by omega)⟩

/-- Without it, the future takes the missing record of the cancelled packet 1 for an
    acknowledgement. -/
theorem cancelled_packet_reported_acked :
    ∃ c : SendSession, Run step (start 1 = some ·) (Honest 1) c ∧ (1, .acked) ∈ c.resolutions ∧
      ¬ c.Processed 1 :=
  Run.reaches rfl (cancelledInQueue []) (by decide +kernel)

end SendSession

end ZprCore.Mgmt
