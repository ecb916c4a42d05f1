-- SUMMARY: The packet buffers of a fastpath worker are conserved by all of its routines.
import Mathlib.Algebra.Order.Group.Multiset
import Mathlib.Data.Multiset.Range
import Mathlib.Tactic.Abel
import ZprCore.Fastpath.Worker

/-!
# Conservation of packet buffers

Where the buffers of a worker are is a multiset of their indices. A function that is given a packet
adds the buffer of that packet to it, whichever way it ends, and a routine leaves it as it was.
-/

namespace ZprCore.Fastpath

open ZprCore.Flow Adapter
open Dock (localActorLinkId)

def indices (bufs : List PacketBuffer) : Multiset Nat := (bufs.map (·.index) : List Nat)

@[simp] theorem indices_nil : indices [] = 0 := rfl

@[simp] theorem indices_append (bufs bufs' : List PacketBuffer) :
    indices (bufs ++ bufs') = indices bufs + indices bufs' := by
  simp only [indices, List.map_append, Multiset.coe_add]

@[simp] theorem indices_singleton (buf : PacketBuffer) : indices [buf] = {buf.index} := rfl

theorem indices_perm {bufs bufs' : List PacketBuffer} (h : bufs.Perm bufs') :
    indices bufs = indices bufs' :=
  Multiset.coe_eq_coe.mpr (h.map _)

theorem card_indices (bufs : List PacketBuffer) : (indices bufs).card = bufs.length :=
  List.length_map _

namespace FastpathWorker

/-- The buffers that the worker or the tasks at the other ends of its two-way queues have. -/
def held (w : FastpathWorker) : Multiset Nat :=
  indices w.buffers + indices (w.actorInputQ.map (·.destroy)) +
    indices (w.substrateEgressQ.toList.map (·.pkt.destroy)) + indices w.away +
    indices w.returnQ.incoming

/-- The worker is given the buffers `taken` and has them afterwards. Nothing is received from the
    return queue, and what is sent away is counted. -/
structure Absorbs (taken : Multiset Nat) (w w' : FastpathWorker) : Prop where
  config : w'.config = w.config
  held : w'.held = w.held + taken
  incoming : w'.returnQ.incoming = w.returnQ.incoming
  notified : w'.returnQ.notified = w.returnQ.notified
  posts : w'.posts = w.posts
  outstanding : w'.returnQ.outstanding + w.away.length = w.returnQ.outstanding + w'.away.length

namespace Absorbs

variable {w w' w'' : FastpathWorker} {taken taken' : Multiset Nat}

theorem refl : Absorbs 0 w w := ⟨rfl, (add_zero _).symm, rfl, rfl, rfl, rfl⟩

theorem trans (h : Absorbs taken w w') (h' : Absorbs taken' w' w'') :
    Absorbs (taken + taken') w w'' where
  config := h'.config.trans h.config
  held := by rw [h'.held, h.held, add_assoc]
  incoming := h'.incoming.trans h.incoming
  notified := h'.notified.trans h.notified
  posts := h'.posts.trans h.posts
  outstanding := by have := h.outstanding; have := h'.outstanding; omega

theorem cancel {w₀ : FastpathWorker} (h : Absorbs taken w₀ w) (h' : Absorbs taken w₀ w') :
    Absorbs 0 w w' where
  config := h'.config.trans h.config.symm
  held := by rw [h'.held, h.held, add_zero]
  incoming := h'.incoming.trans h.incoming.symm
  notified := h'.notified.trans h.notified.symm
  posts := h'.posts.trans h.posts.symm
  outstanding := by have := h.outstanding; have := h'.outstanding; omega

theorem foldlM {α : Type} {f : FastpathWorker → α → Option FastpathWorker} {buf : α → PacketBuffer}
    (hf : ∀ w a w', f w a = some w' → Absorbs {(buf a).index} w w') {as : List α}
    (h : as.foldlM f w = some w') : Absorbs (indices (as.map buf)) w w' := by
  induction as generalizing w with
  | nil =>
    cases h
    exact refl
  | cons a as ih =>
    obtain ⟨w₁, h₁, h⟩ := Option.bind_eq_some_iff.mp h
    exact (hf w a w₁ h₁).trans (ih h)

theorem increaseBy (h : Absorbs taken w w') (counter : FastpathCounterType) (n : Nat) :
    Absorbs taken w (w'.increaseBy counter n) :=
  ⟨h.config, h.held, h.incoming, h.notified, h.posts, h.outstanding⟩

theorem of_increment {counter : FastpathCounterType} (h : Absorbs taken (w.increment counter) w') :
    Absorbs taken w w' :=
  ⟨h.config, h.held, h.incoming, h.notified, h.posts, h.outstanding⟩

end Absorbs

/-! ## Every end of a packet -/

section

variable {Codec : Type} {cipher : Cipher Codec} {a2a : A2a} {r : Reads Codec}
  {w w' : FastpathWorker} {pkt : BufferedPacket} {i : Nat} {results : List (Except ErrorKind Nat)}
  {s' s : Sweep} {io : Except ErrorKind (List (Except ErrorKind Nat))}
  {reason sent : FastpathCounterType} {dst peerSa : SubstrateAddr}
  {src interfaceAddr : ScopedIpAddr} {is : List Nat}

theorem absorbs_extendBuffers (w : FastpathWorker) (bufs : List PacketBuffer) :
    Absorbs (indices bufs) w (w.extendBuffers bufs) where
  config := rfl
  held := by
    simp only [held, extendBuffers, indices_append]
    abel
  incoming := rfl
  notified := rfl
  posts := rfl
  outstanding := rfl

theorem absorbs_dropAndCount
    (h : some (w.dropAndCount pkt reason) = some w') (hi : pkt.buf.index = i) :
    Absorbs {i} w w' := by
  cases h
  subst hi
  exact (absorbs_extendBuffers w [pkt.destroy]).increaseBy reason 1

theorem absorbs_trySend {answer : TrySend}
    (h : w.trySend pkt sent answer = some w') (hi : pkt.buf.index = i) : Absorbs {i} w w' := by
  cases answer with
  | ok =>
    cases h
    refine ⟨rfl, ?_, rfl, rfl, rfl, ?_⟩
    · simp only [held, increment, increaseBy, indices_append, indices_singleton,
        BufferedPacket.destroy, hi]
      abel
    · simp only [increment, increaseBy, List.length_append, List.length_singleton]
      omega
  | full =>
    exact absorbs_dropAndCount h hi
  | closed => cases h

theorem substrateEgressCommon_buf {link : LinkId} {pkt' : BufferedPacket}
    (h : substrateEgressCommon cipher r link pkt = some (.ok (some (pkt', dst, src)))) :
    pkt'.buf = pkt.buf := by
  unfold substrateEgressCommon at h
  repeat' split at h
  all_goals cases h
  rfl

theorem absorbs_substrateEgress (h : w.substrateEgress cipher r pkt = some w')
    (hi : pkt.buf.index = i) : Absorbs {i} w w' := by
  unfold substrateEgress at h
  split at h
  · cases h
  · exact absorbs_dropAndCount h hi
  · exact absorbs_dropAndCount h hi
  next pkt' dst src hcommon =>
  split at h
  · cases h
  cases h
  refine ⟨rfl, ?_, rfl, rfl, rfl, rfl⟩
  simp only [held, Array.toList_push, List.map_append, List.map_singleton, indices_append,
    indices_singleton, BufferedPacket.destroy, substrateEgressCommon_buf hcommon, hi]
  abel

theorem absorbs_actorInput {tether : StreamId} (h : w.actorInput cipher a2a r tether pkt = some w')
    (hi : pkt.buf.index = i) : Absorbs {i} w w' := by
  unfold actorInput at h
  split at h
  · cases h
  · exact absorbs_dropAndCount h hi
  cases h
  refine ⟨rfl, ?_, rfl, rfl, rfl, rfl⟩
  simp only [held, List.map_append, List.map_singleton, indices_append, indices_singleton,
    BufferedPacket.destroy, BufferedPacket.setBody, hi]
  abel

theorem absorbs_forward (h : w.forward cipher a2a r pkt = some w') (hi : pkt.buf.index = i) :
    Absorbs {i} w w' := by
  unfold forward at h
  split at h
  · exact absorbs_dropAndCount h hi
  split at h
  · exact absorbs_actorInput h hi
  · exact absorbs_substrateEgress h hi

theorem absorbs_substrateIngress
    (h : w.substrateIngress cipher a2a r peerSa interfaceAddr pkt = some w')
    (hi : pkt.buf.index = i) : Absorbs {i} w w' := by
  unfold substrateIngress at h
  dsimp only at h
  split at h
  · exact absorbs_dropAndCount h hi
  · exact absorbs_trySend h hi
  · exact absorbs_trySend h hi
  · exact absorbs_forward h hi

theorem absorbs_actorOutputPostClassify {allowBindRequest : Bool}
    (h : w.actorOutputPostClassify cipher a2a r pkt allowBindRequest = some w')
    (hi : pkt.buf.index = i) : Absorbs {i} w w' := by
  unfold actorOutputPostClassify at h
  dsimp only at h
  split at h
  · cases h
  · exact absorbs_dropAndCount h hi
  · exact absorbs_trySend h hi
  · exact absorbs_forward h hi

theorem absorbs_actorOutput (h : w.actorOutput cipher a2a r pkt = some w') (hi : pkt.buf.index = i) :
    Absorbs {i} w w' := by
  unfold actorOutput at h
  dsimp only at h
  split at h
  · cases h
  split at h
  case h_3 =>
    exact absorbs_dropAndCount h hi
  all_goals
    split at h
    · cases h
    split at h
    · exact absorbs_dropAndCount h hi
    · exact absorbs_actorOutputPostClassify h hi

/-! ## Input -/

theorem absorbs_getFreshPackets (w : FastpathWorker) (n : Nat) :
    Absorbs (indices ((w.getFreshPackets n).1.map (·.destroy))) (w.getFreshPackets n).2 w where
  config := rfl
  held := by
    have hnew (bufs : List PacketBuffer) :
        indices ((bufs.reverse.map (BufferedPacket.new w.config.tailroom)).map (·.destroy)) =
          indices bufs := by
      rw [indices, List.map_map, List.map_map]
      exact indices_perm bufs.reverse_perm
    simp only [getFreshPackets, held, hnew]
    rw [show indices w.buffers = _ from congrArg indices (List.take_append_drop _ _).symm,
      indices_append]
    abel
  incoming := rfl
  notified := rfl
  posts := rfl
  outstanding := rfl

theorem absorbs_processFilled {α : Type} {io : Except ErrorKind (List α)}
    {process : FastpathWorker → BufferedPacket → α → Option FastpathWorker}
    (hprocess : ∀ w pkt a w', process w pkt a = some w' → Absorbs {pkt.buf.index} w w')
    (h : w.processFilled io process = some w') : Absorbs 0 w w' := by
  have hfresh := absorbs_getFreshPackets w w.config.batchSize
  unfold processFilled at h
  generalize w.getFreshPackets w.config.batchSize = fresh at h hfresh
  obtain ⟨packets, w₁⟩ := fresh
  dsimp only at h hfresh
  split at h
  · cases h
  next results _ =>
  split at h
  · cases h
  next hlen =>
  refine hfresh.cancel ?_
  have hback := absorbs_extendBuffers w₁ ((packets.drop results.length).reverse.map (·.destroy))
  have hloop : Absorbs (indices (((packets.take results.length).zip results).map
      (BufferedPacket.destroy ∘ Prod.fst))) _ w' :=
    .foldlM (fun w item w' h => hprocess w item.1 item.2 w' h) h
  rw [← List.map_map, List.map_fst_zip (by rw [List.length_take]; exact min_le_left _ _)] at hloop
  have hall := hback.trans hloop
  rw [List.map_reverse, indices_perm (List.reverse_perm _), add_comm, ← indices_append,
    ← List.map_append, List.take_append_drop] at hall
  exact hall

theorem absorbs_receiveFrom {result : Except ErrorKind (ReceivedPacket Codec)}
    (h : w.receiveFrom cipher a2a pkt result = some w') : Absorbs {pkt.buf.index} w w' := by
  unfold receiveFrom at h
  split at h
  · split at h
    · exact absorbs_dropAndCount h rfl
    split at h
    · exact .of_increment (absorbs_substrateIngress h rfl)
    · cases h
  case h_5 => cases h
  all_goals
    cases h
    exact absorbs_extendBuffers w [pkt.destroy]

theorem absorbs_readTun {result : Except ErrorKind (TunRead Codec)}
    (h : w.readTun cipher a2a pkt result = some w') : Absorbs {pkt.buf.index} w w' := by
  unfold readTun at h
  split at h
  · dsimp only at h
    split at h
    all_goals
      split at h
      · cases h
      split at h
      · exact absorbs_dropAndCount h rfl
      · exact .of_increment (absorbs_actorOutput h rfl)
  case h_4 => cases h
  all_goals
    cases h
    exact absorbs_extendBuffers w [pkt.destroy]

/-- A buffer is popped for each packet of the queue, and goes back if the queue is empty. -/
theorem absorbs_batchProcessPacketQueue
    {process : FastpathWorker → Reads Codec → BufferedPacket → Option FastpathWorker}
    (hprocess : ∀ w r pkt w', process w r pkt = some w' → Absorbs {pkt.buf.index} w w')
    {answers : List (TryRecv Codec)} (h : batchProcessPacketQueue process w answers = some w') :
    Absorbs 0 w w' := by
  induction answers generalizing w with
  | nil =>
    cases h
    exact .refl
  | cons answer answers ih =>
    unfold batchProcessPacketQueue at h
    split at h
    · cases h
      exact .refl
    next buf hlast =>
    have hpop : Absorbs {buf.index} { w with buffers := w.buffers.dropLast } w := by
      refine ⟨rfl, ?_, rfl, rfl, rfl, rfl⟩
      have hbuffers : indices w.buffers = indices w.buffers.dropLast + {buf.index} := by
        rw [← indices_singleton, ← indices_append, List.dropLast_append_getLast? buf hlast]
      rw [held, hbuffers, held]
      abel
    dsimp only at h
    split at h
    · split at h
      · cases h
      · next msg w₁ hmsg =>
        have hpacket : Absorbs {buf.index} { w with buffers := w.buffers.dropLast } w₁ :=
          hprocess _ _ _ _ hmsg
        exact (hpop.cancel hpacket).trans (ih h)
    · cases h
      exact hpop.cancel (absorbs_extendBuffers _ [buf])
    · cases h

/-! ## Output queues -/

theorem writePis_destroy {q : List BufferedPacket} (h : w.writePis = some q) :
    q.map (·.destroy) = w.actorInputQ.map (·.destroy) := by
  unfold writePis at h
  split at h
  · cases h
    rfl
  next framing _ =>
  generalize w.actorInputQ = packets at h
  induction packets generalizing q with
  | nil =>
    cases h
    rfl
  | cons pkt packets ih =>
    rw [List.mapM_cons] at h
    obtain ⟨pkt', hpkt, h⟩ := Option.bind_eq_some_iff.mp h
    obtain ⟨q', hq, h⟩ := Option.bind_eq_some_iff.mp h
    obtain ⟨body, -, rfl⟩ := Option.map_eq_some_iff.mp hpkt
    cases h
    rw [List.map_cons, List.map_cons, ih hq]
    rfl

theorem absorbs_processActorInputQueue (h : w.processActorInputQueue io = some w') :
    Absorbs 0 w w' ∧ w'.actorInputQ = [] ∧ w'.away = w.away := by
  unfold processActorInputQueue at h
  split at h
  · next q results hq _ =>
    split at h
    · cases h
    cases h
    refine ⟨⟨rfl, ?_, rfl, rfl, rfl, rfl⟩, rfl, rfl⟩
    simp only [held, extendBuffers, increaseBy, writePis_destroy hq, indices_append, List.map_nil,
      indices_nil]
    abel
  · cases h

theorem Sweep.visit_perm (h : s.visit results i = some s') :
    s'.queue.toList.Perm s.queue.toList := by
  unfold Sweep.visit at h
  split at h
  case h_4 => cases h
  · cases h
    exact .refl _
  all_goals
    split at h
    · split at h
      · cases h
        exact Array.perm_iff_toList_perm.mp (Array.swap_perm _ _)
      · cases h
        exact .refl _
    · cases h

theorem Sweep.visits_perm (h : is.foldlM (Sweep.visit results) s = some s') :
    s'.queue.toList.Perm s.queue.toList := by
  induction is generalizing s with
  | nil =>
    cases h
    exact .refl _
  | cons i is ih =>
    obtain ⟨s₁, h₁, h⟩ := Option.bind_eq_some_iff.mp h
    exact (ih h).trans (Sweep.visit_perm h₁)

theorem absorbs_processSubstrateEgressQueue (h : w.processSubstrateEgressQueue io = some w') :
    Absorbs 0 w w' := by
  unfold processSubstrateEgressQueue at h
  split at h
  · cases h
  split at h
  · cases h
  next s hsweep =>
  cases h
  refine ⟨rfl, ?_, rfl, rfl, rfl, rfl⟩
  have hqueue := indices_perm ((Sweep.visits_perm hsweep).map (·.pkt.destroy))
  rw [← List.take_append_drop s.retained s.queue.toList, List.map_append, indices_append] at hqueue
  simp only [held, extendBuffers, increaseBy, indices_append, Array.take_eq_extract,
    Array.toList_extract, List.extract_eq_take_drop, Nat.sub_zero, List.drop_zero, ← hqueue]
  abel

/-! ## Runs -/

/-- Every buffer of the worker is in exactly one place, what is not returned is counted, and what can
    be received from the return queue is notified or about to be. -/
structure Conserved (config : FastpathWorkerConfig) (w : FastpathWorker) : Prop where
  configured : w.config = config
  held : w.held = Multiset.range config.bufferCount
  outstanding : w.returnQ.outstanding = w.away.length + w.returnQ.incoming.length
  woken : w.returnQ.incoming ≠ [] → w.returnQ.notified = true ∨ 0 < w.posts

variable {config : FastpathWorkerConfig} {metadata : PacketMetadata}

section

variable (hw : w.Conserved config)

include hw

theorem Conserved.of_absorbs (h : Absorbs 0 w w') : w'.Conserved config where
  configured := h.config.trans hw.configured
  held := by rw [h.held, add_zero, hw.held]
  outstanding := by
    have := h.outstanding
    have := hw.outstanding
    rw [h.incoming]
    omega
  woken := by
    rw [h.incoming, h.notified, h.posts]
    exact hw.woken

theorem Conserved.tryRecvManyReturns (limit : Nat) :
    (w.tryRecvManyReturns limit).Conserved config := by
  unfold FastpathWorker.tryRecvManyReturns
  split
  · exact hw
  dsimp only
  split
  · next hempty =>
    exact ⟨hw.configured, hw.held, hw.outstanding,
      fun hne => absurd (List.length_eq_zero_iff.mp hempty) hne⟩
  refine ⟨hw.configured, ?_, ?_, fun hne => .inl ?_⟩
  · rw [← hw.held]
    simp only [FastpathWorker.held, extendBuffers, indices_append]
    rw [show indices w.returnQ.incoming = _ from
      congrArg indices (List.take_append_drop (min limit w.returnQ.incoming.length) _).symm,
      indices_append]
    abel
  · simp only [extendBuffers, List.length_drop]
    have := hw.outstanding
    omega
  · simpa [extendBuffers] using hne

theorem Conserved.giveBack (h : w.giveBack i metadata = some w') : w'.Conserved config := by
  unfold FastpathWorker.giveBack at h
  split at h
  · cases h
  next buf hbuf =>
  cases h
  obtain ⟨hi, rfl⟩ := List.getElem?_eq_some_iff.mp hbuf
  refine ⟨hw.configured, ?_, ?_, fun _ => .inr (Nat.succ_pos _)⟩
  · have haway : indices w.away = {w.away[i].index} + indices (w.away.eraseIdx i) := by
      exact indices_perm (List.getElem_cons_eraseIdx_perm hi).symm
    rw [← hw.held]
    simp only [FastpathWorker.held, indices_append, indices_singleton, haway]
    abel
  · simp only [List.length_append, List.length_singleton, List.length_eraseIdx_of_lt hi]
    have := hw.outstanding
    omega

theorem Conserved.post (h : w.post = some w') : w'.Conserved config := by
  unfold FastpathWorker.post at h
  split at h
  · cases h
  · cases h
    exact ⟨hw.configured, hw.held, hw.outstanding, fun _ => .inl rfl⟩

theorem Conserved.step {act : FastpathAction Codec} (h : w.step cipher a2a act = some w') :
    w'.Conserved config := by
  cases act with
  | actorInputQueue io => exact hw.of_absorbs (absorbs_processActorInputQueue h).1
  | substrateEgressQueue io => exact hw.of_absorbs (absorbs_processSubstrateEgressQueue h)
  | returns =>
    cases h
    exact hw.tryRecvManyReturns _
  | mgmtSubstrateIn answers =>
    exact hw.of_absorbs (absorbs_batchProcessPacketQueue
      (fun _ _ _ _ h => .of_increment (absorbs_substrateEgress h rfl)) h)
  | requeueIn answers =>
    exact hw.of_absorbs (absorbs_batchProcessPacketQueue
      (fun _ _ _ _ h => .of_increment (absorbs_actorOutputPostClassify h rfl)) h)
  | actorTunIn io =>
    refine hw.of_absorbs (absorbs_processFilled ?_ h)
    exact fun _ _ _ _ => absorbs_readTun
  | substrateSocketIn io =>
    refine hw.of_absorbs (absorbs_processFilled ?_ h)
    exact fun _ _ _ _ => absorbs_receiveFrom
  | aggregate =>
    cases h
    exact ⟨hw.configured, hw.held, hw.outstanding, hw.woken⟩
  | giveBack i metadata => exact hw.giveBack h
  | post => exact hw.post h

end

theorem conserved_of_run
    (hrun : Run (step cipher a2a) (· = new config metadata) (fun _ _ => True) w) :
    w.Conserved config := by
  refine hrun.invariant (P := Conserved config) ?_ fun _ _ _ hw _ h => hw.step h
  rintro _ rfl
  refine ⟨rfl, ?_, rfl, fun hne => absurd rfl hne⟩
  have hnew : indices (new config metadata).buffers = Multiset.range config.bufferCount := by
    simp only [indices, new, List.map_map]
    exact congrArg _ (List.map_id _)
  rw [held, hnew]
  simp only [new, List.map_nil, indices_nil, add_zero]

/-! ## Recovery -/

theorem tryRecvManyReturns_away (w : FastpathWorker) (limit : Nat) :
    (w.tryRecvManyReturns limit).away = w.away := by
  unfold tryRecvManyReturns
  split
  · rfl
  · dsimp only
    split <;> rfl

/-- All that was given back is received, since the limit is the number of all buffers. -/
theorem Conserved.returns (hw : w.Conserved config) (hposts : w.posts = 0) :
    (w.tryRecvManyReturns w.config.bufferCount).returnQ.incoming = [] := by
  have hle : w.returnQ.incoming.length ≤ w.config.bufferCount := by
    have hcard := congrArg Multiset.card hw.held
    simp only [FastpathWorker.held, Multiset.card_add, card_indices, Multiset.card_range] at hcard
    rw [hw.configured]
    omega
  unfold FastpathWorker.tryRecvManyReturns
  split
  · next hquiet =>
    by_contra hne
    rcases hw.woken hne with hnotified | hpending
    · rw [hnotified] at hquiet
      cases hquiet
    · omega
  dsimp only
  split
  · next hempty => exact List.length_eq_zero_iff.mp hempty
  · rw [Nat.min_eq_right hle]
    exact List.drop_length

theorem Sweep.visits_sent (hsent : ∀ result ∈ results, result.isOk)
    (his : ∀ i ∈ is, i < results.length) (h : is.foldlM (Sweep.visit results) s = some s') :
    s' = s := by
  induction is with
  | nil =>
    cases h
    rfl
  | cons i is ih =>
    have hvisit : s.visit results i = some s := by
      have hi := his i List.mem_cons_self
      have hok := hsent results[i] (List.getElem_mem hi)
      unfold Sweep.visit
      rw [List.getElem?_eq_getElem hi]
      cases hresult : results[i] with
      | ok n => rfl
      | error e =>
        rw [hresult] at hok
        cases hok
    rw [List.foldlM_cons, hvisit] at h
    exact ih (fun j hj => his j (List.mem_cons_of_mem i hj)) h

theorem processSubstrateEgressQueue_sent (hsent : ∀ result ∈ results, result.isOk)
    (hlen : w.substrateEgressQ.size ≤ results.length)
    (h : w.processSubstrateEgressQueue (.ok results) = some w') :
    w'.substrateEgressQ = #[] ∧ w'.actorInputQ = w.actorInputQ ∧ w'.away = w.away := by
  unfold processSubstrateEgressQueue at h
  dsimp only [batchResults] at h
  split at h
  · cases h
  next s hsweep =>
  have hs := Sweep.visits_sent hsent
    (fun i hi => (List.mem_range.mp hi).trans_le hlen) hsweep
  subst hs
  cases h
  exact ⟨by simp [extendBuffers, increaseBy], rfl, rfl⟩

/-- In every run, the buffers in the stack, in the two output queues and on their way through the
    two-way queues are all the buffers there are, and none is in two places. Once the other tasks
    have given back what they were sent, a pass in which the socket takes what is queued leaves all
    the buffers in the stack. -/
theorem buffers_conserved {metadata : PacketMetadata}
    (hrun : Run (step cipher a2a) (· = new config metadata) (fun _ _ => True) w) :
    w.buffers.length + w.actorInputQ.length + w.substrateEgressQ.size + w.returnQ.outstanding =
      config.bufferCount ∧
    w.held.Nodup ∧
    (w.away = [] → w.posts = 0 → ∀ io results w₁ w₂ w₃,
      w.step cipher a2a .returns = some w₁ → w₁.step cipher a2a (.actorInputQueue io) = some w₂ →
      w₂.step cipher a2a (.substrateEgressQueue (.ok results)) = some w₃ →
      (∀ result ∈ results, result.isOk) → w₂.substrateEgressQ.size ≤ results.length →
      w₃.buffers.length = config.bufferCount) := by
  have hw := conserved_of_run hrun
  refine ⟨?_, ?_, fun haway hposts io results w₁ w₂ w₃ h₁ h₂ h₃ hsent hlen => ?_⟩
  · have hcard := congrArg Multiset.card hw.held
    simp only [held, Multiset.card_add, card_indices, List.length_map, Array.length_toList,
      Multiset.card_range] at hcard
    rw [hw.outstanding]
    omega
  · rw [hw.held]
    exact Multiset.nodup_range _
  · cases h₁
    have hw₁ := hw.tryRecvManyReturns w.config.bufferCount
    have hincoming := hw.returns hposts
    have haway₁ := (tryRecvManyReturns_away w w.config.bufferCount).trans haway
    obtain ⟨habs₂, hinput₂, haway₂⟩ := absorbs_processActorInputQueue h₂
    have h₃ : w₂.processSubstrateEgressQueue (.ok results) = some w₃ := h₃
    obtain ⟨hegress₃, hinput₃, haway₃⟩ := processSubstrateEgressQueue_sent hsent hlen h₃
    have habs₃ := absorbs_processSubstrateEgressQueue h₃
    have hw₃ := (hw₁.of_absorbs habs₂).of_absorbs habs₃
    have hcard := congrArg Multiset.card hw₃.held
    rw [held, hegress₃, hinput₃, hinput₂, haway₃, haway₂, haway₁, habs₃.incoming, habs₂.incoming,
      hincoming] at hcard
    simpa only [List.map_nil, indices_nil, add_zero, card_indices, Multiset.card_range] using hcard

end

end FastpathWorker

def sampleWorker : FastpathWorker :=
  .new ⟨2, 1, 0, .adapter, 200, none⟩ ⟨sampleUdp4Tuple, 0, 0, 0, 0, 0⟩

/-- The adapter is docked, and there is room in all the queues. -/
def sampleReads : Reads Unit where
  lookup := sampleTable
  decrypt := sampleTable
  forward := sampleTable
  egress := sampleTable
  elt := sampleElt sampleTcp6Tuple ⟨sampleTcp6Tc.compressionMode, 7, none, none⟩
  dlt := sampleDlt
  mgmtDispatch := .ok
  adapterManager := .ok
  maxOverhead _ := 0
  encryptTransport _ plain := .ok plain

/-- The actor sends a packet of a flow without a tether, the dock a packet for the actor, and then the
    buffer of the first one is given back. -/
def sampleTraffic : List (FastpathAction Unit) :=
  [.actorTunIn (.ok [.ok ⟨sampleUdp4, sampleReads⟩]),
    .substrateSocketIn (.ok [.ok
      { data := (sampleFromDock (sampleBody [0x50, 0, 0, 0, 64, 0, 0] sampleUdp4)).body
        truncated := false
        source := some sampleNodeAddr
        destination := some sampleSelfAddr
        reads := sampleReads }]),
    .giveBack 0 ⟨sampleUdp4Tuple, 0, 0, 0, 0, 0⟩, .post]

theorem buffers_conserved_traffic :
    ∃ w w₃, Run (FastpathWorker.step sampleCipher sampleA2a) (· = sampleWorker)
        (fun _ _ => True) w ∧
      w.buffers.length = 0 ∧ w.actorInputQ.length = 1 ∧ w.returnQ.outstanding = 1 ∧ w.held.Nodup ∧
      replay (FastpathWorker.step sampleCipher sampleA2a) (fun _ _ => True) w
        [.returns, .actorInputQueue (.ok [.ok 28]), .substrateEgressQueue (.ok [])] = some w₃ ∧
      w₃.buffers.length = 2 := by
  obtain ⟨w, w₁, hrun, h₁, hbuffers, hinput, hegress, haway, hposts, w₂, h₂, hsize, w₃, h₃, -⟩ : ∃ w w₁,
      Run (FastpathWorker.step sampleCipher sampleA2a) (· = sampleWorker) (fun _ _ => True) w ∧
      w.step sampleCipher sampleA2a .returns = some w₁ ∧ w.buffers.length = 0 ∧
      w.actorInputQ.length = 1 ∧ w.substrateEgressQ.size = 0 ∧ w.away = [] ∧ w.posts = 0 ∧
      ∃ w₂, w₁.step sampleCipher sampleA2a (.actorInputQueue (.ok [.ok 28])) = some w₂ ∧
        w₂.substrateEgressQ.size = 0 ∧ ∃ w₃, w₂.step sampleCipher sampleA2a
          (.substrateEgressQueue (.ok [])) = some w₃ ∧ True :=
    Run.reaches_some rfl sampleTraffic (by decide +kernel)
  obtain ⟨hcount, hnodup, hrecover⟩ := FastpathWorker.buffers_conserved hrun
  have hall := hrecover haway hposts (.ok [.ok 28]) [] w₁ w₂ w₃ h₁ h₂ h₃ nofun hsize.le
  refine ⟨w, w₃, hrun, hbuffers, hinput, ?_, hnodup, ?_, hall⟩
  · simp only [hbuffers, hinput, hegress] at hcount
    omega
  · simp only [replay, if_true, h₁, h₂, h₃, Option.bind_some]

end ZprCore.Fastpath
