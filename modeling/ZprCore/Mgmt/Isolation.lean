-- SUMMARY: When a send future only ever reaches the sender of its own ZDP-R session.
import ZprCore.Mgmt.Process

/-!
# Session isolation of send futures

A future reaches its sender through a link id and a generation. The generation counter is
part of the peer state: every restart of the link changes it, but it starts at 0 for every new peer,
so that after a slot is reused the pair may name a sender of another session. This file shows that
futures are confined to their own session in every run in which no operation on a future meets such
a coincidence, and gives a run in which one does.
-/

namespace ZprCore.Mgmt

open Zdpr

variable {Pkt : Type}

/-- Whether an operation calls `peer_state()`. -/
def FutureOp.consults (kind : FutureKind) (packetId : PacketId) (op : FutureOp) : Bool :=
  match op, kind, packetId with
  | .isSent, _, .queued _ => true
  | .enqueue, .ackedOrCanceled, .sent _ => true
  | .tryCancel, .sent, .queued _ => true
  | .requestCancel, _, .queued _ | .requestCancel, _, .sent _ => true
  | .limitRetries _, _, .queued _ | .limitRetries _, _, .sent _ => true
  | .poll _, .sent, .queued _ => true
  | .poll _, .acked, .queued _ | .poll _, .acked, .sent _ | .poll _, .acked, .canceled => true
  | .poll _, .ackedOrCanceled, .queued _ | .poll _, .ackedOrCanceled, .sent _ => true
  | .drop, _, .queued _ | .drop, .ackedOrCanceled, .sent _ => true
  | _, _, _ => false

theorem FutureOp.run_of_not_consults {kind : FutureKind} {packetId : PacketId} {op : FutureOp}
    (h : op.consults kind packetId = false) (s : Sender Pkt) :
    op.run (some s) kind packetId =
      (op.run (none : Option (Sender Pkt)) kind packetId).map fun r => { r with peer := some s } := by
  cases op <;> cases kind <;> cases packetId <;> first | rfl | cases h

namespace Process

variable {p p' : Process Pkt} {i : Nat} {f : Future} {op : FutureOp} {peer : Peer Pkt}
  {link : LinkId}

/-- An operation that consults the peer of a future does not find its generation at a peer that has
    taken the slot since the packet was sent, or after `2^64` further sessions. -/
def GenerationGuards (p : Process Pkt) : ProcessAction Pkt → Prop
  | .future i op =>
    ∀ f ∈ p.futures[i]?.join, ∀ peer ∈ p.peers f.linkId, ∀ n ∈ f.session,
      op.consults f.kind f.packetId = true → n < peer.firstSession ∨ n + 2 ^ 64 ≤ peer.session →
        peer.zdprGeneration ≠ f.generation
  | _ => True

instance : (a : ProcessAction Pkt) → Decidable (p.GenerationGuards a)
  | .future _ _ =>
    decidableForallMem
      (fun _ => decidableForallMem (fun _ => decidableForallMem (fun _ => inferInstance) _) _) _
  | .addPeer _ | .removePeer _ | .resetZdprSession _ | .sendMgmt _ _ | .input _ _ =>
    inferInstanceAs (Decidable True)

/-! ## Sessions and the futures created on them -/

/-- Sessions in the table are distinct and have begun; a future whose session is in the table names
    its slot and generation; and as long as the peer keeps the slot, the generations of the two are
    as many restarts apart. -/
structure SessionInv (p : Process Pkt) : Prop where
  peer_unknown : p.peers linkIdUnknown = none
  peer_begun : ∀ link peer, p.peers link = some peer → peer.session < p.sessions
  peer_unique : ∀ link link' peer peer', p.peers link = some peer → p.peers link' = some peer' →
    peer.session = peer'.session → link = link'
  future_unknown : ∀ f, some f ∈ p.futures → f.session = none → f.linkId = linkIdUnknown
  future_begun : ∀ f, some f ∈ p.futures → ∀ n, f.session = some n → n < p.sessions
  future_names : ∀ f, some f ∈ p.futures → ∀ link peer, p.peers link = some peer →
    some peer.session = f.session → link = f.linkId ∧ peer.zdprGeneration = f.generation
  future_restarts : ∀ f, some f ∈ p.futures → ∀ n, f.session = some n →
    ∀ peer, p.peers f.linkId = some peer → peer.firstSession ≤ n →
      ∃ d, peer.zdprGeneration = f.generation + BitVec.ofNat 64 d ∧ n + d ≤ peer.session ∧
        (d = 0 → n = peer.session)

theorem SessionInv.init : (init : Process Pkt).SessionInv :=
  ⟨rfl, nofun, nofun, nofun, nofun, nofun, nofun⟩

theorem SessionInv.update (h : p.SessionInv) (hsessions : p'.sessions = p.sessions)
    (hpeers : ∀ link peer, p'.peers link = some peer →
      ∃ zdprSend, p.peers link = some { peer with zdprSend })
    (hfutures : ∀ f, some f ∈ p'.futures →
      (∃ kind packetId resolved, some (f.update kind packetId resolved) ∈ p.futures) ∨
      (f.session = none ∧ f.linkId = linkIdUnknown) ∨
      ∃ peer, p.peers f.linkId = some peer ∧ f.session = some peer.session ∧
        f.generation = peer.zdprGeneration) : p'.SessionInv := by
  refine ⟨?_, ?_, ?_, ?_, ?_, ?_, ?_⟩
  · refine Option.eq_none_iff_forall_ne_some.mpr fun peer hpeer => ?_
    obtain ⟨_, hold⟩ := hpeers _ peer hpeer
    cases h.peer_unknown.symm.trans hold
  · intro link peer hpeer
    obtain ⟨_, hold⟩ := hpeers link peer hpeer
    have hbegun := h.peer_begun link _ hold
    rwa [hsessions]
  · intro link link' peer peer' hpeer hpeer' heq
    obtain ⟨_, hold⟩ := hpeers link peer hpeer
    obtain ⟨_, hold'⟩ := hpeers link' peer' hpeer'
    exact h.peer_unique link link' _ _ hold hold' heq
  · intro f hf hnone
    rcases hfutures f hf with ⟨_, _, _, hold⟩ | hnew | ⟨_, -, hs, -⟩
    · exact (h.future_unknown _ hold hnone :)
    · exact hnew.2
    · cases hs.symm.trans hnone
  · intro f hf n hn
    rw [hsessions]
    rcases hfutures f hf with ⟨_, _, _, hold⟩ | hnew | ⟨peer, hpeer, hs, -⟩
    · exact (h.future_begun _ hold n hn :)
    · cases hnew.1.symm.trans hn
    · cases hs.symm.trans hn
      exact h.peer_begun _ peer hpeer
  · intro f hf link peer hpeer heq
    obtain ⟨_, hpeer⟩ := hpeers link peer hpeer
    rcases hfutures f hf with ⟨_, _, _, hold⟩ | hnew | ⟨q, hq, hs, hg⟩
    · exact (h.future_names _ hold link _ hpeer heq :)
    · cases heq.trans hnew.1
    · obtain rfl := h.peer_unique _ _ _ q hpeer hq (Option.some.inj (heq.trans hs))
      cases hpeer.symm.trans hq
      exact ⟨rfl, hg.symm⟩
  · intro f hf n hn peer hpeer hfirst
    obtain ⟨_, hpeer⟩ := hpeers _ peer hpeer
    rcases hfutures f hf with ⟨_, _, _, hold⟩ | hnew | ⟨q, hq, hs, hg⟩
    · exact (h.future_restarts _ hold n hn _ hpeer hfirst :)
    · cases hnew.1.symm.trans hn
    · cases hpeer.symm.trans hq
      cases hs.symm.trans hn
      exact ⟨0, by simp [hg], le_rfl, fun _ => rfl⟩

/-- A new session in a slot: its number is fresh, so no future names it yet. Either the peer is new
    as well, or it was restarted. -/
theorem SessionInv.begin (h : p.SessionInv) (hlink : link ≠ linkIdUnknown)
    (zdprSend : Sender Pkt) {generation : BitVec 64} {first : Nat}
    (hrestart : first < p.sessions → ∃ peer, p.peers link = some peer ∧ peer.firstSession = first ∧
      generation = peer.zdprGeneration + 1) :
    ({ p.setPeer link (some ⟨zdprSend, generation, p.sessions, first⟩) with
       sessions := p.sessions + 1 } : Process Pkt).SessionInv := by
  have hold : ∀ {l : LinkId} {peer : Peer Pkt}, l ≠ link →
      Function.update p.peers link (some ⟨zdprSend, generation, p.sessions, first⟩) l = some peer →
      p.peers l = some peer := by
    intro l peer hl hpeer
    rwa [Function.update_of_ne hl] at hpeer
  have hnew : ∀ {peer : Peer Pkt},
      Function.update p.peers link (some ⟨zdprSend, generation, p.sessions, first⟩) link =
        some peer → peer = ⟨zdprSend, generation, p.sessions, first⟩ := by
    intro peer hpeer
    rw [Function.update_self] at hpeer
    exact (Option.some.inj hpeer).symm
  -- no peer and no future has the number of the new session
  refine ⟨?_, ?_, ?_, h.future_unknown, ?_, ?_, ?_⟩
  · exact (Function.update_of_ne hlink.symm _ _).trans h.peer_unknown
  · intro l peer hpeer
    by_cases hl : l = link
    · subst hl
      rw [hnew hpeer]
      exact Nat.lt_succ_self _
    · exact Nat.lt_succ_of_lt (h.peer_begun l peer (hold hl hpeer))
  · intro l l' peer peer' hpeer hpeer' heq
    by_cases hl : l = link <;> by_cases hl' : l' = link
    · rw [hl, hl']
    · subst hl
      have := h.peer_begun l' peer' (hold hl' hpeer')
      rw [← heq, hnew hpeer] at this
      exact absurd this (lt_irrefl _)
    · subst hl'
      have := h.peer_begun l peer (hold hl hpeer)
      rw [heq, hnew hpeer'] at this
      exact absurd this (lt_irrefl _)
    · exact h.peer_unique l l' peer peer' (hold hl hpeer) (hold hl' hpeer') heq
  · intro f hf n hn
    exact Nat.lt_succ_of_lt (h.future_begun f hf n hn)
  · intro f hf l peer hpeer heq
    by_cases hl : l = link
    · subst hl
      rw [hnew hpeer] at heq
      exact absurd (h.future_begun f hf _ heq.symm) (lt_irrefl _)
    · exact h.future_names f hf l peer (hold hl hpeer) heq
  · intro f hf n hn peer hpeer hfirst
    by_cases hl : f.linkId = link
    · subst hl
      obtain rfl := hnew hpeer
      have hlt := h.future_begun f hf n hn
      obtain ⟨old, hwas, rfl, rfl⟩ := hrestart (lt_of_le_of_lt hfirst hlt)
      -- one more session and one more generation
      obtain ⟨d, hd, hle, -⟩ := h.future_restarts f hf n hn old hwas hfirst
      have := h.peer_begun _ old hwas
      refine ⟨d + 1, ?_, by dsimp only; omega, nofun⟩
      rw [hd, BitVec.ofNat_add, BitVec.add_assoc]
      rfl
    · exact h.future_restarts f hf n hn peer (hold hl hpeer) hfirst

theorem peers_setPeer {zdprSend : Sender Pkt} (hpeer : p.peers link = some peer) (l : LinkId)
    (q : Peer Pkt) (hq : (p.setPeer link (some { peer with zdprSend })).peers l = some q) :
    ∃ zdprSend, p.peers l = some { q with zdprSend } := by
  by_cases hl : l = link
  · subst hl
    simp only [Process.setPeer, Function.update_self] at hq
    cases hq
    exact ⟨_, hpeer⟩
  · simp only [Process.setPeer, Function.update_of_ne hl] at hq
    exact ⟨_, hq⟩

theorem SessionInv.updateSender (h : p.SessionInv)
    {g : Sender Pkt → Option (Sender Pkt)} (hp : p.updateSender link g = some p') :
    p'.SessionInv := by
  unfold Process.updateSender at hp
  split at hp
  · cases hp
    exact h
  · next peer hpeer =>
    obtain ⟨s', -, rfl⟩ := Option.map_eq_some_iff.mp hp
    exact h.update rfl (peers_setPeer hpeer) fun f hf => .inl ⟨_, _, _, hf⟩

theorem SessionInv.sendMgmtHelper (h : p.SessionInv) (link : LinkId) (packet : Pkt) :
    (p.sendMgmtHelper link packet).SessionInv := by
  unfold Process.sendMgmtHelper
  split
  · refine h.update rfl (fun l q hq => ⟨_, hq⟩) ?_
    intro f hf
    rcases List.mem_append.mp hf with hold | hnew
    · exact .inl ⟨_, _, _, hold⟩
    · cases List.mem_singleton.mp hnew
      exact .inr (.inl ⟨rfl, rfl⟩)
  · next peer hpeer =>
    refine h.update rfl (peers_setPeer hpeer) ?_
    intro f hf
    rcases List.mem_append.mp hf with hold | hnew
    · exact .inl ⟨_, _, _, hold⟩
    · cases List.mem_singleton.mp hnew
      exact .inr (.inr ⟨peer, hpeer, rfl, rfl⟩)

theorem SessionInv.futureStep (h : p.SessionInv) (hp : p.futureStep i op = some p') :
    p'.SessionInv := by
  unfold Process.futureStep at hp
  split at hp
  · next f hf =>
    unfold futureStepWith at hp
    split at hp
    · cases hp
    obtain ⟨r, -, rfl⟩ := Option.map_eq_some_iff.mp hp
    have hfutures : ∀ f', some f' ∈ r.after f.update p.futures i →
        ∃ kind packetId resolved, some (f'.update kind packetId resolved) ∈ p.futures := by
      intro f' hf'
      obtain ⟨j, hj⟩ := List.mem_iff_getElem?.mp hf'
      obtain ⟨hi, -⟩ := List.getElem?_eq_some_iff.mp hf
      rcases FutureStep.of_getElem?_after hi hj with ⟨-, hold⟩ | ⟨-, _, _, -, rfl⟩ | ⟨-, _, -, rfl⟩
      · exact ⟨_, _, _, List.mem_of_getElem? hold⟩
      all_goals exact ⟨f.kind, f.packetId, f.resolved, List.mem_of_getElem? hf⟩
    dsimp only
    split
    · next hpeer _ =>
      exact h.update rfl (peers_setPeer (peers_of_peerState hpeer))
        fun f' hf' => .inl (hfutures f' hf')
    · exact h.update rfl (fun l q hq => ⟨_, hq⟩) fun f' hf' => .inl (hfutures f' hf')
  · cases hp

theorem SessionInv.step (h : p.SessionInv) {a : ProcessAction Pkt} (hp : p.step a = some p') :
    p'.SessionInv := by
  cases a with
  | addPeer link =>
    simp only [Process.step] at hp
    split at hp
    · cases hp
    · next hvacant =>
      cases hp
      exact h.begin (fun heq => hvacant (.inl heq)) .new fun hlt => absurd hlt (lt_irrefl _)
  | removePeer link =>
    cases hp
    refine h.update rfl ?_ fun f hf => .inl ⟨_, _, _, hf⟩
    intro l q hq
    by_cases hl : l = link
    · subst hl
      simp only [Process.setPeer, Function.update_self, reduceCtorEq] at hq
    · simp only [Process.setPeer, Function.update_of_ne hl] at hq
      exact ⟨_, hq⟩
  | resetZdprSession link =>
    simp only [Process.step] at hp
    split at hp
    · cases hp
      exact h
    next peer hpeer =>
    cases hp
    refine h.begin ?_ peer.zdprSend.reset fun _ => ⟨peer, hpeer, rfl, rfl⟩
    rintro rfl
    cases h.peer_unknown.symm.trans hpeer
  | sendMgmt link packet =>
    cases hp
    exact h.sendMgmtHelper link packet
  | input link input =>
    simp only [Process.step] at hp
    exact h.updateSender hp
  | future i op => exact h.futureStep hp

/-! ## Isolation -/

theorem generation_of_peerState (h : p.peerState f = some peer) :
    peer.zdprGeneration = f.generation := by
  unfold peerState at h
  rw [peers_of_peerState h] at h
  exact (Option.ite_none_right_eq_some.mp h).1

/-- A peer that was restarted since the packet was sent has another generation. -/
theorem peerState_session (h : p.SessionInv) (hf : p.futures[i]? = some (some f))
    (hok : GenerationGuards p (.future i op)) (hc : op.consults f.kind f.packetId = true)
    (hpeer : p.peerState f = some peer) : some peer.session = f.session := by
  have hmem := List.mem_of_getElem? hf
  have hlink := peers_of_peerState hpeer
  have hgen := generation_of_peerState hpeer
  cases hs : f.session with
  | none =>
    rw [h.future_unknown f hmem hs, h.peer_unknown] at hlink
    cases hlink
  | some n =>
    have hkept : ¬(n < peer.firstSession ∨ n + 2 ^ 64 ≤ peer.session) :=
      fun hlate => hok f (by rw [hf]; rfl) peer hlink n hs hc hlate hgen
    obtain ⟨d, hd, hle, hzero⟩ := h.future_restarts f hmem n hs peer hlink (by omega)
    have hmod : d % 2 ^ 64 = 0 := by
      have heq : BitVec.ofNat 64 d = 0 := by simpa [hgen] using hd
      simpa using congrArg BitVec.toNat heq
    rw [hzero (by omega)]

theorem futureStepWith_of_not_consults (hc : op.consults f.kind f.packetId = false)
    (hpeer : p.peers f.linkId = some peer) :
    p.futureStepWith i f op (some peer) = p.futureStepWith i f op none := by
  have hset : p.setPeer f.linkId (some { peer with zdprSend := peer.zdprSend }) = p := by
    unfold Process.setPeer
    rw [← hpeer, Function.update_eq_self]
  unfold futureStepWith
  simp only [Option.map_some, Option.map_none, FutureOp.run_of_not_consults hc, Option.map_map]
  split
  · rfl
  congr 1
  funext r
  simp only [Function.comp_apply, hset]
  rfl

theorem peers_of_futureStepWith {own : Option (Peer Pkt)}
    (hp : p.futureStepWith i f op own = some p') (hown : own = none ∨ link ≠ f.linkId) :
    p'.peers link = p.peers link := by
  unfold futureStepWith at hp
  split at hp
  · cases hp
  obtain ⟨r, -, rfl⟩ := Option.map_eq_some_iff.mp hp
  dsimp only
  split
  · exact Function.update_of_ne (hown.resolve_left nofun) _ _
  · rfl

/-- In every run that meets the generation guards: an operation on a future whose session is over
    does what it does when the link is gone; no operation changes the sender of another session;
    and as long as the session is not over, the future reaches its sender. -/
theorem session_isolation (h : Run step (· = init) GenerationGuards p)
    (hf : p.futures[i]? = some (some f)) (hok : GenerationGuards p (.future i op)) :
    ((∀ link peer, p.peers link = some peer → some peer.session ≠ f.session) →
      p.step (.future i op) = p.futureStepWith i f op none) ∧
    (∀ p', p.step (.future i op) = some p' → ∀ link peer, p.peers link = some peer →
      some peer.session ≠ f.session → p'.peers link = some peer) ∧
    (∀ link peer, p.peers link = some peer → some peer.session = f.session →
      p.peerState f = some peer) := by
  have hinv : p.SessionInv := by
    refine Run.invariant (P := SessionInv) ?_ (fun _ _ _ hs _ hstep => hs.step hstep) h
    rintro _ rfl
    exact SessionInv.init
  have hstep : p.step (.future i op) = p.futureStepWith i f op (p.peerState f) := by
    simp only [Process.step, futureStep, hf]
  refine ⟨?_, ?_, ?_⟩
  · intro hover
    rw [hstep]
    cases hpeer : p.peerState f with
    | none => rfl
    | some peer =>
      have hne := hover f.linkId peer (peers_of_peerState hpeer)
      apply futureStepWith_of_not_consults _ (peers_of_peerState hpeer)
      cases hc : op.consults f.kind f.packetId with
      | false => rfl
      | true => exact absurd (peerState_session hinv hf hok hc hpeer) hne
  · intro p' hp' link peer hpeer hne
    rw [hstep] at hp'
    refine Eq.trans ?_ hpeer
    cases hown : p.peerState f with
    | none =>
      rw [hown] at hp'
      exact peers_of_futureStepWith hp' (.inl rfl)
    | some own =>
      rw [hown] at hp'
      cases hc : op.consults f.kind f.packetId with
      | false =>
        rw [futureStepWith_of_not_consults hc (peers_of_peerState hown)] at hp'
        exact peers_of_futureStepWith hp' (.inl rfl)
      | true =>
        refine peers_of_futureStepWith hp' (.inr ?_)
        rintro rfl
        cases (peers_of_peerState hown).symm.trans hpeer
        exact hne (peerState_session hinv hf hok hc hown)
  · intro link peer hpeer hsame
    obtain ⟨rfl, hgen⟩ := hinv.future_names f (List.mem_of_getElem? hf) link peer hpeer hsame
    unfold peerState
    simp only [hpeer, hgen, if_true]

/-- A packet is sent on link 1, which is then dropped; another peer takes the slot, and starts
    as often as the first one did. -/
def slotReuse (starts : Nat) : List (ProcessAction Nat) :=
  [.addPeer 1, .resetZdprSession 1, .sendMgmt 1 7, .removePeer 1, .addPeer 1] ++
    List.replicate starts (.resetZdprSession 1) ++ [.sendMgmt 1 8]

/-- A second peer of a slot that has started more often is left alone. -/
theorem session_isolation_slotReuse :
    ∃ (p p' : Process Nat) (f : Future) (peer : Peer Nat),
      p.futures[0]? = some (some f) ∧ p.peers 1 = some peer ∧ f.session = some 1 ∧
      peer.session = 4 ∧ p.step (.future 0 .requestCancel) = some p' ∧ p'.peers 1 = some peer := by
  obtain ⟨p, p', hrun, hp', hok, f, hf, hfs, peer, hpeer, hps⟩ : ∃ p p', Run step
      (· = (init : Process Nat)) GenerationGuards p ∧ p.step (.future 0 .requestCancel) = some p' ∧
      p.GenerationGuards (.future 0 .requestCancel) ∧ ∃ f, p.futures[0]?.join = some f ∧
      f.session = some 1 ∧ ∃ peer, p.peers 1 = some peer ∧ peer.session = 4 :=
    Run.reaches_some rfl (slotReuse 2) (by decide +kernel)
  have hf' : p.futures[0]? = some (some f) := Option.join_eq_some_iff.mp hf
  have hiso := session_isolation hrun hf' hok
  exact ⟨p, p', f, peer, hf', hpeer, hfs, hps, hp',
    hiso.2.1 p' hp' 1 peer hpeer (by rw [hfs, hps]; decide)⟩

/-- With as many starts, the future of the dropped peer cancels a packet of the other one. -/
theorem stale_future_cancels_other_session :
    ∃ (p p' : Process Nat) (f : Future) (peer peer' : Peer Nat),
      Run step (· = init) (fun _ _ => True) p ∧ p.futures[0]? = some (some f) ∧
      p.peers 1 = some peer ∧ f.session = some 1 ∧ peer.session = 3 ∧
      p.step (.future 0 .requestCancel) = some p' ∧ p'.peers 1 = some peer' ∧
      peer.zdprSend.unacked = [.unacked 8 .noop none 0 false] ∧
      peer'.zdprSend.unacked = [.cancelRequested .noop false] := by
  obtain ⟨p, p', hrun, hp', f, hf, hfs, peer, hpeer, hps, hu, peer', hpeer', hu'⟩ : ∃ p p',
      Run step (· = (init : Process Nat)) (fun _ _ => True) p ∧
      p.step (.future 0 .requestCancel) = some p' ∧ ∃ f, p.futures[0]?.join = some f ∧
      f.session = some 1 ∧ ∃ peer, p.peers 1 = some peer ∧ peer.session = 3 ∧
      peer.zdprSend.unacked = [.unacked 8 .noop none 0 false] ∧ ∃ peer', p'.peers 1 = some peer' ∧
      peer'.zdprSend.unacked = [.cancelRequested .noop false] :=
    Run.reaches_some rfl (slotReuse 1) (by decide +kernel)
  exact ⟨p, p', f, peer, peer', hrun, Option.join_eq_some_iff.mp hf, hpeer, hfs, hps, hp', hpeer',
    hu, hu'⟩

end Process

end ZprCore.Mgmt
