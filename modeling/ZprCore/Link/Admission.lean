-- SUMMARY: A node admits an adapter only on the visa service's answer.
import ZprCore.Link.Calm
import ZprCore.Link.Moves

/-!
# Admission of adapters

A node's link to an adapter becomes active when the visa service has authorized it, on the
strength of blobs that the adapter sent on the link and whose challenges verify under the key of
the link. The answer comes to whatever link is found under the id of the link that asked. So it
admits the right link as long as no answer arrives for a link whose place was taken by another
one that is itself waiting for an answer, and as long as no acquire request left in the queue of
a former link satisfies its successor.
-/

namespace ZprCore.Link

open Node

variable {prim : Primitives} {cfg : Config} {blob : String} {uid : Nat} {w : Work} {n : Node}
  {id : LinkId} {p : PeerState}

/-! ## Approval -/

/-- The request was built from blobs that came in an acquire request on the link `uid`, with
    challenges that were hashed under `key`. -/
structure Supported (prim : Primitives) (cfg : Config) (received : List (Nat × Incoming))
    (uid : Nat) (key : AuthKey) (request : ConnectRequest) (evidence : Evidence) : Prop where
  received : ∃ addrs, (uid, Incoming.acquireZprAddress addrs evidence.blob) ∈ received
  decoded : decodeBlobs prim evidence.blob = .ok evidence.blobs
  verified : ∀ blob ∈ evidence.blobs, blob.Verified prim key
  built : ∃ addr a2aDhPublicKey, request =
    buildConnectRequestFromParts prim addr evidence.blobs a2aDhPublicKey cfg.localDockAddr

/-- The visa service gave the address in answer to a request of the link `uid`. -/
def Approved (prim : Primitives) (cfg : Config) (n : Node) (uid : Nat) (key : AuthKey)
    (addr : IpAddr) : Prop :=
  ∃ answer ∈ n.answers, answer.owner = uid ∧ answer.origin = uid ∧ answer.addr = addr ∧
    Supported prim cfg n.received uid key answer.request answer.evidence

/-- All blobs of an acquire request verify under `key`. -/
def verifies (prim : Primitives) (blob : String) (key : AuthKey) : Bool :=
  match decodeBlobs prim blob with
  | .ok blobs => blobs.all fun blob => decide (blob.Verified prim key)
  | .error _ => false

/-- An answer of the visa service, or an acquire request, is about to admit the link `p`, which
    it was not meant for. -/
def misleads (prim : Primitives) (n : Node) (a : Activity) (outcome : Outcome)
    (p : PeerState) : Bool :=
  p.uid != a.owner && p.linkType == .nodeToAdapter &&
    match a.work, outcome with
    | .authorize _ _, .authorized (.v6 _) _ => p.fsm.state == .registerAA
    | .message (.acquireZprAddress _ blob), .due =>
      p.fsm.state == .waitForAcquireZprAddress && n.vsPeer != some a.linkId &&
        verifies prim blob p.authKey
    | _, _ => false

def admitsOther (prim : Primitives) (n : Node) : NodeAction → Bool
  | .run i outcome _ =>
    n.activities[i]?.any fun a => (n.peers a.linkId).any (misleads prim n a outcome)
  | _ => false

/-! ## The invariant -/

/-- A request that the visa service has not answered yet. -/
structure Pending (prim : Primitives) (cfg : Config) (peers : LinkId → Option PeerState)
    (nextUid : Nat) (received : List (Nat × Incoming)) (a : Activity) (request : ConnectRequest)
    (evidence : Evidence) : Prop where
  origin : a.origin = a.owner
  known : a.owner < nextUid
  key : ∀ {id p}, peers id = some p → p.uid = a.owner → p.authKey = evidence.key
  supported : Supported prim cfg received a.owner evidence.key request evidence

structure Admitted (prim : Primitives) (cfg : Config) (n : Node) : Prop where
  ids : ∀ {id p}, n.peers id = some p → p.id = id
  messages : ∀ a ∈ n.activities, ∀ msg, a.work = .message msg → (a.owner, msg) ∈ n.received
  requests : ∀ a ∈ n.activities, ∀ request evidence, a.work = .authorize request evidence →
    Pending prim cfg n.peers n.nextUid n.received a request evidence
  approved : ∀ {id p}, n.peers id = some p → p.linkType = .nodeToAdapter →
    n.vsPeer ≠ some id → p.fsm.state = .active → ∀ addr ∈ p.fsm.actorAddresses,
    Approved prim cfg n p.uid p.authKey addr

theorem Work.ne_of_isCalm (hw : w.isCalm) :
    (∀ msg, w ≠ .message msg) ∧ ∀ request evidence, w ≠ .authorize request evidence := by
  constructor
  · rintro msg rfl
    cases hw
  · rintro request evidence rfl
    cases hw

theorem Work.isCalm_of_isLoose (hw : w.isLoose = true) : w.isCalm := by
  cases w with
  | message | authorize => cases hw
  | _ => rfl

theorem Approved.mono {n n' : Node} {key : AuthKey} {addr : IpAddr}
    (h : Approved prim cfg n uid key addr) (ha : n.answers ⊆ n'.answers)
    (hr : n.received ⊆ n'.received) : Approved prim cfg n' uid key addr := by
  obtain ⟨answer, hmem, ho, horig, haddr, hs⟩ := h
  obtain ⟨addrs, hrec⟩ := hs.received
  exact ⟨answer, ha hmem, ho, horig, haddr, ⟨addrs, hr hrec⟩, hs.decoded, hs.verified, hs.built⟩

namespace Admitted

variable {p' : PeerState} {h₁ h : Handling}

/-! ## Changes of the node -/

section

variable (inv : Admitted prim cfg n)

include inv

theorem withActivities {as : List Activity} (has : ∀ a ∈ as, a ∈ n.activities ∨ a.work.isCalm) :
    Admitted prim cfg { n with activities := as } := by
  refine ⟨inv.ids, fun a ha msg hw => ?_, fun a ha request evidence hw => ?_, inv.approved⟩
  · rcases has a ha with hmem | hcalm
    · exact inv.messages a hmem msg hw
    · exact absurd hw ((Work.ne_of_isCalm hcalm).1 msg)
  · rcases has a ha with hmem | hcalm
    · exact inv.requests a hmem request evidence hw
    · exact absurd hw ((Work.ne_of_isCalm hcalm).2 request evidence)

theorem concat {a : Activity} (ha : a.work.isCalm) :
    Admitted prim cfg { n with activities := n.activities ++ [a] } := by
  refine inv.withActivities fun b hb => ?_
  rcases List.mem_append.mp hb with hb | hb
  · exact .inl hb
  · exact .inr (List.mem_singleton.mp hb ▸ ha)

theorem abort (uid : Nat) (kind : Work → Bool) : Admitted prim cfg (n.abort uid kind) :=
  inv.withActivities fun _ hb => .inl (List.mem_of_mem_filter hb)

/-- A link is replaced by a later version of itself, active only where it is approved. -/
theorem setPeer (hp : n.peers id = some p) (same : SameLink p p')
    (happ : p'.linkType = .nodeToAdapter → n.vsPeer ≠ some id → p'.fsm.state = .active →
      ∀ addr ∈ p'.fsm.actorAddresses, Approved prim cfg n p'.uid p'.authKey addr) :
    Admitted prim cfg (n.setPeer id (some p')) := by
  refine ⟨fun hq => ?_, inv.messages, fun a ha request evidence hw => ?_, fun hq hty hvs hact => ?_⟩
  · rcases setPeer_back hq with ⟨-, hq⟩ | ⟨rfl, rfl⟩
    · exact inv.ids hq
    · exact same.id.trans (inv.ids hp)
  · have pending := inv.requests a ha request evidence hw
    refine ⟨pending.origin, pending.known, fun hq huid => ?_, pending.supported⟩
    rcases setPeer_back hq with ⟨-, hq⟩ | ⟨rfl, rfl⟩
    · exact pending.key hq huid
    · exact same.authKey.trans (pending.key hp (same.uid.symm.trans huid))
  · rcases setPeer_back hq with ⟨-, hq⟩ | ⟨rfl, rfl⟩
    · exact inv.approved hq hty hvs hact
    · exact happ hty hvs hact

theorem setPeer_fsm (hp : n.peers id = some p) (same : SameLink p p') (fsm : p'.fsm = p.fsm) :
    Admitted prim cfg (n.setPeer id (some p')) := by
  refine inv.setPeer hp same fun hty hvs hact => ?_
  rw [fsm] at hact ⊢
  rw [same.uid, same.authKey]
  exact inv.approved hp (same.linkType ▸ hty) hvs hact

theorem dropPeer (id : LinkId) : Admitted prim cfg (n.dropPeer id) := by
  have hold : ∀ {id' q}, (n.dropPeer id).peers id' = some q → id' ≠ id ∧ n.peers id' = some q := by
    intro id' q hq
    by_cases hid : id' = id
    · subst hid
      cases (n.setPeer_self id' none).symm.trans hq
    · exact ⟨hid, (n.setPeer_of_ne none hid).symm.trans hq⟩
  refine ⟨fun hq => inv.ids (hold hq).2, inv.messages, fun a ha request evidence hw => ?_,
    fun {id' q} hq hty hvs hact => ?_⟩
  · have pending := inv.requests a ha request evidence hw
    exact ⟨pending.origin, pending.known, fun hq => pending.key (hold hq).2, pending.supported⟩
  obtain ⟨hid, hq⟩ := hold hq
  refine inv.approved hq hty (fun hvs' => hvs ?_) hact
  -- the visa service adapter has another id, so its name is not taken away
  change (if n.vsPeer = some id then none else n.vsPeer) = some id'
  rw [hvs', if_neg (fun h => hid (Option.some.inj h))]

end

/-! ## Handlers -/

theorem applyEffect {origin : Nat} {e : Effect} (inv : Admitted prim cfg n) (he : e.isCalm) :
    Admitted prim cfg (Node.applyEffect id uid origin n e) := by
  cases e with
  | spawn work => exact inv.concat he
  | abortEcho | abortAdapterRenewal => exact inv.abort _ _
  | assignSpecialName =>
    rw [Node.applyEffect]
    split
    · next hvs =>
      exact ⟨inv.ids, inv.messages, inv.requests,
        fun hq hty _ hact => inv.approved hq hty (by rw [hvs]; simp) hact⟩
    · exact inv
  | dropPeer => exact inv.dropPeer id
  | deferVsConnect | setLocalZprAddrs =>
    exact ⟨inv.ids, inv.messages, inv.requests, inv.approved⟩
  | releaseAddress | clearPeerState | clearFlowTables | setCarrier | signalFatalError => exact inv

/-- A handler that is calm from a point on at which the link is approved if it is active. -/
theorem apply_from (inv : Admitted prim cfg n) (hp : n.peers id = some p)
    (same : SameLink p h₁.peer) (he₁ : ∀ e ∈ h₁.effects, e.isCalm)
    (happ : h₁.peer.linkType = .nodeToAdapter → n.vsPeer ≠ some id →
      h₁.peer.fsm.state = .active → ∀ addr ∈ h₁.peer.fsm.actorAddresses,
      Approved prim cfg n h₁.peer.uid h₁.peer.authKey addr)
    (c : Calm h₁ h) (origin : Nat) : Admitted prim cfg (n.apply id origin h) := by
  obtain ⟨es, he, hes⟩ := c.effects
  have inv' : Admitted prim cfg (n.setPeer id (some h.peer)) := by
    refine inv.setPeer hp (same.trans c.same) fun hty hvs hact => ?_
    obtain ⟨hact₁, haddrs⟩ := c.active hty hact
    rw [haddrs, c.same.uid, c.same.authKey]
    exact happ (c.same.linkType ▸ hty) hvs hact₁
  refine List.foldlRecOn (motive := Admitted prim cfg) h.effects _ inv' fun m hm e hmem => ?_
  rw [he] at hmem
  exact hm.applyEffect ((List.mem_append.mp hmem).elim (he₁ e) (hes e))

theorem apply (inv : Admitted prim cfg n) (hp : n.peers id = some p)
    (c : Calm ⟨p, []⟩ h) (origin : Nat) : Admitted prim cfg (n.apply id origin h) :=
  have hnone : ∀ e ∈ (Handling.mk p []).effects, e.isCalm := nofun
  inv.apply_from hp (.refl p) hnone (inv.approved hp) c origin

end Admitted

/-! ## The two handlers that admit a link -/

open Handling in
theorem processAuthorizeResponse_spec (h : Handling) (addr : IpAddr) :
    Calm h (h.processAuthorizeResponse addr).1 ∨
      h.peer.linkType = .nodeToAdapter ∧ h.peer.fsm.state = .registerAA ∧
        ∃ h₁, SameLink h.peer h₁.peer ∧ h₁.effects = h.effects ∧
          h₁.peer.fsm.actorAddresses = [addr] ∧ Calm h₁ (h.processAuthorizeResponse addr).1 := by
  unfold processAuthorizeResponse
  split
  · next hty hstate =>
    refine .inr ⟨hty, hstate, ((h.mapFsm fun m => { m with actorAddresses := [addr] }).send
      (.grantZprAddressRequest .success [addr])).setState .active, ⟨rfl, rfl, rfl, rfl⟩, rfl, rfl,
      ?_⟩
    exact Calm.closed.startKeepAlive (.refl _)
  · exact .inl (.refl h)

theorem Handling.beginAuthorization_effects (cx : Context) (h : Handling)
    (blobs : List AuthBlob) : (h.beginAuthorization cx blobs).effects = h.effects := by
  unfold beginAuthorization
  cases firstOidc blobs with
  | none => rfl
  | some oidcBlob =>
    change (h.stashRenewalIdentity cx oidcBlob).effects = h.effects
    unfold stashRenewalIdentity
    split <;> rfl

theorem verifiedBlobs_spec {cx : Context} {peer : PeerState} {blobs : List AuthBlob}
    (h : Handling.verifiedBlobs cx peer blob = some blobs) :
    decodeBlobs cx.prim blob = .ok blobs ∧ ∀ b ∈ blobs, b.Verified cx.prim peer.authKey := by
  unfold Handling.verifiedBlobs at h
  split at h
  · cases h
  next blobs' hdec =>
  split at h
  · next hall =>
    cases h
    refine ⟨hdec, fun b hb => ?_⟩
    exact Handling.checkBlob_verified (List.all_eq_true.mp hall b hb)
  · cases h

open Handling in
/-- An acquire request leads to a request of the visa service only on a link that waits for one
    and verified all blobs. The visa service adapter's own link is admitted by the node. -/
theorem processAcquireZprAddressRequest_spec (cx : Context) (h : Handling)
    (addrs : Option (List IpAddr)) (blob : String) :
    Calm h (h.processAcquireZprAddressRequest cx addrs blob).1 ∨
      (cx.vsPeer = some h.peer.id ∧ ∃ h₁, SameLink h.peer h₁.peer ∧
        (∃ es, h₁.effects = h.effects ++ es ∧ ∀ e ∈ es, e.isCalm) ∧
        Calm h₁ (h.processAcquireZprAddressRequest cx addrs blob).1) ∨
      h.peer.linkType = .nodeToAdapter ∧ h.peer.fsm.state = .waitForAcquireZprAddress ∧
        cx.vsPeer ≠ some h.peer.id ∧ ∃ h₁ addr blobs,
          verifiedBlobs cx h.peer blob = some blobs ∧ Calm h h₁ ∧ h₁.effects = h.effects ∧
          (h.processAcquireZprAddressRequest cx addrs blob).1 =
            h₁.spawn (.authorize (buildConnectRequest cx h₁.peer addr blobs)
              ⟨blob, blobs, h₁.peer.authKey⟩) := by
  unfold processAcquireZprAddressRequest
  split
  · next hty hstate =>
    split
    · next addr blobs _ hblobs =>
      have c : Calm h (h.beginAuthorization cx blobs) := Calm.closed.beginAuthorization (.refl h) blobs
      dsimp only
      split
      · next hvs =>
        obtain ⟨h', hh'⟩ : ∃ h', h' = (h.beginAuthorization cx blobs).emit
          (.deferVsConnect addr
            (buildConnectRequest cx (h.beginAuthorization cx blobs).peer addr blobs)) := ⟨_, rfl⟩
        have c' : Calm h h' := hh' ▸ c.emit rfl
        rw [← hh']
        rcases processAuthorizeResponse_spec h' addr with calm | ⟨_, _, h₁, same, heff, _, c₁⟩
        · exact .inl (c'.trans calm)
        · exact .inr (.inl ⟨c.same.id ▸ hvs, h₁, c'.same.trans same, heff ▸ c'.effects, c₁⟩)
      · next hvs =>
        exact .inr (.inr ⟨hty, hstate, c.same.id ▸ hvs, _, addr, blobs, hblobs, c,
          h.beginAuthorization_effects cx blobs, rfl⟩)
    · exact .inl (Calm.closed.initiateClose (.refl h) _)
  · exact .inl (.refl h)

/-! ## Moves -/

/-- All moves but the two events that can admit a link. -/
def Label.isCalm : Label → Bool
  | .event _ e => !e.admits
  | _ => true

theorem Settlement.run_calm (s : Settlement) (h : Handling) : Calm h (s.run h) := by
  cases s with
  | fail reason => exact Calm.renewals.finishRenewalFailure (.refl h) reason
  | submit addr blobs => exact (Calm.refl h).emit rfl
  | giveUp challenge =>
    simp only [Settlement.run]
    split
    · exact .refl h
    · exact Calm.renewals.finishRenewalFailure ((Calm.refl h).mapData _) _
  | renew now authExpires lead =>
    exact (Calm.refl h).mapData fun d => d.setAuthExpires now authExpires lead

namespace Admitted

variable {n' : Node}

section

variable (inv : Admitted prim cfg n)

include inv

theorem addPeer {linkType : LinkType} {key : AuthKey} :
    Admitted prim cfg
      { n.setPeer id (some (PeerState.new id n.nextUid linkType key)) with
        nextUid := n.nextUid + 1 } := by
  refine ⟨fun hq => ?_, inv.messages, fun a ha request evidence hw => ?_, fun hq hty hvs hact => ?_⟩
  · rcases setPeer_back hq with ⟨-, hq⟩ | ⟨rfl, rfl⟩
    · exact inv.ids hq
    · rfl
  · have pending := inv.requests a ha request evidence hw
    refine ⟨pending.origin, Nat.lt_succ_of_lt pending.known, fun hq huid => ?_, pending.supported⟩
    rcases setPeer_back hq with ⟨-, hq⟩ | ⟨-, rfl⟩
    · exact pending.key hq huid
    · exact absurd huid.symm pending.known.ne
  · rcases setPeer_back hq with ⟨-, hq⟩ | ⟨rfl, rfl⟩
    · exact inv.approved hq hty hvs hact
    · rw [PeerState.new, if_neg (by rw [show linkType = .nodeToAdapter from hty]; nofun)] at hact
      cases hact

theorem receive {msg : Incoming} :
    Admitted prim cfg
      { n with
        activities := n.activities ++ [⟨id, uid, uid, .message msg⟩]
        received := n.received ++ [(uid, msg)] } := by
  refine ⟨inv.ids, fun a ha msg' hw => ?_, fun a ha request evidence hw => ?_,
    fun hq hty hvs hact addr haddr => (inv.approved hq hty hvs hact addr haddr).mono
      (List.Subset.refl _) (List.subset_append_left _ _)⟩
  · rcases List.mem_append.mp ha with ha | ha
    · exact List.mem_append_left _ (inv.messages a ha msg' hw)
    · rw [List.mem_singleton.mp ha] at hw ⊢
      cases hw
      exact List.mem_append_right _ (List.mem_singleton_self _)
  · rcases List.mem_append.mp ha with ha | ha
    · have pending := inv.requests a ha request evidence hw
      obtain ⟨addrs, hrec⟩ := pending.supported.received
      exact ⟨pending.origin, pending.known, pending.key, ⟨addrs, List.mem_append_left _ hrec⟩,
        pending.supported.decoded, pending.supported.verified, pending.supported.built⟩
    · rw [List.mem_singleton.mp ha] at hw
      cases hw

theorem note (hs : SameLinks n n') : Admitted prim cfg n' := by
  refine ⟨fun hq => inv.ids (hs.peers ▸ hq), fun a ha => ?_, fun a ha => ?_,
    fun hq hty hvs hact addr haddr => ?_⟩
  · exact hs.received ▸ inv.messages a (hs.activities ▸ ha)
  · rw [hs.peers, hs.nextUid, hs.received]
    exact inv.requests a (hs.activities ▸ ha)
  · exact (inv.approved (hs.peers ▸ hq) hty (hs.vsPeer ▸ hvs) hact addr haddr).mono hs.answers
      (hs.received ▸ List.Subset.refl _)

theorem move {l : Label} (hl : l.isCalm) (hm : Move prim cfg l n n') : Admitted prim cfg n' := by
  cases hm with
  | event io origin e hp =>
    have he : e.admits = false := by simpa [Label.isCalm] using hl
    exact inv.apply hp (calm_processEvent _ he) origin
  | reset io hp => exact inv.apply hp (Calm.closed.reset (.refl _)) _
  | renewNow io hp => exact inv.apply hp (Calm.renewals.requestRenewalNow (.refl _)) _
  | settle s hp => exact inv.apply hp (s.run_calm _) _
  | edit hp he => exact inv.setPeer_fsm hp he.same he.fsm
  | expires now authExpires lead hp => exact inv.setPeer_fsm hp ⟨rfl, rfl, rfl, rfl⟩ rfl
  | stopKm hp => exact inv.abort _ _
  | create linkType key hp => exact inv.addPeer
  | add ha => exact inv.concat (Work.isCalm_of_isLoose ha)
  | receive id uid msg => exact inv.receive
  | note hs => exact inv.note hs

theorem moves {ls : List Label} (hl : ∀ l ∈ ls, l.isCalm) (hm : Moves prim cfg ls n n') :
    Admitted prim cfg n' :=
  hm.invariant (fun hmem inv' hmove => inv'.move (hl _ hmem) hmove) inv

/-! ## The answers of the visa service -/

theorem authorizeResponse {addr : IpAddr}
    (happ : ∀ p, n.peers id = some p → p.linkType = .nodeToAdapter →
      p.fsm.state = .registerAA → Approved prim cfg n p.uid p.authKey addr)
    (io : Io) (origin : Nat) :
    Admitted prim cfg
      (n.processLinkStateEvent prim cfg io origin id (.receivedAuthorizeResponse addr)).1 := by
  unfold processLinkStateEvent
  split
  · exact inv
  next p hp =>
  rcases processAuthorizeResponse_spec ⟨p, []⟩ addr with
    calm | ⟨hty, hstate, h₁, same, heff, haddrs, c⟩
  · exact inv.apply hp calm origin
  refine inv.apply_from hp same (by rw [heff]; nofun) (fun _ _ _ addr' haddr' => ?_) c origin
  rw [haddrs, List.mem_singleton] at haddr'
  rw [haddr', same.uid, same.authKey]
  exact happ p hp hty hstate

end

variable {io : Io} {a : Activity} {outcome : Outcome} {addrs : Option (List IpAddr)}
  {request : ConnectRequest} {evidence : Evidence} {authExpires i : Nat}

theorem authorizeConnect {bits : BitVec 128} (inv : Admitted prim cfg n)
    (hw : a.work = .authorize request evidence)
    (pending : Pending prim cfg n.peers n.nextUid n.received a request evidence)
    (hok : ∀ p, n.peers a.linkId = some p →
      misleads prim n a (.authorized (.v6 bits) authExpires) p = false)
    (h : n.authorizeConnect prim cfg io a request evidence (.authorized (.v6 bits) authExpires) =
      some n') : Admitted prim cfg n' := by
  unfold Node.authorizeConnect raise at h
  dsimp only at h
  split at h
  · cases h
  cases h
  have hnote : SameLinks n { n with answers := n.answers ++
      [⟨a.owner, a.origin, request, evidence, .v6 bits⟩] } :=
    ⟨rfl, rfl, rfl, rfl, rfl, List.subset_append_left _ _, fun _ ha => ha⟩
  have hrec : Moves prim cfg [.expires a.linkId] _ (recordAuthExpires cfg { n with
      answers := n.answers ++ [⟨a.owner, a.origin, request, evidence, .v6 bits⟩] } io a.linkId
      authExpires) := .recordAuthExpires (by simp)
  refine authorizeResponse ((inv.note hnote).moves (by simp [Label.isCalm]) hrec) ?_ io a.owner
  intro p hp hty hstate
  obtain ⟨p₀, hp₀, rfl⟩ := Option.map_eq_some_iff.mp ((setPeer_self ..).symm.trans hp)
  have huid : p₀.uid = a.owner := by
    by_contra hne
    simp_all [misleads]
  have hsup : Supported prim cfg n.received p₀.uid p₀.authKey request evidence := by
    rw [huid, pending.key hp₀ huid]
    exact pending.supported
  exact ⟨⟨a.owner, a.origin, request, evidence, .v6 bits⟩,
    List.mem_append_right _ (List.mem_singleton_self _), huid.symm,
    pending.origin.trans huid.symm, rfl, hsup⟩

/-! ## Acquire requests -/

section

variable (inv : Admitted prim cfg n) (hs : n.Sound)

include inv hs

theorem addRequest (hp : n.peers id = some p) (hkey : evidence.key = p.authKey)
    (hsup : Supported prim cfg n.received p.uid p.authKey request evidence) :
    Admitted prim cfg { n with
      activities := n.activities ++ [⟨id, p.uid, p.uid, .authorize request evidence⟩] } := by
  refine ⟨inv.ids, fun a ha msg hw => ?_, fun a ha request' evidence' hw => ?_, inv.approved⟩
  · rcases List.mem_append.mp ha with ha | ha
    · exact inv.messages a ha msg hw
    · rw [List.mem_singleton.mp ha] at hw
      cases hw
  rcases List.mem_append.mp ha with ha | ha
  · exact inv.requests a ha request' evidence' hw
  rw [List.mem_singleton.mp ha] at hw ⊢
  cases hw
  refine ⟨rfl, hs.below hp, fun {id' q} hq huid => ?_, hkey ▸ hsup⟩
  -- no other link has this uid
  rw [hs.unique hq hp huid, hp] at hq
  rw [hkey, Option.some.inj hq]

theorem acquireRequest {owner : Nat} (hrec : (owner, .acquireZprAddress addrs blob) ∈ n.received)
    (hown : ∀ p, n.peers id = some p → p.linkType = .nodeToAdapter →
      p.fsm.state = .waitForAcquireZprAddress → n.vsPeer ≠ some id →
      verifies prim blob p.authKey → p.uid = owner)
    (io : Io) :
    Admitted prim cfg (n.processLinkStateEvent prim cfg io owner id
      (.receivedAcquireZprAddressRequest addrs blob)).1 := by
  unfold processLinkStateEvent
  split
  · exact inv
  next p hp =>
  rcases processAcquireZprAddressRequest_spec (n.context prim cfg io) ⟨p, []⟩ addrs blob with
    calm | ⟨hvs, h₁, same, ⟨es, heff, hes⟩, c⟩ |
      ⟨hty, hstate, hvs, h₁, addr, blobs, hblobs, c, heff, heq⟩
  · exact inv.apply hp calm owner
  · have hvs' : n.vsPeer = some id := inv.ids hp ▸ hvs
    exact inv.apply_from hp same (by rw [heff]; exact hes) (fun _ hnvs => absurd hvs' hnvs) c owner
  have hvs' : n.vsPeer ≠ some id := inv.ids hp ▸ hvs
  obtain ⟨hdec, hver⟩ := verifiedBlobs_spec hblobs
  have huid : p.uid = owner := by
    refine hown p hp hty hstate hvs' ?_
    unfold verifies
    rw [show decodeBlobs prim blob = .ok blobs from hdec]
    exact List.all_eq_true.mpr fun b hb => decide_eq_true (hver b hb)
  have hsup : Supported prim cfg n.received p.uid p.authKey
      (Handling.buildConnectRequest (n.context prim cfg io) h₁.peer addr blobs)
      ⟨blob, blobs, h₁.peer.authKey⟩ :=
    ⟨⟨addrs, by rw [huid]; exact hrec⟩, hdec, hver, addr, _, rfl⟩
  have hset := (inv.addRequest hs hp c.same.authKey hsup).setPeer hp c.same
    fun hty hvs hact => by
      obtain ⟨hact₁, haddrs⟩ := c.active hty hact
      rw [show p.fsm.state = _ from hstate] at hact₁
      cases hact₁
  have howner : h₁.peer.uid = p.uid := c.same.uid
  dsimp only [Handling.processEvent]
  rw [heq, apply_spawn n id owner heff, ← huid, howner]
  exact hset

theorem processMessage (hw : a.work = .message (.acquireZprAddress addrs blob))
    (hrec : (a.owner, .acquireZprAddress addrs blob) ∈ n.received)
    (hok : ∀ p, n.peers a.linkId = some p → misleads prim n a .due p = false)
    (h : n.processMessage prim cfg io a (.acquireZprAddress addrs blob) = some n') :
    Admitted prim cfg n' := by
  have hafter : Admitted prim cfg (n.processLinkStateEvent prim cfg io a.owner a.linkId
      (.receivedAcquireZprAddressRequest addrs blob)).1 := by
    refine inv.acquireRequest hs hrec (fun p hp hty hstate hvs hver => ?_) io
    by_contra hne
    simp_all [misleads]
  have hraise {m : Node} (hm : Admitted prim cfg m)
      (h : m.raise prim cfg io a.owner a.linkId .error = some n') : Admitted prim cfg n' :=
    have hmoves : Moves prim cfg [.event a.linkId .error] m n' := .raise (by simp) h
    hm.moves (by simp [Label.isCalm, LinkEvent.admits]) hmoves
  unfold Node.processMessage at h
  split at h
  · exact hraise inv h
  dsimp only [Incoming.event, applyPubkey] at h
  split at h
  · cases h
    exact hafter
  · exact hraise hafter h
  · cases h

end

/-! ## Steps -/

/-- Only an acquire request and an address from the visa service can admit a link. -/
theorem labels_calm (hmsg : ∀ addrs blob, a.work ≠ .message (.acquireZprAddress addrs blob))
    (hreq : ∀ request evidence bits authExpires, a.work = .authorize request evidence →
      outcome ≠ .authorized (.v6 bits) authExpires) :
    ∀ l ∈ a.work.labels prim cfg a.linkId outcome, l.isCalm := by
  cases hw : a.work with
  | message msg =>
    simp only [Work.labels, Incoming.labels]
    split
    · simp [Label.isCalm, LinkEvent.admits]
    · cases msg with
      | acquireZprAddress addrs blob => exact absurd hw (hmsg addrs blob)
      | _ => simp [Incoming.event, Label.isCalm, LinkEvent.admits]
  | authorize request evidence =>
    cases outcome with
    | authorized addr authExpires =>
      cases addr with
      | v4 bits => simp [Work.labels, Label.isCalm, LinkEvent.admits]
      | v6 bits => exact absurd rfl (hreq request evidence bits authExpires hw)
    | refused error =>
      simp only [Work.labels, authorizeFailureEvent]
      split
      · split <;> simp [Label.isCalm, LinkEvent.admits]
      · simp [Label.isCalm, LinkEvent.admits]
    | _ => simp [Work.labels]
  | oidc attemptClock issuer challenge baseBlobs =>
    cases outcome with
    | agentReply reply =>
      simp only [Work.labels, oidcEvent]
      split <;> simp [Label.isCalm, LinkEvent.admits]
    | _ => simp [Work.labels]
  | dropLink dropped => cases dropped <;> simp [Work.labels, Label.isCalm, LinkEvent.admits]
  | _ => simp [Work.labels, Label.isCalm, LinkEvent.admits]

theorem runActivity (inv : Admitted prim cfg n) (hs : n.Sound)
    (hok : admitsOther prim n (.run i outcome io) = false)
    (h : n.runActivity prim cfg io i outcome = some n') : Admitted prim cfg n' := by
  unfold Node.runActivity at h
  split at h
  · cases h
  next a ha =>
  have hmem : a ∈ n.activities := List.mem_of_getElem? ha
  have hok' : ∀ p, n.peers a.linkId = some p → misleads prim n a outcome p = false := by
    intro p hp
    rw [admitsOther, ha, Option.any_some, hp, Option.any_some] at hok
    exact hok
  have inv' : Admitted prim cfg { n with activities := n.activities.eraseIdx i } :=
    inv.withActivities fun _ hb => .inl (List.mem_of_mem_eraseIdx hb)
  split at h
  · cases h
  by_cases hmsg : ∃ addrs blob, a.work = .message (.acquireZprAddress addrs blob)
  · obtain ⟨addrs, blob, hw⟩ := hmsg
    cases outcome with
    | due =>
      simp only [runWork, hw] at h
      exact inv'.processMessage ⟨hs.deferred, hs.below, hs.unique⟩ hw (inv.messages a hmem _ hw) hok' h
    | _ =>
      simp only [runWork, hw] at h
      cases h
  by_cases hreq : ∃ request evidence bits authExpires, a.work = .authorize request evidence ∧
      outcome = .authorized (.v6 bits) authExpires
  · obtain ⟨request, evidence, bits, authExpires, hw, rfl⟩ := hreq
    simp only [runWork, hw] at h
    exact inv'.authorizeConnect hw (inv.requests a hmem _ _ hw) hok' h
  · refine inv'.moves (labels_calm ?_ ?_) (runWork_moves h)
    · exact fun addrs blob hw => hmsg ⟨addrs, blob, hw⟩
    · exact fun request evidence bits authExpires hw ho =>
        hreq ⟨request, evidence, bits, authExpires, hw, ho⟩

theorem runCommand_event {e : LinkEvent} (he : e.admits = true)
    (h : n.runCommand prim cfg io id (.event e) = some n') : n' = n := by
  unfold runCommand at h
  split at h
  · exact (Option.some.inj h).symm
  · cases e with
    | start | close => cases he
    | _ => cases h

theorem step {act : NodeAction} (inv : Admitted prim cfg n) (hs : n.Sound)
    (hok : admitsOther prim n act = false) (h : n.step prim cfg act = some n') :
    Admitted prim cfg n' := by
  have hmoves := step_moves hs.deferred h
  cases act with
  | run i outcome io => exact inv.runActivity hs hok h
  | command id command io =>
    cases command with
    | event e =>
      cases he : e.admits with
      | true => exact runCommand_event he h ▸ inv
      | false => exact inv.moves (by simp [labels, Label.isCalm, he]) hmoves
    | _ => exact inv.moves (by simp [labels, Label.isCalm]) hmoves
  | _ => exact inv.moves (by simp [labels, Label.isCalm, LinkEvent.admits]) hmoves

end Admitted

/-! ## Runs -/

/-- A node's link to an adapter that is active with an address was approved by the visa service
    with that address, on blobs that this very link received and verified. -/
theorem admission_sound {n : Node} (hrun : Run (Node.step prim cfg) (· = init)
      (fun n act => admitsOther prim n act = false) n)
    {id : LinkId} {p : PeerState} (hp : n.peers id = some p) (hty : p.linkType = .nodeToAdapter)
    (hvs : n.vsPeer ≠ some id) (hactive : p.fsm.state = .active) {addr : IpAddr}
    (haddr : addr ∈ p.fsm.actorAddresses) : Approved prim cfg n p.uid p.authKey addr := by
  have inv : n.Sound ∧ Admitted prim cfg n := by
    refine hrun.invariant (P := fun n => n.Sound ∧ Admitted prim cfg n) (fun s hs => ?_)
      fun _ _ _ inv hok hstep => ⟨inv.1.step hstep, inv.2.step inv.1 hok hstep⟩
    subst hs
    exact ⟨.init, nofun, nofun, nofun, nofun⟩
  exact inv.2.approved hp hty hvs hactive addr haddr

/-- A link that asks and gets its answer. -/
theorem admission_sound_firstLink :
    ∃ n p, Run (Node.step samplePrimitives sampleConfig) (· = init)
        (fun n act => admitsOther samplePrimitives n act = false) n ∧
      n.peers 5 = some p ∧ p.fsm.state = .active ∧
      Approved samplePrimitives sampleConfig n p.uid p.authKey (.v6 7) := by
  refine Run.reaches_some_imp (P := fun n p => p.linkType = .nodeToAdapter ∧ n.vsPeer ≠ some 5 ∧
    p.fsm.state = .active ∧ .v6 7 ∈ p.fsm.actorAddresses) rfl
    (sampleHello 1 0 ++ sampleAcquire "1" 0 ++ [.run 3 (.authorized (.v6 7) 100) sampleIo])
    (by decide +kernel) ?_
  rintro n p hrun hp ⟨hty, hvs, hactive, haddr⟩
  exact ⟨hactive, admission_sound hrun hp hty hvs hactive haddr⟩

/-- The link that asked is gone when its answer arrives, and the link that has taken its place
    becomes active with the address of the other. -/
theorem admitted_on_answer_for_other_link :
    ∃ n p, Run (Node.step samplePrimitives sampleConfig) (· = init) (fun _ _ => True) n ∧
      n.peers 5 = some p ∧ p.linkType = .nodeToAdapter ∧ n.vsPeer ≠ some 5 ∧
      p.fsm.state = .active ∧ .v6 7 ∈ p.fsm.actorAddresses ∧
      ¬Approved samplePrimitives sampleConfig n p.uid p.authKey (.v6 7) := by
  refine Run.reaches_some_imp (P := fun n p => p.linkType = .nodeToAdapter ∧ n.vsPeer ≠ some 5 ∧
    p.fsm.state = .active ∧ .v6 7 ∈ p.fsm.actorAddresses ∧ p.uid ∉ n.answers.map (·.owner)) rfl
    (sampleHello 1 0 ++ sampleAcquire "1" 0 ++ sampleTerminate 4 ++ sampleHello 2 4 ++
      sampleAcquire "2" 4 ++ [.run 3 (.authorized (.v6 7) 100) sampleIo]) (by decide +kernel) ?_
  rintro n p - - ⟨hty, hvs, hactive, haddrs, howner⟩
  refine ⟨hty, hvs, hactive, haddrs, ?_⟩
  -- the only answer was for the first link
  rintro ⟨answer, hmem, huid, -⟩
  exact howner (huid ▸ List.mem_map_of_mem hmem)

end ZprCore.Link
