-- SUMMARY: What a step does to the renewal of a link's credentials.
import ZprCore.Link.Calm
import ZprCore.Link.Frame
import ZprCore.Link.Moves

/-!
# Renewal of credentials

The renewal of a link is seen from outside as the mark `renewal_in_flight`, the stashed challenge
and the tasks that carry an attempt on. `Progress` lists what a step can do to these, and
`step_progress` says that every step does one of it. An attempt is under way while its challenge is
stashed or one of its tasks has not ended.
-/

namespace ZprCore.Link

open Node

/-! ## The protocol -/

/-- The mark and the stashed challenge. -/
def LinkData.renewal (d : LinkData) : Bool × Option Challenge := (d.renewalInFlight, d.renewalChallenge)

/-- Tasks that carry on an attempt. -/
def Work.isAttempt : Work → Bool
  | .renewalReply _ _ _ | .reauthorize _ | .reauthorizing _ _ => true
  | _ => false

/-- What a step does to the renewal of a link while the link's task `ended` acts and the tasks
    `started` are started. A response with challenge `c` is accepted if `A` holds of it, and an
    expiry is recorded on the link only if `R` holds. -/
inductive Progress (A : Challenge → List VsBlob → Prop) (R : Prop) :
    Bool × Option Challenge → Bool × Option Challenge → Option Work → List Work → Prop where
  | quiet {v : Bool × Option Challenge} {ended : Option Work}
      (hended : ∀ w ∈ ended, w.isAttempt = false) : Progress A R v v ended []
  | issue {challenge : Option Challenge} (c : Challenge) (timeout : Nat) :
      Progress A R (false, challenge) (true, some c) none [.renewalTimeout c timeout]
  | ask {challenge : Option Challenge} (issuer nonce : String) (timeout : Nat) :
      Progress A R (false, challenge) (true, challenge) none [.renewalReply issuer nonce timeout]
  | refuse {mark : Bool} {c : Challenge} {ended : Option Work}
      (hended : ∀ w ∈ ended, w.isAttempt = false) :
      Progress A R (mark, some c) (false, none) ended []
  | accept {mark : Bool} {c : Challenge} {blobs : List VsBlob} (ha : A c blobs) :
      Progress A R (mark, some c) (mark, none) none [.reauthorize blobs]
  | submit {v : Bool × Option Challenge} {w : Work} {addr : IpAddr} {blobs : List VsBlob}
      (hw : w = .reauthorize blobs ∨ ∃ issuer nonce t, w = .renewalReply issuer nonce t) :
      Progress A R v v (some w) [.reauthorizing addr blobs]
  | settle {mark : Bool} {challenge : Option Challenge} {w : Work} (hw : w.isAttempt = true) :
      Progress A R (mark, challenge) (false, challenge) (some w) []
  | record {mark : Bool} {challenge : Option Challenge} (hr : R) :
      Progress A R (mark, challenge) (false, challenge) none []

variable {A : Challenge → List VsBlob → Prop} {R : Prop} {blobs : List AuthBlob} {c : Challenge}
  {origin : Nat} {e : LinkEvent} {cx : Context} {h : Handling} {a : Activity} {n : Node} {uid : Nat}

/-! ## Responses -/

/-- The blobs answer the outstanding challenge `c` of the link: one blob for each namespace that the
    link has authenticated with, all of them bound to `c`, and the user's from the issuer that the
    link has recorded. -/
structure Renews (prim : Primitives) (p : PeerState) (c : Challenge) (blobs : List AuthBlob) :
    Prop where
  linkType : p.linkType = .nodeToAdapter
  active : p.fsm.state = .active
  outstanding : p.data.renewalChallenge = some c
  namespaces : ∀ ns, blobs.countP (·.namespace == ns) =
    ((p.data.authenticatedNamespaces.getD .userOnly).contains ns).toNat
  verified : ∀ blob ∈ blobs, blob.Verified prim p.authKey
  bound : ∀ blob ∈ blobs, prim.base64Decode blob.challenge = .ok c.toList
  issuer : ∀ oidcBlob, .oidc oidcBlob ∈ blobs →
    p.data.renewalIdentity.map (·.idp.issuer) = some oidcBlob.issuer

theorem countP_namespaces (blobs : List AuthBlob) :
    blobs.countP (·.namespace == .device) + blobs.countP (·.namespace == .user) = blobs.length := by
  have huser : blobs.countP (·.namespace == .user) =
      blobs.countP (fun blob => decide ¬(blob.namespace == .device) = true) := by
    refine List.countP_congr fun blob _ => ?_
    cases blob <;> simp [AuthBlob.namespace]
  rw [huser]
  exact (List.length_eq_countP_add_countP _).symm

theorem countP_eq_contains (h : blobs.length = (blobNamespaces blobs).len) (ns : AuthNamespace) :
    blobs.countP (·.namespace == ns) = ((blobNamespaces blobs).contains ns).toNat := by
  have hsum := countP_namespaces blobs
  have hone : ∀ ns : AuthNamespace, (blobs.any (·.namespace == ns)).toNat ≤
      blobs.countP (·.namespace == ns) := by
    intro ns
    cases hany : blobs.any (·.namespace == ns) with
    | false => exact Nat.zero_le _
    | true => exact List.countP_pos_iff.mpr (List.any_eq_true.mp hany)
  have hd := hone .device
  have hu := hone .user
  simp only [NamespaceSet.len, blobNamespaces] at h
  cases ns with
  | device | user =>
    simp only [NamespaceSet.contains, blobNamespaces]
    omega

theorem mem_of_firstOidc_eq_none (h : firstOidc blobs = none) (oidcBlob : ZdpOidcBlob) :
    .oidc oidcBlob ∉ blobs := fun hmem =>
  nomatch List.findSome?_eq_none_iff.mp h _ hmem

theorem eq_of_firstOidc {first oidcBlob : ZdpOidcBlob}
    (hone : blobs.countP (·.namespace == .user) ≤ 1) (h : firstOidc blobs = some first)
    (hmem : .oidc oidcBlob ∈ blobs) : first = oidcBlob := by
  rw [List.countP_eq_length_filter] at hone
  obtain ⟨blob, hblob, hfirst⟩ := List.exists_of_findSome?_eq_some h
  cases blob with
  | selfSigned ssBlob => cases hfirst
  | oidc b =>
    cases hfirst
    have hfilter {o : ZdpOidcBlob} (ho : .oidc o ∈ blobs) :
        .oidc o ∈ blobs.filter (·.namespace == .user) := List.mem_filter.mpr ⟨ho, rfl⟩
    obtain ⟨x, hx⟩ := List.length_eq_one_iff.mp
      (Nat.le_antisymm hone (List.length_pos_of_mem (hfilter hmem)))
    have heq := (List.mem_singleton.mp (hx ▸ hfilter hblob)).trans
      (List.mem_singleton.mp (hx ▸ hfilter hmem)).symm
    exact AuthBlob.oidc.inj heq

theorem renewalBlobFailure_none {p : PeerState}
    (h : Handling.renewalBlobFailure cx p c blobs = none) :
    ∀ blob ∈ blobs, blob.Verified cx.prim p.authKey ∧
      cx.prim.base64Decode blob.challenge = .ok c.toList := by
  induction blobs with
  | nil => nofun
  | cons blob blobs ih =>
    unfold Handling.renewalBlobFailure at h
    split at h
    · cases h
    next hcheck =>
    split at h
    · cases h
    next hbound =>
    have hver := Handling.checkBlob_verified (not_not.mp hcheck)
    obtain ⟨bytes, -, hdec, -⟩ := hver
    have hbytes : cx.prim.base64Decode blob.challenge = .ok c.toList := by
      rw [not_not, decodedOrEmpty, hdec] at hbound
      rw [hdec, ← hbound]
    rintro blob' (_ | ⟨_, hmem⟩)
    · exact ⟨Handling.checkBlob_verified (not_not.mp hcheck), hbytes⟩
    · exact ih h blob' hmem

theorem Renews.of_renewalRefusal {p : PeerState} (hty : p.linkType = .nodeToAdapter)
    (hst : p.fsm.state = .active) (hc : p.data.renewalChallenge = some c)
    (h : Handling.renewalRefusal cx { p with data := { p.data with renewalChallenge := none } } c
      blobs = none) : Renews cx.prim p c blobs := by
  unfold Handling.renewalRefusal at h
  dsimp only at h
  split at h
  · cases h
  next hlen =>
  split at h
  · cases h
  next hns =>
  split at h
  · cases h
  next hfail =>
  have hcount := countP_eq_contains (not_not.mp hlen)
  have hblobs := renewalBlobFailure_none hfail
  refine ⟨hty, hst, hc, fun ns => ?_, fun b hb => (hblobs b hb).1, fun b hb => (hblobs b hb).2,
    fun oidcBlob hmem => ?_⟩
  · rw [hcount ns, not_not.mp hns]
  split at h
  · next hfirst => exact (mem_of_firstOidc_eq_none hfirst oidcBlob hmem).elim
  next first hfirst =>
  split at h
  · cases h
  next hissuer =>
  have hone := (hcount .user).trans_le (Bool.toNat_le _)
  rw [← eq_of_firstOidc hone hfirst hmem]
  exact not_not.mp hissuer

/-! ## Handlers -/

/-- The renewal tasks that some effects start. -/
def renewalWorks (es : List Effect) : List Work :=
  es.filterMap fun
    | .spawn work => if work.isRenewal then some work else none
    | _ => none

/-- The frame that looks at renewals and nothing else. -/
def renewalFrame : Frame (Bool × Option Challenge) where
  view := LinkData.renewal
  plain
    | .spawn work => !work.isRenewal
    | _ => true

theorem renewalFrame_addressless : renewalFrame.Addressless where
  noted := by
    rintro _ _ ⟨_, _, _, _, _, rfl⟩
    rfl
  effects {e} he := by cases e <;> first | rfl | exact he
  aaaAddress _ _ _ := rfl
  release _ := rfl

theorem renewalWorks_eq_nil {es : List Effect} (h : ∀ e ∈ es, renewalFrame.plain e = true) :
    renewalWorks es = [] := by
  refine List.filterMap_eq_nil_iff.mpr fun e he => ?_
  cases e with
  | spawn work => simpa [renewalFrame] using h _ he
  | _ => rfl

/-- The handler takes the renewal of its link one step on. -/
def Advances (A : Challenge → List VsBlob → Prop) (R : Prop) (h h' : Handling) : Prop :=
  ∃ es, h'.effects = h.effects ++ es ∧
    Progress A R h.peer.data.renewal h'.peer.data.renewal none (renewalWorks es)

namespace Advances

open Handling

variable {h₁ h' : Handling}

theorem of_keeps (k : Keeps renewalFrame h h') : Advances A R h h' := by
  obtain ⟨es, he, hes⟩ := k.effects
  refine ⟨es, he, ?_⟩
  rw [renewalWorks_eq_nil hes, show h'.peer.data.renewal = h.peer.data.renewal from k.view]
  exact .quiet fun _ hw => nomatch hw

theorem trans (k : Keeps renewalFrame h h₁) (a : Advances A R h₁ h') : Advances A R h h' := by
  obtain ⟨es, he, hes⟩ := k.effects
  obtain ⟨es', he', hp⟩ := a
  refine ⟨es ++ es', by rw [he', he, List.append_assoc], ?_⟩
  rw [renewalWorks, List.filterMap_append, ← renewalWorks, ← renewalWorks, renewalWorks_eq_nil hes]
  exact (show h₁.peer.data.renewal = h.peer.data.renewal from k.view) ▸ hp

theorem sendRenewalCredentialRequest {authExpires : Nat} (hf : h.peer.data.renewalInFlight = false) :
    Advances A R h ((h.mapData fun d => { d with renewalInFlight := true }).sendRenewalCredentialRequest
      cx authExpires) := by
  refine ⟨_, rfl, ?_⟩
  rw [LinkData.renewal, hf]
  exact .issue _ _

theorem warnNoAgent : Advances A R h h.warnNoAgent := by
  unfold Handling.warnNoAgent
  split
  · exact of_keeps (.refl h)
  · exact of_keeps (.setPeer (.refl h) rfl)

theorem maybeRenewAuth : Advances A R h (h.maybeRenewAuth cx).1 := by
  unfold Handling.maybeRenewAuth
  dsimp only
  split
  · exact of_keeps (.refl h)
  split
  · exact of_keeps (.refl h)
  next hdue =>
  have hf : h.peer.data.renewalInFlight = false := by simpa using (not_or.mp hdue).2
  split
  · exact warnNoAgent
  split
  · split
    · unfold askAgentForRenewal
      split
      · refine ⟨_, rfl, ?_⟩
        rw [LinkData.renewal, hf]
        exact .ask _ _ _
      · refine of_keeps (.setPeer (.refl h) ?_)
        exact Prod.ext hf.symm rfl
    · exact of_keeps (.refl h)
  split
  · split
    · exact sendRenewalCredentialRequest hf
    · exact of_keeps (.refl h)
  · exact warnNoAgent

theorem processKeepAliveResponse : Advances A R h (h.processKeepAliveResponse cx).1 := by
  unfold Handling.processKeepAliveResponse
  split
  · exact trans ((Keeps.addresses renewalFrame_addressless).setTimeout (h := h.mapFsm _)
      (.setPeer (.refl h) rfl)) maybeRenewAuth
  · exact of_keeps (.refl h)

theorem requestRenewalNow : Advances A R h (h.requestRenewalNow cx).1 := by
  unfold Handling.requestRenewalNow
  split
  · exact of_keeps (.refl h)
  split
  · exact of_keeps (.refl h)
  · next hf => exact sendRenewalCredentialRequest (by simpa using hf)

theorem processRenewAuthResponse {result : Except ResponseCode String}
    (hA : ∀ blobStr blobs, result = .ok blobStr → decodeBlobs cx.prim blobStr = .ok blobs →
      Renews cx.prim h.peer c blobs → A c (vstBlobsForRenewal cx.prim blobs)) :
    Advances A R h (h.processRenewAuthResponse cx c result).1 := by
  unfold Handling.processRenewAuthResponse
  split
  · next hty hst =>
    split
    · exact of_keeps (.refl h)
    next d htake =>
    unfold LinkData.takeRenewalChallengeIf at htake
    split at htake <;> cases htake
    next hc =>
    have hrenewal : h.peer.data.renewal = (h.peer.data.renewalInFlight, some c) := Prod.ext rfl hc
    have hrefuse {reason : AuthFailureReason} : Advances A R h
        ((h.mapData fun d => { d with renewalChallenge := none }).finishRenewalFailure reason) := by
      refine ⟨[], (List.append_nil _).symm, ?_⟩
      rw [hrenewal]
      exact .refuse fun _ hw => nomatch hw
    dsimp only
    split
    · exact hrefuse
    split
    · exact hrefuse
    split
    · exact hrefuse
    next blobs hdecode _ href =>
    refine ⟨_, rfl, ?_⟩
    rw [hrenewal]
    exact .accept (hA _ _ rfl hdecode (.of_renewalRefusal hty hst hc href))
  · exact of_keeps (.refl h)

end Advances

/-- The events whose handlers have to do with the renewal of their link. -/
def LinkEvent.renews : LinkEvent → Bool
  | .receivedKeepAliveResponse | .receivedRenewAuthResponse _ _ => true
  | _ => false

theorem keeps_renewal (he : e.renews = false) : Keeps renewalFrame h (h.processEvent cx e).1 := by
  have C : ClosedAddresses (Keeps renewalFrame h) := Keeps.addresses renewalFrame_addressless
  cases hc : e.isCommon with
  | true => exact (Keeps.closed renewalFrame_addressless.toCommon).processEvent (.refl h) hc
  | false =>
    cases e with
    | receivedHelloRequest => exact C.processHelloRequest (.refl h)
    | assignedAAA addr => exact C.address h.peer.data.oidcIdps (some addr) (.refl h)
    | receivedHelloResponse code aaaAddr oidcIdps =>
      exact C.processHelloResponse (.refl h) code aaaAddr oidcIdps
    | receivedTerminateLink reason =>
      exact C.cleanUpLinkState (h := h.setState .closing) (.setPeer (.refl h) rfl)
    | receivedTerminateAck => exact C.processTerminateAck (.refl h)
    | timeout logicalClock => exact C.processTimeout (.refl h) logicalClock
    | receivedKeepAliveResponse | receivedRenewAuthResponse => cases he
    | _ => cases hc

theorem Advances.processEvent {cx : Context} {h : Handling} {e : LinkEvent}
    (hA : ∀ c blobStr blobs, e = .receivedRenewAuthResponse c (.ok blobStr) →
      decodeBlobs cx.prim blobStr = .ok blobs → Renews cx.prim h.peer c blobs →
      A c (vstBlobsForRenewal cx.prim blobs)) :
    Advances A R h (h.processEvent cx e).1 := by
  cases he : e.renews with
  | false => exact .of_keeps (keeps_renewal he)
  | true =>
    cases e with
    | receivedKeepAliveResponse => exact .processKeepAliveResponse
    | receivedRenewAuthResponse c result =>
      refine .processRenewAuthResponse fun blobStr blobs hresult => ?_
      subst hresult
      exact hA c blobStr blobs rfl
    | _ => cases he

/-! ## Renewal tasks of a node -/

/-- The activity is a renewal task of the link `uid`. -/
def Activity.renews (uid : Nat) (a : Activity) : Bool := a.owner == uid && a.work.isRenewal

/-- The renewal tasks of the link `uid`, in the order in which they were started. -/
def Node.renewals (n : Node) (uid : Nat) : List Work :=
  (n.activities.filter (·.renews uid)).map (·.work)

/-- The renewal task of the link `uid` that acts in a step. -/
def Node.ended (n : Node) (uid : Nat) : NodeAction → Option Work
  | .run i _ _ => (n.activities[i]?).bind fun a => if a.renews uid then some a.work else none
  | _ => none

theorem Activity.renews_kept {uid : Nat} (ha : a.renews uid = true) :
    a.work.isAbortable = false ∧ a.work.isKeyManager = false := by
  rw [Activity.renews, Bool.and_eq_true] at ha
  cases hw : a.work with
  | echo | adapterRenewal | keyManager => simp [hw, Work.isRenewal] at ha
  | _ => exact ⟨rfl, rfl⟩

theorem spawned_renewals (id : LinkId) (uid uid' origin : Nat) (es : List Effect) :
    ((spawned id uid' origin es).filter (·.renews uid)).map (·.work) =
      if uid' = uid then renewalWorks es else [] := by
  induction es with
  | nil => exact (ite_self _).symm
  | cons e es ih =>
    cases e with
    | spawn work =>
      simp only [spawned, renewalWorks, List.filterMap_cons, List.filter_cons, Activity.renews,
        beq_iff_eq, Bool.and_eq_true] at ih ⊢
      by_cases hu : uid' = uid
      · cases hw : work.isRenewal with
        | true | false => simpa [hu, hw] using ih
      · simpa [hu] using ih
    | _ => simpa only [spawned, renewalWorks, List.filterMap_cons] using ih

namespace Node

theorem apply_renewals {id : LinkId} :
    (n.apply id origin h).renewals uid =
      n.renewals uid ++ if h.peer.uid = uid then renewalWorks h.effects else [] := by
  rw [renewals, filter_apply fun a ha => (Activity.renews_kept ha).1, List.map_append,
    spawned_renewals]
  rfl

theorem abort_renewals {uid' : Nat} :
    (n.abort uid' Work.isKeyManager).renewals uid = n.renewals uid := by
  rw [renewals, filter_abort fun a ha => (Activity.renews_kept ha).2]
  rfl

theorem add_renewals (ha : a.work.isRenewal = false) :
    ({ n with activities := n.activities ++ [a] } : Node).renewals uid = n.renewals uid := by
  simp [renewals, Activity.renews, ha]

end Node

theorem Work.isRenewal_of_isLoose {w : Work} (hw : w.isLoose = true) : w.isRenewal = false := by
  cases w with
  | renewalReply | renewalTimeout | reauthorize | reauthorizing => cases hw
  | _ => rfl

/-- A renewal task belongs to a link that has existed, and knows where it is. -/
def Node.Placed (n : Node) : Prop :=
  ∀ a ∈ n.activities, a.work.isRenewal = true → a.owner < n.nextUid ∧
    ∀ id p, n.peers id = some p → p.uid = a.owner → a.linkId = id

section

variable {prim : Primitives} {cfg : Config} {n' : Node} {l : Label} {id : LinkId} {p p' : PeerState}
  {act : NodeAction}

/-- A renewal task was there before a move, or was started by a handler for its own link. -/
theorem Move.renewal_back (hm : Move prim cfg l n n') (ha : a ∈ n'.activities)
    (hw : a.work.isRenewal = true) :
    a ∈ n.activities ∨ ∃ p, n.peers a.linkId = some p ∧ p.uid = a.owner := by
  have hrenews : a.renews a.owner = true := by simp [Activity.renews, hw]
  have hkept : a.work.isAbortable = false := (Activity.renews_kept hrenews).1
  have happly {id : LinkId} {p : PeerState} {origin : Nat} {h : Handling}
      (hp : n.peers id = some p) (hu : h.peer.uid = p.uid)
      (ha : a ∈ (n.apply id origin h).activities) :
      a ∈ n.activities ∨ ∃ p, n.peers a.linkId = some p ∧ p.uid = a.owner := by
    rcases (mem_apply hkept).mp ha with ha | ha
    · exact .inl ha
    · obtain ⟨work, -, rfl⟩ := mem_spawned.mp ha
      exact .inr ⟨p, hp, hu.symm⟩
  cases hm with
  | @event _ _ p io origin e hp => exact happly hp (processEvent_same _ ⟨p, []⟩ e).uid ha
  | @reset _ _ p io hp => exact happly hp (SameLink.closed.reset (h := ⟨p, []⟩) (.refl p)).uid ha
  | @renewNow _ _ p io hp =>
    exact happly hp (Kept.renewals.requestRenewalNow (h := ⟨p, []⟩) (.refl p)).uid ha
  | @settle _ _ p s hp => exact happly hp (s.run_kept ⟨p, []⟩).uid ha
  | stopKm hp => exact .inl (List.mem_of_mem_filter ha)
  | @add _ b hloose =>
    refine (List.mem_append.mp ha).imp id fun ha' => ?_
    cases List.mem_singleton.mp ha'
    rw [Work.isRenewal_of_isLoose hloose] at hw
    cases hw
  | receive =>
    refine (List.mem_append.mp ha).imp id fun ha' => ?_
    cases List.mem_singleton.mp ha'
    cases hw
  | note hs => exact .inl (hs.activities ▸ ha)
  | edit | expires | create => exact .inl ha

namespace Node.Placed

theorem init : Node.init.Placed := nofun

theorem release (hn : n.Placed) (act : NodeAction) : (n.release act).Placed := by
  cases act with
  | run i outcome io => exact fun a ha hw => hn a (List.mem_of_mem_eraseIdx ha) hw
  | _ => exact hn

theorem move (hs : n.Sound) (hn : n.Placed) (hm : Move prim cfg l n n') : n'.Placed := by
  intro a ha hw
  rcases hm.renewal_back ha hw with ha | ⟨p, hp, hu⟩
  · obtain ⟨hlt, hplace⟩ := hn a ha hw
    refine ⟨Nat.lt_of_lt_of_le hlt hm.nextUid_le, fun id q hq hqu => ?_⟩
    rcases hm.peers_back hq with ⟨q₀, hq₀, hsame⟩ | ⟨-, huid, -⟩
    · exact hplace id q₀ hq₀ (hsame.uid.symm.trans hqu)
    · exact absurd (huid.symm.trans hqu) (Nat.ne_of_gt hlt)
  · have hlt := hs.below hp
    refine ⟨hu ▸ Nat.lt_of_lt_of_le hlt hm.nextUid_le, fun id q hq hqu => ?_⟩
    rcases hm.peers_back hq with ⟨q₀, hq₀, hsame⟩ | ⟨-, huid, -⟩
    · exact hs.unique hp hq₀ (hu.trans (hqu.symm.trans hsame.uid))
    · exact absurd (huid.symm.trans (hqu.trans hu.symm)) (Nat.ne_of_gt hlt)

theorem step (hs : n.Sound) (hn : n.Placed) (h : n.step prim cfg act = some n') : n'.Placed :=
  ((step_moves hs.deferred h).invariant (P := fun m => m.Sound ∧ m.Placed)
    (fun _ hm hmove => ⟨hm.1.move hmove, hm.2.move hm.1 hmove⟩) ⟨hs.release act, hn.release act⟩).2

theorem of_run {ok : Node → NodeAction → Prop}
    (h : Run (Node.step prim cfg) (· = Node.init) ok n) : n.Placed := by
  induction h with
  | start h =>
    subst h
    exact init
  | next hrun _ h ih => exact ih.step (.of_run hrun) h

end Node.Placed

/-! ## Moves that leave a renewal alone -/

/-- Moves that may take the renewal of the link under `id` on. -/
def Label.renews (id : LinkId) : Label → Bool
  | .event id' e => e.renews && id' = id
  | .renewNow id' | .settle id' | .expires id' => id' = id
  | _ => false

/-- The link `uid` under `id`, as long as it is there, and its renewal. -/
structure Steady (id : LinkId) (uid : Nat) (v : Bool × Option Challenge) (rs : List Work)
    (n : Node) : Prop where
  below : uid < n.nextUid
  place : ∀ id' q, n.peers id' = some q → q.uid = uid → id' = id
  tasks : n.renewals uid = rs
  view : ∀ q, n.peers id = some q → q.uid = uid → q.data.renewal = v

namespace Steady

variable {v : Bool × Option Challenge} {rs : List Work}

section

variable (hn : Steady id uid v rs n) {id' : LinkId}

include hn

theorem apply (hp : n.peers id' = some p) (hu : h.peer.uid = p.uid)
    (hk : id' = id → Keeps renewalFrame ⟨p, []⟩ h) : Steady id uid v rs (n.apply id' origin h) := by
  refine ⟨apply_nextUid.symm ▸ hn.below, fun id'' q hq hqu => ?_, ?_, fun q hq hqu => ?_⟩
  · rcases apply_back hq with ⟨-, hq⟩ | ⟨rfl, -, rfl⟩
    · exact hn.place id'' q hq hqu
    · exact hn.place _ p hp (hu.symm.trans hqu)
  · rw [Node.apply_renewals, hn.tasks]
    split
    · next huid =>
      obtain ⟨es, he, hes⟩ := (hk (hn.place id' p hp (hu.symm.trans huid))).effects
      rw [he, List.nil_append, renewalWorks_eq_nil hes, List.append_nil]
    · exact List.append_nil rs
  · rcases apply_back hq with ⟨-, hq⟩ | ⟨rfl, -, rfl⟩
    · exact hn.view q hq hqu
    · exact (hk rfl).view.trans (hn.view p hp (hu.symm.trans hqu))

theorem setPeer {q : PeerState} (hp : n.peers id' = some p) (hu : q.uid = p.uid)
    (hd : id' = id → q.data.renewal = p.data.renewal) :
    Steady id uid v rs (n.setPeer id' (some q)) := by
  have hset : Steady id uid v rs (n.apply id' 0 ⟨q, []⟩) :=
    hn.apply hp hu fun hid => ⟨hd hid, [], rfl, fun _ he => nomatch he⟩
  exact hset

theorem move (hl : l.renews id = false) (hm : Move prim cfg l n n') :
    Steady id uid v rs n' := by
  cases hm with
  | @event _ id' q io origin e hp =>
    refine hn.apply hp (processEvent_same _ ⟨q, []⟩ e).uid fun hid => keeps_renewal ?_
    simpa [Label.renews, hid] using hl
  | @reset _ id' q io hp =>
    exact hn.apply hp (SameLink.closed.reset (h := ⟨q, []⟩) (.refl q)).uid fun _ =>
      (Keeps.addresses renewalFrame_addressless).reset (.refl _)
  | @renewNow _ id' q io hp =>
    exact hn.apply hp (Kept.renewals.requestRenewalNow (h := ⟨q, []⟩) (.refl q)).uid fun hid => by
      simp [Label.renews, hid] at hl
  | @settle _ id' q s hp =>
    exact hn.apply hp (s.run_kept ⟨q, []⟩).uid fun hid => by simp [Label.renews, hid] at hl
  | edit hp he =>
    refine hn.setPeer hp he.same.uid fun _ => ?_
    obtain ⟨agent, hdata⟩ := he.data
    rw [hdata]
    rfl
  | expires now authExpires lead hp =>
    exact hn.setPeer hp rfl fun hid => by simp [Label.renews, hid] at hl
  | stopKm hp => exact ⟨hn.below, hn.place, Node.abort_renewals.trans hn.tasks, hn.view⟩
  | @create _ id' linkType key hp =>
    have hback {id'' : LinkId} {q : PeerState}
        (hq : (n.setPeer id' (some (.new id' n.nextUid linkType key))).peers id'' = some q)
        (hqu : q.uid = uid) : n.peers id'' = some q := by
      rcases setPeer_back hq with ⟨-, hq⟩ | ⟨-, rfl⟩
      · exact hq
      · exact absurd hqu (Nat.ne_of_gt hn.below)
    exact ⟨Nat.lt_succ_of_lt hn.below, fun id'' q hq hqu => hn.place id'' q (hback hq hqu) hqu,
      hn.tasks, fun q hq hqu => hn.view q (hback hq hqu) hqu⟩
  | add hloose =>
    exact ⟨hn.below, hn.place,
      (Node.add_renewals (Work.isRenewal_of_isLoose hloose)).trans hn.tasks, hn.view⟩
  | receive => exact ⟨hn.below, hn.place, (Node.add_renewals rfl).trans hn.tasks, hn.view⟩
  | note hs =>
    refine ⟨hs.nextUid.symm ▸ hn.below, fun id' q hq => hn.place id' q (hs.peers ▸ hq), ?_,
      fun q hq => hn.view q (hs.peers ▸ hq)⟩
    rw [Node.renewals, hs.activities]
    exact hn.tasks

theorem moves {ls : List Label}
    (hl : ∀ l ∈ ls, l.renews id = false) (hm : Moves prim cfg ls n n') : Steady id uid v rs n' :=
  hm.invariant (P := Steady id uid v rs) (fun hmem hs hmove => hs.move (hl _ hmem) hmove) hn

end

theorem start (hs : n.Sound) (hp : n.peers id = some p) :
    Steady id p.uid p.data.renewal (n.renewals p.uid) n := by
  refine ⟨hs.below hp, fun id' q hq hqu => hs.unique hq hp hqu, rfl, fun q hq _ => ?_⟩
  cases hq.symm.trans hp
  rfl

theorem of_apply (hs : n.Sound) (hp : n.peers id = some p) (hu : h.peer.uid = p.uid) :
    Steady id p.uid h.peer.data.renewal (n.renewals p.uid ++ renewalWorks h.effects)
      (n.apply id origin h) := by
  refine ⟨apply_nextUid.symm ▸ hs.below hp, fun id' q hq hqu => ?_, ?_, fun q hq _ => ?_⟩
  · rcases apply_back hq with ⟨-, hq⟩ | ⟨rfl, -, -⟩
    · exact hs.unique hq hp hqu
    · rfl
  · rw [Node.apply_renewals, if_pos hu]
  · rcases apply_back hq with ⟨hne, -⟩ | ⟨-, -, rfl⟩
    · exact (hne rfl).elim
    · rfl

end Steady

/-! ## Steps -/

/-- Between `n` and `n'` the renewal of the link `p` under `id` was taken one step on. -/
def Progresses (A : Challenge → List VsBlob → Prop) (R : Prop) (n n' : Node) (id : LinkId)
    (p : PeerState) (ended : Option Work) : Prop :=
  ∃ started v', Steady id p.uid v' (n.renewals p.uid ++ started) n' ∧
    Progress A R p.data.renewal v' ended started

namespace Progresses

variable {ended : Option Work} {ls : List Label} {m : Node} {io : Io} {id' : LinkId}

theorem of_steady (h : Steady id p.uid p.data.renewal (n.renewals p.uid) n') :
    Progresses A R n n' id p none :=
  ⟨[], _, (List.append_nil _).symm ▸ h, .quiet fun _ hw => nomatch hw⟩

theorem quiet (hs : n.Sound) (hp : n.peers id = some p) (hl : ∀ l ∈ ls, l.renews id = false)
    (hm : Moves prim cfg ls n n') : Progresses A R n n' id p none :=
  of_steady ((Steady.start hs hp).moves hl hm)

theorem moves (h : Progresses A R n m id p ended) (hl : ∀ l ∈ ls, l.renews id = false)
    (hm : Moves prim cfg ls m n') : Progresses A R n n' id p ended := by
  obtain ⟨started, v', hsteady, hprog⟩ := h
  exact ⟨started, v', hsteady.moves hl hm, hprog⟩

variable (hs : n.Sound) (hp : n.peers id = some p)

include hs hp

theorem processLinkStateEvent
    (hA : id' = id → ∀ c blobStr blobs, e = .receivedRenewAuthResponse c (.ok blobStr) →
      decodeBlobs prim blobStr = .ok blobs → Renews prim p c blobs →
      A c (vstBlobsForRenewal prim blobs)) :
    Progresses A R n (n.processLinkStateEvent prim cfg io origin id' e).1 id p none := by
  by_cases hid : id' = id
  · subst hid
    rw [Node.processLinkStateEvent, hp]
    obtain ⟨es, he, hprog⟩ := @Advances.processEvent A R (n.context prim cfg io) ⟨p, []⟩ e (hA rfl)
    refine ⟨renewalWorks es, _, ?_, hprog⟩
    rw [← List.nil_append es, ← he]
    exact .of_apply hs hp (processEvent_same _ ⟨p, []⟩ e).uid
  · have hm : Moves prim cfg [.event id' e] n (n.processLinkStateEvent prim cfg io origin id' e).1 :=
      .processLinkStateEvent (List.mem_singleton.mpr rfl)
    refine quiet hs hp (fun l hl => ?_) hm
    cases List.mem_singleton.mp hl
    simp [Label.renews, hid]

theorem raise (hA : ∀ c result, e ≠ .receivedRenewAuthResponse c result)
    (h : n.raise prim cfg io origin id' e = some n') : Progresses A R n n' id p none := by
  unfold Node.raise at h
  dsimp only at h
  split at h
  · cases h
  · cases h
    exact processLinkStateEvent hs hp fun _ c _ _ he => (hA c _ he).elim

theorem recordAuthExpires {authExpires : Nat} (hR : id' = id → R) :
    Progresses A R n (n.recordAuthExpires cfg io id' authExpires) id p none := by
  by_cases hid : id' = id
  · subst hid
    rw [Node.recordAuthExpires, updatePeer, hp]
    let q := { p with data := p.data.setAuthExpires io.now (secs authExpires) cfg.authRenewalLead }
    have hset : Steady id' p.uid q.data.renewal (n.renewals p.uid ++ renewalWorks [])
        (n.apply id' 0 ⟨q, []⟩) := .of_apply (h := ⟨q, []⟩) hs hp rfl
    exact ⟨[], _, hset, .record (hR rfl)⟩
  · refine of_steady ?_
    cases hq : n.peers id' with
    | none =>
      rw [Node.recordAuthExpires, updatePeer_none _ hq]
      exact .start hs hp
    | some q =>
      rw [Node.recordAuthExpires, updatePeer, hq]
      exact (Steady.start hs hp).setPeer hq rfl fun h => (hid h).elim

end Progresses

/-! ## Tasks -/

/-- The ways in which a renewal task can end. -/
inductive Work.SettledBy : Work → Settlement → Prop where
  | fail {w : Work} (hw : w.isAttempt = true) (reason : AuthFailureReason) : SettledBy w (.fail reason)
  | submit {w : Work} {addr : IpAddr} {blobs : List VsBlob}
      (hw : w = .reauthorize blobs ∨ ∃ issuer nonce t, w = .renewalReply issuer nonce t) :
      SettledBy w (.submit addr blobs)
  | giveUp (c : Challenge) (timeout : Nat) (reason : AuthFailureReason) :
      SettledBy (.renewalTimeout c timeout) (.giveUp c reason)
  | renew {addr : IpAddr} {blobs : List VsBlob} (now authExpires lead : Nat) :
      SettledBy (.reauthorizing addr blobs) (.renew now authExpires lead)

theorem Work.SettledBy.progress {w : Work} {s : Settlement} (h : w.SettledBy s) :
    Progress A R p.data.renewal (s.run ⟨p, []⟩).peer.data.renewal (some w)
      (renewalWorks (s.run ⟨p, []⟩).effects) := by
  cases h with
  | fail hw reason => exact .settle hw
  | submit hw => exact .submit hw
  | renew now authExpires lead => exact .settle rfl
  | giveUp c timeout reason =>
    have hended : ∀ w ∈ some (Work.renewalTimeout c timeout), w.isAttempt = false := by
      simp [Work.isAttempt]
    simp only [Settlement.run]
    split
    · exact .quiet hended
    next d hd =>
    unfold LinkData.takeRenewalChallengeIf at hd
    split at hd <;> cases hd
    next hc =>
    have hrenewal : p.data.renewal = (p.data.renewalInFlight, some c) := Prod.ext rfl hc
    rw [hrenewal]
    exact .refuse hended

section

variable {io : Io} {outcome : Outcome} {msg : Incoming}

/-- The task `a` ends, and its link takes note. -/
def Settled (n : Node) (a : Activity) (n' : Node) : Prop :=
  ∃ f : Handling → Handling, n' = n.updateOwner a f ∧ ∀ h, ∃ s, a.work.SettledBy s ∧ f h = s.run h

theorem submitRenewalReauthorize_settled {blobs : List VsBlob}
    (hw : a.work = .reauthorize blobs ∨ ∃ issuer nonce t, a.work = .renewalReply issuer nonce t) :
    Settled n a (n.submitRenewalReauthorize cfg a blobs) := by
  have hattempt : a.work.isAttempt = true := by
    rcases hw with hw | ⟨_, _, _, hw⟩ <;> rw [hw] <;> rfl
  refine ⟨_, rfl, fun h => ?_⟩
  split
  · exact ⟨_, .fail hattempt _, rfl⟩
  · split
    · exact ⟨_, .fail hattempt _, rfl⟩
    · exact ⟨_, .submit hw, rfl⟩

theorem runWork_settled (hw : a.work.isRenewal = true)
    (h : n.runWork prim cfg io a outcome = some n') : Settled n a n' := by
  have hdue (hwait : a.work.waits = false) : outcome = .due := runWork_due hwait h
  obtain ⟨id', owner, origin, work⟩ := a
  cases work with
  | renewalReply issuer nonce timeout =>
    simp only [runWork, handleRenewalReply] at h
    split at h <;> cases h
    · exact submitRenewalReauthorize_settled (.inr ⟨issuer, nonce, timeout, rfl⟩)
    all_goals exact ⟨_, rfl, fun h => ⟨_, .fail rfl _, rfl⟩⟩
  | renewalTimeout c timeout =>
    obtain rfl := hdue rfl
    cases h
    exact ⟨_, rfl, fun h => ⟨_, .giveUp c timeout _, rfl⟩⟩
  | reauthorize blobs =>
    obtain rfl := hdue rfl
    cases h
    exact submitRenewalReauthorize_settled (.inl rfl)
  | reauthorizing addr blobs =>
    simp only [runWork, completeReauthorize] at h
    split at h <;> cases h
    · exact ⟨_, rfl, fun h => ⟨_, .renew _ _ _, rfl⟩⟩
    · exact ⟨_, rfl, fun h => ⟨_, .fail rfl _, rfl⟩⟩
  | _ => cases hw

/-- A renewal task changes nothing but the link that it was started for. -/
theorem Progresses.updateOwner {f : Handling → Handling} (hs : n.Sound) (hp : n.peers id = some p)
    (hplace : a.owner = p.uid → a.linkId = id) (hf : ∀ h, ∃ s, a.work.SettledBy s ∧ f h = s.run h) :
    Progresses A R n (n.updateOwner a f) id p (if a.owner = p.uid then some a.work else none) := by
  by_cases howner : a.owner = p.uid
  · obtain ⟨s, hs', hrun⟩ := hf ⟨p, []⟩
    rw [if_pos howner, Node.updateOwner, hplace howner, hp]
    dsimp only
    rw [if_pos howner.symm, hrun]
    exact ⟨_, _, .of_apply hs hp (s.run_kept ⟨p, []⟩).uid, hs'.progress⟩
  · rw [if_neg howner]
    refine .of_steady ?_
    unfold Node.updateOwner
    split
    · exact .start hs hp
    next q hq =>
    split
    · next hqu =>
      obtain ⟨s, -, hrun⟩ := hf ⟨q, []⟩
      rw [hrun]
      refine (Steady.start hs hp).apply hq (s.run_kept ⟨q, []⟩).uid fun hid => ?_
      subst hid
      cases hq.symm.trans hp
      exact (howner hqu.symm).elim
    · exact .start hs hp

/-- Work that records an expiry on the link under its id when it ends this way. -/
def Work.recordsExpiry : Work → Outcome → Bool
  | .authorize _ _, .authorized (.v6 _) _ => true
  | .deferredVsConnect assignedAddr _, .authorized addr _ => addr = assignedAddr
  | _, _ => false

/-- Messages that answer a renewal request. -/
def Incoming.renews : Incoming → Bool
  | .renewAuthenticationResponse _ _ => true
  | _ => false

theorem Incoming.labels_quiet (hmsg : msg.renews = false) {id' : LinkId} :
    ∀ l ∈ msg.labels cfg id', l.renews id = false := by
  intro l hl
  unfold Incoming.labels at hl
  split at hl
  · cases List.mem_singleton.mp hl
    rfl
  cases msg with
  | renewAuthenticationResponse c result => cases hmsg
  | handled | refused => cases hl
  | _ =>
    simp only [Incoming.event, List.mem_cons, List.not_mem_nil, or_false] at hl
    rcases hl with rfl | rfl | rfl <;> rfl

variable (hs : n.Sound) (hp : n.peers id = some p)

include hs hp

theorem processMessage_progress
    (hA : a.linkId = id → ∀ c blobStr blobs, msg = .renewAuthenticationResponse c (.ok blobStr) →
      decodeBlobs prim blobStr = .ok blobs → Renews prim p c blobs →
      A c (vstBlobsForRenewal prim blobs))
    (h : n.processMessage prim cfg io a msg = some n') : Progresses A R n n' id p none := by
  have hm := processMessage_moves h
  cases msg with
  | renewAuthenticationResponse c result =>
    have hprog : Progresses A R n (n.processLinkStateEvent prim cfg io a.owner a.linkId
        (.receivedRenewAuthResponse c result)).1 id p none := by
      refine .processLinkStateEvent hs hp fun hid c' blobStr blobs he => ?_
      cases he
      exact hA hid c blobStr blobs rfl
    simp only [processMessage, Incoming.isRefused, Incoming.event, applyPubkey,
      Bool.false_eq_true, if_false] at h
    split at h
    · cases h
      exact hprog
    · have herr : Moves prim cfg [.event a.linkId .error] _ n' :=
        .raise (List.mem_singleton.mpr rfl) h
      refine hprog.moves (fun l hl => ?_) herr
      cases List.mem_singleton.mp hl
      rfl
    · cases h
  | _ => exact .quiet hs hp (Incoming.labels_quiet rfl) hm

theorem authorizeConnect_progress {request : ConnectRequest} {evidence : Evidence}
    (hR : a.linkId = id → (Work.authorize request evidence).recordsExpiry outcome = true → R)
    (h : n.authorizeConnect prim cfg io a request evidence outcome = some n') :
    Progresses A R n n' id p none := by
  have hm := authorizeConnect_moves h
  have hquiet (hl : ∀ l ∈ (Work.authorize request evidence).labels prim cfg a.linkId outcome,
      l.renews id = false) : Progresses A R n n' id p none := .quiet hs hp hl hm
  cases outcome with
  | authorized addr authExpires =>
    cases addr with
    | v4 bits => exact hquiet (by simp [Work.labels, Label.renews, LinkEvent.renews])
    | v6 bits =>
      let n₁ : Node := { n with answers := n.answers ++ [⟨a.owner, a.origin, request, evidence, .v6 bits⟩] }
      have hs₁ : n₁.Sound := ⟨hs.deferred, hs.below, hs.unique⟩
      have hrec : Progresses A R n₁ (n₁.recordAuthExpires cfg io a.linkId authExpires) id p none :=
        .recordAuthExpires hs₁ hp fun hid => hR hid rfl
      have hevent : Moves prim cfg [.event a.linkId (.receivedAuthorizeResponse (.v6 bits))]
          (n₁.recordAuthExpires cfg io a.linkId authExpires) n' :=
        .raise (List.mem_singleton.mpr rfl) h
      refine hrec.moves (fun l hl => ?_) hevent
      cases List.mem_singleton.mp hl
      rfl
  | refused error =>
    refine hquiet fun l hl => ?_
    cases List.mem_singleton.mp hl
    cases error with
    | codedError code message =>
      simp only [authorizeFailureEvent, Label.renews]
      split <;> rfl
    | other text => rfl
  | _ => cases h

theorem runWork_progress (hplace : a.work.isRenewal = true → a.owner = p.uid → a.linkId = id)
    (hA : a.linkId = id → outcome = .due → ∀ c blobStr blobs,
      a.work = .message (.renewAuthenticationResponse c (.ok blobStr)) →
      decodeBlobs prim blobStr = .ok blobs → Renews prim p c blobs →
      A c (vstBlobsForRenewal prim blobs))
    (hR : a.linkId = id → a.work.recordsExpiry outcome = true → R)
    (h : n.runWork prim cfg io a outcome = some n') :
    Progresses A R n n' id p (if a.renews p.uid then some a.work else none) := by
  cases hw : a.work.isRenewal with
  | true =>
    -- work of an attempt settles on the link that started it
    obtain ⟨f, rfl, hf⟩ := runWork_settled hw h
    have hprog : Progresses A R n (n.updateOwner a f) id p _ := .updateOwner hs hp (hplace hw) hf
    simpa [Activity.renews, hw] using hprog
  | false =>
    have hm := runWork_moves h
    have hended : ¬a.renews p.uid = true := by simp [Activity.renews, hw]
    rw [if_neg hended]
    have hdue (hwait : a.work.waits = false) : outcome = .due := runWork_due hwait h
    obtain ⟨id', owner, origin, work⟩ := a
    cases work with
    | message msg =>
      obtain rfl := hdue rfl
      refine processMessage_progress hs hp (fun hid c blobStr blobs hmsg => ?_) h
      exact hA hid rfl c blobStr blobs (hmsg ▸ rfl)
    | echo handle generation =>
      simp only [runWork, awaitAck] at h
      split at h
      · split at h <;> cases h
        exact .of_steady (.start hs hp)
      split at h
      · obtain ⟨e, he, hr⟩ := Option.bind_eq_some_iff.mp h
        refine .raise hs hp (fun c result hne => ?_) hr
        subst hne
        unfold ackEvent at he
        split at he <;> cases he
      · cases h
    | authorize request evidence => exact authorizeConnect_progress hs hp hR h
    | deferredVsConnect addr request =>
      simp only [runWork, sendDeferredVsConnect] at h
      split at h
      · split at h <;> cases h
        next heq => exact .recordAuthExpires hs hp fun hid => hR hid (decide_eq_true heq)
      · cases h
    | oidc attemptClock issuer challenge baseBlobs =>
      refine .quiet hs hp (fun l hl => ?_) hm
      cases outcome with
      | agentReply reply =>
        cases List.mem_singleton.mp hl
        unfold oidcEvent
        split <;> rfl
      | _ => cases hl
    | dropLink dropped =>
      refine .quiet hs hp ?_ hm
      cases dropped <;> simp [Work.labels, Label.renews, LinkEvent.renews]
    | renewalReply | renewalTimeout | reauthorize | reauthorizing => cases hw
    | _ =>
      refine .quiet hs hp ?_ hm
      simp [Work.labels, Label.renews, LinkEvent.renews]

end

/-! ## Every step -/

/-- The step records an expiry on the link under `id`. -/
def Node.recordsExpiry (n : Node) (id : LinkId) : NodeAction → Bool
  | .run i outcome _ =>
    (n.activities[i]?).any fun a => a.linkId == id && a.work.recordsExpiry outcome
  | _ => false

/-- The step handles a response on the link `p` under `id` whose blobs answer the challenge `c`, and
    are passed on as `submitted`. -/
def Accepts (prim : Primitives) (n : Node) (id : LinkId) (p : PeerState) (act : NodeAction)
    (c : Challenge) (submitted : List VsBlob) : Prop :=
  ∃ i io a blobStr blobs, act = .run i .due io ∧ n.activities[i]? = some a ∧ a.linkId = id ∧
    a.work = .message (.renewAuthenticationResponse c (.ok blobStr)) ∧
    decodeBlobs prim blobStr = .ok blobs ∧ submitted = vstBlobsForRenewal prim blobs ∧
    Renews prim p c blobs

theorem Accepts.renews {submitted : List VsBlob} (h : Accepts prim n id p act c submitted) :
    ∃ blobs, Renews prim p c blobs := by
  obtain ⟨-, -, -, -, blobs, -, -, -, -, -, -, hrenews⟩ := h
  exact ⟨blobs, hrenews⟩

/-- Every step does one of the listed things to the renewal of a link. -/
theorem step_progress (hs : n.Sound) (hpl : n.Placed) (hp : n.peers id = some p)
    (h : n.step prim cfg act = some n') :
    Progresses (Accepts prim n id p act) (n.recordsExpiry id act = true) (n.release act) n' id p
      (n.ended p.uid act) := by
  have hm := step_moves hs.deferred h
  have hs' := hs.release act
  cases act with
  | run i outcome io =>
    simp only [Node.step, runActivity] at h
    cases ha : n.activities[i]? with
    | none => simp only [ha, reduceCtorEq] at h
    | some a =>
      simp only [ha] at h
      split at h
      · cases h
      have hended : n.ended p.uid (.run i outcome io) = if a.renews p.uid then some a.work else none := by
        rw [Node.ended, ha]
        rfl
      rw [hended]
      refine runWork_progress hs' hp (fun hw howner => ?_) ?_ ?_ h
      · exact (hpl a (List.mem_of_getElem? ha) hw).2 id p hp howner.symm
      · rintro hid rfl c blobStr blobs hwork hdec hrenews
        exact ⟨i, io, a, blobStr, blobs, rfl, ha, hid, hwork, hdec, rfl, hrenews⟩
      · intro hid hrec
        simp [Node.recordsExpiry, ha, hid, hrec]
  | command id' command io =>
    cases command with
    | requestRenewalNow =>
      by_cases hid : id' = id
      · subst hid
        simp only [Node.step, runCommand, hp] at h
        obtain ⟨es, he, hprog⟩ :=
          @Advances.requestRenewalNow _ _ (n.context prim cfg io) ⟨p, []⟩
        refine ⟨renewalWorks es, _, ?_, hprog⟩
        rw [← List.nil_append es, ← he, ← Option.some.inj h]
        exact .of_apply hs hp (Kept.renewals.requestRenewalNow (h := ⟨p, []⟩) (.refl p)).uid
      · exact .quiet hs' hp (by simp [labels, Label.renews, hid]) hm
    | event e =>
      cases he : e.renews with
      | false => exact .quiet hs' hp (by simp [labels, Label.renews, he]) hm
      | true =>
        -- such an event is not among the commands
        simp only [Node.step, runCommand] at h
        split at h
        · cases h
          exact .of_steady (.start hs hp)
        · cases e with
          | receivedKeepAliveResponse | receivedRenewAuthResponse => cases h
          | _ => cases he
    | _ => exact .quiet hs' hp (by simp [labels, Label.renews]) hm
  | _ => exact .quiet hs' hp (by simp [labels, Label.renews, LinkEvent.renews]) hm

end

end ZprCore.Link
