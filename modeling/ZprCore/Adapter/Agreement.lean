-- SUMMARY: An adapter and its node mean the same by a stream id, as long as ids are not reused early.
import ZprCore.Adapter.Session
import ZprCore.Dock.Revocation

/-!
# Agreement on stream ids

A stream id means a flow to the adapter and a visa to the node. The node frees the slot of a
stream at once and may offer it again for the next bind, while the adapter still sends with the
old id: expiry does not tell it, and a withdrawal may be on its way. The two agree as long as a
slot that is offered on the link is not one the adapter knows, by an active entry or by a response
that has yet to arrive, and as long as the visas of the link's routes stay what they are.
-/

namespace ZprCore.Adapter

open ZprCore.Flow Dock Dock.Node

/-! ## The node -/

variable {visa : Visa} {n' : Node} {key : StreamId} {pep : PftPep} {a : Dock.Action}

section Node

variable {n m : Node} {link : LinkId} {stream : StreamId} {v : VisaId} {sums : Checksums}
  {lookup : FiveTupleLookup} {p : PeerState}

def classifier (n : Node) (v : VisaId) : Option Ip5TupleTc := (n.visas.table.lookup v).bind (·.getTc)

/-- The link on whose behalf the answer of a next hop was awaited, and the slot offered there. -/
def answersFor (n : Node) : Dock.Action → Option (LinkId × StreamId)
  | .tetherResponse egress txn (.success _) key =>
    (n.peers.lookup egress).bind fun p =>
      (n.awaiting egress ⟨p.serial, txn⟩).map fun origin => (origin.1, key)
  | _ => none

/-- The visas that an action removes. -/
def removes (n : Node) : Dock.Action → List VisaId
  | .dropPeer link => n.boundTo link
  | .revokeVisa v => [v]
  | .handleExpirations => n.expired
  | _ => []

/-- No peer is told a stream, and every route was there before. -/
structure Quiet (n n' : Node) : Prop where
  untold : Untold n n'
  route : ∀ {link σ stream pep}, n'.serial link = some σ → n'.route link stream = some pep →
    n.serial link = some σ ∧ n.route link stream = some pep

theorem Quiet.of_eq (hu : Untold n n') (hs : n'.serial = n.serial) (hr : n'.route = n.route) :
    Quiet n n' :=
  ⟨hu, fun hser hroute => ⟨hs ▸ hser, hr ▸ hroute⟩⟩

theorem Quiet.frame (h : Frame n n') : Quiet n n' := .of_eq h.untold h.serial h.route

theorem Quiet.trans (h : Quiet n m) (h' : Quiet m n') : Quiet n n' :=
  ⟨h.untold.trans h'.untold, fun hs hr => (h'.route hs hr).elim h.route⟩

theorem Quiet.modifyVisas (n : Node) (f : VisaTable → VisaTable) : Quiet n (n.modifyVisas f) :=
  .of_eq (.refl _) rfl rfl

theorem Quiet.revoked {vs : List VisaId} {ws : List ForwardingEntry} {es : List Event}
    (h : Revoked n n' vs ws es) : Quiet n n' :=
  ⟨h.untold, fun hs hr => ⟨h.serial ▸ hs, h.route_eq_some hr⟩⟩

theorem Quiet.erasePeer (n : Node) (link : LinkId) : Quiet n (n.erasePeer link) := by
  refine ⟨.refl _, fun hs hr => ?_⟩
  rw [serial_erasePeer] at hs
  rw [route_erasePeer] at hr
  exact ⟨(Option.ite_none_left_eq_some.mp hs).2, (Option.ite_none_left_eq_some.mp hr).2⟩

theorem Quiet.openLink (n : Node) (link : LinkId) (linkType : LinkType) :
    Quiet n (n.openLink link linkType) := by
  refine ⟨.refl _, fun hs hr => ?_⟩
  rw [route_openLink] at hr
  obtain ⟨hne, hr⟩ := Option.ite_none_left_eq_some.mp hr
  rw [serial_openLink, if_neg hne] at hs
  exact ⟨hs, hr⟩

theorem Quiet.unbound (hf : Frame (n.unlinked link p stream pep) n') : Quiet n n' := by
  refine ⟨Grown.trans (.one rfl) hf.untold, fun hs hr => ?_⟩
  rw [hf.serial, serial_congr endpoint_unlinked] at hs
  rw [hf.route, route_unlinked] at hr
  exact ⟨hs, (Option.ite_none_left_eq_some.mp hr).2⟩

/-- A stream is bound on a link, and its peer is told. -/
structure Binds (n n' : Node) (link : LinkId) (key : StreamId) (pep : PftPep) (visa : Visa)
    (message : Message) : Prop where
  stored : n.visas.table.lookup pep.visaId = some visa
  visas : n'.visas = n.visas.modify pep.visaId (·.linkForwardingEntry ⟨link, key⟩)
  serial : n'.serial = n.serial
  route : ∀ other stream, n'.route other stream =
    if (⟨other, stream⟩ : ForwardingEntry) = ⟨link, key⟩ then some pep else n.route other stream
  success : ∃ txn t, Message.Success txn key visa pep.visaId t message
  told : ∃ σ es, n.serial link = some σ ∧ n'.events = n.events ++ (es ++ [.sent link σ message]) ∧
    ∀ e ∈ es, e.tells = none

theorem Binds.fillSlot {txn : TxnId} {message : Message} (hp : n.peers.lookup link = some p)
    (hvisa : n.visas.table.lookup pep.visaId = some visa) (hf : Frame n m)
    (hsuccess : Message.Success txn key visa pep.visaId (p.peerType link) message) :
    Binds n (m.fillSlot ⟨link, key⟩ pep message) link key pep visa message := by
  have hserial := hf.serial_eq hp
  obtain ⟨hs, -, hv⟩ := fillSlot_views m ⟨link, key⟩ pep message
  obtain ⟨es, hes, hq⟩ := hf.untold
  refine ⟨hvisa, ?_, ?_, fun other stream => ?_, ⟨txn, _, hsuccess⟩, p.serial, es, serial_eq_some hp, ?_, hq⟩
  · rw [hv, hf.visas]
  · rw [hs, hf.serial]
  · rw [route_fillSlot hserial, hf.route]
  · rw [events_fillSlot hf hp, hes, List.append_assoc]

/-- An action either tells no peer a stream and adds no route, or binds one stream, on the link on
    whose behalf the answer was awaited. -/
theorem handle_bound (h : n.handle sums lookup a = .ok n') :
    Quiet n n' ∨ ∃ link key pep visa message, answersFor n a = some (link, key) ∧
      Binds n n' link key pep visa message := by
  by_cases ha : ∃ egress txn stream key, a = .tetherResponse egress txn (.success stream) key
  · obtain ⟨egress, txn, stream, key, rfl⟩ := ha
    change n.handleTetherResponse egress txn (.success stream) key = .ok n' at h
    unfold handleTetherResponse at h
    split at h
    · cases h
      exact .inl (.frame (.refl _))
    next p hp =>
    dsimp only at h
    split at h
    · cases h
      exact .inl (.frame (.refl _))
    rcases installTether_ok h with hf |
      ⟨link, txn', pep, q, visa, message, m, haw, -, -, hq, -, hvisa, hf, hsuccess, rfl⟩ |
      ⟨link, txn', v, st, q, -, -, -, hf⟩
    · exact .inl (.frame hf)
    · refine .inr ⟨link, key, pep, visa, message, ?_, .fillSlot hq hvisa hf hsuccess⟩
      simp only [answersFor, hp, Option.bind_some, haw, Option.map_some]
    · exact .inl ((Quiet.modifyVisas ..).trans (.frame hf))
  · refine .inl ?_
    cases handle_effect h with
    | frame hf => exact .frame hf
    | ticked => exact .of_eq (.refl _) rfl rfl
    | ignored => exact .of_eq (.one rfl) rfl rfl
    | @addressed _ link f _ _ _ _ hf =>
      exact .of_eq (.refl _) (serial_modifyPeer fun q => (hf q).1)
        (funext fun _ => funext fun _ => route_modifyPeer (fun q => (hf q).2.2.1) ..)
    | added => exact .openLink ..
    | dropped hr => exact (Quiet.revoked hr).trans (.erasePeer ..)
    | revoked hr | expired hr => exact .revoked hr
    | inserted _ _ hf | linked _ _ _ hf => exact (Quiet.modifyVisas ..).trans (.frame hf)
    | installed => exact absurd ⟨_, _, _, _, rfl⟩ ha
    | unbound _ _ hf => exact .unbound hf

/-- What becomes of a visa in the table: it stays, up to its streams, or another one is inserted
    in its place, or it is removed with the routes that it lists, and with the link that is
    dropped. -/
theorem lookup_of_effect (heff : RouteEffect n a n') (hget : n.visas.table.lookup v = some visa) :
    (∃ visa', n'.visas.table.lookup v = some visa' ∧ visa'.dockPep = visa.dockPep) ∨
    (∃ ins dockPep, n.inserts a = some ins ∧ ins.issuerId = v ∧ ins.dockPep = some dockPep ∧
      n'.visas.table.lookup v = some (ins.stored dockPep)) ∨
    (v ∈ removes n a ∧ (∀ e ∈ visa.streams, n'.route e.link e.stream = none) ∧
      ∀ link, a = .dropPeer link → n'.serial link = none) := by
  have hmodified (u : VisaId) (g : Visa → Visa) (hg : ∀ visa, (g visa).dockPep = visa.dockPep) :
      ∃ visa', (n.visas.modify u g).table.lookup v = some visa' ∧ visa'.dockPep = visa.dockPep := by
    rw [VisaTable.modify, Table.lookup_modify, hget]
    split
    · exact ⟨_, rfl, hg visa⟩
    · exact ⟨_, rfl, rfl⟩
  have hrevoked {m : Node} {vs : List VisaId} {ws : List ForwardingEntry} {es : List Event}
      (hr : Revoked n m vs ws es) :
      (m.visas.table.lookup v = some visa) ∨ v ∈ vs ∧ ∀ e ∈ visa.streams, m.route e.link e.stream = none := by
    by_cases hv : v ∈ vs
    · refine .inr ⟨hv, fun e he => ?_⟩
      rw [hr.route, if_pos ((hr.withdrawn e).mpr ⟨v, hv, visa, hget, he⟩)]
    · refine .inl ?_
      rw [hr.table, if_neg hv, hget]
  cases heff with
  | frame hf => exact .inl ⟨visa, by rw [hf.visas, hget], rfl⟩
  | ticked | addressed | added | ignored => exact .inl ⟨visa, hget, rfl⟩
  | dropped hr =>
    rcases hrevoked hr with hget' | ⟨hv, hgone⟩
    · exact .inl ⟨visa, hget', rfl⟩
    refine .inr (.inr ⟨hv, fun e he => ?_, ?_⟩)
    · rw [route_erasePeer, hgone e he, ite_self]
    · rintro _ ⟨⟩
      rw [serial_erasePeer, if_pos rfl]
  | revoked hr | expired hr =>
    rcases hrevoked hr with hget' | ⟨hv, hgone⟩
    · exact .inl ⟨visa, hget', rfl⟩
    · exact .inr (.inr ⟨hv, hgone, by rintro _ ⟨⟩⟩)
  | @inserted _ ins dockPep _ ha hd hf =>
    have hlook : n'.visas.table.lookup v =
        if v = ins.issuerId then some (ins.stored dockPep) else n.visas.table.lookup v := by
      rw [hf.visas]
      exact Table.lookup_insert ..
    by_cases hv : v = ins.issuerId
    · exact .inr (.inl ⟨ins, dockPep, ha, hv.symm, hd, by rw [hlook, if_pos hv]⟩)
    · exact .inl ⟨visa, by rw [hlook, if_neg hv, hget], rfl⟩
  | @installed _ link _ _ _ _ key pep _ _ message m _ _ _ _ _ _ hf _ =>
    rw [(fillSlot_views m ⟨link, key⟩ pep message).2.2, hf.visas]
    exact .inl (hmodified _ _ fun _ => rfl)
  | linked _ _ _ hf =>
    rw [hf.visas]
    exact .inl (hmodified _ _ fun _ => rfl)
  | unbound _ _ hf =>
    rw [hf.visas]
    refine .inl (hmodified _ _ fun visa => ?_)
    unfold Visa.unlinkForwardingEntry
    split <;> rfl

/-- Does some route of a link satisfy `p`? -/
def anyRoute (n : Node) (link : LinkId) (p : StreamId → PftPep → Bool) : Bool :=
  (n.peers.lookup link).any fun peer => peer.pft.any p

theorem anyRoute_false (n : Node) (link : LinkId) : (anyRoute n link fun _ _ => false) = false := by
  cases hp : n.peers.lookup link <;> simp [anyRoute, hp, Table.any]

theorem not_of_anyRoute {p : StreamId → PftPep → Bool} (h : anyRoute n link p = false)
    (hr : n.route link stream = some pep) : p stream pep = false := by
  obtain ⟨peer, hpeer, hpep⟩ := route_eq_some.mp hr
  rw [anyRoute, hpeer, Option.any_some, Table.any_eq_false] at h
  exact h stream pep hpep

end Node

/-! ## The session -/

def bound : Message → Option (StreamId × Ip5TupleTc)
  | .bindActorAddressSuccess _ stream tc _ _ => some (stream, tc)
  | _ => none

theorem bound_of_tells {m : Message} (h : m.tells = none) : bound m = none := by
  cases m <;> first | rfl | cases h

namespace Session

variable (d : Docking)

def route (n : Node) (stream : StreamId) : Option PftPep :=
  if isUp d n then n.route d.link stream else none

/-- The streams that the adapter has yet to be told. -/
def coming (s : Session) : List (StreamId × Ip5TupleTc) := s.toAdapter.filterMap bound

/-- Does the adapter use the stream id, or will it, by a response on its way? -/
def knows (s : Session) (stream : StreamId) : Bool :=
  s.elt.table.any (fun _ e => e.isTether stream) || s.coming.any (·.1 = stream)

/-- The actions that keep the meaning of the link's stream ids. A slot is not offered on the link
    while the adapter knows it. A visa is inserted under the id of a route's visa only with the
    same five-tuple. A visa that is removed lists the routes under it, unless the link itself
    goes. -/
def keepsMeaning (s : Session) : SessionAction → Bool
  | .node a =>
    (answersFor s.node a).all (fun (link, key) => !(link = d.link && isUp d s.node && s.knows key)) &&
    (s.node.inserts a).all (fun visa =>
      !anyRoute s.node d.link (fun _ pep => pep.visaId = visa.issuerId) ||
        visa.dockPep.map (·.fiveTuple) =
          (s.node.visas.table.lookup visa.issuerId).map (·.dockPep.fiveTuple)) &&
    (a = .dropPeer d.link || !anyRoute s.node d.link fun stream pep => pep.visaId ∈ removes s.node a &&
      !(s.node.visas.table.lookup pep.visaId).any (⟨d.link, stream⟩ ∈ ·.streams))
  | _ => true

/-- Each active entry agrees with the route of its stream, and so will those that are coming. No
    two of them have the same stream. -/
structure Agrees (s : Session) : Prop where
  unique : ∀ f g t, s.elt.Active f t → s.elt.Active g t → f = g
  fresh : ∀ t tc, (t, tc) ∈ s.coming → ∀ f, ¬s.elt.Active f t
  once : (s.coming.map (·.1)).Nodup
  active : ∀ f t pep, s.elt.Active f t → route d s.node t = some pep →
    ∃ tc, classifier s.node pep.visaId = some tc ∧ tc.classify5t f = true
  told : ∀ t tc pep, (t, tc) ∈ s.coming → route d s.node t = some pep →
    classifier s.node pep.visaId = some tc

variable {d} {s s' : Session} {t : StreamId} {tc : Ip5TupleTc} {es : List Event}

theorem route_eq_some : route d n' t = some pep ↔
    n'.serial d.link = some d.serial ∧ n'.route d.link t = some pep := by
  simp [route, isUp]

theorem not_active_of_not_knows (h : s.knows key = false) (f : FiveTuple) : ¬s.elt.Active f key := by
  rintro ⟨pep, hget, rfl⟩
  have hany := (Bool.or_eq_false_iff.mp h).1
  have hnot := Table.any_eq_false.mp hany f _ hget
  simp [EltEntry.isTether] at hnot

theorem not_coming_of_not_knows (h : s.knows key = false) : key ∉ s.coming.map (·.1) := by
  intro hmem
  obtain ⟨x, hx, rfl⟩ := List.mem_map.mp hmem
  have hany := (Bool.or_eq_false_iff.mp h).2
  simp only [List.any_eq_false, decide_eq_true_eq] at hany
  exact hany x hx rfl

theorem Agrees.shrink (h : Agrees d s) (hnode : s'.node = s.node)
    (hact : ∀ f t, s'.elt.Active f t → s.elt.Active f t) (hcoming : s'.coming.Sublist s.coming) :
    Agrees d s' where
  unique f g t hf hg := h.unique f g t (hact f t hf) (hact g t hg)
  fresh t tc hmem f hf := h.fresh t tc (hcoming.subset hmem) f (hact f t hf)
  once := (hcoming.map _).nodup h.once
  active f t pep hf hr := hnode ▸ h.active f t pep (hact f t hf) (hnode ▸ hr)
  told t tc pep hmem hr := hnode ▸ h.told t tc pep (hcoming.subset hmem) (hnode ▸ hr)

/-! ## Messages of the node -/

/-- A response that arrives makes at most its own flow active. -/
theorem Agrees.success {txn : TxnId} {peerKey : Option Bytes} {v : VisaId} {i : Nat}
    (h : Agrees d s) (hi : s.toAdapter[i]? = some (.bindActorAddressSuccess txn t tc peerKey v)) :
    Agrees d { s with
      elt := s.elt.handleMessage d.a2a d.diffieHellman (.bindActorAddressSuccess txn t tc peerKey v)
      toAdapter := s.toAdapter.eraseIdx i } := by
  obtain ⟨hlt, hget⟩ := List.getElem?_eq_some_iff.mp hi
  have hperm : (s.coming).Perm ((t, tc) :: (s.toAdapter.eraseIdx i).filterMap bound) := by
    have hp := (List.getElem_cons_eraseIdx_perm hlt).filterMap bound
    rw [hget] at hp
    exact hp.symm
  have hsub : ((s.toAdapter.eraseIdx i).filterMap bound).Sublist s.coming :=
    (List.eraseIdx_sublist ..).filterMap bound
  have hhere : (t, tc) ∈ s.coming := hperm.mem_iff.mpr List.mem_cons_self
  have hnot : t ∉ ((s.toAdapter.eraseIdx i).filterMap bound).map (·.1) :=
    (List.nodup_cons.mp ((hperm.map (·.1)).nodup_iff.mp h.once)).1
  have hact (g : FiveTuple) (u : StreamId)
      (hg : (s.elt.handleMessage d.a2a d.diffieHellman
        (.bindActorAddressSuccess txn t tc peerKey v)).Active g u) :
      s.elt.Active g u ∨ u = t ∧ s.elt.lookupPending txn = some g ∧ tc.classify5t g = true :=
    EndpointLookupTable.active_installTether hg
  refine ⟨fun f g u hf hg => ?_, fun u tc' hmem f hf => ?_, (hsub.map _).nodup h.once,
    fun f u pep hf hr => ?_, fun u tc' pep hmem hr => h.told u tc' pep (hsub.subset hmem) hr⟩
  · rcases hact f u hf with hf | ⟨rfl, hf, -⟩ <;> rcases hact g _ hg with hg | ⟨hu, hg, -⟩
    · exact h.unique f g u hf hg
    · exact absurd (hu ▸ hf) (h.fresh t tc hhere f)
    · exact absurd hg (h.fresh _ tc hhere g)
    · exact Option.some.inj (hf.symm.trans hg)
  · rcases hact f u hf with hf | ⟨rfl, -, -⟩
    · exact h.fresh u tc' (hsub.subset hmem) f hf
    · exact hnot (List.mem_map.mpr ⟨_, hmem, rfl⟩)
  · rcases hact f u hf with hf | ⟨rfl, -, htc⟩
    · exact h.active f u pep hf hr
    · exact ⟨tc, h.told _ tc pep hhere hr, htc⟩

theorem Agrees.message {message : Message} {i : Nat} (h : Agrees d s)
    (hi : s.toAdapter[i]? = some message) :
    Agrees d { s with
      elt := s.elt.handleMessage d.a2a d.diffieHellman message
      toAdapter := s.toAdapter.eraseIdx i } := by
  have hsub : ((s.toAdapter.eraseIdx i).filterMap bound).Sublist s.coming :=
    (List.eraseIdx_sublist ..).filterMap bound
  cases message with
  | bindActorAddressSuccess => exact h.success hi
  | bindActorAddressError =>
    exact h.shrink rfl (fun _ _ => EndpointLookupTable.active_denyTether) hsub
  | streamIdWithdrawal =>
    exact h.shrink rfl (fun _ _ => EndpointLookupTable.active_removeByTetherId) hsub
  | streamIdSuccess | streamIdError | streamIdRequest | bindEgressStreamRequest
  | unbindEgressStream => exact h.shrink rfl (fun _ _ => id) hsub

/-! ## Actions of the node -/

theorem getTc_congr {visa' : Visa} (h : visa'.dockPep.fiveTuple = visa.dockPep.fiveTuple) :
    visa'.getTc = visa.getTc := by
  rw [Visa.getTc, h, Visa.getTc]

theorem classifier_kept (heff : RouteEffect s.node a n') (hk : keepsMeaning d s (.node a) = true)
    (hr : route d s.node t = some pep) (hr' : route d n' t = some pep)
    (hc : classifier s.node pep.visaId = some tc) : classifier n' pep.visaId = some tc := by
  simp only [keepsMeaning, Bool.and_eq_true] at hk
  obtain ⟨⟨-, hins⟩, hrem⟩ := hk
  obtain ⟨-, hr⟩ := route_eq_some.mp hr
  obtain ⟨hup', hr'⟩ := route_eq_some.mp hr'
  obtain ⟨visa, hget, htc⟩ := Option.bind_eq_some_iff.mp hc
  rcases lookup_of_effect heff hget with ⟨visa', hget', hpep⟩ | ⟨ins, dockPep, ha, hid, hd, hget'⟩ |
    ⟨hv, hgone, hdown⟩
  · have hsame : visa'.getTc = visa.getTc := getTc_congr (by rw [hpep])
    rw [classifier, hget', Option.bind_some, hsame, htc]
  · rw [ha, Option.all_some, Bool.or_eq_true, Bool.not_eq_true', decide_eq_true_eq] at hins
    rcases hins with hnone | hsame
    · have hne := not_of_anyRoute hnone hr
      simp [hid] at hne
    · rw [hid, hget, hd] at hsame
      have hsame : (ins.stored dockPep).getTc = visa.getTc := getTc_congr (Option.some.inj hsame)
      rw [classifier, hget', Option.bind_some, hsame, htc]
  · rw [Bool.or_eq_true, Bool.not_eq_true', decide_eq_true_eq] at hrem
    rcases hrem with rfl | hlisted
    · rw [hdown d.link rfl] at hup'
      cases hup'
    have hmem := not_of_anyRoute hlisted hr
    simp only [hv, decide_true, Bool.true_and, hget, Option.any_some, Bool.not_eq_false',
      decide_eq_true_eq] at hmem
    rw [hgone _ hmem] at hr'
    cases hr'

/-- Nothing new for the adapter, and no new route on its link. -/
theorem Agrees.keep (h : Agrees d s) (heff : RouteEffect s.node a n')
    (hk : keepsMeaning d s (.node a) = true) (hcoming : (s.advance d n').coming = s.coming)
    (hroute : ∀ t pep, route d n' t = some pep → route d s.node t = some pep) :
    Agrees d (s.advance d n') := by
  refine ⟨h.unique, fun t tc hmem => h.fresh t tc (hcoming ▸ hmem), hcoming ▸ h.once,
    fun f t pep hf hr => ?_, fun t tc pep hmem hr => ?_⟩
  · obtain ⟨tc, hc, htc⟩ := h.active f t pep hf (hroute t pep hr)
    exact ⟨tc, classifier_kept heff hk (hroute t pep hr) hr hc, htc⟩
  · have hc := h.told t tc pep (hcoming ▸ hmem) (hroute t pep hr)
    exact classifier_kept heff hk (hroute t pep hr) hr hc

theorem coming_advance (h : n'.events = s.node.events ++ es) :
    (s.advance d n').coming = s.coming ++ (es.filterMap (toMessage d)).filterMap bound := by
  rw [coming, advance, List.filterMap_append, h, List.drop_left]
  rfl

theorem filterMap_bound_of_untold (h : ∀ e ∈ es, e.tells = none) :
    (es.filterMap (toMessage d)).filterMap bound = [] := by
  rw [List.filterMap_filterMap, List.filterMap_eq_nil_iff]
  intro e he
  cases e with
  | sent link serial message =>
    have htells : message.tells = none := by simpa [Event.tells] using h _ he
    rw [toMessage]
    split
    · exact bound_of_tells htells
    · rfl
  | requested | unbound => rfl

theorem coming_bind {link : LinkId} {message : Message}
    (hb : Binds s.node n' link key pep visa message) :
    (s.advance d n').coming = s.coming ++
      if link = d.link ∧ s.node.serial d.link = some d.serial then (bound message).toList else [] := by
  obtain ⟨σ, es, hσ, hes, hq⟩ := hb.told
  have hiff : link = d.link ∧ σ = d.serial ↔ link = d.link ∧ s.node.serial d.link = some d.serial := by
    refine and_congr_right fun hl => ?_
    rw [← hl, hσ, Option.some_inj]
  rw [coming_advance hes, List.filterMap_append, List.filterMap_append, filterMap_bound_of_untold hq]
  congr 1
  split
  · next hc =>
    have hm : toMessage d (.sent link σ message) = some message := if_pos (hiff.mpr hc)
    rw [List.filterMap_cons_some hm]
    cases hm : bound message <;> simp [hm]
  · next hc =>
    have hm : toMessage d (.sent link σ message) = none := if_neg (mt hiff.mp hc)
    rw [List.filterMap_cons_none hm]
    rfl

theorem route_bind {link : LinkId} {message : Message}
    (hb : Binds s.node n' link key pep visa message) (t : StreamId) :
    route d n' t = if link = d.link ∧ s.node.serial d.link = some d.serial ∧ t = key then some pep
      else route d s.node t := by
  rw [route, route, isUp, isUp, hb.serial, hb.route]
  by_cases hup : s.node.serial d.link = some d.serial
  · have hiff : (⟨d.link, t⟩ : ForwardingEntry) = ⟨link, key⟩ ↔ link = d.link ∧ t = key := by
      rw [ForwardingEntry.mk.injEq, eq_comm]
    simp only [hup, decide_true, if_true, hiff, true_and]
  · simp only [hup, decide_false, Bool.false_eq_true, if_false, false_and, and_false]

/-- A stream is bound on the link, in a slot that the adapter does not know. -/
theorem Agrees.bind {message : Message} (h : Agrees d s) (heff : RouteEffect s.node a n')
    (hk : keepsMeaning d s (.node a) = true) (hup : s.node.serial d.link = some d.serial)
    (hb : Binds s.node n' d.link key pep visa message) (hknows : s.knows key = false) :
    Agrees d (s.advance d n') := by
  have hactive := not_active_of_not_knows hknows
  have hnew := not_coming_of_not_knows hknows
  have hcoming : (s.advance d n').coming = s.coming ++ (bound message).toList := by
    rw [coming_bind hb, if_pos ⟨rfl, hup⟩]
  have hother {t : StreamId} {pep' : PftPep} (ht : t ≠ key) (hr : route d n' t = some pep') :
      route d s.node t = some pep' := by
    rwa [route_bind hb, if_neg fun h => ht h.2.2] at hr
  -- a response that is new is about the slot and has the classifier of its visa
  have htold {t : StreamId} {tc : Ip5TupleTc} (hmem : (t, tc) ∈ (bound message).toList) :
      t = key ∧ visa.getTc = some tc := by
    obtain ⟨txn, ty, hs⟩ := hb.success
    cases hs with
    | node => cases hmem
    | adapter htc =>
      cases List.mem_singleton.mp hmem
      exact ⟨rfl, htc⟩
  refine ⟨h.unique, fun t tc hmem f hf => ?_, ?_, fun f t pep' hf hr => ?_, fun t tc pep' hmem hr => ?_⟩
  · rw [hcoming] at hmem
    rcases List.mem_append.mp hmem with hmem | hmem
    · exact h.fresh t tc hmem f hf
    · exact hactive f ((htold hmem).1 ▸ hf)
  · rw [hcoming, List.map_append, List.nodup_append]
    refine ⟨h.once, ?_, fun t ht u hu => ?_⟩
    · cases bound message <;> simp
    obtain ⟨x, hx, rfl⟩ := List.mem_map.mp hu
    rw [(htold hx).1]
    rintro rfl
    exact hnew ht
  · have ht : t ≠ key := fun ht => hactive f (ht ▸ hf)
    obtain ⟨tc, hc, htc⟩ := h.active f t pep' hf (hother ht hr)
    exact ⟨tc, classifier_kept heff hk (hother ht hr) hr hc, htc⟩
  · rw [hcoming] at hmem
    rcases List.mem_append.mp hmem with hmem | hmem
    · have ht : t ≠ key := fun ht => hnew (ht ▸ List.mem_map.mpr ⟨_, hmem, rfl⟩)
      exact classifier_kept heff hk (hother ht hr) hr (h.told t tc pep' hmem (hother ht hr))
    obtain ⟨rfl, htc⟩ := htold hmem
    have hpep : route d n' t = some pep := by rw [route_bind hb, if_pos ⟨rfl, hup, rfl⟩]
    have hr : route d n' t = some pep' := hr
    rw [hpep] at hr
    cases hr
    change classifier n' pep.visaId = some tc
    rw [classifier, hb.visas, VisaTable.modify, Table.lookup_modify, if_pos rfl, hb.stored]
    exact htc

theorem Agrees.node (h : Agrees d s) (hk : keepsMeaning d s (.node a) = true)
    (hstep : s.node.handle d.sums d.lookup a = .ok n') : Agrees d (s.advance d n') := by
  have heff := handle_effect hstep
  rcases handle_bound hstep with hquiet | ⟨link, key, pep, visa, message, hans, hb⟩
  · obtain ⟨es, hes, hq⟩ := hquiet.untold
    refine h.keep heff hk ?_ fun t pep hr => ?_
    · rw [coming_advance hes, filterMap_bound_of_untold hq, List.append_nil]
    · obtain ⟨hs, hr⟩ := route_eq_some.mp hr
      exact route_eq_some.mpr (hquiet.route hs hr)
  by_cases hlink : link = d.link ∧ s.node.serial d.link = some d.serial
  · obtain ⟨rfl, hup⟩ := hlink
    have hslot := hk
    simp only [keepsMeaning, Bool.and_eq_true, hans, Option.all_some] at hslot
    have hknows : s.knows key = false := by simpa [isUp, hup] using hslot.1.1
    exact h.bind heff hk hup hb hknows
  · refine h.keep heff hk ?_ fun t pep' hr => ?_
    · rw [coming_bind hb, if_neg hlink, List.append_nil]
    · rwa [route_bind hb, if_neg fun h => hlink ⟨h.1, h.2.1⟩] at hr

/-! ## Runs -/

theorem Agrees.init (h : Starts s) : Agrees d s := by
  obtain ⟨-, helt, hto, -⟩ := h
  have hactive (f : FiveTuple) (t : StreamId) : ¬s.elt.Active f t := by
    rintro ⟨pep, hget, -⟩
    rw [helt] at hget
    cases hget
  have hcoming : s.coming = [] := by rw [coming, hto]; rfl
  refine ⟨fun f _ t hf => absurd hf (hactive f t), fun _ _ _ f hf => hactive f _ hf, ?_,
    fun f t _ hf => absurd hf (hactive f t), fun t tc _ hmem => ?_⟩
  · rw [hcoming]
    exact List.nodup_nil
  · rw [hcoming] at hmem
    cases hmem

theorem Agrees.step {a : SessionAction} (h : Agrees d s) (hk : keepsMeaning d s a = true)
    (hstep : s.step d a = some s') : Agrees d s' := by
  cases a with
  | node a =>
    unfold Session.step at hstep
    dsimp only at hstep
    split at hstep
    · cases hstep
    · obtain ⟨n', hn, rfl⟩ := Option.map_eq_some_iff.mp hstep
      exact h.node hk (step_eq_some.mp hn)
  | requestTetherId f pkt txn =>
    unfold Session.step at hstep
    dsimp only at hstep
    split at hstep
    · cases hstep
    split at hstep
    · cases hstep
      exact h
    split at hstep
    · cases hstep
      exact h
    · next hins =>
      cases hstep
      exact h.shrink rfl (fun _ _ => EndpointLookupTable.active_insertPending hins) (.refl _)
  | requestCanceled txn =>
    cases hstep
    exact h.shrink rfl (fun _ _ => EndpointLookupTable.active_denyTether) (.refl _)
  | requestArrives i =>
    unfold Session.step at hstep
    dsimp only at hstep
    split at hstep
    · cases hstep
    next r hr =>
    have h' : Agrees d { s with toNode := s.toNode.eraseIdx i } := h.shrink rfl (fun _ _ => id) (.refl _)
    split at hstep
    · obtain ⟨n', hn, rfl⟩ := Option.map_eq_some_iff.mp hstep
      refine h'.node ?_ (step_eq_some.mp hn)
      simp [keepsMeaning, answersFor, Node.inserts, removes, anyRoute_false]
    · cases hstep
      exact h'
  | messageArrives i =>
    unfold Session.step at hstep
    dsimp only at hstep
    split at hstep
    · cases hstep
    next message hi =>
    cases hstep
    exact h.message hi
  | clear =>
    cases hstep
    refine h.shrink rfl (fun f t hact => ?_) (.refl _)
    obtain ⟨pep, hget, -⟩ := hact
    cases hget

/-- In every run of the session that keeps the meaning of stream ids: if the node has a route for
    the stream of an active entry, its visa has a classifier that the flow fits; and no two active
    entries have the same stream. -/
theorem stream_ids_agree {s : Session}
    (h : Run (Session.step d) Starts (fun s a => keepsMeaning d s a = true) s) :
    (∀ f t pep, s.elt.Active f t → s.node.serial d.link = some d.serial →
      s.node.route d.link t = some pep →
      ∃ visa tc, s.node.visas.table.lookup pep.visaId = some visa ∧ visa.getTc = some tc ∧
        tc.classify5t f = true) ∧
    ∀ f g t, s.elt.Active f t → s.elt.Active g t → f = g := by
  have hagrees : Agrees d s := h.invariant (fun _ => Agrees.init) fun _ _ _ h => h.step
  refine ⟨fun f t pep hf hup hr => ?_, hagrees.unique⟩
  obtain ⟨tc, hc, htc⟩ := hagrees.active f t pep hf (route_eq_some.mpr ⟨hup, hr⟩)
  obtain ⟨visa, hget, hvisa⟩ := Option.bind_eq_some_iff.mp hc
  exact ⟨visa, tc, hget, hvisa, htc⟩

/-- The first adapter of a node with two, with simple functions in the place of cryptography. -/
def sampleDocking : Docking where
  sums := .internet
  lookup := firstMatch
  a2a := ⟨1, id, fun _ _ => Vector.replicate 32 0, fun _ => Vector.replicate 32 0⟩
  diffieHellman := id
  link := 3
  serial := 2

def sampleSession : Session := ⟨boot sampleConfig, .new, [], []⟩

/-- The adapter binds a stream for a flow, in slot 1. -/
def sampleBinding (visa : VsVisa) (f : FiveTuple) (pkt : Bytes) (txn : TxnId) (stream : StreamId) :
    List SessionAction :=
  [.node (.grantVisa visa), .requestTetherId f pkt txn, .requestArrives 0,
    .node (.tetherResponse 4 txn (.success stream) 1), .messageArrives 0]

def sampleFirst : List SessionAction :=
  sampleAdapters.map .node ++ sampleBinding (sampleVisa 1000 1000) sampleTuple samplePacket 0 7

def sampleEntry : EltEntry := .active ⟨⟨true, true⟩, 1, none, none⟩

theorem stream_ids_agree_boundStream :
    ∃ s, Run (Session.step sampleDocking) Starts (fun s a => keepsMeaning sampleDocking s a = true) s ∧
      s.elt.Active sampleTuple 1 ∧ s.node.route 3 1 = some ⟨⟨4, 7⟩, 1000⟩ ∧
      ∃ visa tc, s.node.visas.table.lookup 1000 = some visa ∧ visa.getTc = some tc ∧
        tc.classify5t sampleTuple = true := by
  refine Run.reaches_imp (P := fun s => s.elt.table.lookup sampleTuple = some sampleEntry ∧
    s.node.serial 3 = some 2 ∧ s.node.route 3 1 = some ⟨⟨4, 7⟩, 1000⟩) (s := sampleSession)
    ⟨⟨sampleConfig, rfl⟩, rfl, rfl, rfl⟩ sampleFirst (by decide +kernel) ?_
  rintro s hrun ⟨hget, hup, hr⟩
  exact ⟨⟨_, hget, rfl⟩, hr, (stream_ids_agree hrun).1 _ _ _ ⟨_, hget, rfl⟩ hup hr⟩

/-- Another flow of the first adapter, to port 3. -/
def sampleOtherTuple : FiveTuple := { sampleTuple with dstPort := 3 }

def sampleOtherPacket : Bytes :=
  [0x45, 0, 0, 28, 0, 0, 0, 0, 64, 17, 0, 0, 10, 0, 0, 1, 10, 0, 0, 2, 0, 1, 0, 3, 0, 8, 0, 0]

def sampleOtherVisa : VsVisa := ⟨1001, 5000, .full, some ⟨sampleOtherTuple, [], []⟩, none⟩

/-- The visa of a flow expires, its slot is given to another flow, and the adapter sends both on
    it. -/
theorem expired_stream_is_reused :
    ∃ s, Run (Session.step sampleDocking) Starts (fun _ _ => True) s ∧
      s.elt.Active sampleTuple 1 ∧ s.elt.Active sampleOtherTuple 1 ∧
      s.node.serial 3 = some 2 ∧ s.node.route 3 1 = some ⟨⟨4, 8⟩, 1001⟩ ∧
      (s.node.visas.table.lookup 1001).bind (·.getTc) = some ⟨sampleOtherTuple⟩ ∧
      Ip5TupleTc.classify5t ⟨sampleOtherTuple⟩ sampleTuple = false := by
  refine Run.reaches_imp (P := fun s => s.elt.table.lookup sampleTuple = some sampleEntry ∧
    s.elt.table.lookup sampleOtherTuple = some sampleEntry ∧ s.node.serial 3 = some 2 ∧
    s.node.route 3 1 = some ⟨⟨4, 8⟩, 1001⟩ ∧
    (s.node.visas.table.lookup 1001).bind (·.getTc) = some ⟨sampleOtherTuple⟩)
    (s := sampleSession) ⟨⟨sampleConfig, rfl⟩, rfl, rfl, rfl⟩
    (sampleFirst ++ [.node (.tick 2000), .node .handleExpirations] ++
      sampleBinding sampleOtherVisa sampleOtherTuple sampleOtherPacket 1 8) (by decide +kernel) ?_
  rintro s - ⟨hget, hget', hup, hr, hvisa⟩
  exact ⟨⟨_, hget, rfl⟩, ⟨_, hget', rfl⟩, hup, hr, hvisa, by decide +kernel⟩

end Session

end ZprCore.Adapter
