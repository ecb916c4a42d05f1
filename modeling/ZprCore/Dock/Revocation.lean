-- SUMMARY: Revoking a visa removes every route under it and takes its streams back.
import ZprCore.Dock.Effects

/-!
# Revocation

A revocation finds the routes of a visa through its `streams` list. It is complete as long as
every route is listed there, and as long as a peer holds no stream without a route. Three
kinds of actions break this: a visa that is inserted again under an id that routes carry
starts with an empty list, an unbind takes the next hop instead of the stream out of the list,
and expiry removes routes without a word to the peer.
-/

namespace ZprCore.Dock

open ZprCore.Flow

/-! ## Streams that peers hold -/

/-- A stream of a link incarnation and the visa it is bound to. -/
structure HeldStream where
  serial : Nat
  stream : StreamId
  visaId : VisaId
deriving DecidableEq

/-- A peer holds a stream from the response that tells it until the stream is withdrawn or
    the peer gives it up. -/
def Event.applyTo (held : List HeldStream) : Event → List HeldStream
  | .sent _ serial (.streamIdWithdrawal stream) =>
    held.filter fun x => !(x.serial = serial ∧ x.stream = stream)
  | .sent _ serial message =>
    match message.tells with
    | some (stream, v) => ⟨serial, stream, v⟩ :: held
    | none => held
  | .requested .. => held
  | .unbound _ serial stream => held.filter fun x => !(x.serial = serial ∧ x.stream = stream)

namespace Node

variable {n n' m : Node} {link : LinkId} {stream : StreamId} {v : VisaId} {x : HeldStream}
  {ws : List ForwardingEntry} {a : Action} {vs : List VisaId} {excluded : Option LinkId}
  {message : Message} {es : List Event} {u : VisaId} {visa : Visa}

def held (n : Node) : List HeldStream := n.events.foldl Event.applyTo []

theorem applyTo_of_quiet {held : List HeldStream} {e : Event} (h : e.movesStream = false) :
    e.applyTo held = held := by
  cases e with
  | sent link serial message => cases message <;> first | rfl | cases h
  | requested => rfl
  | unbound => cases h

theorem foldl_applyTo_of_quiet (h : ∀ e ∈ es, e.movesStream = false) (held : List HeldStream) :
    es.foldl Event.applyTo held = held := by
  induction es generalizing held with
  | nil => rfl
  | cons e es ih =>
    rw [List.foldl_cons, applyTo_of_quiet (h e List.mem_cons_self)]
    exact ih (fun e he => h e (List.mem_cons_of_mem _ he)) held

theorem Frame.held (h : Frame n n') : n'.held = n.held := by
  obtain ⟨es, hes, hquiet⟩ := h.events
  rw [Node.held, hes, List.foldl_append, foldl_applyTo_of_quiet hquiet]
  rfl

theorem held_log (n : Node) (e : Event) : (n.log e).held = e.applyTo n.held :=
  List.foldl_concat ..

theorem held_send_telling {e : Endpoint} (he : n.endpoint link = some e)
    (ht : message.tells = some (stream, v)) :
    (n.send link message).held = ⟨e.serial, stream, v⟩ :: n.held := by
  rw [send_of_some he, held_log]
  cases message <;> cases ht <;> rfl

theorem not_withdrawn_of_mem_foldl {held : List HeldStream}
    (hes : ∀ e ∈ es, ∃ link serial stream, e = .sent link serial (.streamIdWithdrawal stream))
    (hx : x ∈ es.foldl Event.applyTo held) :
    x ∈ held ∧ ∀ link, .sent link x.serial (.streamIdWithdrawal x.stream) ∉ es := by
  induction es generalizing held with
  | nil => exact ⟨hx, fun _ => List.not_mem_nil⟩
  | cons e es ih =>
    obtain ⟨hmem, hrest⟩ := ih (fun e he => hes e (List.mem_cons_of_mem _ he)) hx
    obtain ⟨link, serial, stream, rfl⟩ := hes e List.mem_cons_self
    obtain ⟨hmem, hne⟩ := List.mem_filter.mp hmem
    refine ⟨hmem, fun other ho => ?_⟩
    rcases List.mem_cons.mp ho with heq | ho
    · injection heq with _ hs hm
      injection hm with hm
      simp [hs, hm] at hne
    · exact hrest other ho

theorem Revoked.held (h : Revoked n m vs ws es) (hx : x ∈ m.held) :
    x ∈ n.held ∧ ∀ link, .sent link x.serial (.streamIdWithdrawal x.stream) ∉ es := by
  rw [Node.held, h.events, List.foldl_append] at hx
  exact not_withdrawn_of_mem_foldl h.told hx

/-! ## Incarnations -/

/-- Serials tell incarnations apart. -/
structure Serials (n : Node) : Prop where
  lt : ∀ {link σ}, n.serial link = some σ → σ < n.nextSerial
  inj : ∀ {link other σ}, n.serial link = some σ → n.serial other = some σ → link = other
  held : ∀ x ∈ n.held, x.serial < n.nextSerial

theorem fillSlot_views (n : Node) (entry : ForwardingEntry) (pep : PftPep) (message : Message) :
    (n.fillSlot entry pep message).serial = n.serial ∧
    (n.fillSlot entry pep message).nextSerial = n.nextSerial ∧
    (n.fillSlot entry pep message).visas =
      n.visas.modify pep.visaId (·.linkForwardingEntry entry) := by
  refine ⟨?_, nextSerial_send .., visas_send ..⟩
  funext other
  rw [serial, fillSlot, endpoint_send, endpoint_setRoute, linkSlot, endpoint_modifyVisas, serial]

theorem held_fillSlot {key : StreamId} {pep : PftPep} {σ : Nat} (hs : n.serial link = some σ)
    (ht : message.tells = some (key, pep.visaId)) :
    (n.fillSlot ⟨link, key⟩ pep message).held = ⟨σ, key, pep.visaId⟩ :: n.held := by
  obtain ⟨e, he, rfl⟩ := Option.map_eq_some_iff.mp hs
  refine held_send_telling ?_ ht
  rw [endpoint_setRoute, linkSlot, endpoint_modifyVisas, he]

theorem Serials.of_le (h : Serials n) (hs : ∀ link σ, n'.serial link = some σ → n.serial link = some σ)
    (hn : n'.nextSerial = n.nextSerial) (hh : ∀ x ∈ n'.held, x ∈ n.held) : Serials n' where
  lt hl := hn ▸ h.lt (hs _ _ hl)
  inj hl ho := h.inj (hs _ _ hl) (hs _ _ ho)
  held x hx := hn ▸ h.held x (hh x hx)

theorem RouteEffect.nextSerial_le (h : RouteEffect n a n') : n.nextSerial ≤ n'.nextSerial := by
  cases h with
  | frame hf | inserted _ _ hf | linked _ _ _ hf | unbound _ _ hf => exact hf.nextSerial.ge
  | ticked | addressed | ignored => exact le_rfl
  | added => exact Nat.le_succ _
  | dropped hr | revoked hr | expired hr => exact hr.nextSerial.ge
  | @installed _ link _ _ _ _ key pep _ _ message m _ _ _ _ _ _ hf _ =>
    rw [(fillSlot_views m ⟨link, key⟩ pep message).2.1]
    exact hf.nextSerial.ge

/-- A peer that gives up a stream still holds every other one. -/
theorem held_unbound (n : Node) (p : PeerState) (link : LinkId) (stream : StreamId) :
    (n.log (.unbound link p.serial stream)).held =
      n.held.filter fun x => !(x.serial = p.serial ∧ x.stream = stream) :=
  held_log ..

theorem Serials.step (h : Serials n) (he : RouteEffect n a n') : Serials n' := by
  cases he with
  | frame hf | inserted _ _ hf | linked _ _ _ hf =>
    exact h.of_le (fun _ _ => by rw [hf.serial]; exact id) hf.nextSerial (fun _ => by rw [hf.held]; exact id)
  | ticked => exact { h with }
  | addressed _ hp hty hf =>
    exact h.of_le (fun _ _ => by rw [serial_modifyPeer fun q => (hf q).1]; exact id) rfl fun _ => id
  | @added link linkType hp hty =>
    -- the new link gets the next serial number, which no other one has
    constructor
    · intro other σ hs
      rw [serial_openLink] at hs
      split at hs
      · cases hs
        exact Nat.lt_succ_self _
      · exact Nat.lt_succ_of_lt (h.lt hs)
    · intro other other' σ hs hs'
      rw [serial_openLink] at hs
      rw [serial_openLink] at hs'
      split at hs <;> split at hs'
      · next h1 h2 => rw [h1, h2]
      · cases hs
        exact absurd (h.lt hs') (Nat.lt_irrefl _)
      · cases hs'
        exact absurd (h.lt hs) (Nat.lt_irrefl _)
      · exact h.inj hs hs'
    · intro x hx
      exact Nat.lt_succ_of_lt (h.held x hx)
  | dropped hr =>
    refine h.of_le (fun other σ hs => ?_) hr.nextSerial fun x hx => (hr.held hx).1
    rw [serial_erasePeer, hr.serial] at hs
    exact (Option.ite_none_left_eq_some.mp hs).2
  | revoked hr | expired hr =>
    exact h.of_le (fun _ _ => by rw [hr.serial]; exact id) hr.nextSerial fun x hx => (hr.held hx).1
  | @installed egress link txnId txn egressTxn stream key pep p visa message m haw hst hhop hp hvac
      hvisa hf ht =>
    obtain ⟨hs, hn, -⟩ := fillSlot_views m ⟨link, key⟩ pep message
    have hserial := hf.serial_eq hp
    have hheld := held_fillSlot hserial ht.tells
    rw [hf.serial] at hs
    rw [hf.nextSerial] at hn
    constructor
    · rw [hs, hn]
      exact h.lt
    · rw [hs]
      exact h.inj
    intro x hx
    rw [hheld, hf.held] at hx
    rw [hn]
    rcases List.mem_cons.mp hx with rfl | hx
    · exact h.lt (serial_eq_some hp)
    · exact h.held x hx
  | unbound _ _ hf =>
    refine h.of_le (fun _ _ => ?_) hf.nextSerial fun x hx => ?_
    · rw [hf.serial, serial_congr endpoint_unlinked]
      exact id
    · rw [hf.held] at hx
      exact List.mem_of_mem_filter (held_unbound n .. ▸ hx)
  | ignored => exact h.of_le (fun _ _ => id) rfl fun x hx => List.mem_of_mem_filter (held_unbound n .. ▸ hx)

/-! ## Routes and the lists of their visas -/

/-- Every route is in the list of its visa. -/
def Listed (n : Node) : Prop :=
  ∀ link stream pep, n.route link stream = some pep →
    ∃ visa, n.visas.table.lookup pep.visaId = some visa ∧ ⟨link, stream⟩ ∈ visa.streams

/-- Behind every stream that the peer of a link holds there is a route. -/
def Backed (n : Node) : Prop :=
  ∀ link σ stream v, n.serial link = some σ → ⟨σ, stream, v⟩ ∈ n.held →
    ∃ pep, n.route link stream = some pep ∧ pep.visaId = v

/-- Does some route carry the visa? -/
def carries (n : Node) (v : VisaId) : Bool :=
  n.peers.any fun _ p => p.pft.any fun _ pep => pep.visaId = v

theorem visaId_ne_of_carries (h : n.carries v = false) (hr : n.route link stream = some pep) :
    pep.visaId ≠ v := by
  simp only [carries, Table.any_eq_false, decide_eq_false_iff_not] at h
  obtain ⟨p, hp, hpep⟩ := route_eq_some.mp hr
  exact h link p hp stream pep hpep

/-- The actions that keep routes, lists and peers in step. A visa is not inserted again while
    routes carry its id. A stream is not unbound if its next hop is a route under the same visa
    itself. Visas expire only when no link that is up has a stream under them. -/
def keepsStreams (n : Node) : Action → Bool
  | .unbindIndication link stream =>
    match n.route link stream with
    | none => true
    | some pep =>
      pep.nextHop = ⟨link, stream⟩ ||
        (n.route pep.nextHop.link pep.nextHop.stream).all (·.visaId ≠ pep.visaId)
  | .handleExpirations =>
    n.expired.all fun v => (n.visas.table.lookup v).all fun visa =>
      visa.streams.all fun e => (n.peers.lookup e.link).isNone
  | a => (n.inserts a).all fun visa => !n.carries visa.issuerId

theorem carries_of_keepsStreams {visa : VsVisa} (hk : n.keepsStreams a = true)
    (ha : n.inserts a = some visa) : n.carries visa.issuerId = false := by
  cases a
  case unbindIndication | handleExpirations => cases ha
  all_goals
    simp only [keepsStreams, ha, Option.all_some] at hk
    simpa using hk

theorem Listed.modifyVisas {f : VisaTable → VisaTable}
    (hf : ∀ v visa, n.visas.table.lookup v = some visa →
      ∃ visa', (f n.visas).table.lookup v = some visa' ∧
        ∀ e ∈ visa.streams, n.route e.link e.stream ≠ none → e ∈ visa'.streams)
    (h : Listed n) : Listed (n.modifyVisas f) := by
  intro link stream pep hr
  rw [route_modifyVisas] at hr
  obtain ⟨visa, hget, hmem⟩ := h link stream pep hr
  obtain ⟨visa', hget', hsub⟩ := hf _ _ hget
  exact ⟨visa', hget', hsub _ hmem (by rw [hr]; exact nofun)⟩

theorem Frame.listed (hf : Frame n n') (h : Listed n) : Listed n' := by
  unfold Listed
  rw [hf.route, hf.visas]
  exact h

theorem Frame.backed (hf : Frame n n') (h : Backed n) : Backed n' := by
  unfold Backed
  rw [hf.route, hf.serial, hf.held]
  exact h

theorem Revoked.listed (hr : Revoked n m vs ws es) (h : Listed n) : Listed m := by
  intro link stream pep hroute
  rw [hr.route] at hroute
  split at hroute
  · cases hroute
  next hnot =>
  obtain ⟨visa, hget, hmem⟩ := h link stream pep hroute
  refine ⟨visa, ?_, hmem⟩
  rw [hr.table, if_neg fun hv => hnot ((hr.withdrawn _).mpr ⟨_, hv, visa, hget, hmem⟩)]
  exact hget

/-- Withdrawn streams are held no longer, so the others still have their routes. -/
theorem Revoked.backed (hr : Revoked n m vs ws (n.withdrawals excluded ws)) (h : Backed n) :
    ∀ link σ stream v, excluded ≠ some link → m.serial link = some σ → ⟨σ, stream, v⟩ ∈ m.held →
      ∃ pep, m.route link stream = some pep ∧ pep.visaId = v := by
  intro link σ stream v hex hs hmem
  rw [hr.serial] at hs
  obtain ⟨hmem, hnot⟩ := hr.held hmem
  obtain ⟨pep, hroute, hv⟩ := h link σ stream v hs hmem
  refine ⟨pep, ?_, hv⟩
  rw [hr.route, if_neg fun hin => hnot link (mem_withdrawals.mpr ?_)]
  · exact hroute
  obtain ⟨p, hp, rfl⟩ := Option.map_eq_some_iff.mp hs
  exact ⟨⟨link, stream⟩, hin, hex, p, hp, rfl⟩

theorem lookup_linkSlot {entry : ForwardingEntry} (h : n.visas.table.lookup u = some visa) :
    ∃ visa', (n.visas.modify v (·.linkForwardingEntry entry)).table.lookup u = some visa' ∧
      ∀ e ∈ visa.streams, e ∈ visa'.streams := by
  rw [VisaTable.modify, Table.lookup_modify, h]
  split
  · exact ⟨_, rfl, fun e he => List.mem_append_left _ he⟩
  · exact ⟨_, rfl, fun e he => he⟩

theorem lookup_unlink (v : VisaId) (entry : ForwardingEntry)
    (h : n.visas.table.lookup u = some visa) :
    ∃ visa', (n.visas.modify v (·.unlinkForwardingEntry entry)).table.lookup u = some visa' ∧
      ∀ e ∈ visa.streams, (e = entry → u ≠ v) → e ∈ visa'.streams := by
  rw [VisaTable.modify, Table.lookup_modify, h]
  split
  · next huv =>
    refine ⟨_, rfl, fun e he hne => (visa.unlinkForwardingEntry_perm entry).mem_iff.mpr ?_⟩
    exact (List.mem_erase_of_ne fun heq => hne heq huv).mpr he
  · exact ⟨_, rfl, fun e he _ => he⟩

theorem Listed.step (h : Listed n) (hk : n.keepsStreams a = true) (he : RouteEffect n a n') :
    Listed n' := by
  cases he with
  | frame hf => exact hf.listed h
  | ticked | ignored => exact h
  | addressed _ hp hty hf =>
    intro link stream pep hr
    rw [route_modifyPeer fun q => (hf q).2.2.1] at hr
    exact h link stream pep hr
  | added hp hty =>
    intro link stream pep hr
    rw [route_openLink] at hr
    split at hr
    · cases hr
    · exact h link stream pep hr
  | dropped hrev =>
    intro link stream pep hr
    rw [route_erasePeer] at hr
    exact hrev.listed h link stream pep (Option.ite_none_left_eq_some.mp hr).2
  | revoked hrev | expired hrev => exact hrev.listed h
  | @inserted _ visa dockPep _ ha hd hf =>
    have hfresh := carries_of_keepsStreams hk ha
    refine hf.listed fun link stream pep hr => ?_
    obtain ⟨visa', hget, hmem⟩ := h link stream pep hr
    refine ⟨visa', ?_, hmem⟩
    have hne := visaId_ne_of_carries hfresh hr
    rw [Node.modifyVisas, VisaTable.insert, Table.lookup_insert, if_neg hne]
    exact hget
  | @installed egress link txnId txn egressTxn stream key pep p visa message m haw hst hhop hp hvac
      hvisa hf ht =>
    have hserial := hf.serial_eq hp
    intro other s pep' hr
    rw [route_fillSlot hserial] at hr
    rw [(fillSlot_views ..).2.2, hf.visas]
    split at hr
    · next heq =>
      cases hr
      cases heq
      refine ⟨visa.linkForwardingEntry ⟨link, key⟩, ?_, List.mem_append_right _ (List.mem_singleton_self _)⟩
      rw [VisaTable.modify, Table.lookup_modify, if_pos rfl, hvisa]
      rfl
    · rw [hf.route] at hr
      obtain ⟨visa', hget, hmem⟩ := h other s pep' hr
      obtain ⟨visa'', hget'', hsub⟩ := lookup_linkSlot hget
      exact ⟨visa'', hget'', hsub _ hmem⟩
  | linked hst hp hty hf =>
    refine hf.listed (h.modifyVisas fun u visa hget => ?_)
    obtain ⟨visa', hget', hsub⟩ := lookup_linkSlot hget
    exact ⟨visa', hget', fun e he _ => hsub e he⟩
  | @unbound link stream p pep _ hp hr hf =>
    refine hf.listed fun other s pep' hroute => ?_
    rw [route_unlinked] at hroute
    split at hroute
    · cases hroute
    next hne =>
    obtain ⟨visa, hget, hmem⟩ := h other s pep' hroute
    obtain ⟨visa', hget', hsub⟩ := lookup_unlink pep.visaId pep.nextHop hget
    refine ⟨visa', hget', hsub _ hmem fun heq hv => ?_⟩
    -- the unlinked entry would be another route under the same visa
    simp only [keepsStreams, hr, Bool.or_eq_true, decide_eq_true_eq] at hk
    rcases hk with hk | hk
    · exact hne (heq.trans hk)
    · have hlive : n.route other s = some pep' := hroute
      rw [← heq, hlive] at hk
      simp [hv] at hk

theorem Backed.step (hs : Serials n) (h : Backed n) (hk : n.keepsStreams a = true)
    (he : RouteEffect n a n') : Backed n' := by
  cases he with
  | frame hf | inserted _ _ hf | linked _ _ _ hf => exact hf.backed h
  | ticked => exact h
  | addressed _ hp hty hf =>
    intro link σ stream v hserial hmem
    rw [serial_modifyPeer fun q => (hf q).1] at hserial
    obtain ⟨pep, hr, hv⟩ := h link σ stream v hserial hmem
    refine ⟨pep, ?_, hv⟩
    rw [route_modifyPeer fun q => (hf q).2.2.1]
    exact hr
  | added hp hty =>
    intro link σ stream v hserial hmem
    rw [serial_openLink] at hserial
    rw [route_openLink]
    split at hserial
    -- nothing is held yet under the serial number of a new link
    · cases hserial
      exact absurd (hs.held _ hmem) (Nat.lt_irrefl _)
    · next hne =>
      rw [if_neg hne]
      exact h link σ stream v hserial hmem
  | dropped hrev =>
    intro link σ stream v hserial hmem
    rw [serial_erasePeer] at hserial
    rw [route_erasePeer]
    split at hserial
    · cases hserial
    · next hne =>
      rw [if_neg hne]
      exact hrev.backed h link σ stream v (fun heq => hne (Option.some.inj heq).symm) hserial hmem
  | revoked hrev =>
    exact fun link σ stream v => hrev.backed h link σ stream v (Option.some_ne_none link).symm
  | @expired m withdrawn hrev =>
    intro link σ stream v hserial hmem
    rw [hrev.serial] at hserial
    obtain ⟨pep, hr, hv⟩ := h link σ stream v hserial (hrev.held hmem).1
    refine ⟨pep, ?_, hv⟩
    rw [hrev.route, if_neg fun hin => ?_]
    · exact hr
    -- a visa with a stream on a link that is up does not expire
    obtain ⟨u, hu, visa, hget, hin⟩ := (hrev.withdrawn _).mp hin
    simp only [keepsStreams, List.all_eq_true] at hk
    have hdead := hk u hu
    rw [hget] at hdead
    simp only [Option.all_some, List.all_eq_true, Option.isNone_iff_eq_none] at hdead
    obtain ⟨p, hp, -⟩ := route_eq_some.mp hr
    rw [hdead _ hin] at hp
    cases hp
  | @installed egress link txnId txn egressTxn stream key pep p visa message m haw hst hhop hp hvac
      hvisa hf ht =>
    have hserial := hf.serial_eq hp
    intro other σ s v hother hmem
    rw [(fillSlot_views ..).1, hf.serial] at hother
    rw [held_fillSlot hserial ht.tells, hf.held] at hmem
    rw [route_fillSlot hserial, hf.route]
    rcases List.mem_cons.mp hmem with heq | hmem
    · cases heq
      cases hs.inj hother (serial_eq_some hp)
      rw [if_pos rfl]
      exact ⟨pep, rfl, rfl⟩
    · obtain ⟨pep', hr, hv⟩ := h other σ s v hother hmem
      refine ⟨pep', ?_, hv⟩
      rw [if_neg fun heq => ?_]
      · exact hr
      -- the slot was vacant
      · cases heq
        rw [hvac] at hr
        cases hr
  | @unbound link stream p pep _ hp hr hf =>
    intro other σ s v hother hmem
    rw [hf.serial, serial_congr endpoint_unlinked] at hother
    rw [hf.held] at hmem
    obtain ⟨hmem, hne⟩ := List.mem_filter.mp (held_unbound n .. ▸ hmem)
    obtain ⟨pep', hr', hv⟩ := h other σ s v hother hmem
    refine ⟨pep', ?_, hv⟩
    rw [hf.route, route_unlinked, if_neg fun heq => ?_]
    · exact hr'
    cases heq
    rw [serial_eq_some hp] at hother
    cases hother
    simp at hne
  | ignored =>
    exact fun other σ s v hother hmem =>
      h other σ s v hother (List.mem_of_mem_filter (held_unbound n .. ▸ hmem))

/-! ## Runs -/

variable {sums : Checksums} {lookup : FiveTupleLookup}

theorem Serials.init (h : Booted n) : Serials n := by
  obtain ⟨cfg, rfl⟩ := h
  have hserial : ∀ {link σ}, (boot cfg).serial link = some σ →
      (link = localActorLinkId ∧ σ = 0) ∨ (link = dockLinkId ∧ σ = 1) := by
    intro link σ hs
    obtain ⟨e, he, rfl⟩ := Option.map_eq_some_iff.mp hs
    obtain ⟨p, hp, rfl⟩ := endpoint_eq_some.mp he
    rcases lookup_peers_boot hp with ⟨hl, rfl⟩ | ⟨hl, rfl⟩
    · exact .inl ⟨hl, rfl⟩
    · exact .inr ⟨hl, rfl⟩
  refine ⟨fun hs => ?_, fun hs hs' => ?_, nofun⟩
  · show _ < 2
    rcases hserial hs with ⟨-, rfl⟩ | ⟨-, rfl⟩ <;> decide
  · rcases hserial hs with ⟨rfl, rfl⟩ | ⟨rfl, rfl⟩ <;>
      rcases hserial hs' with ⟨rfl, h⟩ | ⟨rfl, h⟩ <;> first | rfl | cases h

theorem Serials.of_run {ok : Node → Action → Prop} (h : Run (Node.step sums lookup) Booted ok n) :
    Serials n :=
  h.invariant (fun _ => Serials.init) fun _ _ _ hs _ hstep =>
    hs.step (handle_effect (step_eq_some.mp hstep))

theorem Listed.init (h : Booted n) : Listed n := by
  obtain ⟨cfg, rfl⟩ := h
  intro link stream pep hr
  rw [(views_boot cfg link).1] at hr
  cases hr

theorem Backed.init (h : Booted n) : Backed n := by
  obtain ⟨cfg, rfl⟩ := h
  exact fun _ _ _ _ _ hmem => nomatch hmem

theorem listed_and_backed (h : Run (Node.step sums lookup) Booted (fun n a => n.keepsStreams a = true) n) :
    Listed n ∧ Backed n := by
  induction h with
  | start h => exact ⟨.init h, .init h⟩
  | next hrun hk hstep ih =>
    have he := handle_effect (step_eq_some.mp hstep)
    exact ⟨ih.1.step hk he, ih.2.step (.of_run hrun) hk he⟩

/-- Revocation is complete: no forwarding table has a route under the visa any more, and every
    link that is up has been sent a withdrawal for each stream under it that it was told. -/
theorem revocation_complete
    (hrun : Run (Node.step sums lookup) Booted (fun n a => n.keepsStreams a = true) n)
    (h : n.step sums lookup (.revokeVisa v) = some n') :
    (∀ link stream pep, n'.route link stream = some pep → pep.visaId ≠ v) ∧
    ∀ link σ stream, n'.serial link = some σ → ⟨σ, stream, v⟩ ∉ n'.held := by
  obtain ⟨hlisted, hbacked⟩ := listed_and_backed (.next hrun rfl h)
  have hgone : n'.visas.table.lookup v = none := by
    obtain ⟨ws, hrev⟩ := handleRevocation_ok (step_eq_some.mp h)
    rw [hrev.table, if_pos List.mem_cons_self]
  have hnone : ∀ link stream pep, n'.route link stream = some pep → pep.visaId ≠ v := by
    rintro link stream pep hr rfl
    obtain ⟨visa, hget, -⟩ := hlisted link stream pep hr
    rw [hgone] at hget
    cases hget
  refine ⟨hnone, fun link σ stream hs hmem => ?_⟩
  obtain ⟨pep, hr, hv⟩ := hbacked link σ stream v hs hmem
  exact hnone link stream pep hr hv

/-! ## A bound stream -/

def sampleAddr (x : UInt8) : IpAddress := .newFromV4 [10, 0, 0, x] 0

def samplePacket : Bytes :=
  [0x45, 0, 0, 28, 0, 0, 0, 0, 64, 17, 0, 0, 10, 0, 0, 1, 10, 0, 0, 2, 0, 1, 0, 2, 0, 8, 0, 0]

def sampleTuple : FiveTuple := ⟨sampleAddr 1, sampleAddr 2, .ipv4, IpNumber.udp, 1, 2⟩

def sampleVisa (v : VisaId) (expires : Nat) : VsVisa :=
  ⟨v, expires, .full, some ⟨sampleTuple, [], []⟩, none⟩

def sampleConfig : Config := ⟨0, [sampleAddr 99], sampleAddr 99, sampleAddr 98, 5000⟩

/-- Two adapters come up on links 3 and 4 and are given the addresses of the packet. -/
def sampleAdapters : List Action :=
  [.startTether 3 .nodeToAdapter, .startTether 4 .nodeToAdapter,
    .authorized 3 (sampleAddr 1), .authorized 4 (sampleAddr 2)]

/-- The first adapter binds a stream for the packet, which becomes its stream 1. -/
def sampleBind (v : VisaId) : List Action :=
  [.grantVisa (sampleVisa v 1000), .bindActorAddressRequest 3 0 28 samplePacket,
    .tetherResponse 4 0 (.success 7) 1]

theorem revocation_complete_boundStream :
    ∃ n n', Run (Node.step .internet firstMatch) Booted (fun n a => n.keepsStreams a = true) n ∧
      n.step .internet firstMatch (.revokeVisa 1000) = some n' ∧
      (n.route 3 1 = some ⟨⟨4, 7⟩, 1000⟩ ∧ ⟨2, 1, 1000⟩ ∈ n.held) ∧
      (∀ link stream pep, n'.route link stream = some pep → pep.visaId ≠ 1000) ∧
      ∀ link σ stream, n'.serial link = some σ → ⟨σ, stream, 1000⟩ ∉ n'.held := by
  refine Run.reaches_some_imp (P := fun n _ => n.route 3 1 = some ⟨⟨4, 7⟩, 1000⟩ ∧
    ⟨2, 1, 1000⟩ ∈ n.held) ⟨sampleConfig, rfl⟩ (sampleAdapters ++ sampleBind 1000)
    (by decide +kernel) ?_
  intro n n' hrun hn' hbound
  exact ⟨hbound, revocation_complete hrun hn'⟩

/-- A visa that is granted again before it is revoked leaves its old stream in place. -/
theorem revocation_misses_regranted_visa :
    ∃ n n', Run (Node.step .internet firstMatch) Booted (fun _ _ => True) n ∧
      n.step .internet firstMatch (.revokeVisa 1000) = some n' ∧
      n'.route 3 1 = some ⟨⟨4, 7⟩, 1000⟩ ∧
      n'.serial 3 = some 2 ∧ ⟨2, 1, 1000⟩ ∈ n'.held :=
  Run.reaches_some ⟨sampleConfig, rfl⟩
    (sampleAdapters ++ sampleBind 1000 ++ [.grantVisa (sampleVisa 1000 2000)]) (by decide +kernel)

end Node

end ZprCore.Dock
