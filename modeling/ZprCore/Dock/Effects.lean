-- SUMMARY: What the handlers of the dock do to the routes and visas of a node.
import ZprCore.Dock.Node

/-!
# Effects on routes

Inversion lemmas for the handlers. `Frame` says that a handler leaves the links, their routes
and the visas alone; `Revoked` says what is left after visas have been removed. `RouteEffect`
lists everything that an action can do to routes, so that invariants about them are proved by
cases on it.
-/

namespace ZprCore.Dock

open ZprCore.Flow

variable {f : PeerState → PeerState} {message : Message} {n n' m : Node} {link egress : LinkId}
  {txn : TxnId} {v : VisaId} {vs : List VisaId} {ws : List ForwardingEntry} {es : List Event}
  {sums : Checksums} {lookup : FiveTupleLookup} {egressTxn : TxnHandle} {key : StreamId}

namespace Node

theorem serial_congr (h : n'.endpoint = n.endpoint) : n'.serial = n.serial := by
  funext link
  rw [serial, h, serial]

/-! ## Removing visas -/

def eraseRoutes (n : Node) (entries : List ForwardingEntry) : Node := entries.foldl eraseRoute n

/-- What the removal of visas leaves alone. -/
def steady (n : Node) := (n.now, n.endpoint, n.bindState, n.awaiting, n.tasks, n.nextSerial)

/-- What is left of a node once visas have been removed, their streams withdrawn and the peers
    told so in `es`. -/
structure Revoked (n n' : Node) (vs : List VisaId) (withdrawn : List ForwardingEntry)
    (es : List Event) : Prop where
  steady : n'.steady = n.steady
  events : n'.events = n.events ++ es
  told : ∀ e ∈ es, ∃ link σ stream, e = .sent link σ (.streamIdWithdrawal stream)
  lookupTable : ∀ x ∈ n'.visas.lookupTable, x ∈ n.visas.lookupTable ∨
    ∃ visa, n.visas.table.lookup x.1 = some visa ∧ visa.dockPep.fiveTuple = x.2
  route : ∀ link stream,
    n'.route link stream = if ⟨link, stream⟩ ∈ withdrawn then none else n.route link stream
  table : ∀ v, n'.visas.table.lookup v = if v ∈ vs then none else n.visas.table.lookup v
  withdrawn : ∀ e, e ∈ withdrawn ↔
    ∃ v ∈ vs, ∃ visa, n.visas.table.lookup v = some visa ∧ e ∈ visa.streams

theorem Revoked.refl (n : Node) : Revoked n n [] [] [] where
  steady := rfl
  events := (List.append_nil _).symm
  told := nofun
  lookupTable _ hx := .inl hx
  route _ _ := by simp only [List.not_mem_nil, if_false]
  table _ := by simp only [List.not_mem_nil, if_false]
  withdrawn _ := by simp only [List.not_mem_nil, false_and, exists_false]

variable {entries : List ForwardingEntry} {excluded : Option LinkId} {reason : String}
  {withdrawn : List ForwardingEntry} {request : TxnId → Message} {entry : ForwardingEntry}
  {egressPeer : PeerState} {e : Event}

theorem Revoked.trans {us : List VisaId} (h : Revoked n m vs ws [])
    (h' : Revoked m n' us entries es) : Revoked n n' (vs ++ us) (ws ++ entries) es where
  steady := h'.steady.trans h.steady
  events := by rw [h'.events, h.events, List.append_nil]
  told := h'.told
  lookupTable x hx := by
    rcases h'.lookupTable x hx with hx | ⟨visa, hget, hft⟩
    · exact h.lookupTable x hx
    rw [h.table] at hget
    split at hget
    · cases hget
    · exact .inr ⟨visa, hget, hft⟩
  route link stream := by
    rw [h'.route, h.route]
    split_ifs <;> simp_all
  table v := by
    rw [h'.table, h.table]
    split_ifs <;> simp_all
  withdrawn e := by
    rw [List.mem_append, h.withdrawn, h'.withdrawn]
    constructor
    · rintro (⟨v, hv, visa, hget, he⟩ | ⟨v, hv, visa, hget, he⟩)
      · exact ⟨v, List.mem_append_left _ hv, visa, hget, he⟩
      · rw [h.table] at hget
        split at hget
        · cases hget
        · exact ⟨v, List.mem_append_right _ hv, visa, hget, he⟩
    · rintro ⟨v, hv, visa, hget, he⟩
      by_cases hvs : v ∈ vs
      · exact .inl ⟨v, hvs, visa, hget, he⟩
      · refine .inr ⟨v, (List.mem_append.mp hv).resolve_left hvs, visa, ?_, he⟩
        rw [h.table, if_neg hvs]
        exact hget

theorem Revoked.rebuildLookup (h : Revoked n m vs ws es) :
    Revoked n (m.modifyVisas (·.rebuildLookup)) vs ws es :=
  { h with
    lookupTable := fun x hx => by
      obtain ⟨⟨v, visa⟩, hmem, rfl⟩ := List.mem_map.mp hx
      have hget : m.visas.table.lookup v = some visa := AList.mem_lookup_iff.mpr hmem
      rw [h.table] at hget
      split at hget
      · cases hget
      · exact .inr ⟨visa, hget, rfl⟩ }

theorem eraseRoute_of_none (h : n.peers.lookup entry.link = none) : n.eraseRoute entry = n := by
  unfold eraseRoute modifyPeer Table.modify
  rw [h]

theorem removeRoute_ok (h : n.removeRoute entry = .ok n') : n' = n.eraseRoute entry := by
  unfold removeRoute at h
  split at h
  · next hp =>
    cases h
    exact (eraseRoute_of_none hp).symm
  · split at h
    · cases h
    · cases h
      rfl

theorem removeRoutes_ok (h : n.removeRoutes entries = .ok n') : n' = n.eraseRoutes entries := by
  induction entries generalizing n with
  | nil =>
    cases h
    rfl
  | cons entry rest ih =>
    obtain ⟨m, hm, h⟩ := except_bind_eq_ok.mp h
    rw [ih h, removeRoute_ok hm]
    rfl

theorem steady_eraseRoutes (n : Node) (entries : List ForwardingEntry) :
    (n.eraseRoutes entries).steady = n.steady ∧ (n.eraseRoutes entries).events = n.events ∧
    (n.eraseRoutes entries).visas = n.visas := by
  induction entries generalizing n with
  | nil => exact ⟨rfl, rfl, rfl⟩
  | cons entry rest ih =>
    obtain ⟨hs, hkept⟩ := ih (n.eraseRoute entry)
    have he : (n.eraseRoute entry).endpoint = n.endpoint := funext fun _ => endpoint_eraseRoute
    have hb : (n.eraseRoute entry).bindState = n.bindState :=
      funext fun _ => funext fun _ => bindState_eraseRoute
    have ha : (n.eraseRoute entry).awaiting = n.awaiting :=
      funext fun _ => funext fun _ => awaiting_eraseRoute
    refine ⟨hs.trans ?_, hkept⟩
    simp only [steady, he, hb, ha]
    rfl

theorem route_eraseRoutes (n : Node) (entries : List ForwardingEntry) (link : LinkId)
    (stream : StreamId) :
    (n.eraseRoutes entries).route link stream =
      if ⟨link, stream⟩ ∈ entries then none else n.route link stream := by
  induction entries generalizing n with
  | nil => simp only [eraseRoutes, List.foldl_nil, List.not_mem_nil, if_false]
  | cons entry rest ih =>
    have h := ih (n.eraseRoute entry)
    rw [route_eraseRoute] at h
    rw [show n.eraseRoutes (entry :: rest) = (n.eraseRoute entry).eraseRoutes rest from rfl, h]
    split_ifs <;> simp_all

theorem revokeNoRebuild_ok (h : n.revokeNoRebuild v = .ok (n', withdrawn)) :
    Revoked n n' [v] withdrawn [] := by
  unfold revokeNoRebuild at h
  split at h
  · next hget =>
    cases h
    exact { Revoked.refl n with
      table := fun u => by
        simp only [List.mem_singleton]
        split
        · next hu => rw [hu, hget]
        · rfl
      withdrawn := fun e => by simp [hget] }
  · next visa hget =>
    obtain ⟨m, hm, heq⟩ := except_map_eq_ok.mp h
    cases heq
    rw [removeRoutes_ok hm]
    obtain ⟨hs, hlog, hv⟩ := steady_eraseRoutes (n.modifyVisas (·.erase v)) visa.streams
    exact {
      steady := hs
      events := hlog.trans (List.append_nil _).symm
      told := nofun
      lookupTable := fun x hx => .inl (by rw [hv] at hx; exact hx)
      route := fun link stream => route_eraseRoutes ..
      table := fun u => by
        rw [hv]
        simp only [modifyVisas, VisaTable.erase, Table.lookup_erase, List.mem_singleton]
      withdrawn := fun e => by simp [hget] }

theorem revokeAll_ok (h : n.revokeAll vs = .ok (n', withdrawn)) : Revoked n n' vs withdrawn [] := by
  induction vs generalizing n withdrawn with
  | nil =>
    cases h
    exact .refl _
  | cons v rest ih =>
    obtain ⟨⟨m, ws⟩, hm, h⟩ := except_bind_eq_ok.mp h
    obtain ⟨⟨m', es⟩, hm', heq⟩ := except_map_eq_ok.mp h
    cases heq
    exact (revokeNoRebuild_ok hm).trans (ih hm')

section

variable (h : Revoked n m vs ws es)
include h

theorem Revoked.now : m.now = n.now := congrArg (·.1) h.steady

theorem Revoked.endpoint : m.endpoint = n.endpoint := congrArg (·.2.1) h.steady

theorem Revoked.bindState : m.bindState = n.bindState := congrArg (·.2.2.1) h.steady

theorem Revoked.awaiting : m.awaiting = n.awaiting := congrArg (·.2.2.2.1) h.steady

theorem Revoked.tasks : m.tasks = n.tasks := congrArg (·.2.2.2.2.1) h.steady

theorem Revoked.nextSerial : m.nextSerial = n.nextSerial := congrArg (·.2.2.2.2.2) h.steady

theorem Revoked.serial : m.serial = n.serial := serial_congr h.endpoint

theorem Revoked.route_eq_some {stream : StreamId} {pep : PftPep}
    (hr : m.route link stream = some pep) : n.route link stream = some pep := by
  rw [h.route] at hr
  exact (Option.ite_none_left_eq_some.mp hr).2

end

/-! ## When visas can be removed -/

/-- The entries can be removed one after another: those on links that are up are distinct, and each
    has a route. -/
def removable (n : Node) (entries : List ForwardingEntry) : Bool :=
  let live := entries.filter fun e => (n.endpoint e.link).isSome
  live.Nodup && live.all fun e => (n.route e.link e.stream).isSome

theorem removable_congr (hend : m.endpoint = n.endpoint) (hroute : m.route = n.route) :
    m.removable = n.removable := by
  funext entries
  rw [removable, hend, hroute, removable]

theorem removable_append (hend : m.endpoint = n.endpoint)
    (hroute : ∀ link stream, m.route link stream =
      if ⟨link, stream⟩ ∈ ws then none else n.route link stream) :
    n.removable (ws ++ entries) = true ↔ n.removable ws = true ∧ m.removable entries = true := by
  simp only [removable, hend, hroute, List.filter_append, List.nodup_append, List.all_append,
    Bool.and_eq_true, decide_eq_true_eq, List.all_eq_true, List.mem_filter]
  constructor
  · rintro ⟨⟨hws, hes, hne⟩, hr, hr'⟩
    refine ⟨⟨hws, hr⟩, hes, fun e he => ?_⟩
    rw [if_neg fun hin => hne e ⟨hin, he.2⟩ e he rfl]
    exact hr' e he
  rintro ⟨⟨hws, hr⟩, hes, hr'⟩
  refine ⟨⟨hws, hes, fun e he e' he' heq => ?_⟩, hr, fun e he => ?_⟩
  all_goals have hroute' := hr' _ ‹_›
  all_goals split at hroute'
  · cases hroute'
  · next hnot => exact hnot (heq ▸ he.1)
  · cases hroute'
  · exact hroute'

theorem removable_left (h : n.removable (ws ++ entries) = true) : n.removable ws = true := by
  have hend : (n.eraseRoutes ws).endpoint = n.endpoint :=
    congrArg (·.2.1) (steady_eraseRoutes n ws).1
  exact ((removable_append hend (route_eraseRoutes n ws)).mp h).1

theorem removeRoute_ok_iff : (∃ m, n.removeRoute entry = .ok m) ↔ n.removable [entry] = true := by
  unfold removeRoute removable endpoint route
  cases hp : n.peers.lookup entry.link with
  | none => simp [hp]
  | some p => cases hr : p.pft.lookup entry.stream <;> simp [hp, hr]

theorem removeRoutes_ok_iff :
    (∃ m, n.removeRoutes entries = .ok m) ↔ n.removable entries = true := by
  induction entries generalizing n with
  | nil => exact iff_of_true ⟨n, rfl⟩ rfl
  | cons entry rest ih =>
    have happend := @removable_append n (n.eraseRoute entry) [entry] rest
      (funext fun _ => endpoint_eraseRoute) fun link stream => by
        rw [route_eraseRoute]
        simp only [List.mem_singleton]
    rw [show entry :: rest = [entry] ++ rest from rfl, happend, ← removeRoute_ok_iff, ← ih]
    constructor
    · rintro ⟨n', h⟩
      obtain ⟨m, hm, h⟩ := except_bind_eq_ok.mp h
      exact ⟨⟨m, hm⟩, n', removeRoute_ok hm ▸ h⟩
    · rintro ⟨⟨m, hm⟩, n', h⟩
      exact ⟨n', except_bind_eq_ok.mpr ⟨m, hm, removeRoute_ok hm ▸ h⟩⟩

/-- The forwarding entries that a visa lists. -/
def streams (n : Node) (v : VisaId) : List ForwardingEntry :=
  ((n.visas.table.lookup v).map (·.streams)).getD []

theorem streams_insert {visa : Visa} (hnew : visa.streams = []) :
    (n.modifyVisas (·.insert v visa)).streams = Function.update n.streams v [] := by
  funext u
  simp only [streams, modifyVisas, VisaTable.insert, Table.lookup_insert, Function.update_apply]
  split
  · exact hnew
  · rfl

theorem revokeNoRebuild_ok_iff :
    (∃ r, n.revokeNoRebuild v = .ok r) ↔ n.removable (n.streams v) = true := by
  have herase : (n.modifyVisas (·.erase v)).removable = n.removable := removable_congr rfl rfl
  rw [← herase, ← removeRoutes_ok_iff, streams, revokeNoRebuild]
  cases n.visas.table.lookup v with
  | none => exact iff_of_true ⟨_, rfl⟩ ⟨_, rfl⟩
  | some visa =>
    constructor
    · rintro ⟨r, h⟩
      obtain ⟨m, hm, -⟩ := except_map_eq_ok.mp h
      exact ⟨m, hm⟩
    · rintro ⟨m, hm⟩
      exact ⟨_, except_map_eq_ok.mpr ⟨m, hm, rfl⟩⟩

theorem revokeNoRebuild_withdrawn (h : n.revokeNoRebuild v = .ok (m, ws)) : ws = n.streams v := by
  rw [streams]
  cases hget : n.visas.table.lookup v <;> rw [revokeNoRebuild, hget] at h
  · cases h
    rfl
  · obtain ⟨_, -, heq⟩ := except_map_eq_ok.mp h
    cases heq
    rfl

theorem Revoked.streams (h : Revoked n m [v] ws es) : m.streams = Function.update n.streams v [] := by
  funext u
  rw [Node.streams, h.table, Function.update_apply]
  simp only [List.mem_singleton]
  split <;> rfl

/-- After one visa has been revoked, the others can be if all of them could. -/
theorem removable_revoked (h : n.revokeNoRebuild v = .ok (m, ws)) :
    n.removable (n.streams v ++ entries) = true ↔ m.removable entries = true := by
  have hrev := revokeNoRebuild_ok h
  rw [revokeNoRebuild_withdrawn h] at hrev
  rw [removable_append hrev.endpoint hrev.route]
  exact and_iff_right (revokeNoRebuild_ok_iff.mp ⟨_, h⟩)

theorem revokeAll_ok_iff :
    (∃ r, n.revokeAll vs = .ok r) ↔
      n.removable (withdrawnBy n.streams (vs.map .revokeVisaId)) = true := by
  induction vs generalizing n with
  | nil => exact iff_of_true ⟨_, rfl⟩ rfl
  | cons v rest ih =>
    rw [List.map_cons, withdrawnBy, revokeAll]
    cases hm : n.revokeNoRebuild v with
    | error e =>
      refine iff_of_false (by rintro ⟨r, ⟨⟩⟩) fun hrem => ?_
      obtain ⟨r, hr⟩ := revokeNoRebuild_ok_iff.mpr (removable_left hrem)
      cases hm.symm.trans hr
    | ok r =>
      rw [removable_revoked hm, ← (revokeNoRebuild_ok hm).streams, ← ih]
      constructor
      · rintro ⟨r', h⟩
        obtain ⟨r'', h, -⟩ := except_map_eq_ok.mp h
        exact ⟨r'', h⟩
      · rintro ⟨r', h⟩
        exact ⟨_, except_map_eq_ok.mpr ⟨r', h, rfl⟩⟩

/-! ## Withdrawing streams -/

/-- The messages that `withdraw_streams` sends. -/
def withdrawals (n : Node) (excluded : Option LinkId) (entries : List ForwardingEntry) :
    List Event :=
  entries.filterMap fun e =>
    if excluded = some e.link then none
    else (n.endpoint e.link).map fun p => .sent e.link p.serial (.streamIdWithdrawal e.stream)

theorem withdrawStreams_eq (n : Node) (excluded : Option LinkId) (entries : List ForwardingEntry) :
    n.withdrawStreams excluded entries =
      { n with events := n.events ++ n.withdrawals excluded entries } := by
  induction entries generalizing n with
  | nil => simp only [withdrawStreams, withdrawals, List.filterMap_nil, List.append_nil]
  | cons e rest ih =>
    simp only [withdrawStreams, withdrawals, List.filterMap_cons]
    split
    · exact ih n
    rw [ih]
    cases hp : n.endpoint e.link with
    | none =>
      rw [send_of_none hp]
      rfl
    | some p =>
      rw [send_of_some hp]
      simp only [log, Option.map_some, withdrawals, List.append_assoc, List.cons_append,
        List.nil_append]
      rfl

theorem mem_withdrawals :
    e ∈ n.withdrawals excluded entries ↔
      ∃ f ∈ entries, excluded ≠ some f.link ∧ ∃ p, n.endpoint f.link = some p ∧
        e = .sent f.link p.serial (.streamIdWithdrawal f.stream) := by
  simp only [withdrawals, List.mem_filterMap]
  constructor
  · rintro ⟨f, hf, he⟩
    split at he
    · cases he
    · next hex =>
      obtain ⟨p, hp, rfl⟩ := Option.map_eq_some_iff.mp he
      exact ⟨f, hf, hex, p, hp, rfl⟩
  · rintro ⟨f, hf, hex, p, hp, rfl⟩
    refine ⟨f, hf, ?_⟩
    rw [if_neg hex, hp]
    rfl

theorem Revoked.withdrawStreams (h : Revoked n m vs ws []) (excluded : Option LinkId) :
    Revoked n (m.withdrawStreams excluded ws) vs ws (n.withdrawals excluded ws) := by
  rw [withdrawStreams_eq]
  exact { h with
    events := by
      rw [h.events, List.append_nil]
      simp only [withdrawals, h.endpoint]
    told := fun e he => by
      obtain ⟨f, -, -, p, -, rfl⟩ := mem_withdrawals.mp he
      exact ⟨_, _, _, rfl⟩ }

/-! ## Handlers that leave routes alone -/

/-- The links, their routes and the visas are the same, and no stream was told, withdrawn or
    given up. -/
structure Frame (n n' : Node) : Prop where
  now : n'.now = n.now
  endpoint : n'.endpoint = n.endpoint
  route : n'.route = n.route
  visas : n'.visas = n.visas
  nextSerial : n'.nextSerial = n.nextSerial
  events : Grown (·.movesStream = false) n.events n'.events

theorem Frame.refl (n : Node) : Frame n n where
  now := rfl
  endpoint := rfl
  route := rfl
  visas := rfl
  nextSerial := rfl
  events := .refl _

theorem Frame.trans (h : Frame n m) (h' : Frame m n') : Frame n n' where
  now := h'.now.trans h.now
  endpoint := h'.endpoint.trans h.endpoint
  route := h'.route.trans h.route
  visas := h'.visas.trans h.visas
  nextSerial := h'.nextSerial.trans h.nextSerial
  events := h.events.trans h'.events

theorem Frame.serial (h : Frame n n') : n'.serial = n.serial := serial_congr h.endpoint

theorem Frame.serial_eq {p : PeerState} (h : Frame n m) (hp : n.peers.lookup link = some p) :
    m.serial link = some p.serial := by
  rw [h.serial]
  exact serial_eq_some hp

theorem Frame.modifyPeer (he : ∀ p, (f p).endpoint = p.endpoint := by exact fun _ => rfl)
    (hr : ∀ p, (f p).pft = p.pft := by exact fun _ => rfl) : Frame n (n.modifyPeer link f) where
  now := rfl
  endpoint := funext fun _ => endpoint_modifyPeer he
  route := funext fun _ => funext fun _ => route_modifyPeer hr
  visas := rfl
  nextSerial := rfl
  events := .refl _

theorem Frame.setBindState (n : Node) (link : LinkId) (txn : TxnId) (st : BindRequestState) :
    Frame n (n.setBindState link txn st) :=
  .modifyPeer

theorem Frame.eraseBindState (n : Node) (link : LinkId) (txn : TxnId) :
    Frame n (n.eraseBindState link txn) :=
  .modifyPeer

theorem Frame.setAwaiting (n : Node) (link : LinkId) (txn : TxnHandle) (origin : LinkId × TxnId) :
    Frame n (n.setAwaiting link txn origin) :=
  .modifyPeer

theorem Frame.eraseAwaiting (n : Node) (link : LinkId) (txn : TxnHandle) :
    Frame n (n.eraseAwaiting link txn) :=
  .modifyPeer

theorem Frame.bumpTxn (n : Node) (link : LinkId) : Frame n (n.bumpTxn link) :=
  .modifyPeer

theorem Frame.setTasks (n : Node) (ts : List VisaTask) : Frame n (n.setTasks ts) :=
  { Frame.refl n with }

theorem Frame.log (n : Node) (h : e.movesStream = false) : Frame n (n.log e) :=
  { Frame.refl n with events := .one h }

theorem Frame.send (n : Node) (link : LinkId) (h : message.movesStream = false) :
    Frame n (n.send link message) := by
  cases hp : n.endpoint link with
  | none =>
    rw [send_of_none hp]
    exact .refl n
  | some p =>
    rw [send_of_some hp]
    exact .log n h

theorem Frame.modifyVisas (h : Frame n m) (f : VisaTable → VisaTable) :
    Frame (n.modifyVisas f) (m.modifyVisas f) :=
  { h with visas := congrArg f h.visas }

/-! ## The bind state machine -/

theorem sendBindError_frame (n : Node) (link : LinkId) (p : PeerState) (txn : TxnId)
    (reason : String) : Frame n (n.sendBindError link p txn reason) := by
  unfold sendBindError
  split
  · exact .send n link rfl
  · exact .send n link rfl
  all_goals exact .refl n

theorem bindReject_ok (h : n.bindReject link txn reason = .ok n') :
    (n.peers.lookup link = none ∧ n' = n) ∨
    ∃ p, n.peers.lookup link = some p ∧ n.lingers link txn = false ∧
      n' = (n.eraseBindState link txn).sendBindError link p txn reason := by
  unfold bindReject at h
  split at h
  · next hp =>
    cases h
    exact .inl ⟨hp, rfl⟩
  next p hp =>
  split at h
  · cases h
  · next hl =>
    cases h
    exact .inr ⟨p, hp, by simpa using hl, rfl⟩

theorem bindReject_frame (h : n.bindReject link txn reason = .ok n') : Frame n n' := by
  rcases bindReject_ok h with ⟨-, rfl⟩ | ⟨p, -, -, rfl⟩
  · exact .refl _
  · exact (Frame.eraseBindState ..).trans (sendBindError_frame ..)

theorem lookup_bumpTxn_eq_none :
    (n.bumpTxn egress).peers.lookup link = none ↔ n.peers.lookup link = none := by
  rw [bumpTxn, lookup_modifyPeer]
  split <;> simp

theorem requestNextHop_ok (h : n.requestNextHop link txn v egress egressPeer request = .ok n') :
    n.isOpen ⟨egressPeer.serial, egressPeer.nextFree⟩ = false ∧
    ((n.peers.lookup link = none ∧ n' = n.bumpTxn egress) ∨
      ((n.peers.lookup link).isSome ∧
        n' = (((n.bumpTxn egress).setBindState link txn
          (.awaitingNextHopBind v egress ⟨egressPeer.serial, egressPeer.nextFree⟩)).setAwaiting
            egress ⟨egressPeer.serial, egressPeer.nextFree⟩ (link, txn)).send egress
              (request egressPeer.nextFree))) := by
  unfold requestNextHop at h
  dsimp only at h
  split at h
  · cases h
  next hopen =>
  refine ⟨by simpa using hopen, ?_⟩
  split at h
  · next hp =>
    cases h
    exact .inl ⟨lookup_bumpTxn_eq_none.mp hp, rfl⟩
  · next p hp =>
    cases h
    refine .inr ⟨Option.ne_none_iff_isSome.mp fun hnone => ?_, rfl⟩
    rw [lookup_bumpTxn_eq_none.mpr hnone] at hp
    cases hp

theorem requestNextHop_frame (hreq : ∀ id, (request id).movesStream = false)
    (h : n.requestNextHop link txn v egress egressPeer request = .ok n') : Frame n n' := by
  obtain ⟨-, ⟨-, rfl⟩ | ⟨-, rfl⟩⟩ := requestNextHop_ok h
  · exact .bumpTxn ..
  · exact (Frame.bumpTxn ..).trans ((Frame.setBindState ..).trans
      ((Frame.setAwaiting ..).trans (.send _ _ (hreq _))))

/-- A granted visa ends in a rejection or in a next-hop request on a link of an adapter or a
    node. -/
theorem requestedVisaGranted_ok (h : n.requestedVisaGranted link txn v = .ok n') :
    n.bindReject link txn "policy error" = .ok n' ∨
    ∃ egress egressPeer visa request, n.getEgressLinkForVisa v = .ok egress ∧
      n.peers.lookup egress = some egressPeer ∧ n.visas.table.lookup v = some visa ∧
      (∀ id, (request id).movesStream = false ∧ (request id).answers = none) ∧
      n.requestNextHop link txn v egress egressPeer request = .ok n' := by
  unfold requestedVisaGranted at h
  split at h
  · exact .inl h
  next egress hegress =>
  obtain ⟨visa, hvisa⟩ : ∃ visa, n.visas.table.lookup v = some visa := by
    unfold getEgressLinkForVisa getVisaNextHopAddr at hegress
    cases hv : n.visas.table.lookup v with
    | none =>
      rw [hv] at hegress
      cases hegress
    | some visa => exact ⟨visa, rfl⟩
  split at h
  · exact .inl h
  next egressPeer hp =>
  split at h
  · exact .inr ⟨egress, egressPeer, visa, _, hegress, hp, hvisa, fun _ => ⟨rfl, rfl⟩, h⟩
  · rw [hvisa] at h
    dsimp only at h
    split at h
    · cases h
    · exact .inr ⟨egress, egressPeer, visa, _, hegress, hp, hvisa, fun _ => ⟨rfl, rfl⟩, h⟩
  all_goals exact .inl h

theorem requestedVisaGranted_frame (h : n.requestedVisaGranted link txn v = .ok n') :
    Frame n n' := by
  rcases requestedVisaGranted_ok h with h | ⟨egress, egressPeer, visa, request, -, -, -, hreq, h⟩
  · exact bindReject_frame h
  · exact requestNextHop_frame (fun id => (hreq id).1) h

theorem spawnTask_frame (n : Node) (link : LinkId) (p : PeerState) (txn : TxnId)
    (query : VisaQuery) (st : BindRequestState) : Frame n (n.spawnTask link p txn query st) :=
  (Frame.setBindState ..).trans (.setTasks ..)

section Requests

variable {body pkt : Bytes} {len : Nat}

/-- A bind request is rejected, granted under a visa that is there or passed on to the visa
    service; it is rejected unless the adapter has the source address. -/
theorem bindActorAddress_ok (h : n.bindActorAddress sums lookup link txn body = .ok n') :
    (n.peers.lookup link = none ∧ n' = n) ∨ n.bindReject link txn "policy error" = .ok n' ∨
    ∃ p f, n.peers.lookup link = some p ∧ p.hasActorAddress f.srcAddress = true ∧
      classifyWithOptions sums { ignoreTruncatedPackets := true } body = some (f, .ok .ok) ∧
      (n' = n.spawnTask link p txn (.visaRequest f) .awaitingVisaResponse ∨
        ∃ v, lookup.findMatch n.visas.lookupTable f = some v ∧
          n.requestedVisaGranted link txn v = .ok n') := by
  unfold bindActorAddress at h
  split at h
  · cases h
  · next f hf =>
    split at h
    · next hp =>
      cases h
      exact .inl ⟨hp, rfl⟩
    next p hp =>
    split at h
    · exact .inr (.inl h)
    next hown =>
    refine .inr ?_
    have hown : p.hasActorAddress f.srcAddress = true := by simpa using hown
    split at h
    · cases h
      exact .inr ⟨p, f, hp, hown, hf, .inl rfl⟩
    next v hv =>
    split at h
    · exact .inr ⟨p, f, hp, hown, hf, .inr ⟨v, hv, h⟩⟩
    · cases h
      exact .inr ⟨p, f, hp, hown, hf, .inl rfl⟩
    · exact .inl h
  · exact .inr (.inl h)

theorem bindActorAddress_frame
    (h : n.bindActorAddress sums lookup link txn body = .ok n') : Frame n n' := by
  rcases bindActorAddress_ok h with ⟨-, rfl⟩ | h | ⟨p, f, -, -, -, rfl | ⟨v, -, h⟩⟩
  · exact .refl _
  · exact bindReject_frame h
  · exact spawnTask_frame ..
  · exact requestedVisaGranted_frame h

theorem handleBindActorAddressRequest_ok
    (h : n.handleBindActorAddressRequest sums lookup link txn len pkt = .ok n') :
    n' = n ∨ ∃ p, n.peers.lookup link = some p ∧ p.peerType link = .adapter ∧
      (n.log (.requested link p.serial txn)).bindActorAddress sums lookup link txn (pkt.take len) =
        .ok n' := by
  unfold handleBindActorAddressRequest at h
  split at h
  · cases h
    exact .inl rfl
  split at h
  · cases h
    exact .inl rfl
  next p hp =>
  split at h
  · cases h
    exact .inl rfl
  · next ht => exact .inr ⟨p, hp, not_not.mp ht, h⟩

theorem handleBindActorAddressRequest_frame
    (h : n.handleBindActorAddressRequest sums lookup link txn len pkt = .ok n') : Frame n n' := by
  rcases handleBindActorAddressRequest_ok h with rfl | ⟨p, -, -, h⟩
  · exact .refl _
  · exact (Frame.log n rfl).trans (bindActorAddress_frame h)

theorem handleStreamIdRequest_ok (h : n.handleStreamIdRequest link txn v = .ok n') :
    n' = n ∨ ∃ p, n.peers.lookup link = some p ∧ p.peerType link = .node ∧
      (n' = n.spawnTask link p txn (.visaById v) (.awaitingVisaPush v) ∨
        n.requestedVisaGranted link txn v = .ok n') := by
  unfold handleStreamIdRequest at h
  split at h
  · cases h
    exact .inl rfl
  next p hp =>
  split at h
  · cases h
    exact .inl rfl
  next ht =>
  refine .inr ⟨p, hp, not_not.mp ht, ?_⟩
  rw [requestStream, hp] at h
  dsimp only at h
  split at h
  · exact .inr h
  · cases h
    exact .inl rfl

theorem handleStreamIdRequest_frame (h : n.handleStreamIdRequest link txn v = .ok n') :
    Frame n n' := by
  rcases handleStreamIdRequest_ok h with rfl | ⟨p, -, -, rfl | h⟩
  · exact .refl _
  · exact spawnTask_frame ..
  · exact requestedVisaGranted_frame h

end Requests

/-! ## Answers of the next hop -/

section Answers

variable {egressTether : StreamId}

theorem lookup_eraseAwaiting_eq_none :
    (n.eraseAwaiting egress egressTxn).peers.lookup link = none ↔ n.peers.lookup link = none := by
  rw [eraseAwaiting, lookup_modifyPeer]
  split <;> simp

theorem resolveNextHopBindOriginator_ok
    (h : n.resolveNextHopBindOriginator egress egressTxn = .ok (some (n', link, txn))) :
    n.awaiting egress egressTxn = some (link, txn) ∧ n' = n.eraseAwaiting egress egressTxn ∧
    (n.peers.lookup link = none ∨
      ∃ v, n.bindState link txn = some (.awaitingNextHopBind v egress egressTxn)) := by
  unfold resolveNextHopBindOriginator at h
  split at h
  · cases h
  next link' txn' hget =>
  dsimp only at h
  split at h
  · next hp =>
    cases h
    exact ⟨hget, rfl, .inl (lookup_eraseAwaiting_eq_none.mp hp)⟩
  split at h
  · next hst =>
    split at h
    · next heq =>
      cases h
      obtain ⟨rfl, rfl⟩ := heq
      rw [bindState_eraseAwaiting] at hst
      exact ⟨hget, rfl, .inr ⟨_, hst⟩⟩
    · cases h
  · cases h

/-- A route is installed in a vacant slot, or the request is rejected. On a link that is neither
    of an adapter nor of a node, the slot has been linked into the visa by then. -/
theorem installRoute_ok {p : PeerState} {visa : Visa} {pep : PftPep}
    (h : n.installRoute link p txn visa pep key = .ok n') :
    (∃ message, Message.Success txn key visa pep.visaId (p.peerType link) message ∧
      n' = n.fillSlot ⟨link, key⟩ pep message) ∨
    ((p.peerType link = .dock ∨ p.peerType link = .unknown) ∧
      (n.linkSlot pep.visaId ⟨link, key⟩).bindReject link txn "policy error" = .ok n') := by
  unfold installRoute at h
  split at h
  · next ht =>
    cases h
    exact .inl ⟨_, ht ▸ .node, rfl⟩
  · next ht =>
    split at h
    · cases h
    · next tc htc =>
      cases h
      exact .inl ⟨_, ht ▸ .adapter htc, rfl⟩
  · next ht => exact .inr ⟨.inl ht, h⟩
  · next ht => exact .inr ⟨.inr ht, h⟩

theorem requestedTetherGranted_ok
    (h : n.requestedTetherGranted link txn egressTether key = .ok n') :
    ((n.peers.lookup link = none ∨
      ∀ v egress egressTxn, n.bindState link txn ≠ some (.awaitingNextHopBind v egress egressTxn)) ∧
      n' = n) ∨
    ∃ p v egress egressTxn, n.peers.lookup link = some p ∧
      n.bindState link txn = some (.awaitingNextHopBind v egress egressTxn) ∧
      n.awaiting egress egressTxn = none ∧
      ((∃ reason, (n.eraseBindState link txn).bindReject link txn reason = .ok n') ∨
        ∃ visa, n.visas.table.lookup v = some visa ∧ n.route link key = none ∧
          (n.eraseBindState link txn).installRoute link p txn visa ⟨⟨egress, egressTether⟩, v⟩ key =
            .ok n') := by
  unfold requestedTetherGranted at h
  split at h
  · next hp =>
    cases h
    exact .inl ⟨.inl hp, rfl⟩
  next p hp =>
  split at h
  · next v egress egressTxn hst =>
    split at h
    · cases h
    next haw =>
    have haw : n.awaiting egress egressTxn = none := by simpa using haw
    refine .inr ⟨p, v, egress, egressTxn, hp, hst, haw, ?_⟩
    dsimp only at h
    split at h
    · exact .inl ⟨_, h⟩
    split at h
    · cases h
    next hkey =>
    split at h
    · exact .inl ⟨_, h⟩
    next visa hvisa =>
    refine .inr ⟨visa, hvisa, ?_, h⟩
    have hvacant := fun hs => hkey (.inr (.inr hs))
    simpa using hvacant
  · next hno =>
    cases h
    exact .inl ⟨.inr hno, rfl⟩

theorem denyTether_frame (h : n.denyTether egress egressTxn reason = .ok n') : Frame n n' := by
  obtain ⟨_ | ⟨m, link, txn⟩, hm, h⟩ := except_bind_eq_ok.mp h
  · cases h
    exact .refl _
  · obtain ⟨-, rfl, -⟩ := resolveNextHopBindOriginator_ok hm
    exact (Frame.eraseAwaiting ..).trans (bindReject_frame h)

end Answers

/-! ## Effects of actions -/

/-- The visa that an action inserts into the table. -/
def inserts (n : Node) : Action → Option VsVisa
  | .grantVisa visa => some visa
  | .visaRequestAnswered _ (.allowed visa) => some visa
  | .visaByIdAnswered i visas =>
    match n.tasks[i]? with
    | some ⟨_, _, _, .visaById v⟩ => visas.bind (·.find? (·.issuerId = v))
    | _ => none
  | _ => none

end Node

/-- The link whose addresses an action changes, and the change. -/
def Action.readdresses : Action → Option (LinkId × (PeerState → PeerState))
  | .assignAaaAddress link addr => some (link, fun p => { p with aaaAddress := some addr })
  | .releaseAaaAddress link => some (link, fun p => { p with aaaAddress := none })
  | .authorized link addr => some (link, fun p => { p with actorAddresses := [addr] })
  | .deregisterActorAddresses link => some (link, fun p => { p with actorAddresses := [] })
  | _ => none

/-- The visa task that an action answers. -/
def Action.finishes : Action → Option Nat
  | .visaRequestAnswered i _ => some i
  | .visaByIdAnswered i _ => some i
  | _ => none

namespace Node

variable {p : PeerState} {other : LinkId}

/-- The node once the peer of a link has given up a stream and its route is gone. -/
def unlinked (n : Node) (link : LinkId) (p : PeerState) (stream : StreamId) (pep : PftPep) : Node :=
  ((n.log (.unbound link p.serial stream)).eraseRoute ⟨link, stream⟩).modifyVisas
    (·.modify pep.visaId (·.unlinkForwardingEntry pep.nextHop))

theorem endpoint_unlinked {stream : StreamId} {pep : PftPep} :
    (n.unlinked link p stream pep).endpoint = n.endpoint :=
  funext fun _ => endpoint_eraseRoute

theorem route_unlinked {stream s : StreamId} {pep : PftPep} :
    (n.unlinked link p stream pep).route other s =
      if (⟨other, s⟩ : ForwardingEntry) = ⟨link, stream⟩ then none else n.route other s :=
  route_eraseRoute

/-- Everything that an action can do to the routes of a node. -/
inductive RouteEffect (n : Node) : Action → Node → Prop where
  | frame {a : Action} {n' : Node} : Frame n n' → RouteEffect n a n'
  | ticked {ms : Nat} : RouteEffect n (.tick ms) { n with now := n.now + ms }
  | addressed {a : Action} {link : LinkId} {f : PeerState → PeerState} {p : PeerState} :
      a.readdresses = some (link, f) → n.peers.lookup link = some p → p.linkType = .nodeToAdapter →
      (∀ q, (f q).serial = q.serial ∧ (f q).linkType = q.linkType ∧ (f q).pft = q.pft ∧
        (f q).nodeState = q.nodeState) →
      RouteEffect n a (n.modifyPeer link f)
  | added {link : LinkId} {linkType : LinkType} :
      n.peers.lookup link = none → linkType = .nodeToAdapter ∨ linkType = .nodeToNode →
      RouteEffect n (.startTether link linkType) (n.openLink link linkType)
  | dropped {link : LinkId} {m : Node} {ws : List ForwardingEntry} :
      Revoked n m (n.boundTo link) ws (n.withdrawals (some link) ws) →
      RouteEffect n (.dropPeer link) (m.erasePeer link)
  | revoked {v : VisaId} {n' : Node} {ws : List ForwardingEntry} :
      Revoked n n' [v] ws (n.withdrawals none ws) → RouteEffect n (.revokeVisa v) n'
  | expired {n' : Node} {ws : List ForwardingEntry} :
      Revoked n n' n.expired ws [] → RouteEffect n .handleExpirations n'
  | inserted {a : Action} {visa : VsVisa} {dockPep : DockPep} {n' : Node} :
      n.inserts a = some visa → visa.dockPep = some dockPep →
      Frame (n.modifyVisas (·.insert visa.issuerId (visa.stored dockPep))) n' → RouteEffect n a n'
  | installed {egress link : LinkId} {txnId txn : TxnId} {egressTxn : TxnHandle}
      {stream key : StreamId} {pep : PftPep} {p : PeerState} {visa : Visa} {message : Message}
      {m : Node} :
      n.awaiting egress egressTxn = some (link, txn) →
      n.bindState link txn = some (.awaitingNextHopBind pep.visaId egress egressTxn) →
      pep.nextHop = ⟨egress, stream⟩ → n.peers.lookup link = some p → n.route link key = none →
      n.visas.table.lookup pep.visaId = some visa → Frame n m →
      Message.Success txn key visa pep.visaId (p.peerType link) message →
      RouteEffect n (.tetherResponse egress txnId (.success stream) key)
        (m.fillSlot ⟨link, key⟩ pep message)
  | linked {a : Action} {link : LinkId} {txn : TxnId} {key : StreamId} {v : VisaId}
      {st : BindRequestState} {p : PeerState} {n' : Node} :
      n.bindState link txn = some st → n.peers.lookup link = some p →
      p.peerType link = .dock ∨ p.peerType link = .unknown →
      Frame (n.linkSlot v ⟨link, key⟩) n' → RouteEffect n a n'
  | unbound {link : LinkId} {stream : StreamId} {p : PeerState} {pep : PftPep} {n' : Node} :
      n.peers.lookup link = some p → n.route link stream = some pep →
      Frame (n.unlinked link p stream pep) n' →
      RouteEffect n (.unbindIndication link stream) n'
  /-- The peer gives up a stream that has no route. -/
  | ignored {link : LinkId} {stream : StreamId} {p : PeerState} :
      RouteEffect n (.unbindIndication link stream) (n.log (.unbound link p.serial stream))

variable {a : Action} {visa : VsVisa} {i σ : Nat}

theorem modifyTether_ok {P : PeerState → Bool} (h : n.modifyTether link P f = .ok n') :
    ∃ p, n.peers.lookup link = some p ∧ p.linkType = .nodeToAdapter ∧ P p = true ∧
      n' = n.modifyPeer link f := by
  unfold modifyTether at h
  split at h
  · cases h
  next p hp =>
  split at h
  · next hc =>
    cases h
    exact ⟨p, hp, hc.1, hc.2, rfl⟩
  · cases h

theorem addPeer_ok {linkType : LinkType} (h : n.addPeer link linkType = .ok n') :
    n.peers.lookup link = none ∧ (linkType = .nodeToAdapter ∨ linkType = .nodeToNode) ∧
    n' = n.openLink link linkType := by
  unfold addPeer at h
  split at h
  · cases h
  next hc =>
  cases h
  refine ⟨?_, ?_, rfl⟩
  · simpa using fun hs => hc (.inr (.inr (.inl hs)))
  · by_contra hne
    exact hc (.inr (.inr (.inr (not_or.mp hne))))

theorem insertVisa_ok (h : n.insertVisa visa = .ok n') :
    ∃ dockPep, visa.dockPep = some dockPep ∧
      n' = n.modifyVisas (·.insert visa.issuerId (visa.stored dockPep)) := by
  unfold insertVisa at h
  split at h
  · cases h
  split at h
  · cases h
  · next dockPep hd =>
    cases h
    exact ⟨dockPep, hd, rfl⟩

/-- Answering a task takes it off the list; then its request is granted or rejected. -/
theorem handle_finishes {r : Except Halt Node} (hi : a.finishes = some i)
    (h : n.handle sums lookup a = r) :
    r = .error .notOffered ∨ ∃ task, n.tasks[i]? = some task ∧
      ((∃ visa, n.inserts a = some visa ∧ ((n.setTasks (n.tasks.eraseIdx i)).insertVisa visa).bind
        (fun n => n.requestedVisaGranted task.link task.txn visa.issuerId) = r) ∨
      ∃ reason, (n.setTasks (n.tasks.eraseIdx i)).bindReject task.link task.txn reason = r) := by
  cases a with
  | visaRequestAnswered i decision =>
    cases hi
    rw [handle, finishTask] at h
    split at h
    · exact .inl h.symm
    next task htask =>
    split at h
    · refine .inr ⟨task, htask, ?_⟩
      cases decision with
      | allowed visa => exact .inl ⟨visa, rfl, h⟩
      | denied | failed => exact .inr ⟨_, h⟩
    · exact .inl h.symm
  | visaByIdAnswered i visas =>
    cases hi
    rw [handle, finishTask] at h
    split at h
    · exact .inl h.symm
    next task htask =>
    split at h
    · exact .inl h.symm
    next v hq =>
    refine .inr ⟨task, htask, ?_⟩
    unfold visaByIdAnswered at h
    split at h
    · next visa hvisa =>
      obtain ⟨visas', -, hfind⟩ := Option.bind_eq_some_iff.mp hvisa
      have hid : visa.issuerId = v := by simpa using List.find?_some hfind
      subst hid
      refine .inl ⟨visa, ?_, h⟩
      obtain ⟨link, serial, txn, query⟩ := task
      cases hq
      simp only [inserts, htask]
      exact hvisa
    · exact .inr ⟨_, h⟩
  | _ => cases hi

theorem insertVisa_granted {ts : List VisaTask} (ha : n.inserts a = some visa)
    (h : ((n.setTasks ts).insertVisa visa).bind
      (fun n => n.requestedVisaGranted link txn visa.issuerId) = .ok n') :
    RouteEffect n a n' := by
  obtain ⟨m, hm, h⟩ := except_bind_eq_ok.mp h
  obtain ⟨dockPep, hd, rfl⟩ := insertVisa_ok hm
  refine .inserted ha hd ((Frame.setTasks _ ts).trans ?_)
  exact requestedVisaGranted_frame h

variable {stream : StreamId} {pep : PftPep}

/-- The answer of the next hop either changes no route, or installs one on the link of the request
    it was awaited for, or links the slot and stops there. -/
theorem installTether_ok (h : n.installTether egress egressTxn stream key = .ok n') :
    Frame n n' ∨
    (∃ link txn pep p visa message m, n.awaiting egress egressTxn = some (link, txn) ∧
      n.bindState link txn = some (.awaitingNextHopBind pep.visaId egress egressTxn) ∧
      pep.nextHop = ⟨egress, stream⟩ ∧ n.peers.lookup link = some p ∧ n.route link key = none ∧
      n.visas.table.lookup pep.visaId = some visa ∧ Frame n m ∧
      Message.Success txn key visa pep.visaId (p.peerType link) message ∧
      n' = m.fillSlot ⟨link, key⟩ pep message) ∨
    ∃ link txn v st p, n.bindState link txn = some st ∧ n.peers.lookup link = some p ∧
      (p.peerType link = .dock ∨ p.peerType link = .unknown) ∧ Frame (n.linkSlot v ⟨link, key⟩) n' := by
  obtain ⟨_ | ⟨m, link, txn⟩, hm, h⟩ := except_bind_eq_ok.mp h
  · cases h
    exact .inl (.refl _)
  obtain ⟨haw, rfl, horigin⟩ := resolveNextHopBindOriginator_ok hm
  have hframe := Frame.eraseAwaiting n egress egressTxn
  rcases requestedTetherGranted_ok h with ⟨-, rfl⟩ | ⟨p, v, egress', egressTxn', hp, hst, -, h⟩
  · exact .inl hframe
  have hp' : ∃ q, n.peers.lookup link = some q ∧ q.linkType = p.linkType := by
    rw [eraseAwaiting, lookup_modifyPeer] at hp
    split at hp
    · obtain ⟨q, hq, rfl⟩ := Option.map_eq_some_iff.mp hp
      exact ⟨q, hq, rfl⟩
    · exact ⟨p, hp, rfl⟩
  obtain ⟨q, hq, hty⟩ := hp'
  rw [bindState_eraseAwaiting] at hst
  -- the answered request is the one whose state was just looked up
  rcases horigin with hnone | ⟨v', hst'⟩
  · rw [hnone] at hq
    cases hq
  rw [hst] at hst'
  cases hst'
  have hframe := hframe.trans (Frame.eraseBindState _ link txn)
  rcases h with ⟨reason, h⟩ | ⟨visa, hvisa, hvacant, h⟩
  · exact .inl (hframe.trans (bindReject_frame h))
  rw [route_eraseAwaiting] at hvacant
  rcases installRoute_ok h with ⟨message, hsuccess, rfl⟩ | ⟨hdock, h⟩
  · rw [PeerState.peerType, ← hty] at hsuccess
    exact .inr (.inl ⟨link, txn, _, q, visa, message, _, haw, hst, rfl, hq, hvacant, hvisa, hframe,
      hsuccess, rfl⟩)
  · have hlinked : Frame (n.linkSlot v ⟨link, key⟩) n' :=
      (hframe.modifyVisas _).trans (bindReject_frame h)
    refine .inr (.inr ⟨link, txn, v, _, q, hst, hq, ?_, hlinked⟩)
    simpa only [PeerState.peerType, hty] using hdock

theorem installTether_effect {txnId : TxnId}
    (h : n.installTether egress egressTxn stream key = .ok n') :
    RouteEffect n (.tetherResponse egress txnId (.success stream) key) n' := by
  rcases installTether_ok h with hf |
    ⟨link, txn, pep, p, visa, message, m, haw, hst, hhop, hp, hvacant, hvisa, hf, hsuccess, rfl⟩ |
    ⟨link, txn, v, st, p, hst, hp, hty, hf⟩
  · exact .frame hf
  · exact .installed haw hst hhop hp hvacant hvisa hf hsuccess
  · exact .linked hst hp hty hf

theorem unbindStream_of_none (h : n.route link stream = none) : n.unbindStream link stream = n := by
  rw [unbindStream, h]

theorem unbindStream_of_some (h : n.route link stream = some pep) :
    n.unbindStream link stream =
      ((n.eraseRoute ⟨link, stream⟩).modifyVisas
        (·.modify pep.visaId (·.unlinkForwardingEntry pep.nextHop))).send pep.nextHop.link
          (.unbindEgressStream stream) := by
  rw [unbindStream, h]

theorem handleUnbindIndication_effect :
    RouteEffect n (.unbindIndication link stream) (n.handleUnbindIndication link stream) := by
  unfold handleUnbindIndication
  split
  · exact .frame (.refl _)
  next p hp =>
  split
  · cases hr : (n.log (.unbound link p.serial stream)).route link stream with
    | none =>
      rw [unbindStream_of_none hr]
      exact .ignored
    | some pep =>
      rw [unbindStream_of_some hr]
      exact .unbound hp hr (.send _ _ rfl)
  · exact .frame (.refl _)

theorem dropPeer_ok (h : n.dropPeer link = .ok n') :
    ∃ m ws, Revoked n m (n.boundTo link) ws (n.withdrawals (some link) ws) ∧
      n' = m.erasePeer link := by
  obtain ⟨⟨m, withdrawn⟩, hm, rfl⟩ := except_map_eq_ok.mp h
  obtain ⟨⟨m', ws⟩, hm', heq⟩ := except_map_eq_ok.mp hm
  cases heq
  refine ⟨_, _, Revoked.withdrawStreams ?_ _, rfl⟩
  split
  · exact revokeAll_ok hm'
  · exact (revokeAll_ok hm').rebuildLookup

theorem handleRevocation_ok (h : n.handleRevocation v = .ok n') :
    ∃ ws, Revoked n n' [v] ws (n.withdrawals none ws) := by
  obtain ⟨⟨m, ws⟩, hm, rfl⟩ := except_map_eq_ok.mp h
  exact ⟨ws, (revokeNoRebuild_ok hm).rebuildLookup.withdrawStreams none⟩

theorem route_fillSlot (hs : n.serial link = some σ) :
    (n.fillSlot ⟨link, key⟩ pep message).route other stream =
      if (⟨other, stream⟩ : ForwardingEntry) = ⟨link, key⟩ then some pep else n.route other stream := by
  have hlive : ((n.linkSlot pep.visaId ⟨link, key⟩).peers.lookup link).isSome := by
    obtain ⟨e, he, -⟩ := Option.map_eq_some_iff.mp hs
    obtain ⟨p, hp, -⟩ := endpoint_eq_some.mp he
    exact Option.isSome_iff_exists.mpr ⟨p, hp⟩
  rw [fillSlot, route_send, route_setRoute hlive]
  rfl

/-- Everything an action does to the routes of a node is one of the listed effects. -/
theorem handle_effect (h : n.handle sums lookup a = .ok n') : RouteEffect n a n' := by
  cases a with
  | tick ms =>
    cases h
    exact .ticked
  | startTether link linkType =>
    obtain ⟨hp, hty, rfl⟩ := addPeer_ok h
    exact .added hp hty
  | assignAaaAddress | releaseAaaAddress | authorized | deregisterActorAddresses =>
    obtain ⟨p, hp, hty, -, rfl⟩ := modifyTether_ok h
    exact .addressed rfl hp hty fun _ => ⟨rfl, rfl, rfl, rfl⟩
  | dropPeer link =>
    obtain ⟨m, withdrawn, hrev, rfl⟩ := dropPeer_ok h
    exact .dropped hrev
  | grantVisa visa =>
    obtain ⟨dockPep, hd, rfl⟩ := insertVisa_ok h
    exact .inserted rfl hd (.refl _)
  | revokeVisa v =>
    obtain ⟨ws, hrev⟩ := handleRevocation_ok h
    exact .revoked hrev
  | handleExpirations =>
    obtain ⟨⟨m, withdrawn⟩, hm, rfl⟩ := except_map_eq_ok.mp h
    exact .expired { (revokeAll_ok hm).rebuildLookup with }
  | bindActorAddressRequest link txn len pkt =>
    exact .frame (handleBindActorAddressRequest_frame h)
  | streamIdRequest link txn v => exact .frame (handleStreamIdRequest_frame h)
  | visaRequestAnswered | visaByIdAnswered =>
    rcases handle_finishes rfl h with ⟨⟨⟩⟩ | ⟨task, -, ⟨visa, ha, h⟩ | ⟨reason, h⟩⟩
    · exact insertVisa_granted ha h
    · exact .frame ((Frame.setTasks ..).trans (bindReject_frame h))
  | tetherResponse link txn reply key =>
    simp only [handle, handleTetherResponse] at h
    split at h
    · cases h
      exact .frame (.refl _)
    split at h
    · cases h
      exact .frame (.refl _)
    split at h
    · exact installTether_effect h
    · exact .frame (denyTether_frame h)
    · cases h
      exact .frame (.refl _)
  | unbindIndication link stream =>
    cases h
    exact handleUnbindIndication_effect

theorem RouteEffect.now (h : RouteEffect n a n') (ha : ∀ ms, a ≠ .tick ms) : n'.now = n.now := by
  cases h with
  | frame hf | inserted _ _ hf | linked _ _ _ hf | unbound _ _ hf => exact hf.now
  | ticked => exact absurd rfl (ha _)
  | addressed | added | ignored => rfl
  | dropped hr | revoked hr | expired hr => exact hr.now
  | installed _ _ _ _ _ _ hf => exact (now_send ..).trans hf.now

/-- No peer was told a stream. -/
def Untold (n n' : Node) : Prop := Grown (·.tells = none) n.events n'.events

theorem Frame.untold (h : Frame n n') : Untold n n' := h.events.mono fun _ => Event.tells_of_quiet

theorem Revoked.untold (h : Revoked n m vs ws es) : Untold n m := by
  refine ⟨es, h.events, fun e he => ?_⟩
  obtain ⟨_, _, _, rfl⟩ := h.told e he
  rfl

theorem events_fillSlot (hf : Frame n m) (hp : n.peers.lookup link = some p) :
    (m.fillSlot ⟨link, key⟩ pep message).events = m.events ++ [.sent link p.serial message] := by
  have he : ((m.linkSlot pep.visaId ⟨link, key⟩).setRoute ⟨link, key⟩ pep).endpoint link =
      some p.endpoint := by
    rw [endpoint_setRoute, linkSlot, endpoint_modifyVisas, hf.endpoint]
    exact endpoint_of_lookup hp
  rw [fillSlot, send_of_some he]
  rfl

/-- A stream that a peer is told is a route by then. -/
theorem RouteEffect.events (h : RouteEffect n a n') :
    Grown (fun e => ∀ link stream v, e.tells = some (link, stream, v) →
      ∃ pep, n'.route link stream = some pep ∧ pep.visaId = v) n.events n'.events := by
  have huntold (hu : Untold n n') := hu.mono (q := fun e => ∀ link stream v,
      e.tells = some (link, stream, v) → ∃ pep, n'.route link stream = some pep ∧ pep.visaId = v) <| by
    intro e he link stream v ht
    rw [he] at ht
    cases ht
  cases h with
  | frame hf | inserted _ _ hf | linked _ _ _ hf => exact huntold hf.untold
  | ticked | addressed | added => exact huntold (.refl _)
  | dropped hr | revoked hr | expired hr => exact huntold hr.untold
  | @installed _ link _ _ _ _ key pep p _ message m _ _ _ hp _ _ hf hs =>
    obtain ⟨es, hes, hq⟩ := hf.untold
    refine ⟨es ++ [.sent link p.serial message], ?_, fun x hx other stream v ht => ?_⟩
    · rw [events_fillSlot hf hp, hes, List.append_assoc]
    · rcases List.mem_append.mp hx with hx | hx
      · rw [hq x hx] at ht
        cases ht
      · cases List.mem_singleton.mp hx
        rw [Event.tells, hs.tells] at ht
        cases ht
        exact ⟨pep, by rw [route_fillSlot (hf.serial_eq hp), if_pos rfl], rfl⟩
  | unbound _ _ hf => exact huntold (Grown.trans (.one rfl) hf.untold)
  | ignored => exact huntold (.one rfl)

/-- Who is at the other end of a link is the same as before, unless the link has just come up
    or its addresses have changed. -/
theorem RouteEffect.endpoint {e : Endpoint} (h : RouteEffect n a n')
    (he : n'.endpoint link = some e) :
    n.endpoint link = some e ∨
    (∃ linkType, a = .startTether link linkType ∧ n.peers.lookup link = none ∧
      e.serial = n.nextSerial) ∨
    ∃ f p, a.readdresses = some (link, f) ∧ n.peers.lookup link = some p ∧
      (f p).endpoint = e ∧ e.serial = p.serial ∧ e.linkType = p.linkType := by
  cases h with
  | frame hf | inserted _ _ hf | linked _ _ _ hf => exact .inl (hf.endpoint ▸ he)
  | ticked | ignored => exact .inl he
  | @addressed _ other f p ha hp hty hf =>
    rw [Node.endpoint, lookup_modifyPeer] at he
    split at he
    · next heq =>
      rw [heq, hp] at he
      cases he
      exact .inr (.inr ⟨f, p, heq ▸ ha, heq ▸ hp, rfl, (hf p).1, (hf p).2.1⟩)
    · exact .inl he
  | added hp hty =>
    rw [endpoint_openLink] at he
    split at he
    · next heq =>
      cases he
      exact .inr (.inl ⟨_, by rw [heq], heq ▸ hp, rfl⟩)
    · exact .inl he
  | dropped hr =>
    rw [endpoint_erasePeer, hr.endpoint] at he
    exact .inl (Option.ite_none_left_eq_some.mp he).2
  | revoked hr | expired hr => exact .inl (hr.endpoint ▸ he)
  | installed _ _ _ _ _ _ hf =>
    rw [fillSlot, endpoint_send, endpoint_setRoute] at he
    exact .inl (hf.endpoint ▸ he)
  | unbound _ _ hf =>
    rw [hf.endpoint, endpoint_unlinked] at he
    exact .inl he

/-- A route was there before, or is that of a request that was at the next hop. -/
theorem RouteEffect.route (h : RouteEffect n a n') (hr : n'.route link stream = some pep) :
    n.route link stream = some pep ∨
    ∃ txn egress t, n.bindState link txn = some (.awaitingNextHopBind pep.visaId egress t) := by
  cases h with
  | frame hf | inserted _ _ hf | linked _ _ _ hf => exact .inl (hf.route ▸ hr)
  | ticked | ignored => exact .inl hr
  | addressed _ _ _ hf =>
    rw [route_modifyPeer fun q => (hf q).2.2.1] at hr
    exact .inl hr
  | added =>
    rw [route_openLink] at hr
    exact .inl (Option.ite_none_left_eq_some.mp hr).2
  | dropped hrev =>
    rw [route_erasePeer] at hr
    exact .inl (hrev.route_eq_some (Option.ite_none_left_eq_some.mp hr).2)
  | revoked hrev | expired hrev => exact .inl (hrev.route_eq_some hr)
  | @installed egress other _ txn t _ key pep' p _ _ m _ hst _ hp _ _ hf _ =>
    have hserial : m.serial other = some p.serial := by
      rw [hf.serial]
      exact serial_eq_some hp
    rw [route_fillSlot hserial] at hr
    split at hr
    · next heq =>
      cases hr
      cases heq
      exact .inr ⟨txn, egress, t, hst⟩
    · exact .inl (hf.route ▸ hr)
  | unbound _ _ hf =>
    rw [hf.route, route_unlinked] at hr
    exact .inl (Option.ite_none_left_eq_some.mp hr).2

/-- What an action does to the visa table. -/
inductive VisaEffect (n : Node) (a : Action) : VisaTable → Prop where
  /-- Visas are removed or change their streams; the lookup table may be rebuilt. -/
  | kept {vt : VisaTable} :
      (∀ v visa', vt.table.lookup v = some visa' → ∃ visa, n.visas.table.lookup v = some visa ∧
        visa'.expires = visa.expires ∧ visa'.dockPep = visa.dockPep) →
      (∀ x ∈ vt.lookupTable, x ∈ n.visas.lookupTable ∨
        ∃ visa, n.visas.table.lookup x.1 = some visa ∧ visa.dockPep.fiveTuple = x.2) →
      VisaEffect n a vt
  | inserted {visa : VsVisa} {dockPep : DockPep} : n.inserts a = some visa →
      visa.dockPep = some dockPep →
      VisaEffect n a (n.visas.insert visa.issuerId (visa.stored dockPep))

theorem VisaEffect.same : VisaEffect n a n.visas :=
  .kept (fun _ visa' hget => ⟨visa', hget, rfl, rfl⟩) fun _ => .inl

theorem VisaEffect.revoked (hr : Revoked n m vs ws es) : VisaEffect n a m.visas := by
  refine .kept (fun v visa' hget => ?_) hr.lookupTable
  rw [hr.table] at hget
  split at hget
  · cases hget
  · exact ⟨visa', hget, rfl, rfl⟩

theorem VisaEffect.modified (v : VisaId) (f : Visa → Visa)
    (hf : ∀ visa, (f visa).expires = visa.expires ∧ (f visa).dockPep = visa.dockPep) :
    VisaEffect n a (n.visas.modify v f) := by
  refine .kept (fun u visa' hget => ?_) fun _ => .inl
  rw [VisaTable.modify, Table.lookup_modify] at hget
  split at hget
  · obtain ⟨visa, hvisa, rfl⟩ := Option.map_eq_some_iff.mp hget
    exact ⟨visa, hvisa, hf visa⟩
  · exact ⟨visa', hget, rfl, rfl⟩

theorem RouteEffect.visas (h : RouteEffect n a n') : VisaEffect n a n'.visas := by
  cases h with
  | frame hf =>
    rw [hf.visas]
    exact .same
  | ticked | addressed | added | ignored => exact .same
  | dropped hr | revoked hr | expired hr => exact (VisaEffect.revoked hr :)
  | inserted ha hd hf =>
    rw [hf.visas]
    exact .inserted ha hd
  | @installed _ link _ _ _ _ key pep _ _ message m _ _ _ _ _ _ hf _ =>
    have hvisas : (m.fillSlot ⟨link, key⟩ pep message).visas =
        n.visas.modify pep.visaId (·.linkForwardingEntry ⟨link, key⟩) :=
      (visas_send ..).trans (congrArg (VisaTable.modify · _ _) hf.visas)
    rw [hvisas]
    exact .modified _ _ fun _ => ⟨rfl, rfl⟩
  | linked _ _ _ hf =>
    rw [hf.visas]
    exact .modified _ _ fun _ => ⟨rfl, rfl⟩
  | unbound _ _ hf =>
    rw [hf.visas]
    refine .modified _ _ fun visa => ?_
    unfold Visa.unlinkForwardingEntry
    split <;> exact ⟨rfl, rfl⟩

theorem RouteEffect.table {visa' : Visa} (h : RouteEffect n a n')
    (hget : n'.visas.table.lookup v = some visa') :
    (∃ visa, n.visas.table.lookup v = some visa ∧
      visa'.expires = visa.expires ∧ visa'.dockPep = visa.dockPep) ∨
    ∃ visa dockPep, n.inserts a = some visa ∧ visa.issuerId = v ∧ visa.dockPep = some dockPep ∧
      visa' = visa.stored dockPep := by
  generalize hvt : n'.visas = vt at hget
  cases hvt ▸ h.visas with
  | kept ht _ => exact .inl (ht v visa' hget)
  | @inserted visa dockPep ha hd =>
    rw [VisaTable.insert, Table.lookup_insert] at hget
    split at hget
    · next hv =>
      cases hget
      exact .inr ⟨visa, dockPep, ha, hv.symm, hd, rfl⟩
    · exact .inl ⟨visa', hget, rfl, rfl⟩

end Node

end ZprCore.Dock
