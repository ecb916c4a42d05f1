-- SUMMARY: Removing a visa removes its own routes and no others.
import ZprCore.Dock.Panics
import ZprCore.Dock.Revocation

/-!
# Own routes

A visa is removed together with the routes in its `streams` list. This is safe as long as the
list is exact: what it names on a link that is up is a route under that visa. An unbind breaks
this, since it takes the next hop instead of the stream out of the list, and so does a link id
that is used again while a visa still lists streams of its former owner.
-/

namespace ZprCore.Dock

open ZprCore.Flow

namespace Node

variable {n n' m : Node} {link : LinkId} {txn : TxnId} {v : VisaId} {a : Action}
  {sums : Checksums} {lookup : FiveTupleLookup} {pep : PftPep} {ws : List ForwardingEntry}
  {stream : StreamId} {visa : Visa} {p : PeerState} {key : StreamId}

/-! ## Links that make no requests -/

/-- Is the peer of the link neither an adapter nor a node? -/
def silent (n : Node) (link : LinkId) : Bool :=
  (n.endpoint link).any fun e =>
    peerTypeOf e.linkType link = .dock ∨ peerTypeOf e.linkType link = .unknown

/-- No requests are on behalf of a silent link. -/
def Quiet (n : Node) : Prop :=
  ∀ link, n.silent link = true →
    (∀ txn, n.bindState link txn = none) ∧ ∀ task ∈ n.tasks, task.link ≠ link

theorem silent_congr (h : n'.endpoint = n.endpoint) : n'.silent = n.silent := by
  funext link
  rw [silent, h, silent]

theorem RouteEffect.silent (h : RouteEffect n a n') (hs : n'.silent link = true) :
    n.silent link = true := by
  cases h with
  | frame hf | inserted _ _ hf | linked _ _ _ hf => rwa [silent_congr hf.endpoint] at hs
  | ticked | ignored => exact hs
  | @addressed _ other f p _ hp hty hf =>
    rw [Node.silent, Node.endpoint, lookup_modifyPeer] at hs
    rw [Node.silent, Node.endpoint]
    split at hs
    · cases hq : n.peers.lookup link with
      | none =>
        rw [hq] at hs
        cases hs
      | some q =>
        rw [hq] at hs
        simpa [PeerState.endpoint, (hf q).2.1] using hs
    · exact hs
  | @added other linkType hp hty =>
    rw [Node.silent, endpoint_openLink] at hs
    split at hs
    · rcases hty with rfl | rfl <;> cases hs
    · exact hs
  | dropped hr =>
    rw [Node.silent, endpoint_erasePeer] at hs
    split at hs
    · cases hs
    · rwa [← silent_congr hr.endpoint]
  | revoked hr | expired hr => rwa [← silent_congr hr.endpoint]
  | installed _ _ _ _ _ _ hf =>
    rw [Node.silent, fillSlot, endpoint_send, endpoint_setRoute] at hs
    rwa [← silent_congr hf.endpoint]
  | unbound _ _ hf => rwa [silent_congr hf.endpoint, silent_congr endpoint_unlinked] at hs

theorem Outcome.state_eq_none {G : VisaId → Prop} {Q : VisaQuery → Prop} {other : LinkId}
    {t : TxnId} (ho : Outcome m link txn G Q n') (hne : other ≠ link)
    (hm : m.bindState other t = none) : n'.bindState other t = none := by
  have hstate : n'.desk.state other t = m.desk.state other t := by
    cases ho with
    | gone _ hd => rw [hd]
    | rejected _ _ hd | spawned _ _ _ hd | forwarded _ _ _ _ _ _ hd =>
      rw [hd]
      exact if_neg fun h => hne h.1
  exact hstate.trans hm

theorem Quiet.init (h : Booted n) : Quiet n := by
  obtain ⟨cfg, rfl⟩ := h
  exact fun link _ => ⟨(views_boot cfg link).2.1, nofun⟩

theorem Quiet.step (h : Quiet n) (hstep : n.handle sums lookup a = .ok n') : Quiet n' := by
  intro link hs
  have hs := (handle_effect hstep).silent hs
  obtain ⟨hstate, htasks⟩ := h link hs
  suffices (∀ txn, n'.desk.state link txn = none) ∧ ∀ task ∈ n'.desk.tasks, task.link ≠ link from this
  cases handle_desk hstep with
  | kept hd | resolved _ _ hd =>
    rw [hd]
    exact ⟨hstate, htasks⟩
  | opened _ hd | dropped hd | settled _ _ hd =>
    rw [hd]
    exact ⟨fun txn => ite_eq_left_iff.mpr fun _ => hstate txn, htasks⟩
  | @asked _ other t p m _ ha hp hty hd hf ho =>
    have hne : link ≠ other := by
      rintro rfl
      rw [silent, endpoint_of_lookup hp] at hs
      rcases hty with hty | hty <;> simp [PeerState.peerType, PeerState.endpoint] at hty hs <;>
        simp [hty] at hs
    have hbind : m.bindState = n.bindState := congrArg Desk.state hd
    have htask : m.tasks = n.tasks := congrArg Desk.tasks hd
    refine ⟨fun txn => ho.state_eq_none hne (by rw [hbind, hstate]), fun task ht => ?_⟩
    · rcases ho.mem_tasks ht with ht | ⟨ht, -⟩
      · exact htasks task (htask ▸ ht)
      · exact fun heq => hne (heq.symm.trans ht)
  | @answered _ i task m _ _ htask hd ho =>
    have hne : link ≠ task.link := (htasks task (List.mem_of_getElem? htask)).symm
    have hbind : m.bindState = n.bindState := congrArg Desk.state hd
    have hleft : m.tasks = n.tasks.eraseIdx i := congrArg Desk.tasks hd
    refine ⟨fun txn => ho.state_eq_none hne (by rw [hbind, hstate]), fun task' ht => ?_⟩
    · rcases ho.mem_tasks ht with ht | ⟨ht, -⟩
      · exact htasks task' (List.mem_of_mem_eraseIdx (hleft ▸ ht))
      · exact fun heq => hne (heq.symm.trans ht)

/-! ## Exact lists -/

/-- What a visa lists on a link that is up is a route under it, and is listed once. -/
def Exact (n : Node) : Prop :=
  ∀ v visa, n.visas.table.lookup v = some visa →
    visa.streams.Nodup ∧ ∀ e ∈ visa.streams, (n.peers.lookup e.link).isSome →
      ∃ pep, n.route e.link e.stream = some pep ∧ pep.visaId = v

/-- The actions that keep the lists exact: a stream that its visa lists is unbound only if it
    is its own next hop, and a link does not come up while a visa lists streams of that id. -/
def keepsLists (n : Node) : Action → Bool
  | .unbindIndication link stream =>
    match n.route link stream with
    | none => true
    | some pep =>
      pep.nextHop = ⟨link, stream⟩ ||
        (n.visas.table.lookup pep.visaId).all fun visa => ⟨link, stream⟩ ∉ visa.streams
  | .startTether link _ => !n.visas.table.any fun _ visa => visa.streams.any (·.link = link)
  | _ => true

theorem isSome_congr (h : n'.endpoint = n.endpoint) (link : LinkId) :
    (n'.peers.lookup link).isSome = (n.peers.lookup link).isSome := by
  rw [← serial_isSome, serial_congr h, serial_isSome]

theorem Exact.congr (h : Exact n) (he : n'.endpoint = n.endpoint) (hr : n'.route = n.route)
    (ht : n'.visas.table = n.visas.table) : Exact n' := by
  intro v visa hget
  rw [ht] at hget
  obtain ⟨hnodup, hlisted⟩ := h v visa hget
  refine ⟨hnodup, fun e he' hup => ?_⟩
  rw [hr]
  exact hlisted e he' (by rwa [isSome_congr he] at hup)

theorem Frame.exact (hf : Frame n n') (h : Exact n) : Exact n' :=
  h.congr hf.endpoint hf.route (by rw [hf.visas])

/-- The visas that are left keep their routes, since each route is under one visa. -/
theorem Revoked.exact {vs : List VisaId} {es : List Event} (hr : Revoked n m vs ws es)
    (h : Exact n) : Exact m := by
  intro v visa hget
  rw [hr.table] at hget
  split at hget
  · cases hget
  next hv =>
  obtain ⟨hnodup, hlisted⟩ := h v visa hget
  refine ⟨hnodup, fun e he hup => ?_⟩
  rw [isSome_congr hr.endpoint] at hup
  obtain ⟨pep, hroute, hid⟩ := hlisted e he hup
  refine ⟨pep, ?_, hid⟩
  rw [hr.route, if_neg fun hin => ?_]
  · exact hroute
  obtain ⟨u, hu, visa', hget', he'⟩ := (hr.withdrawn _).mp hin
  obtain ⟨pep', hroute', hid'⟩ := (h u visa' hget').2 e he' hup
  rw [hroute] at hroute'
  cases hroute'
  exact hv (hid ▸ hid' ▸ hu)

theorem Exact.insert (h : Exact n) (hvisa : visa.streams = []) :
    Exact (n.modifyVisas (·.insert v visa)) := by
  intro u visa' hget
  rw [modifyVisas, VisaTable.insert, Table.lookup_insert] at hget
  split at hget
  · cases hget
    rw [hvisa]
    exact ⟨List.nodup_nil, by rintro _ ⟨⟩⟩
  · exact h u visa' hget

theorem Exact.not_mem_of_vacant (h : Exact n)
    (hp : n.peers.lookup link = some p) (hvac : n.route link key = none)
    (hget : n.visas.table.lookup v = some visa) : ⟨link, key⟩ ∉ visa.streams := by
  intro hmem
  obtain ⟨pep, hr, -⟩ := (h v visa hget).2 _ hmem (by rw [hp]; rfl)
  rw [hvac] at hr
  cases hr

theorem Exact.install (h : Exact n) {message : Message}
    (hp : n.peers.lookup link = some p) (hvac : n.route link key = none) :
    Exact (n.fillSlot ⟨link, key⟩ pep message) := by
  intro v visa' hget
  rw [(fillSlot_views ..).2.2, VisaTable.modify, Table.lookup_modify] at hget
  have hroute {e : ForwardingEntry} : (n.fillSlot ⟨link, key⟩ pep message).route e.link e.stream =
      if e = ⟨link, key⟩ then some pep else n.route e.link e.stream :=
    route_fillSlot (serial_eq_some hp)
  have hup {l : LinkId} : ((n.fillSlot ⟨link, key⟩ pep message).peers.lookup l).isSome =
      (n.peers.lookup l).isSome := by
    rw [← serial_isSome, (fillSlot_views ..).1, serial_isSome]
  split at hget
  · next hv =>
    subst hv
    obtain ⟨visa, hvisa, rfl⟩ := Option.map_eq_some_iff.mp hget
    obtain ⟨hnodup, hlisted⟩ := h _ visa hvisa
    have hnot := h.not_mem_of_vacant hp hvac hvisa
    refine ⟨List.nodup_append.mpr ⟨hnodup, List.nodup_singleton _, ?_⟩, fun e he hlive => ?_⟩
    · rintro x hx y hy rfl
      rw [List.mem_singleton.mp hy] at hx
      exact hnot hx
    rw [hroute]
    rcases List.mem_append.mp he with he | he
    · rw [if_neg fun heq : e = ⟨link, key⟩ => hnot (heq ▸ he)]
      exact hlisted e he (hup ▸ hlive)
    · rw [if_pos (List.mem_singleton.mp he)]
      exact ⟨pep, rfl, rfl⟩
  · obtain ⟨hnodup, hlisted⟩ := h v visa' hget
    refine ⟨hnodup, fun e he hlive => ?_⟩
    rw [hroute, if_neg fun heq : e = ⟨link, key⟩ => h.not_mem_of_vacant hp hvac hget (heq ▸ he)]
    exact hlisted e he (hup ▸ hlive)

/-- Unbinding a stream that its visa does not list, or that is its own next hop. -/
theorem Exact.unbind (h : Exact n) (hr : n.route link stream = some pep)
    (hk : pep.nextHop = ⟨link, stream⟩ ∨
      (n.visas.table.lookup pep.visaId).all (fun visa => ⟨link, stream⟩ ∉ visa.streams) = true) :
    Exact ((n.eraseRoute ⟨link, stream⟩).modifyVisas
      (·.modify pep.visaId (·.unlinkForwardingEntry pep.nextHop))) := by
  -- what is listed afterwards was listed before and is not the unbound stream
  have hkept {u : VisaId} {visa : Visa} (hget : n.visas.table.lookup u = some visa)
      {e : ForwardingEntry} (he : e ∈ visa.streams) (hne : e ≠ ⟨link, stream⟩)
      (hup : ((n.eraseRoute ⟨link, stream⟩).peers.lookup e.link).isSome) :
      ∃ q, (n.eraseRoute ⟨link, stream⟩).route e.link e.stream = some q ∧ q.visaId = u := by
    rw [eraseRoute, lookup_modifyPeer_isSome] at hup
    rw [route_eraseRoute, if_neg (by exact hne)]
    exact (h u visa hget).2 e he hup
  intro u visa' hget
  rw [modifyVisas, VisaTable.modify, Table.lookup_modify] at hget
  split at hget
  · next hu =>
    subst hu
    obtain ⟨visa, hvisa, rfl⟩ := Option.map_eq_some_iff.mp hget
    have hvisa : n.visas.table.lookup pep.visaId = some visa := hvisa
    have hperm := visa.unlinkForwardingEntry_perm pep.nextHop
    have hnodup := (h _ visa hvisa).1
    refine ⟨hperm.nodup_iff.mpr (hnodup.erase _), fun e he hup => ?_⟩
    have he := hperm.mem_iff.mp he
    refine hkept hvisa (List.mem_of_mem_erase he) ?_ hup
    rintro rfl
    rcases hk with hk | hk
    · rw [hk] at he
      exact hnodup.not_mem_erase he
    · rw [hvisa] at hk
      exact of_decide_eq_true hk (List.mem_of_mem_erase he)
  · next hu =>
    refine ⟨(h u visa' hget).1, fun e he hup => hkept hget he ?_ hup⟩
    rintro rfl
    obtain ⟨p, hp, -⟩ := route_eq_some.mp hr
    obtain ⟨q, hq, hid⟩ := (h u visa' hget).2 _ he (by rw [hp]; rfl)
    rw [hr] at hq
    cases hq
    exact hu hid.symm

theorem Exact.step (h : Exact n) (hq : Quiet n) (hk : n.keepsLists a = true)
    (he : RouteEffect n a n') : Exact n' := by
  cases he with
  | frame hf => exact hf.exact h
  | ticked | ignored => exact h
  | @addressed _ link f p _ hp hty hf =>
    intro v visa hget
    obtain ⟨hnodup, hlisted⟩ := h v visa hget
    refine ⟨hnodup, fun e he hup => ?_⟩
    rw [route_modifyPeer fun q => (hf q).2.2.1]
    exact hlisted e he (by rwa [lookup_modifyPeer_isSome] at hup)
  | @added link linkType hp hty =>
    intro v visa hget
    obtain ⟨hnodup, hlisted⟩ := h v visa hget
    simp only [keepsLists, Bool.not_eq_true', Table.any_eq_false, List.any_eq_false,
      decide_eq_true_eq] at hk
    refine ⟨hnodup, fun e he hup => ?_⟩
    have hne := hk v visa hget e he
    rw [route_openLink, if_neg hne]
    refine hlisted e he ?_
    rwa [openLink, Table.lookup_insert, if_neg hne] at hup
  | @dropped link m withdrawn hr =>
    intro v visa hget
    obtain ⟨hnodup, hlisted⟩ := hr.exact h v visa hget
    refine ⟨hnodup, fun e he hup => ?_⟩
    have hne : e.link ≠ link := by
      intro heq
      rw [erasePeer, Table.lookup_erase, if_pos heq] at hup
      cases hup
    rw [route_erasePeer, if_neg hne]
    refine hlisted e he ?_
    rwa [erasePeer, Table.lookup_erase, if_neg hne] at hup
  | revoked hr | expired hr => exact hr.exact h
  | inserted _ _ hf => exact hf.exact (h.insert rfl)
  | @installed egress link txnId txn egressTxn stream key pep p visa message m haw hst hhop hp hvac
      hvisa hf hs =>
    obtain ⟨q, hq, -⟩ := endpoint_eq_some.mp (hf.endpoint ▸ endpoint_of_lookup hp)
    exact (hf.exact h).install hq (by rw [hf.route]; exact hvac)
  | @linked _ link txn key v st p _ hst hp hty hf =>
    -- the link would be silent, and yet have a request
    have hsilent : n.silent link = true := by
      rw [silent, endpoint_of_lookup hp]
      exact decide_eq_true hty
    rw [(hq link hsilent).1] at hst
    cases hst
  | @unbound link stream p _ _ hp hr hf =>
    simp only [keepsLists, hr, Bool.or_eq_true, decide_eq_true_eq] at hk
    exact hf.exact (Exact.unbind (n := n.log (.unbound link p.serial stream)) h hr hk)

theorem Exact.init (h : Booted n) : Exact n := by
  obtain ⟨cfg, rfl⟩ := h
  intro v visa hget
  simp only [boot, modifyVisas, VisaTable.rebuildLookup, Table.lookup_insert] at hget
  split at hget
  · cases hget
    exact ⟨List.nodup_nil, by rintro _ ⟨⟩⟩
  split at hget
  · cases hget
    exact ⟨List.nodup_nil, by rintro _ ⟨⟩⟩
  · cases hget

theorem quiet_and_exact
    (h : Run (Node.step sums lookup) Booted (fun n a => n.keepsLists a = true) n) :
    Quiet n ∧ Exact n := by
  induction h with
  | start h => exact ⟨.init h, .init h⟩
  | next hrun hk hstep ih =>
    have hstep := step_eq_some.mp hstep
    exact ⟨ih.1.step hstep, ih.2.step ih.1 hk (handle_effect hstep)⟩

/-! ## Removals -/

/-- In state `m`, in the course of an action taken in `n`, the visa is removed. -/
inductive Removal (n : Node) : Node → VisaId → Prop where
  | revoked {v : VisaId} : Removal n n v
  | expired {m : Node} {earlier later : List VisaId} {v : VisaId} {ws : List ForwardingEntry} :
      n.expired = earlier ++ v :: later →
      (n.modifyVisas (·.popExpired n.now)).revokeAll earlier = .ok (m, ws) → Removal n m v
  | dropped {link : LinkId} {m : Node} {earlier later : List VisaId} {v : VisaId}
      {ws : List ForwardingEntry} :
      n.boundTo link = earlier ++ v :: later → n.revokeAll earlier = .ok (m, ws) → Removal n m v

theorem Removal.exact (hm : Removal n m v) (h : Exact n) : Exact m := by
  cases hm with
  | revoked => exact h
  | expired _ hr => exact (revokeAll_ok hr).exact (h.congr rfl rfl rfl)
  | dropped _ hr => exact (revokeAll_ok hr).exact h

theorem Exact.revokeNoRebuild_total (h : Exact n) (v : VisaId) :
    ∃ m ws, n.revokeNoRebuild v = .ok (m, ws) := by
  have hrem : n.removable (n.streams v) = true := by
    unfold removable streams
    cases hget : n.visas.table.lookup v with
    | none => rfl
    | some visa =>
      obtain ⟨hnodup, hlisted⟩ := h v visa hget
      simp only [Option.map_some, Option.getD_some, Bool.and_eq_true, decide_eq_true_eq,
        List.all_eq_true, List.mem_filter, endpoint, Option.isSome_map]
      refine ⟨hnodup.filter _, fun e he => ?_⟩
      obtain ⟨pep, hr, -⟩ := hlisted e he.1 he.2
      rw [hr]
      rfl
  obtain ⟨⟨m, ws⟩, hm⟩ := revokeNoRebuild_ok_iff.mpr hrem
  exact ⟨m, ws, hm⟩

theorem Exact.revokeAll_total (h : Exact n) (vs : List VisaId) :
    ∃ m ws, n.revokeAll vs = .ok (m, ws) := by
  induction vs generalizing n with
  | nil => exact ⟨_, _, rfl⟩
  | cons v rest ih =>
    obtain ⟨m, ws, hm⟩ := h.revokeNoRebuild_total v
    obtain ⟨m', ws', hm'⟩ := ih ((revokeNoRebuild_ok hm).exact h)
    refine ⟨m', ws ++ ws', ?_⟩
    rw [revokeAll, hm]
    show (m.revokeAll rest).map _ = _
    rw [hm']
    rfl

/-- Removing a visa leaves the routes under other visas alone. -/
theorem Exact.other_routes_kept (h : Exact n) (hm : n.revokeNoRebuild v = .ok (m, ws))
    (hr : n.route link stream = some pep) (hne : pep.visaId ≠ v) :
    m.route link stream = some pep := by
  have hrev := revokeNoRebuild_ok hm
  rw [hrev.route, if_neg fun hin => ?_]
  · exact hr
  obtain ⟨u, hu, visa, hget, he⟩ := (hrev.withdrawn _).mp hin
  cases List.mem_singleton.mp hu
  obtain ⟨p, hp, -⟩ := route_eq_some.mp hr
  obtain ⟨q, hq, hid⟩ := (h v visa hget).2 _ he (by rw [hp]; rfl)
  rw [hr] at hq
  cases hq
  exact hne hid

/-- Removing a visa removes only its own routes: whenever one is removed, everything it lists on
    a link that is up is a route under it, the routes under other visas stay, and no route is
    removed from a vacant slot. -/
theorem only_own_routes_removed
    (hrun : Run (Node.step sums lookup) Booted (fun n a => n.keepsLists a = true) n) :
    (∀ m v, Removal n m v →
      (∀ visa, m.visas.table.lookup v = some visa → ∀ e ∈ visa.streams,
        (m.peers.lookup e.link).isSome →
          ∃ pep, m.route e.link e.stream = some pep ∧ pep.visaId = v) ∧
      ∃ m' ws, m.revokeNoRebuild v = .ok (m', ws) ∧
        ∀ link stream pep, m.route link stream = some pep → pep.visaId ≠ v →
          m'.route link stream = some pep) ∧
    ∀ a, n.handle sums lookup a ≠ .error (.panic .vacantSlot) := by
  obtain ⟨-, hexact⟩ := quiet_and_exact hrun
  constructor
  · intro m v hm
    have hm := hm.exact hexact
    obtain ⟨m', ws, hr⟩ := hm.revokeNoRebuild_total v
    exact ⟨fun visa hget => (hm v visa hget).2, m', ws, hr,
      fun link stream pep => hm.other_routes_kept hr⟩
  · intro a herr
    cases handle_fault herr with
    | benign hb =>
      rcases hb with hb | ⟨p, hp, hne, -⟩
      · cases hb
      · exact hne (Halt.panic.inj hp).symm
    | @vacant m vs _ hp ht hr =>
      have hm : Exact m := hexact.congr (endpoint_congr hp) (route_congr hp) ht
      obtain ⟨m', ws, hok⟩ := hm.revokeAll_total vs
      rw [hok] at hr
      cases hr

theorem only_own_routes_removed_boundStream :
    ∃ n n', Run (Node.step .internet firstMatch) Booted (fun n a => n.keepsLists a = true) n ∧
      n.route 3 1 = some ⟨⟨4, 7⟩, 1000⟩ ∧
      n.revokeNoRebuild 1000 = .ok (n', [⟨3, 1⟩]) ∧ n'.route 3 1 = none ∧
      ∀ a, n.handle .internet firstMatch a ≠ .error (.panic .vacantSlot) := by
  obtain ⟨n, hrun, hroute, hgone⟩ : ∃ n, Run (Node.step .internet firstMatch) Booted
      (fun n a => n.keepsLists a = true) n ∧ n.route 3 1 = some ⟨⟨4, 7⟩, 1000⟩ ∧
      (n.revokeNoRebuild 1000).toOption.map (fun x => (x.1.route 3 1, x.2)) =
        some (none, [⟨3, 1⟩]) :=
    Run.reaches ⟨sampleConfig, rfl⟩ (sampleAdapters ++ sampleBind 1000) (by decide +kernel)
  obtain ⟨hown, hsafe⟩ := only_own_routes_removed hrun
  obtain ⟨-, n', ws, hr, -⟩ := hown n 1000 .revoked
  rw [hr] at hgone
  simp only [Except.toOption, Option.map_some, Option.some.injEq, Prod.mk.injEq] at hgone
  obtain ⟨hnone, rfl⟩ := hgone
  exact ⟨n, n', hrun, hroute, hr, hnone, hsafe⟩

/-- A stream that was unbound is still listed by its visa, and revoking the visa panics. -/
theorem unbound_stream_still_listed :
    ∃ n, Run (Node.step .internet firstMatch) Booted (fun _ _ => True) n ∧
      (∃ visa, n.visas.table.lookup 1000 = some visa ∧ ⟨3, 1⟩ ∈ visa.streams) ∧
      (n.peers.lookup 3).isSome = true ∧ n.route 3 1 = none ∧
      n.handle .internet firstMatch (.revokeVisa 1000) = .error (.panic .vacantSlot) :=
  Run.reaches ⟨sampleConfig, rfl⟩ (sampleAdapters ++ sampleBind 1000 ++ [.unbindIndication 3 1])
    (by decide +kernel)

/-! ## Unbinding -/

theorem perm_erase_iff {l : List ForwardingEntry} {a b : ForwardingEntry} :
    (l.erase a).Perm (l.erase b) ↔ a = b ∨ a ∉ l ∧ b ∉ l := by
  constructor
  · intro hperm
    by_contra hne
    simp only [not_or, not_and_or, not_not] at hne
    have ha := hperm.count_eq a
    have hb := hperm.count_eq b
    rw [List.count_erase_self, List.count_erase_of_ne hne.1] at ha
    rw [List.count_erase_self, List.count_erase_of_ne (Ne.symm hne.1)] at hb
    rcases hne.2 with hmem | hmem <;> have := List.count_pos_iff.mpr hmem <;> omega
  · rintro (rfl | ⟨ha, hb⟩)
    · exact .refl _
    · rw [List.erase_of_not_mem ha, List.erase_of_not_mem hb]

/-- The bind of a stream is undone, and nothing else is. -/
structure Undone (n : Node) (link : LinkId) (stream : StreamId) (pep : PftPep) (n' : Node) :
    Prop where
  route : ∀ other s, n'.route other s =
    if (⟨other, s⟩ : ForwardingEntry) = ⟨link, stream⟩ then none else n.route other s
  streams : ∀ v visa, n.visas.table.lookup v = some visa →
    ∃ visa', n'.visas.table.lookup v = some visa' ∧ visa'.streams.Perm
      (if v = pep.visaId then visa.streams.erase ⟨link, stream⟩ else visa.streams)
  told : n'.events = n.events ++ ((n.endpoint pep.nextHop.link).map fun e =>
    .sent pep.nextHop.link e.serial (.unbindEgressStream pep.nextHop.stream)).toList

/-- An unbind undoes the bind of a stream exactly if the next hop has given the stream the id that
    it has here, and the visa lists neither of the two entries or they are the same. -/
theorem unbindStream_undoes_iff (hr : n.route link stream = some pep) :
    Undone n link stream pep (n.unbindStream link stream) ↔
      ((n.endpoint pep.nextHop.link).isSome → stream = pep.nextHop.stream) ∧
      ∀ visa, n.visas.table.lookup pep.visaId = some visa →
        pep.nextHop = ⟨link, stream⟩ ∨ pep.nextHop ∉ visa.streams ∧ ⟨link, stream⟩ ∉ visa.streams := by
  -- it unlinks the next hop and tells it the number of the stream here
  have hvisas : ∀ v, (n.unbindStream link stream).visas.table.lookup v =
      if v = pep.visaId then (n.visas.table.lookup v).map (·.unlinkForwardingEntry pep.nextHop)
      else n.visas.table.lookup v := by
    intro v
    rw [unbindStream_of_some hr, visas_send]
    exact Table.lookup_modify ..
  have hevents : (n.unbindStream link stream).events = n.events ++
      ((n.endpoint pep.nextHop.link).map fun e =>
        .sent pep.nextHop.link e.serial (.unbindEgressStream stream)).toList := by
    rw [unbindStream_of_some hr, send, endpoint_modifyVisas, endpoint_eraseRoute]
    cases n.endpoint pep.nextHop.link with
    | none => exact (List.append_nil _).symm
    | some e => rfl
  constructor
  · rintro ⟨-, hstreams, htold⟩
    refine ⟨fun hup => ?_, fun visa hget => ?_⟩
    · obtain ⟨e, he⟩ := Option.isSome_iff_exists.mp hup
      rw [hevents, he] at htold
      simpa using htold
    · obtain ⟨visa', hget', hperm⟩ := hstreams _ visa hget
      rw [hvisas, if_pos rfl, hget] at hget'
      cases hget'
      rw [if_pos rfl] at hperm
      exact perm_erase_iff.mp ((visa.unlinkForwardingEntry_perm _).symm.trans hperm)
  · rintro ⟨hsame, hlisted⟩
    refine ⟨fun other s => ?_, fun v visa hget => ?_, ?_⟩
    · rw [unbindStream_of_some hr, route_send, route_modifyVisas, route_eraseRoute]
    · rw [hvisas, hget]
      split
      · next hv =>
        subst hv
        exact ⟨_, rfl, (visa.unlinkForwardingEntry_perm _).trans
          (perm_erase_iff.mpr (hlisted visa hget))⟩
      · exact ⟨visa, rfl, .refl _⟩
    · rw [hevents]
      cases he : n.endpoint pep.nextHop.link with
      | none => rfl
      | some e => rw [hsame (by rw [he]; rfl)]

/-- The node has given the stream the id 1, the next hop the id 7. -/
theorem unbindStream_undoes_boundStream :
    ∃ n, Run (Node.step .internet firstMatch) Booted (fun _ _ => True) n ∧
      n.route 3 1 = some ⟨⟨4, 7⟩, 1000⟩ ∧ ¬Undone n 3 1 ⟨⟨4, 7⟩, 1000⟩ (n.unbindStream 3 1) := by
  refine Run.reaches_imp (P := fun n => n.route 3 1 = some ⟨⟨4, 7⟩, 1000⟩ ∧ (n.endpoint 4).isSome)
    ⟨sampleConfig, rfl⟩ (sampleAdapters ++ sampleBind 1000) (by decide +kernel) ?_
  rintro n - ⟨hr, hup⟩
  refine ⟨hr, fun hundone => ?_⟩
  have hsame := ((unbindStream_undoes_iff hr).mp hundone).1 hup
  cases hsame

/-- The visa still lists the stream, and the next hop is told to unbind a stream it has not given. -/
theorem unbind_names_wrong_stream :
    ∃ n, Run (Node.step .internet firstMatch) Booted (fun _ _ => True) n ∧
      n.route 3 1 = some ⟨⟨4, 7⟩, 1000⟩ ∧
      (∃ visa, (n.unbindStream 3 1).visas.table.lookup 1000 = some visa ∧ visa.streams = [⟨3, 1⟩]) ∧
      (n.unbindStream 3 1).events.getLast? = some (.sent 4 3 (.unbindEgressStream 1)) :=
  Run.reaches ⟨sampleConfig, rfl⟩ (sampleAdapters ++ sampleBind 1000) (by decide +kernel)

end Node

end ZprCore.Dock
