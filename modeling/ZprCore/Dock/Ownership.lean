-- SUMMARY: An adapter is given streams only for flows from its own addresses.
import ZprCore.Dock.Desk
import ZprCore.Dock.Revocation

/-!
# Ownership of streams

Whether an adapter owns the source address of a flow is checked when its bind request arrives.
The stream is installed later, by tasks that know the link only by its id, under a visa that is
looked up only by its id. Ownership survives this if the link id and the visa id still stand
for the same link and the same flow then, and if the adapter keeps its addresses.
-/

namespace ZprCore.Dock

open ZprCore.Flow PeerState

/-- The actor addresses of a link, with the one it was given to authenticate. -/
def Endpoint.Has (e : Endpoint) (addr : IpAddress) : Prop :=
  addr ∈ e.actorAddresses ∨ e.aaaAddress = some addr

variable {p : PeerState} {addr : IpAddress}

theorem PeerState.hasActorAddress_iff : p.hasActorAddress addr = true ↔ p.endpoint.Has addr := by
  simp [hasActorAddress, Endpoint.Has, endpoint]

theorem PeerState.mem_getActorAddresses : addr ∈ p.getActorAddresses ↔ p.endpoint.Has addr := by
  simp [getActorAddresses, Endpoint.Has, endpoint]

def Visa.source (visa : Visa) : IpAddress := visa.dockPep.fiveTuple.srcAddress

def BindRequestState.visaId? : BindRequestState → Option VisaId
  | .awaitingNextHopBind v _ _ => some v
  | _ => none

namespace PeerState

/-- Does the visa of a stream of the link, or of a request of the link that is at the next hop,
    satisfy `p`? -/
def anyVisa (q : PeerState) (p : VisaId → Bool) : Bool :=
  (q.pft.any fun _ pep => p pep.visaId) ||
    q.nodeState.bindRequestState.any fun _ st => st.visaId?.any p

end PeerState

namespace Node

variable {n n' : Node} {link : LinkId} {txn : TxnId} {v : VisaId} {a : Action} {sums : Checksums}
  {lookup : FiveTupleLookup} {e : Endpoint} {visa : VsVisa} {P : VisaId → Bool} {dockPep : DockPep}

/-- Every stream of a tether, and every request that may become one, is for a flow from an
    address of the adapter. -/
structure Owned (n : Node) : Prop where
  routes : ∀ {link e stream pep visa}, n.endpoint link = some e → e.linkType = .nodeToAdapter →
    n.route link stream = some pep → n.visas.table.lookup pep.visaId = some visa → e.Has visa.source
  binds : ∀ {link e txn v egress h visa}, n.endpoint link = some e → e.linkType = .nodeToAdapter →
    n.bindState link txn = some (.awaitingNextHopBind v egress h) →
    n.visas.table.lookup v = some visa → e.Has visa.source
  tasks : ∀ {task e}, task ∈ n.tasks → n.endpoint task.link = some e →
    e.linkType = .nodeToAdapter → e.serial = task.serial →
    ∃ f, task.query = .visaRequest f ∧ e.Has f.srcAddress
  serials : ∀ task ∈ n.tasks, task.serial < n.nextSerial
  /-- The lookup table knows a visa by its present flow. -/
  lookups : ∀ {v ft visa}, (v, ft) ∈ n.visas.lookupTable → n.visas.table.lookup v = some visa →
    ft.srcAddress = visa.source

/-! ## Conditions -/

/-- Is the visa one for flows from this address? -/
def grantsFrom (n : Node) (v : VisaId) (addr : IpAddress) : Bool :=
  (n.visas.table.lookup v).any fun visa => visa.source = addr

/-- Does a stream or a request of the link rest on the address? -/
def uses (n : Node) (link : LinkId) (addr : IpAddress) : Bool :=
  (n.peers.lookup link).any fun q => q.anyVisa (n.grantsFrom · addr) ||
    n.tasks.any fun task => task.link = link && task.serial = q.serial &&
      match task.query with
      | .visaRequest f => f.srcAddress = addr
      | .visaById _ => false

/-- An address that a change takes from a link is not used by it. -/
def keepsUsed (n : Node) (link : LinkId) (f : PeerState → PeerState) : Bool :=
  (n.peers.lookup link).all fun p =>
    p.getActorAddresses.all fun addr => (f p).hasActorAddress addr || !n.uses link addr

/-- A visa with this id may be inserted for flows from the address: the lookup table knows the
    id by no other source, and a tether that has it in use owns the address. -/
def admits (n : Node) (v : VisaId) (addr : IpAddress) : Bool :=
  (n.visas.lookupTable.all fun x => x.1 ≠ v || x.2.srcAddress = addr) &&
    !n.peers.any fun _ q => q.linkType = .nodeToAdapter && !q.hasActorAddress addr &&
      q.anyVisa (· = v)

/-- The visa service answers a visa request only with a visa that matches it. -/
def answersMatch (n : Node) : Action → Bool
  | .visaRequestAnswered i (.allowed visa) =>
    n.tasks[i]?.all fun task =>
      match task.query with
      | .visaRequest f => visa.dockPep.all fun pep => Ip5TupleTc.classify5t ⟨pep.fiveTuple⟩ f
      | .visaById _ => true
  | _ => true

/-- Addresses in use are kept, inserted visas do not change the flows of streams, and a visa for
    a task arrives only while the link that asked, or no link, has the link id. -/
def keepsOwners (n : Node) (a : Action) : Bool :=
  (a.readdresses.all fun x => n.keepsUsed x.1 x.2) &&
  ((n.inserts a).all fun visa => visa.dockPep.all fun pep =>
    n.admits visa.issuerId pep.fiveTuple.srcAddress) &&
  ((n.inserts a).isNone || a.finishes.all fun i => n.tasks[i]?.all fun task =>
    (n.serial task.link).all (· = task.serial))

/-! ## What the conditions say -/

section

variable (hp : n.peers.lookup link = some p)

include hp

theorem anyVisa_of_route {stream : StreamId} {pep : PftPep}
    (hr : n.route link stream = some pep) (hP : P pep.visaId = true) : p.anyVisa P = true := by
  obtain ⟨q, hq, hpep⟩ := route_eq_some.mp hr
  rw [hp] at hq
  cases hq
  exact Bool.or_eq_true_iff.mpr (.inl (Table.any_eq_true.mpr ⟨stream, pep, hpep, hP⟩))

theorem anyVisa_of_bind {egress : LinkId} {h : TxnHandle}
    (hst : n.bindState link txn = some (.awaitingNextHopBind v egress h)) (hP : P v = true) :
    p.anyVisa P = true := by
  obtain ⟨q, hq, hst⟩ := bindState_eq_some.mp hst
  rw [hp] at hq
  cases hq
  exact Bool.or_eq_true_iff.mpr (.inr (Table.any_eq_true.mpr ⟨txn, _, hst, hP⟩))

theorem uses_of_anyVisa {visa : Visa} (hget : n.visas.table.lookup v = some visa)
    (h : ∀ P : VisaId → Bool, P v = true → p.anyVisa P = true) :
    n.uses link visa.source = true := by
  rw [uses, hp]
  refine Bool.or_eq_true_iff.mpr (.inl (h _ ?_))
  rw [grantsFrom, hget]
  exact decide_eq_true rfl

end

theorem uses_of_task {task : VisaTask} {f : FiveTuple} (hp : n.peers.lookup task.link = some p)
    (ht : task ∈ n.tasks) (hs : task.serial = p.serial) (hq : task.query = .visaRequest f) :
    n.uses task.link f.srcAddress = true := by
  rw [uses, hp]
  refine Bool.or_eq_true_iff.mpr (.inr (List.any_eq_true.mpr ⟨task, ht, ?_⟩))
  simp [hs, hq]

theorem has_of_keepsUsed {f : PeerState → PeerState} (hk : n.keepsUsed link f = true)
    (hp : n.peers.lookup link = some p) (hhas : p.endpoint.Has addr)
    (huse : n.uses link addr = true) : (f p).endpoint.Has addr := by
  rw [keepsUsed, hp, Option.all_some, List.all_eq_true] at hk
  have hk := hk addr (mem_getActorAddresses.mpr hhas)
  rw [huse] at hk
  exact hasActorAddress_iff.mp (by simpa using hk)

theorem endpoint_kept (hk : n.keepsOwners a = true) (heff : RouteEffect n a n')
    (he : n'.endpoint link = some e) (hp : n.peers.lookup link = some p) :
    e.serial = p.serial ∧ e.linkType = p.linkType ∧
      ((a.readdresses = none → p.endpoint = e) ∧
      ∀ addr, p.endpoint.Has addr → n.uses link addr = true → e.Has addr) := by
  rcases heff.endpoint he with hold | ⟨-, -, hnone, -⟩ | ⟨f, q, ha, hq, rfl, hs, hty⟩
  · rw [endpoint_of_lookup hp] at hold
    cases hold
    exact ⟨rfl, rfl, fun _ => rfl, fun _ h _ => h⟩
  · rw [hp] at hnone
    cases hnone
  rw [hp] at hq
  cases hq
  refine ⟨hs, hty, fun hnone => ?_, fun addr hhas huse => ?_⟩
  · rw [ha] at hnone
    cases hnone
  · simp only [keepsOwners, ha, Option.all_some, Bool.and_eq_true] at hk
    exact has_of_keepsUsed hk.1.1 hp hhas huse

/-- An inserted visa is for flows from an address of every tether that has its id in use. -/
theorem has_of_admits (hk : n.keepsOwners a = true) (ha : n.inserts a = some visa)
    (hd : visa.dockPep = some dockPep) (hp : n.peers.lookup link = some p)
    (hty : p.linkType = .nodeToAdapter)
    (huse : ∀ P : VisaId → Bool, P visa.issuerId = true → p.anyVisa P = true) :
    p.endpoint.Has dockPep.fiveTuple.srcAddress := by
  simp only [keepsOwners, ha, hd, Option.all_some, Bool.and_eq_true, admits, Bool.not_eq_true',
    Table.any_eq_false] at hk
  have hno := hk.1.2.2 link p hp
  rw [huse _ (decide_eq_true rfl)] at hno
  refine hasActorAddress_iff.mp ?_
  simpa [hty] using hno

theorem readdresses_of_inserts (ha : n.inserts a = some visa) : a.readdresses = none := by
  cases a <;> first | rfl | cases ha

theorem readdresses_of_asks (ha : a.asks.isSome) : a.readdresses = none := by
  cases a <;> first | rfl | cases ha

theorem readdresses_of_finishes {i : Nat} (ha : a.finishes = some i) : a.readdresses = none := by
  cases a <;> first | rfl | cases ha

/-! ## Steps -/

theorem has_kept (heff : RouteEffect n a n') (hk : n.keepsOwners a = true) {visa' : Visa}
    (he : n'.endpoint link = some e) (hty : e.linkType = .nodeToAdapter)
    (hp : n.peers.lookup link = some p) (hget : n'.visas.table.lookup v = some visa')
    (huse : ∀ P : VisaId → Bool, P v = true → p.anyVisa P = true)
    (hold : ∀ visa, p.linkType = .nodeToAdapter → n.visas.table.lookup v = some visa →
      p.endpoint.Has visa.source) : e.Has visa'.source := by
  obtain ⟨-, hty', hsame, hkeep⟩ := endpoint_kept hk heff he hp
  rw [hty] at hty'
  rcases heff.table hget with ⟨visa, hvisa, -, hpep⟩ | ⟨visa, dockPep, ha, rfl, hd, rfl⟩
  · have hsource : visa'.source = visa.source := by rw [Visa.source, hpep, Visa.source]
    rw [hsource]
    exact hkeep _ (hold visa hty'.symm hvisa) (uses_of_anyVisa hp hvisa huse)
  · rw [← hsame (readdresses_of_inserts ha)]
    exact has_of_admits hk ha hd hp hty'.symm huse

theorem matches_of_issued {i : Nat} {task : VisaTask} {f : FiveTuple} (hm : n.answersMatch a = true)
    (hi : a.finishes = some i) (ht : n.tasks[i]? = some task) (hq : task.query = .visaRequest f)
    (ha : n.inserts a = some visa) (hd : visa.dockPep = some dockPep) :
    Ip5TupleTc.classify5t ⟨dockPep.fiveTuple⟩ f = true := by
  cases a with
  | visaRequestAnswered j decision =>
    cases hi
    cases decision with
    | allowed visa' =>
      cases ha
      simpa [answersMatch, ht, hq, hd] using hm
    | denied | failed => cases ha
  | visaByIdAnswered j visas =>
    cases hi
    obtain ⟨link, serial, txn, query⟩ := task
    cases hq
    simp [inserts, ht] at ha
  | _ => cases hi

section

variable (h : Owned n) (heff : RouteEffect n a n') (hk : n.keepsOwners a = true)

include h heff hk

/-- A request that has just been granted a visa is for a flow from an address of its link. -/
theorem Owned.granted (hm : n.answersMatch a = true) {visa : Visa} (he : n'.endpoint link = some e)
    (hty : e.linkType = .nodeToAdapter) (hgrant : Granted lookup n a link v visa) :
    e.Has visa.source := by
  cases hgrant with
  | @matched txn p ha hp hg hget =>
    have hasks : a.asks.isSome := by rw [ha]; rfl
    obtain ⟨-, hty', hsame, -⟩ := endpoint_kept hk heff he hp
    have hadapter : p.peerType link = .adapter := by
      rw [peerType, ← hty', hty]
      rfl
    obtain ⟨f, hown, hfind⟩ := hg hadapter
    obtain ⟨ft, hmem, hmatch⟩ := lookup.sound hfind
    rw [← h.lookups hmem hget, ← (Ip5TupleTc.classify5t_iff.mp hmatch).2.1,
      ← hsame (readdresses_of_asks hasks)]
    exact hasActorAddress_iff.mp hown
  | @issued i task vsVisa dockPep hi ht hl ha hd heq =>
    subst hl heq
    have hsame : n.endpoint task.link = some e := by
      rcases heff.endpoint he with hold | ⟨_, rfl, -⟩ | ⟨f, p, hre, -⟩
      · exact hold
      · cases hi
      · rw [readdresses_of_finishes hi] at hre
        cases hre
    have hser : e.serial = task.serial := by
      have hserial : n.serial task.link = some e.serial := by rw [serial, hsame]; rfl
      simp only [keepsOwners, ha, hi, ht, hserial, Option.all_some, Option.isNone_some,
        Bool.false_or, Bool.and_eq_true, decide_eq_true_eq] at hk
      exact hk.2
    obtain ⟨f, hq, hhas⟩ := h.tasks (List.mem_of_getElem? ht) hsame hty hser
    have hmatch := matches_of_issued hm hi ht hq ha hd
    have hsrc := (Ip5TupleTc.classify5t_iff.mp hmatch).2.1
    rw [hsrc] at hhas
    exact hhas

theorem Owned.task {task : VisaTask} (ht : task ∈ n.tasks) (he : n'.endpoint task.link = some e)
    (hty : e.linkType = .nodeToAdapter) (hser : e.serial = task.serial) :
    ∃ f, task.query = .visaRequest f ∧ e.Has f.srcAddress := by
  obtain ⟨p, hp⟩ : ∃ p, n.peers.lookup task.link = some p := by
    rcases heff.endpoint he with hold | ⟨-, -, -, hnew⟩ | ⟨f, p, -, hp, -⟩
    · obtain ⟨p, hp, -⟩ := endpoint_eq_some.mp hold
      exact ⟨p, hp⟩
    · exact absurd (hser ▸ hnew) (Nat.ne_of_lt (h.serials task ht))
    · exact ⟨p, hp⟩
  obtain ⟨hs, hty', -, hkeep⟩ := endpoint_kept hk heff he hp
  obtain ⟨f, hq, hhas⟩ := h.tasks ht (endpoint_of_lookup hp) (hty'.symm.trans hty) (hs.symm.trans hser)
  exact ⟨f, hq, hkeep _ hhas (uses_of_task hp ht (hser.symm.trans hs) hq)⟩

theorem Owned.listed {ft : FiveTuple} {visa : Visa} (hmem : (v, ft) ∈ n'.visas.lookupTable)
    (hget : n'.visas.table.lookup v = some visa) : ft.srcAddress = visa.source := by
  generalize hvt : n'.visas = vt at hmem hget
  cases hvt ▸ heff.visas with
  | kept htable hlookup =>
    obtain ⟨old, hold, -, hpep⟩ := htable v visa hget
    have hsource : visa.source = old.source := by rw [Visa.source, hpep, Visa.source]
    rw [hsource]
    rcases hlookup _ hmem with hmem | ⟨other, hother, rfl⟩
    · exact h.lookups hmem hold
    · rw [hold] at hother
      cases hother
      rfl
  | @inserted new dockPep ha hd =>
    rw [VisaTable.insert, Table.lookup_insert] at hget
    split at hget
    · next hv =>
      cases hget
      rcases List.mem_cons.mp hmem with heq | hmem
      · cases heq
        rfl
      · simp only [keepsOwners, ha, hd, Option.all_some, Bool.and_eq_true, admits,
          List.all_eq_true, Bool.or_eq_true, decide_eq_true_eq] at hk
        exact (hk.1.2.1 _ hmem).resolve_left fun hne => hne hv
    · next hv =>
      rcases List.mem_cons.mp hmem with heq | hmem
      · exact absurd (Prod.mk.inj heq).1 hv
      · exact h.lookups hmem hget

end

theorem Owned.step (h : Owned n) (hs : Serials n) (hk : n.keepsOwners a = true)
    (hm : n.answersMatch a = true) (hstep : n.handle sums lookup a = .ok n') : Owned n' := by
  have heff := handle_effect hstep
  have hbind := handle_desk hstep
  constructor
  · intro link e stream pep visa' he hty hr hget
    rcases heff.route hr with hr | ⟨txn, egress, t, hst⟩
    · obtain ⟨p, hp, -⟩ := route_eq_some.mp hr
      exact has_kept heff hk he hty hp hget (fun P => anyVisa_of_route hp hr)
        fun visa hty' => h.routes (endpoint_of_lookup hp) hty' hr
    · obtain ⟨p, hp, -⟩ := bindState_eq_some.mp hst
      exact has_kept heff hk he hty hp hget (fun P => anyVisa_of_bind hp hst)
        fun visa hty' => h.binds (endpoint_of_lookup hp) hty' hst
  · intro link e txn v egress t visa' he hty hst hget
    rcases hbind.hop hst with hst | ⟨visa, hget', hgrant⟩
    · obtain ⟨p, hp, -⟩ := bindState_eq_some.mp hst
      exact has_kept heff hk he hty hp hget (fun P => anyVisa_of_bind hp hst)
        fun visa hty' => h.binds (endpoint_of_lookup hp) hty' hst
    rw [hget] at hget'
    cases hget'
    exact h.granted heff hk hm he hty hgrant
  · intro task e ht he hty hser
    rcases hbind.mem_tasks ht with hold | ⟨p, hasks, hp, -, hq⟩
    · exact h.task heff hk hold he hty hser
    obtain ⟨-, hty', hsame, -⟩ := endpoint_kept hk heff he hp
    have hadapter : p.peerType task.link = .adapter := by
      rw [peerType, ← hty', hty]
      rfl
    obtain ⟨f, hf, hown⟩ := hq hadapter
    exact ⟨f, hf, hsame (readdresses_of_asks hasks) ▸ hasActorAddress_iff.mp hown⟩
  · intro task ht
    rcases hbind.mem_tasks ht with hold | ⟨p, -, hp, hσ, -⟩
    · exact (h.serials task hold).trans_le heff.nextSerial_le
    · rw [hσ]
      exact (hs.lt (serial_eq_some hp)).trans_le heff.nextSerial_le
  · exact fun hmem hget => h.listed heff hk hmem hget

/-! ## Runs -/

theorem Owned.init (h : Booted n) : Owned n := by
  obtain ⟨cfg, rfl⟩ := h
  refine ⟨?_, ?_, nofun, nofun, ?_⟩
  · intro link e stream pep visa _ _ hr
    rw [(views_boot cfg link).1] at hr
    cases hr
  · intro link e txn v egress t visa _ _ hst
    rw [(views_boot cfg link).2.1] at hst
    cases hst
  intro v ft visa hmem hget
  obtain ⟨⟨v', visa'⟩, hx, heq⟩ := List.mem_map.mp hmem
  cases heq
  have hget' := AList.mem_lookup_iff.mpr hx
  cases Option.mem_unique hget' hget
  rfl

theorem Owned.of_run (h : Run (Node.step sums lookup) Booted
      (fun n a => (n.keepsOwners a && n.answersMatch a) = true) n) : Owned n := by
  refine (Run.invariant (P := fun n => Serials n ∧ Owned n)
    (fun n hn => ⟨Serials.init hn, Owned.init hn⟩) (fun n a n' ⟨hs, ho⟩ hok hstep => ?_) h).2
  obtain ⟨hk, hm⟩ := Bool.and_eq_true_iff.mp hok
  have hstep := step_eq_some.mp hstep
  exact ⟨hs.step (handle_effect hstep), ho.step hs hk hm hstep⟩

/-- Only an address owner is given a stream. -/
theorem only_owner_has_stream (hrun : Run (Node.step sums lookup) Booted
      (fun n a => (n.keepsOwners a && n.answersMatch a) = true) n)
    {p : PeerState} {stream : StreamId} {pep : PftPep} {visa : Visa}
    (hp : n.peers.lookup link = some p) (hty : p.linkType = .nodeToAdapter)
    (hr : p.pft.lookup stream = some pep) (hvisa : n.visas.table.lookup pep.visaId = some visa) :
    visa.dockPep.fiveTuple.srcAddress ∈ p.getActorAddresses :=
  mem_getActorAddresses.mpr <|
    (Owned.of_run hrun).routes (endpoint_of_lookup hp) hty (route_eq_some.mpr ⟨p, hp, hr⟩) hvisa

theorem only_owner_has_stream_boundStream :
    ∃ n p visa, Run (Node.step .internet firstMatch) Booted
        (fun n a => (n.keepsOwners a && n.answersMatch a) = true) n ∧
      n.peers.lookup 3 = some p ∧ p.linkType = .nodeToAdapter ∧
      p.pft.lookup 1 = some ⟨⟨4, 7⟩, 1000⟩ ∧ n.visas.table.lookup 1000 = some visa ∧
      visa.dockPep.fiveTuple.srcAddress ∈ p.getActorAddresses := by
  obtain ⟨n, p, hrun, hp, hty, hr, visa, hvisa, -⟩ : ∃ n p, Run (Node.step .internet firstMatch)
      Booted (fun n a => (n.keepsOwners a && n.answersMatch a) = true) n ∧
      n.peers.lookup 3 = some p ∧ p.linkType = .nodeToAdapter ∧
      p.pft.lookup 1 = some ⟨⟨4, 7⟩, 1000⟩ ∧ ∃ visa, n.visas.table.lookup 1000 = some visa ∧ True :=
    Run.reaches_some ⟨sampleConfig, rfl⟩ (sampleAdapters ++
      [.bindActorAddressRequest 3 0 28 samplePacket,
        .visaRequestAnswered 0 (.allowed (sampleVisa 1000 1000)), .tetherResponse 4 0 (.success 7) 1])
      (by decide +kernel)
  exact ⟨n, p, visa, hrun, hp, hty, hr, hvisa, only_owner_has_stream hrun hp hty hr hvisa⟩

/-- An adapter that comes up on the link of one that has asked for a visa is given the stream,
    for a flow from an address it does not have. -/
theorem stream_given_to_the_next_adapter :
    ∃ n p visa, Run (Node.step .internet firstMatch) Booted (fun n a => n.answersMatch a = true) n ∧
      n.peers.lookup 3 = some p ∧ p.linkType = .nodeToAdapter ∧
      p.pft.lookup 1 = some ⟨⟨4, 7⟩, 1000⟩ ∧ n.visas.table.lookup 1000 = some visa ∧
      visa.dockPep.fiveTuple.srcAddress ∉ p.getActorAddresses := by
  obtain ⟨n, p, hrun, hp, hty, hr, visa, hvisa⟩ : ∃ n p, Run (Node.step .internet firstMatch)
      Booted (fun n a => n.answersMatch a = true) n ∧
      n.peers.lookup 3 = some p ∧ p.linkType = .nodeToAdapter ∧
      p.pft.lookup 1 = some ⟨⟨4, 7⟩, 1000⟩ ∧ ∃ visa, n.visas.table.lookup 1000 = some visa ∧
      visa.dockPep.fiveTuple.srcAddress ∉ p.getActorAddresses :=
    Run.reaches_some ⟨sampleConfig, rfl⟩ (sampleAdapters ++
      [.bindActorAddressRequest 3 0 28 samplePacket, .dropPeer 3, .startTether 3 .nodeToAdapter,
        .authorized 3 (sampleAddr 5), .visaRequestAnswered 0 (.allowed (sampleVisa 1000 1000)),
        .tetherResponse 4 0 (.success 7) 1]) (by decide +kernel)
  exact ⟨n, p, visa, hrun, hp, hty, hr, hvisa⟩

end Node

end ZprCore.Dock
