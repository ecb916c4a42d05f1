-- SUMMARY: When a link goes away, no route leads to it any more.
import ZprCore.Dock.Revocation

/-!
# Dead links

`drop_peer` takes the visas with a stream on the link out of the table, and with them the
routes that these list. The routes that lead to the link are streams of other links. They are
found only if their visa happens to have a stream on the dropped link as well.
-/

namespace ZprCore.Dock

open ZprCore.Flow

namespace Node

variable {n n' m : Node} {link : LinkId} {a : Action} {sums : Checksums} {lookup : FiveTupleLookup}

/-- Does some visa that goes with the link list the stream? -/
def goesWith (n : Node) (link : LinkId) (entry : ForwardingEntry) : Bool :=
  (n.boundTo link).any fun v => (n.visas.table.lookup v).any fun visa => entry ∈ visa.streams

/-- A link is dropped only if every route that leads to it from another link goes with it. -/
def cutsOff (n : Node) : Action → Bool
  | .dropPeer link =>
    !n.peers.any fun other p => p.pft.any fun stream pep =>
      other ≠ link && pep.nextHop.link = link && !n.goesWith link ⟨other, stream⟩
  | _ => true

theorem cutsOff_iff :
    n.cutsOff (.dropPeer link) = true ↔
      ∀ other stream pep, other ≠ link → n.route other stream = some pep →
        pep.nextHop.link = link → n.goesWith link ⟨other, stream⟩ = true := by
  simp only [cutsOff, Bool.not_eq_true', Table.any_eq_false, Bool.and_eq_false_iff,
    decide_eq_false_iff_not, not_not, Bool.not_eq_false']
  constructor
  · intro h other stream pep hne hr hhop
    obtain ⟨p, hp, hpep⟩ := route_eq_some.mp hr
    rcases h other p hp stream pep hpep with (h | h) | h
    · exact absurd h hne
    · exact absurd hhop h
    · exact h
  · intro h other p hp stream pep hpep
    by_cases hne : other = link
    · exact .inl (.inl hne)
    by_cases hhop : pep.nextHop.link = link
    · exact .inr (h other stream pep hne (route_eq_some.mpr ⟨p, hp, hpep⟩) hhop)
    · exact .inl (.inr hhop)

theorem goesWith_iff {entry : ForwardingEntry} :
    n.goesWith link entry = true ↔
      ∃ v ∈ n.boundTo link, ∃ visa, n.visas.table.lookup v = some visa ∧ entry ∈ visa.streams := by
  simp only [goesWith, List.any_eq_true, Option.any_eq_true, decide_eq_true_eq]

theorem dropPeer_views (h : n.dropPeer link = .ok n') :
    (∀ other stream, n'.route other stream =
      if other = link ∨ n.goesWith link ⟨other, stream⟩ then none else n.route other stream) ∧
    ∃ es, n'.events = n.events ++ es ∧
      ∀ other σ stream, .sent other σ (.streamIdWithdrawal stream) ∈ es ↔
        other ≠ link ∧ n.serial other = some σ ∧ n.goesWith link ⟨other, stream⟩ = true := by
  obtain ⟨m, withdrawn, hr, rfl⟩ := dropPeer_ok h
  have hwith {entry : ForwardingEntry} : entry ∈ withdrawn ↔ n.goesWith link entry = true := by
    rw [hr.withdrawn, goesWith_iff]
  refine ⟨fun other stream => ?_, _, hr.events, fun other σ stream => ?_⟩
  · rw [route_erasePeer, hr.route]
    split_ifs <;> simp_all
  rw [mem_withdrawals]
  constructor
  · rintro ⟨f, hf, hex, p, hp, heq⟩
    cases heq
    refine ⟨fun heq => hex (congrArg some heq.symm), ?_, hwith.mp hf⟩
    rw [serial, hp]
    rfl
  · rintro ⟨hne, hs, hg⟩
    obtain ⟨p, hp, rfl⟩ := Option.map_eq_some_iff.mp hs
    exact ⟨_, hwith.mpr hg, fun heq => hne (Option.some.inj heq).symm, p, hp, rfl⟩

/-- No route leads to a link that is down. -/
def Live (n : Node) : Prop :=
  ∀ link stream pep, n.route link stream = some pep → (n.serial pep.nextHop.link).isSome

theorem Live.of_routes (h : Live n) (hs : n'.serial = n.serial)
    (hr : ∀ link stream pep, n'.route link stream = some pep → n.route link stream = some pep) :
    Live n' := by
  intro link stream pep hroute
  rw [hs]
  exact h link stream pep (hr link stream pep hroute)

theorem Live.step (h : Live n) (hk : n.cutsOff a = true) (hstep : n.handle sums lookup a = .ok n') :
    Live n' := by
  cases handle_effect hstep with
  | frame hf | inserted _ _ hf | linked _ _ _ hf =>
    exact h.of_routes hf.serial fun _ _ _ hr => hf.route ▸ hr
  | ticked | ignored => exact h
  | addressed _ hp hty hf =>
    refine h.of_routes (serial_modifyPeer fun q => (hf q).1) fun _ _ _ hr => ?_
    rwa [route_modifyPeer fun q => (hf q).2.2.1] at hr
  | @added link linkType hp hty =>
    intro other stream pep hr
    rw [route_openLink] at hr
    rw [serial_openLink]
    split at hr
    · cases hr
    · split
      · rfl
      · exact h other stream pep hr
  | @dropped link m withdrawn _ =>
    intro other stream pep hr
    obtain ⟨hroute, -⟩ := dropPeer_views hstep
    rw [hroute] at hr
    split at hr
    · cases hr
    next hkept =>
    obtain ⟨hne, hgone⟩ := not_or.mp hkept
    -- the routes that are left do not lead to the link
    have hhop : pep.nextHop.link ≠ link := fun heq => hgone (cutsOff_iff.mp hk _ _ _ hne hr heq)
    have hlive := h other stream pep hr
    obtain ⟨m', ws, hrev, hn'⟩ := dropPeer_ok hstep
    rw [hn', serial_erasePeer, if_neg hhop, hrev.serial]
    exact hlive
  | revoked hr | expired hr => exact h.of_routes hr.serial fun _ _ _ => hr.route_eq_some
  | @installed egress link txnId txn egressTxn stream key pep p visa message m haw hst hhop hp hvac
      hvisa hf hs =>
    have hserial := hf.serial_eq hp
    intro other s pep' hr
    rw [route_fillSlot hserial] at hr
    rw [(fillSlot_views ..).1, hf.serial]
    split at hr
    · cases hr
      obtain ⟨q, hq, -⟩ := awaiting_eq_some.mp haw
      rw [hhop, serial_eq_some hq]
      rfl
    · exact h other s pep' (hf.route ▸ hr)
  | unbound _ _ hf =>
    refine h.of_routes (hf.serial.trans (serial_congr endpoint_unlinked)) fun other s pep hr => ?_
    rw [hf.route, route_unlinked] at hr
    exact (Option.ite_none_left_eq_some.mp hr).2

theorem Live.of_run (h : Run (Node.step sums lookup) Booted (fun n a => n.cutsOff a = true) n) :
    Live n := by
  refine h.invariant ?_ fun _ _ _ hl hk hstep => hl.step hk (step_eq_some.mp hstep)
  rintro _ ⟨cfg, rfl⟩ link stream pep hr
  rw [(views_boot cfg link).1] at hr
  cases hr

/-- No route leads to a dead link, and so none to a link that comes up. A drop achieves this,
    and tells the peers whose streams are gone, exactly if all routes to the link go with it. -/
theorem no_route_to_dead_link
    (hrun : Run (Node.step sums lookup) Booted (fun n a => n.cutsOff a = true) n) :
    (∀ link stream pep, n.route link stream = some pep → (n.serial pep.nextHop.link).isSome) ∧
    (∀ link linkType n', n.step sums lookup (.startTether link linkType) = some n' →
      ∀ other stream pep, n'.route other stream = some pep → pep.nextHop.link ≠ link) ∧
    ∀ link n', n.step sums lookup (.dropPeer link) = some n' →
      (((∀ other stream pep, n'.route other stream = some pep → pep.nextHop.link ≠ link) ∧
        ∃ es, n'.events = n.events ++ es ∧
          ∀ other σ stream pep, other ≠ link → n.serial other = some σ →
            n.route other stream = some pep → pep.nextHop.link = link →
              .sent other σ (.streamIdWithdrawal stream) ∈ es) ↔
        n.cutsOff (.dropPeer link) = true) := by
  have hlive := Live.of_run hrun
  refine ⟨hlive, fun link linkType n' h other stream pep hr heq => ?_, fun link n' h => ?_⟩
  · obtain ⟨hp, -, rfl⟩ := addPeer_ok (step_eq_some.mp h)
    rw [route_openLink] at hr
    split at hr
    · cases hr
    -- a link in a vacant slot is not the next hop of any route
    · have hup := hlive other stream pep hr
      rw [heq, serial_eq_none.mpr hp] at hup
      cases hup
  · obtain ⟨hroute, es, hes, hsent⟩ := dropPeer_views (step_eq_some.mp h)
    rw [cutsOff_iff]
    constructor
    · rintro ⟨hnone, -⟩ other stream pep hne hr hhop
      by_contra hg
      refine hnone other stream pep ?_ hhop
      rw [hroute, if_neg (not_or.mpr ⟨hne, hg⟩)]
      exact hr
    · intro hg
      constructor
      · intro other stream pep hr hhop
        rw [hroute] at hr
        split at hr
        · cases hr
        · next hkept =>
          obtain ⟨hne, hno⟩ := not_or.mp hkept
          exact hno (hg other stream pep hne hr hhop)
      · exact ⟨es, hes, fun other σ stream pep hne hs hr hhop =>
          (hsent other σ stream).mpr ⟨hne, hs, hg other stream pep hne hr hhop⟩⟩

/-- The second adapter binds a stream to itself under the same visa before it goes away. -/
theorem no_route_to_dead_link_sharedVisa :
    ∃ n n', Run (Node.step .internet firstMatch) Booted (fun n a => n.cutsOff a = true) n ∧
      n.step .internet firstMatch (.dropPeer 4) = some n' ∧
      (n.route 3 1 = some ⟨⟨4, 7⟩, 1000⟩ ∧ n.route 4 1 = some ⟨⟨4, 8⟩, 1000⟩ ∧
        n.cutsOff (.dropPeer 4) = true) ∧
      (∀ other stream pep, n'.route other stream = some pep → pep.nextHop.link ≠ 4) ∧
      ∃ es, n'.events = n.events ++ es ∧ .sent 3 2 (.streamIdWithdrawal 1) ∈ es := by
  refine Run.reaches_some_imp (P := fun n _ => n.route 3 1 = some ⟨⟨4, 7⟩, 1000⟩ ∧
    n.route 4 1 = some ⟨⟨4, 8⟩, 1000⟩ ∧ n.serial 3 = some 2 ∧ n.cutsOff (.dropPeer 4) = true)
    ⟨sampleConfig, rfl⟩ (sampleAdapters ++ sampleBind 1000 ++
      [.assignAaaAddress 4 (sampleAddr 1), .bindActorAddressRequest 4 0 28 samplePacket,
        .tetherResponse 4 1 (.success 8) 1]) (by decide +kernel) ?_
  rintro n n' hrun hn' ⟨hroute, hother, hserial, hcut⟩
  obtain ⟨hnone, es, hes, hsent⟩ := ((no_route_to_dead_link hrun).2.2 4 n' hn').mpr hcut
  exact ⟨⟨hroute, hother, hcut⟩, hnone, es, hes, hsent 3 2 1 _ (by decide) hserial hroute rfl⟩

/-- The adapter that is the next hop of a stream goes away, and another one comes up on its
    link: the stream of the first adapter now leads to it. -/
theorem route_survives_its_next_hop :
    ∃ n n', Run (Node.step .internet firstMatch) Booted (fun _ _ => True) n ∧
      n.step .internet firstMatch (.dropPeer 4) = some n' ∧
      n'.route 3 1 = some ⟨⟨4, 7⟩, 1000⟩ ∧ n'.serial 4 = none ∧ n'.events = n.events ∧
      ∃ n'', n'.step .internet firstMatch (.startTether 4 .nodeToAdapter) = some n'' ∧
        n''.route 3 1 = some ⟨⟨4, 7⟩, 1000⟩ ∧ n''.serial 4 = some 4 :=
  Run.reaches_some ⟨sampleConfig, rfl⟩ (sampleAdapters ++ sampleBind 1000) (by decide +kernel)

end Node

end ZprCore.Dock
