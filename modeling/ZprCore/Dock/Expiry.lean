-- SUMMARY: For how long after its expiration a visa can be used.
import ZprCore.Dock.Desk
import ZprCore.Dock.Revocation

/-!
# Expiry

Neither a bind nor the forwarding of a packet looks at the expiration of a visa, and no worker
of a node calls `handle_expirations`. A visa is out of use at some time after its expiration
only if something else, such as a revocation, has taken it out of the table by then.
-/

namespace ZprCore.Dock

open ZprCore.Flow

/-- The actions of the workers that a node launches. -/
def Action.launched : Action → Bool
  | .handleExpirations => false
  | _ => true

namespace Node

variable {n n' : Node} {a : Action} {D : Nat} {sums : Checksums} {lookup : FiveTupleLookup}

/-- No visa in the table, and none that is inserted, is more than `D` past its expiration. -/
def timely (D : Nat) (n : Node) : Action → Bool
  | .tick ms => !n.visas.table.any fun _ visa => visa.expires + D < n.now + ms
  | a => (n.inserts a).all fun visa => n.now ≤ visa.expires + D

/-- The actions of a launched worker that keep routes and lists in step and leave no visa in
    the table for too long. -/
def punctual (D : Nat) (n : Node) (a : Action) : Bool :=
  a.launched && n.keepsStreams a && n.timely D a

/-- The visa with this id may still be used. -/
def InForce (D : Nat) (n : Node) (v : VisaId) : Prop :=
  ∃ visa, n.visas.table.lookup v = some visa ∧ n.now ≤ visa.expires + D

/-- Every visa in the table may still be used. -/
def Fresh (D : Nat) (n : Node) : Prop :=
  ∀ v visa, n.visas.table.lookup v = some visa → n.now ≤ visa.expires + D

theorem Fresh.init (h : Booted n) : Fresh D n := by
  obtain ⟨cfg, rfl⟩ := h
  intro v visa hget
  simp only [boot, modifyVisas, VisaTable.rebuildLookup, Table.lookup_insert] at hget
  split at hget
  · cases hget
    exact Nat.le_add_right_of_le (Nat.le_add_right _ _)
  split at hget
  · cases hget
    exact Nat.le_add_right_of_le (Nat.le_add_right _ _)
  · cases hget

theorem timely_of_inserts {visa : VsVisa} (ht : n.timely D a = true) (ha : n.inserts a = some visa) :
    n.now ≤ visa.expires + D := by
  cases a
  case tick => cases ha
  all_goals
    simp only [timely, ha, Option.all_some] at ht
    exact of_decide_eq_true ht

theorem Fresh.step (h : Fresh D n) (ht : n.timely D a = true)
    (hstep : n.handle sums lookup a = .ok n') : Fresh D n' := by
  intro v visa' hget
  by_cases htick : ∃ ms, a = .tick ms
  · obtain ⟨ms, rfl⟩ := htick
    cases hstep
    simp only [timely, Bool.not_eq_true', Table.any_eq_false, decide_eq_false_iff_not,
      Nat.not_lt] at ht
    exact ht v visa' hget
  · have he := handle_effect hstep
    rw [he.now fun ms hms => htick ⟨ms, hms⟩]
    rcases he.table hget with ⟨visa, hv, hexp, -⟩ | ⟨visa, dockPep, ha, -, -, rfl⟩
    · exact hexp ▸ h v visa hv
    · exact timely_of_inserts ht ha

/-- In a punctual run, visas in the table are in force and every route has its visa there. -/
theorem fresh_and_listed
    (h : Run (Node.step sums lookup) Booted (fun n a => n.punctual D a = true) n) :
    Fresh D n ∧ Listed n := by
  induction h with
  | start h => exact ⟨.init h, .init h⟩
  | next hrun hok hstep ih =>
    simp only [punctual, Bool.and_eq_true] at hok
    have hstep := step_eq_some.mp hstep
    exact ⟨ih.1.step hok.2 hstep, ih.2.step hok.1.2 (handle_effect hstep)⟩

theorem inForce_of_route {link : LinkId} {stream : StreamId} {pep : PftPep} (hf : Fresh D n)
    (hl : Listed n) (hr : n.route link stream = some pep) : InForce D n pep.visaId := by
  obtain ⟨visa, hget, -⟩ := hl link stream pep hr
  exact ⟨visa, hget, hf _ _ hget⟩

/-- A visa authorizes nothing later than `D` after its expiration: packets are forwarded,
    requests are passed on to the next hop and peers are told streams only under visas that
    are still in force. -/
theorem expired_visas_authorize_nothing (D : Nat)
    (hrun : Run (Node.step sums lookup) Booted (fun n a => n.punctual D a = true) n) :
    (∀ link stream pep, n.route link stream = some pep → InForce D n pep.visaId) ∧
    ∀ a n', n.punctual D a = true → n.step sums lookup a = some n' →
      (∀ link txn v egress h, n'.bindState link txn = some (.awaitingNextHopBind v egress h) →
        n.bindState link txn ≠ some (.awaitingNextHopBind v egress h) → InForce D n' v) ∧
      ∃ es, n'.events = n.events ++ es ∧
        ∀ e ∈ es, ∀ link stream v, e.tells = some (link, stream, v) → InForce D n' v := by
  obtain ⟨hfresh, hlisted⟩ := fresh_and_listed hrun
  refine ⟨fun link stream pep => inForce_of_route hfresh hlisted, fun a n' hok hstep => ?_⟩
  obtain ⟨hfresh', hlisted'⟩ := fresh_and_listed (.next hrun hok hstep)
  have hstep := step_eq_some.mp hstep
  constructor
  · intro link txn v egress h hst hnew
    obtain hold | ⟨visa, hget, -⟩ := (handle_desk hstep).hop hst
    · exact absurd hold hnew
    · exact ⟨visa, hget, hfresh' _ _ hget⟩
  · obtain ⟨es, hes, htold⟩ := (handle_effect hstep).events
    refine ⟨es, hes, fun e he link stream v ht => ?_⟩
    obtain ⟨pep, hr, rfl⟩ := htold e he link stream v ht
    exact inForce_of_route hfresh' hlisted' hr

/-- A visa that expires at 1000 and is revoked 500 later. -/
theorem expired_visas_authorize_nothing_revokedInTime :
    ∃ n n', Run (Node.step .internet firstMatch) Booted (fun n a => n.punctual 500 a = true) n ∧
      n.step .internet firstMatch (.revokeVisa 1000) = some n' ∧
      (n.now = 1500 ∧ n.route 3 1 = some ⟨⟨4, 7⟩, 1000⟩ ∧ InForce 500 n 1000) ∧
      n'.route 3 1 = none := by
  refine Run.reaches_some_imp (P := fun n n' => n.now = 1500 ∧
    n.route 3 1 = some ⟨⟨4, 7⟩, 1000⟩ ∧ n'.route 3 1 = none) ⟨sampleConfig, rfl⟩
    (sampleAdapters ++ sampleBind 1000 ++ [.tick 1500]) (by decide +kernel) ?_
  rintro n n' hrun - ⟨hnow, hroute, hgone⟩
  exact ⟨⟨hnow, hroute, (expired_visas_authorize_nothing 500 hrun).1 3 1 _ hroute⟩, hgone⟩

/-- A node has granted a stream under a visa. However long ago the visa has expired, the stream
    still forwards packets, and a new request is granted under it. -/
theorem expired_visa_in_use_forever :
    ∃ m, Run (Node.step .internet firstMatch) Booted (fun _ a => a.launched = true) m ∧
      ∀ D, ∃ n n', Run (Node.step .internet firstMatch) Booted (fun _ a => a.launched = true) n ∧
        m.step .internet firstMatch (.tick (1001 + D)) = some n ∧
        n.step .internet firstMatch (.bindActorAddressRequest 3 1 28 samplePacket) = some n' ∧
        (∃ visa, n.visas.table.lookup 1000 = some visa ∧ visa.expires + D < n.now) ∧
        n.route 3 1 = some ⟨⟨4, 7⟩, 1000⟩ ∧
        n'.bindState 3 1 = some (.awaitingNextHopBind 1000 4 ⟨3, 1⟩) := by
  obtain ⟨n, hn⟩ : ∃ n, replay (Node.step .internet firstMatch) (fun _ a => a.launched = true)
      (boot sampleConfig) (sampleAdapters ++ sampleBind 1000) = some n :=
    Option.isSome_iff_exists.mp (by decide +kernel)
  have hrun : Run (Node.step .internet firstMatch) Booted (fun _ a => a.launched = true) n :=
    .of_replay (.start ⟨sampleConfig, rfl⟩) hn
  have hnow : (some n).all (fun n => n.now = 0 ∧ n.route 3 1 = some ⟨⟨4, 7⟩, 1000⟩) = true := by
    rw [← hn]
    decide +kernel
  have hvisa : ((some n).bind (·.visas.table.lookup 1000)).map (·.expires) = some 1000 := by
    rw [← hn]
    decide +kernel
  -- the request is handled in the same way whatever the time is
  have hgrant : ∀ now, ((some n).bind fun n => (Node.step .internet firstMatch { n with now := now }
      (.bindActorAddressRequest 3 1 28 samplePacket)).map (·.bindState 3 1)) =
        some (some (.awaitingNextHopBind 1000 4 ⟨3, 1⟩)) := by
    rw [← hn]
    exact fun _ => rfl
  obtain ⟨visa, hget, hexp⟩ := Option.map_eq_some_iff.mp hvisa
  obtain ⟨hnow, hroute⟩ : n.now = 0 ∧ n.route 3 1 = some ⟨⟨4, 7⟩, 1000⟩ := by simpa using hnow
  refine ⟨n, hrun, fun D => ?_⟩
  obtain ⟨n', hn', hst⟩ := Option.map_eq_some_iff.mp (hgrant (n.now + (1001 + D)))
  refine ⟨_, n', .next hrun (a := .tick (1001 + D)) rfl rfl, rfl, hn', ⟨visa, hget, ?_⟩, hroute, hst⟩
  show visa.expires + D < n.now + (1001 + D)
  omega

end Node

end ZprCore.Dock
