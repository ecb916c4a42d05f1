-- SUMMARY: Where an action of the dock can fail, and in which states.
import ZprCore.Dock.Desk

/-!
# Panics

Two kinds of panics show that tables of a node have come apart: a route is removed from a slot
that is vacant, or a next-hop bind and its request do not refer to each other. `Fault` says in
which states an action can run into either; all other failures are about a single message.
-/

namespace ZprCore.Dock

open ZprCore.Flow

namespace Node

variable {n m : Node} {link : LinkId} {txn : TxnId} {v : VisaId} {e : Halt} {egress : LinkId}
  {reason : String} {visa : VsVisa}

/-- A panic that has nothing to do with tables that have come apart. -/
def Benign (e : Halt) : Prop :=
  e = .notOffered ∨ ∃ p, e = .panic p ∧ p ≠ .vacantSlot ∧ p ≠ .dockConsistency

inductive Fault (n : Node) (a : Action) : Halt → Prop where
  | benign {e : Halt} : Benign e → Fault n a e
  /-- Revoking visas fails. -/
  | vacant {m : Node} {vs : List VisaId} {e : Halt} : m.peers = n.peers →
      m.visas.table = n.visas.table → m.revokeAll vs = .error e → Fault n a e
  /-- The request is rejected, but there is still a next-hop bind for its transaction. -/
  | asked {link : LinkId} {txn : TxnId} : a.asks = some (link, txn) → n.lingers link txn = true →
      Fault n a (.panic .dockConsistency)
  /-- The same for a request that the visa service has answered. -/
  | answered {i : Nat} {task : VisaTask} : n.tasks[i]? = some task →
      n.lingers task.link task.txn = true → Fault n a (.panic .dockConsistency)
  /-- A next-hop bind is answered whose request does not wait for it. -/
  | unresolved {egress link : LinkId} {h : TxnHandle} {txn : TxnId} :
      n.awaiting egress h = some (link, txn) → (n.serial link).isSome →
      (∀ v, n.bindState link txn ≠ some (.awaitingNextHopBind v egress h)) →
      Fault n a (.panic .dockConsistency)

/-! ## Bind requests -/

theorem bindReject_error (h : n.bindReject link txn reason = .error e) :
    e = .panic .dockConsistency ∧ n.lingers link txn = true := by
  unfold bindReject at h
  split at h
  · cases h
  split at h
  · next hl =>
    cases h
    exact ⟨rfl, hl⟩
  · cases h

theorem lingers_of_none (h : n.bindState link txn = none) : n.lingers link txn = false := by
  rw [lingers, h]

theorem requestNextHop_error {p : PeerState} {request : TxnId → Message}
    (h : n.requestNextHop link txn v egress p request = .error e) : Benign e := by
  unfold requestNextHop at h
  dsimp only at h
  split at h
  · cases h
    exact .inr ⟨_, rfl, nofun, nofun⟩
  split at h <;> cases h

theorem requestedVisaGranted_error (h : n.requestedVisaGranted link txn v = .error e) :
    Benign e ∨ (e = .panic .dockConsistency ∧ n.lingers link txn = true) := by
  unfold requestedVisaGranted at h
  split at h
  · exact .inr (bindReject_error h)
  split at h
  · exact .inr (bindReject_error h)
  split at h
  · exact .inl (requestNextHop_error h)
  · split at h
    · exact .inr (bindReject_error h)
    split at h
    · cases h
      exact .inl (.inr ⟨_, rfl, nofun, nofun⟩)
    · exact .inl (requestNextHop_error h)
  all_goals exact .inr (bindReject_error h)

theorem insertVisa_error (h : n.insertVisa visa = .error e) : Benign e := by
  unfold insertVisa at h
  split at h
  · cases h
    exact .inr ⟨_, rfl, nofun, nofun⟩
  split at h
  · cases h
    exact .inr ⟨_, rfl, nofun, nofun⟩
  · cases h

variable {sums : Checksums} {lookup : FiveTupleLookup} {a : Action} {h : TxnHandle}
  {ts : List VisaTask} {stream : StreamId} {body pkt : Bytes} {len i : Nat} {key : StreamId}

theorem bindActorAddress_error (h : n.bindActorAddress sums lookup link txn body = .error e) :
    Benign e ∨ (e = .panic .dockConsistency ∧ n.lingers link txn = true) := by
  unfold bindActorAddress at h
  split at h
  · cases h
    exact .inl (.inr ⟨_, rfl, nofun, nofun⟩)
  · split at h
    · cases h
    split at h
    · exact .inr (bindReject_error h)
    split at h
    · cases h
    split at h
    · exact requestedVisaGranted_error h
    · cases h
    · exact .inr (bindReject_error h)
  · exact .inr (bindReject_error h)

theorem Fault.of_asks (ha : a.asks = some (link, txn))
    (h : Benign e ∨ (e = .panic .dockConsistency ∧ n.lingers link txn = true)) : Fault n a e := by
  rcases h with h | ⟨rfl, hl⟩
  · exact .benign h
  · exact .asked ha hl

theorem handleBindActorAddressRequest_error
    (h : n.handleBindActorAddressRequest sums lookup link txn len pkt = .error e) :
    Fault n (.bindActorAddressRequest link txn len pkt) e := by
  unfold handleBindActorAddressRequest at h
  split at h
  · cases h
  split at h
  · cases h
  split at h
  · cases h
  · have he := bindActorAddress_error h
    exact .of_asks rfl he

theorem handleStreamIdRequest_error (h : n.handleStreamIdRequest link txn v = .error e) :
    Fault n (.streamIdRequest link txn v) e := by
  unfold handleStreamIdRequest requestStream at h
  split at h
  · cases h
  split at h
  · cases h
  split at h
  · cases h
  split at h
  · exact .of_asks rfl (requestedVisaGranted_error h)
  · cases h

/-! ## Answers -/

theorem Fault.of_task {task : VisaTask} (ht : n.tasks[i]? = some task)
    (h : Benign e ∨ (e = .panic .dockConsistency ∧ n.lingers task.link task.txn = true)) :
    Fault n a e := by
  rcases h with h | ⟨rfl, hl⟩
  · exact .benign h
  · exact .answered ht hl

theorem setTasks_bindReject_error (h : (n.setTasks ts).bindReject link txn reason = .error e) :
    e = .panic .dockConsistency ∧ n.lingers link txn = true := by
  have he := bindReject_error h
  exact he

theorem insertVisa_granted_error
    (h : ((n.setTasks ts).insertVisa visa).bind (fun n => n.requestedVisaGranted link txn v) =
      .error e) : Benign e ∨ (e = .panic .dockConsistency ∧ n.lingers link txn = true) := by
  rcases except_bind_eq_error.mp h with h | ⟨m, hm, h⟩
  · exact .inl (insertVisa_error h)
  · obtain ⟨dockPep, -, rfl⟩ := insertVisa_ok hm
    have he := requestedVisaGranted_error h
    exact he

theorem resolveNextHopBindOriginator_error
    (hn : n.resolveNextHopBindOriginator egress h = .error e) : Fault n a e := by
  unfold resolveNextHopBindOriginator at hn
  split at hn
  · cases hn
  next link txn haw =>
  dsimp only at hn
  split at hn
  · cases hn
  next p hp =>
  have hlive : (n.serial link).isSome := by
    cases hs : n.serial link with
    | none =>
      rw [lookup_eraseAwaiting_eq_none.mpr (serial_eq_none.mp hs)] at hp
      cases hp
    | some σ => rfl
  rw [bindState_eraseAwaiting] at hn
  split at hn
  · next hst =>
    split at hn
    · cases hn
    next hne =>
    cases hn
    refine .unresolved haw hlive fun v hv => ?_
    rw [hst] at hv
    cases hv
    exact hne ⟨rfl, rfl⟩
  · next hst =>
    cases hn
    exact .unresolved haw hlive fun v hv => hst _ _ _ hv

theorem lingers_eraseAwaiting
    (hst : n.bindState link txn = some (.awaitingNextHopBind v egress h)) :
    (n.eraseAwaiting egress h).lingers link txn = false := by
  rw [lingers, bindState_eraseAwaiting, hst]
  simp [awaiting_eraseAwaiting]

theorem requestedTetherGranted_error
    (hst : n.bindState link txn = some (.awaitingNextHopBind v egress h))
    (hn : (n.eraseAwaiting egress h).requestedTetherGranted link txn stream key = .error e) :
    Benign e := by
  have hreject {m : Node} {reason : String} (hr : m.bindReject link txn reason = .error e)
      (hm : m.bindState = ((n.eraseAwaiting egress h).eraseBindState link txn).bindState) :
      Benign e := by
    obtain ⟨-, hl⟩ := bindReject_error hr
    rw [lingers_of_none (by rw [hm, bindState_eraseBindState, if_pos ⟨rfl, rfl⟩])] at hl
    cases hl
  unfold requestedTetherGranted at hn
  split at hn
  · cases hn
  rw [bindState_eraseAwaiting, hst] at hn
  dsimp only at hn
  split at hn
  · next haw =>
    rw [awaiting_eraseAwaiting, if_pos ⟨rfl, rfl⟩] at haw
    cases haw
  split at hn
  · exact hreject hn rfl
  split at hn
  · cases hn
    exact .inl rfl
  split at hn
  · exact hreject hn rfl
  unfold installRoute at hn
  split at hn
  · cases hn
  · split at hn
    · cases hn
      exact .inr ⟨_, rfl, nofun, nofun⟩
    · cases hn
  all_goals exact hreject hn rfl

theorem installTether_error (hn : n.installTether egress h stream key = .error e) :
    Fault n a e := by
  rcases except_bind_eq_error.mp hn with hn | ⟨_ | ⟨m, link, txn⟩, hm, hn⟩
  · exact resolveNextHopBindOriginator_error hn
  · cases hn
  obtain ⟨-, rfl, hnone | ⟨v, hst⟩⟩ := resolveNextHopBindOriginator_ok hm
  · dsimp only at hn
    rw [requestedTetherGranted, lookup_eraseAwaiting_eq_none.mpr hnone] at hn
    cases hn
  · exact .benign (requestedTetherGranted_error hst hn)

theorem denyTether_error (hn : n.denyTether egress h reason = .error e) : Fault n a e := by
  rcases except_bind_eq_error.mp hn with hn | ⟨_ | ⟨m, link, txn⟩, hm, hn⟩
  · exact resolveNextHopBindOriginator_error hn
  · cases hn
  obtain ⟨-, rfl, hnone | ⟨v, hst⟩⟩ := resolveNextHopBindOriginator_ok hm
  · dsimp only at hn
    rw [bindReject, lookup_eraseAwaiting_eq_none.mpr hnone] at hn
    cases hn
  · obtain ⟨-, hl⟩ := bindReject_error hn
    rw [lingers_eraseAwaiting hst] at hl
    cases hl

/-! ## All actions -/

theorem removeRoutes_error {entries : List ForwardingEntry} (h : n.removeRoutes entries = .error e) :
    e = .panic .vacantSlot := by
  induction entries generalizing n with
  | nil => cases h
  | cons entry rest ih =>
    rcases except_bind_eq_error.mp h with h | ⟨m, -, h⟩
    · unfold removeRoute at h
      split at h
      · cases h
      split at h <;> cases h
      rfl
    · exact ih h

theorem revokeAll_error {vs : List VisaId} (h : n.revokeAll vs = .error e) :
    e = .panic .vacantSlot := by
  induction vs generalizing n with
  | nil => cases h
  | cons v rest ih =>
    rcases except_bind_eq_error.mp h with h | ⟨m, -, h⟩
    · unfold revokeNoRebuild at h
      split at h
      · cases h
      · exact removeRoutes_error (except_map_eq_error.mp h)
    · exact ih (except_map_eq_error.mp h)

theorem revokeAll_singleton_error (h : n.revokeNoRebuild v = .error e) :
    n.revokeAll [v] = .error e := by
  rw [revokeAll, h]
  rfl

/-- An action fails only in one of the listed ways. -/
theorem handle_fault (h : n.handle sums lookup a = .error e) : Fault n a e := by
  have htether {link : LinkId} {p : PeerState → Bool} {f : PeerState → PeerState}
      (h : n.modifyTether link p f = .error e) : Fault n a e := by
    unfold modifyTether at h
    split at h
    · cases h
      exact .benign (.inl rfl)
    split at h <;> cases h
    exact .benign (.inl rfl)
  cases a with
  | tick | unbindIndication => cases h
  | startTether =>
    simp only [handle, addPeer] at h
    split at h <;> cases h
    exact .benign (.inl rfl)
  | assignAaaAddress | releaseAaaAddress | authorized | deregisterActorAddresses => exact htether h
  | dropPeer link => exact .vacant rfl rfl (except_map_eq_error.mp (except_map_eq_error.mp h))
  | grantVisa visa => exact .benign (insertVisa_error h)
  | revokeVisa v => exact .vacant rfl rfl (revokeAll_singleton_error (except_map_eq_error.mp h))
  | handleExpirations => exact .vacant (by exact rfl) (by exact rfl) (except_map_eq_error.mp h)
  | bindActorAddressRequest => exact handleBindActorAddressRequest_error h
  | streamIdRequest => exact handleStreamIdRequest_error h
  | visaRequestAnswered | visaByIdAnswered =>
    rcases handle_finishes rfl h with ⟨⟨⟩⟩ | ⟨task, htask, ⟨visa, -, h⟩ | ⟨reason, h⟩⟩
    · exact .benign (.inl rfl)
    · exact .of_task htask (insertVisa_granted_error h)
    · exact .of_task htask (.inr (setTasks_bindReject_error h))
  | tetherResponse link txn reply key =>
    simp only [handle, handleTetherResponse] at h
    split at h
    · cases h
    split at h
    · cases h
    split at h
    · exact installTether_error h
    · exact denyTether_error h
    · cases h

end Node

end ZprCore.Dock
