-- SUMMARY: What every event handler leaves alone.
import ZprCore.Link.Closed

/-!
# Calm handlers

A handler is calm if it works on the link it was given, does not make a node's link to an
adapter active, and neither asks the visa service to authorize a link nor puts a message into a
queue. All handlers are calm except those of an acquire request and of an authorize response.
-/

namespace ZprCore.Link

/-- A link of a node to an adapter does not become active and keeps its addresses while it is. -/
def KeepsActive (p p' : PeerState) : Prop :=
  p'.linkType = .nodeToAdapter → p'.fsm.state = .active →
    p.fsm.state = .active ∧ p'.fsm.actorAddresses = p.fsm.actorAddresses

theorem KeepsActive.refl (p : PeerState) : KeepsActive p p := fun _ hs => ⟨hs, rfl⟩

structure Calm (h h' : Handling) : Prop where
  same : SameLink h.peer h'.peer
  active : KeepsActive h.peer h'.peer
  effects : Grown (·.isCalm) h.effects h'.effects

namespace Calm

variable {h₀ h h' : Handling}

theorem refl (h : Handling) : Calm h h := ⟨.refl _, .refl _, .refl _⟩

theorem trans (c : Calm h₀ h) (c' : Calm h h') : Calm h₀ h' := by
  refine ⟨c.same.trans c'.same, fun ht hs => ?_, c.effects.trans c'.effects⟩
  obtain ⟨hs', ha'⟩ := c'.active ht hs
  obtain ⟨hs₀, ha⟩ := c.active (c'.same.linkType ▸ ht) hs'
  exact ⟨hs₀, ha'.trans ha⟩

theorem setPeer {p : PeerState} (c : Calm h₀ h) (same : SameLink h.peer p)
    (active : KeepsActive h.peer p) : Calm h₀ { h with peer := p } :=
  c.trans ⟨same, active, .refl _⟩

theorem mapData (c : Calm h₀ h) (f : LinkData → LinkData) : Calm h₀ (h.mapData f) :=
  c.setPeer ⟨rfl, rfl, rfl, rfl⟩ fun _ hact => ⟨hact, rfl⟩

theorem emit {e : Effect} (c : Calm h₀ h) (he : e.isCalm) : Calm h₀ (h.emit e) :=
  c.trans ⟨.refl _, .refl _, .one he⟩

theorem closed : ClosedAddresses (Calm h₀) where
  peer c same fsm _ := c.setPeer same fun _ hact => ⟨fsm ▸ hact, by rw [fsm]⟩
  data {_ d} c _ := c.mapData fun _ => d
  emit c _ he := c.emit he
  fsm c hs ha := c.setPeer ⟨rfl, rfl, rfl, rfl⟩ fun _ hact => ⟨hs ▸ hact, ha⟩
  setState c hs := c.setPeer ⟨rfl, rfl, rfl, rfl⟩ fun _ hact => absurd hact hs
  becomeActive c hty := c.setPeer ⟨rfl, rfl, rfl, rfl⟩ fun hty' _ => absurd hty' hty
  forget c hs := c.setPeer ⟨rfl, rfl, rfl, rfl⟩ fun _ hact => absurd hact hs
  address _ _ c := c.mapData _
  release c := c.emit rfl

theorem renewals : QuietRenewals (Calm h₀) where
  toStill := closed.toStill
  renewal {_ d} c _ := c.mapData fun _ => d
  renew {h w} c hw := c.emit (by cases w <;> first | rfl | cases hw)

end Calm

theorem calm_processEvent {cx : Context} (h : Handling) {event : LinkEvent}
    (he : event.admits = false) : Calm h (h.processEvent cx event).1 :=
  Calm.closed.processEvent (.refl h) he
    (Calm.closed.processKeepAliveResponse Calm.renewals (.refl h))
    fun challenge result => Calm.renewals.processRenewAuthResponse (.refl h) challenge result

theorem eq_ok_of_isOk {ε : Type} {r : Except ε Unit} (h : r.isOk) : r = .ok () := by
  cases r with
  | error e => cases h
  | ok u => rfl

theorem Handling.checkBlob_verified {cx : Context} {peer : PeerState} {maxAge : Nat} {blob : AuthBlob}
    (h : Handling.checkBlob cx peer maxAge blob = true) : blob.Verified cx.prim peer.authKey := by
  cases blob with
  | selfSigned ssBlob =>
    unfold Handling.checkBlob Handling.checkSelfSignedBlob at h
    dsimp only at h
    split at h
    · cases h
    · exact ZdpSelfSignedBlob.verified (eq_ok_of_isOk h)
  | oidc oidcBlob => exact ZdpOidcBlob.verified (eq_ok_of_isOk h)

end ZprCore.Link
