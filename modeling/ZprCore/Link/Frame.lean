-- SUMMARY: Parts of a link's data and kinds of effects that a handler leaves alone.
import ZprCore.Link.Closed

/-!
# Frames

A frame is a view of a link's data together with a set of effects. A handler keeps the frame if
the view is the same after it and all the effects it adds are in the set. Nearly every handler
keeps a frame that does not look at what all handlers write; the handlers that assign or release an
address keep those that do not look at addresses either, and the handlers of a renewal those that
do not look at renewals.
-/

namespace ZprCore.Link

structure Frame (β : Type) where
  view : LinkData → β
  plain : Effect → Bool

variable {β : Type}

namespace Frame

/-- The frame does not look at what all handlers write. -/
structure Common (F : Frame β) : Prop where
  noted : ∀ {d d'}, LinkData.Noted d d' → F.view d' = F.view d
  effects : ∀ {e}, e.isCommon = true → F.plain e = true

/-- The frame does not look at AAA addresses. -/
structure Addressless (F : Frame β) : Prop extends F.Common where
  aaaAddress : ∀ d idps addr, F.view { d with oidcIdps := idps, aaaAddress := addr } = F.view d
  release : ∀ addr, F.plain (.releaseAddress addr) = true

/-- The frame does not look at renewals. -/
structure Renewalless (F : Frame β) : Prop extends F.Common where
  renewed : ∀ {d d'}, LinkData.Renewed d d' → F.view d' = F.view d
  spawn : ∀ {w : Work}, w.isRenewal = true → F.plain (.spawn w) = true

end Frame

/-- The handler keeps the frame. -/
structure Keeps {β : Type} (F : Frame β) (h h' : Handling) : Prop where
  view : F.view h'.peer.data = F.view h.peer.data
  effects : Grown (F.plain · = true) h.effects h'.effects

namespace Keeps

variable {F : Frame β} {h₀ h h' : Handling}

theorem refl (h : Handling) : Keeps F h h := ⟨rfl, .refl _⟩

theorem trans (k : Keeps F h₀ h) (k' : Keeps F h h') : Keeps F h₀ h' :=
  ⟨k'.view.trans k.view, k.effects.trans k'.effects⟩

theorem setPeer {p : PeerState} (k : Keeps F h₀ h) (hd : F.view p.data = F.view h.peer.data) :
    Keeps F h₀ { h with peer := p } :=
  k.trans ⟨hd, .refl _⟩

theorem emit {e : Effect} (k : Keeps F h₀ h) (he : F.plain e = true) : Keeps F h₀ (h.emit e) :=
  k.trans ⟨rfl, .one he⟩

theorem closed (hF : F.Common) : ClosedAdmission (Keeps F h₀) where
  peer k _ _ hd := k.setPeer (congrArg F.view hd)
  data k hd := k.setPeer (hF.noted hd)
  emit k he _ := k.emit (hF.effects he)
  fsm k _ _ := k.setPeer rfl
  setState k _ := k.setPeer rfl
  becomeActive k _ := k.setPeer rfl
  forget k _ := k.setPeer rfl
  assign k := k.setPeer rfl
  enter k := k.setPeer rfl
  authorize k := k.emit (hF.effects rfl)

theorem addresses (hF : F.Addressless) : ClosedAddresses (Keeps F h₀) where
  toClosed := (closed hF.toCommon).toClosed
  address _ _ k := k.setPeer (hF.aaaAddress ..)
  release k := k.emit (hF.release _)

theorem renewals (hF : F.Renewalless) : QuietRenewals (Keeps F h₀) where
  toStill := (closed hF.toCommon).toStill
  renewal k hd := k.setPeer (hF.renewed hd)
  renew k hw := k.emit (hF.spawn hw)

end Keeps

end ZprCore.Link
