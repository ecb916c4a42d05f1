-- SUMMARY: When cancelled window slots are given back.
import ZprCore.Mgmt.SendSession

/-!
# Cancelled window slots

A cancelled or retry-limited packet keeps its slot in the window until the packet's
`AckedOrCanceled` forgets it. The future does so when it is released, but only under the sequence
number it has cached: one that still caches a queue id forgets nothing. In every run that
releases no such future too early, each entry that waits to be forgotten belongs to a live
`AckedOrCanceled`, and the window empties once everything is answered.
-/

namespace ZprCore.Mgmt

open Zdpr

def PacketId.isQueued : PacketId → Bool
  | .queued _ => true
  | _ => false

/-- A waiting entry of `packet` with a retry limit. -/
def limits (packet : Nat) : BlockedState Nat → Bool
  | .blocked p _ (some _) => p == packet
  | _ => false

namespace SendSession

variable {c c' : SendSession} {W : Nat} {f : SendFuture} {i : Nat} {op : FutureOp} {a : SendAction}

/-- An `AckedOrCanceled` that still caches a queue id is neither dropped nor enqueued while its
    packet has an entry to be forgotten, nor enqueued while the packet waits with a limit. -/
def ReleasesInTime (c : SendSession) : SendAction → Prop
  | .future i op =>
    ∀ f ∈ c.futures[i]?.join, f.kind = .ackedOrCanceled → f.packetId.isQueued = true →
      (op = .drop ∨ op = .enqueue → ∀ k < c.numbers.length, c.numbers[k]? = some f.packet →
        ¬ (c.net.sender.status c.numbers.length k).Leaky) ∧
      (op = .enqueue → ∀ b ∈ c.net.sender.blocked, limits f.packet b = false)
  | _ => True

instance : (a : SendAction) → Decidable (c.ReleasesInTime a)
  | .future _ _ => decidableForallMem (fun _ => inferInstance) _
  | .sendMgmt | .input _ | .deliver _ => inferInstanceAs (Decidable True)

/-- No live `AckedOrCanceled` is for packet `p`. -/
def Unowned (c : SendSession) (p : Nat) : Prop :=
  ∀ i f, c.Live i f → f.kind = .ackedOrCanceled → f.packet ≠ p

/-- Every entry that waits to be forgotten has an owner. -/
def LeaksOwned (c : SendSession) : Prop :=
  ∀ p, c.Unowned p → LeakFree c.net.sender c.numbers c.ids p

theorem LeaksOwned.moves (h : c.LeaksOwned) (hm : Moves c c') : c'.LeaksOwned := by
  intro p hp
  exact hm.progress.leakFree p trivial (h p fun i f hf => hp i f (hm.live.mpr hf))

theorem LeaksOwned.adds (h : c.LeaksOwned) (ha : Adds f c c') :
    c'.LeaksOwned := by
  intro p hp
  by_cases heq : p = c.total
  · subst heq
    exact ha.plain.leakFree
  · exact ha.progress.leakFree p heq (h p fun i g hg => hp i g (ha.live_of_live hg))

theorem ReleasesInTime.leakFree (hok : c.ReleasesInTime (.future i op)) (hf : c.Live i f)
    (hk : f.kind = .ackedOrCanceled) (ho : Overlooks c.net.sender c.ids f.packet f.packetId op) :
    LeakFree c.net.sender c.numbers c.ids f.packet := by
  obtain ⟨⟨id, hid⟩, hop⟩ := ho
  obtain ⟨hstatus, hlimits⟩ := hok f (by rw [show c.futures[i]? = _ from hf]; rfl) hk (by rw [hid]; rfl)
  refine ⟨?_, ?_⟩
  · intro j w l hw
    rcases hop with rfl | ⟨-, hnot⟩
    · cases l with
      | none => rfl
      | some limit =>
        have := hlimits rfl _ (Sender.mem_blocked_of_queued hw)
        simp [limits] at this
    · exact absurd hw (hnot j w l)
  · intro k hk
    exact hstatus (hop.elim .inr fun h => .inl h.1) k (Sender.lt_of_getElem? hk) hk

theorem LeaksOwned.futureStep (h : c.LeaksOwned) (hc : c.Consistent) (ht : c.total < 2 ^ 63)
    (hok : c.ReleasesInTime (.future i op))
    (hstep : c.futureStep i op = some c') : c'.LeaksOwned := by
  obtain ⟨f, r, s, hu, rfl⟩ := futureStep_eq hstep
  have hf := hu.live
  have hl := hc.leaves ht hu
  intro p hp
  suffices hfree : LeakFree s c.numbers c.ids p by simpa [transmit] using hfree
  -- the other futures are still there
  have hothers : ∀ j g, j ≠ i → c.Live j g → g.kind = .ackedOrCanceled → g.packet ≠ p := by
    intro j g hj hg hk
    refine hp j g ?_ hk
    exact (FutureStep.getElem?_after_ne (Sender.lt_of_getElem? hg) hj).trans hg
  by_cases hpt : p = f.packet
  · subst hpt
    by_cases hsp : f.Spent
    · obtain ⟨rfl, -⟩ := hc.spent_run hu hsp
      apply h
      intro j g hg hk
      by_cases hj : j = i
      · subst hj
        obtain rfl : f = g := Option.some.inj (Option.some.inj (hf.symm.trans hg))
        exact absurd (hsp.1.symm.trans hk) (by rintro ⟨⟩)
      · exact hothers j g hj hg hk
    · have hh := hc.handled ht hu hsp
      cases hfut : r.future with
      | none =>
        rcases hh.released hfut with hfree | ⟨hk, ho, rfl⟩
        · exact hfree
        · exact hok.leakFree hf hk ho
      | some next =>
        obtain ⟨kind, packetId⟩ := next
        refine ((hh.future kind packetId hfut).2 ?_).leakFree
        rintro rfl
        refine hp i (f.update .ackedOrCanceled packetId r.resolution.isSome) ?_ rfl rfl
        refine (FutureStep.getElem?_after_self (Sender.lt_of_getElem? hf)).trans ?_
        rw [hfut, Option.map_some]
  · refine hl.alters.leakFree hpt (h p ?_)
    intro j g hg hk
    by_cases hj : j = i
    · subst hj
      obtain rfl : f = g := Option.some.inj (Option.some.inj (hf.symm.trans hg))
      exact fun heq => hpt heq.symm
    · exact hothers j g hj hg hk

/-! ## Whole runs -/

theorem tidy_step (ht : c.net.sender.Tidy) (h : c.step a = some c') :
    c'.net.sender.Tidy := by
  cases a with
  | sendMgmt =>
    cases h
    have htidy := ht.enqueuePacket c.total
    unfold sendMgmtHelper
    split
    all_goals
      next heq =>
      rw [heq] at htidy
      exact htidy
  | input input =>
    obtain ⟨⟨s, sent, messages⟩, hs, rfl⟩ := Option.map_eq_some_iff.mp h
    exact SenderInput.tidy_apply ht hs
  | future i op =>
    obtain ⟨f, r, s, hu, rfl⟩ := futureStep_eq h
    obtain ⟨s', hs', hcase⟩ := FutureOp.run_runs hu.run
    cases hu.peer.symm.trans hs'
    rcases hcase with ⟨-, htouched⟩ | ⟨sn, -, -, hforget⟩
    · exact htouched.calm.tidy ht
    · exact ht.settles (Sender.forgetCanceledPacket_effect hforget)
  | deliver i =>
    obtain ⟨net, hnet, rfl⟩ := Option.map_eq_some_iff.mp h
    obtain ⟨sn, d, r, rfl⟩ := Session.deliver_eq_answer hnet
    exact ht

structure LeakInv (c : SendSession) : Prop where
  consistent : c.Consistent
  tidy : c.net.sender.Tidy
  owned : c.LeaksOwned

theorem leakInv_start (h : start W = some c) : c.LeakInv := by
  have hc := consistent_start h
  obtain ⟨net, hnet, rfl⟩ := Option.map_eq_some_iff.mp h
  obtain ⟨r, -, rfl⟩ := Option.map_eq_some_iff.mp hnet
  refine ⟨hc, Sender.tidy_new, fun p _ => ⟨?_, nofun⟩⟩
  intro j w l hw
  exact absurd (hc.ledger.waiting j p w l hw).1 nofun

theorem LeakInv.step (h : c.LeakInv) (ht : c.total < 2 ^ 63)
    (hok : c.ReleasesInTime a) (hstep : c.step a = some c') : c'.LeakInv := by
  refine ⟨h.consistent.step ht hstep, tidy_step h.tidy hstep, ?_⟩
  cases a with
  | sendMgmt =>
    cases hstep
    obtain ⟨f, ha⟩ := h.consistent.sendMgmtHelper
    exact h.owned.adds ha
  | future i op => exact h.owned.futureStep h.consistent ht hok hstep
  | input | deliver =>
    exact h.owned.moves (h.consistent.network_step ht rfl hstep)

theorem leakInv_of_run (h : Run step (start W = some ·) ReleasesInTime c)
    (ht : c.total < 2 ^ 63) : c.LeakInv := by
  have hall : c.total < 2 ^ 63 → c.LeakInv := by
    refine Run.invariant (P := fun c => c.total < 2 ^ 63 → c.LeakInv) ?_ ?_ h
    · exact fun _ hs _ => leakInv_start hs
    · intro c a c' ih hok hstep ht'
      have ht : c.total < 2 ^ 63 := lt_of_le_of_lt (total_le_of_step hstep) ht'
      exact (ih ht).step ht hok hstep
  exact hall ht

/-- The packet with entry `idx` of the window. -/
def packetAt (c : SendSession) (idx : Nat) : Option Nat :=
  c.numbers[c.numbers.length - c.net.sender.unacked.length + idx]?

/-- In every run that releases no future too early, the window holds no entry to be forgotten
    for a packet without a live `AckedOrCanceled`; and without any such future it empties as
    soon as everything in it is answered. -/
theorem no_leaked_slots (h : Run step (start W = some ·) ReleasesInTime c) (ht : c.total < 2 ^ 63) :
    (∀ idx e p, c.net.sender.unacked[idx]? = some e → c.packetAt idx = some p → c.Unowned p →
      ¬ e.Leaky) ∧
    ((∀ p, c.Unowned p) → c.net.sender.retryNeeded = false → c.net.sender.unacked = []) := by
  have hi := leakInv_of_run h ht
  have hentry : ∀ idx e p, c.net.sender.unacked[idx]? = some e → c.packetAt idx = some p →
      c.Unowned p → ¬ e.Leaky := by
    intro idx e p he hp hun
    have hfree := (hi.owned p hun).status _ hp
    rwa [Sender.status_at he] at hfree
  refine ⟨hentry, ?_⟩
  intro hun hretry
  cases hu : c.net.sender.unacked with
  | nil => rfl
  | cons e rest =>
    -- the oldest entry is answered but not trimmed, so it is `CancelAcked`
    have he : c.net.sender.unacked[0]? = some e := by rw [hu]; rfl
    have hacked : e.isAcked = true := by
      have := hretry
      simp only [Sender.retryNeeded, hu, List.any_cons, Bool.or_eq_false_iff,
        Bool.not_eq_eq_eq_not, Bool.not_false] at this
      exact this.1
    have hfront : e ≠ .acked := hi.tidy.unacked e (by rw [hu]; rfl)
    have hlen := hi.consistent.ledger.hasSent.length_le
    have hlt : c.numbers.length - c.net.sender.unacked.length + 0 < c.numbers.length := by
      rw [hu] at hlen ⊢
      simp only [List.length_cons] at hlen ⊢
      omega
    refine absurd ?_ (hentry 0 e _ he (List.getElem?_eq_getElem hlt) (hun _))
    cases e with
    | cancelAcked => trivial
    | acked => exact absurd rfl hfront
    | unacked | cancelRequested => cases hacked

/-- Packet 0 is retried to its limit, cancelled, and forgotten under its number. -/
def forgottenInTime : List SendAction :=
  [.sendMgmt, .future 0 (.limitRetries 0), .input .retryTick, .input (.reply (.canceled 0)),
    .future 0 .drop]

theorem unowned_of_dropped (h : ∀ f ∈ c.futures, f.isSome = false) (p : Nat) : c.Unowned p := by
  intro i f hf
  cases h _ (List.mem_of_getElem? hf)

theorem no_leaked_slots_forgottenInTime :
    ∃ c : SendSession, Run step (start 1 = some ·) ReleasesInTime c ∧ c.total = 1 ∧
      (∀ p, c.Unowned p) ∧ c.net.sender.unacked = [] := by
  refine Run.reaches_imp (P := fun c => c.total = 1 ∧ (∀ f ∈ c.futures, f.isSome = false) ∧
    c.net.sender.retryNeeded = false) rfl forgottenInTime (by decide +kernel) ?_
  rintro c hrun ⟨htotal, hfutures, hretry⟩
  have hun := unowned_of_dropped hfutures
  exact ⟨htotal, hun, (no_leaked_slots hrun (by omega)).2 hun hretry⟩

/-- Packet 1 waits with a retry limit and is sent. Its future is dropped while it still caches
    the queue id, so that the cancellation that follows is never forgotten. -/
theorem slot_leaked_by_queued_future :
    ∃ c : SendSession, Run step (start 1 = some ·) (fun _ _ => True) c ∧ (∀ p, c.Unowned p) ∧
      c.net.sender.retryNeeded = false ∧ c.packetAt 0 = some 1 ∧
      c.net.sender.unacked = [.cancelAcked] := by
  refine Run.reaches_imp (P := fun c => (∀ f ∈ c.futures, f.isSome = false) ∧
    c.net.sender.retryNeeded = false ∧ c.packetAt 0 = some 1 ∧ c.net.sender.unacked = [.cancelAcked])
    rfl [.sendMgmt, .sendMgmt, .future 1 (.limitRetries 0), .input (.reply (.ack 0)),
      .future 0 .drop, .future 1 .drop, .input .retryTick, .input (.reply (.canceled 1))]
    (by decide +kernel) ?_
  rintro c - ⟨hfutures, hrest⟩
  exact ⟨unowned_of_dropped hfutures, hrest⟩

end SendSession

end ZprCore.Mgmt
