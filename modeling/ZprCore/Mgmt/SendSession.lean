-- SUMMARY: One ZDP-R session with the futures of every packet sent on it.
import ZprCore.Mgmt.Progress
import ZprCore.Zdpr.Delivery

/-!
# One session and its futures

The sender of a `Session` as `mgmt/core.rs`, the dispatcher and the retry worker drive it. Every
packet is sent by `send_mgmt_helper`, which returns a future for it; the future is polled,
cancelled, limited, enqueued or dropped at any time after. The packets are the numbers
`0, 1, …` in the order of the calls.

Beside the code's own state a session keeps the packets in the order in which they were
numbered and queued, and what each `AckedOrCanceled` resolved to.
-/

namespace ZprCore.Mgmt

open Zdpr

structure SendFuture where
  kind : FutureKind
  packetId : PacketId
  /-- the packet the future was returned for -/
  packet : Nat
  /-- polled to completion: from now on it is only dropped -/
  resolved : Bool

def SendFuture.update (f : SendFuture) (kind : FutureKind) (packetId : PacketId) (resolved : Bool) :
    SendFuture :=
  { f with kind, packetId, resolved }

/-- A resolved `Sent` has handed its packet over to the `Acked` it resolved to. -/
def SendFuture.Spent (f : SendFuture) : Prop := f.kind = .sent ∧ f.resolved = true

structure SendSession where
  net : Session Nat
  /-- every future returned so far, `none` once it is consumed -/
  futures : List (Option SendFuture)
  /-- the packets in the order of their sequence numbers -/
  numbers : List Nat
  /-- the packets in the order of their queue ids -/
  ids : List Nat
  /-- how many packets were sent or queued -/
  total : Nat
  /-- what the `AckedOrCanceled` futures resolved to -/
  resolutions : List (Nat × PacketStatus)

inductive SendAction where
  | sendMgmt
  | input (input : SenderInput)
  | future (i : Nat) (op : FutureOp)
  /-- the `i`th message on the wire reaches the peer's receiver -/
  | deliver (i : Nat)

/-- The actions that neither send a packet nor operate on a future. -/
def SendAction.ofNetwork : SendAction → Bool
  | .sendMgmt | .future _ _ => false
  | .input _ | .deliver _ => true

namespace SendSession

/-- A fresh session whose peer has receive window `W`. -/
def start (W : Nat) : Option SendSession := (Session.start W).map fun net => ⟨net, [], [], [], 0, []⟩

/-- The session after its sender sent `messages`, the numbered packets `sent` among them. -/
def transmit (c : SendSession) (s : Sender Nat) (sent : List (SeqNum × Nat))
    (messages : List (Message Nat)) : SendSession :=
  { c with
    net :=
      { c.net with
        sender := s
        forward := c.net.forward ++ sent.map (fun r => .packet r.1 r.2) ++ messages
        sentCount := c.net.sentCount + sent.length }
    numbers := c.numbers ++ sent.map (·.2) }

def sendMgmtHelper (c : SendSession) : SendSession :=
  match c.net.sender.enqueuePacket c.total with
  | (.sent sn packet, s) =>
    { c.transmit s [(sn, packet)] [] with
      futures := c.futures ++ [some ⟨.sent, .sent sn, c.total, false⟩]
      total := c.total + 1 }
  | (.queued id, s) =>
    { c.transmit s [] [] with
      futures := c.futures ++ [some ⟨.sent, .queued id, c.total, false⟩]
      ids := c.ids ++ [c.total]
      total := c.total + 1 }

/-- What an operation on the future of `packet` adds to the record of answers. -/
def answered (packet : Nat) : Option Resolution → List (Nat × PacketStatus)
  | some (.status status) => [(packet, status)]
  | _ => []

def futureStep (c : SendSession) (i : Nat) (op : FutureOp) : Option SendSession :=
  match c.futures[i]? with
  | some (some f) =>
    if f.resolved ∧ op ≠ .drop then none
    else
      (op.run (some c.net.sender) f.kind f.packetId).bind fun r =>
        r.peer.map fun s =>
          { c.transmit s [] (r.cancels.map .cancel) with
            futures := r.after f.update c.futures i
            resolutions := c.resolutions ++ answered f.packet r.resolution }
  | _ => none

def step (c : SendSession) : SendAction → Option SendSession
  | .sendMgmt => some c.sendMgmtHelper
  | .input input =>
    (input.apply c.net.sender).map fun (s, sent, messages) => c.transmit s sent messages
  | .future i op => c.futureStep i op
  | .deliver i => (c.net.step (.deliver i)).map fun net => { c with net }

/-! ## What the futures know -/

variable {c c' : SendSession} {l ids numbers' ids' : List Nat} {n W j t : Nat}

def Live (c : SendSession) (i : Nat) (f : SendFuture) : Prop := c.futures[i]? = some (some f)

/-- What a live future knows about its packet. -/
structure Cares (s : Sender Nat) (numbers ids : List Nat) (f : SendFuture) : Prop where
  spent : f.Spent → ∀ id, f.packetId ≠ .queued id
  holds : ¬ f.Spent → Holds s numbers ids f.packet f.kind f.packetId
  plain : ¬ f.Spent → f.kind ≠ .ackedOrCanceled → Plain s numbers ids f.packet

structure Consistent (c : SendSession) : Prop where
  ledger : c.net.sender.Ledger c.numbers c.ids
  numbers_lt : ∀ p ∈ c.numbers, p < c.total
  ids_lt : ∀ p ∈ c.ids, p < c.total
  packet_lt : ∀ i f, c.Live i f → f.packet < c.total
  cares : ∀ i f, c.Live i f → Cares c.net.sender c.numbers c.ids f
  /-- only a spent future shares its packet with another one -/
  distinct : ∀ i j f g, c.Live i f → c.Live j g → f.packet = g.packet → i ≠ j →
    f.Spent ∨ g.Spent

theorem length_le_of_nodup (h : l.Nodup) (hlt : ∀ p ∈ l, p < n) :
    l.length ≤ n := by
  have hsub : l ⊆ List.range n := fun p hp => List.mem_range.mpr (hlt p hp)
  simpa using (h.subperm hsub).length_le

theorem Consistent.numbers_le (hc : c.Consistent) : c.numbers.length ≤ c.total :=
  length_le_of_nodup hc.ledger.numbers_nodup hc.numbers_lt

theorem Consistent.ids_le (hc : c.Consistent) : c.ids.length ≤ c.total :=
  length_le_of_nodup hc.ledger.ids_nodup hc.ids_lt

theorem consistent_start (h : start W = some c) : c.Consistent := by
  obtain ⟨net, hnet, rfl⟩ := Option.map_eq_some_iff.mp h
  obtain ⟨r, -, rfl⟩ := Option.map_eq_some_iff.mp hnet
  exact
    { ledger := .new
      numbers_lt := nofun
      ids_lt := nofun
      packet_lt := fun i f h => by simp [Live] at h
      cares := fun i f h => by simp [Live] at h
      distinct := fun i j f g h => by simp [Live] at h }

variable {s : Sender Nat} {f g : SendFuture} {i : Nat} {op : FutureOp} {r : FutureStep Nat}
  {a : SendAction} {numbers : List Nat} {s' : Sender Nat}

theorem Cares.progress {old : Nat → Prop} (hp : Progress old s numbers ids s' numbers' ids')
    (hold : old f.packet) (h : Cares s numbers ids f) : Cares s' numbers' ids' f where
  spent := h.spent
  holds hf := hp.holds hold (h.holds hf)
  plain hf hk := hp.plain _ hold (h.plain hf hk)

/-- From `c` to `c'` no future was operated on and no packet sent by the caller. -/
structure Moves (c c' : SendSession) : Prop where
  progress : Progress (fun _ => True) c.net.sender c.numbers c.ids c'.net.sender c'.numbers c'.ids
  numbers_lt : ∀ p ∈ c'.numbers, p < c.total
  ids : c'.ids = c.ids
  futures : c'.futures = c.futures
  total : c'.total = c.total
  resolutions : c'.resolutions = c.resolutions

theorem Moves.live (hm : Moves c c') : c'.Live i f ↔ c.Live i f := by
  rw [Live, hm.futures, Live]

theorem Consistent.moves (hc : c.Consistent) (hm : Moves c c') : c'.Consistent where
  ledger := hm.progress.ledger
  numbers_lt := hm.total ▸ hm.numbers_lt
  ids_lt := by
    rw [hm.ids, hm.total]
    exact hc.ids_lt
  packet_lt i f h := hm.total ▸ hc.packet_lt i f (hm.live.mp h)
  cares i f h := (hc.cares i f (hm.live.mp h)).progress hm.progress trivial
  distinct i j f g hi hj := hc.distinct i j f g (hm.live.mp hi) (hm.live.mp hj)

/-- From `c` to `c'` a new packet was sent, and `f` returned for it. -/
structure Adds (f : SendFuture) (c c' : SendSession) : Prop where
  progress : Progress (· ≠ c.total) c.net.sender c.numbers c.ids c'.net.sender c'.numbers c'.ids
  numbers_lt : ∀ p ∈ c'.numbers, p < c.total + 1
  ids_lt : ∀ p ∈ c'.ids, p < c.total + 1
  futures : c'.futures = c.futures ++ [some f]
  total : c'.total = c.total + 1
  resolutions : c'.resolutions = c.resolutions
  packet : f.packet = c.total
  kind : f.kind = .sent
  resolved : f.resolved = false
  cares : Cares c'.net.sender c'.numbers c'.ids f

theorem Adds.not_spent (ha : Adds f c c') : ¬ f.Spent :=
  fun h => Bool.false_ne_true (ha.resolved.symm.trans h.2)

theorem Adds.plain (ha : Adds f c c') : Plain c'.net.sender c'.numbers c'.ids c.total := by
  have h := ha.cares.plain ha.not_spent (by rw [ha.kind]; exact nofun)
  rwa [ha.packet] at h

theorem Adds.live (ha : Adds f c c') (h : c'.Live i g) :
    c.Live i g ∨ g = f ∧ i = c.futures.length := by
  rw [Live, ha.futures] at h
  rcases Sender.Ledger.getElem?_concat h with hold | ⟨hi, heq⟩
  · exact .inl hold
  · exact .inr ⟨Option.some.inj heq, hi⟩

theorem Adds.live_of_live (ha : Adds f c c') (h : c.Live i g) : c'.Live i g := by
  rw [Live, ha.futures]
  exact Sender.Ledger.getElem?_concat_of_some h

theorem Consistent.packet_ne_total (hc : c.Consistent) (h : c.Live i g) : g.packet ≠ c.total :=
  Nat.ne_of_lt (hc.packet_lt i g h)

theorem Consistent.adds (hc : c.Consistent) (ha : Adds f c c') : c'.Consistent := by
  have hnew : f.packet = c.total := ha.packet
  refine ⟨ha.progress.ledger, ha.total ▸ ha.numbers_lt, ha.total ▸ ha.ids_lt, ?_, ?_, ?_⟩
  · intro i g h
    rw [ha.total]
    rcases ha.live h with hold | ⟨rfl, -⟩
    · exact Nat.lt_succ_of_lt (hc.packet_lt i g hold)
    · omega
  · intro i g h
    rcases ha.live h with hold | ⟨rfl, -⟩
    · exact (hc.cares i g hold).progress ha.progress (hc.packet_ne_total hold)
    · exact ha.cares
  · intro i j g g' hi hj heq hij
    rcases ha.live hi with hi | ⟨rfl, rfl⟩ <;> rcases ha.live hj with hj | ⟨rfl, rfl⟩
    · exact hc.distinct i j g g' hi hj heq hij
    · exact absurd (heq.trans hnew) (hc.packet_ne_total hi)
    · exact absurd (heq.symm.trans hnew) (hc.packet_ne_total hj)
    · exact absurd rfl hij

theorem Consistent.sendMgmtHelper (hc : c.Consistent) : ∃ f, Adds f c c.sendMgmtHelper := by
  have hnum : c.total ∉ c.numbers := fun h => Nat.lt_irrefl _ (hc.numbers_lt _ h)
  have hid : c.total ∉ c.ids := fun h => Nat.lt_irrefl _ (hc.ids_lt _ h)
  have hold : ∀ {l : List Nat}, (∀ p ∈ l, p < c.total) → ∀ p ∈ l, p < c.total + 1 :=
    fun hl p hp => Nat.lt_succ_of_lt (hl p hp)
  have hnew : ∀ {l : List Nat}, (∀ p ∈ l, p < c.total) → ∀ p ∈ l ++ [c.total], p < c.total + 1 := by
    intro l hl p hp
    rcases List.mem_append.mp hp with hp | hp
    · exact hold hl p hp
    · rw [List.mem_singleton.mp hp]
      exact Nat.lt_succ_self _
  rcases hc.ledger.hasSent.enqueuePacket c.total with ⟨id, hres, hev⟩ | ⟨hres, hsends⟩
  -- the packet waits under the next queue id
  · obtain ⟨rfl, hq, hupd⟩ := hc.ledger.hasQueued.enqueuePacket c.total hres
    have hp := Progress.queue hc.ledger hnum hid hev hq hupd
    obtain ⟨hh, hplain⟩ := Progress.queue_fresh .sent hp.ledger hnum
      (by rw [hupd, Function.update_self])
    cases hr : c.net.sender.enqueuePacket c.total with
    | mk res s =>
      rw [hr] at hres hp hh hplain
      subst hres
      have hc' : c.sendMgmtHelper =
          { c.transmit s [] [] with
            futures := c.futures ++
              [some ⟨.sent, .queued (BitVec.ofNat 64 c.ids.length), c.total, false⟩]
            ids := c.ids ++ [c.total]
            total := c.total + 1 } := by
        simp only [SendSession.sendMgmtHelper, hr]
      rw [hc']
      refine ⟨_, ?_, ?_, hnew hc.ids_lt, rfl, rfl, rfl, rfl, rfl, rfl, nofun, ?_, ?_⟩
      · simpa [transmit] using hp
      · simpa [transmit] using hold hc.numbers_lt
      · intro _
        simpa [transmit] using hh
      · intro _ _
        simpa [transmit] using hplain
  -- the packet is sent under the next number
  · have hqueue := hc.ledger.hasQueued.enqueuePacket_sent hres
    have hp := Progress.send hc.ledger hnum hid hsends hqueue.1 hqueue.2
    obtain ⟨hh, hplain⟩ := Progress.send_fresh .sent hp.ledger hsends.status_new
    cases hr : c.net.sender.enqueuePacket c.total with
    | mk res s =>
      rw [hr] at hres hp hh hplain
      subst hres
      have hc' : c.sendMgmtHelper =
          { c.transmit s [(BitVec.ofNat 64 c.numbers.length, c.total)] [] with
            futures := c.futures ++
              [some ⟨.sent, .sent (BitVec.ofNat 64 c.numbers.length), c.total, false⟩]
            total := c.total + 1 } := by
        simp only [SendSession.sendMgmtHelper, hr]
      rw [hc']
      exact ⟨_, hp, hnew hc.numbers_lt, hold hc.ids_lt, rfl, rfl, rfl, rfl, rfl, rfl, nofun,
        fun _ => hh, fun _ _ => hplain⟩

/-! ## Operations on futures -/

/-- The operation on future `f`, which ends in `r` and leaves the sender in `s`. -/
structure Uses (c : SendSession) (i : Nat) (op : FutureOp) (f : SendFuture) (r : FutureStep Nat)
    (s : Sender Nat) : Prop where
  live : c.Live i f
  drop : f.resolved = true → op = .drop
  run : op.run (some c.net.sender) f.kind f.packetId = some r
  peer : r.peer = some s

theorem futureStep_eq (h : c.futureStep i op = some c') :
    ∃ f r s, c.Uses i op f r s ∧
      c' = { c.transmit s [] (r.cancels.map .cancel) with
        futures := r.after f.update c.futures i
        resolutions := c.resolutions ++ answered f.packet r.resolution } := by
  unfold futureStep at h
  split at h
  · next f hf =>
    split at h
    · cases h
    next hres =>
    obtain ⟨r, hr, h⟩ := Option.bind_eq_some_iff.mp h
    obtain ⟨s, hs, rfl⟩ := Option.map_eq_some_iff.mp h
    refine ⟨f, r, s, ⟨hf, ?_, hr, hs⟩, rfl⟩
    intro hresolved
    by_contra hop
    exact hres ⟨hresolved, hop⟩
  · cases h

theorem live_after (hf : c.Live i f) (h : (r.after f.update c.futures i)[j]? = some (some g)) :
    (j ≠ i ∧ c.Live j g) ∨
    (j = i ∧ ∃ kind packetId, r.future = some (kind, packetId) ∧
      g = f.update kind packetId r.resolution.isSome) ∨
    (j = c.futures.length ∧ ∃ packetId, r.spawned = some packetId ∧
      g = f.update .acked packetId false) :=
  FutureStep.of_getElem?_after (Sender.lt_of_getElem? hf) h

theorem Spent.run_eq (hf : f.Spent) (hid : ∀ id, f.packetId ≠ .queued id) (hop : op = .drop)
    (h : op.run (some s) f.kind f.packetId = some r) : r = ⟨some s, [], none, none, none⟩ := by
  subst hop
  rw [hf.1] at h
  cases hp : f.packetId with
  | queued id => exact absurd hp (hid id)
  | sent | acked | canceled =>
    rw [hp] at h
    simpa [FutureOp.run, Sent.drop, Sent.tryCancelInternal] using h.symm

theorem Cares.alters (ha : Alters numbers ids t s s')
    (hl : s.Ledger numbers ids) (hf : ¬ f.Spent → f.packet ≠ t) (h : Cares s numbers ids f) :
    Cares s' numbers ids f where
  spent := h.spent
  holds hs := ha.holds hl (hf hs) (h.holds hs)
  plain hs hk := ha.plain (hf hs) (h.plain hs hk)

/-- The future operated on and the one it resolved to, as the operation leaves them. -/
structure Leaves (c : SendSession) (f : SendFuture) (s : Sender Nat) (r : FutureStep Nat) :
    Prop where
  alters : Alters c.numbers c.ids f.packet c.net.sender s
  future : ∀ kind packetId, r.future = some (kind, packetId) → ¬ f.Spent ∧
    Cares s c.numbers c.ids (f.update kind packetId r.resolution.isSome)
  spawned : ∀ packetId, r.spawned = some packetId →
    r.future = some (.sent, packetId) ∧ r.resolution = some .sent ∧
      Cares s c.numbers c.ids (f.update .acked packetId false)

theorem Consistent.spent_run (hc : c.Consistent) (hu : c.Uses i op f r s) (hsp : f.Spent) :
    s = c.net.sender ∧ r = ⟨some s, [], none, none, none⟩ := by
  obtain ⟨hf, hdrop, hrun, hs⟩ := hu
  obtain rfl := Spent.run_eq hsp ((hc.cares i f hf).spent hsp) (hdrop hsp.2) hrun
  cases hs
  exact ⟨rfl, rfl⟩

section

variable (hc : c.Consistent) (ht : c.total < 2 ^ 63)

include hc ht

theorem Consistent.handled (hu : c.Uses i op f r s)
    (hsp : ¬ f.Spent) : Handled c.numbers c.ids f.packet f.kind f.packetId op c.net.sender s r := by
  have hcares := hc.cares i f hu.live
  have hnum := hc.numbers_le
  have hids := hc.ids_le
  obtain ⟨s', hs', hh⟩ := FutureOp.run_handled hc.ledger (by omega) (by omega) (hcares.holds hsp)
    (hcares.plain hsp) hu.run
  cases hu.peer.symm.trans hs'
  exact hh

theorem Consistent.leaves (hu : c.Uses i op f r s) :
    Leaves c f s r := by
  by_cases hsp : f.Spent
  · obtain ⟨rfl, rfl⟩ := hc.spent_run hu hsp
    exact ⟨.refl hc.ledger, nofun, nofun⟩
  have hh := hc.handled ht hu hsp
  refine ⟨hh.alters, ?_, ?_⟩
  · intro kind packetId hfut
    obtain ⟨hholds, hplain⟩ := hh.future kind packetId hfut
    refine ⟨hsp, ?_, fun _ => hholds, fun _ hk => hplain hk⟩
    -- a `Sent` that has just resolved knows its number
    rintro ⟨rfl, hres⟩ id rfl
    have hspawn := hh.resolved_sent hres _ hfut
    exact (hh.spawned _ hspawn).2.2.1 id rfl
  · intro packetId hspawn
    obtain ⟨hholds, hplain, -, hfut, hres⟩ := hh.spawned packetId hspawn
    exact ⟨hfut, hres, nofun, fun _ => hholds, fun _ _ => hplain⟩

theorem Consistent.futureStep (h : c.futureStep i op = some c') : c'.Consistent := by
  obtain ⟨f, r, s, hu, rfl⟩ := futureStep_eq h
  have hf := hu.live
  have hl := hc.leaves ht hu
  have hsame : f.Spent → s = c.net.sender := fun hsp => (hc.spent_run hu hsp).1
  -- the other futures for the same packet are spent
  have hother : ∀ {j g}, j ≠ i → c.Live j g → f.Spent ∨ (¬ g.Spent → g.packet ≠ f.packet) := by
    intro j g hj hg
    by_cases hsp : f.Spent
    · exact .inl hsp
    refine .inr fun hgs heq => ?_
    rcases hc.distinct j i g f hg hf heq hj with h | h
    · exact hgs h
    · exact hsp h
  refine
    { ledger := ?_
      numbers_lt := ?_
      ids_lt := hc.ids_lt
      packet_lt := ?_, cares := ?_, distinct := ?_ }
  · simpa [transmit] using hl.alters.ledger
  · simpa [transmit] using hc.numbers_lt
  · intro j g hg
    rcases live_after hf hg with ⟨-, hg⟩ | ⟨-, _, _, -, rfl⟩ | ⟨-, _, -, rfl⟩
    · exact hc.packet_lt j g hg
    all_goals exact hc.packet_lt i f hf
  · intro j g hg
    suffices hcares : Cares s c.numbers c.ids g by simpa [transmit] using hcares
    rcases live_after hf hg with ⟨hj, hg⟩ | ⟨-, kind, packetId, hfut, rfl⟩ | ⟨-, packetId, hsp, rfl⟩
    · rcases hother hj hg with hsp | hne
      · rw [hsame hsp]
        exact hc.cares j g hg
      · exact (hc.cares j g hg).alters hl.alters hc.ledger hne
    · exact (hl.future kind packetId hfut).2
    · exact (hl.spawned packetId hsp).2.2
  · intro j k g g' hg hg' heq hjk
    have hspent : ∀ {j g}, j ≠ i → c.Live j g → ¬ f.Spent → g.packet = f.packet → g.Spent := by
      intro j g hj hg hsp heq
      exact (hc.distinct j i g f hg hf heq hj).resolve_right hsp
    rcases live_after hf hg with ⟨hj, hold⟩ | ⟨hj, _, _, hfut, rfl⟩ | ⟨hj, _, hsp, rfl⟩ <;>
      rcases live_after hf hg' with ⟨hk, hold'⟩ | ⟨hk, _, _, hfut', rfl⟩ | ⟨hk, _, hsp', rfl⟩
    · exact hc.distinct j k g g' hold hold' heq hjk
    · exact .inl (hspent hj hold (hl.future _ _ hfut').1 heq)
    · exact .inl (hspent hj hold (hl.future _ _ (hl.spawned _ hsp').1).1 heq)
    · exact .inr (hspent hk hold' (hl.future _ _ hfut).1 heq.symm)
    · exact absurd (hj.trans hk.symm) hjk
    · obtain ⟨hfut', hres, -⟩ := hl.spawned _ hsp'
      cases hfut.symm.trans hfut'
      exact .inl ⟨rfl, by rw [hres]; rfl⟩
    · exact .inr (hspent hk hold' (hl.future _ _ (hl.spawned _ hsp).1).1 heq.symm)
    · obtain ⟨hfut, hres, -⟩ := hl.spawned _ hsp
      cases hfut.symm.trans hfut'
      exact .inr ⟨rfl, by rw [hres]; rfl⟩
    · exact absurd (hj.trans hk.symm) hjk

end

/-! ## Whole runs -/

theorem total_le_of_step (h : c.step a = some c') : c.total ≤ c'.total := by
  cases a with
  | sendMgmt =>
    cases h
    unfold sendMgmtHelper
    split <;> exact Nat.le_succ _
  | input | deliver =>
    obtain ⟨_, -, rfl⟩ := Option.map_eq_some_iff.mp h
    exact le_rfl
  | future i op =>
    obtain ⟨_, _, _, -, rfl⟩ := futureStep_eq h
    exact le_rfl

theorem Consistent.network_step (hc : c.Consistent) (ht : c.total < 2 ^ 63)
    (ha : a.ofNetwork = true) (h : c.step a = some c') : Moves c c' := by
  have hnum := hc.numbers_le
  cases a with
  | sendMgmt | future => cases ha
  | input input =>
    obtain ⟨⟨s, sent, messages⟩, hs, rfl⟩ := Option.map_eq_some_iff.mp h
    obtain ⟨hp, hmem⟩ := Progress.input hc.ledger (by omega) hs
    refine ⟨hp, ?_, rfl, rfl, rfl, rfl⟩
    intro p hp
    rcases List.mem_append.mp hp with hold | hnew
    · exact hc.numbers_lt p hold
    · obtain ⟨r, hr, rfl⟩ := List.mem_map.mp hnew
      exact hc.ids_lt _ (hmem r hr)
  | deliver i =>
    obtain ⟨net, hnet, rfl⟩ := Option.map_eq_some_iff.mp h
    obtain ⟨sn, d, r, rfl⟩ := Session.deliver_eq_answer hnet
    exact ⟨.refl hc.ledger, hc.numbers_lt, rfl, rfl, rfl, rfl⟩

theorem Consistent.step (hc : c.Consistent) (ht : c.total < 2 ^ 63) (h : c.step a = some c') :
    c'.Consistent := by
  cases a with
  | sendMgmt =>
    cases h
    obtain ⟨f, ha⟩ := hc.sendMgmtHelper
    exact hc.adds ha
  | future i op => exact hc.futureStep ht h
  | input | deliver => exact hc.moves (hc.network_step ht rfl h)

end SendSession

end ZprCore.Mgmt
