-- SUMMARY: How often a packet is retransmitted under its retry limit.
import ZprCore.Zdpr.Located

/-!
# Retries

A sender over tagged packets, with a log for each packet: the ids it was given, the retry limits
set for it and what every retry tick did for it. A tick runs `age_retries` to the end, then
`retry_packets`, then `retry_cancels`, as the retry task does.

`Tracks` ties the log of one packet to the queues. The entry of a packet holds the lowest limit of
its log and counts the ticks of its log, as far as 8 bits go. A tag that was not given yet has the
log `absent`, which nothing in the queues fits.
-/

namespace ZprCore.Zdpr

open Sender

variable {Pkt : Type}

/-! ## Logs -/

/-- What a retry tick did for a packet that was sent. -/
structure RetryTick where
  /-- `retry_packets` yielded the packet -/
  resent : Bool
  /-- `retry_cancels` yielded its sequence number -/
  cancelResent : Bool
  /-- the packet or its cancellation was acknowledged before the tick -/
  acked : Bool
  /-- `cancel_sent_packet` was called for it before the tick -/
  canceled : Bool
deriving DecidableEq

structure PacketLog where
  /-- the id of the packet in the queue, if it had to wait -/
  id : Option QueuedPacketId
  /-- the sequence number, once it was sent -/
  sn : Option SeqNum
  /-- the retry limits given to the packet, each with the number of ticks since it was sent -/
  limits : List (Nat × UInt8)
  /-- the ticks since it was sent -/
  ticks : List RetryTick
  acked : Bool
  canceled : Bool
deriving DecidableEq

namespace PacketLog

def ofResult : EnqueueResult Pkt → PacketLog
  | .queued id => ⟨some id, none, [], [], false, false⟩
  | .sent sn _ => ⟨none, some sn, [], [], false, false⟩

/-- The lower one of two limits, and the earlier one of equal limits. -/
def lower : Option (Nat × UInt8) → Nat × UInt8 → Option (Nat × UInt8)
  | none, x => some x
  | some y, x => if x.2 < y.2 then some x else some y

/-- The lowest limit given to the packet, and the number of ticks when it was first given. -/
def lowest (log : PacketLog) : Option (Nat × UInt8) := log.limits.foldl lower none

def limitRetries (retryLimit : UInt8) (log : PacketLog) : PacketLog :=
  { log with limits := log.limits ++ [(log.ticks.length, retryLimit)] }

def tick (t : RetryTick) (log : PacketLog) : PacketLog := { log with ticks := log.ticks ++ [t] }

end PacketLog

/-- What a call that left the sender in `s` means for a packet. -/
def SenderCall.note (s : Sender Pkt) (c : SenderCall) (log : PacketLog) : PacketLog :=
  match c with
  | .limitRetriesById id retryLimit =>
    if log.id = some id then log.limitRetries retryLimit else log
  | .limitRetriesBySeqNum sn retryLimit =>
    if log.sn = some sn then log.limitRetries retryLimit else log
  | .cancelSentPacket sn => if log.sn = some sn then { log with canceled := true } else log
  | .processAck sn | .processCanceled sn =>
    if log.sn = some sn ∧ s.isAcked sn = some true then { log with acked := true } else log
  | _ => log

structure Retrying (Pkt : Type) where
  sender : Sender (Nat × Pkt)
  /-- the logs of the packets handed to the sender; the tag of a packet is the place of its log -/
  logs : List PacketLog

inductive RetryAction (Pkt : Type) where
  | enqueuePacket (packet : Pkt)
  | call (c : SenderCall)
  | tick
  | reset

/-- Retries are aged by ticks only. -/
def RetryAction.isRegular : RetryAction Pkt → Bool
  | .call (.ageRetries _) => false
  | _ => true

namespace Retrying

def start : Retrying Pkt := ⟨.new, []⟩

def number (logs : List PacketLog) (numbered : List (SeqNum × Nat × Pkt)) : List PacketLog :=
  numbered.foldl (fun logs x => logs.modify x.2.1 fun log => { log with sn := some x.1 }) logs

/-- The tick that left the sender in `s`. -/
def noteTick (s : Sender (Nat × Pkt)) (tag : Nat) (log : PacketLog) : PacketLog :=
  match log.sn with
  | none => log
  | some sn =>
    log.tick
      { resent := s.retryPackets.any fun x => x.2.1 == tag
        cancelResent := s.retryCancels.contains sn
        acked := log.acked
        canceled := log.canceled }

def step (c : Retrying Pkt) : RetryAction Pkt → Option (Retrying Pkt)
  | .enqueuePacket packet =>
    let tagged := (c.logs.length, packet)
    ((SenderAction.enqueuePacket tagged).run c.sender).map fun o =>
      { sender := o.sender, logs := c.logs ++ [.ofResult (c.sender.enqueuePacket tagged).1] }
  | .call call =>
    ((SenderAction.call call).run c.sender).map fun o =>
      { sender := o.sender, logs := number (c.logs.map (call.note o.sender)) o.numbered }
  | .tick =>
    ((SenderAction.call (.ageRetries c.sender.unacked.length)).run c.sender).map fun o =>
      { sender := o.sender, logs := c.logs.mapIdx (noteTick o.sender) }
  | .reset => (SenderAction.reset.run c.sender).map fun o => { sender := o.sender, logs := [] }

def Reachable : Retrying Pkt → Prop := Run step (· = start) fun _ a => a.isRegular = true

end Retrying

/-! ## Logs on their own -/

namespace PacketLog

variable {log : PacketLog} {m : Nat} {t : RetryTick}

/-- The packet was retransmitted in the first `m` ticks and never again. -/
structure StoppedAt (log : PacketLog) (m : Nat) : Prop where
  le : m ≤ log.ticks.length
  before : ∀ t ∈ log.ticks.take m, t.resent = true
  after : ∀ t ∈ log.ticks.drop m, t.resent = false ∧ (t.acked = true ∨ t.cancelResent = true) ∧
    (log.limits = [] → t.acked = true ∨ t.canceled = true)
  limited : ∀ k n, log.lowest = some (k, n) → m ≤ max n.toNat k

theorem StoppedAt.of_eq {log' : PacketLog} (h : log.StoppedAt m) (ht : log'.ticks = log.ticks)
    (hl : log'.limits = log.limits) : log'.StoppedAt m := by
  obtain ⟨hle, hbefore, hafter, hlimited⟩ := h
  refine ⟨ht ▸ hle, ht ▸ hbefore, ?_, ?_⟩
  · rw [ht, hl]
    exact hafter
  · unfold lowest at hlimited ⊢
    rw [hl]
    exact hlimited

theorem StoppedAt.count (h : log.StoppedAt m) : log.ticks.countP (·.resent) = m := by
  have hbefore : (log.ticks.take m).countP (·.resent) = (log.ticks.take m).length :=
    List.countP_eq_length.mpr h.before
  have hafter : (log.ticks.drop m).countP (·.resent) = 0 :=
    List.countP_eq_zero.mpr fun t ht => by simp [(h.after t ht).1]
  rw [← List.take_append_drop m log.ticks, List.countP_append, hbefore, hafter, List.length_take,
    Nat.min_eq_left h.le, Nat.add_zero]

theorem lowest_limitRetries (log : PacketLog) (l : UInt8) :
    (log.limitRetries l).lowest = lower log.lowest (log.ticks.length, l) := by
  simp [lowest, limitRetries]

theorem limit_limitRetries (log : PacketLog) (l : UInt8) :
    (log.limitRetries l).lowest.map (·.2) = lowerLimit l (log.lowest.map (·.2)) := by
  rw [lowest_limitRetries]
  cases log.lowest with
  | none =>
    have hle : l ≤ 255 := UInt8.le_iff_toNat_le.mpr (Nat.le_of_lt_succ l.toNat_lt)
    change some l = some (if l ≤ 255 then l else 255)
    rw [if_pos hle]
  | some x =>
    change (if l < x.2 then some (log.ticks.length, l) else some x).map (·.2) =
      some (if l ≤ x.2 then l else x.2)
    by_cases hlt : l < x.2
    · rw [if_pos hlt, if_pos (UInt8.le_of_lt hlt)]
      rfl
    rw [if_neg hlt]
    split
    · next hle =>
      rw [UInt8.le_antisymm hle (UInt8.not_lt.mp hlt)]
      rfl
    · rfl

theorem lowest_eq_none (h : log.lowest = none) : log.limits = [] := by
  rcases List.eq_nil_or_concat log.limits with hnil | ⟨init, x, hlast⟩
  · exact hnil
  rw [lowest, hlast, List.concat_eq_append, List.foldl_concat] at h
  cases hinit : init.foldl lower none with
  | none =>
    rw [hinit] at h
    cases h
  | some y =>
    rw [hinit, lower] at h
    split at h <;> cases h

theorem StoppedAt.limitRetries (h : log.StoppedAt m) (l : UInt8) :
    (log.limitRetries l).StoppedAt m where
  le := h.le
  before := h.before
  after := by
    intro t ht
    obtain ⟨hresent, hsent, -⟩ := h.after t ht
    exact ⟨hresent, hsent, by simp [PacketLog.limitRetries]⟩
  limited := by
    intro k n hlow
    rw [lowest_limitRetries] at hlow
    have hle := h.le
    cases hold : log.lowest with
    | none =>
      rw [hold] at hlow
      cases hlow
      omega
    | some x =>
      rw [hold, lower] at hlow
      split at hlow
      · cases hlow
        omega
      · cases hlow
        exact h.limited k n hold

theorem StoppedAt.tick_resent (h : log.StoppedAt log.ticks.length) (ht : t.resent = true)
    (hlim : ∀ k n, log.lowest = some (k, n) → log.ticks.length < max n.toNat k) :
    (log.tick t).StoppedAt (log.ticks.length + 1) where
  le := by simp [tick]
  before := by
    intro x hx
    have hx' : x ∈ log.ticks ++ [t] := List.mem_of_mem_take hx
    rcases List.mem_append.mp hx' with hold | hnew
    · exact h.before x (by rw [List.take_length]; exact hold)
    · rw [List.mem_singleton.mp hnew]
      exact ht
  after := by simp [tick]
  limited := hlim

theorem StoppedAt.tick_silent (h : log.StoppedAt m) (hresent : t.resent = false)
    (hsent : t.acked = true ∨ t.cancelResent = true)
    (hcause : log.limits = [] → t.acked = true ∨ t.canceled = true) : (log.tick t).StoppedAt m where
  le := by
    have hle := h.le
    simp only [tick, List.length_append]
    omega
  before := by
    intro x hx
    rw [tick, List.take_append_of_le_length h.le] at hx
    exact h.before x hx
  after := by
    intro x hx
    rw [tick, List.drop_append_of_le_length h.le] at hx
    rcases List.mem_append.mp hx with hold | hnew
    · exact h.after x hold
    · rw [List.mem_singleton.mp hnew]
      exact ⟨hresent, hsent, hcause⟩
  limited := h.limited

end PacketLog

/-! ## Logs and queues -/

namespace Retrying

variable {s s' : Sender (Nat × Pkt)} {logs : List PacketLog} {id : QueuedPacketId} {sn : SeqNum}
  {idx tag : Nat} {log log' : PacketLog} {e e' : UnackedState (Nat × Pkt)}

/-- The entry of a packet that is not acknowledged, as its log has it. -/
def Describes (tag : Nat) (log : PacketLog) : UnackedState (Nat × Pkt) → Prop
  | .unacked packet _ retryLimit retryCount _ =>
    packet.1 = tag ∧ retryLimit = log.lowest.map (·.2) ∧
      retryCount.toNat = min 255 log.ticks.length ∧ log.StoppedAt log.ticks.length
  | .cancelRequested _ _ => (∃ m, log.StoppedAt m) ∧ (log.limits = [] → log.canceled = true)
  | .acked | .cancelAcked => False

/-- The entry still holds the packet with the tag. -/
def Carries (tag : Nat) : UnackedState (Nat × Pkt) → Prop
  | .unacked packet .. => packet.1 = tag
  | .cancelRequested .. | .acked | .cancelAcked => False

/-- What the sender holds of the packet with the tag, as its log has it. -/
structure Tracks (s : Sender (Nat × Pkt)) (tag : Nat) (log : PacketLog) : Prop where
  stopped : ∃ m, log.StoppedAt m
  unsent : log.sn = none → log.ticks = []
  entries : ∀ sn e, s.EntryAt sn e → Carries tag e → log.sn = some sn ∧ log.acked = false
  slots : ∀ id p w l, s.SlotAt id (.blocked p w l) → p.1 = tag →
    log.id = some id ∧ log.sn = none ∧ log.acked = false ∧ l = log.lowest.map (·.2)
  live : ∀ sn, log.sn = some sn → log.acked = false → ∃ e, s.EntryAt sn e ∧ Describes tag log e
  records : ∀ sn, log.sn = some sn → log.acked = false →
    ∀ id, s.RecordAt id (some sn) ↔ log.id = some id

theorem Describes.isAcked (h : Describes tag log e) : e.isAcked = false := by
  cases e with
  | unacked | cancelRequested => rfl
  | acked | cancelAcked => cases h

theorem Carries.isAcked (h : Carries tag e) : e.isAcked = false := by
  cases e with
  | unacked => rfl
  | cancelRequested | acked | cancelAcked => cases h

theorem Describes.exists_stoppedAt (h : Describes tag log e) : ∃ m, log.StoppedAt m := by
  cases e with
  | unacked => exact ⟨_, h.2.2.2⟩
  | cancelRequested => exact h.1
  | acked | cancelAcked => cases h

/-! ## Moves that no log notices -/

theorem Tracks.keep (h : Tracks s tag log)
    (hentries : ∀ sn e, s'.EntryAt sn e → Carries tag e → s.EntryAt sn e)
    (hlive : ∀ sn e, s.EntryAt sn e → e.isAcked = false → s'.EntryAt sn e)
    (hslots : ∀ id p w l, s'.SlotAt id (.blocked p w l) → p.1 = tag →
      ∃ w', s.SlotAt id (.blocked p w' l))
    (hrecords : ∀ id sn e, s.EntryAt sn e → e.isAcked = false →
      (s'.RecordAt id (some sn) ↔ s.RecordAt id (some sn))) :
    Tracks s' tag log where
  stopped := h.stopped
  unsent := h.unsent
  entries sn e hat hc := h.entries sn e (hentries sn e hat hc) hc
  slots id p w l hat htag := by
    obtain ⟨w', hat'⟩ := hslots id p w l hat htag
    exact h.slots id p w' l hat' htag
  live sn hsn hopen := by
    obtain ⟨e, hat, hdesc⟩ := h.live sn hsn hopen
    exact ⟨e, hlive sn e hat hdesc.isAcked, hdesc⟩
  records sn hsn hopen id := by
    obtain ⟨e, hat, hdesc⟩ := h.live sn hsn hopen
    rw [hrecords id sn e hat hdesc.isAcked]
    exact h.records sn hsn hopen id

theorem Tracks.trim (h : Tracks s tag log) (hs : s.Short) (hc : s.cleanQueues idx = some s') :
    Tracks s' tag log := by
  obtain ⟨hlast, hblocked, -⟩ := cleanQueues_sent hc
  have hkept : ∀ sn e, e.isAcked = false → (s'.EntryAt sn e ↔ s.EntryAt sn e) :=
    fun sn e hopen => entryAt_trim hs hc (isAckedEntry_of_isAcked hopen)
  refine h.keep (fun sn e hat hc => (hkept sn e hc.isAcked).mp hat)
    (fun sn e hat hopen => (hkept sn e hopen).mpr hat) ?_ ?_
  · intro id p w l hat _
    unfold Sender.SlotAt at hat
    rw [hlast, hblocked] at hat
    exact ⟨w, hat⟩
  · intro id sn e hat hopen
    refine ⟨recordAt_of_trim hs hc, fun hrec => ?_⟩
    rcases hrec.trim hs hc with hkept' | ⟨-, hacked⟩
    · exact hkept'
    · rw [((hkept sn e hopen).mpr hat).isAcked, hopen] at hacked
      cases hacked

theorem Tracks.trimBlocked (h : Tracks s tag log) (hs : s.Short) :
    Tracks s.cleanBlockedQueue tag log := by
  refine h.keep (fun _ _ hat _ => hat) (fun _ _ hat _ => hat) ?_ ?_
  · intro id p w l hat _
    exact ⟨w, (slotAt_trimBlocked hs rfl).mp hat⟩
  · intro id sn e _ _
    rw [recordAt_trimBlocked hs]
    simp

variable {woken : List Waker} {op : EntryOp} {ps : List (Nat × Pkt)} {p : Nat × Pkt}
  {l : Option UInt8} {c : SenderCall} {o : Outcome (Nat × Pkt)}
  {f : SeqNum → UnackedState (Nat × Pkt) → UnackedState (Nat × Pkt)} {b : BlockedState (Nat × Pkt)}
  {w : Waker}
  {sel : Prop}

theorem Tracks.keep_slot (h : Tracks s tag log) {op : SlotOp} (hb : s.blocked[idx]? = some b)
    (hop : ∀ l, op ≠ .limit l) : Tracks { s.setBlocked idx (op.apply b) with woken } tag log := by
  have hrecords : ∀ id o, (s.setBlocked idx (op.apply b)).RecordAt id o ↔ s.RecordAt id o :=
    fun _ _ => recordAt_setBlocked
  refine h.keep (fun _ _ hat _ => hat) (fun _ _ hat _ => hat) ?_
    (fun id sn _ _ _ => hrecords id (some sn))
  intro id p w l hat _
  rcases (slotAt_setBlocked hb).mp hat with ⟨hpos, heq⟩ | ⟨-, hat'⟩
  · cases op with
    | limit l => exact absurd rfl (hop l)
    | cancel => cases b <;> cases heq
    | setWaker cx =>
      cases b with
      | canceled => cases heq
      | blocked p' w' l' =>
        cases heq
        exact ⟨w', idx, hpos, hb⟩
  · exact ⟨w, hat'⟩

/-! ## Entries that are rewritten -/

/-- The entry with number `sn` is rewritten by `f sn`; no packet changes its place. -/
structure Rewrites (f : SeqNum → UnackedState (Nat × Pkt) → UnackedState (Nat × Pkt))
    (s s' : Sender (Nat × Pkt)) : Prop where
  entries : ∀ sn e', s'.EntryAt sn e' ↔ ∃ e, s.EntryAt sn e ∧ f sn e = e'
  slots : ∀ id b, s'.SlotAt id b ↔ s.SlotAt id b
  records : ∀ id o, s'.RecordAt id o ↔ s.RecordAt id o

theorem rewrites_entry (he : s.unacked[idx]? = some e) :
    Rewrites (fun sn e => if s.seqNumPosition sn = .at idx then op.apply e else e) s
      { s.setUnacked idx (op.apply e) with woken } where
  entries sn e' := by
    refine Iff.trans (entryAt_setUnacked he) ?_
    by_cases hpos : s.seqNumPosition sn = .at idx
    · simp only [hpos, if_true, true_and, ne_eq, not_true, false_and, or_false]
      constructor
      · rintro rfl
        exact ⟨e, ⟨idx, hpos, he⟩, rfl⟩
      · rintro ⟨e₁, hat, rfl⟩
        rw [hat.unique ⟨idx, hpos, he⟩]
    · simp [hpos]
  slots _ _ := Iff.rfl
  records _ _ := Iff.rfl

theorem rewrites_at (h : s.Applies op sn ps s') :
    Rewrites (fun sn' e => if sn' = sn then op.apply e else e) s s' := by
  cases h with
  | idle hidle =>
    have hsame : ∀ sn' e, s.EntryAt sn' e → (if sn' = sn then op.apply e else e) = e := by
      rintro sn' e ⟨idx, hpos, hget⟩
      split
      · next heq => exact hidle idx e (heq ▸ hpos) hget
      · rfl
    refine ⟨fun sn' e' => ⟨fun hat => ⟨e', hat, hsame sn' e' hat⟩, ?_⟩, fun _ _ => Iff.rfl,
      fun _ _ => Iff.rfl⟩
    rintro ⟨e, hat, rfl⟩
    rw [hsame sn' e hat]
    exact hat
  | @entry _ idx _ hpos hms =>
    obtain ⟨e, he, rfl⟩ := hms.entry_inv
    have hiff : ∀ sn', sn' = sn ↔ s.seqNumPosition sn' = .at idx := fun sn' =>
      ⟨fun heq => heq ▸ hpos, fun hat => seqNumPosition_inj hat hpos⟩
    simp only [hiff]
    exact rewrites_entry he

/-- What every revision of a log keeps. -/
structure Revises (log log' : PacketLog) : Prop where
  id : log'.id = log.id := by rfl
  sn : log'.sn = log.sn := by rfl
  opened : log'.acked = false → log.acked = false := by exact fun h => h
  unsent : log.sn = none → log'.ticks = log.ticks := by exact fun _ => rfl

theorem Tracks.rewrite (h : Tracks s tag log) (hr : Rewrites f s s') (hrev : Revises log log')
    (hstop : ∃ m, log'.StoppedAt m)
    (hslot : ∀ id p w l, s.SlotAt id (.blocked p w l) → p.1 = tag → log' = log)
    (hcarries : ∀ sn e, Carries tag (f sn e) → Carries tag e)
    (hlive : ∀ sn e, log.sn = some sn → log.acked = false → s.EntryAt sn e → Describes tag log e →
      (log'.acked = false → Describes tag log' (f sn e)) ∧
      (Carries tag (f sn e) → log'.acked = false)) :
    Tracks s' tag log' where
  stopped := hstop
  unsent hnone := by
    rw [hrev.sn] at hnone
    exact (hrev.unsent hnone).trans (h.unsent hnone)
  entries sn e' hat hc := by
    obtain ⟨e, hat', rfl⟩ := (hr.entries sn e').mp hat
    obtain ⟨hsn, hopen⟩ := h.entries sn e hat' (hcarries sn e hc)
    obtain ⟨e₁, hat₁, hdesc⟩ := h.live sn hsn hopen
    obtain rfl := hat₁.unique hat'
    exact ⟨hrev.sn.trans hsn, (hlive sn e₁ hsn hopen hat₁ hdesc).2 hc⟩
  slots id p w l hat htag := by
    rw [hr.slots] at hat
    rw [hslot id p w l hat htag]
    exact h.slots id p w l hat htag
  live sn hsn hopen := by
    rw [hrev.sn] at hsn
    obtain ⟨e, hat, hdesc⟩ := h.live sn hsn (hrev.opened hopen)
    exact ⟨f sn e, (hr.entries sn _).mpr ⟨e, hat, rfl⟩,
      (hlive sn e hsn (hrev.opened hopen) hat hdesc).1 hopen⟩
  records sn hsn hopen id := by
    rw [hrev.sn] at hsn
    rw [hr.records, hrev.id]
    exact h.records sn hsn (hrev.opened hopen) id

theorem Tracks.keep_entries (h : Tracks s tag log) (hr : Rewrites f s s')
    (hcarries : ∀ sn e, Carries tag (f sn e) → Carries tag e)
    (hdesc : ∀ sn e, s.EntryAt sn e → Describes tag log e → Describes tag log (f sn e)) :
    Tracks s' tag log :=
  h.rewrite hr {} h.stopped (fun _ _ _ _ _ _ => rfl) hcarries
    fun sn e _ hopen hat hd => ⟨fun _ => hdesc sn e hat hd, fun _ => hopen⟩

/-- `sel` says whether `sn` is the number of the packet, as long as the packet is open. -/
structure Selects (s : Sender (Nat × Pkt)) (tag : Nat) (log : PacketLog) (sn : SeqNum)
    (sel : Prop) : Prop where
  slots : ∀ id p w l, s.SlotAt id (.blocked p w l) → p.1 = tag → ¬ sel
  entries : ∀ sn', log.sn = some sn' → log.acked = false → (sel ↔ sn' = sn)

theorem Tracks.sn_of_slot (h : Tracks s tag log) (hat : s.SlotAt id (.blocked p w l))
    (htag : p.1 = tag) : log.sn ≠ some sn := by
  rw [(h.slots id p w l hat htag).2.1]
  nofun

theorem Tracks.selects (h : Tracks s tag log) : Selects s tag log sn (log.sn = some sn) :=
  ⟨fun _ _ _ _ => h.sn_of_slot, fun _ hsn _ => by rw [hsn, Option.some.injEq]⟩

/-- The entry with number `sn` and, if it is `sel`, the log of the packet change together. -/
theorem Tracks.select {g : UnackedState (Nat × Pkt) → UnackedState (Nat × Pkt)} [Decidable sel]
    (h : Tracks s tag log) (hr : Rewrites (fun sn' e => if sn' = sn then g e else e) s s')
    (hrev : Revises log log') (hstop : ∀ m, log.StoppedAt m → log'.StoppedAt m)
    (hcarries : ∀ e, Carries tag (g e) → Carries tag e) (hsel : Selects s tag log sn sel)
    (hdesc : ∀ e, Describes tag log e → log'.acked = false → Describes tag log' (g e))
    (hopen : ∀ e, s.EntryAt sn e → Carries tag (g e) → log.acked = false → log'.acked = false) :
    Tracks s' tag (if sel then log' else log) := by
  have hcarries' : ∀ sn' e, Carries tag (if sn' = sn then g e else e) → Carries tag e := by
    intro sn' e hc
    split at hc
    · exact hcarries e hc
    · exact hc
  split
  · next hs =>
    refine h.rewrite hr hrev (h.stopped.imp hstop)
      (fun id p w l hat htag => absurd hs (hsel.slots id p w l hat htag)) hcarries' ?_
    intro sn' e hsn hacked hat hd
    obtain rfl := (hsel.entries sn' hsn hacked).mp hs
    rw [if_pos rfl]
    exact ⟨hdesc e hd, fun hc => hopen e hat hc hacked⟩
  · next hs =>
    refine h.rewrite hr {} h.stopped (fun _ _ _ _ _ _ => rfl)
      hcarries' fun sn' e hsn hacked _ hd => ?_
    rw [if_neg (fun heq => hs ((hsel.entries sn' hsn hacked).mpr heq))]
    exact ⟨fun _ => hd, fun _ => hacked⟩

theorem Describes.setWaker (h : Describes tag log e) (cx : Waker) :
    Describes tag log (e.setWaker cx) := by
  cases e <;> exact h

theorem Describes.forget (h : Describes tag log e) : Describes tag log e.forget := by
  cases e with
  | unacked p w l n f => cases l <;> exact h
  | cancelRequested => exact h
  | acked | cancelAcked => cases h

theorem carries_of_apply (op : EntryOp) (h : Carries tag (op.apply e)) : Carries tag e := by
  cases e with
  | unacked p w l n f =>
    cases op with
    | setWaker | limit | cancelAck => exact h
    | cancel | ack => cases h
    | forget => cases l <;> exact h
    | age =>
      cases l with
      | none => exact h
      | some limit =>
        simp only [EntryOp.apply, UnackedState.ageRetries] at h
        split at h
        · cases h
        · exact h
  | cancelRequested w f => cases op <;> first | cases h | (cases f <;> cases h)
  | acked | cancelAcked => cases op <;> cases h

/-- The move changes no retry limit and no retry count and ends no entry of `unacked`. -/
def isSilent : Move Pkt → Bool
  | .quiet | .entry _ (.setWaker _) | .entry _ .forget | .trim _ | .trimBlocked => true
  | .slot _ (.setWaker _) | .slot _ .cancel => true
  | _ => false

theorem Tracks.silent (h : Tracks s tag log) (hs : s.Short) {m : Move (Nat × Pkt)}
    (hm : s.Moved m s') (hk : isSilent m = true) : Tracks s' tag log := by
  cases hm with
  | quiet =>
    exact h.keep (fun _ _ hat _ => hat) (fun _ _ hat _ => hat) (fun _ _ w _ hat _ => ⟨w, hat⟩)
      (fun _ _ _ _ _ => Iff.rfl)
  | @entry idx e op he =>
    refine h.keep_entries (rewrites_entry he) ?_ ?_
    · intro sn e hc
      split at hc
      · exact carries_of_apply op hc
      · exact hc
    · intro sn e _ hd
      split
      · cases op with
        | setWaker cx => exact hd.setWaker cx
        | forget => exact hd.forget
        | limit | cancel | ack | cancelAck | age => cases hk
      · exact hd
  | @slot idx b op hb =>
    refine h.keep_slot hb ?_
    rintro l rfl
    cases hk
  | trim hc => exact h.trim hs hc
  | trimBlocked => exact h.trimBlocked hs
  | queue | send | unblock => cases hk

theorem Tracks.silents {ms : List (Move (Nat × Pkt))} (hms : s.Moves ms ps s')
    (h : Tracks s tag log) (hs : s.Short) (hk : ∀ m ∈ ms, isSilent m = true) :
    Tracks s' tag log := by
  refine hms.keep (P := (Tracks · tag log)) h hs (fun h hs hm => h.silent hs hm) fun m hm => ⟨hk m hm, ?_⟩
  have hsilent := hk m hm
  cases m <;> first | rfl | cases hsilent

/-! ## Limits -/

theorem Describes.limitRetries (h : Describes tag log e) (l : UInt8) :
    Describes tag (log.limitRetries l) (e.limitRetries l) := by
  cases e with
  | unacked p w limit n f =>
    obtain ⟨htag, rfl, hcount, hstop⟩ := h
    exact ⟨htag, (log.limit_limitRetries l).symm, hcount, hstop.limitRetries l⟩
  | cancelRequested w f =>
    obtain ⟨⟨m, hstop⟩, -⟩ := h
    exact ⟨⟨m, hstop.limitRetries l⟩, by simp [PacketLog.limitRetries]⟩
  | acked | cancelAcked => cases h

theorem Tracks.limitRetriesBySeqNum (h : Tracks s tag log) {l : UInt8} [Decidable sel]
    (hr : s.limitRetriesBySeqNum sn l = some s') (hsel : Selects s tag log sn sel) :
    Tracks s' tag (if sel then log.limitRetries l else log) :=
  h.select (g := (EntryOp.limit l).apply)
    (rewrites_at (limitRetriesBySeqNum_effect hr)) {} (fun _ hm => hm.limitRetries l)
    (fun _ => carries_of_apply _) hsel (fun _ hd _ => hd.limitRetries l) fun _ _ _ hopen => hopen

theorem Tracks.limitSlot (h : Tracks s tag log) (hs : s.Short) (hb : s.blocked[idx]? = some b)
    (hpos : s.blockedPosition id = .at idx) (l : UInt8) :
    Tracks { s.setBlocked idx (b.limitRetries l) with woken } tag
      (if log.id = some id then log.limitRetries l else log) := by
  have hsent : ∀ sn, log.sn = some sn → log.acked = false → log.id ≠ some id := by
    intro sn hsn hacked hid
    have hrec := (h.records sn hsn hacked id).mpr hid
    cases hpos.symm.trans (hrec.blockedPosition hs)
  have hrecords : ∀ id o, (s.setBlocked idx (b.limitRetries l)).RecordAt id o ↔ s.RecordAt id o :=
    fun _ _ => recordAt_setBlocked
  have hslots : ∀ id' p w l', (s.setBlocked idx (b.limitRetries l)).SlotAt id' (.blocked p w l') →
      s.SlotAt id' (.blocked p w l') ∧ id' ≠ id ∨
      ∃ l₀, s.SlotAt id' (.blocked p w l₀) ∧ id' = id ∧ l' = lowerLimit l l₀ := by
    intro id' p w l' hat
    rcases (slotAt_setBlocked hb).mp hat with ⟨hpos', heq⟩ | ⟨hpos', hat'⟩
    · obtain rfl := blockedPosition_inj hpos' hpos
      cases b with
      | canceled => cases heq
      | blocked p₀ w₀ l₀ =>
        cases heq
        exact .inr ⟨l₀, ⟨idx, hpos, hb⟩, rfl, rfl⟩
    · exact .inl ⟨hat', fun heq => hpos' (heq ▸ hpos)⟩
  split
  · next hid =>
    refine ⟨h.stopped.imp fun m hm => hm.limitRetries l, h.unsent, h.entries, ?_, ?_, ?_⟩
    · intro id' p w l' hat htag
      rcases hslots id' p w l' hat with ⟨hat', hne⟩ | ⟨l₀, hat', -, rfl⟩
      · exact absurd (Option.some.inj ((h.slots id' p w l' hat' htag).1.symm.trans hid)) hne
      · obtain ⟨hid', hsn, hopen, rfl⟩ := h.slots id' p w l₀ hat' htag
        exact ⟨hid', hsn, hopen, (log.limit_limitRetries l).symm⟩
    all_goals exact fun sn hsn hopen => absurd hid (hsent sn hsn hopen)
  · next hid =>
    refine h.keep (fun _ _ hat _ => hat) (fun _ _ hat _ => hat) ?_
      fun id sn _ _ _ => hrecords id (some sn)
    intro id' p w l' hat htag
    rcases hslots id' p w l' hat with ⟨hat', -⟩ | ⟨l₀, hat', rfl, -⟩
    · exact ⟨w, hat'⟩
    · exact absurd (h.slots id' p w l₀ hat' htag).1 hid

theorem Tracks.limitRetriesById (h : Tracks s tag log) (hs : s.Short) {l : UInt8}
    (hr : s.limitRetriesById id l = some s') :
    Tracks s' tag (if log.id = some id then log.limitRetries l else log) := by
  rcases limitRetriesById_moves hr with ⟨idx, hpos, hms⟩ | ⟨hbehind, o, hlook, hrest⟩
  · obtain ⟨b, hb, rfl⟩ := hms.slot_inv
    exact h.limitSlot hs hb hpos l
  have hslot : ∀ id' p w l, s.SlotAt id' (.blocked p w l) → p.1 = tag → ¬ log.id = some id := by
    intro id' p w l hat htag hid
    cases (h.slots id' p w l hat htag).1.symm.trans hid
    obtain ⟨i, hi, -⟩ := hat
    cases hbehind.symm.trans hi
  rcases hrest with ⟨rfl, rfl⟩ | ⟨sn, rfl, hlim⟩
  · split
    · next hid =>
      have hdead : ∀ sn, log.sn = some sn → log.acked = false → False := by
        intro sn hsn hopen
        cases hlook.symm.trans ((h.records sn hsn hopen id).mpr hid).lookupSeqNum
      refine ⟨h.stopped.imp fun m hm => hm.limitRetries l, h.unsent, h.entries, ?_, ?_, ?_⟩
      · exact fun id' p w l' hat htag => absurd hid (hslot id' p w l' hat htag)
      all_goals exact fun sn hsn hopen => (hdead sn hsn hopen).elim
    · exact h
  · refine h.limitRetriesBySeqNum hlim ⟨hslot, fun sn' hsn hopen => ?_⟩
    rw [← h.records sn' hsn hopen id]
    constructor
    · intro hrec
      cases hlook.symm.trans hrec.lookupSeqNum
      rfl
    · rintro rfl
      exact recordAt_of_lookupSeqNum hlook

/-! ## Cancellations and acknowledgements -/

theorem Describes.cancel (h : Describes tag log e) :
    Describes tag { log with canceled := true } e.cancel.2 := by
  cases e with
  | unacked p w l n f =>
    obtain ⟨-, -, -, hstop⟩ := h
    exact ⟨⟨_, hstop.of_eq rfl rfl⟩, fun _ => rfl⟩
  | cancelRequested w f =>
    obtain ⟨⟨m, hstop⟩, -⟩ := h
    exact ⟨⟨m, hstop.of_eq rfl rfl⟩, fun _ => rfl⟩
  | acked | cancelAcked => cases h

theorem Tracks.cancelSentPacket (h : Tracks s tag log) {r : Option (Nat × Pkt)}
    (hr : s.cancelSentPacket sn = some (r, s')) :
    Tracks s' tag (if log.sn = some sn then { log with canceled := true } else log) := by
  exact h.select (g := EntryOp.cancel.apply)
    (rewrites_at (cancelSentPacket_effect hr)) {} (fun m hm => hm.of_eq rfl rfl) (fun _ => carries_of_apply _)
    h.selects (fun _ hd _ => hd.cancel)
    fun _ _ _ hopen => hopen

theorem Tracks.note_acked (h : Tracks s tag log) (sn : SeqNum) :
    (if log.sn = some sn ∧ s.isAcked sn = some true then { log with acked := true } else log)
      = log := by
  split
  · next hcond =>
    obtain ⟨hsn, hacked⟩ := hcond
    cases hold : log.acked with
    | true =>
      cases log
      cases hold
      rfl
    | false =>
      obtain ⟨e, hat, hdesc⟩ := h.live sn hsn hold
      rw [hat.isAcked, hdesc.isAcked] at hacked
      cases hacked
  · rfl

theorem Tracks.acknowledge (h : Tracks s tag log) (hs : s.Short) (hst : s.Settles op sn ps s')
    (hop : ∀ e : UnackedState (Nat × Pkt), (op.apply e).isAcked = true ∨ op.apply e = e) :
    Tracks s' tag (if log.sn = some sn ∧ s'.isAcked sn = some true then { log with acked := true }
      else log) := by
  cases hst with
  | idle =>
    rw [h.note_acked]
    exact h
  | counted _ stat =>
    have hkeep := h.silents (countStat_moves stat) hs (by simp [isSilent])
    rw [hkeep.note_acked]
    exact hkeep
  | @entry _ idx _ hpos hms =>
  obtain ⟨e, t, he, ht, hc⟩ := hms.entry_trim_inv
  have hshort : t.Short := ht ▸ (Sender.Moved.entry op he).short rfl hs
  have hr := ht ▸ rewrites_at (.entry hpos (.entry op he))
  -- the entry is acknowledged now, or was left as it is
  rcases hop e with hacked | hsame
  · have hat : t.AckedAt sn := by
      refine .inr ⟨_, (hr.entries sn _).mpr ⟨e, ⟨idx, hpos, he⟩, if_pos rfl⟩, hacked⟩
    simp only [(hat.trim hshort hc).isAcked, and_true]
    refine Tracks.trim (h.select hr { opened := nofun } (fun m hm => hm.of_eq rfl rfl)
      (fun _ => carries_of_apply _) h.selects (fun _ _ hfalse => by cases hfalse) ?_) hshort hc
    intro e₁ hat₁ hc
    obtain rfl := hat₁.unique ⟨idx, hpos, he⟩
    rw [hc.isAcked] at hacked
    cases hacked
  · have hkeep : Tracks t tag log := by
      refine h.keep_entries hr ?_ ?_
      · intro sn' e₁ hc
        split at hc
        · exact carries_of_apply op hc
        · exact hc
      · intro sn' e₁ hat₁ hd
        split
        · next heq =>
          subst heq
          rw [hat₁.unique ⟨idx, hpos, he⟩, hsame, ← hat₁.unique ⟨idx, hpos, he⟩]
          exact hd
        · exact hd
    have htrim := hkeep.trim hshort hc
    rw [htrim.note_acked]
    exact htrim

/-! ## Ticks -/

theorem entryAt_iff_snBase (hs : s.Short) :
    s.EntryAt sn e ↔ ∃ i, s.unacked[i]? = some e ∧ s.snBase + BitVec.ofNat 64 i = sn := by
  have hu := hs.unacked
  have hbase : ∀ i < s.unacked.length,
      wrappingOffset (s.snBase + BitVec.ofNat 64 i) s.lastSent
        = (i : Int) - s.unacked.length + 1 := by
    intro i hi
    have hdiff : s.snBase + BitVec.ofNat 64 i - s.lastSent =
        BitVec.ofInt 64 ((i : Int) - s.unacked.length + 1) := by
      have hone : BitVec.ofInt 64 1 = 1 := rfl
      rw [BitVec.ofInt_add, ofInt_sub, BitVec.ofInt_natCast, BitVec.ofInt_natCast, hone,
        snBase]
      ring
    unfold wrappingOffset
    rw [hdiff, BitVec.toInt_ofInt, Int.bmod_eq_of_le (by omega) (by omega)]
  unfold Sender.EntryAt
  rw [finds_iff (by omega)]
  refine exists_congr fun i => and_congr_right fun hget => ?_
  rw [← hbase i (List.getElem?_eq_some_iff.mp hget).1]
  exact ⟨fun heq => (wrappingOffset_inj heq).symm, fun heq => by rw [heq]⟩

theorem mem_retryCancels {f : Bool} (hs : s.Short)
    (h : s.EntryAt sn (.cancelRequested w f)) : sn ∈ s.retryCancels := by
  obtain ⟨i, hget, rfl⟩ := (entryAt_iff_snBase hs).mp h
  exact List.mem_filterMap.mpr ⟨(_, i), List.mem_zipIdx_iff_getElem?.mpr hget, rfl⟩

theorem any_retryPackets (hs : s.Short) :
    (s.retryPackets.any fun x => x.2.1 == tag) = true ↔ ∃ sn e, s.EntryAt sn e ∧ Carries tag e := by
  simp only [List.any_eq_true, retryPackets, List.mem_filterMap, entryAt_iff_snBase hs]
  constructor
  · rintro ⟨_, ⟨⟨e, i⟩, hmem, hyield⟩, htag⟩
    refine ⟨_, e, ⟨i, List.mem_zipIdx_iff_getElem?.mp hmem, rfl⟩, ?_⟩
    cases e with
    | unacked =>
      cases hyield
      exact eq_of_beq htag
    | cancelRequested | acked | cancelAcked => cases hyield
  · rintro ⟨_, e, ⟨i, hget, rfl⟩, hc⟩
    cases e with
    | unacked =>
      exact ⟨_, ⟨(_, i), List.mem_zipIdx_iff_getElem?.mpr hget, rfl⟩, beq_iff_eq.mpr hc⟩
    | cancelRequested | acked | cancelAcked => cases hc

theorem saturatingInc_toNat {n : UInt8} {k : Nat} (h : n.toNat = min 255 k) :
    (UnackedState.saturatingInc n).toNat = min 255 (k + 1) := by
  unfold UnackedState.saturatingInc
  split
  · next heq =>
    subst heq
    change 255 = min 255 k at h
    change 255 = _
    omega
  · next hne =>
    have hlt : n.toNat < 255 := by
      have hne' : n.toNat ≠ 255 := fun heq => hne (UInt8.toNat_inj.mp heq)
      omega
    change (n.toNat + 1) % 256 = _
    omega

/-- What a tick does for the packet of an entry. -/
theorem Describes.age {t : RetryTick} (h : Describes tag log e)
    (hresent : t.resent = true ↔ Carries tag e.ageRetries.2)
    (hcancel : (∃ w f, e.ageRetries.2 = .cancelRequested w f) → t.cancelResent = true)
    (hcanceled : t.canceled = log.canceled) :
    Describes tag (log.tick t) e.ageRetries.2 := by
  have hlen : (log.tick t).ticks.length = log.ticks.length + 1 := by simp [PacketLog.tick]
  have hsilent : ∀ w f, e.ageRetries.2 = .cancelRequested w f → t.resent = false := by
    intro w f hreq
    rw [Bool.eq_false_iff, ne_eq, hresent, hreq]
    exact id
  cases e with
  | unacked p w l n f =>
    obtain ⟨htag, hl, hcount, hstop⟩ := h
    by_cases hexpired : ∃ limit, l = some limit ∧ n ≥ limit
    -- the limit is reached, and a cancel takes the place of the packet
    · obtain ⟨limit, rfl, hge⟩ := hexpired
      have hreq :
          (UnackedState.unacked p w (some limit) n f).ageRetries.2 = .cancelRequested w f := by
        simp only [UnackedState.ageRetries, if_pos hge, UnackedState.cancel]
      have hlimits : log.limits ≠ [] := by
        intro hnil
        simp [PacketLog.lowest, hnil] at hl
      rw [hreq]
      exact ⟨⟨_, hstop.tick_silent (hsilent w f hreq) (.inr (hcancel ⟨w, f, hreq⟩))
        fun hnil => absurd hnil hlimits⟩, fun hnil => absurd hnil hlimits⟩
    · have hkeep : (UnackedState.unacked p w l n f).ageRetries.2 =
          .unacked p w l (UnackedState.saturatingInc n) f := by
        cases l with
        | none => rfl
        | some limit =>
          have hlt : ¬ n ≥ limit := fun hge => hexpired ⟨limit, rfl, hge⟩
          simp only [UnackedState.ageRetries, if_neg hlt]
      have hlim : ∀ k x, log.lowest = some (k, x) → log.ticks.length < max x.toNat k := by
        intro k x hlow
        rw [hlow] at hl
        have hlt : n < x := UInt8.not_le.mp fun hge => hexpired ⟨x, hl, hge⟩
        have hlt' := UInt8.lt_iff_toNat_lt.mp hlt
        have hx := x.toNat_lt
        omega
      rw [hkeep] at hresent ⊢
      refine ⟨htag, hl, ?_, ?_⟩
      · rw [hlen]
        exact saturatingInc_toNat hcount
      · rw [hlen]
        exact hstop.tick_resent (hresent.mpr htag) hlim
  | cancelRequested w f =>
    obtain ⟨⟨m, hstop⟩, hcause⟩ := h
    refine ⟨⟨m, hstop.tick_silent (hsilent w f rfl) (.inr (hcancel ⟨w, f, rfl⟩)) fun hnil => ?_⟩,
      hcause⟩
    exact .inr (hcanceled.trans (hcause hnil))
  | acked | cancelAcked => cases h

theorem Tracks.age (h : Tracks s tag log) (hs : s.Short) :
    Tracks s.ageRetries.2 tag (noteTick s.ageRetries.2 tag log) := by
  have hs' : s.ageRetries.2.Short := ⟨by simpa [ageRetries] using hs.unacked, hs.queues⟩
  have hr : Rewrites (fun _ e => e.ageRetries.2) s s.ageRetries.2 :=
    ⟨fun _ _ => finds_map, fun _ _ => Iff.rfl, fun _ _ => Iff.rfl⟩
  have hcarries : ∀ (_ : SeqNum) (e : UnackedState (Nat × Pkt)),
      Carries tag e.ageRetries.2 → Carries tag e := fun _ _ => carries_of_apply .age
  cases hsn : log.sn with
  | none =>
    simp only [noteTick, hsn]
    refine h.rewrite hr {} h.stopped (fun _ _ _ _ _ _ => rfl)
      hcarries fun sn e hsn' => ?_
    cases hsn.symm.trans hsn'
  | some sn =>
    -- what the tick yields for the tag is the entry of this packet
    have hyield : (s.ageRetries.2.retryPackets.any fun x => x.2.1 == tag) = true →
        log.acked = false ∧ ∃ e, s.EntryAt sn e ∧ Carries tag e.ageRetries.2 := by
      rw [any_retryPackets hs']
      rintro ⟨sn', e', hat', hc⟩
      obtain ⟨e, hat, rfl⟩ := (hr.entries sn' e').mp hat'
      obtain ⟨hsn', hopen⟩ := h.entries sn' e hat (hcarries sn' e hc)
      cases hsn.symm.trans hsn'
      exact ⟨hopen, e, hat, hc⟩
    have hlive : ∀ e, s.EntryAt sn e → Describes tag log e →
        Describes tag (noteTick s.ageRetries.2 tag log) e.ageRetries.2 := by
      intro e hat hdesc
      have hat' := (hr.entries sn _).mpr ⟨e, hat, rfl⟩
      simp only [noteTick, hsn]
      refine hdesc.age ⟨?_, fun hc => (any_retryPackets hs').mpr ⟨sn, _, hat', hc⟩⟩ ?_ rfl
      · intro hresent
        obtain ⟨-, e₁, hat₁, hc⟩ := hyield hresent
        exact hat₁.unique hat ▸ hc
      · rintro ⟨w, f, haged⟩
        exact List.contains_iff_mem.mpr (mem_retryCancels hs' (haged ▸ hat'))
    refine h.rewrite hr ?_ ?_ (fun id p w l hat htag => absurd hsn (h.sn_of_slot hat htag)) hcarries ?_
    · simp only [noteTick, hsn]
      exact { unsent := fun hnone => by cases hsn.symm.trans hnone }
    · cases hacked : log.acked with
      | false =>
        obtain ⟨e, hat, hdesc⟩ := h.live sn hsn hacked
        exact (hlive e hat hdesc).exists_stoppedAt
      | true =>
        obtain ⟨m, hstop⟩ := h.stopped
        simp only [noteTick, hsn]
        refine ⟨m, hstop.tick_silent ?_ (.inl hacked) fun _ => .inl hacked⟩
        rw [Bool.eq_false_iff]
        intro hresent
        cases hacked.symm.trans (hyield hresent).1
    · intro sn' e hsn' hopen hat hdesc
      cases hsn.symm.trans hsn'
      refine ⟨fun _ => hlive e hat hdesc, fun _ => ?_⟩
      simp only [noteTick, hsn]
      exact hopen

/-! ## Handing over and sending -/

/-- The log of a tag that no packet has yet. -/
def absent : PacketLog := ⟨none, none, [], [], true, false⟩

/-- Every log is that of a packet, and the sender holds no other packets. -/
def Sound (s : Sender (Nat × Pkt)) (logs : List PacketLog) : Prop :=
  ∀ tag, Tracks s tag (logs.getD tag absent)

theorem Sound.map (h : Sound s logs) {f : PacketLog → PacketLog} (hf : f absent = absent)
    (ht : ∀ tag log, Tracks s tag log → Tracks s' tag (f log)) : Sound s' (logs.map f) := by
  intro tag
  have hget : (logs.map f).getD tag absent = f (logs.getD tag absent) := by
    simp only [List.getD_eq_getElem?_getD, List.getElem?_map]
    cases logs[tag]? with
    | none => exact hf.symm
    | some => rfl
  rw [hget]
  exact ht tag _ (h tag)

theorem getD_concat (tag : Nat) : (logs ++ [log']).getD tag absent =
    if tag = logs.length then log' else logs.getD tag absent := by
  simp only [List.getD_eq_getElem?_getD]
  rcases Nat.lt_trichotomy tag logs.length with hlt | rfl | hgt
  · rw [if_neg (by omega), List.getElem?_append_left hlt]
  · rw [if_pos rfl, List.getElem?_concat_length]
    rfl
  · rw [if_neg (by omega), List.getElem?_eq_none hgt.le, List.getElem?_eq_none]
    simp only [List.length_append, List.length_singleton]
    omega

theorem stoppedAt_empty (id : Option QueuedPacketId) (sn : Option SeqNum) (acked : Bool) :
    PacketLog.StoppedAt ⟨id, sn, [], [], acked, false⟩ 0 :=
  ⟨Nat.le_refl 0, by simp, by simp, by simp⟩

theorem Sound.fresh (h : Sound s logs) :
    (∀ sn e, s.EntryAt sn e → ¬ Carries logs.length e) ∧
    ∀ id p w l, s.SlotAt id (.blocked p w l) → p.1 ≠ logs.length := by
  have hfresh := h logs.length
  rw [List.getD_eq_getElem?_getD, List.getElem?_eq_none (Nat.le_refl _)] at hfresh
  refine ⟨fun sn e hat hc => ?_, fun id p w l hat htag => ?_⟩
  · cases (hfresh.entries sn e hat hc).2
  · cases (hfresh.slots id p w l hat htag).2.2.1

theorem Sound.queue (h : Sound s logs) (hs : s.Short) (packet : Pkt) :
    Sound { s with
      lastEnqueued := s.lastEnqueued + 1
      blocked := s.blocked ++ [.blocked (logs.length, packet) .noop none] }
      (logs ++ [⟨some (s.lastEnqueued + 1), none, [], [], false, false⟩]) := by
  intro tag
  rw [getD_concat]
  split
  · next htag =>
    subst htag
    refine ⟨⟨0, stoppedAt_empty _ _ _⟩, fun _ => rfl, fun sn e hat hc => ?_, ?_, nofun, nofun⟩
    · exact absurd hc (h.fresh.1 sn e hat)
    intro id p w l hat htag
    rcases (slotAt_queue hs _).mp hat with hold | ⟨rfl, heq⟩
    · exact absurd htag (h.fresh.2 id p w l hold)
    · cases heq
      exact ⟨rfl, rfl, rfl, rfl⟩
  · next hne =>
    refine (h tag).keep (fun _ _ hat _ => hat) (fun _ _ hat _ => hat) ?_
      fun _ _ _ _ _ => recordAt_queue hs _
    intro id p w l hat htag
    rcases (slotAt_queue hs _).mp hat with hold | ⟨rfl, heq⟩
    · exact ⟨w, hold⟩
    · cases heq
      exact absurd htag.symm hne

theorem Describes.sent (htag : p.1 = tag) (hticks : log.ticks = [])
    (hl : l = log.lowest.map (·.2)) : Describes tag log (.unacked p .noop l 0 false) := by
  refine ⟨htag, hl, by simp [hticks], ?_⟩
  exact ⟨Nat.le_refl _, by simp [hticks], by simp [hticks], by simp [hticks]⟩

theorem Sound.send (h : Sound s logs) (hs : s.Short)
    (hfresh : ∀ id, ¬ s.RecordAt id (some (s.lastSent + 1))) (packet : Pkt) :
    Sound (s.pushUnacked (logs.length, packet) none)
      (logs ++ [⟨none, some (s.lastSent + 1), [], [], false, false⟩]) := by
  have hentry : ∀ sn e, (s.pushUnacked (logs.length, packet) none).EntryAt sn e ↔
      s.EntryAt sn e ∨
        sn = s.lastSent + 1 ∧ e = .unacked (logs.length, packet) .noop none 0 false :=
    fun _ _ => entryAt_pushUnacked hs _ _
  intro tag
  rw [getD_concat]
  split
  · next htag =>
    subst htag
    refine ⟨⟨0, stoppedAt_empty _ _ _⟩, nofun, fun sn e hat hc => ?_, ?_, ?_, ?_⟩
    · rcases (hentry sn e).mp hat with hold | ⟨rfl, -⟩
      · exact absurd hc (h.fresh.1 sn e hold)
      · exact ⟨rfl, rfl⟩
    · exact fun id p w l hat htag => absurd htag (h.fresh.2 id p w l hat)
    · rintro _ ⟨⟩ -
      exact ⟨_, (hentry _ _).mpr (.inr ⟨rfl, rfl⟩), .sent rfl rfl rfl⟩
    · rintro _ ⟨⟩ - id
      exact ⟨fun hrec => absurd hrec (hfresh id), nofun⟩
  · next hne =>
    refine (h tag).keep ?_ (fun sn e hat _ => (hentry sn e).mpr (.inl hat))
      (fun _ _ w _ hat _ => ⟨w, hat⟩) fun _ _ _ _ _ => Iff.rfl
    intro sn e hat hc
    rcases (hentry sn e).mp hat with hold | ⟨-, rfl⟩
    · exact hold
    · exact absurd hc.symm hne

theorem Sound.unblock (h : Sound s logs) (hs : s.Short)
    (hfresh : ∀ id, ¬ s.RecordAt id (some (s.lastSent + 1)))
    {rest : List (BlockedState (Nat × Pkt))} (hfront : s.blocked = .blocked p w l :: rest) :
    Sound (s.popBlocked p w l rest)
      (logs.modify p.1 fun log => { log with sn := some (s.lastSent + 1) }) := by
  have hentry : ∀ sn e, (s.popBlocked p w l rest).EntryAt sn e ↔
      s.EntryAt sn e ∨ sn = s.lastSent + 1 ∧ e = .unacked p .noop l 0 false :=
    fun _ _ => entryAt_popBlocked hs
  have hslot : ∀ id b, (s.popBlocked p w l rest).SlotAt id b → s.SlotAt id b :=
    fun id b hat => (slotAt_front hs hfront).mpr (.inr hat)
  intro tag
  by_cases htag : p.1 = tag
  · -- the log of the packet gets its number
    subst htag
    have hown := h p.1
    obtain ⟨id₀, hid₀⟩ := exists_frontId hs hfront
    obtain ⟨hid, hunsent, hopen, hl⟩ :=
      hown.slots id₀ p w l ((slotAt_front hs hfront).mpr (.inl ⟨hid₀, rfl⟩)) rfl
    rw [List.getD_eq_getElem?_getD] at hown hid hunsent hopen hl ⊢
    rw [List.getElem?_modify_eq]
    cases hlog : logs[p.1]? with
    | none =>
      rw [hlog] at hopen
      cases hopen
    | some log =>
      rw [hlog] at hown hid hunsent hopen hl
      refine ⟨hown.stopped.imp fun m hm => hm.of_eq rfl rfl, nofun, ?_, ?_, ?_, ?_⟩
      · intro sn e hat hc
        rcases (hentry sn e).mp hat with hold | ⟨rfl, -⟩
        · cases hunsent.symm.trans (hown.entries sn e hold hc).1
        · exact ⟨rfl, hopen⟩
      · intro id p' w' l' hat htag
        cases hid.symm.trans (hown.slots id p' w' l' (hslot id _ hat) htag).1
        obtain ⟨i, hpos, -⟩ : Finds (wrappingOffset id₀ s.lastEnqueued) rest _ := hat
        have hoff := (position_at hpos).2
        omega
      · rintro _ ⟨⟩ -
        exact ⟨_, (hentry _ _).mpr (.inr ⟨rfl, rfl⟩), .sent rfl (hown.unsent hunsent) hl⟩
      · rintro _ ⟨⟩ - id
        rw [recordAt_popBlocked hs hfront, or_iff_right (hfresh id), and_iff_left rfl]
        refine ⟨fun hoff => ?_, fun hid' => ?_⟩
        · rw [@wrappingOffset_inj id s.lastEnqueued id₀ (by omega)]
          exact hid
        · cases hid.symm.trans hid'
          exact hid₀
  -- the other logs stay as they are
  · have hsame : (logs.modify p.1 fun log => { log with sn := some (s.lastSent + 1) }).getD tag
        absent = logs.getD tag absent := by
      rw [List.getD_eq_getElem?_getD, List.getElem?_modify_ne _ _ htag, List.getD_eq_getElem?_getD]
    rw [hsame]
    refine (h tag).keep ?_ (fun sn e hat _ => (hentry sn e).mpr (.inl hat))
      (fun id p' w' l' hat _ => ⟨w', hslot id _ hat⟩) ?_
    · intro sn e hat hc
      rcases (hentry sn e).mp hat with hold | ⟨-, rfl⟩
      · exact hold
      · exact absurd hc htag
    · intro id sn e hat _
      rw [recordAt_popBlocked hs hfront]
      refine or_iff_left ?_
      rintro ⟨-, heq⟩
      cases heq
      exact not_entryAt_next hat

/-! ## Runs -/

theorem not_recordAt_next (h : s.Reachable) (i : QueuedPacketId) :
    ¬ s.RecordAt i (some (s.lastSent + 1)) := by
  obtain ⟨⟨n, hrec⟩, hfits⟩ := h.recorded
  obtain ⟨hu, -⟩ := fits_lengths hfits
  obtain ⟨ks, hks, -, hwindow⟩ := hrec.sent
  intro hat
  have hmem : s.lastSent + 1 ∈ ks.map (BitVec.ofNat 64) := by
    rw [← hks]
    exact List.mem_filterMap.mpr ⟨_, hat.mem, rfl⟩
  obtain ⟨k, hk, heq⟩ := List.mem_map.mp hmem
  have hlt := hwindow k hk
  rw [hrec.hasSent.lastSent, sub_add_cancel] at heq
  have hnat := congrArg BitVec.toNat heq
  simp only [BitVec.toNat_ofNat] at hnat
  omega

/-- The call is of no interest to any log. -/
def isQuiet : SenderCall → Bool
  | .cancelQueuedPacket _ | .forgetCanceledPacket _ | .adjustWindowSize _ | .pollSend ..
  | .pollAck .. | .pollSendAndAck .. | .fetchResetStat _ => true
  | _ => false

theorem isSilent_of_allows {m : Move Pkt} (hc : isQuiet c = true) (h : c.allows m = true) :
    isSilent m = true := by
  cases m with
  | quiet | trim | trimBlocked => rfl
  | entry idx op =>
    cases op with
    | setWaker | forget => rfl
    | limit | cancel | ack | cancelAck | age => cases c <;> simp_all [SenderCall.allows, isQuiet]
  | slot idx op =>
    cases op with
    | setWaker | cancel => rfl
    | limit => cases c <;> simp_all [SenderCall.allows, isQuiet]
  | queue | send | unblock => cases c <;> simp_all [SenderCall.allows, isQuiet]

theorem Sound.quiet (h : Sound s logs) (hs : s.Short) (hc : c.perform s = some o)
    (hquiet : isQuiet c = true) :
    Sound o.sender (number (logs.map (c.note o.sender)) o.numbered) := by
  obtain ⟨ms, hms, hall⟩ := SenderCall.perform_allows hc
  have hnote : c.note o.sender = fun log => log := by
    cases c <;> first | rfl | cases hquiet
  have hnumbered : o.numbered = [] := by
    refine SenderCall.perform_numbered ?_ hc
    rintro rfl
    cases hquiet
  rw [hnote, hnumbered]
  refine h.map rfl fun tag log ht => ht.silents hms hs fun m hm => ?_
  exact isSilent_of_allows hquiet (hall m hm)

theorem Sound.call (h : Sound s logs) (hreach : s.Reachable) (hc : c.perform s = some o)
    (hage : ∀ n, c ≠ .ageRetries n) :
    Sound o.sender (number (logs.map (c.note o.sender)) o.numbered) := by
  have hfits := hreach.recorded.2
  have hs := short_of_fits hfits
  by_cases hquiet : isQuiet c = true
  · exact h.quiet hs hc hquiet
  cases c with
  | limitRetriesById id l =>
    obtain ⟨s', hr, rfl⟩ := Option.map_eq_some_iff.mp hc
    exact h.map rfl fun tag log ht => ht.limitRetriesById hs hr
  | limitRetriesBySeqNum sn l =>
    obtain ⟨s', hr, rfl⟩ := Option.map_eq_some_iff.mp hc
    exact h.map rfl fun tag log ht => ht.limitRetriesBySeqNum hr ht.selects
  | cancelSentPacket sn =>
    obtain ⟨⟨r, s'⟩, hr, rfl⟩ := Option.map_eq_some_iff.mp hc
    exact h.map rfl fun tag log ht => ht.cancelSentPacket hr
  | processAck sn =>
    obtain ⟨⟨r, s'⟩, hr, rfl⟩ := Option.map_eq_some_iff.mp hc
    refine h.map rfl fun tag log ht => ?_
    refine ht.acknowledge hs (processAck_effect hr) fun e => ?_
    cases e <;> exact .inl rfl
  | processCanceled sn =>
    obtain ⟨s', hr, rfl⟩ := Option.map_eq_some_iff.mp hc
    refine h.map rfl fun tag log ht => ?_
    refine ht.acknowledge hs (processCanceled_effect hr) fun e => ?_
    cases e with
    | cancelRequested w f => exact .inl (by cases f <;> rfl)
    | unacked | acked | cancelAcked => exact .inr rfl
  | enqueueNextBlockedPacket =>
    obtain ⟨⟨⟨sn, p⟩, s'⟩, hr, rfl⟩ := Option.map_eq_some_iff.mp hc
    obtain ⟨hsn, w, l, rest, hfront, -, hshort, rfl⟩ := enqueueNextBlockedPacket_inv hfits hr
    obtain rfl : sn = s.lastSent + 1 := hsn
    change Sound _ ((logs.map fun log => log).modify p.1 fun log => { log with sn := _ })
    rw [List.map_id']
    exact fun tag => (h.unblock hs (not_recordAt_next hreach) hfront tag).trimBlocked hshort
  | ageRetries n => exact absurd rfl (hage n)
  | _ => exact absurd rfl hquiet

theorem Sound.age (h : Sound s logs) (hs : s.Short) :
    Sound s.ageRetries.2 (logs.mapIdx (noteTick s.ageRetries.2)) := by
  intro tag
  have hget : (logs.mapIdx (noteTick s.ageRetries.2)).getD tag absent =
      noteTick s.ageRetries.2 tag (logs.getD tag absent) := by
    simp only [List.getD_eq_getElem?_getD, List.getElem?_mapIdx]
    cases logs[tag]? <;> rfl
  rw [hget]
  exact (h tag).age hs

theorem Sound.enqueuePacket (h : Sound s logs) (hreach : s.Reachable) (packet : Pkt) :
    Sound (s.enqueuePacket (logs.length, packet)).2
      (logs ++ [.ofResult (s.enqueuePacket (logs.length, packet)).1]) := by
  have hs := short_of_fits hreach.recorded.2
  unfold Sender.enqueuePacket
  split
  · exact h.queue hs packet
  · exact h.send hs (not_recordAt_next hreach) packet

theorem sound_of_new (hu : s.unacked = []) (hb : s.blocked = []) : Sound s [] := by
  intro tag
  refine ⟨⟨0, stoppedAt_empty _ _ _⟩, fun _ => rfl, fun sn e hat _ => ?_,
    fun id p w l hat _ => ?_, nofun, nofun⟩
  · have hmem := hat.mem
    rw [hu] at hmem
    cases hmem
  · have hmem := hat.mem
    rw [hb] at hmem
    cases hmem

theorem reachable_next (h : s.Reachable) {a : SenderAction (Nat × Pkt)} (ho : a.run s = some o) :
    o.sender.Reachable :=
  h.next trivial (Option.map_eq_some_iff.mpr ⟨o, ho, rfl⟩)

theorem Reachable.sound {c : Retrying Pkt} (h : Reachable c) :
    c.sender.Reachable ∧ Sound c.sender c.logs := by
  refine Run.invariant (P := fun c : Retrying Pkt => c.sender.Reachable ∧ Sound c.sender c.logs)
    ?_ ?_ h
  · rintro c rfl
    exact ⟨.start rfl, sound_of_new rfl rfl⟩
  rintro c a c' ⟨hreach, hsound⟩ hreg hstep
  cases a with
  | enqueuePacket packet =>
    obtain ⟨o, ho, rfl⟩ := Option.map_eq_some_iff.mp hstep
    refine ⟨reachable_next hreach ho, ?_⟩
    change Sound o.sender _
    rw [(SenderAction.perform_enqueuePacket (SenderAction.run_eq ho).1).1]
    exact hsound.enqueuePacket hreach packet
  | call call =>
    obtain ⟨o, ho, rfl⟩ := Option.map_eq_some_iff.mp hstep
    refine ⟨reachable_next hreach ho, hsound.call hreach (SenderAction.run_eq ho).1 ?_⟩
    rintro n rfl
    cases hreg
  | tick =>
    obtain ⟨o, ho, rfl⟩ := Option.map_eq_some_iff.mp hstep
    refine ⟨reachable_next hreach ho, ?_⟩
    have hsender : o.sender = c.sender.ageRetries.2 := by
      cases (SenderAction.run_eq ho).1
      rw [← ageRetriesOf_length]
      exact congrArg (fun k => (c.sender.ageRetriesOf k).2) (Nat.min_self _)
    change Sound o.sender (c.logs.mapIdx (noteTick o.sender))
    rw [hsender]
    exact hsound.age (short_of_fits hreach.recorded.2)
  | reset =>
    unfold step at hstep
    obtain ⟨o, ho, rfl⟩ := Option.map_eq_some_iff.mp hstep
    refine ⟨reachable_next hreach ho, ?_⟩
    obtain rfl := Option.some.inj (SenderAction.run_eq ho).1
    exact sound_of_new rfl rfl

/-- In every run whose retries are aged by ticks: a packet whose lowest retry limit `n` was first
    given after `k` ticks is retransmitted in at most `max n k` ticks; in every later tick
    `retry_cancels` yields it, until the packet or its cancellation is acknowledged. A packet
    without a limit is retransmitted in every tick until it is acknowledged or `cancel_sent_packet`
    is called for it. -/
theorem retries_limited {c : Retrying Pkt} (h : Reachable c) {log : PacketLog}
    (hlog : log ∈ c.logs) :
    (∀ k n, log.lowest = some (k, n) →
      log.ticks.countP (·.resent) ≤ max n.toNat k ∧
      ∀ t ∈ log.ticks.drop (max n.toNat k), t.acked = true ∨ t.cancelResent = true) ∧
    (log.lowest = none →
      ∀ t ∈ log.ticks, t.resent = true ∨ t.acked = true ∨ t.canceled = true) := by
  obtain ⟨tag, htag⟩ := List.getElem?_of_mem hlog
  obtain ⟨m, hstop⟩ : ∃ m, log.StoppedAt m := by
    have htracks := h.sound.2 tag
    rw [List.getD_eq_getElem?_getD, htag] at htracks
    exact htracks.stopped
  constructor
  · intro k n hlow
    have hm := hstop.limited k n hlow
    refine ⟨hstop.count.le.trans hm, fun t ht => ?_⟩
    have hdrop : log.ticks.drop (max n.toNat k) <:+ log.ticks.drop m := by
      obtain ⟨d, hd⟩ := Nat.exists_eq_add_of_le hm
      rw [hd, ← List.drop_drop]
      exact List.drop_suffix _ _
    exact (hstop.after t (hdrop.mem ht)).2.1
  · intro hnone t ht
    rw [← List.take_append_drop m log.ticks] at ht
    rcases List.mem_append.mp ht with hbefore | hafter
    · exact .inl (hstop.before t hbefore)
    · exact .inr ((hstop.after t hafter).2.2 (PacketLog.lowest_eq_none hnone))

/-- A packet waits, is limited to one retry while it waits and is sent. The first tick retransmits
    it, the other two send a cancellation. -/
theorem retries_limited_queued :
    ∃ (c : Retrying Nat) (log : PacketLog), Reachable c ∧ log ∈ c.logs ∧
      log.lowest = some (0, 1) ∧ log.ticks.map (·.resent) = [true, false, false] ∧
      log.ticks.map (·.cancelResent) = [false, true, true] ∧
      log.ticks.countP (·.resent) ≤ 1 := by
  obtain ⟨c, log, hrun, hlog, hlow, hresent, hcancels⟩ : ∃ (c : Retrying Nat) (log : PacketLog),
      Run step (· = start) (fun _ a => a.isRegular = true) c ∧ c.logs[1]? = some log ∧
      log.lowest = some (0, 1) ∧ log.ticks.map (·.resent) = [true, false, false] ∧
      log.ticks.map (·.cancelResent) = [false, true, true] :=
    Run.reaches_some rfl [.enqueuePacket 10, .enqueuePacket 11, .call (.limitRetriesById 0 1),
      .call (.processAck 0), .call .enqueueNextBlockedPacket, .tick, .tick, .tick] (by decide +kernel)
  have hmem := List.mem_of_getElem? hlog
  exact ⟨c, log, hrun, hmem, hlow, hresent, hcancels,
    ((retries_limited hrun hmem).1 0 1 hlow).1⟩

/-- A packet without a limit is cancelled before the first tick, which does not retransmit it. -/
theorem canceled_not_resent :
    ∃ (c : Retrying Nat) (log : PacketLog) (t : RetryTick), Reachable c ∧ log ∈ c.logs ∧
      log.lowest = none ∧ t ∈ log.ticks ∧ t.acked = false ∧ t.resent = false := by
  obtain ⟨c, log, hrun, hlog, hlow, t, ht, hacked, hresent⟩ : ∃ (c : Retrying Nat) (log : PacketLog),
      Run step (· = start) (fun _ a => a.isRegular = true) c ∧ c.logs[0]? = some log ∧
      log.lowest = none ∧ ∃ t, log.ticks[0]? = some t ∧ t.acked = false ∧ t.resent = false :=
    Run.reaches_some rfl [.enqueuePacket 10, .call (.cancelSentPacket 0), .tick] (by decide +kernel)
  exact ⟨c, log, t, hrun, List.mem_of_getElem? hlog, hlow, List.mem_of_getElem? ht, hacked, hresent⟩

end Retrying

end ZprCore.Zdpr
