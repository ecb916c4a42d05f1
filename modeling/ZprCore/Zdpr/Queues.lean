-- SUMMARY: The fronts of the sender's queues.
import ZprCore.Zdpr.Moves

/-!
# The sender's queues

`Sender.Tidy` is what the three `clean_*` functions maintain about the fronts of `unacked` and
`blocked`. `Sender.Drained` says that nothing waits in `blocked` while the window has room,
the negation of `unblock_needed()`. Every operation keeps the first; the second is kept by all
but a growing window and the acknowledgement or forgetting of the oldest packet.
-/

namespace ZprCore.Zdpr

variable {Pkt : Type} {s s' : Sender Pkt} {idx : Nat} {sn : SeqNum} {id : QueuedPacketId}
  {e : UnackedState Pkt}

namespace Sender

/-- `unacked` does not start with an `Acked` entry, nor `blocked` with a `Canceled` one. -/
structure Tidy (s : Sender Pkt) : Prop where
  unacked : ∀ e, s.unacked.head? = some e → e ≠ .acked
  blocked : ∀ b, s.blocked.head? = some b → b ≠ .canceled

/-- No packet waits while the window has room. -/
def Drained (s : Sender Pkt) : Prop := s.unblockNeeded = false

theorem drained_iff : s.Drained ↔ s.windowSize ≤ s.unacked.length ∨ s.blocked = [] := by
  unfold Drained unblockNeeded isBlocked hasBlockedPackets
  cases s.blocked <;> simp

theorem Drained.of_le (hd : s.Drained) (hw : s'.windowSize = s.windowSize)
    (hu : s.unacked.length ≤ s'.unacked.length) (hb : s.blocked = [] → s'.blocked = []) :
    s'.Drained := by
  rw [drained_iff] at hd ⊢
  rcases hd with h | h
  · exact .inl (by omega)
  · exact .inr (hb h)

theorem tidy_new : (new : Sender Pkt).Tidy := ⟨by simp [new], by simp [new]⟩

theorem drained_new : (new : Sender Pkt).Drained := by
  rw [drained_iff]
  exact .inr rfl

theorem tidy_reset (s : Sender Pkt) : s.reset.Tidy := ⟨tidy_new.unacked, tidy_new.blocked⟩

theorem drained_reset (s : Sender Pkt) : s.reset.Drained := by
  rw [drained_iff]
  exact .inr rfl

/-! ## Trimming -/

theorem head?_set_ne {α : Type} {P : α → Prop} {l : List α} {x y : α}
    (hl : ∀ z, l.head? = some z → P z) (hx : l[idx]? = some x) (hxy : P x → P y) :
    ∀ z, (l.set idx y).head? = some z → P z := by
  cases l with
  | nil => simp
  | cons a l =>
    cases idx with
    | zero =>
      obtain rfl : a = x := by simpa using hx
      intro z hz
      obtain rfl : y = z := by simpa using hz
      exact hxy (hl a rfl)
    | succ i =>
      intro z hz
      exact hl z (by simpa using hz)

theorem head?_dropWhile_not {α : Type} {p : α → Bool} {l : List α} {z : α}
    (h : (l.dropWhile p).head? = some z) : p z = false := by
  have := List.head?_dropWhile_not p l
  rw [h] at this
  simpa using this

variable {b : BlockedState Pkt}

theorem cleanBlockedQueue_front (h : s.cleanBlockedQueue.blocked.head? = some b) :
    b ≠ .canceled := by
  rintro rfl
  cases head?_dropWhile_not h

theorem cleanQueues_fields (h : s.cleanQueues idx = some s') :
    s'.blocked = s.blocked ∧ s'.windowSize = s.windowSize ∧
    s'.unacked = if idx = 0 then s.unacked.dropWhile isAckedEntry else s.unacked := by
  obtain ⟨pre, sent, -, rfl, -⟩ := cleanQueues_eq h
  exact ⟨rfl, rfl, rfl⟩

theorem Tidy.entry_trim {op : EntryOp} {ps : List Pkt} (ht : s.Tidy)
    (h : Moves s [.entry idx op, .trim idx] ps s') : s'.Tidy := by
  obtain ⟨e, t, -, rfl, hc⟩ := h.entry_trim_inv
  obtain ⟨hb, -, hu⟩ := cleanQueues_fields hc
  refine ⟨?_, hb ▸ ht.blocked⟩
  intro e he
  rw [hu] at he
  cases idx with
  | zero =>
    rintro rfl
    cases head?_dropWhile_not he
  | succ i =>
    apply ht.unacked e
    cases hl : s.unacked with
    | nil => simp [Sender.setUnacked, hl] at he
    | cons a l => simpa [Sender.setUnacked, hl] using he

/-! ## Operations that free no room -/

/-- From `s` to `s'` the window kept its size and its number of entries. -/
structure Calm (s s' : Sender Pkt) : Prop where
  windowSize : s'.windowSize = s.windowSize
  length_eq : s'.unacked.length = s.unacked.length
  blocked_nil : s.blocked = [] → s'.blocked = []
  tidy : s.Tidy → s'.Tidy

theorem Calm.refl (s : Sender Pkt) : Calm s s := ⟨rfl, rfl, fun h => h, fun h => h⟩

theorem Calm.trans {s'' : Sender Pkt} (h : Calm s s') (h' : Calm s' s'') : Calm s s'' where
  windowSize := h'.windowSize.trans h.windowSize
  length_eq := h'.length_eq.trans h.length_eq
  blocked_nil hb := h'.blocked_nil (h.blocked_nil hb)
  tidy ht := h'.tidy (h.tidy ht)

theorem Calm.drained (h : Calm s s') (hd : s.Drained) : s'.Drained :=
  hd.of_le h.windowSize h.length_eq.ge h.blocked_nil

variable {woken : List Waker}

theorem calm_setUnacked {e' : UnackedState Pkt} (he : s.unacked[idx]? = some e)
    (hne : e ≠ .acked → e' ≠ .acked) :
    Calm s { s.setUnacked idx e' with woken } where
  windowSize := rfl
  length_eq := by simp [setUnacked]
  blocked_nil hb := hb
  tidy ht := ⟨head?_set_ne ht.unacked he hne, ht.blocked⟩

theorem calm_setBlocked {b' : BlockedState Pkt} (hb : s.blocked[idx]? = some b)
    (hne : b ≠ .canceled → b' ≠ .canceled) :
    Calm s { s.setBlocked idx b' with woken } where
  windowSize := rfl
  length_eq := rfl
  blocked_nil h := by simp [h] at hb
  tidy ht := ⟨ht.unacked, head?_set_ne ht.blocked hb hne⟩

end Sender

/-- The operation acknowledges no entry. -/
def EntryOp.isCalm : EntryOp → Bool
  | .setWaker _ | .limit _ | .cancel | .age => true
  | .forget | .ack | .cancelAck => false

theorem EntryOp.apply_ne_acked {op : EntryOp} (hop : op.isCalm = true) (he : e ≠ .acked) :
    op.apply e ≠ .acked := by
  cases e with
  | acked => exact absurd rfl he
  | cancelRequested | cancelAcked =>
    cases op with
    | setWaker | limit | cancel | age => rintro ⟨⟩
    | forget | ack | cancelAck => cases hop
  | unacked p w l c f =>
    cases op with
    | setWaker | limit | cancel => rintro ⟨⟩
    | forget | ack | cancelAck => cases hop
    | age =>
      cases l with
      | none => rintro ⟨⟩
      | some limit =>
        simp only [EntryOp.apply, UnackedState.ageRetries]
        split <;> rintro ⟨⟩

/-- The move frees no room and withdraws no packet. -/
def Move.isCalm : Move Pkt → Bool
  | .entry _ op => op.isCalm
  | .slot _ (.setWaker _) | .slot _ (.limit _) => true
  | _ => false

namespace Sender

theorem Moved.calm {m : Move Pkt} (hm : Moved s m s') (hk : m.isCalm = true) : Calm s s' := by
  cases hm with
  | entry op he => exact calm_setUnacked he (EntryOp.apply_ne_acked hk)
  | @slot idx b op hb =>
    refine calm_setBlocked hb fun hne => ?_
    cases b with
    | canceled => exact absurd rfl hne
    | blocked =>
      cases op with
      | setWaker | limit => nofun
      | cancel => cases hk
  | quiet | trim | trimBlocked | queue | send | unblock => cases hk

variable {ps : List Pkt}

theorem Moves.calm {ms : List (Move Pkt)} (h : Moves s ms ps s')
    (hk : ∀ m ∈ ms, m.isCalm = true) : Calm s s' := by
  induction h with
  | nil => exact .refl _
  | cons hm _ ih =>
    exact (hm.calm (hk _ List.mem_cons_self)).trans
      (ih fun m hmem => hk m (List.mem_cons_of_mem _ hmem))

theorem calm_pollSend {cx : Waker} {r : Poll (Option SeqNum)}
    (h : s.pollSend cx id = some (r, s')) : Calm s s' := by
  rcases pollSend_moves h with ⟨idx, p, w, l, -, -, -, hms⟩ | ⟨o, -, -, -, rfl⟩
  · exact hms.calm (by simp [Move.isCalm])
  · exact .refl _

theorem calm_applies {op : EntryOp} (h : s.Applies op sn ps s')
    (hop : op.isCalm = true) : Calm s s' := by
  cases h with
  | idle => exact .refl _
  | entry _ hms => exact hms.calm (by simpa [Move.isCalm] using hop)

variable {r : Option Pkt} {w : Nat}

theorem calm_limitRetriesById {limit : UInt8} (h : s.limitRetriesById id limit = some s') :
    Calm s s' := by
  rcases limitRetriesById_moves h with ⟨idx, -, hms⟩ | ⟨-, o, -, ⟨-, rfl⟩ | ⟨sn, -, hlim⟩⟩
  · exact hms.calm (by simp [Move.isCalm])
  · exact .refl _
  · exact calm_applies (limitRetriesBySeqNum_effect hlim) rfl

theorem calm_cancelQueuedPacket (h : s.cancelQueuedPacket id = some (r, s')) : Calm s s' := by
  rcases cancelQueuedPacket_cases h with ⟨-, rfl⟩ | ⟨idx, p, w, l, -, -, hb, rfl⟩
  · exact .refl _
  have hnil : s.blocked ≠ [] := by
    intro hnil
    simp [hnil] at hb
  split
  · exact ⟨rfl, rfl, fun h => absurd h hnil, fun ht =>
      ⟨ht.unacked, fun _ hf => cleanBlockedQueue_front hf⟩⟩
  next hidx =>
  -- the front entry is not the one that was cancelled
  refine ⟨rfl, rfl, fun h => absurd h hnil, fun ht => ⟨ht.unacked, ?_⟩⟩
  intro x hx
  apply ht.blocked x
  obtain ⟨i, rfl⟩ := Nat.exists_eq_succ_of_ne_zero hidx
  cases hl : s.blocked with
  | nil => exact absurd hl hnil
  | cons a l => simpa [setBlocked, wake, hl] using hx

theorem calm_ageRetries : Calm s s.ageRetries.2 := by
  rw [← ageRetriesOf_length]
  exact (ageRetriesOf_moves le_rfl).calm (by simp [Move.isCalm, EntryOp.isCalm])

/-! ## Operations that can free room -/

theorem Tidy.settles {op : EntryOp} (ht : s.Tidy) (h : s.Settles op sn ps s') :
    s'.Tidy := by
  cases h with
  | idle => exact ht
  | counted => exact ⟨ht.unacked, ht.blocked⟩
  | entry _ hms => exact ht.entry_trim hms

/-- Forgetting `sn` makes room for a waiting packet: it is the oldest packet, it was
    cancel-acknowledged, and what remains behind it is shorter than the window. -/
def forgetFrees (s : Sender Pkt) (sn : SeqNum) : Bool :=
  match s.unacked with
  | .cancelAcked :: rest =>
    s.hasBlockedPackets && s.seqNumPosition sn == .at 0 &&
      (rest.dropWhile isAckedEntry).length < s.windowSize
  | _ => false

theorem Drained.forgetCanceledPacket (ht : s.Tidy) (hd : s.Drained)
    (hf : s.forgetFrees sn = false) (h : s.forgetCanceledPacket sn = some s') : s'.Drained := by
  unfold Sender.forgetCanceledPacket at h
  split at h
  · cases h
  · cases h
    exact hd
  · cases h
    exact hd
  next idx hpos =>
  split at h
  · cases h
  next e he =>
  obtain ⟨hb, hw, hu⟩ := cleanQueues_fields h
  have hkeep : s.unacked.length = s'.unacked.length → s'.Drained := fun hlen =>
    hd.of_le hw hlen.le fun hnil => hb.trans hnil
  cases idx with
  | succ i =>
    apply hkeep
    rw [hu]
    simp [setUnacked]
  | zero =>
    cases hl : s.unacked with
    | nil => simp [hl] at he
    | cons a rest =>
      obtain rfl : a = e := by simpa [hl] using he
      have hne := ht.unacked a (by simp [hl])
      cases a with
      | acked => exact absurd rfl hne
      | cancelAcked =>
        -- the entry leaves the window, and `forgetFrees` says how many remain
        rw [drained_iff, hu, hw, hb]
        by_cases hnil : s.blocked = []
        · exact .inr hnil
        left
        have hbl : s.hasBlockedPackets = true := by
          simpa [hasBlockedPackets, List.isEmpty_iff] using hnil
        simp only [forgetFrees, hl, hbl, hpos, BEq.rfl, Bool.true_and,
          decide_eq_false_iff_not, Nat.not_lt] at hf
        simp only [setUnacked, hl, List.set_cons_zero, UnackedState.forget, if_true]
        rwa [List.dropWhile_cons_of_pos rfl]
      | unacked p w l c f =>
        apply hkeep
        rw [hu]
        cases l <;> simp [setUnacked, hl, UnackedState.forget, isAckedEntry]
      | cancelRequested w f =>
        apply hkeep
        rw [hu]
        simp [setUnacked, hl, UnackedState.forget, isAckedEntry]

/-- A growing window makes room for a waiting packet. -/
def growthFrees (s : Sender Pkt) (windowSize : Nat) : Bool :=
  s.hasBlockedPackets && decide (s.unacked.length < min maxWindowSize windowSize)

theorem Drained.adjustWindowSize (hf : s.growthFrees w = false)
    (h : s.adjustWindowSize w = some s') : s'.Drained := by
  obtain rfl := adjustWindowSize_eq h
  rw [drained_iff]
  by_cases hnil : s.blocked = []
  · exact .inr hnil
  have hbl : s.hasBlockedPackets = true := by
    simpa [hasBlockedPackets, List.isEmpty_iff] using hnil
  simp only [growthFrees, hbl, Bool.true_and, decide_eq_false_iff_not, Nat.not_lt] at hf
  exact .inl hf

theorem Tidy.adjustWindowSize (ht : s.Tidy) (h : s.adjustWindowSize w = some s') :
    s'.Tidy := by
  obtain rfl := adjustWindowSize_eq h
  exact ⟨ht.unacked, ht.blocked⟩

/-! ## Operations that send -/

theorem head?_append_singleton {α : Type} {P : α → Prop} {l : List α} {x : α}
    (hl : ∀ z, l.head? = some z → P z) (hx : P x) : ∀ z, (l ++ [x]).head? = some z → P z := by
  cases l with
  | nil =>
    intro z hz
    obtain rfl : x = z := by simpa using hz
    exact hx
  | cons a l =>
    intro z hz
    exact hl z (by simpa using hz)

theorem Tidy.enqueuePacket (ht : s.Tidy) (packet : Pkt) : (s.enqueuePacket packet).2.Tidy := by
  unfold Sender.enqueuePacket
  split
  · exact ⟨ht.unacked, head?_append_singleton ht.blocked nofun⟩
  · exact ⟨head?_append_singleton ht.unacked nofun, ht.blocked⟩

theorem Drained.enqueuePacket (hd : s.Drained) (packet : Pkt) :
    (s.enqueuePacket packet).2.Drained := by
  unfold Sender.enqueuePacket
  split
  · next hb =>
    rw [drained_iff] at hd ⊢
    left
    rcases hd with hfull | hnil
    · exact hfull
    · simpa [isBlocked, hasBlockedPackets, hnil] using hb
  · next hb =>
    simp only [Bool.or_eq_true, not_or, Bool.not_eq_true] at hb
    rw [drained_iff]
    right
    simpa [hasBlockedPackets, pushUnacked] using hb.2

theorem Tidy.enqueueNextBlockedPacket (ht : s.Tidy) {r : SeqNum × Pkt}
    (h : s.enqueueNextBlockedPacket = some (r, s')) : s'.Tidy := by
  unfold Sender.enqueueNextBlockedPacket at h
  split at h
  · cases h
  split at h
  · cases h
    exact ⟨head?_append_singleton ht.unacked nofun, fun _ hf => cleanBlockedQueue_front hf⟩
  · cases h

theorem enqueueNextBlockedPacket_length {r : SeqNum × Pkt}
    (h : s.enqueueNextBlockedPacket = some (r, s')) : s'.blocked.length < s.blocked.length := by
  unfold Sender.enqueueNextBlockedPacket at h
  split at h
  · cases h
  split at h
  · next hq =>
    cases h
    have hle := (List.dropWhile_suffix (l := s.blocked.tail) (·.isCanceled)).length_le
    simp only [hq, List.tail_cons] at hle
    simp only [wake, cleanBlockedQueue, pushUnacked, hq, List.length_cons]
    omega
  · cases h

theorem Tidy.enqueueNextBlockedPacket_isSome (ht : s.Tidy) (hu : s.unblockNeeded = true) :
    ∃ r s', s.enqueueNextBlockedPacket = some (r, s') := by
  simp only [unblockNeeded, Bool.and_eq_true, Bool.not_eq_true'] at hu
  unfold Sender.enqueueNextBlockedPacket
  cases hb : s.blocked with
  | nil => simp [hasBlockedPackets, hb] at hu
  | cons b rest =>
    cases b with
    | canceled => exact absurd rfl (ht.blocked .canceled (by simp [hb]))
    | blocked p w l =>
      simp only [hu.1, Bool.false_eq_true, if_false]
      exact ⟨_, _, rfl⟩

end Sender

end ZprCore.Zdpr
