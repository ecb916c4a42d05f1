-- SUMMARY: A ledger of the packets behind sequence numbers and queue ids.
import ZprCore.Zdpr.QueueIds

/-!
# Packets behind numbers and ids

When every packet handed to a sender is different, its queues tell packets apart. A ledger
lists the packets in the order in which they got a sequence number (`numbers`) and in the order
in which they were queued (`ids`); `Sender.Ledger` says that the queues agree with the lists,
and in particular that the record of a queued packet is only ever trimmed when the packet was
settled or withdrawn.
-/

namespace ZprCore.Zdpr

variable {Pkt : Type}

/-- An update of a status that keeps the packet and takes back no acknowledgement. -/
structure Lawful (f : UnackedState Pkt → UnackedState Pkt) : Prop where
  acked : f .acked = .acked
  isAcked : ∀ e, e.isAcked = true → (f e).isAcked = true
  packet : ∀ e p w l c x, f e = .unacked p w l c x → ∃ w' l' c' x', e = .unacked p w' l' c' x'

namespace Lawful

theorem id : Lawful (fun e : UnackedState Pkt => e) :=
  ⟨rfl, fun _ h => h, fun _ _ w l c x h => ⟨w, l, c, x, h⟩⟩

theorem onSeqNum {f : UnackedState Pkt → UnackedState Pkt} (hf : Lawful f) (sn : SeqNum)
    (k : Nat) : Lawful (Sender.onSeqNum sn f k) := by
  unfold Sender.onSeqNum
  by_cases h : BitVec.ofNat 64 k = sn
  · simp only [h, if_true]
    exact hf
  · simp only [h, if_false]
    exact .id

theorem apply (op : EntryOp) : Lawful (@EntryOp.apply Pkt op) where
  acked := by cases op <;> rfl
  isAcked e he := by
    cases e with
    | acked | cancelAcked => cases op <;> rfl
    | unacked | cancelRequested => cases he
  packet e p w l c x h := by
    cases e with
    | unacked p' w' l' c' x' =>
      cases op with
      | cancel | ack => cases h
      | forget => cases l' <;> cases h <;> exact ⟨_, _, _, _, rfl⟩
      | age =>
        cases l' with
        | none => cases h; exact ⟨_, _, _, _, rfl⟩
        | some limit =>
          simp only [EntryOp.apply, UnackedState.ageRetries] at h
          split at h <;> cases h
          exact ⟨_, _, _, _, rfl⟩
      | _ => cases h; exact ⟨_, _, _, _, rfl⟩
    | cancelRequested w' x' => cases op <;> cases x' <;> cases h
    | acked | cancelAcked => cases op <;> cases h

end Lawful

namespace Sender

variable {s s' : Sender Pkt} {numbers ids : List Pkt} {p t : Pkt} {j k : Nat}
  {f : Nat → UnackedState Pkt → UnackedState Pkt} {l : List Pkt} {i n : Nat}

/-- What the queues may say about a queued packet. -/
def Fits (status : Nat → UnackedState Pkt) (numbers : List Pkt) (packet : Option Pkt) :
    QueueState Pkt → Prop
  | .waiting p _ _ => packet = some p ∧ p ∉ numbers
  | .sentAs sn => ∃ k p, sn = BitVec.ofNat 64 k ∧ numbers[k]? = some p ∧ packet = some p
  | .gone => ∀ k p, packet = some p → numbers[k]? = some p → (status k).isAcked = true
  | .canceled => ∀ p, packet = some p → p ∉ numbers

/-- The queues agree with the packets that were numbered and those that were queued. -/
structure Ledger (s : Sender Pkt) (numbers ids : List Pkt) : Prop where
  hasSent : s.HasSent numbers.length
  hasQueued : s.HasQueued ids.length
  numbers_nodup : numbers.Nodup
  ids_nodup : ids.Nodup
  unacked : ∀ k p w l c x, s.status numbers.length k = .unacked p w l c x → numbers[k]? = some p
  fits : ∀ j, Fits (s.status numbers.length) numbers ids[j]? (s.queued ids.length j)

/-- The packet was taken out of the queue before it got a number. -/
def Withdrawn (s : Sender Pkt) (numbers ids : List Pkt) (p : Pkt) : Prop :=
  p ∉ numbers ∧ ∀ j w l, s.queued ids.length j ≠ .waiting p w l

/-! ## Every operation keeps the ledger -/

theorem eq_of_getElem? (hl : l.Nodup) {i j : Nat} (hi : l[i]? = some p)
    (hj : l[j]? = some p) : i = j :=
  (List.getElem?_inj (List.getElem?_eq_some_iff.mp hi).1 hl).mp (hi.trans hj.symm)

theorem lt_of_getElem? (h : l[i]? = some p) : i < l.length :=
  (List.getElem?_eq_some_iff.mp h).1

theorem HasSent.status_of_ge (hs : s.HasSent n) (hk : n ≤ k) : s.status n k = .acked := by
  have hlen := hs.length_le
  have h1 : ¬ k < n - s.unacked.length := by omega
  have h2 : s.unacked[k - (n - s.unacked.length)]? = none := List.getElem?_eq_none (by omega)
  simp [status, Window.read, h1, h2]

theorem Evolves.status_eq (hs : s.HasSent n) (hev : Evolves n f s s')
    (hf : ∀ k, Lawful (f k)) (k : Nat) : s'.status n k = f k (s.status n k) := by
  by_cases hk : k < n
  · exact hev.status k hk
  · rw [hev.hasSent.status_of_ge (by omega), hs.status_of_ge (by omega), (hf k).acked]

namespace Ledger

section

variable (hl : s.Ledger numbers ids)

include hl

theorem waiting (j p w l) (h : s.queued ids.length j = .waiting p w l) :
    ids[j]? = some p ∧ p ∉ numbers := by
  have hfits := hl.fits j
  rwa [h] at hfits

theorem sentAs (j sn) (h : s.queued ids.length j = .sentAs sn) :
    ∃ k p, sn = BitVec.ofNat 64 k ∧ numbers[k]? = some p ∧ ids[j]? = some p := by
  have hfits := hl.fits j
  rwa [h] at hfits

theorem gone (j k p) (h : s.queued ids.length j = .gone) :
    ids[j]? = some p → numbers[k]? = some p → (s.status numbers.length k).isAcked = true := by
  have hfits := hl.fits j
  rw [h] at hfits
  exact hfits k p

theorem canceled (j p) (h : s.queued ids.length j = .canceled) : ids[j]? = some p → p ∉ numbers := by
  have hfits := hl.fits j
  rw [h] at hfits
  exact hfits p

end

theorem new : (Sender.new : Sender Pkt).Ledger [] [] where
  hasSent := new_hasSent
  hasQueued := new_hasQueued
  numbers_nodup := List.nodup_nil
  ids_nodup := List.nodup_nil
  unacked k p w l c x h := by
    have hacked : (Sender.new : Sender Pkt).status 0 k = .acked :=
      new_hasSent.status_of_ge (Nat.zero_le _)
    cases hacked.symm.trans h
  fits j := by simp [queued, queue, Sender.new, Window.read, Fits]

variable {st st' : Nat → UnackedState Pkt} {packet : Option Pkt} {q : QueueState Pkt}
  {limit : Option UInt8}

theorem getElem?_concat (h : (l ++ [t])[i]? = some p) :
    l[i]? = some p ∨ i = l.length ∧ p = t := by
  rcases Nat.lt_trichotomy i l.length with hi | hi | hi
  · rw [List.getElem?_append_left hi] at h
    exact .inl h
  · subst hi
    rw [List.getElem?_concat_length] at h
    exact .inr ⟨rfl, (Option.some.inj h).symm⟩
  · have := lt_of_getElem? h
    simp only [List.length_append, List.length_singleton] at this
    omega

theorem getElem?_concat_of_ne (hi : i ≠ l.length) :
    (l ++ [t])[i]? = l[i]? := by
  rcases Nat.lt_or_gt_of_ne hi with hlt | hgt
  · exact List.getElem?_append_left hlt
  · rw [List.getElem?_eq_none hgt.le, List.getElem?_eq_none]
    simp only [List.length_append, List.length_singleton]
    omega

theorem getElem?_concat_of_some (h : l[i]? = some p) :
    (l ++ [t])[i]? = some p := by
  rw [List.getElem?_append_left (lt_of_getElem? h)]
  exact h

theorem Fits.mono (h : Fits st numbers packet q)
    (hst : ∀ k, (st k).isAcked = true → (st' k).isAcked = true) : Fits st' numbers packet q := by
  cases q with
  | gone => exact fun k p hid hnum => hst k (h k p hid hnum)
  | waiting | sentAs | canceled => exact h

/-- Another packet gets a number. -/
theorem Fits.number (h : Fits st numbers packet q) (hp : packet ≠ some p)
    (hst : ∀ k < numbers.length, st' k = st k) : Fits st' (numbers ++ [p]) packet q := by
  cases q with
  | waiting =>
    obtain ⟨rfl, hnum⟩ := h
    exact ⟨rfl, by simpa using ⟨hnum, fun heq => hp (congrArg some heq)⟩⟩
  | sentAs =>
    obtain ⟨k, q, hk, hnum, hid⟩ := h
    exact ⟨k, q, hk, getElem?_concat_of_some hnum, hid⟩
  | gone =>
    intro k q hid hnum
    rcases getElem?_concat hnum with hold | ⟨-, rfl⟩
    · rw [hst k (lt_of_getElem? hold)]
      exact h k q hid hold
    · exact absurd hid hp
  | canceled =>
    rintro q rfl
    simpa using ⟨h q rfl, fun heq => hp (congrArg some heq)⟩

section

variable (hl : s.Ledger numbers ids) {l : Option UInt8} {w : Waker}

include hl

theorem trims (hn : numbers.length < 2 ^ 63) (hev : Evolves numbers.length f s s')
    (hf : ∀ k, Lawful (f k)) (ht : Trims ids.length s s') :
    s'.Ledger numbers ids where
  hasSent := hev.hasSent
  hasQueued := ht.hasQueued
  numbers_nodup := hl.numbers_nodup
  ids_nodup := hl.ids_nodup
  unacked := by
    intro k p w l c x h
    rw [hev.status_eq hl.hasSent hf] at h
    obtain ⟨w', l', c', x', h'⟩ := (hf k).packet _ _ _ _ _ _ h
    exact hl.unacked k p w' l' c' x' h'
  fits := by
    intro j
    rcases ht.queued j with heq | ⟨hgone, hcanceled | ⟨sn, hsent, hacked⟩⟩
    · rw [heq]
      refine Fits.mono (hl.fits j) fun k hk => ?_
      rw [hev.status_eq hl.hasSent hf]
      exact (hf k).isAcked _ hk
    · rw [hgone]
      exact fun k p hid hnum =>
        absurd (List.mem_of_getElem? hnum) (hl.canceled j p hcanceled hid)
    · rw [hgone]
      intro k p hid hnum
      obtain ⟨k', p', rfl, hnum', hid'⟩ := hl.sentAs j sn hsent
      cases hid.symm.trans hid'
      obtain rfl := eq_of_getElem? hl.numbers_nodup hnum hnum'
      rw [hev.hasSent.isAcked_ofNat (by omega) (lt_of_getElem? hnum)] at hacked
      exact Option.some.inj hacked

theorem fits_other (hev : Evolves numbers.length (fun _ e => e) s s') (j : Nat) :
    Fits (s'.status numbers.length) numbers ids[j]? (s.queued ids.length j) := by
  refine Fits.mono (hl.fits j) fun k hk => ?_
  rwa [hev.status_eq hl.hasSent (fun _ => .id)]

theorem requeue {v : QueueState Pkt} (hw : s.queued ids.length j = .waiting p w l)
    (hv : v = .canceled ∨ ∃ w' l', v = .waiting p w' l')
    (hev : Evolves numbers.length (fun _ e => e) s s') (hq : s'.HasQueued ids.length)
    (hupd : s'.queued ids.length = Function.update (s.queued ids.length) j v) :
    s'.Ledger numbers ids where
  hasSent := hev.hasSent
  hasQueued := hq
  numbers_nodup := hl.numbers_nodup
  ids_nodup := hl.ids_nodup
  unacked k p w l c x h :=
    hl.unacked k p w l c x (hev.status_eq hl.hasSent (fun _ => .id) k ▸ h)
  fits i := by
    rw [hupd, Function.update_apply]
    split
    · next hi =>
      obtain ⟨hid, hnum⟩ := hl.waiting j p w l hw
      subst hi
      rcases hv with rfl | ⟨w', l', rfl⟩
      · intro q hq
        cases hid.symm.trans hq
        exact hnum
      · exact ⟨hid, hnum⟩
    · exact hl.fits_other hev i

theorem queue (hp : p ∉ numbers) (hp' : p ∉ ids) (hev : Evolves numbers.length (fun _ e => e) s s')
    (hq : s'.HasQueued (ids.length + 1)) (hupd : s'.queued (ids.length + 1)
      = Function.update (s.queued ids.length) ids.length (.waiting p .noop none)) :
    s'.Ledger numbers (ids ++ [p]) where
  hasSent := hev.hasSent
  hasQueued := by simpa using hq
  numbers_nodup := hl.numbers_nodup
  ids_nodup := List.Nodup.append hl.ids_nodup (List.nodup_singleton p) (by simpa using hp')
  unacked k p w l c x h :=
    hl.unacked k p w l c x (hev.status_eq hl.hasSent (fun _ => .id) k ▸ h)
  fits i := by
    rw [List.length_append, List.length_singleton, hupd, Function.update_apply]
    split
    · next hi => exact hi ▸ ⟨List.getElem?_concat_length, hp⟩
    · next hi =>
      rw [getElem?_concat_of_ne hi]
      exact hl.fits_other hev i

theorem sends_unacked (hs : Sends numbers.length p limit s s') {q : Pkt} {c : UInt8}
    {x : Bool} (h : s'.status (numbers ++ [p]).length k = .unacked q w l c x) :
    (numbers ++ [p])[k]? = some q := by
  rw [List.length_append, List.length_singleton] at h
  rcases Nat.lt_trichotomy k numbers.length with hk | hk | hk
  · rw [hs.status_old k hk] at h
    exact getElem?_concat_of_some (hl.unacked k q w l c x h)
  · subst hk
    rw [hs.status_new] at h
    cases h
    exact List.getElem?_concat_length
  · rw [hs.hasSent.status_of_ge (by omega)] at h
    cases h

end

theorem sends_status (hs : Sends numbers.length p limit s s') (hk : k < numbers.length) :
    s'.status (numbers ++ [p]).length k = s.status numbers.length k := by
  rw [List.length_append, List.length_singleton]
  exact hs.status_old k hk

theorem send (hl : s.Ledger numbers ids) (hp : p ∉ numbers) (hp' : p ∉ ids)
    (hs : Sends numbers.length p limit s s') (hq : s'.HasQueued ids.length)
    (heq : s'.queued ids.length = s.queued ids.length) : s'.Ledger (numbers ++ [p]) ids where
  hasSent := by simpa using hs.hasSent
  hasQueued := hq
  numbers_nodup := List.Nodup.append hl.numbers_nodup (List.nodup_singleton p) (by simpa using hp)
  ids_nodup := hl.ids_nodup
  unacked k q w l c x h := hl.sends_unacked hs h
  fits i := by
    rw [heq]
    exact Fits.number (hl.fits i) (fun hid => hp' (List.mem_of_getElem? hid)) fun _ => sends_status hs

theorem unblock (hl : s.Ledger numbers ids) {w : Waker}
    (hw : s.queued ids.length j = .waiting p w limit) (hs : Sends numbers.length p limit s s')
    (hq : s'.HasQueued ids.length) (hupd : s'.queued ids.length
      = Function.update (s.queued ids.length) j (.sentAs (BitVec.ofNat 64 numbers.length))) :
    s'.Ledger (numbers ++ [p]) ids := by
  obtain ⟨hid, hp⟩ := hl.waiting j p w limit hw
  refine
    { hasSent := by simpa using hs.hasSent
      hasQueued := hq
      numbers_nodup := List.Nodup.append hl.numbers_nodup (List.nodup_singleton p) (by simpa using hp)
      ids_nodup := hl.ids_nodup
      unacked := fun k q w l c x h => hl.sends_unacked hs h
      fits := fun i => ?_ }
  rw [hupd, Function.update_apply]
  split
  · next hi => exact ⟨numbers.length, p, rfl, List.getElem?_concat_length, hi ▸ hid⟩
  · next hi =>
    exact Fits.number (hl.fits i) (fun hid' => hi (eq_of_getElem? hl.ids_nodup hid' hid))
      fun _ => sends_status hs

end Ledger

end Sender

end ZprCore.Zdpr
