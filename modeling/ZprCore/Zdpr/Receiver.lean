-- SUMMARY: The receiving half of a reliable ZDP session.
import Mathlib.Data.BitVec
import ZprCore.Zdpr.Sender

/-!
# ZDP-R receiver

Model of `Receiver` in `zdpr.rs`. The two bitsets are 64-bit words whose bit `i` stands for
the sequence number `highest_seen - i`. A shift by 64 or more panics and is `none`.

`Receiver.Represents` says which numbers a receiver state stands for, with the sequence space
unrolled to `Int` so that the wrap-around of the words disappears, and
the lemmas `Represents.processPacketOrCancel_*` describe one call in those terms.
-/

namespace ZprCore.Zdpr

inductive Disposition where
  | ackAndProcess
  | ackDoNotProcess
  | ackCancelDoNotProcess
  | ignore
deriving DecidableEq

namespace Disposition

def shouldAck : Disposition → Bool
  | .ackAndProcess | .ackDoNotProcess | .ackCancelDoNotProcess => true
  | .ignore => false

def ackIsCanceled : Disposition → Bool
  | .ackCancelDoNotProcess => true
  | _ => false

def shouldProcess : Disposition → Bool
  | .ackAndProcess => true
  | _ => false

end Disposition

inductive ReceiverStat where
  | tooOld
  | duplicate
  | tooNew
  | outOfOrder
deriving DecidableEq

abbrev WindowBitset := BitVec 64

/-- `u64::leading_ones`: the index from the top of the first clear bit, 64 if there is none. -/
def leadingOnes (x : WindowBitset) : Nat := (List.range 64).findIdx fun i => !x.getMsbD i

structure Receiver where
  windowSize : Nat
  highestSeen : SeqNum
  recvd : WindowBitset
  canceled : WindowBitset
  stats : ReceiverStat → Nat

namespace Receiver

def maxWindowSize : Nat := 64

def new (windowSize : Nat) : Option Receiver :=
  if 1 ≤ windowSize ∧ windowSize ≤ maxWindowSize then
    some
      { windowSize
        highestSeen := BitVec.allOnes 64
        recvd := BitVec.allOnes 64
        canceled := BitVec.allOnes 64
        stats := fun _ => 0 }
  else none

def countStat (r : Receiver) (stat : ReceiverStat) : Receiver :=
  { r with stats := fun t => if t = stat then r.stats t + 1 else r.stats t }

def oldestUnrecvdOffset (r : Receiver) : Int := -64 + leadingOnes r.recvd + 1

def bitClear (bits : WindowBitset) (shift : Nat) : Bool := bits >>> shift &&& 1#64 == 0#64

def processPacketOrCancel (r : Receiver) (sn : SeqNum) (isCancel : Bool) :
    Option (Disposition × Receiver) :=
  let offset := wrappingOffset sn r.highestSeen
  if offset ≤ -(r.windowSize : Int) then
    some (.ignore, r.countStat .tooOld)
  else if offset ≥ r.oldestUnrecvdOffset + r.windowSize then
    some (.ignore, r.countStat .tooNew)
  else if offset > 0 then
    if offset ≥ 64 then none
    else
      let shift := offset.toNat
      let r :=
        { r with
          highestSeen := r.highestSeen + BitVec.ofInt 64 offset
          recvd := r.recvd <<< shift ||| 1#64
          canceled := r.canceled <<< shift }
      if isCancel then
        some (.ackCancelDoNotProcess, { r with canceled := r.canceled ||| 1#64 })
      else
        some (.ackAndProcess, r)
  else if -offset ≥ 64 then none
  else
    let shift := (-offset).toNat
    if bitClear r.recvd shift then
      let r := { r.countStat .outOfOrder with recvd := r.recvd ||| 1#64 <<< shift }
      if isCancel then
        some (.ackCancelDoNotProcess, { r with canceled := r.canceled ||| 1#64 <<< shift })
      else
        some (.ackAndProcess, r)
    else
      let r := r.countStat .duplicate
      if bitClear r.canceled shift then some (.ackDoNotProcess, r)
      else some (.ackCancelDoNotProcess, r)

def processPacket (r : Receiver) (sn : SeqNum) : Option (Disposition × Receiver) :=
  r.processPacketOrCancel sn false

def processCancel (r : Receiver) (sn : SeqNum) : Option (Disposition × Receiver) :=
  r.processPacketOrCancel sn true

def shouldProcessPacket (r : Receiver) (sn : SeqNum) : Option Bool :=
  let offset := wrappingOffset sn r.highestSeen
  if offset ≤ -(r.windowSize : Int) then some false
  else if offset ≥ r.oldestUnrecvdOffset + r.windowSize then some false
  else if offset > 0 then some true
  else if -offset ≥ 64 then none
  else some (bitClear r.recvd (-offset).toNat)

def fetchResetStat (r : Receiver) (stat : ReceiverStat) : Nat × Receiver :=
  (r.stats stat, { r with stats := fun t => if t = stat then 0 else r.stats t })

end Receiver

/-! ## Bit facts -/

theorem leadingOnes_le (x : WindowBitset) : leadingOnes x ≤ 64 := by
  have h : leadingOnes x ≤ (List.range 64).length := List.findIdx_le_length
  simpa using h

variable {x : WindowBitset}

theorem getMsbD_of_lt_leadingOnes {i : Nat} (h : i < leadingOnes x) : x.getMsbD i = true := by
  have hi := List.not_of_lt_findIdx h
  simpa using hi

theorem getMsbD_leadingOnes (h : leadingOnes x < 64) : x.getMsbD (leadingOnes x) = false := by
  have hlt : (List.range 64).findIdx (fun i => !x.getMsbD i) < (List.range 64).length := by
    simpa [leadingOnes] using h
  have hi := List.findIdx_getElem (w := hlt)
  simpa [leadingOnes] using hi

theorem bitClear_iff {bits : WindowBitset} {shift : Nat} :
    Receiver.bitClear bits shift = true ↔ bits.getLsbD shift = false := by
  unfold Receiver.bitClear
  rw [beq_iff_eq]
  constructor
  · intro h
    have h0 := congrArg (fun x => BitVec.getLsbD x 0) h
    simpa using h0
  · intro h
    ext i hi
    by_cases h0 : i = 0
    · subst h0; simp [h]
    · simp [h0]

/-! ## What a receiver state stands for -/

namespace Receiver

variable {r : Receiver} {H : Int} {seen refused : Int → Prop} {stat : ReceiverStat} {offset : Int}

/-- The numbers a receiver state stands for: `H` is the highest one seen, `seen` the ones
    received and `refused` the ones received as a cancellation. -/
structure Represents (r : Receiver) (H : Int) (seen refused : Int → Prop) : Prop where
  highest : r.highestSeen = BitVec.ofInt 64 H
  recvd : ∀ i : Nat, i < 64 → (r.recvd.getLsbD i = true ↔ seen (H - i))
  canceled : ∀ i : Nat, i < 64 → (r.canceled.getLsbD i = true ↔ refused (H - i))
  seen_old : ∀ k ≤ H - 64, seen k
  not_seen_new : ∀ k > H, ¬ seen k
  seen_of_refused : ∀ k, refused k → seen k

@[simp] theorem countStat_recvd : (r.countStat stat).recvd = r.recvd := rfl

@[simp] theorem countStat_canceled : (r.countStat stat).canceled = r.canceled := rfl

theorem Represents.countStat (h : Represents r H seen refused) (stat : ReceiverStat) :
    Represents (r.countStat stat) H seen refused :=
  { h with }

theorem new_represents {windowSize : Nat} (h : new windowSize = some r) :
    Represents r (-1) (· < 0) (· < 0) := by
  unfold new at h
  split at h
  · cases h
    have hbit : ∀ i : Nat, i < 64 → ((BitVec.allOnes 64).getLsbD i = true ↔ (-1 : Int) - i < 0) := by
      intro i hi
      simp only [BitVec.getLsbD_allOnes, hi, decide_true, true_iff]
      omega
    exact
      { highest := by simp only; decide
        recvd := hbit
        canceled := hbit
        seen_old := by intro k hk; omega
        not_seen_new := by intro k hk; omega
        seen_of_refused := fun _ hk => hk }
  · cases h

section

variable (h : Represents r H seen refused)

include h

theorem Represents.seen_of_lt {k : Int} (hk : k < H + r.oldestUnrecvdOffset) : seen k := by
  unfold oldestUnrecvdOffset at hk
  by_cases hold : k ≤ H - 64
  · exact h.seen_old k hold
  have hbit : r.recvd.getMsbD (k - (H - 63)).toNat = true :=
    getMsbD_of_lt_leadingOnes (by omega)
  simp only [BitVec.getMsbD, Bool.and_eq_true, decide_eq_true_eq] at hbit
  have hseen := (h.recvd _ (by omega)).mp hbit.2
  have hidx : H - ((64 - 1 - (k - (H - 63)).toNat : Nat) : Int) = k := by omega
  rwa [hidx] at hseen

theorem Represents.not_seen_oldest : ¬ seen (H + r.oldestUnrecvdOffset) := by
  unfold oldestUnrecvdOffset
  by_cases hall : leadingOnes r.recvd = 64
  · exact h.not_seen_new _ (by omega)
  have hle := leadingOnes_le r.recvd
  have hbit := getMsbD_leadingOnes (x := r.recvd) (by omega)
  have hlt : leadingOnes r.recvd < 64 := by omega
  simp only [BitVec.getMsbD, hlt, decide_true, Bool.true_and] at hbit
  intro hseen
  have hidx : H + (-64 + (leadingOnes r.recvd : Int) + 1)
      = H - ((64 - 1 - leadingOnes r.recvd : Nat) : Int) := by omega
  rw [hidx] at hseen
  rw [(h.recvd _ (by omega)).mpr hseen] at hbit
  cases hbit

/-- A number is too new when some number a whole window below it is still missing. -/
theorem Represents.tooNew_iff {a : Int} :
    a - H ≥ r.oldestUnrecvdOffset + r.windowSize ↔ ∃ k ≤ a - r.windowSize, ¬ seen k := by
  constructor
  · intro ha
    exact ⟨H + r.oldestUnrecvdOffset, by omega, h.not_seen_oldest⟩
  · rintro ⟨k, hk, hnot⟩
    by_contra hlt
    exact hnot (h.seen_of_lt (by omega))

theorem Represents.not_tooNew (hbelow : ∀ k ≤ H + offset - r.windowSize, seen k) :
    ¬ offset ≥ r.oldestUnrecvdOffset + r.windowSize := by
  intro hge
  obtain ⟨k, hk, hnot⟩ := h.tooNew_iff (a := H + offset) |>.mp (by omega)
  exact hnot (hbelow k hk)

end

/-! ## One call -/

variable {sn : SeqNum} {isCancel : Bool}

/-- The disposition of a number received for the first time. -/
def freshDisposition (isCancel : Bool) : Disposition :=
  if isCancel then .ackCancelDoNotProcess else .ackAndProcess

theorem processPacketOrCancel_old (hold : wrappingOffset sn r.highestSeen ≤ -(r.windowSize : Int)) :
    r.processPacketOrCancel sn isCancel = some (.ignore, r.countStat .tooOld) := by
  simp [processPacketOrCancel, hold]

section

variable (h : Represents r H seen refused)

include h

theorem Represents.processPacketOrCancel_new {k : Int}
    (hold : ¬ wrappingOffset sn r.highestSeen ≤ -(r.windowSize : Int))
    (hk : k ≤ H + wrappingOffset sn r.highestSeen - r.windowSize) (hnot : ¬ seen k) :
    r.processPacketOrCancel sn isCancel = some (.ignore, r.countStat .tooNew) := by
  have hnew := h.tooNew_iff.mpr ⟨k, hk, hnot⟩
  have hnew' : wrappingOffset sn r.highestSeen ≥ r.oldestUnrecvdOffset + r.windowSize := by omega
  unfold processPacketOrCancel
  simp only [hold, if_false, hnew', if_true]

theorem Represents.processPacketOrCancel_seen (isCancel : Bool) (hwin : r.windowSize ≤ 64)
    (hold : ¬ wrappingOffset sn r.highestSeen ≤ -(r.windowSize : Int))
    (hbelow : ∀ k ≤ H + wrappingOffset sn r.highestSeen - r.windowSize, seen k)
    (hseen : seen (H + wrappingOffset sn r.highestSeen)) :
    ∃ d, r.processPacketOrCancel sn isCancel = some (d, r.countStat .duplicate) ∧
      (refused (H + wrappingOffset sn r.highestSeen) → d = .ackCancelDoNotProcess) ∧
      (¬ refused (H + wrappingOffset sn r.highestSeen) → d = .ackDoNotProcess) := by
  have hnew := h.not_tooNew hbelow
  have hpos : ¬ wrappingOffset sn r.highestSeen > 0 :=
    fun hgt => h.not_seen_new _ (by omega) hseen
  have hlim : ¬ -wrappingOffset sn r.highestSeen ≥ 64 := by omega
  unfold processPacketOrCancel
  simp only [hold, hnew, hpos, hlim, if_false]
  generalize wrappingOffset sn r.highestSeen = offset at *
  have hidx : H - ((-offset).toNat : Int) = H + offset := by omega
  have hset : bitClear r.recvd (-offset).toNat = false := by
    rw [Bool.eq_false_iff, ne_eq, bitClear_iff, Bool.not_eq_false,
      h.recvd _ (by omega), hidx]
    exact hseen
  simp only [hset, Bool.false_eq_true, if_false]
  have hcan : bitClear r.canceled (-offset).toNat = true ↔ ¬ refused (H + offset) := by
    rw [bitClear_iff, ← Bool.not_eq_true, h.canceled _ (by omega), hidx]
  by_cases href : refused (H + offset)
  · have hclear : ¬ bitClear r.canceled (-offset).toNat = true := by simpa [hcan] using href
    refine ⟨.ackCancelDoNotProcess, ?_, fun _ => rfl, fun hn => absurd href hn⟩
    simp [hclear]
  · refine ⟨.ackDoNotProcess, ?_, fun hr => absurd hr href, fun _ => rfl⟩
    simp [hcan.mpr href]

/-- Shifting the bitsets moves the window up to `H + offset`; the new bit 0 is the number
    just received. -/
theorem Represents.shift (isCancel : Bool) (hpos : offset > 0)
    (hbelow : ∀ k ≤ H + offset - 64, seen k) :
    Represents
      { r with
        highestSeen := r.highestSeen + BitVec.ofInt 64 offset
        recvd := r.recvd <<< offset.toNat ||| 1#64
        canceled := r.canceled <<< offset.toNat ||| (if isCancel then 1#64 else 0#64) }
      (H + offset) (fun k => seen k ∨ k = H + offset)
      (fun k => refused k ∨ isCancel = true ∧ k = H + offset) := by
  -- bit `i` of a shifted word is bit `i - offset` of the old one, or clear
  have hshift : ∀ (bits : WindowBitset) (P : Int → Prop),
      (∀ i : Nat, i < 64 → (bits.getLsbD i = true ↔ P (H - i))) → (∀ k > H, ¬ P k) →
      ∀ i : Nat, i < 64 → ((bits <<< offset.toNat).getLsbD i = true ↔ P (H + offset - i)) := by
    intro bits P hbits hnew i hi
    by_cases hlt : i < offset.toNat
    · simp only [BitVec.getLsbD_shiftLeft, hlt, decide_true, Bool.not_true, Bool.and_false,
        Bool.false_and, Bool.false_eq_true, false_iff]
      exact hnew _ (by omega)
    · have hidx : H + offset - (i : Int) = H - ((i - offset.toNat : Nat) : Int) := by omega
      simp only [BitVec.getLsbD_shiftLeft, hi, decide_true, Bool.true_and, hlt, decide_false,
        Bool.not_false]
      rw [hbits _ (by omega), hidx]
  have hone : ∀ i : Nat, (1#64).getLsbD i = true ↔ H + offset - (i : Int) = H + offset := by
    simp only [BitVec.getLsbD_one, Bool.and_eq_true, decide_eq_true_eq]
    omega
  exact
    { highest := by simp only [h.highest, BitVec.ofInt_add]
      recvd := by
        intro i hi
        rw [BitVec.getLsbD_or, Bool.or_eq_true, hshift _ _ h.recvd h.not_seen_new i hi, hone]
      canceled := by
        intro i hi
        have hnew : ∀ k > H, ¬ refused k := fun k hk hr =>
          h.not_seen_new k hk (h.seen_of_refused k hr)
        rw [BitVec.getLsbD_or, Bool.or_eq_true, hshift _ _ h.canceled hnew i hi]
        cases isCancel
        · simp
        · simp only [if_true, hone, true_and]
      seen_old := fun k hk => Or.inl (hbelow k hk)
      not_seen_new := by
        rintro k hk (hs | rfl)
        · exact h.not_seen_new k (by omega) hs
        · omega
      seen_of_refused := by
        rintro k (hr | ⟨_, rfl⟩)
        · exact Or.inl (h.seen_of_refused k hr)
        · exact Or.inr rfl }

theorem Represents.mark (isCancel : Bool) (hpos : ¬ offset > 0) (hlim : ¬ -offset ≥ 64) :
    Represents
      { r with
        recvd := r.recvd ||| 1#64 <<< (-offset).toNat
        canceled := r.canceled ||| (if isCancel then 1#64 <<< (-offset).toNat else 0#64) }
      H (fun k => seen k ∨ k = H + offset)
      (fun k => refused k ∨ isCancel = true ∧ k = H + offset) := by
  have hone : ∀ i : Nat, i < 64 →
      ((1#64 <<< (-offset).toNat).getLsbD i = true ↔ H - (i : Int) = H + offset) := by
    intro i hi
    simp only [BitVec.getLsbD_shiftLeft, BitVec.getLsbD_one, hi, decide_true, Bool.true_and,
      Bool.and_eq_true, Bool.not_eq_true', decide_eq_false_iff_not, decide_eq_true_eq]
    omega
  exact
    { highest := h.highest
      recvd := by
        intro i hi
        rw [BitVec.getLsbD_or, Bool.or_eq_true, h.recvd i hi, hone i hi]
      canceled := by
        intro i hi
        rw [BitVec.getLsbD_or, Bool.or_eq_true, h.canceled i hi]
        cases isCancel
        · simp
        · simp only [if_true, hone i hi, true_and]
      seen_old := fun k hk => Or.inl (h.seen_old k hk)
      not_seen_new := by
        rintro k hk (hs | rfl)
        · exact h.not_seen_new k hk hs
        · omega
      seen_of_refused := by
        rintro k (hr | ⟨_, rfl⟩)
        · exact Or.inl (h.seen_of_refused k hr)
        · exact Or.inr rfl }

theorem Represents.offset_le_window (hbelow : ∀ k ≤ H + offset - r.windowSize, seen k) :
    offset ≤ r.windowSize := by
  by_contra hgt
  exact h.not_seen_new (H + 1) (by omega) (hbelow _ (by omega))

/-- A number received for the first time, with everything a window below it received, is
    accepted and recorded, unless the bitsets would have to be shifted out as a whole. -/
theorem Represents.processPacketOrCancel_fresh (isCancel : Bool) (hwin : r.windowSize ≤ 64)
    (hlim : wrappingOffset sn r.highestSeen < 64)
    (hold : ¬ wrappingOffset sn r.highestSeen ≤ -(r.windowSize : Int))
    (hbelow : ∀ k ≤ H + wrappingOffset sn r.highestSeen - r.windowSize, seen k)
    (hnot : ¬ seen (H + wrappingOffset sn r.highestSeen)) :
    ∃ r', r.processPacketOrCancel sn isCancel = some (freshDisposition isCancel, r') ∧
      r'.windowSize = r.windowSize ∧
      Represents r' (max H (H + wrappingOffset sn r.highestSeen))
        (fun k => seen k ∨ k = H + wrappingOffset sn r.highestSeen)
        (fun k => refused k ∨ isCancel = true ∧ k = H + wrappingOffset sn r.highestSeen) := by
  have hnew := h.not_tooNew hbelow
  unfold processPacketOrCancel
  simp only [hold, hnew, if_false]
  generalize wrappingOffset sn r.highestSeen = offset at *
  by_cases hpos : offset > 0
  · have hlim : ¬ offset ≥ 64 := by omega
    have hmax : max H (H + offset) = H + offset := by omega
    have hrep := h.shift isCancel hpos fun k hk => hbelow k (by omega)
    simp only [hpos, hlim, if_true, if_false, hmax]
    cases isCancel
    all_goals exact ⟨_, rfl, rfl, by simpa using hrep⟩
  · have hlim : ¬ -offset ≥ 64 := by omega
    have hmax : max H (H + offset) = H := by omega
    have hclear : bitClear r.recvd (-offset).toNat = true := by
      have hidx : H - ((-offset).toNat : Int) = H + offset := by omega
      rw [bitClear_iff, ← Bool.not_eq_true, h.recvd _ (by omega), hidx]
      exact hnot
    have hrep := (h.countStat .outOfOrder).mark isCancel hpos hlim
    simp only [hpos, hlim, if_false, hclear, if_true, hmax]
    cases isCancel
    all_goals exact ⟨_, rfl, rfl, by simpa using hrep⟩

end

end Receiver

end ZprCore.Zdpr
