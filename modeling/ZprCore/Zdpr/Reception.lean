-- SUMMARY: The receiver's bitsets implement the exact record of accepted numbers.
import ZprCore.Lib.Acceptance
import ZprCore.Lib.Run
import ZprCore.Zdpr.Receiver

/-!
# What the receiver is for

The abstract receiver remembers every number it ever accepted, as an `Acceptance` record over
`Int`. A 64-bit number stands for the integer nearest to the highest one accepted, by signed
wrapping difference. `Receiver` keeps a word of received bits and a word of canceled bits
instead. `Implements` relates the two, and `Implements.receive` is the simulation step.

The step fails for one call only: with a window of 64 and nothing missing, the number 64 above
`highest_seen` is in the window and its bitset shift is a shift by the whole word.
-/

namespace ZprCore.Zdpr

/-- What is decided about a number when it is accepted. -/
inductive Decision where
  | processed
  | canceled
deriving DecidableEq

/-- The decision about a number whose first message is a packet, or a cancellation request. -/
def Decision.first (isCancel : Bool) : Decision := if isCancel then .canceled else .processed

abbrev AcceptedNumbers := Acceptance Decision

namespace AcceptedNumbers

/-- At the start everything below 0 has been accepted as canceled. -/
def start : AcceptedNumbers := .initial .canceled

noncomputable def number (A : AcceptedNumbers) (sn : SeqNum) : Int :=
  A.highest + wrappingOffset sn (BitVec.ofInt 64 A.highest)

/-- The disposition of a number inside the window. -/
def answer (A : AcceptedNumbers) (a : Int) (isCancel : Bool) : Disposition :=
  match A.decision a with
  | none => if isCancel then .ackCancelDoNotProcess else .ackAndProcess
  | some .processed => .ackDoNotProcess
  | some .canceled => .ackCancelDoNotProcess

/-- The abstract receiver with window `W`. -/
noncomputable def receive (W : Nat) (A : AcceptedNumbers) (sn : SeqNum) (isCancel : Bool) :
    Disposition × AcceptedNumbers :=
  if A.number sn ≤ A.highest - W ∨ A.lowestUnaccepted + W ≤ A.number sn then (.ignore, A)
  else (A.answer (A.number sn) isCancel, A.accept (A.number sn) (.first isCancel))

end AcceptedNumbers

/-- A call of `process_packet` or `process_cancel`. -/
inductive Arrival where
  | packet (sn : SeqNum)
  | cancel (sn : SeqNum)
deriving DecidableEq

namespace Arrival

def sn : Arrival → SeqNum
  | .packet sn | .cancel sn => sn

def isCancel : Arrival → Bool
  | .packet _ => false
  | .cancel _ => true

end Arrival

/-- The answers of the abstract receiver to a sequence of calls. -/
noncomputable def AcceptedNumbers.dispositions (W : Nat) (A : AcceptedNumbers) :
    List Arrival → List Disposition
  | [] => []
  | a :: rest =>
    let (d, A) := A.receive W a.sn a.isCancel
    d :: dispositions W A rest

variable {r : Receiver} {isCancel : Bool}

namespace Receiver

def process (r : Receiver) : Arrival → Option (Disposition × Receiver)
  | .packet sn => r.processPacket sn
  | .cancel sn => r.processCancel sn

/-- The answers of the receiver to a sequence of calls. -/
def dispositions (r : Receiver) : List Arrival → Option (List Disposition)
  | [] => some []
  | a :: rest => do
    let (d, r) ← r.process a
    let ds ← r.dispositions rest
    return d :: ds

/-- The call for this number would shift the bitsets by 64. -/
def ShiftsOut (r : Receiver) (sn : SeqNum) : Prop :=
  r.windowSize = 64 ∧ r.recvd = BitVec.allOnes 64 ∧ sn = r.highestSeen + 64#64

instance (r : Receiver) (sn : SeqNum) : Decidable (r.ShiftsOut sn) :=
  inferInstanceAs (Decidable (_ ∧ _ ∧ _))

theorem process_eq {a : Arrival} : r.process a = r.processPacketOrCancel a.sn a.isCancel := by
  cases a <;> rfl

/-! ## The call that shifts by a whole word -/

section

variable {H : Int} {seen refused : Int → Prop} {sn : SeqNum}

theorem ShiftsOut.wrappingOffset (h : r.ShiftsOut sn) :
    Zdpr.wrappingOffset sn r.highestSeen = 64 := by
  obtain ⟨-, -, rfl⟩ := h
  have hsub : r.highestSeen + 64#64 - r.highestSeen = 64#64 := by
    rw [BitVec.add_comm, BitVec.add_sub_cancel]
  unfold Zdpr.wrappingOffset
  rw [hsub]
  decide

theorem ShiftsOut.process_eq_none (h : r.ShiftsOut sn) (isCancel : Bool) :
    r.processPacketOrCancel sn isCancel = none := by
  have hoff := h.wrappingOffset
  obtain ⟨hw, hr, -⟩ := h
  have hones : leadingOnes (BitVec.allOnes 64) = 64 := by decide
  unfold processPacketOrCancel oldestUnrecvdOffset
  simp only [hoff, hw, hr, hones]
  rfl

theorem Represents.shiftsOut (h : Represents r H seen refused) (hwin : r.windowSize ≤ 64)
    (hbelow : ∀ k ≤ H + Zdpr.wrappingOffset sn r.highestSeen - r.windowSize, seen k)
    (hlim : ¬ Zdpr.wrappingOffset sn r.highestSeen < 64) : r.ShiftsOut sn := by
  have hle := h.offset_le_window hbelow
  have hoff : Zdpr.wrappingOffset sn r.highestSeen = 64 := by omega
  refine ⟨by omega, ?_, ?_⟩
  · ext i hi
    have hseen : seen (H - i) := hbelow _ (by omega)
    have hbit := (h.recvd i hi).mpr hseen
    rw [BitVec.getLsbD_eq_getElem hi] at hbit
    rw [hbit, BitVec.getElem_allOnes]
  · have hsub : sn - r.highestSeen = 64#64 := by
      apply BitVec.eq_of_toInt_eq
      exact hoff
    rw [← hsub, BitVec.add_comm, BitVec.sub_add_cancel]

end

/-! ## Simulation -/

/-- The receiver stands for the record `A`. -/
structure Implements (W : Nat) (r : Receiver) (A : AcceptedNumbers) : Prop where
  windowSize : r.windowSize = W
  represents : r.Represents A.highest A.Accepted fun k => A.decision k = some .canceled

section

variable {W : Nat} {A : AcceptedNumbers} {sn : SeqNum}

theorem Represents.of_iff {H : Int} {seen refused seen' refused' : Int → Prop}
    (h : Represents r H seen refused)
    (hseen : ∀ k, seen' k ↔ seen k) (hrefused : ∀ k, refused' k ↔ refused k) :
    Represents r H seen' refused' := by
  obtain rfl : seen' = seen := funext fun k => propext (hseen k)
  obtain rfl : refused' = refused := funext fun k => propext (hrefused k)
  exact h

theorem new_implements (h : new W = some r) : Implements W r AcceptedNumbers.start := by
  have hrep := new_represents h
  refine ⟨?_, ?_⟩
  · unfold new at h
    split at h
    · cases h
      rfl
    · cases h
  · have hcanceled : ∀ k, AcceptedNumbers.start.decision k = some .canceled ↔ k < 0 := by
      simp [AcceptedNumbers.start, Acceptance.initial]
    have hhigh : AcceptedNumbers.start.highest = -1 := Acceptance.initial_highest
    rw [hhigh]
    exact hrep.of_iff (fun _ => Acceptance.initial_accepted) hcanceled

theorem Implements.number (h : Implements W r A) :
    A.number sn = A.highest + Zdpr.wrappingOffset sn r.highestSeen := by
  rw [AcceptedNumbers.number, h.represents.highest]

theorem Implements.accept {r' : Receiver} {a : Int} (hw : r'.windowSize = W) (hnot : ¬ A.Accepted a)
    (hrep : r'.Represents (max A.highest a) (fun k => A.Accepted k ∨ k = a)
      (fun k => A.decision k = some .canceled ∨ isCancel = true ∧ k = a)) :
    Implements W r' (A.accept a (.first isCancel)) := by
  have hcanceled : ∀ k, (A.accept a (.first isCancel)).decision k = some .canceled ↔
      A.decision k = some .canceled ∨ isCancel = true ∧ k = a := by
    intro k
    have hnone := Acceptance.not_accepted_iff.mp hnot
    by_cases hk : k = a
    · subst hk
      rw [Acceptance.accept_decision_self hnone, hnone]
      cases isCancel <;> simp [Decision.first]
    · rw [Acceptance.accept_decision_of_ne hk]
      simp [hk]
  refine ⟨hw, ?_⟩
  rw [Acceptance.accept_highest]
  exact hrep.of_iff (fun _ => Acceptance.accept_accepted) hcanceled

/-- One call answers as the abstract receiver does and stands for its next record, unless it
    shifts by a whole word. -/
theorem Implements.receive (h : Implements W r A) (hW : W ≤ 64) (hshift : ¬ r.ShiftsOut sn)
    (isCancel : Bool) :
    ∃ r', r.processPacketOrCancel sn isCancel = some ((A.receive W sn isCancel).1, r') ∧
      Implements W r' (A.receive W sn isCancel).2 := by
  obtain ⟨hw, hrep⟩ := h
  have hnum : A.number sn = A.highest + Zdpr.wrappingOffset sn r.highestSeen :=
    Implements.number ⟨hw, hrep⟩
  by_cases hold : Zdpr.wrappingOffset sn r.highestSeen ≤ -(r.windowSize : Int)
  · have hign : A.receive W sn isCancel = (.ignore, A) := if_pos (.inl (by omega))
    rw [hign]
    exact ⟨_, processPacketOrCancel_old hold, hw, hrep.countStat _⟩
  by_cases hlow : A.lowestUnaccepted + W ≤ A.number sn
  · have hign : A.receive W sn isCancel = (.ignore, A) := if_pos (.inr hlow)
    rw [hign]
    exact ⟨_, hrep.processPacketOrCancel_new hold (by omega) A.isLeast_lowestUnaccepted.1, hw,
      hrep.countStat _⟩
  have hin : A.receive W sn isCancel =
      (A.answer (A.number sn) isCancel, A.accept (A.number sn) (.first isCancel)) :=
    if_neg (by omega)
  -- numbers that leave the window have been accepted
  have hbelow : ∀ k ≤ A.highest + Zdpr.wrappingOffset sn r.highestSeen - r.windowSize,
      A.Accepted k := by
    intro k hk
    by_contra hnot
    have hle := Acceptance.lowestUnaccepted_le hnot
    omega
  rw [hin, hnum]
  by_cases hseen : A.Accepted (A.highest + Zdpr.wrappingOffset sn r.highestSeen)
  · obtain ⟨d, heq, hyes, hno⟩ :=
      hrep.processPacketOrCancel_seen isCancel (by omega) hold hbelow hseen
    have hd : A.answer (A.highest + Zdpr.wrappingOffset sn r.highestSeen) isCancel = d := by
      obtain ⟨e, he⟩ := Option.isSome_iff_exists.mp hseen
      cases e with
      | processed => simp [AcceptedNumbers.answer, he, hno]
      | canceled => simp [AcceptedNumbers.answer, he, hyes]
    rw [Acceptance.accept_of_accepted hseen, hd]
    exact ⟨_, heq, hw, hrep.countStat _⟩
  · have hlim : Zdpr.wrappingOffset sn r.highestSeen < 64 := by
      by_contra hge
      exact hshift (hrep.shiftsOut (by omega) hbelow hge)
    obtain ⟨r', heq, hw', hrep'⟩ :=
      hrep.processPacketOrCancel_fresh isCancel (by omega) hlim hold hbelow hseen
    have hd : A.answer (A.highest + Zdpr.wrappingOffset sn r.highestSeen) isCancel =
        freshDisposition isCancel := by
      simp [AcceptedNumbers.answer, Acceptance.not_accepted_iff.mp hseen, freshDisposition]
    rw [hd]
    exact ⟨r', heq, .accept (hw'.trans hw) hseen hrep'⟩

theorem Implements.not_shiftsOut (h : Implements W r A) (hW : W ≤ 63) : ¬ r.ShiftsOut sn := by
  rintro ⟨hw, -, -⟩
  have hwin := h.windowSize
  omega

theorem Implements.dispositions (h : Implements W r A) (hW : W ≤ 63) (arrivals : List Arrival) :
    r.dispositions arrivals = some (A.dispositions W arrivals) := by
  induction arrivals generalizing r A with
  | nil => rfl
  | cons a rest ih =>
    have hshift : ¬ r.ShiftsOut a.sn := h.not_shiftsOut hW
    obtain ⟨r', heq, hnext⟩ := h.receive (by omega) hshift a.isCancel
    simp [Receiver.dispositions, process_eq, heq, ih hnext, AcceptedNumbers.dispositions]

end

/-- Every window from 1 to 63: whatever numbers arrive, the dispositions are those of the
    receiver that remembers every accepted number. -/
theorem receiver_implements_acceptance {W : Nat} (hlo : 1 ≤ W) (hhi : W ≤ 63)
    (arrivals : List Arrival) :
    (new W).bind (·.dispositions arrivals) = some (AcceptedNumbers.start.dispositions W arrivals) := by
  have hnew : ∃ r, new W = some r := by
    refine ⟨_, if_pos ⟨hlo, ?_⟩⟩
    unfold maxWindowSize
    omega
  obtain ⟨r, hr⟩ := hnew
  rw [hr]
  exact (new_implements hr).dispositions hhi arrivals

/-- A window of 32, with packets out of order, a repeated cancellation and numbers on the far side of
    the sequence space. -/
theorem receiver_implements_acceptance_wrapped :
    AcceptedNumbers.start.dispositions 32
        [.packet 3, .cancel 1, .packet 1, .packet 3, .packet 40, .packet (-1),
          .cancel (BitVec.ofInt 64 (-2 ^ 63))] =
      [.ackAndProcess, .ackCancelDoNotProcess, .ackCancelDoNotProcess, .ackDoNotProcess, .ignore,
        .ackCancelDoNotProcess, .ignore] := by
  refine Option.some.inj
    ((receiver_implements_acceptance (W := 32) (by decide) (by decide) _).symm.trans ?_)
  decide +kernel

theorem processPacketOrCancel_stats {r' : Receiver} {sn : SeqNum} {d : Disposition}
    (h : r.processPacketOrCancel sn isCancel = some (d, r')) (stat : ReceiverStat) :
    r'.stats stat ≤ r.stats stat + 1 := by
  have hcount : ∀ t, (r.countStat t).stats stat ≤ r.stats stat + 1 := by
    intro t
    simp only [countStat]
    split <;> omega
  unfold processPacketOrCancel at h
  dsimp only at h
  repeat' split at h
  all_goals cases h
  all_goals first
    | exact hcount _
    | exact Nat.le_succ _

theorem shouldProcessPacket_isSome (hw : r.windowSize ≤ 64) (sn : SeqNum) :
    (r.shouldProcessPacket sn).isSome := by
  unfold shouldProcessPacket
  dsimp only
  repeat' split
  all_goals first
    | rfl
    | omega

end Receiver

/-! ## Every permitted window -/

/-- A call of the receiver's interface. -/
inductive ReceiverCall where
  | process (a : Arrival)
  | shouldProcessPacket (sn : SeqNum)
deriving DecidableEq

/-- The call would shift the bitsets by 64; `should_process_packet` shifts right only. -/
def ReceiverCall.ShiftsOut (r : Receiver) : ReceiverCall → Prop
  | .process a => r.ShiftsOut a.sn
  | .shouldProcessPacket _ => False

instance (r : Receiver) : (call : ReceiverCall) → Decidable (call.ShiftsOut r)
  | .process a => inferInstanceAs (Decidable (r.ShiftsOut a.sn))
  | .shouldProcessPacket _ => inferInstanceAs (Decidable False)

/-- A receiver with the numbers it acknowledged so far and the number of calls made. -/
structure TrackedReceiver where
  receiver : Receiver
  accepted : AcceptedNumbers
  calls : Nat

namespace TrackedReceiver

def start (r : Receiver) : TrackedReceiver := ⟨r, .start, 0⟩

/-- A call, with no successor when it overflows. What is recorded as accepted is read off the
    answer. -/
noncomputable def step (t : TrackedReceiver) : ReceiverCall → Option TrackedReceiver
  | .process a =>
    (t.receiver.process a).map fun (d, r) =>
      { receiver := r
        accepted :=
          if d.shouldAck then t.accepted.accept (t.accepted.number a.sn) (.first a.isCancel)
          else t.accepted
        calls := t.calls + 1 }
  | .shouldProcessPacket sn =>
    (t.receiver.shouldProcessPacket sn).map fun _ => { t with calls := t.calls + 1 }

def Reachable (W : Nat) : TrackedReceiver → Prop :=
  Run step (fun t => ∃ r, Receiver.new W = some r ∧ t = start r) fun _ _ => True

/-- The receiver stands for the acknowledged numbers, and no counter exceeds the calls. -/
structure Sound (W : Nat) (t : TrackedReceiver) : Prop where
  implements : t.receiver.Implements W t.accepted
  stats : ∀ stat, t.receiver.stats stat ≤ t.calls

variable {W : Nat} {t t' : TrackedReceiver} {call : ReceiverCall}

theorem start_sound (h : Receiver.new W = some r) : Sound W (start r) := by
  refine ⟨Receiver.new_implements h, fun stat => ?_⟩
  unfold Receiver.new at h
  split at h
  · cases h
    exact Nat.le_refl _
  · cases h

theorem receive_eq_of_answer {A : AcceptedNumbers} {sn : SeqNum} :
    (A.receive W sn isCancel).2 =
      if (A.receive W sn isCancel).1.shouldAck then A.accept (A.number sn) (.first isCancel)
      else A := by
  have hack : ∀ a, (A.answer a isCancel).shouldAck = true := by
    intro a
    unfold AcceptedNumbers.answer
    repeat' split
    all_goals rfl
  unfold AcceptedNumbers.receive
  split
  · rfl
  · simp [hack]

theorem step_shiftsOut (h : call.ShiftsOut t.receiver) : t.step call = none := by
  cases call with
  | process a =>
    have hnone := Receiver.ShiftsOut.process_eq_none h a.isCancel
    simp [step, Receiver.process_eq, hnone]
  | shouldProcessPacket sn => cases h

theorem Sound.step (h : Sound W t) (hW : W ≤ 64) (hshift : ¬ call.ShiftsOut t.receiver) :
    ∃ t', t.step call = some t' ∧ Sound W t' := by
  obtain ⟨himp, hstats⟩ := h
  cases call with
  | process a =>
    obtain ⟨r, heq, hnext⟩ := himp.receive hW hshift a.isCancel
    simp only [TrackedReceiver.step, Receiver.process_eq, heq]
    refine ⟨_, rfl, ?_, fun stat => ?_⟩
    · rw [receive_eq_of_answer] at hnext
      exact hnext
    · exact (Receiver.processPacketOrCancel_stats heq stat).trans
        (Nat.add_le_add_right (hstats stat) 1)
  | shouldProcessPacket sn =>
    have hw := himp.windowSize
    obtain ⟨b, hb⟩ := Option.isSome_iff_exists.mp
      (Receiver.shouldProcessPacket_isSome (r := t.receiver) (by omega) sn)
    simp only [TrackedReceiver.step, hb]
    exact ⟨_, rfl, himp, fun stat => (hstats stat).trans (Nat.le_succ _)⟩

theorem Reachable.sound (h : Reachable W t) : Sound W t ∧ W ≤ 64 := by
  refine Run.invariant (P := fun t => Sound W t ∧ W ≤ 64) ?_ ?_ h
  · rintro t ⟨r, hnew, rfl⟩
    refine ⟨start_sound hnew, ?_⟩
    unfold Receiver.new at hnew
    split at hnew
    · next hW => exact hW.2
    · cases hnew
  · rintro t call t' ⟨hsound, hW⟩ - hstep
    have hshift : ¬ call.ShiftsOut t.receiver := by
      intro hshift
      cases (step_shiftsOut hshift).symm.trans hstep
    obtain ⟨t'', heq, hsound'⟩ := hsound.step hW hshift
    cases heq.symm.trans hstep
    exact ⟨hsound', hW⟩

/-- For every window that `Receiver::new` accepts and after every sequence of calls, the highest
    acknowledged number is `highest_seen`, its bit is set, the bits of the missing numbers in the
    window are clear and no counter exceeds the number of calls; and the next call overflows
    exactly when it is for the number 64 above `highest_seen`, with a window of 64 and nothing
    missing. -/
theorem permitted_window_iff (h : Reachable W t) :
    IsGreatest {k | t.accepted.Accepted k} t.accepted.highest ∧
    t.receiver.highestSeen = BitVec.ofInt 64 t.accepted.highest ∧
    t.receiver.recvd.getLsbD 0 = true ∧
    (∀ i < W, ¬ t.accepted.Accepted (t.accepted.highest - i) →
      t.receiver.recvd.getLsbD i = false) ∧
    (∀ stat, t.receiver.stats stat ≤ t.calls) ∧
    ∀ call, (t.step call).isSome ↔ ¬ call.ShiftsOut t.receiver := by
  obtain ⟨⟨himp, hstats⟩, hW⟩ := h.sound
  have hrep := himp.represents
  refine ⟨t.accepted.isGreatest_highest, hrep.highest, ?_, fun i hi hnot => ?_, hstats,
    fun call => ?_⟩
  · rw [hrep.recvd 0 (by omega)]
    simpa using t.accepted.isGreatest_highest.1
  · rw [← Bool.not_eq_true, hrep.recvd i (by omega)]
    exact hnot
  constructor
  · intro hsome hshift
    rw [step_shiftsOut hshift] at hsome
    cases hsome
  · intro hshift
    obtain ⟨t', heq, -⟩ := Sound.step ⟨himp, hstats⟩ hW hshift
    exact Option.isSome_of_eq_some heq

/-- A window of 64 whose first packet is number 62: the shift is by 63. -/
theorem permitted_window_sixty_four :
    ∃ r t, Receiver.new 64 = some r ∧ (start r).step (.process (.packet 62)) = some t ∧
      t.receiver.recvd.getLsbD 0 = true ∧ (t.step (.shouldProcessPacket 0)).isSome := by
  obtain ⟨r, hr⟩ : ∃ r, Receiver.new 64 = some r := ⟨_, rfl⟩
  have hstart : Reachable 64 (start r) := .start ⟨r, hr, rfl⟩
  have hfirst : ¬ ReceiverCall.ShiftsOut (start r).receiver (.process (.packet 62)) := by
    cases hr
    decide +kernel
  obtain ⟨t, ht⟩ := Option.isSome_iff_exists.mp
    (((permitted_window_iff hstart).2.2.2.2.2 _).mpr hfirst)
  have hreach : Reachable 64 t := .next hstart trivial ht
  obtain ⟨-, -, hbit, -, -, hcalls⟩ := permitted_window_iff hreach
  exact ⟨r, t, hr, ht, hbit, (hcalls _).mpr fun hshift => hshift⟩

/-- A window of 64 whose first packet is number 63: the shift is by 64. -/
theorem window_sixty_four_overflows :
    ∃ r, Receiver.new 64 = some r ∧ r.processPacket 63 = none :=
  ⟨_, rfl, by decide +kernel⟩

end TrackedReceiver

end ZprCore.Zdpr
