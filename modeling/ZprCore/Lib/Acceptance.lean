-- SUMMARY: An exact record of which integers were accepted.
import Mathlib.Data.Int.ConditionallyCompleteOrder
import Mathlib.Order.ConditionallyCompleteLattice.Basic

/-!
# Acceptance records

The abstract state of a receiver of numbered items: for each integer, whether it was accepted
and what was decided about it when it was accepted first. Everything below 0 counts as accepted
from the start, and only finitely many numbers above have been, so the record has a highest
accepted number and a lowest one that is still missing.
-/

namespace ZprCore

/-- Numbers accepted so far, each with the decision first made about it. -/
structure Acceptance (δ : Type*) where
  decision : Int → Option δ
  below : ∀ k < 0, (decision k).isSome
  bounded : ∃ n, ∀ k > n, decision k = none

namespace Acceptance

variable {δ : Type*} {A : Acceptance δ} {a k : Int} {d : δ}

/-- Nothing accepted but the numbers below 0, all with the decision `d`. -/
def initial (d : δ) : Acceptance δ where
  decision k := if k < 0 then some d else none
  below := fun k hk => by simp [hk]
  bounded := ⟨-1, fun k hk => if_neg (by omega)⟩

/-- Accept `a`; a decision that was made before stays. -/
def accept (A : Acceptance δ) (a : Int) (d : δ) : Acceptance δ where
  decision k := (A.decision k).or (if k = a then some d else none)
  below := fun k hk => by simp [A.below k hk]
  bounded := by
    obtain ⟨n, hn⟩ := A.bounded
    refine ⟨max n a, fun k hk => ?_⟩
    have hka : k ≠ a := by omega
    simp [hn k (by omega), hka]

def Accepted (A : Acceptance δ) (k : Int) : Prop := (A.decision k).isSome

noncomputable def highest (A : Acceptance δ) : Int := sSup {k | A.Accepted k}

noncomputable def lowestUnaccepted (A : Acceptance δ) : Int := sInf {k | ¬ A.Accepted k}

theorem not_accepted_iff : ¬ A.Accepted k ↔ A.decision k = none := by
  simp [Accepted]

theorem initial_accepted : (initial d).Accepted k ↔ k < 0 := by
  simp only [Accepted, initial]
  split <;> simp_all

theorem accept_accepted : (A.accept a d).Accepted k ↔ A.Accepted k ∨ k = a := by
  simp only [Accepted, accept, Option.isSome_or, Bool.or_eq_true]
  split <;> simp_all

theorem accept_decision_of_accepted (h : A.Accepted k) :
    (A.accept a d).decision k = A.decision k := by
  obtain ⟨e, he⟩ := Option.isSome_iff_exists.mp h
  simp [accept, he]

theorem accept_decision_self (h : A.decision a = none) : (A.accept a d).decision a = some d := by
  simp [accept, h]

theorem accept_decision_of_ne (h : k ≠ a) : (A.accept a d).decision k = A.decision k := by
  simp [accept, h]

theorem accept_of_accepted (h : A.Accepted a) : A.accept a d = A := by
  have hdecision : (A.accept a d).decision = A.decision := by
    funext k
    by_cases hk : k = a
    · exact accept_decision_of_accepted (hk ▸ h)
    · exact accept_decision_of_ne hk
  cases A
  simp_all [accept]

theorem isGreatest_highest (A : Acceptance δ) : IsGreatest {k | A.Accepted k} A.highest := by
  obtain ⟨n, hn⟩ := A.bounded
  have hbdd : BddAbove {k | A.Accepted k} := by
    refine ⟨n, fun k hk => ?_⟩
    by_contra hgt
    exact not_accepted_iff.mpr (hn k (by omega)) hk
  have hne : {k | A.Accepted k}.Nonempty := ⟨-1, A.below (-1) (by omega)⟩
  exact ⟨Int.csSup_mem hne hbdd, fun k hk => le_csSup hbdd hk⟩

theorem isLeast_lowestUnaccepted (A : Acceptance δ) :
    IsLeast {k | ¬ A.Accepted k} A.lowestUnaccepted := by
  obtain ⟨n, hn⟩ := A.bounded
  have hbdd : BddBelow {k | ¬ A.Accepted k} := by
    refine ⟨0, fun k hk => ?_⟩
    by_contra hlt
    exact hk (A.below k (by omega))
  have hne : {k | ¬ A.Accepted k}.Nonempty := ⟨n + 1, not_accepted_iff.mpr (hn _ (by omega))⟩
  exact ⟨Int.csInf_mem hne hbdd, fun k hk => csInf_le hbdd hk⟩

theorem initial_highest : (initial d).highest = -1 := by
  refine (isGreatest_highest _).unique ⟨initial_accepted.mpr (by omega), fun k hk => ?_⟩
  have hneg := initial_accepted.mp hk
  omega

theorem accept_highest : (A.accept a d).highest = max A.highest a := by
  refine (isGreatest_highest _).unique ⟨accept_accepted.mpr ?_, fun k hk => ?_⟩
  · rcases max_choice A.highest a with h | h
    · rw [h]
      exact .inl A.isGreatest_highest.1
    · exact .inr h
  · rcases accept_accepted.mp hk with h | rfl
    · exact le_max_of_le_left (A.isGreatest_highest.2 h)
    · exact le_max_right _ _

theorem lowestUnaccepted_le (h : ¬ A.Accepted k) : A.lowestUnaccepted ≤ k :=
  A.isLeast_lowestUnaccepted.2 h

end Acceptance

end ZprCore
