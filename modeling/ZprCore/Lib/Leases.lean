-- SUMMARY: Values on lease from a pool, and the search for one that is not in use.
import Mathlib.Data.Finset.Card
import Mathlib.Data.Set.Insert
import Mathlib.Logic.Function.Iterate

/-!
# Leases

Holders have values on lease. A value that is on lease is in use, and no two holders have the same
one. A value may be in use without a holder: it was lost, and is not handed out again.

`probe` looks for a value that is not in use, from a given one on.
-/

namespace ZprCore

universe u v

variable {κ : Type u} {ι : Type v}

structure Leases (held : κ → Option ι) (used : Set ι) : Prop where
  mem : ∀ {k i}, held k = some i → i ∈ used
  unique : ∀ {k k' i}, held k = some i → held k' = some i → k = k'

namespace Leases

variable [DecidableEq κ] {held : κ → Option ι} {used : Set ι} {k : κ} {i : ι}

omit [DecidableEq κ] in
theorem of_none (h : ∀ k, held k = none) : Leases held used where
  mem hk := nomatch (h _).symm.trans hk
  unique hk := nomatch (h _).symm.trans hk

theorem drop (l : Leases held used) (k : κ) : Leases (Function.update held k none) used where
  mem {k' _} h := by
    rw [Function.update_apply] at h
    split at h
    · cases h
    · exact l.mem h
  unique {k₁ k₂ _} h₁ h₂ := by
    rw [Function.update_apply] at h₁ h₂
    split at h₁
    · cases h₁
    split at h₂
    · cases h₂
    · exact l.unique h₁ h₂

/-- What is handed out must not be in use; what the holder had before is lost. -/
theorem acquire (l : Leases held used) (k : κ) (hi : i ∉ used) :
    Leases (Function.update held k (some i)) (insert i used) where
  mem {k' _} h := by
    rw [Function.update_apply] at h
    split at h
    · exact .inl (Option.some.inj h).symm
    · exact .inr (l.mem h)
  unique {k₁ k₂ _} h₁ h₂ := by
    rw [Function.update_apply] at h₁ h₂
    split at h₁
    · next hk₁ =>
      split at h₂
      · next hk₂ => exact hk₁.trans hk₂.symm
      · cases h₁
        exact (hi (l.mem h₂)).elim
    · split at h₂
      · cases h₂
        exact (hi (l.mem h₁)).elim
      · exact l.unique h₁ h₂

/-- A value that is given back is free for everyone, since no one else holds it. -/
theorem release (l : Leases held used) (hk : held k = some i) :
    Leases (Function.update held k none) (used \ {i}) where
  mem {k' j} h := by
    refine ⟨(l.drop k).mem h, ?_⟩
    rintro rfl
    rw [Function.update_apply] at h
    split at h
    · cases h
    · next hne => exact hne (l.unique h hk)
  unique := (l.drop k).unique

end Leases

/-! ## Looking for a free value -/

section Probe

variable [DecidableEq ι] {used : Finset ι} {next : ι → ι} {fuel : Nat} {i j : ι}

/-- The first of `i`, `next i`, `next (next i)`, … that is not in use. -/
def probe (used : Finset ι) (next : ι → ι) : Nat → ι → Option ι
  | 0, _ => none
  | fuel + 1, i => if i ∈ used then probe used next fuel (next i) else some i

theorem probe_notMem (h : probe used next fuel i = some j) : j ∉ used := by
  induction fuel generalizing i with
  | zero => cases h
  | succ fuel ih =>
    rw [probe] at h
    split at h
    · exact ih h
    · next hi => exact Option.some.inj h ▸ hi

theorem mem_of_probe_eq_none (h : probe used next fuel i = none) {m : Nat} (hm : m < fuel) :
    next^[m] i ∈ used := by
  induction fuel generalizing i m with
  | zero => cases hm
  | succ fuel ih =>
    rw [probe] at h
    split at h
    · next hi =>
      cases m with
      | zero => exact hi
      | succ m => exact ih h (Nat.lt_of_succ_lt_succ hm)
    · cases h

/-- Among more candidates than there are values in use, one is free. -/
theorem probe_isSome (hinj : Set.InjOn (next^[·] i) (Finset.range fuel)) (hcard : used.card < fuel) :
    (probe used next fuel i).isSome = true := by
  rw [Option.isSome_iff_ne_none]
  intro h
  have hsub : (Finset.range fuel).image (next^[·] i) ⊆ used := by
    intro j hj
    obtain ⟨m, hm, rfl⟩ := Finset.mem_image.mp hj
    exact mem_of_probe_eq_none h (Finset.mem_range.mp hm)
  have hle := Finset.card_le_card hsub
  rw [Finset.card_image_of_injOn hinj, Finset.card_range] at hle
  exact Nat.not_le_of_lt hcard hle

end Probe

end ZprCore
