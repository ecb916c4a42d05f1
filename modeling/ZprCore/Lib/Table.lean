-- SUMMARY: Finite tables, read and written key by key, over Mathlib's association lists.
import Mathlib.Data.List.AList

/-!
# Finite tables

A table is an association list without double keys. The lemmas here say what a lookup
returns after each write, so that proofs about a table never look at its entries.
-/

namespace ZprCore

universe u v

/-- A finite map from keys to values. -/
abbrev Table (κ : Type u) (ν : Type v) := AList fun _ : κ => ν

namespace Table

variable {κ : Type u} {ν : Type v} [DecidableEq κ] {t : Table κ ν} {j k : κ} {x y : ν}
  {p : κ → ν → Bool}

theorem lookup_insert (t : Table κ ν) (j k : κ) (x : ν) :
    (t.insert k x).lookup j = if j = k then some x else t.lookup j := by
  split
  · next h => exact h ▸ AList.lookup_insert t
  · next h => exact AList.lookup_insert_ne h

theorem lookup_erase (t : Table κ ν) (j k : κ) :
    (t.erase k).lookup j = if j = k then none else t.lookup j := by
  split
  · next h => exact h ▸ AList.lookup_erase j t
  · next h => exact AList.lookup_erase_ne h

/-- Apply a function to the value of a key, if it has one. -/
def modify (t : Table κ ν) (k : κ) (f : ν → ν) : Table κ ν :=
  match t.lookup k with
  | none => t
  | some x => t.insert k (f x)

theorem lookup_modify (t : Table κ ν) (j k : κ) (f : ν → ν) :
    (t.modify k f).lookup j = if j = k then (t.lookup j).map f else t.lookup j := by
  unfold modify
  split
  · next h =>
    split
    · next hj => rw [hj, h, Option.map_none]
    · rfl
  · next x h =>
    rw [lookup_insert]
    split
    · next hj => rw [hj, h, Option.map_some]
    · rfl

theorem bind_lookup_modify {γ : Type*} {g : ν → Option γ} {f : ν → ν} (h : ∀ x, g (f x) = g x)
    (t : Table κ ν) (j k : κ) : ((t.modify k f).lookup j).bind g = (t.lookup j).bind g := by
  rw [lookup_modify]
  split
  · cases t.lookup j with
    | none => rfl
    | some x => exact h x
  · rfl

section Nested

variable {κ' : Type*} {γ : Type*} [DecidableEq κ'] {g : ν → Table κ' γ} {f : ν → ν} {j' k' : κ'}
  {z : γ}

theorem lookup_modify_insert (hk : (t.lookup k).isSome)
    (hf : ∀ x, g (f x) = (g x).insert k' z := by exact fun _ => rfl) :
    ((t.modify k f).lookup j).bind (fun x => (g x).lookup j') =
      if j = k ∧ j' = k' then some z else (t.lookup j).bind fun x => (g x).lookup j' := by
  obtain ⟨x, hx⟩ := Option.isSome_iff_exists.mp hk
  rw [lookup_modify]
  by_cases hj : j = k
  · subst hj
    simp only [hx, if_true, Option.map_some, Option.bind_some, hf, lookup_insert, true_and]
  · simp only [hj, if_false, false_and]

theorem lookup_modify_erase (hf : ∀ x, g (f x) = (g x).erase k' := by exact fun _ => rfl) :
    ((t.modify k f).lookup j).bind (fun x => (g x).lookup j') =
      if j = k ∧ j' = k' then none else (t.lookup j).bind fun x => (g x).lookup j' := by
  rw [lookup_modify]
  by_cases hj : j = k
  · subst hj
    cases t.lookup j with
    | none => simp only [Option.map_none, Option.bind_none, ite_self]
    | some x => simp only [if_true, Option.map_some, Option.bind_some, hf, lookup_erase, true_and]
  · simp only [hj, if_false, false_and]

end Nested

/-- Does some entry of the table satisfy `p`? -/
def any (t : Table κ ν) (p : κ → ν → Bool) : Bool := t.entries.any fun e => p e.1 e.2

theorem any_eq_true : t.any p = true ↔ ∃ k x, t.lookup k = some x ∧ p k x = true := by
  simp only [any, List.any_eq_true]
  constructor
  · rintro ⟨⟨k, x⟩, hmem, hp⟩
    exact ⟨k, x, AList.mem_lookup_iff.mpr hmem, hp⟩
  · rintro ⟨k, x, hget, hp⟩
    exact ⟨⟨k, x⟩, AList.mem_lookup_iff.mp hget, hp⟩

theorem any_eq_false : t.any p = false ↔ ∀ k x, t.lookup k = some x → p k x = false := by
  rw [← Bool.not_eq_true, any_eq_true]
  constructor
  · intro h k x hget
    exact Bool.not_eq_true _ ▸ fun hp => h ⟨k, x, hget, hp⟩
  · rintro h ⟨k, x, hget, hp⟩
    rw [h k x hget] at hp
    cases hp

/-- The keys whose entries satisfy `p`. -/
def keysWhere (t : Table κ ν) (p : κ → ν → Bool) : List κ :=
  (t.entries.filter fun e => p e.1 e.2).map (·.1)

end Table

end ZprCore
