-- SUMMARY: Writes into a list at an offset, and numbers in little-endian order.
import Mathlib.Algebra.Group.Nat.Defs
import Mathlib.Data.List.Basic

/-!
# Buffers

What is in a buffer of a fixed size after a write. A buffer is given as a concatenation of its
parts, so that a write at the start of a part replaces that part and nothing else.
-/

namespace ZprCore

universe u

variable {α : Type u} {a b xs : List α} {i : Nat}

/-- The buffer after `xs` is copied to the offset `i`. -/
def overwrite (b : List α) (i : Nat) (xs : List α) : List α :=
  b.take i ++ xs ++ b.drop (i + xs.length)

theorem overwrite_append (h : i = a.length) :
    overwrite (a ++ b) i xs = a ++ xs ++ b.drop xs.length := by
  subst h
  rw [overwrite, List.take_left, List.drop_append, Nat.add_sub_cancel_left,
    List.drop_eq_nil_of_le (Nat.le_add_right ..), List.nil_append]

theorem overwrite_part {old : List α} (h : i = a.length) (hlen : xs.length = old.length) :
    overwrite (a ++ (old ++ b)) i xs = a ++ (xs ++ b) := by
  rw [overwrite_append h, hlen, List.drop_left, List.append_assoc]

/-- The lowest `k` bytes of a number, the lowest of them first. -/
def leBytes : Nat → Nat → List UInt8
  | 0, _ => []
  | k + 1, n => UInt8.ofNat n :: leBytes k (n / 256)

def leNat : List UInt8 → Nat
  | [] => 0
  | a :: rest => a.toNat + 256 * leNat rest

@[simp] theorem length_leBytes (k n : Nat) : (leBytes k n).length = k := by
  induction k generalizing n with
  | zero => rfl
  | succ k ih => rw [leBytes, List.length_cons, ih]

theorem leNat_leBytes {k n : Nat} (h : n < 256 ^ k) : leNat (leBytes k n) = n := by
  induction k generalizing n with
  | zero => exact (Nat.lt_one_iff.mp h).symm
  | succ k ih =>
    have hdiv : n / 256 < 256 ^ k := Nat.div_lt_of_lt_mul (Nat.pow_succ' ▸ h)
    have hlow : (UInt8.ofNat n).toNat = n % 256 := UInt8.toNat_ofNat ..
    rw [leBytes, leNat, ih hdiv, hlow]
    omega

theorem leBytes_leNat {k : Nat} {b : List UInt8} (h : b.length = k) : leBytes k (leNat b) = b := by
  subst h
  induction b with
  | nil => rfl
  | cons a rest ih =>
    have ha := a.toNat_lt
    have hlow : UInt8.ofNat (a.toNat + 256 * leNat rest) = a := by
      rw [← UInt8.toNat_inj, UInt8.toNat_ofNat']
      omega
    have hdiv : (a.toNat + 256 * leNat rest) / 256 = leNat rest := by omega
    rw [List.length_cons, leBytes, leNat, hlow, hdiv, ih]

end ZprCore
