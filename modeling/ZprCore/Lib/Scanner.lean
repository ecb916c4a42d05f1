-- SUMMARY: Scanners that may fail or panic, with a weakest-precondition calculus.
import Mathlib.Data.List.Basic

/-!
# Scanners

A scanner reads symbols from the front of a buffer. It ends with a value and the rest of the
buffer, with an error, or with a panic. Checked reads (`read`) turn a buffer that is too short
into an error; unchecked reads (`get`) panic.

`wp p Q b` says that `p` does not panic on `b`, and that `Q` holds of what it ends with if it
succeeds. Every construct has a rule that computes `wp`, so that the buffers on which a scanner
panics are found by rewriting.
-/

namespace ZprCore

variable {τ ε α β : Type}

inductive Reply (τ ε α : Type) where
  | ok (value : α) (rest : List τ)
  | error (e : ε)
  | panic
deriving DecidableEq

def Scanner (τ ε α : Type) := List τ → Reply τ ε α

namespace Scanner

/-! ## Constructs -/

def bind (p : Scanner τ ε α) (f : α → Scanner τ ε β) : Scanner τ ε β := fun b =>
  match p b with
  | .ok a rest => f a rest
  | .error e => .error e
  | .panic => .panic

instance : Monad (Scanner τ ε) where
  pure a := fun b => .ok a b
  bind := Scanner.bind

def fail (e : ε) : Scanner τ ε α := fun _ => .error e

/-- A panic that is written out. -/
def abort : Scanner τ ε α := fun _ => .panic

def remaining : Scanner τ ε Nat := fun b => .ok b.length b

/-- What is left, without consuming it. -/
def body : Scanner τ ε (List τ) := fun b => .ok b b

/-- Take `n` symbols, or fail. -/
def read (n : Nat) (e : ε) : Scanner τ ε (List τ) := fun b =>
  if b.length < n then .error e else .ok (b.take n) (b.drop n)

/-- Take `n` symbols, or panic. -/
def get (n : Nat) : Scanner τ ε (List τ) := fun b =>
  if b.length < n then .panic else .ok (b.take n) (b.drop n)

/-- Fail unless a condition holds. -/
def ensure (c : Bool) (e : ε) : Scanner τ ε Unit := if c then pure () else fail e

/-- Panic unless there is a value. -/
def unwrap : Option α → Scanner τ ε α
  | some a => pure a
  | none => abort

/-- Fail unless there is a value. -/
def orFail (e : ε) : Option α → Scanner τ ε α
  | some a => pure a
  | none => fail e

/-- Run a scanner a number of times. -/
def times (p : Scanner τ ε α) : Nat → Scanner τ ε (List α)
  | 0 => pure []
  | n + 1 => do
    let a ← p
    let as ← times p n
    pure (a :: as)

/-- At most `fuel` rounds until the buffer is empty. Not to be done by then counts as a panic. -/
def rounds (p : Scanner τ ε (Option α)) : Nat → Scanner τ ε (List α)
  | 0 => fun b => if b.isEmpty then .ok [] [] else .panic
  | fuel + 1 => fun b =>
    if b.isEmpty then .ok [] []
    else
      (do
        let a ← p
        let as ← rounds p fuel
        pure (a.toList ++ as) : Scanner τ ε (List α)) b

/-- Run a scanner until the buffer is empty. -/
def untilEmpty (p : Scanner τ ε (Option α)) : Scanner τ ε (List α) := fun b => rounds p b.length b

/-! ## Weakest preconditions -/

def wp (p : Scanner τ ε α) (Q : α → List τ → Prop) (b : List τ) : Prop :=
  match p b with
  | .ok a rest => Q a rest
  | .error _ => True
  | .panic => False

variable {p : Scanner τ ε α} {f : α → Scanner τ ε β} {Q Q' : α → List τ → Prop}
  {R : β → List τ → Prop} {b : List τ} {n : Nat} {e : ε} {o : Option α} {q : Scanner τ ε α}

theorem ne_panic_iff : p b ≠ .panic ↔ wp p (fun _ _ => True) b := by
  unfold wp
  cases p b <;> simp

@[simp] theorem wp_pure {a : α} : wp (pure a : Scanner τ ε α) Q b ↔ Q a b := Iff.rfl

@[simp] theorem wp_bind : wp (p >>= f) R b ↔ wp p (fun a rest => wp (f a) R rest) b := by
  change wp (Scanner.bind p f) R b ↔ _
  unfold wp Scanner.bind
  cases p b <;> rfl

@[simp] theorem wp_fail : wp (fail e : Scanner τ ε α) Q b ↔ True := Iff.rfl

@[simp] theorem wp_abort : wp (abort : Scanner τ ε α) Q b ↔ False := Iff.rfl

@[simp] theorem wp_remaining {Q : Nat → List τ → Prop} :
    wp (remaining : Scanner τ ε Nat) Q b ↔ Q b.length b :=
  Iff.rfl

@[simp] theorem wp_body {Q : List τ → List τ → Prop} : wp (body : Scanner τ ε _) Q b ↔ Q b b := Iff.rfl

@[simp] theorem wp_read {Q : List τ → List τ → Prop} :
    wp (read n e) Q b ↔ (n ≤ b.length → Q (b.take n) (b.drop n)) := by
  by_cases h : b.length < n
  · simp [wp, read, h, Nat.not_le_of_lt h]
  · simp [wp, read, h, Nat.le_of_not_lt h]

@[simp] theorem wp_get {Q : List τ → List τ → Prop} :
    wp (get n : Scanner τ ε _) Q b ↔ n ≤ b.length ∧ Q (b.take n) (b.drop n) := by
  by_cases h : b.length < n
  · simp [wp, get, h, Nat.not_le_of_lt h]
  · simp [wp, get, h, Nat.le_of_not_lt h]

@[simp] theorem wp_ensure {c : Bool} {Q : Unit → List τ → Prop} :
    wp (ensure c e) Q b ↔ (c = true → Q () b) := by
  cases c <;> simp [ensure]

@[simp] theorem wp_unwrap : wp (unwrap o : Scanner τ ε α) Q b ↔ ∃ a, o = some a ∧ Q a b := by
  cases o <;> simp [unwrap]

@[simp] theorem wp_orFail : wp (orFail e o) Q b ↔ ∀ a, o = some a → Q a b := by
  cases o <;> simp [orFail]

@[simp] theorem wp_ite {c : Prop} [Decidable c] :
    wp (if c then p else q) Q b ↔ if c then wp p Q b else wp q Q b := by
  split <;> rfl

theorem wp_mono (h : wp p Q b) (hQ : ∀ a rest, Q a rest → Q' a rest) : wp p Q' b := by
  unfold wp at h ⊢
  cases hp : p b with
  | ok a rest => exact hQ _ _ (by simpa [hp] using h)
  | error e => trivial
  | panic => simp [hp] at h

/-- A loop to the end of the buffer ends there, without a panic, if each round makes progress. -/
theorem wp_untilEmpty {p : Scanner τ ε (Option α)}
    (h : ∀ b, b ≠ [] → wp p (fun _ rest => rest.length < b.length) b) (b : List τ) :
    wp (untilEmpty p) (fun _ rest => rest = []) b := by
  suffices ∀ fuel b, b.length ≤ fuel → wp (rounds p fuel) (fun _ rest => rest = []) b from
    this b.length b (Nat.le_refl _)
  intro fuel
  induction fuel with
  | zero =>
    intro b hb
    cases List.length_eq_zero_iff.mp (Nat.le_zero.mp hb)
    rfl
  | succ fuel ih =>
    intro b hb
    cases b with
    | nil => rfl
    | cons x xs =>
      refine wp_bind.mpr (wp_mono (h (x :: xs) nofun) fun a rest hrest => ?_)
      exact wp_bind.mpr (wp_mono (ih rest (by omega)) fun _ _ hnil => hnil)

/-! ## Scanners that never panic -/

def Safe (p : Scanner τ ε α) : Prop := ∀ b, wp p (fun _ _ => True) b

namespace Safe

theorem pure {a : α} : Safe (Pure.pure a : Scanner τ ε α) := fun _ => trivial

theorem fail : Safe (Scanner.fail e : Scanner τ ε α) := fun _ => trivial

theorem read : Safe (Scanner.read n e : Scanner τ ε (List τ)) :=
  fun _ => wp_read.mpr fun _ => trivial

theorem ensure {c : Bool} : Safe (Scanner.ensure c e : Scanner τ ε Unit) :=
  fun _ => wp_ensure.mpr fun _ => trivial

theorem orFail : Safe (Scanner.orFail e o : Scanner τ ε α) :=
  fun _ => wp_orFail.mpr fun _ _ => trivial

theorem remaining : Safe (Scanner.remaining : Scanner τ ε Nat) := fun _ => trivial

theorem body : Safe (Scanner.body : Scanner τ ε (List τ)) := fun _ => trivial

theorem bind (hp : Safe p) (hf : ∀ a, Safe (f a)) : Safe (p >>= f) := fun b =>
  wp_bind.mpr (wp_mono (hp b) fun a rest _ => hf a rest)

theorem ite {c : Prop} [Decidable c] (hp : c → Safe p) (hq : ¬c → Safe q) :
    Safe (if c then p else q) := by
  split
  · next h => exact hp h
  · next h => exact hq h

theorem times (hp : Safe p) : Safe (Scanner.times p n) := by
  induction n with
  | zero => exact .pure
  | succ n ih => exact hp.bind fun a => ih.bind fun as => .pure

end Safe

end Scanner

end ZprCore
