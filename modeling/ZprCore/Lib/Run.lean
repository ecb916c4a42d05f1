-- SUMMARY: Runs of guarded executable step functions, with their invariant and replay rules.
import Mathlib.Data.List.Basic

/-!
# Runs of a step function

A system is a partial step function `step : σ → α → Option σ`: `step s a` is the
state after action `a`, or `none` when `a` cannot be taken in `s`. The choices of
the environment (which message arrives, which task is scheduled) are part of the
action, so that the step function stays executable.

`Run step init ok` is the set of states reached from an initial state by actions
that all meet the side condition `ok`. With `ok` always true it is plain
reachability; a stronger `ok` restricts the runs that are considered.
-/

namespace ZprCore

universe u v

variable {σ : Type u} {α : Type v} {step : σ → α → Option σ} {init : σ → Prop} {ok : σ → α → Prop}
  {s s' : σ} {as : List α}

/-- States reached from `init` by steps that each satisfy `ok` when they are taken. -/
inductive Run (step : σ → α → Option σ) (init : σ → Prop) (ok : σ → α → Prop) : σ → Prop where
  | start {s : σ} : init s → Run step init ok s
  | next {s s' : σ} {a : α} : Run step init ok s → ok s a → step s a = some s' → Run step init ok s'

namespace Run

/-- What holds initially and is kept by every permitted step holds in every state of a run. -/
theorem invariant {P : σ → Prop} (hinit : ∀ s, init s → P s)
    (hstep : ∀ s a s', P s → ok s a → step s a = some s' → P s')
    {s : σ} (h : Run step init ok s) : P s := by
  induction h with
  | start h => exact hinit _ h
  | next _ hok hs ih => exact hstep _ _ _ ih hok hs

/-- Restricting the permitted steps only removes runs. -/
theorem mono {ok' : σ → α → Prop} (hok : ∀ s a, ok s a → ok' s a)
    (h : Run step init ok s) : Run step init ok' s := by
  induction h with
  | start h => exact .start h
  | next _ ha hs ih => exact .next ih (hok _ _ ha) hs

/-- A run continued by a run is a run. -/
theorem trans (h : Run step init ok s) (h' : Run step (· = s) ok s') :
    Run step init ok s' := by
  induction h' with
  | start h0 => exact h0 ▸ h
  | next _ ha hs ih => exact .next ih ha hs

end Run

/-- A side condition on the value of an option is decided by looking at that value, also where
    the type of the value is finite and could be enumerated. -/
def decidableForallMem {p : α → Prop} (h : ∀ a, Decidable (p a)) :
    (o : Option α) → Decidable (∀ a ∈ o, p a)
  | none => isTrue nofun
  | some a => @decidable_of_iff _ (p a) (by simp) (h a)

/-- Take the actions of a list one after another, as long as each one is permitted. -/
def replay (step : σ → α → Option σ) (ok : σ → α → Prop) [∀ s a, Decidable (ok s a)] (s : σ) :
    List α → Option σ
  | [] => some s
  | a :: as => if ok s a then (step s a).bind fun s' => replay step ok s' as else none

/-- A replayed list of actions is a run. -/
theorem Run.of_replay [∀ s a, Decidable (ok s a)] (hs : Run step init ok s)
    (h : replay step ok s as = some s') : Run step init ok s' := by
  induction as generalizing s with
  | nil =>
    simp only [replay, Option.some.injEq] at h
    exact h ▸ hs
  | cons a as ih =>
    simp only [replay] at h
    split at h
    · next hok =>
      obtain ⟨t, hst, ht⟩ := Option.bind_eq_some_iff.mp h
      exact ih (.next hs hok hst) ht
    · cases h

theorem Run.replayed [∀ s a, Decidable (ok s a)] (h : replay step ok s as = some s') :
    Run step (· = s) ok s' :=
  .of_replay (.start rfl) h

section Reaches

variable [∀ s a, Decidable (ok s a)] {P Q : σ → Prop} {τ : Type}

/-- A run that ends in a state of the kind `P`, found by replaying it. -/
theorem Run.reaches [∀ s, Decidable (P s)] (hs : init s) (as : List α)
    (h : (replay step ok s as).any (fun t => decide (P t)) = true) :
    ∃ t, Run step init ok t ∧ P t := by
  obtain ⟨t, ht, hP⟩ := (Option.any_eq_true _ _).mp h
  exact ⟨t, .of_replay (.start hs) ht, of_decide_eq_true hP⟩

/-- The same for what `f` gives in the state where the run ends. -/
theorem Run.reaches_some {f : σ → Option τ} {P : σ → τ → Prop}
    [∀ s t, Decidable (P s t)] (hs : init s) (as : List α)
    (h : (replay step ok s as).any (fun t => (f t).any fun x => decide (P t x)) = true) :
    ∃ t x, Run step init ok t ∧ f t = some x ∧ P t x := by
  obtain ⟨t, ht, hf⟩ := (Option.any_eq_true _ _).mp h
  obtain ⟨x, hx, hP⟩ := (Option.any_eq_true _ _).mp hf
  exact ⟨t, x, .of_replay (.start hs) ht, hx, of_decide_eq_true hP⟩

/-- What a run shows that ends in a state of the kind `P`. -/
theorem Run.reaches_imp [∀ s, Decidable (P s)] (hs : init s) (as : List α)
    (h : (replay step ok s as).any (fun t => decide (P t)) = true)
    (hQ : ∀ t, Run step init ok t → P t → Q t) : ∃ t, Run step init ok t ∧ Q t := by
  obtain ⟨t, hrun, hP⟩ := Run.reaches hs as h
  exact ⟨t, hrun, hQ t hrun hP⟩

theorem Run.reaches_some_imp {f : σ → Option τ} {P Q : σ → τ → Prop}
    [∀ s t, Decidable (P s t)] (hs : init s) (as : List α)
    (h : (replay step ok s as).any (fun t => (f t).any fun x => decide (P t x)) = true)
    (hQ : ∀ t x, Run step init ok t → f t = some x → P t x → Q t x) :
    ∃ t x, Run step init ok t ∧ f t = some x ∧ Q t x := by
  obtain ⟨t, x, hrun, hx, hP⟩ := Run.reaches_some hs as h
  exact ⟨t, x, hrun, hx, hQ t x hrun hx hP⟩

/-- Whether an option has a value of the kind `p` is decided by looking at its value. -/
instance (priority := high) decidableExistsSome {p : α → Prop} [∀ a, Decidable (p a)]
    (o : Option α) : Decidable (∃ a, o = some a ∧ p a) :=
  decidable_of_iff (o.any fun a => decide (p a)) (by simp [Option.any_eq_true])

end Reaches

/-! ## Histories -/

/-- A step that was taken, with the states before and after it. -/
structure Taken (σ : Type u) (α : Type v) where
  pre : σ
  act : α
  post : σ

/-- A run together with the steps it took, the last one first. -/
inductive Trace (step : σ → α → Option σ) (init : σ → Prop) (ok : σ → α → Prop) :
    List (Taken σ α) → σ → Prop where
  | start {s : σ} : init s → Trace step init ok [] s
  | next {l : List (Taken σ α)} {s s' : σ} {a : α} : Trace step init ok l s → ok s a →
      step s a = some s' → Trace step init ok (⟨s, a, s'⟩ :: l) s'

theorem Trace.run {l : List (Taken σ α)} (h : Trace step init ok l s) : Run step init ok s := by
  induction h with
  | start h => exact .start h
  | next _ hok hs ih => exact .next ih hok hs

theorem Run.trace (h : Run step init ok s) : ∃ l, Trace step init ok l s := by
  induction h with
  | start h => exact ⟨[], .start h⟩
  | next _ hok hs ih =>
    obtain ⟨l, hl⟩ := ih
    exact ⟨_, hl.next hok hs⟩

/-- A step of the kind `E` was taken, and after it only steps of the kind `Q`. What `E` says of a step
    may depend on the steps before it. -/
def Since (E : Taken σ α → List (Taken σ α) → Prop) (Q : Taken σ α → Prop) :
    List (Taken σ α) → Prop
  | [] => False
  | t :: l => E t l ∨ Q t ∧ Since E Q l

/-- The step of the kind `E` was taken after any step that is of neither kind. -/
theorem Since.later {E : Taken σ α → List (Taken σ α) → Prop} {Q : Taken σ α → Prop}
    {later earlier : List (Taken σ α)} {t : Taken σ α} (h : Since E Q (later ++ t :: earlier))
    (hE : ¬E t earlier) (hQ : ¬Q t) :
    ∃ later₁ e later₂, later = later₁ ++ e :: later₂ ∧ E e (later₂ ++ t :: earlier) := by
  induction later with
  | nil =>
    rcases h with h | ⟨h, -⟩
    · exact (hE h).elim
    · exact (hQ h).elim
  | cons u later ih =>
    rcases h with h | ⟨-, h⟩
    · exact ⟨[], u, later, rfl, h⟩
    · obtain ⟨later₁, e, later₂, rfl, he⟩ := ih h
      exact ⟨u :: later₁, e, later₂, rfl, he⟩

/-! ## Logs -/

/-- A log has grown at its end, by entries of the kind `p`. -/
def Grown (p : α → Prop) (l l' : List α) : Prop := ∃ es, l' = l ++ es ∧ ∀ e ∈ es, p e

namespace Grown

variable {p q : α → Prop} {l l' l'' : List α}

theorem refl (l : List α) : Grown p l l := ⟨[], (List.append_nil l).symm, nofun⟩

theorem one {e : α} (h : p e) : Grown p l (l ++ [e]) := ⟨[e], rfl, by simpa using h⟩

theorem trans (h : Grown p l l') (h' : Grown p l' l'') : Grown p l l'' := by
  obtain ⟨es, rfl, hes⟩ := h
  obtain ⟨es', rfl, hes'⟩ := h'
  exact ⟨es ++ es', List.append_assoc .., fun e he => (List.mem_append.mp he).elim (hes e) (hes' e)⟩

theorem mono (h : Grown p l l') (hpq : ∀ e, p e → q e) : Grown q l l' := by
  obtain ⟨es, hl, hes⟩ := h
  exact ⟨es, hl, fun e he => hpq e (hes e he)⟩

end Grown

/-! ## Fallible handlers -/

section Except

variable {ε : Type*} {α : Type*} {β : Type*} {x : Except ε α} {f : α → Except ε β} {b : β} {e : ε}

/-- Whether a handler fails with a given error, for results that cannot be compared. -/
instance decidableEqError [DecidableEq ε] (e : ε) : (x : Except ε α) → Decidable (x = .error e)
  | .ok _ => isFalse (by simp)
  | .error e' => decidable_of_iff (e' = e) (by simp)

theorem except_bind_eq_ok : x.bind f = .ok b ↔ ∃ a, x = .ok a ∧ f a = .ok b := by
  cases x <;> simp [Except.bind]

theorem except_map_eq_ok {f : α → β} : x.map f = .ok b ↔ ∃ a, x = .ok a ∧ f a = b := by
  cases x <;> simp [Except.map]

theorem except_bind_eq_error : x.bind f = .error e ↔ x = .error e ∨ ∃ a, x = .ok a ∧ f a = .error e := by
  cases x <;> simp [Except.bind]

theorem except_map_eq_error {f : α → β} : x.map f = .error e ↔ x = .error e := by
  cases x <;> simp [Except.map]

end Except

end ZprCore
