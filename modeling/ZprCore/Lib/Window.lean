-- SUMMARY: A deque read as a sliding window onto an unbounded sequence.
import Mathlib.Data.List.Basic
import Mathlib.Logic.Function.Basic

/-!
# Sliding windows

A queue that is pushed at the back and trimmed at the front holds positions
`base, base + 1, …` of an unbounded sequence. `Window.read` reads position `k` of that
sequence, with a default for the positions the queue no longer (or not yet) holds. When only
entries equal to the default are trimmed, trimming is invisible to `Window.read`.
-/

namespace ZprCore.Window

variable {α : Type*} {d : α} {base : Nat} {l : List α} {k i : Nat} {x : α}

/-- Position `k` of the sequence whose window `l` starts at `base`. -/
def read (d : α) (base : Nat) (l : List α) (k : Nat) : α :=
  if k < base then d else l.getD (k - base) d

theorem read_of_lt (h : k < base) : read d base l k = d := by
  simp [read, h]

theorem read_of_get? {x : α} (hb : base ≤ k) (h : l[k - base]? = some x) :
    read d base l k = x := by
  simp [read, Nat.not_lt.mpr hb, List.getD, h]

theorem mem_of_read (h : read d base l k = x) (hx : x ≠ d) : x ∈ l := by
  unfold read at h
  split at h
  · exact absurd h.symm hx
  rw [List.getD_eq_getElem?_getD] at h
  cases hget : l[k - base]? with
  | none =>
    rw [hget] at h
    exact absurd h.symm hx
  | some y =>
    rw [hget] at h
    exact h ▸ List.mem_of_getElem? hget

theorem read_set (h : i < l.length) :
    read d base (l.set i x) = Function.update (read d base l) (base + i) x := by
  funext k
  by_cases hk : k < base
  · have : k ≠ base + i := by omega
    simp [read, hk, Function.update_of_ne this]
  by_cases hki : k = base + i
  · subst hki
    simp only [read, hk, if_false]
    simp [h]
  · have : i ≠ k - base := by omega
    simp [read, hk, Function.update_of_ne hki, List.getElem?_set_ne this]

theorem read_push :
    read d base (l ++ [x]) = Function.update (read d base l) (base + l.length) x := by
  funext k
  by_cases hk : k < base
  · have : k ≠ base + l.length := by omega
    simp [read, hk, Function.update_of_ne this]
  by_cases hki : k = base + l.length
  · subst hki
    simp only [read, hk, if_false]
    simp
  simp only [read, hk, if_false, Function.update_of_ne hki, List.getD_eq_getElem?_getD]
  by_cases hlt : k - base < l.length
  · rw [List.getElem?_append_left hlt]
  have h1 : (l ++ [x])[k - base]? = none := by
    rw [List.getElem?_eq_none]
    simp only [List.length_append, List.length_cons, List.length_nil]
    omega
  have h2 : l[k - base]? = none := List.getElem?_eq_none (by omega)
  rw [h1, h2]

theorem read_map {f : α → α} (hf : f d = d) :
    read d base (l.map f) = fun k => f (read d base l k) := by
  funext k
  by_cases hk : k < base
  · simp [read, hk, hf]
  · simp only [read, hk, if_false, List.getD_eq_getElem?_getD, List.getElem?_map]
    cases l[k - base]? <;> simp [hf]

theorem read_trim {pre : List α} :
    read d (base + pre.length) l k
      = if k < base + pre.length then d else read d base (pre ++ l) k := by
  unfold read
  split
  · rfl
  next hk =>
  have hb : ¬ k < base := by omega
  have hi : k - base - pre.length = k - (base + pre.length) := by omega
  rw [if_neg hb, List.getD_eq_getElem?_getD, List.getD_eq_getElem?_getD,
    List.getElem?_append_right (by omega), hi]

theorem read_dropWhile {p : α → Bool} (hp : ∀ x, p x = true → x = d) (hb : l.length ≤ base) :
    read d (base - (l.dropWhile p).length) (l.dropWhile p) = read d (base - l.length) l := by
  induction l with
  | nil => rfl
  | cons x xs ih =>
    by_cases hx : p x = true
    · simp only [List.dropWhile_cons_of_pos hx]
      simp only [List.length_cons] at hb ⊢
      rw [ih (by omega)]
      funext k
      have hstart : base - xs.length = base - (xs.length + 1) + 1 := by omega
      simp only [read, hstart]
      rcases Nat.lt_trichotomy k (base - (xs.length + 1)) with hk | hk | hk
      · simp [hk, Nat.lt_succ_of_lt hk]
      · subst hk
        simp [hp x hx]
      have h1 : ¬ k < base - (xs.length + 1) + 1 := by omega
      have h2 : ¬ k < base - (xs.length + 1) := by omega
      have h3 : k - (base - (xs.length + 1)) = k - (base - (xs.length + 1) + 1) + 1 := by omega
      simp [h1, h2, h3]
    · simp [List.dropWhile_cons_of_neg hx]

end ZprCore.Window
