import Mathlib.Logic.Function.Basic
import Mathlib.Tactic.Common

/-!
# Loops over an array

Two shapes of the C loop `for (count = 0; count < n; count++)` over an array that is given as a
function of its index:

* `forSlots n f t` — the body reads and writes entry `count` only, so the loop is a map;
* `sweep f n t` — the body writes entry `count` but may read the whole array as it stands then.

`sweep_of_lt` is the fact every proof about such a loop uses: entry `j` of the result is the body run
once, on an array in which the entries from `j` on are still the old ones.
-/

namespace VanetTdma.SlotLoop

variable {α : Type*}

/-- A loop over the indices below `n` whose body only touches its own entry. -/
def forSlots (n : ℕ) (f : ℕ → α → α) (t : ℕ → α) : ℕ → α :=
  fun j => if j < n then f j (t j) else t j

theorem forSlots_of_lt {n j : ℕ} {f : ℕ → α → α} {t : ℕ → α} (h : j < n) :
    forSlots n f t j = f j (t j) := if_pos h

theorem forSlots_of_ge {n j : ℕ} {f : ℕ → α → α} {t : ℕ → α} (h : n ≤ j) :
    forSlots n f t j = t j := if_neg (Nat.not_lt.mpr h)

/-- What every body step keeps, the loop keeps at every index. -/
theorem forSlots_induction {P : ℕ → α → Prop} {n : ℕ} {f : ℕ → α → α} {t : ℕ → α}
    (ht : ∀ j, P j (t j)) (hf : ∀ j e, P j e → P j (f j e)) (j : ℕ) : P j (forSlots n f t j) := by
  rcases Nat.lt_or_ge j n with h | h
  · rw [forSlots_of_lt h]
    exact hf j _ (ht j)
  · rw [forSlots_of_ge h]
    exact ht j

/-- A loop over the indices below `n` whose body may read the whole array. -/
def sweep (f : ℕ → (ℕ → α) → α) : ℕ → (ℕ → α) → ℕ → α
  | 0, t => t
  | n + 1, t => Function.update (sweep f n t) n (f n (sweep f n t))

theorem sweep_of_ge {f : ℕ → (ℕ → α) → α} {n j : ℕ} {t : ℕ → α} (h : n ≤ j) :
    sweep f n t j = t j := by
  induction n with
  | zero => rfl
  | succ n ih =>
    rw [sweep, Function.update_of_ne (by omega)]
    exact ih (by omega)

theorem sweep_of_lt {f : ℕ → (ℕ → α) → α} {n j : ℕ} {t : ℕ → α} (h : j < n) :
    sweep f n t j = f j (sweep f j t) := by
  induction n with
  | zero => omega
  | succ n ih =>
    rw [sweep]
    rcases Nat.lt_succ_iff_lt_or_eq.mp h with hlt | rfl
    · rw [Function.update_of_ne (by omega)]
      exact ih hlt
    · rw [Function.update_self]

end VanetTdma.SlotLoop
