import Mathlib.Data.List.Infix
import Mathlib.Tactic.Common

/-!
# Delivery in order

Of a run only two growing lists are looked at: what has been asked for and what has been given by cycle `n`.
`Delivered` says that the one is turned into the other without loss, repetition or change of order.

* `delivered_of_pending` — it follows from a ledger: what was asked for is what was given and what is pending, and
  nothing is pending again and again.
-/

namespace VanetTdma.Clocked

variable {α : Type*} {asked given pending : ℕ → List α}

/-- Everything that is asked for is given, once and in order. -/
structure Delivered (asked given : ℕ → List α) : Prop where
  early : ∀ n, given n <+: asked n
  late : ∀ n, ∃ m, asked n <+: given m

theorem asked_mono (hgrow : ∀ n, asked n <+: asked (n + 1)) {m n : ℕ} (h : m ≤ n) : asked m <+: asked n := by
  induction n, h using Nat.le_induction with
  | base => exact List.prefix_rfl
  | succ n _ ih => exact ih.trans (hgrow n)

/-- **Delivery from a ledger.** -/
theorem delivered_of_pending (hledger : ∀ n, asked n = given n ++ pending n)
    (hgrow : ∀ n, asked n <+: asked (n + 1)) (hdrain : ∀ n, ∃ m, n ≤ m ∧ pending m = []) :
    Delivered asked given where
  early n := by
    rw [hledger n]
    exact List.prefix_append _ _
  late n := by
    obtain ⟨m, hle, hnil⟩ := hdrain n
    refine ⟨m, ?_⟩
    have hm : asked m = given m := by
      rw [hledger m, hnil, List.append_nil]
    rw [← hm]
    exact asked_mono hgrow hle

end VanetTdma.Clocked
