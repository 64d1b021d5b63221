import Mathlib.Logic.Relation
import Mathlib.Data.Option.Basic

/-!
# Runs of a partial step function under a guard

A labelled machine is given by a partial step function `step : σ → ι → Option σ`: `none` means that
the program has no defined successor there.  A *guard* `ok : σ → ι → Prop` singles out the steps a run
may take; `ok := fun _ _ => True` gives every run.  The state predicate `Reach step ok s₀` collects the
states of the guarded runs from `s₀`.

* `Reach.invariant` — what holds initially and is kept by every guarded step holds in every state
  reached;
* `reach_of_runList` — a run given as a list of labels reaches its end state.
-/

namespace VanetTdma.GuardedRun

variable {σ ι : Type*} {step : σ → ι → Option σ} {ok : σ → ι → Prop} {s₀ s t : σ}

def GStep (step : σ → ι → Option σ) (ok : σ → ι → Prop) (s t : σ) : Prop :=
  ∃ i, ok s i ∧ step s i = some t

/-- The states reached from `s₀` by guarded steps. -/
def Reach (step : σ → ι → Option σ) (ok : σ → ι → Prop) (s₀ : σ) : σ → Prop :=
  Relation.ReflTransGen (GStep step ok) s₀

theorem Reach.refl : Reach step ok s₀ s₀ := Relation.ReflTransGen.refl

theorem Reach.tail {i : ι} (h : Reach step ok s₀ s) (hok : ok s i) (hs : step s i = some t) :
    Reach step ok s₀ t :=
  Relation.ReflTransGen.tail h ⟨i, hok, hs⟩

/-- **The invariant rule.** -/
theorem Reach.invariant {Inv : σ → Prop} (h : Reach step ok s₀ s) (h₀ : Inv s₀)
    (hstep : ∀ s i t, Inv s → ok s i → step s i = some t → Inv t) : Inv s := by
  induction h with
  | refl => exact h₀
  | tail _ hst ih =>
    obtain ⟨i, hok, hs⟩ := hst
    exact hstep _ i _ ih hok hs

/-- The end state of a run given by its labels, each of which passes the test `b`. -/
def runList (step : σ → ι → Option σ) (b : σ → ι → Bool) : σ → List ι → Option σ
  | s, [] => some s
  | s, i :: is => if b s i then (step s i).bind fun t => runList step b t is else none

theorem reach_of_runList {b : σ → ι → Bool} {s : σ} {is : List ι}
    (hb : ∀ s i, b s i = true → ok s i) (h : runList step b s is = some t) : Reach step ok s t := by
  induction is generalizing s with
  | nil =>
    simp only [runList, Option.some.injEq] at h
    exact h ▸ Reach.refl
  | cons i is ih =>
    rw [runList] at h
    split at h
    · rename_i hi
      obtain ⟨u, hu, hrest⟩ := Option.bind_eq_some_iff.mp h
      exact Relation.ReflTransGen.head ⟨i, hb s i hi, hu⟩ (ih hrest)
    · simp at h

end VanetTdma.GuardedRun
