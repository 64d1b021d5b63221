import Mathlib.Logic.Function.Iterate
import Mathlib.Tactic.Common

/-!
# Synchronous machines

A clocked design is a total function `tick : σ → ι → σ`: the registers after the edge from the
registers and the inputs before it.  `trace tick inp s` is the run from `s` on the input stream `inp`.

While a machine is busy it often ignores its inputs, and it then runs as the iterates of one function
`next`.  `Until next R P s` says that this run reaches a state in `P` and is in `R` until then:

* `Until.trans`, `Until.step` — how such progress statements compose;
* `Until.stuck` — once the run is inside a closed set in `R`, it is in `R` for ever;
* `Leads tick ok R P s` — the same on every input stream that meets `ok`;
* `trace_eq_iterate`, `trace_of_always` — both read as statements about `trace`;
* `trace_invariant` — the invariant rule for runs whose every cycle meets a condition;
* `Comes` — progress of one run, cycle by cycle.
-/

namespace VanetTdma.Clocked

variable {σ ι : Type*}

/-- The state after `n` cycles on the input stream `inp`. -/
def trace (tick : σ → ι → σ) (inp : ℕ → ι) (s : σ) : ℕ → σ
  | 0 => s
  | n + 1 => tick (trace tick inp s n) (inp n)

/-- The run that is in `R` until it reaches `P`. -/
inductive Until (next : σ → σ) (R P : σ → Prop) : σ → Prop
  | here {s : σ} (hP : P s) : Until next R P s
  | step {s : σ} (hR : R s) (h : Until next R P (next s)) : Until next R P s

/-- What goes on until a signal comes has gone on to a later cycle, or the signal came before it. -/
theorem lasts_or_exists {P c : ℕ → Prop} {n m : ℕ} (hstay : ∀ k, n ≤ k → P k → ¬ c k → P (k + 1)) (hP : P n)
    (hnm : n ≤ m) :
    (∀ k, n ≤ k → k ≤ m → P k) ∨ ∃ a, n ≤ a ∧ a < m ∧ c a ∧ ∀ k, n ≤ k → k ≤ a → P k := by
  induction hnm with
  | refl =>
    refine Or.inl fun k hnk hkn => ?_
    rwa [Nat.le_antisymm hkn hnk]
  | @step m hnm ih =>
    rcases ih with hall | ⟨a, hna, ham, hc, hall⟩
    · by_cases hc : c m
      · exact Or.inr ⟨m, hnm, Nat.lt_succ_self m, hc, hall⟩
      · refine Or.inl fun k hnk hk => ?_
        rcases Nat.le_or_eq_of_le_succ hk with hle | rfl
        · exact hall k hnk hle
        · exact hstay m hnm (hall m hnm (Nat.le_refl m)) hc
    · exact Or.inr ⟨a, hna, Nat.lt_succ_of_lt ham, hc, hall⟩

/-- From cycle `n` on the run is in `R` until it comes to `P`. -/
def Comes (run : ℕ → σ) (R P : σ → Prop) (n : ℕ) : Prop :=
  ∃ m, n ≤ m ∧ P (run m) ∧ ∀ k, n ≤ k → k < m → R (run k)

section Comes

variable {run : ℕ → σ} {R P Q : σ → Prop} {n : ℕ}

theorem Comes.here (h : P (run n)) : Comes run R P n :=
  ⟨n, Nat.le_refl n, h, fun _ hnk hkn => absurd hnk (Nat.not_le_of_lt hkn)⟩

theorem Comes.step (hR : R (run n)) (h : Comes run R P (n + 1)) : Comes run R P n := by
  obtain ⟨m, hnm, hP, hway⟩ := h
  refine ⟨m, Nat.le_of_succ_le hnm, hP, fun k hnk hkm => ?_⟩
  rcases Nat.eq_or_lt_of_le hnk with rfl | hlt
  · exact hR
  · exact hway k hlt hkm

theorem Comes.trans (h : Comes run R P n) (hPQ : ∀ m, P (run m) → Comes run R Q m) : Comes run R Q n := by
  obtain ⟨m, hnm, hP, hway⟩ := h
  obtain ⟨l, hml, hQ, hon⟩ := hPQ m hP
  refine ⟨l, Nat.le_trans hnm hml, hQ, fun k hnk hkl => ?_⟩
  by_cases hkm : k < m
  · exact hway k hnk hkm
  · exact hon k (Nat.le_of_not_lt hkm) hkl

/-- A run that waits for a signal, which comes, comes to what the signal leads to. -/
theorem Comes.of_signal {W : σ → Prop} {c : ℕ → Prop} (hstay : ∀ k, W (run k) → ¬ c k → W (run (k + 1)))
    (hWR : ∀ t, W t → R t) (hgo : ∀ k, W (run k) → c k → Comes run R P (k + 1)) (hW : W (run n))
    (hsignal : ∃ m, n ≤ m ∧ c m) : Comes run R P n := by
  obtain ⟨m, hnm, hm⟩ := hsignal
  obtain ⟨a, hna, ha, hwait⟩ : ∃ a, n ≤ a ∧ c a ∧ ∀ k, n ≤ k → k ≤ a → W (run k) := by
    rcases lasts_or_exists (P := fun k => W (run k)) (fun k _ => hstay k) hW hnm with hall | ⟨a, hna, -, ha, hwait⟩
    · exact ⟨m, hnm, hm, hall⟩
    · exact ⟨a, hna, ha, hwait⟩
  obtain ⟨l, hal, hP, hway⟩ := hgo a (hwait a hna (Nat.le_refl a)) ha
  refine ⟨l, Nat.le_trans hna (Nat.le_of_succ_le hal), hP, fun k hnk hkl => ?_⟩
  by_cases hka : k ≤ a
  · exact hWR _ (hwait k hnk hka)
  · exact hway k (Nat.lt_of_not_le hka) hkl

theorem Comes.of_first (h : Comes run R P n) (hPR : ∀ t, P t → ¬ R t) {m : ℕ} (hnm : n ≤ m) (hm : ¬ R (run m))
    (hway : ∀ k, n ≤ k → k < m → R (run k)) : P (run m) := by
  obtain ⟨l, hnl, hP, hon⟩ := h
  have heq : m = l := by
    refine Nat.le_antisymm (Nat.le_of_not_lt fun hlt => ?_) (Nat.le_of_not_lt fun hlt => ?_)
    · exact hPR _ hP (hway l hnl hlt)
    · exact hm (hon m hnm hlt)
  rw [heq]
  exact hP

end Comes

section Progress

variable {next : σ → σ} {R P Q : σ → Prop} {s : σ}

/-- **Progress composes.** -/
theorem Until.trans (h : Until next R P s) (hPQ : ∀ t, P t → Until next R Q t) :
    Until next R Q s := by
  induction h with
  | here hP => exact hPQ _ hP
  | step hR _ ih => exact Until.step hR ih

theorem Until.one (hR : R s) (hP : P (next s)) : Until next R P s :=
  Until.step hR (Until.here hP)

theorem Until.mono {R' : σ → Prop} (h : Until next R P s) (hR : ∀ t, R t → R' t) :
    Until next R' P s := by
  induction h with
  | here hP => exact Until.here hP
  | step hs _ ih => exact Until.step (hR _ hs) ih

theorem Until.exists_iterate (h : Until next R P s) :
    ∃ n, P (next^[n] s) ∧ ∀ m < n, R (next^[m] s) := by
  induction h with
  | here hP => exact ⟨0, hP, fun m hm => absurd hm (Nat.not_lt_zero m)⟩
  | step hR _ ih =>
    obtain ⟨n, hP, hlt⟩ := ih
    refine ⟨n + 1, by rwa [Function.iterate_succ_apply], ?_⟩
    intro m hm
    cases m with
    | zero => exact hR
    | succ m =>
      rw [Function.iterate_succ_apply]
      exact hlt m (Nat.lt_of_succ_lt_succ hm)

theorem iterate_mem_of_closed (hclosed : ∀ t, P t → P (next t)) (h : P s) (n : ℕ) :
    P (next^[n] s) := by
  induction n with
  | zero => exact h
  | succ n ih =>
    rw [Function.iterate_succ_apply']
    exact hclosed _ ih

/-- **A run that is caught stays in `R`.** -/
theorem Until.stuck (h : Until next R P s) (hclosed : ∀ t, P t → P (next t))
    (hPR : ∀ t, P t → R t) (n : ℕ) : R (next^[n] s) := by
  obtain ⟨k, hk, hlt⟩ := h.exists_iterate
  by_cases hn : n < k
  · exact hlt n hn
  · have hmem := iterate_mem_of_closed hclosed hk (n - k)
    rw [← Function.iterate_add_apply, Nat.sub_add_cancel (Nat.le_of_not_lt hn)] at hmem
    exact hPR _ hmem

end Progress

/-- On every input stream in `ok` the run is in `R` until it reaches `P`. -/
inductive Leads (tick : σ → ι → σ) (ok : ι → Prop) (R P : σ → Prop) : σ → Prop
  | here {s : σ} (hP : P s) : Leads tick ok R P s
  | step {s : σ} (hR : R s) (h : ∀ i, ok i → Leads tick ok R P (tick s i)) : Leads tick ok R P s

section Trace

variable {tick : σ → ι → σ} {next : σ → σ} {R P : σ → Prop} {inp : ℕ → ι} {s : σ}

theorem trace_succ' (n : ℕ) :
    trace tick inp s (n + 1) = trace tick (fun k => inp (k + 1)) (tick s (inp 0)) n := by
  induction n with
  | zero => rfl
  | succ n ih => exact congrArg (fun t => tick t (inp (n + 1))) ih

/-- **Progress on all inputs composes.** -/
theorem Leads.trans {ok : ι → Prop} {Q : σ → Prop} (h : Leads tick ok R P s)
    (hPQ : ∀ t, P t → Leads tick ok R Q t) : Leads tick ok R Q s := by
  induction h with
  | here hP => exact hPQ _ hP
  | step hR _ ih => exact Leads.step hR ih

theorem Leads.one {ok : ι → Prop} (hR : R s) (hP : ∀ i, ok i → P (tick s i)) :
    Leads tick ok R P s :=
  Leads.step hR fun i hi => Leads.here (hP i hi)

theorem Leads.exists_trace {ok : ι → Prop} (h : Leads tick ok R P s) (inp : ℕ → ι)
    (hok : ∀ n, ok (inp n)) :
    ∃ n, P (trace tick inp s n) ∧ ∀ m < n, R (trace tick inp s m) := by
  induction h generalizing inp with
  | here hP => exact ⟨0, hP, fun m hm => absurd hm (Nat.not_lt_zero m)⟩
  | step hR _ ih =>
    obtain ⟨n, hP, hlt⟩ := ih (inp 0) (hok 0) (fun k => inp (k + 1)) fun k => hok (k + 1)
    refine ⟨n + 1, by rwa [trace_succ'], ?_⟩
    intro m hm
    cases m with
    | zero => exact hR
    | succ m =>
      rw [trace_succ']
      exact hlt m (Nat.lt_of_succ_lt_succ hm)

theorem trace_eq_iterate (inp : ℕ → ι) (hnext : ∀ t i, R t → tick t i = next t) {n : ℕ}
    (hR : ∀ m < n, R (next^[m] s)) : trace tick inp s n = next^[n] s := by
  induction n with
  | zero => rfl
  | succ n ih =>
    have hn := ih fun m hm => hR m (Nat.lt_succ_of_lt hm)
    rw [Function.iterate_succ_apply', ← hnext _ (inp n) (hR n (Nat.lt_succ_self n)), ← hn]
    rfl

theorem trace_of_always (hnext : ∀ t i, R t → tick t i = next t) (h : ∀ n, R (next^[n] s)) (n : ℕ) :
    R (trace tick inp s n) := by
  rw [trace_eq_iterate inp hnext fun m _ => h m]
  exact h n

/-- **The invariant rule.** -/
theorem trace_invariant {Inv : σ → Prop} {ok : σ → ι → Prop} (h₀ : Inv s)
    (hstep : ∀ t i, Inv t → ok t i → Inv (tick t i)) {n : ℕ}
    (hok : ∀ m < n, ok (trace tick inp s m) (inp m)) : Inv (trace tick inp s n) := by
  induction n with
  | zero => exact h₀
  | succ n ih =>
    have hn := ih fun m hm => hok m (Nat.lt_succ_of_lt hm)
    exact hstep _ _ hn (hok n (Nat.lt_succ_self n))

end Trace

end VanetTdma.Clocked
