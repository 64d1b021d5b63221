import VanetTdma.Lib.Clocked

/-!
# What a run sees

A clocked machine that walks over a table looks at one place after the other.  `look` says what is looked at in a
state, `seen` lists what a run looks at in its first cycles, and `Visits l` is progress (`Clocked.Leads`) during
which exactly the list `l` is seen.

* `Visits.trans` — the lists of consecutive walks are appended;
* `Visits.exists_trace` — the walk on a given input stream, which has to be in order only as long as the walk
  lasts;
* `Visits.range'` — a walk over consecutive numbers.
-/

namespace VanetTdma.Clocked

variable {σ ι α : Type*}

/-- What is looked at in the first `n` cycles. -/
def seen (look : σ → Option α) (tick : σ → ι → σ) (inp : ℕ → ι) (s : σ) (n : ℕ) : List α :=
  (List.range n).filterMap fun m => look (trace tick inp s m)

/-- On every input stream in `ok` the run is in `R` until it reaches `P`, and it sees `l` on its way. -/
inductive Visits (look : σ → Option α) (tick : σ → ι → σ) (ok : ι → Prop) (R P : σ → Prop) :
    List α → σ → Prop
  | here {s : σ} (hP : P s) : Visits look tick ok R P [] s
  | step {s : σ} {l : List α} (hR : R s) (h : ∀ i, ok i → Visits look tick ok R P l (tick s i)) :
      Visits look tick ok R P ((look s).toList ++ l) s

section Visits

variable {look : σ → Option α} {tick : σ → ι → σ} {ok : ι → Prop} {R P Q : σ → Prop} {l l' : List α} {s : σ}

/-- **Walks compose.** -/
theorem Visits.trans (h : Visits look tick ok R P l s) (hPQ : ∀ t, P t → Visits look tick ok R Q l' t) :
    Visits look tick ok R Q (l ++ l') s := by
  induction h with
  | here hP => exact hPQ _ hP
  | step hR _ ih =>
    rw [List.append_assoc]
    exact Visits.step hR ih

theorem Visits.blind (hlook : look s = none) (hR : R s)
    (h : ∀ i, ok i → Visits look tick ok R P l (tick s i)) : Visits look tick ok R P l s := by
  have hstep := Visits.step hR h
  rw [hlook] at hstep
  exact hstep

theorem Visits.sees {a : α} (hlook : look s = some a) (hR : R s)
    (h : ∀ i, ok i → Visits look tick ok R P l (tick s i)) : Visits look tick ok R P (a :: l) s := by
  have hstep := Visits.step hR h
  rw [hlook] at hstep
  exact hstep

theorem Visits.range' {look : σ → Option ℕ} {At : ℕ → σ → Prop} {len a d : ℕ}
    (hone : ∀ b t, b < len → At b t → Visits look tick ok R (At (b + 1)) [b] t) (h : At a s) (hd : len = a + d) :
    Visits look tick ok R (At len) (List.range' a d) s := by
  induction d generalizing a s with
  | zero =>
    rw [Nat.add_zero] at hd
    rw [hd]
    exact Visits.here h
  | succ d ih => exact (hone a s (by omega) h).trans fun t ht => ih ht (by omega)

theorem seen_succ (inp : ℕ → ι) (n : ℕ) :
    seen look tick inp s (n + 1)
      = (look s).toList ++ seen look tick (fun k => inp (k + 1)) (tick s (inp 0)) n := by
  have hshift : ∀ m, trace tick inp s (m + 1) = trace tick (fun k => inp (k + 1)) (tick s (inp 0)) m :=
    fun m => trace_succ' m
  unfold seen
  rw [List.range_succ_eq_map, List.filterMap_cons, List.filterMap_map]
  simp only [Function.comp_def, hshift]
  cases hlook : look s with
  | none => simp [trace, hlook]
  | some a => simp [trace, hlook]

/-- **The walk on an input stream** that is in order as long as the walk lasts. -/
theorem Visits.exists_trace (h : Visits look tick ok R P l s) (inp : ℕ → ι)
    (hok : ∀ k, (∀ m ≤ k, R (trace tick inp s m)) → ok (inp k)) :
    ∃ n, P (trace tick inp s n) ∧ (∀ m < n, R (trace tick inp s m)) ∧ seen look tick inp s n = l := by
  induction h generalizing inp with
  | here hP => exact ⟨0, hP, fun m hm => absurd hm (Nat.not_lt_zero m), rfl⟩
  | @step s l hR _ ih =>
    have hzero : ok (inp 0) := by
      refine hok 0 fun m hm => ?_
      rw [Nat.le_zero.mp hm]
      exact hR
    have htail : ∀ k, (∀ m ≤ k, R (trace tick (fun k => inp (k + 1)) (tick s (inp 0)) m)) →
        ok (inp (k + 1)) := by
      intro k hk
      refine hok (k + 1) fun m hm => ?_
      cases m with
      | zero => exact hR
      | succ m =>
        rw [trace_succ']
        exact hk m (Nat.le_of_succ_le_succ hm)
    obtain ⟨n, hP, hlt, hseen⟩ := ih (inp 0) hzero (fun k => inp (k + 1)) htail
    refine ⟨n + 1, by rwa [trace_succ'], ?_, by rw [seen_succ, hseen]⟩
    intro m hm
    cases m with
    | zero => exact hR
    | succ m =>
      rw [trace_succ']
      exact hlt m (Nat.lt_of_succ_lt_succ hm)

theorem trace_stays (hR : R s) (hclosed : ∀ t i, R t → ok i → R (tick t i)) {inp : ℕ → ι}
    (hok : ∀ k, (∀ m ≤ k, R (trace tick inp s m)) → ok (inp k)) (n : ℕ) : R (trace tick inp s n) := by
  have hall : ∀ m ≤ n, R (trace tick inp s m) := by
    induction n with
    | zero =>
      intro m hm
      rw [Nat.le_zero.mp hm]
      exact hR
    | succ n ih =>
      intro m hm
      rcases Nat.lt_or_ge m (n + 1) with hlt | hge
      · exact ih m (Nat.le_of_lt_succ hlt)
      · rw [Nat.le_antisymm hm hge]
        exact hclosed _ _ (ih n (Nat.le_refl n)) (hok n ih)
  exact hall n (Nat.le_refl n)

end Visits

section Part

variable {τ κ : Type*} {tick : σ → ι → σ} {inp : ℕ → ι} {s : σ} {tick' : τ → κ → τ}
variable {look : τ → Option α} {ok : κ → Prop} {R P : τ → Prop} {l : List α}
variable (part : σ → τ) (feed : σ → ι → κ) (hpart : ∀ t i, part (tick t i) = tick' (part t) (feed t i))

include hpart

theorem trace_part (n : ℕ) :
    part (trace tick inp s n) = trace tick' (fun k => feed (trace tick inp s k) (inp k)) (part s) n := by
  induction n with
  | zero => rfl
  | succ n ih =>
    change part (tick (trace tick inp s n) (inp n)) = tick' _ _
    rw [hpart, ih]

/-- **The walk of a part of a machine.** -/
theorem Visits.exists_part (h : Visits look tick' ok R P l (part s))
    (hok : ∀ k, (∀ m ≤ k, R (part (trace tick inp s m))) → ok (feed (trace tick inp s k) (inp k))) :
    ∃ n, P (part (trace tick inp s n)) ∧ (∀ m < n, R (part (trace tick inp s m)))
      ∧ seen (fun t => look (part t)) tick inp s n = l := by
  have hrun : ∀ n, part (trace tick inp s n) = _ := trace_part part feed hpart
  unfold seen
  simp only [hrun] at hok ⊢
  exact h.exists_trace _ hok

theorem part_stays (hR : R (part s)) (hclosed : ∀ t i, R t → ok i → R (tick' t i))
    (hok : ∀ k, (∀ m ≤ k, R (part (trace tick inp s m))) → ok (feed (trace tick inp s k) (inp k))) (n : ℕ) :
    R (part (trace tick inp s n)) := by
  have hrun : ∀ n, part (trace tick inp s n) = _ := trace_part part feed hpart
  simp only [hrun] at hok ⊢
  exact trace_stays hR hclosed hok n

end Part

end VanetTdma.Clocked
