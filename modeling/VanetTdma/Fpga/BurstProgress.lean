import VanetTdma.Lib.Progress
import VanetTdma.Fpga.BurstPort

/-!
# The burst bus comes to the end of a transaction

A transaction on the burst bus waits for the AXI master in several places and counts the words of a burst.  If the
master answers again and again, each transaction of a known type comes to its end.

* `BurstBus.toGo_tick` — what is still to be done falls with each answer that is waited for;
* `BurstBus.Answered.exists_reporting` — a transaction comes to its end;
* `BurstBus.Answered.exists_idle` — the bus is free again and again.
-/

namespace VanetTdma.Fpga

open SharedBus

def BurstReq.TypeOk (t : BitVec 3) : Prop :=
  t = burstRd ∨ t = burstWr ∨ t = setZero ∨ t = singleRd ∨ t = singleWr ∨ t = calDescCks

/-- The answer of the AXI master that a state waits for. -/
def BurstState.waits (i : BurstBusIn) : BurstState → Bool
  | .burstRdWait | .calCksWait | .singleRdWait | .burstWrWait | .setzeroWait | .singleWrWait => i.cmdack
  | .burstRdRcvEnd | .calCksRdRcvEnd | .singleRdEnd | .burstWrEnd | .serzeroEnd | .singleWrWr1 => i.cmplt
  | .burstRdRcv | .calCksRdRcv | .singleRdRcv => !i.mstrdSrcRdyN
  | .burstWr | .setzeroStart | .setzeroLast | .singleWrWr => !i.mstwrDstRdyN
  | _ => true

namespace BurstBus

open BurstReq

/-- What is still to be done.  The beat counters run to their bounds modulo `2 ^ 13`. -/
def toGo (b : BurstBus) : ℕ :=
  match b.state with
  | .idle => 90000
  | .dispatch => 80000
  | .burstRdWait | .calCksWait => 30000
  | .burstRdRcv | .calCksRdRcv => 10000 + (b.readBeatLength.toNat - b.readBeatIdx.toNat)
  | .burstRdRcvEnd | .calCksRdRcvEnd => 1
  | .singleRdWait => 4
  | .singleRdRcv => 3
  | .singleRdRcv1 => 2
  | .singleRdEnd => 1
  | .singleWrWait => 3
  | .singleWrWr => 2
  | .singleWrWr1 => 1
  | .burstWrPreStart => 70000
  | .burstWrPreSetaddr => 30000 + 3 * (b.writeBeatLength - (b.wrBeatIdx + 1)).toNat + 2
  | .burstWrPreWait => 30000 + 3 * (b.writeBeatLength - b.wrBeatIdx).toNat + 1
  | .burstWrPreRd2fifo => 30000 + 3 * (b.writeBeatLength - b.wrBeatIdx).toNat
  | .burstWrStart => 20001
  | .burstWrWait => 20000
  | .burstWr => 10000 + (b.writeBeatLength - b.wrBeatIdx).toNat
  | .burstWrEnd => 1
  | .setzeroWait => 20000
  | .setzeroStart => 10000 + (b.writeBeatLength - 2 - b.wrBeatIdx).toNat
  | .setzeroLast => 2
  | .serzeroEnd => 1
  | _ => 0

/-- The bus is not stopped by a transaction that it does not know. -/
structure Sound (b : BurstBus) : Prop where
  type : b.dispatchState ≠ .idle → TypeOk b.ipicType
  state : b.state ≠ .error

variable {b : BurstBus} {i : BurstBusIn} {w : Requester}

theorem toNat_sub_succ {x y : BitVec 13} (h : y ≠ x) : (x - (y + 1)).toNat + 1 = (x - y).toNat := by
  bv_omega

/-- **What is still to be done falls with each answer that is waited for**, and does not rise in between. -/
theorem toGo_tick (hserv : b.dispatchState = .serving) (hdone : b.ipicDone = false)
    (hstart : b.state = .idle → b.ipicStart = true) (htype : TypeOk b.ipicType) (hend : b.state.isEnd = false)
    (herr : b.state ≠ .error) :
    (b.tick i).toGo < b.toGo
      ∨ (b.tick i).toGo = b.toGo ∧ b.state.waits i = false ∧ (b.tick i).state = b.state := by
  rw [tick_serving hserv hdone]
  unfold nextIpicState
  cases hst : b.state with
  | idle =>
    rw [if_pos (hstart hst)]
    exact Or.inl (by simp [toGo, enter, hst])
  | dispatch =>
    left
    rcases htype with ht | ht | ht | ht | ht | ht <;> rw [ht] <;> simp [toGo, enter, hst, burstRd, burstWr, setZero,
      singleRd, singleWr, calDescCks]
  | burstRdWait | calCksWait | singleRdWait | burstWrWait | setzeroWait | singleWrWait =>
    cases hc : i.cmdack with
    | false => exact Or.inr (by simp [toGo, enter, hst, BurstState.waits, hc])
    | true =>
      left
      have hrd := b.readBeatLength.isLt
      simp only [if_true, toGo, enter, hst]
      omega
  | burstRdRcvEnd | calCksRdRcvEnd | singleRdEnd | burstWrEnd | serzeroEnd | singleWrWr1 =>
    cases hc : i.cmplt with
    | false => exact Or.inr (by simp [toGo, enter, hst, BurstState.waits, hc])
    | true => exact Or.inl (by simp [toGo, enter, hst])
  | burstRdRcv | calCksRdRcv =>
    dsimp only
    split
    · rename_i hlt
      cases hc : i.mstrdSrcRdyN with
      | true => exact Or.inr (by simp [toGo, enter, hst, BurstState.waits, hc])
      | false =>
        left
        simp only [toGo, enter, hst, hc, Bool.false_eq_true, if_false]
        bv_omega
    · left
      simp only [toGo, enter, hst]
      omega
  | singleRdRcv =>
    cases hc : i.mstrdSrcRdyN with
    | true => exact Or.inr (by simp [toGo, enter, hst, BurstState.waits, hc])
    | false => exact Or.inl (by simp [toGo, enter, hst])
  | setzeroLast | singleWrWr =>
    cases hc : i.mstwrDstRdyN with
    | true => exact Or.inr (by simp [toGo, enter, hst, BurstState.waits, hc])
    | false => exact Or.inl (by simp [toGo, enter, hst])
  | singleRdRcv1 | burstWrStart => exact Or.inl (by simp [toGo, enter, hst])
  | burstWrPreStart =>
    left
    simp only [toGo, enter, hst]
    omega
  | burstWrPreSetaddr =>
    left
    simp only [toGo, enter, hst]
    omega
  | burstWrPreWait =>
    left
    simp only [toGo, enter, hst]
    omega
  | burstWrPreRd2fifo =>
    left
    dsimp only
    split
    · simp only [toGo, enter, hst]
      omega
    · have hsucc := toNat_sub_succ ‹_›
      simp only [toGo, enter, hst]
      omega
  | burstWr =>
    dsimp only
    split
    · left
      simp only [toGo, enter, hst]
      omega
    · have hsucc := toNat_sub_succ ‹_›
      cases hc : i.mstwrDstRdyN with
      | true => exact Or.inr (by simp [toGo, enter, hst, BurstState.waits, hc])
      | false =>
        left
        simp only [toGo, enter, hst, hc, Bool.false_eq_true, if_false]
        omega
  | setzeroStart =>
    dsimp only
    split
    · left
      simp only [toGo, enter, hst]
      omega
    · have hsucc := toNat_sub_succ ‹_›
      cases hc : i.mstwrDstRdyN with
      | true => exact Or.inr (by simp [toGo, enter, hst, BurstState.waits, hc])
      | false =>
        left
        simp only [toGo, enter, hst, hc, Bool.false_eq_true, if_false]
        omega
  | burstRdEnd | calCksRdEnd | singleRdEnd2 | burstWrEnd2 | serzeroEnd2 | singleWrEnd =>
    rw [hst] at hend
    exact Bool.noConfusion hend
  | error => exact absurd hst herr

/-- The bus is in the midst of a transaction that it knows. -/
structure Midst (b : BurstBus) : Prop where
  serving : b.dispatchState = .serving
  notDone : b.ipicDone = false
  notIdle : b.state ≠ .idle
  notEnd : b.state.isEnd = false
  notError : b.state ≠ .error
  type : TypeOk b.ipicType

theorem Ported.midst (h : Ported b) (hidle : b.state ≠ .idle) (hend : b.state.isEnd = false)
    (herr : b.state ≠ .error) (htype : TypeOk b.ipicType) : b.Midst := by
  cases h.phase with
  | rest _ _ hst | started _ _ hst | reported _ _ hst => exact absurd hst hidle
  | working hd _ _ _ hdone => exact ⟨hd, hdone, hidle, hend, herr, htype⟩
  | ended _ _ hend' =>
    rw [hend] at hend'
    cases hend'

theorem nextIpicState_ne_error (htype : TypeOk b.ipicType) (hst : b.state ≠ .error) :
    b.nextIpicState i ≠ .error := by
  unfold nextIpicState
  cases h : b.state with
  | error => exact absurd h hst
  | dispatch =>
    dsimp only
    rcases htype with ht | ht | ht | ht | ht | ht <;> rw [ht] <;> decide
  | _ => dsimp only; (try split) <;> nofun

@[simp] theorem enter_ipicType (b b' : BurstBus) (st : BurstState) : (enter i b b' st).ipicType = b'.ipicType := by
  cases st <;> rfl

theorem Sound.tick (hs : Sound b) (h : Ported b) (htc : i.tc.start = true → TypeOk i.tc.ipicType)
    (hdp : i.dp.start = true → TypeOk i.dp.ipicType) : Sound (b.tick i) := by
  cases h.phase with
  | rest hd hstart hst =>
    rw [tick_rest hstart hst]
    refine ⟨fun hd' => ?_, BurstState.noConfusion⟩
    simp only [dispatch, hd] at hd' ⊢
    by_cases htcs : i.tc.start = true
    · rw [if_pos htcs]
      exact htc htcs
    · rw [if_neg htcs] at hd' ⊢
      by_cases hdps : i.dp.start = true
      · rw [if_pos hdps]
        exact hdp hdps
      · rw [if_neg hdps] at hd'
        exact absurd hd hd'
  | started hd _ _ hdone | working hd _ _ _ hdone =>
    have htype := hs.type (by rw [hd]; decide)
    obtain ⟨-, -, -, -, hst', -⟩ := tick_serving_keeps (i := i) hd hdone
    refine ⟨fun _ => ?_, by rw [hst']; exact nextIpicState_ne_error htype hs.state⟩
    rw [tick_serving hd hdone, enter_ipicType]
    exact htype
  | ended hd hstart hend hdone =>
    rw [tick_ended hd hdone hend]
    exact ⟨fun _ => hs.type (by rw [hd]; decide), BurstState.noConfusion⟩
  | reported hd hstart hst =>
    rw [tick_reported hd hstart hst]
    exact ⟨fun hd' => absurd rfl hd', BurstState.noConfusion⟩

/-- A run of the bus on which the AXI master answers again and again. -/
structure Answered (f : ℕ → BurstBus) (inp : ℕ → BurstBusIn) : Prop where
  tick : ∀ n, f (n + 1) = (f n).tick (inp n)
  ported : ∀ n, (f n).Ported
  sound : ∀ n, (f n).Sound
  answer : ∀ st n, ∃ m, n ≤ m ∧ BurstState.waits (inp m) st = true

section Run

variable {f : ℕ → BurstBus} {inp : ℕ → BurstBusIn} {n : ℕ}

/-- **A state that a transaction cannot avoid is reached** if the AXI master goes on answering: as long as it is not,
the bus stays in the midst of the transaction, whatever else is known of the run. -/
theorem exists_state {σ : Type*} {s : ℕ → σ} {bus : σ → BurstBus} {U : σ → Prop} {e : BurstState}
    (hrun : ∀ n, bus (s (n + 1)) = (bus (s n)).tick (inp n))
    (hanswer : ∀ st n, ∃ m, n ≤ m ∧ BurstState.waits (inp m) st = true)
    (hU : ∀ n, U (s n) → (bus (s n)).state ≠ e → (bus (s n)).Midst ∧ U (s (n + 1))) (hn : U (s n)) :
    ∃ m, n ≤ m ∧ (bus (s m)).state = e := by
  by_cases hnow : (bus (s n)).state = e
  · exact ⟨n, Nat.le_refl n, hnow⟩
  refine exists_of_rank (P := fun t => U t ∧ (bus t).state ≠ e) (Q := fun t => (bus t).state = e)
    (fun t => (bus t).toGo) (fun t i => BurstState.waits i (bus t).state) ?_
    (fun t n => hanswer (bus t).state n) ⟨hn, hnow⟩
  rintro n ⟨h, hne⟩
  obtain ⟨hmid, hnext⟩ := hU n h hne
  by_cases hend : (bus (s (n + 1))).state = e
  · exact Or.inl hend
  · refine Or.inr ⟨⟨hnext, hend⟩, ?_⟩
    rw [hrun]
    rcases toGo_tick (i := inp n) hmid.serving hmid.notDone (fun hst => absurd hst hmid.notIdle) hmid.type
      hmid.notEnd hmid.notError with hlt | ⟨heq, hwait, hsame⟩
    · exact Or.inl hlt
    · exact Or.inr ⟨heq, hwait, congrArg (fun st i => BurstState.waits i st) hsame⟩

/-- The bus works for side `w`. -/
def Serves (w : Requester) (b : BurstBus) : Prop := b.dispatchState = .serving ∧ b.dispatchType = w

/-- The bus reports to side `w`. -/
def Reports (w : Requester) (b : BurstBus) : Prop := b.dispatchState = .reporting ∧ b.dispatchType = w

theorem Answered.serves_succ (h : Answered f inp) (n : ℕ) (hn : (f n).Serves w) :
    (f (n + 1)).Reports w ∨ (f (n + 1)).Serves w ∧ ((f (n + 1)).toGo < (f n).toGo
      ∨ (f (n + 1)).toGo = (f n).toGo ∧ BurstState.waits (inp n) (f n).state = false
        ∧ (f (n + 1)).state = (f n).state) := by
  obtain ⟨hserv, hw⟩ := hn
  have htype := (h.sound n).type (by rw [hserv]; nofun)
  rw [h.tick n]
  cases (h.ported n).phase with
  | rest hd => exact nomatch hd.symm.trans hserv
  | started hd hstart hst hdone =>
    obtain ⟨htype', hd', -⟩ := tick_serving_keeps (i := inp n) hd hdone
    exact Or.inr ⟨⟨hd', htype'.trans hw⟩,
      toGo_tick hd hdone (fun _ => hstart) htype (by rw [hst]; rfl) (h.sound n).state⟩
  | working hd hstart hidle hend hdone =>
    obtain ⟨htype', hd', -⟩ := tick_serving_keeps (i := inp n) hd hdone
    exact Or.inr ⟨⟨hd', htype'.trans hw⟩,
      toGo_tick hd hdone (fun hst => absurd hst hidle) htype hend (h.sound n).state⟩
  | ended hd hstart hend hdone =>
    rw [tick_ended hd hdone hend]
    exact Or.inl ⟨rfl, hw⟩
  | reported hd => exact nomatch hd.symm.trans hserv

/-- **A transaction comes to its end.** -/
theorem Answered.exists_reporting (h : Answered f inp) (hn : (f n).Serves w) : ∃ m, n ≤ m ∧ (f m).Reports w := by
  refine exists_of_rank (P := Serves w) (Q := Reports w) toGo (fun b i => BurstState.waits i b.state) (fun n hn => ?_)
    (fun b n => h.answer b.state n) hn
  rcases h.serves_succ n hn with hrep | ⟨hserv, hlt | ⟨heq, hwait, hst⟩⟩
  · exact Or.inl hrep
  · exact Or.inr ⟨hserv, Or.inl hlt⟩
  · exact Or.inr ⟨hserv, Or.inr ⟨heq, hwait, by rw [hst]⟩⟩

theorem Answered.idle_succ (h : Answered f inp) (hrep : (f n).dispatchState = .reporting) :
    (f (n + 1)).dispatchState = .idle := by
  rw [h.tick n]
  cases (h.ported n).phase with
  | reported hd hs hst => rw [tick_reported hd hs hst]
  | rest hd => exact nomatch hd.symm.trans hrep
  | started hd => exact nomatch hd.symm.trans hrep
  | working hd => exact nomatch hd.symm.trans hrep
  | ended hd => exact nomatch hd.symm.trans hrep

/-- **The bus is free again and again.** -/
theorem Answered.exists_idle (h : Answered f inp) (n : ℕ) : ∃ m, n ≤ m ∧ (f m).dispatchState = .idle := by
  cases hn : (f n).dispatchState with
  | idle => exact ⟨n, Nat.le_refl n, hn⟩
  | serving =>
    obtain ⟨m, hle, hrep, -⟩ := h.exists_reporting ⟨hn, rfl⟩
    exact ⟨m + 1, by omega, h.idle_succ hrep⟩
  | reporting => exact ⟨n + 1, by omega, h.idle_succ hn⟩

/-- **The bus is free for DP again and again** if TC gives way after each of its transactions. -/
theorem Answered.exists_idle_dp (h : Answered f inp)
    (hyield : ∀ n, (f n).Reports .tc → (inp (n + 1)).tc.start = false) (n : ℕ) :
    ∃ m, n ≤ m ∧ (f m).dispatchState = .idle ∧ (inp m).tc.start = false := by
  obtain ⟨m, hle, hm⟩ := h.exists_idle n
  cases hstart : (inp m).tc.start with
  | false => exact ⟨m, hle, hm, hstart⟩
  | true =>
    -- the request of TC is served now; after it TC gives way
    have hserves : (f (m + 1)).Serves .tc := by
      rw [h.tick m]
      cases (h.ported m).phase with
      | rest hd hs hst =>
        rw [tick_rest hs hst, dispatch, hd]
        dsimp only
        rw [if_pos hstart]
        exact ⟨rfl, rfl⟩
      | started hd => exact DispatchState.noConfusion (hd.symm.trans hm)
      | working hd => exact DispatchState.noConfusion (hd.symm.trans hm)
      | ended hd => exact DispatchState.noConfusion (hd.symm.trans hm)
      | reported hd => exact DispatchState.noConfusion (hd.symm.trans hm)
    obtain ⟨m', hle', hrep⟩ := h.exists_reporting hserves
    exact ⟨m' + 1, by omega, h.idle_succ hrep.1, hyield m' hrep⟩

end Run

end BurstBus

end VanetTdma.Fpga
