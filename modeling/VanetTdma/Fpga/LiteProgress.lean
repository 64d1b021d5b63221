import VanetTdma.Fpga.LiteClients
import VanetTdma.Lib.Delivery
import VanetTdma.Lib.Progress

/-!
# No request on the lite bus is left waiting

`LiteRun` says what is carried out for the machines of `desc_processor` in every run.  Here it is shown that all that
they ask for is carried out if the AXI master answers and `tdma_control` gives way.

* `LiteBus.Answered.exists_reporting` — a transaction comes to its end;
* `DescProcessor.Order.tick` — IRQ is quiet while PIRQ or UR work for it, so that only TXFR competes with them;
* `LiteRun.Fair.exists_asking` — the arbiter comes to every machine that asks: after one transaction of TXFR, and after at
  most two in a row of IRQ;
* `LiteRun.executed_once` — the account of a run as a whole.
-/

namespace VanetTdma.Fpga

open SharedBus Clocked

/-! ### The bus comes to the end of a transaction -/

def IpicState.level : IpicState → ℕ
  | .idle => 0
  | .dispatch => 1
  | .singleRdWait | .singleWrWait => 2
  | .singleRdRcvWait | .singleWrWrWait => 3
  | .singleRdEnd | .singleWrEnd => 4
  | .error => 5

def LiteReq.TypeOk (t : BitVec 3) : Prop := t = singleRd ∨ t = singleWr

namespace LiteBus

open LiteReq

/-- The bus is not stopped by a transaction that it does not know. -/
structure Sound (b : LiteBus) : Prop where
  type : b.dispatchState ≠ .idle → TypeOk b.ipicType
  state : b.state ≠ .error

variable {b : LiteBus} {i : LiteBusIn}

@[simp] theorem enter_ipicType (b b' : LiteBus) (st : IpicState) : (enter b b' st).ipicType = b'.ipicType := by
  cases st <;> rfl

def levelNext (i : LiteBusIn) : ℕ → ℕ
  | 0 => 1
  | 1 => 2
  | 2 => if i.cmdack then 3 else 2
  | 3 => if i.cmplt then 4 else 3
  | l => l

theorem level_nextIpicState (hstart : b.state = .idle → b.ipicStart = true) (htype : TypeOk b.ipicType)
    (hlevel : b.state.level < 4) : (b.nextIpicState i).level = levelNext i b.state.level := by
  unfold nextIpicState
  cases hst : b.state with
  | idle => rw [if_pos (hstart hst)]; rfl
  | dispatch =>
    have hne : singleWr ≠ singleRd := by decide
    dsimp only
    rcases htype with htype | htype
    · rw [if_pos htype]; rfl
    · rw [htype, if_neg hne, if_pos rfl]; rfl
  | singleRdWait | singleWrWait => dsimp only [levelNext, IpicState.level]; cases i.cmdack <;> rfl
  | singleRdRcvWait | singleWrWrWait => dsimp only [levelNext, IpicState.level]; cases i.cmplt <;> rfl
  | singleRdEnd | singleWrEnd | error =>
    rw [hst] at hlevel
    exact absurd hlevel (by decide)

/-- **A transaction goes on**, and the dispatcher keeps it. -/
theorem level_tick (h : Ported b) (hs : Sound b) (hserv : b.dispatchState = .serving) (hlevel : b.state.level < 4) :
    (b.tick i).dispatchState = .serving ∧ (b.tick i).dispatchType = b.dispatchType
      ∧ (b.tick i).state.level = levelNext i b.state.level := by
  have htype := hs.type (by rw [hserv]; nofun)
  have hserving : b.ipicDone = false ∧ (b.state = .idle → b.ipicStart = true) := by
    cases h.phase with
    | rest hd => exact nomatch hd.symm.trans hserv
    | started hd hstart hst hdone => exact ⟨hdone, fun _ => hstart⟩
    | working hd hstart hidle hrd hwr hdone => exact ⟨hdone, fun h => absurd h hidle⟩
    | ended hd hstart hst hdone => rcases hst with hst | hst <;> rw [hst] at hlevel <;> exact absurd hlevel (by decide)
    | reported hd => exact nomatch hd.symm.trans hserv
  obtain ⟨htype', hd', -, -⟩ := tick_serving_keeps (i := i) hserv hserving.1
  refine ⟨hd', htype', ?_⟩
  rw [tick_serving hserv hserving.1, enter_state]
  exact level_nextIpicState hserving.2 htype hlevel

theorem reporting_tick (h : Ported b) (hserv : b.dispatchState = .serving) (hlevel : b.state.level = 4) :
    (b.tick i).dispatchState = .reporting ∧ (b.tick i).dispatchType = b.dispatchType := by
  have hend : b.state = .singleRdEnd ∨ b.state = .singleWrEnd := by
    cases hst : b.state <;> rw [hst] at hlevel <;> first | exact Or.inl rfl | exact Or.inr rfl | exact nomatch hlevel
  cases h.phase with
  | rest hd => exact nomatch hd.symm.trans hserv
  | started hd hstart hst hdone => rw [hst] at hlevel; exact nomatch hlevel
  | working hd hstart hidle hrd hwr hdone => exact absurd hend (not_or.mpr ⟨hrd, hwr⟩)
  | ended hd hstart hst hdone => rw [tick_ended hd hdone hst]; exact ⟨rfl, rfl⟩
  | reported hd => exact nomatch hd.symm.trans hserv

theorem state_of_not_serving (h : Ported b) (hserv : b.dispatchState ≠ .serving) : (b.tick i).state = .idle := by
  cases h.phase with
  | rest hd hs hst => rw [tick_rest hd hs hst]
  | started hd => exact absurd hd hserv
  | working hd => exact absurd hd hserv
  | ended hd => exact absurd hd hserv
  | reported hd hs hst => rw [tick_reported hd hs hst]

theorem nextIpicState_ne_error (htype : TypeOk b.ipicType) (hst : b.state ≠ .error) :
    b.nextIpicState i ≠ .error := by
  unfold nextIpicState
  cases h : b.state with
  | error => exact absurd h hst
  | dispatch =>
    have hne : singleWr ≠ singleRd := by decide
    dsimp only
    rcases htype with htype | htype
    · rw [if_pos htype]; nofun
    · rw [htype, if_neg hne, if_pos rfl]; nofun
  | _ => dsimp only; (try split) <;> nofun

theorem Sound.tick (hs : Sound b) (h : Ported b) (htc : i.tc.start = true → TypeOk i.tc.ipicType)
    (hdp : i.dp.start = true → TypeOk i.dp.ipicType) : Sound (b.tick i) := by
  by_cases hserv : b.dispatchState = .serving
  · have htype := hs.type (by rw [hserv]; decide)
    refine ⟨fun _ => ?_, ?_⟩
    · simp only [LiteBus.tick, enter_ipicType, dispatch, hserv]
      split <;> exact htype
    · rw [LiteBus.tick, enter_state]
      exact nextIpicState_ne_error htype hs.state
  · have hidle : (b.tick i).state = .idle := state_of_not_serving h hserv
    refine ⟨fun hd' => ?_, by rw [hidle]; decide⟩
    cases h.phase with
    | rest hd hstart hst =>
      rw [tick_rest hd hstart hst] at hd' ⊢
      by_cases htcs : i.tc.start = true
      · rw [if_pos htcs]
        exact htc htcs
      · rw [if_neg htcs] at hd' ⊢
        by_cases hdps : i.dp.start = true
        · rw [if_pos hdps]
          exact hdp hdps
        · rw [if_neg hdps] at hd'
          exact absurd hd hd'
    | started hd => exact absurd hd hserv
    | working hd => exact absurd hd hserv
    | ended hd => exact absurd hd hserv
    | reported hd hstart hst => rw [tick_reported hd hstart hst] at hd'; exact absurd rfl hd'

/-- A run of the bus on which the AXI master answers again and again. -/
structure Answered (f : ℕ → LiteBus) (inp : ℕ → LiteBusIn) : Prop where
  tick : ∀ n, f (n + 1) = (f n).tick (inp n)
  ported : ∀ n, (f n).Ported
  sound : ∀ n, (f n).Sound
  cmdack : ∀ n, ∃ m, n ≤ m ∧ (inp m).cmdack = true
  cmplt : ∀ n, ∃ m, n ≤ m ∧ (inp m).cmplt = true

/-- The bus serves `w`, and its transaction is at level `l`. -/
def Serves (w : Requester) (l : ℕ) (b : LiteBus) : Prop :=
  b.dispatchState = .serving ∧ b.dispatchType = w ∧ b.state.level = l

section Run

variable {f : ℕ → LiteBus} {inp : ℕ → LiteBusIn} {w : Requester} {l n : ℕ}

theorem Answered.serves_succ (h : Answered f inp) (hn : (f n).Serves w l) (hl : l < 4) :
    (f (n + 1)).Serves w (levelNext (inp n) l) := by
  obtain ⟨hserv, hw, hlevel⟩ := hn
  rw [← hlevel] at hl
  obtain ⟨hserv', hw', hlevel'⟩ := level_tick (i := inp n) (h.ported n) (h.sound n) hserv hl
  rw [h.tick n]
  exact ⟨hserv', hw'.trans hw, hlevel'.trans (congrArg _ hlevel)⟩

theorem Answered.exists_serves (h : Answered f inp) (hl : l < 4) {c : LiteBusIn → Bool}
    (hnext : ∀ i, levelNext i l = if c i then l + 1 else l) (hc : ∀ n, ∃ m, n ≤ m ∧ c (inp m) = true)
    (hn : (f n).Serves w l) : ∃ m, n ≤ m ∧ (f m).Serves w (l + 1) := by
  have hstep : ∀ m, n ≤ m → (f m).Serves w l → (f (m + 1)).Serves w l ∨ (f (m + 1)).Serves w (l + 1) := by
    intro m _ hm
    have hm' := h.serves_succ hm hl
    rw [hnext] at hm'
    split at hm'
    · exact Or.inr hm'
    · exact Or.inl hm'
  have hleave : ∃ m, n ≤ m ∧ ¬ (f m).Serves w l := by
    obtain ⟨m, hle, hcm⟩ := hc n
    by_cases hm : (f m).Serves w l
    · have hm' := h.serves_succ hm hl
      rw [hnext, if_pos hcm] at hm'
      exact ⟨m + 1, by omega, fun hm'' => absurd (hm'.2.2.symm.trans hm''.2.2) (by omega)⟩
    · exact ⟨m, hle, hm⟩
  obtain ⟨m, hle, hm, -⟩ := exists_of_leaves (P := fun m => (f m).Serves w l)
    (Q := fun m => (f m).Serves w (l + 1)) hstep hn hleave
  exact ⟨m + 1, by omega, hm⟩

theorem Answered.exists_last (h : Answered f inp) (hn : (f n).Serves w l) (hl : l ≤ 4) :
    ∃ m, n ≤ m ∧ (f m).Serves w 4 := by
  have h3 : ∀ n, (f n).Serves w 3 → ∃ m, n ≤ m ∧ (f m).Serves w 4 := fun n hn =>
    h.exists_serves (c := LiteBusIn.cmplt) (by omega) (fun _ => rfl) h.cmplt hn
  have h2 : ∀ n, (f n).Serves w 2 → ∃ m, n ≤ m ∧ (f m).Serves w 4 := by
    intro n hn
    obtain ⟨m, hle, hm⟩ := h.exists_serves (c := LiteBusIn.cmdack) (by omega) (fun _ => rfl) h.cmdack hn
    obtain ⟨m', hle', hm'⟩ := h3 m hm
    exact ⟨m', by omega, hm'⟩
  have h1 : ∀ n, (f n).Serves w 1 → ∃ m, n ≤ m ∧ (f m).Serves w 4 := by
    intro n hn
    obtain ⟨m, hle, hm⟩ := h2 (n + 1) (h.serves_succ hn (by omega))
    exact ⟨m, by omega, hm⟩
  match l, hl, hn with
  | 0, _, hn =>
    obtain ⟨m, hle, hm⟩ := h1 (n + 1) (h.serves_succ hn (by omega))
    exact ⟨m, by omega, hm⟩
  | 1, _, hn => exact h1 n hn
  | 2, _, hn => exact h2 n hn
  | 3, _, hn => exact h3 n hn
  | 4, _, hn => exact ⟨n, Nat.le_refl n, hn⟩

/-- **A transaction comes to its end.** -/
theorem Answered.exists_reporting (h : Answered f inp) (hserv : (f n).dispatchState = .serving) :
    ∃ m, n ≤ m ∧ (f m).dispatchState = .reporting ∧ (f m).dispatchType = (f n).dispatchType := by
  have hl : (f n).state.level ≤ 4 := by
    have herr := (h.sound n).state
    cases hst : (f n).state <;> first | exact absurd hst herr | decide
  obtain ⟨m, hle, hm⟩ := h.exists_last ⟨hserv, rfl, rfl⟩ hl
  obtain ⟨hrep, htype⟩ := reporting_tick (i := inp m) (h.ported m) hm.1 hm.2.2
  refine ⟨m + 1, by omega, ?_⟩
  rw [h.tick m]
  exact ⟨hrep, htype.trans hm.2.1⟩

theorem Answered.idle_succ (h : Answered f inp) (hrep : (f n).dispatchState = .reporting) :
    (f (n + 1)).dispatchState = .idle := by
  rw [h.tick n]
  cases (h.ported n).phase with
  | reported hd hs hst => rw [tick_reported hd hs hst]
  | rest hd => exact nomatch hd.symm.trans hrep
  | started hd => exact nomatch hd.symm.trans hrep
  | working hd => exact nomatch hd.symm.trans hrep
  | ended hd => exact nomatch hd.symm.trans hrep

/-- **The bus is free for DP again and again** if TC gives way after each of its transactions. -/
theorem Answered.exists_idle (h : Answered f inp)
    (hyield : ∀ n, (f n).dispatchState = .reporting → (f n).dispatchType = .tc → (inp (n + 1)).tc.start = false)
    (n : ℕ) : ∃ m, n ≤ m ∧ (f m).dispatchState = .idle ∧ (inp m).tc.start = false := by
  have hidle : ∀ n, (f n).dispatchState = .idle →
      ∃ m, n ≤ m ∧ (f m).dispatchState = .idle ∧ (inp m).tc.start = false := by
    intro n hn
    cases hstart : (inp n).tc.start with
    | false => exact ⟨n, Nat.le_refl n, hn, hstart⟩
    | true =>
      -- the request of TC is served now; after it TC gives way
      have hserves : (f (n + 1)).dispatchState = .serving ∧ (f (n + 1)).dispatchType = .tc := by
        rw [h.tick n]
        cases (h.ported n).phase with
        | rest hd hs hst => rw [tick_rest hd hs hst, if_pos hstart]; exact ⟨rfl, rfl⟩
        | started hd => exact nomatch hd.symm.trans hn
        | working hd => exact nomatch hd.symm.trans hn
        | ended hd => exact nomatch hd.symm.trans hn
        | reported hd => exact nomatch hd.symm.trans hn
      obtain ⟨m, hle, hrep, htype⟩ := h.exists_reporting hserves.1
      exact ⟨m + 1, by omega, h.idle_succ hrep, hyield m hrep (htype.trans hserves.2)⟩
  have hrep : ∀ n, (f n).dispatchState = .reporting →
      ∃ m, n ≤ m ∧ (f m).dispatchState = .idle ∧ (inp m).tc.start = false := by
    intro n hn
    obtain ⟨m, hle, hm⟩ := hidle (n + 1) (h.idle_succ hn)
    exact ⟨m, by omega, hm⟩
  cases hn : (f n).dispatchState with
  | idle => exact hidle n hn
  | serving =>
    obtain ⟨m, hle, hm, -⟩ := h.exists_reporting hn
    obtain ⟨m', hle', hm'⟩ := hrep m hm
    exact ⟨m', by omega, hm'⟩
  | reporting => exact hrep n hn

end Run

end LiteBus

/-! ### What the machines ask for, and when -/

open LiteReq

theorem Irq.typeOk_tick (i : IrqIn) (m : Irq) (h : m.state.liteStage.asks = true → TypeOk m.lite.ipicType) :
    (m.tick i).state.liteStage.asks = true → TypeOk (m.tick i).lite.ipicType := by
  unfold tick nextState
  cases hst : m.state <;> rw [hst] at h <;> dsimp only <;> (repeat' split) <;>
    first
    | exact fun hask => (Bool.false_ne_true hask).elim
    | exact h
    | exact fun _ => Or.inl rfl
    | exact fun _ => Or.inr rfl

theorem Irq.starts_tick (i : IrqIn) (m : Irq)
    (h : (m.irqStartClrPirq = true → m.state = .clrPirqStart) ∧ (m.irqStartPushback = true → m.state = .pushbackHwStart)) :
    ((m.tick i).irqStartClrPirq = true → (m.tick i).state = .clrPirqStart)
      ∧ ((m.tick i).irqStartPushback = true → (m.tick i).state = .pushbackHwStart) := by
  obtain ⟨hp, hu⟩ := h
  unfold tick nextState
  cases hst : m.state <;> rw [hst] at hp hu <;> dsimp only <;> (repeat' split) <;>
    refine ⟨fun hstart => ?_, fun hstart => ?_⟩ <;>
    first
    | rfl
    | exact (Bool.false_ne_true hstart).elim
    | exact IrqState.noConfusion (hp hstart)
    | exact IrqState.noConfusion (hu hstart)

/-- The transactions of IRQ that are not followed by another one at once. -/
def IrqState.late : IrqState → Bool
  | .getIsrStart | .getIsrMid | .getIsrWait | .enableStart | .enableMid | .enableWait => true
  | _ => false

theorem Irq.late_tick (i : IrqIn) (m : Irq) (h : m.state.late = true) :
    (m.tick i).state.late = true ∨ (m.tick i).state.liteStage = .quiet := by
  rw [tick, act_state]
  unfold nextState
  cases hst : m.state <;> rw [hst] at h <;>
    first
    | exact (Bool.false_ne_true h).elim
    | dsimp only; (try split) <;> first | exact Or.inl rfl | exact Or.inr rfl

theorem Irq.late_of_asks (i : IrqIn) (m : Irq) (h : m.state.liteStage = .waiting)
    (hask : (m.tick i).state.liteStage.asks = true) : (m.tick i).state.late = true ∧ m.state.late = false := by
  rw [tick, act_state] at *
  unfold nextState at *
  cases hst : m.state <;> rw [hst] at h hask <;> first | exact Stage.noConfusion h | skip
  all_goals
    dsimp only at hask ⊢
    split at hask
  all_goals first | exact (Bool.false_ne_true hask).elim | (rw [if_pos ‹_›]; exact ⟨rfl, rfl⟩)

theorem Txfr.asks_of_done (i : TxfrIn) (m : Txfr) (h : m.state.liteStage = .waiting) (hdone : i.ipicDoneLite = true) :
    (m.tick i).state.liteStage.asks = false := by
  unfold tick nextState
  cases hst : m.state <;> rw [hst] at h <;> first | exact Stage.noConfusion h | skip
  rw [hdone]
  rfl

theorem Pirq.pirqDone_tick (i : PirqIn) (m : Pirq) (h : m.pirqDone = true → m.state = .done) :
    (m.tick i).pirqDone = true → (m.tick i).state = .done := by
  unfold tick nextState
  cases hst : m.state <;> rw [hst] at h <;> dsimp only <;> (repeat' split) <;>
    first
    | exact fun _ => rfl
    | exact fun hdone => (Bool.false_ne_true hdone).elim
    | exact fun hdone => PirqState.noConfusion (h hdone)

theorem Ur.urDone_tick (i : UrIn) (m : Ur) (h : m.urDone = true → m.state = .done) :
    (m.tick i).urDone = true → (m.tick i).state = .done := by
  unfold tick nextState
  cases hst : m.state <;> rw [hst] at h <;> dsimp only <;> (repeat' split) <;>
    first
    | exact fun _ => rfl
    | exact fun hdone => (Bool.false_ne_true hdone).elim
    | exact fun hdone => UrState.noConfusion (h hdone)

namespace DescProcessor

variable {s : DescProcessor} {i : DpCycle} {k k₀ : LiteClient}

/-- All that is asked for on the lite bus are transactions that it knows. -/
structure LiteSound (s : DescProcessor) : Prop where
  irq : s.irq.state.liteStage.asks = true → TypeOk s.irq.lite.ipicType
  arb : s.liteArb.start = true → TypeOk s.liteArb.req.ipicType
  bus : s.lite.Sound

theorem liteSound_init : LiteSound {} where
  irq h := nomatch h
  arb h := nomatch h
  bus := ⟨fun h => absurd rfl h, nofun⟩

theorem LiteInv.typeOk_liteLatch (h : s.LiteInv k₀) (hs : s.LiteSound) (hk : (s.liteStage k).asks = true)
    (r : LiteReq) : TypeOk (s.liteLatch k r).ipicType := by
  cases k with
  | irq => exact hs.irq hk
  | txfr => exact Or.inr (h.txfr.type hk)
  | ur => exact Or.inr (h.ur.type hk)
  | pirq => exact Or.inr (h.pirq.type hk)

theorem LiteSound.tick (hs : s.LiteSound) (h : s.LiteInv k₀) (htc : i.tcLite.start = true → TypeOk i.tcLite.ipicType) :
    (s.tick i).LiteSound where
  irq := s.irq.typeOk_tick (s.irqIn i) hs.irq
  arb := by
    intro hstart
    simp only [DescProcessor.tick, Arbiter.tick] at hstart ⊢
    cases hphase : s.liteArb.phase with
    | free =>
      cases hpick : s.litePick with
      | none =>
        simp only [hphase, hpick] at hstart ⊢
        exact hs.arb hstart
      | some k =>
        refine h.typeOk_liteLatch hs ?_ _
        rw [← h.start, start_of_litePick hpick]
    | asking =>
      simp only [hphase] at hstart ⊢
      split <;> exact hs.arb (h.arb.asking hphase)
    | granted =>
      simp only [hphase] at hstart
      exact (Bool.false_ne_true hstart).elim
  bus := hs.bus.tick h.bus htc hs.arb

/-- IRQ waits while PIRQ or UR work for it. -/
structure Order (s : DescProcessor) : Prop where
  starts : (s.irq.irqStartClrPirq = true → s.irq.state = .clrPirqStart)
    ∧ (s.irq.irqStartPushback = true → s.irq.state = .pushbackHwStart)
  pirq : s.pirq.state ≠ .idle → s.irq.state = .clrPirqWait
  pirqDone : s.pirq.pirqDone = true → s.pirq.state = .done
  ur : s.ur.state ≠ .idle → s.irq.state = .pushbackHwWait
  urDone : s.ur.urDone = true → s.ur.state = .done

theorem order_init : Order {} where
  starts := ⟨nofun, nofun⟩
  pirq h := absurd rfl h
  pirqDone h := nomatch h
  ur h := absurd rfl h
  urDone h := nomatch h

theorem Order.tick (h : s.Order) (i : DpCycle) : (s.tick i).Order where
  starts := s.irq.starts_tick (s.irqIn i) h.starts
  pirq := by
    intro hne
    change (s.irq.tick (s.irqIn i)).state = _
    rw [Irq.tick, Irq.act_state]
    by_cases hidle : s.pirq.state = .idle
    · have hstart : s.irq.irqStartClrPirq = true := by
        by_contra hstart
        refine hne ?_
        change (s.pirq.tick (s.pirqIn i)).state = _
        simp only [Pirq.tick, Pirq.nextState, hidle]
        rw [if_neg (show ¬ (s.pirqIn i).irqStartClrPirq = true from hstart)]
        rfl
      rw [Irq.nextState, h.starts.1 hstart]
    · rw [Irq.nextState, h.pirq hidle]
      dsimp only
      rw [if_neg]
      intro hdone
      refine hne ?_
      change (s.pirq.tick (s.pirqIn i)).state = _
      simp only [Pirq.tick, Pirq.nextState, h.pirqDone hdone]
      rfl
  pirqDone := s.pirq.pirqDone_tick (s.pirqIn i) h.pirqDone
  ur := by
    intro hne
    change (s.irq.tick (s.irqIn i)).state = _
    rw [Irq.tick, Irq.act_state]
    by_cases hidle : s.ur.state = .idle
    · have hstart : s.irq.irqStartPushback = true := by
        by_contra hstart
        refine hne ?_
        change (s.ur.tick (s.urIn i)).state = _
        simp only [Ur.tick, Ur.nextState, hidle]
        rw [if_neg (show ¬ (s.urIn i).irqStartPushback = true from hstart)]
        rfl
      rw [Irq.nextState, h.starts.2 hstart]
    · rw [Irq.nextState, h.ur hidle]
      dsimp only
      rw [if_neg]
      intro hdone
      refine hne ?_
      change (s.ur.tick (s.urIn i)).state = _
      simp only [Ur.tick, Ur.nextState, h.urDone hdone]
      rfl
  urDone := s.ur.urDone_tick (s.urIn i) h.urDone

/-- While UR or PIRQ ask, the machines with a higher priority that IRQ starts do not. -/
theorem Order.quiet_of_ur (h : s.Order) (hask : (s.liteStage .ur).asks = true) : (s.liteStage .irq).asks = false := by
  have hne : s.ur.state ≠ .idle := by
    intro hidle
    simp only [liteStage, hidle] at hask
    exact Bool.false_ne_true hask
  simp only [liteStage, h.ur hne]
  rfl

theorem Order.quiet_of_pirq (h : s.Order) (hask : (s.liteStage .pirq).asks = true) :
    (s.liteStage .irq).asks = false ∧ (s.liteStage .ur).asks = false := by
  have hne : s.pirq.state ≠ .idle := by
    intro hidle
    simp only [liteStage, hidle] at hask
    exact Bool.false_ne_true hask
  have hirq := h.pirq hne
  have hur : s.ur.state = .idle := by
    by_contra hur
    exact IrqState.noConfusion (hirq.symm.trans (h.ur hur))
  refine ⟨?_, ?_⟩
  · simp only [liteStage, hirq]
    rfl
  · simp only [liteStage, hur]
    rfl

/-- A machine that asks is found, or one of its two rivals is: IRQ comes before TXFR, and TXFR before UR and PIRQ. -/
theorem LiteInv.litePick_of_asks (h : s.LiteInv k₀) (ho : s.Order) (hask : (s.liteStage k).asks = true) :
    s.litePick = some k
      ∨ k = .txfr ∧ s.litePick = some .irq
      ∨ (k = .ur ∨ k = .pirq) ∧ s.litePick = some .txfr := by
  have hirq : s.irq.lite.start = (s.liteStage .irq).asks := h.start .irq
  have htxfr : s.txfr.lite.start = (s.liteStage .txfr).asks := h.start .txfr
  have hur : s.ur.lite.start = (s.liteStage .ur).asks := h.start .ur
  have hpirq : s.pirq.lite.start = (s.liteStage .pirq).asks := h.start .pirq
  rw [litePick, hirq, htxfr, hur, hpirq]
  cases k with
  | irq => exact Or.inl (by rw [if_pos hask])
  | txfr =>
    by_cases hi : (s.liteStage .irq).asks = true
    · exact Or.inr (Or.inl ⟨rfl, by rw [if_pos hi]⟩)
    · exact Or.inl (by rw [if_neg hi, if_pos hask])
  | ur =>
    rw [ho.quiet_of_ur hask, if_neg Bool.false_ne_true]
    by_cases ht : (s.liteStage .txfr).asks = true
    · exact Or.inr (Or.inr ⟨Or.inl rfl, by rw [if_pos ht]⟩)
    · exact Or.inl (by rw [if_neg ht, if_pos hask])
  | pirq =>
    obtain ⟨hi, hu⟩ := ho.quiet_of_pirq hask
    rw [hi, hu, if_neg Bool.false_ne_true, if_neg Bool.false_ne_true]
    by_cases ht : (s.liteStage .txfr).asks = true
    · exact Or.inr (Or.inr ⟨Or.inr rfl, by rw [if_pos ht]⟩)
    · exact Or.inl (by rw [if_neg ht, if_pos hask])

end DescProcessor

/-! ### No machine is left waiting -/

namespace LiteRun

/-- The AXI master answers again and again, and `tdma_control` asks for transactions that the bus knows and gives way
for a cycle after each of them. -/
structure Fair (inp : ℕ → DpCycle) : Prop where
  cmdack : ∀ n, ∃ m, n ≤ m ∧ (inp m).liteCmdack = true
  cmplt : ∀ n, ∃ m, n ≤ m ∧ (inp m).liteCmplt = true
  tcType : ∀ n, (inp n).tcLite.start = true → TypeOk (inp n).tcLite.ipicType
  tcYields : ∀ n, (trace tick inp {} n).s.lite.dispatchState = .reporting →
    (trace tick inp {} n).s.lite.dispatchType = .tc → (inp (n + 1)).tcLite.start = false

/-- Arbiter and bus in cycle `n`. -/
def busAt (inp : ℕ → DpCycle) (n : ℕ) : Bus LiteClient LiteJob :=
  (trace tick inp {} n).s.liteBus (trace tick inp {} n).server

/-- A machine as a client in cycle `n`. -/
def clientAt (inp : ℕ → DpCycle) (k : LiteClient) (n : ℕ) : Client LiteJob := (trace tick inp {} n).s.liteClient k

variable {inp : ℕ → DpCycle} {k : LiteClient} {j : LiteJob} {n : ℕ}

theorem order_trace (inp : ℕ → DpCycle) (n : ℕ) : (trace tick inp {} n).s.Order := by
  induction n with
  | zero => exact DescProcessor.order_init
  | succ n ih => exact ih.tick (inp n)

theorem Fair.liteSound (h : Fair inp) (n : ℕ) : (trace tick inp {} n).s.LiteSound := by
  induction n with
  | zero => exact DescProcessor.liteSound_init
  | succ n ih => exact ih.tick (inv_trace inp n).inv (h.tcType n)

theorem Fair.answered (h : Fair inp) :
    LiteBus.Answered (fun n => (trace tick inp {} n).s.lite)
      fun n => (trace tick inp {} n).s.liteIn (inp n) where
  tick _ := rfl
  ported n := (inv_trace inp n).inv.bus
  sound n := (h.liteSound n).bus
  cmdack := h.cmdack
  cmplt := h.cmplt

theorem Fair.busRun (h : Fair inp) :
    BusRun true (busAt inp) (fun n => (trace tick inp {} n).s.liteFound)
      fun n => (trace tick inp {} n).s.lite.advances ((trace tick inp {} n).s.liteIn (inp n)) where
  ok n := (inv_trace inp n).inv.link
  tick n := (inv_trace inp n).inv.liteBus_tick (inp n)
  turn n := by
    obtain ⟨m, hle, hidle, htc⟩ := h.answered.exists_idle (fun n hrep htype => h.tcYields n hrep htype) n
    refine ⟨m, hle, ?_, ?_⟩
    · change (trace tick inp {} m).s.lite.port _ = _
      simp only [LiteBus.port, hidle, ite_self]
    · simp only [LiteBus.advances, hidle, htc, Bool.not_false]

theorem at_trace (inp : ℕ → DpCycle) (k : LiteClient) (n : ℕ) :
    (clientAt inp k n).At (k ≠ .ur) k (busAt inp n) := (inv_trace inp n).inv.clients k

theorem follows_trace (inp : ℕ → DpCycle) (k : LiteClient) (n : ℕ) :
    (clientAt inp k n).Follows ((busAt inp n).hold.acks k) ((trace tick inp {} n).s.liteLeave k)
      (clientAt inp k (n + 1)) := (inv_trace inp n).inv.follows (inp n) k

theorem clientRun (inp : ℕ → DpCycle) (k : LiteClient) :
    ClientRun (k ≠ .ur) k (busAt inp) (fun n => (trace tick inp {} n).s.liteLeave k) (clientAt inp k) where
  at_bus n _ := at_trace inp k n
  follows := follows_trace inp k
  spares n := (inv_trace inp n).inv.spares_of_leave

/-- **A machine that the arbiter has come to is served**, and stops waiting when the arbiter is free again. -/
theorem Fair.exists_served (h : Fair inp) (hk : k ≠ .ur) (hn : (busAt inp n).hold = .asking k j) :
    ∃ m, n ≤ m ∧ (busAt inp (m + 1)).hold = .free ∧ clientAt inp k m = .waiting
      ∧ (trace tick inp {} m).s.lite.doneDp = true ∧ ∀ l, n ≤ l → l ≤ m → clientAt inp k l ≠ .quiet := by
  obtain ⟨m₁, hle₁, hack, hasking⟩ := h.busRun.exists_acking hn
  have hrest := (h.busRun.hold_of_acking hack).1
  have hwait := (clientRun inp k).waiting_of_acking ((at_trace inp k (m₁ + 1)).eq_calling (Or.inr hack)) hack
  have hleave : ∃ m, m₁ + 2 ≤ m ∧ ¬ ((busAt inp m).hold = .resting ∧ clientAt inp k m = .waiting) := by
    obtain ⟨m, hle, hfree, -⟩ := h.busRun.exists_free_of_resting hrest
    refine ⟨m + 1, by omega, fun hboth => ?_⟩
    rw [hfree] at hboth
    cases hboth.1
  have hdone : ∀ m, (busAt inp m).port.done = (trace tick inp {} m).s.lite.doneDp := fun m =>
    (inv_trace inp m).inv.bus.port_done
  obtain ⟨m₂, hle₂, hfree, hall⟩ := exists_of_leaves
    (P := fun m => (busAt inp m).hold = .resting ∧ clientAt inp k m = .waiting)
    (Q := fun m => (busAt inp m).hold = .free) (n := m₁ + 2)
    (fun m _ hm => by
      cases hd : (busAt inp m).port.done with
      | true =>
        refine Or.inr ?_
        rw [h.busRun.hold_succ, hm.1, Hold.tick, hd]
        rfl
      | false =>
        refine Or.inl ⟨?_, ?_⟩
        · rw [h.busRun.hold_succ, hm.1, Hold.tick, hd]
          rfl
        · have hf := follows_trace inp k m
          rw [hm.2, (inv_trace inp m).inv.leave_own hk] at hf
          change Client.Follows _ (busAt inp m).port.done _ _ at hf
          rw [hd] at hf
          generalize clientAt inp k (m + 1) = c at hf
          cases hf with
          | wait => rfl
          | leave hgo => exact Bool.noConfusion hgo)
    ⟨hrest, hwait⟩ hleave
  have hlast := hall m₂ hle₂ (Nat.le_refl m₂)
  refine ⟨m₂, by omega, hfree, hlast.2, ?_, fun l hnl hlm => ?_⟩
  · rw [← hdone]
    exact h.busRun.done_of_free hlast.1 hfree
  · by_cases hl₁ : l ≤ m₁
    · rw [(at_trace inp k l).eq_calling (Or.inl (hasking l hnl hl₁))]
      intro hquiet
      cases hquiet
    · by_cases hl₂ : l = m₁ + 1
      · rw [hl₂, (at_trace inp k (m₁ + 1)).eq_calling (Or.inr hack)]
        intro hquiet
        cases hquiet
      · rw [(hall l (by omega) hlm).2]
        intro hquiet
        cases hquiet

theorem hold_of_litePick (hfree : (busAt inp n).hold = .free) (hpick : (trace tick inp {} n).s.litePick = some k) :
    ∃ j, (busAt inp (n + 1)).hold = .asking k j := by
  have hbus := congrArg Bus.hold ((inv_trace inp n).inv.liteBus_tick (inp n))
  refine ⟨((trace tick inp {} n).s.liteLatch k (trace tick inp {} n).s.liteArb.req).job, hbus.trans ?_⟩
  change Hold.tick true (trace tick inp {} n).s.liteFound _ (busAt inp n).hold = _
  rw [hfree, DescProcessor.liteFound, hpick]
  rfl

/-- The machine shows its request and the arbiter has not come to it. -/
def Unserved (inp : ℕ → DpCycle) (k : LiteClient) (n : ℕ) : Prop :=
  ((trace tick inp {} n).s.liteStage k).asks = true ∧ (busAt inp n).hold.Spares k

theorem Unserved.succ (h : Unserved inp k n) :
    Unserved inp k (n + 1) ∨ ∃ j, (busAt inp (n + 1)).hold = .asking k j := by
  obtain ⟨hask, hspares⟩ := h
  have hhold : (busAt inp (n + 1)).hold
      = (busAt inp n).hold.tick true (trace tick inp {} n).s.liteFound (busAt inp n).port :=
    congrArg Bus.hold ((inv_trace inp n).inv.liteBus_tick (inp n))
  have hnext : (busAt inp (n + 1)).hold.Spares k
      ∨ ∃ j, (trace tick inp {} n).s.liteFound = some (k, j) ∧ (busAt inp (n + 1)).hold = .asking k j := by
    rw [hhold]
    exact hspares.tick
  rcases hnext with hspares' | ⟨j, -, hj⟩
  · refine Or.inl ⟨?_, hspares'⟩
    have hnext := (trace tick inp {} n).s.liteStage_next (inp n) k
    have hack : (trace tick inp {} n).s.liteArb.ack k = false := by
      rw [← (inv_trace inp n).inv.arb.acks]
      exact Hold.acks_of_spares hspares
    rw [hack] at hnext
    change (((trace tick inp {} n).s.tick (inp n)).liteStage k).asks = true
    generalize ((trace tick inp {} n).s.tick (inp n)).liteStage k = g' at hnext
    cases hg : (trace tick inp {} n).s.liteStage k with
    | fresh => rw [hg] at hnext; rw [of_decide_eq_true hnext]; rfl
    | calling => rw [hg] at hnext; rw [of_decide_eq_true hnext]; rfl
    | quiet => rw [hg] at hask; exact nomatch hask
    | waiting => rw [hg] at hask; exact nomatch hask
  · exact Or.inr ⟨j, hj⟩

theorem late_of_le {m : ℕ} (hle : n ≤ m) (hn : (trace tick inp {} n).s.irq.state.late = true)
    (hbusy : ∀ l, n < l → l ≤ m → clientAt inp .irq l ≠ .quiet) :
    (trace tick inp {} m).s.irq.state.late = true := by
  induction m, hle using Nat.le_induction with
  | base => exact hn
  | succ m hle ih =>
    have hm := ih fun l hnl hlm => hbusy l hnl (by omega)
    rcases (trace tick inp {} m).s.irq.late_tick ((trace tick inp {} m).s.irqIn (inp m)) hm with hlate | hquiet
    · exact hlate
    · refine absurd ?_ (hbusy (m + 1) (by omega) (Nat.le_refl _))
      change Stage.client _ ((trace tick inp {} m).s.irq.tick _).state.liteStage = _
      rw [hquiet]
      rfl

theorem litePick_after_txfr (hk : k = .ur ∨ k = .pirq) (hwait : clientAt inp .txfr n = .waiting)
    (hdone : (trace tick inp {} n).s.lite.doneDp = true)
    (hask : ((trace tick inp {} (n + 1)).s.liteStage k).asks = true) :
    (trace tick inp {} (n + 1)).s.litePick = some k := by
  have hstage : (trace tick inp {} n).s.liteStage .txfr = .waiting :=
    DescProcessor.stage_of_client (g := .waiting) (j := .read 0) hwait
  have htxfr : ((trace tick inp {} (n + 1)).s.liteStage .txfr).asks = false :=
    (trace tick inp {} n).s.txfr.asks_of_done ((trace tick inp {} n).s.txfrIn (inp n)) hstage hdone
  have hinv := (inv_trace inp (n + 1)).inv
  rcases hinv.litePick_of_asks (order_trace inp (n + 1)) hask with hpick | ⟨rfl, -⟩ | ⟨-, hpick⟩
  · exact hpick
  · rcases hk with hk | hk <;> exact LiteClient.noConfusion hk
  · have hstart := DescProcessor.start_of_litePick hpick
    rw [hinv.start, htxfr] at hstart
    exact nomatch hstart

/-- **The arbiter comes to every machine that asks.** -/
theorem Fair.exists_asking (h : Fair inp) (hn : Unserved inp k n) :
    ∃ m j, n ≤ m ∧ (busAt inp m).hold = .asking k j := by
  by_contra hnone
  push Not at hnone
  -- otherwise the machine is left waiting for ever
  have hall : ∀ m, n ≤ m → Unserved inp k m := by
    intro m hle
    induction m, hle using Nat.le_induction with
    | base => exact hn
    | succ m hle ih =>
      rcases ih.succ with hnext | ⟨j, hj⟩
      · exact hnext
      · exact absurd hj (hnone (m + 1) j (by omega))
  have hpick : ∀ m, n ≤ m → (busAt inp m).hold = .free → (trace tick inp {} m).s.litePick ≠ some k := by
    intro m hle hfree hk
    obtain ⟨j, hj⟩ := hold_of_litePick hfree hk
    exact hnone (m + 1) j (by omega) hj
  -- one transaction of IRQ after another, of which the second is late
  have hirq : ∀ m, n ≤ m → k = .txfr → (busAt inp m).hold = .free → (trace tick inp {} m).s.litePick = some .irq →
      ∃ m', m < m' ∧ (busAt inp m').hold = .free ∧ (trace tick inp {} m').s.litePick = some .irq
        ∧ (trace tick inp {} m').s.irq.state.late = true ∧ (trace tick inp {} m).s.irq.state.late = false := by
    intro m hle hk hfree hm
    obtain ⟨j, hj⟩ := hold_of_litePick hfree hm
    obtain ⟨m', hle', hfree', hwait, hdone, hbusy⟩ := h.exists_served (by nofun) hj
    have hinv := (inv_trace inp (m' + 1)).inv
    have hpick' : (trace tick inp {} (m' + 1)).s.litePick = some .irq := by
      rcases hinv.litePick_of_asks (order_trace inp (m' + 1)) (hall (m' + 1) (by omega)).1 with hp | ⟨-, hp⟩ | ⟨hk', -⟩
      · exact absurd hp (hpick (m' + 1) (by omega) hfree')
      · exact hp
      · rw [hk] at hk'
        rcases hk' with hk' | hk' <;> exact LiteClient.noConfusion hk'
    have hstage : (trace tick inp {} m').s.irq.state.liteStage = .waiting :=
      DescProcessor.stage_of_client (k := .irq) (g := .waiting) (j := .read 0) hwait
    have hask : ((trace tick inp {} (m' + 1)).s.liteStage .irq).asks = true := by
      rw [← hinv.start, DescProcessor.start_of_litePick hpick']
    obtain ⟨hlate', hlate⟩ := (trace tick inp {} m').s.irq.late_of_asks ((trace tick inp {} m').s.irqIn (inp m'))
      hstage hask
    refine ⟨m' + 1, by omega, hfree', hpick', hlate', ?_⟩
    by_contra hm_late
    rw [Bool.not_eq_false] at hm_late
    rw [late_of_le (by omega) hm_late fun l hml hlm' => hbusy l hml hlm'] at hlate
    exact Bool.noConfusion hlate
  obtain ⟨m, hle, hfree⟩ := h.busRun.exists_free n
  rcases (inv_trace inp m).inv.litePick_of_asks (order_trace inp m) (hall m hle).1
    with hp | ⟨hk, hp⟩ | ⟨hk, hp⟩
  · exact hpick m hle hfree hp
  · obtain ⟨m', hlt, hfree', hp', hlate, -⟩ := hirq m hle hk hfree hp
    obtain ⟨m'', -, -, -, -, hearly⟩ := hirq m' (by omega) hk hfree' hp'
    rw [hlate] at hearly
    exact Bool.noConfusion hearly
  · obtain ⟨j, hj⟩ := hold_of_litePick hfree hp
    obtain ⟨m', hle', hfree', hwait, hdone, -⟩ := h.exists_served (by nofun) hj
    exact hpick (m' + 1) (by omega) hfree'
      (litePick_after_txfr hk hwait hdone (hall (m' + 1) (by omega)).1)

/-- **No request is left standing.** -/
theorem Fair.exists_not_pending (h : Fair inp) (k : LiteClient) (n : ℕ) :
    ∃ m, n ≤ m ∧ (trace tick inp {} m).pending k = [] := by
  refine (clientRun inp k).exists_not_pending h.busRun (fun n j hn hspares => ?_) n
  have hask : ((trace tick inp {} n).s.liteStage k).asks = true := by
    have hshows := congrArg Client.shows hn
    rw [clientAt, DescProcessor.liteClient, Stage.shows_client] at hshows
    by_contra hno
    rw [if_neg hno] at hshows
    cases hshows
  obtain ⟨m, j', hle, hasking⟩ := h.exists_asking ⟨hask, hspares⟩
  exact ⟨m, j', hle, (at_trace inp k m).eq_calling (Or.inl hasking), hasking⟩

/-- **Every request on the lite bus is carried out once.**  In every run, whatever `tdma_control` asks for and however
long the bus takes, what has been carried out for a machine is what it has asked for, in that order and as it latched
it, except for at most one request, which it stands by until it is carried out; IRQ, TXFR and PIRQ stop waiting only
with the report of their own transaction.  And when the AXI master answers and `tdma_control` gives way, every request
is carried out. -/
theorem executed_once (inp : ℕ → DpCycle) (k : LiteClient) :
    (∀ n, ∃ rest : List LiteJob, (trace tick inp {} n).asked k = (trace tick inp {} n).executed k ++ rest
        ∧ rest.length ≤ 1 ∧ ((trace tick inp {} n).s.liteStage k = .quiet → rest = []))
      ∧ (k ≠ .ur → ∀ n, (trace tick inp {} n).s.liteStage k = .waiting →
        (trace tick inp {} (n + 1)).s.liteStage k ≠ .waiting →
          (trace tick inp {} n).s.lite.doneDp = true ∧ (trace tick inp {} n).server = k
            ∧ (trace tick inp {} n).asked k = (trace tick inp {} n).executed k)
      ∧ (Fair inp → Delivered (fun n => (trace tick inp {} n).asked k) fun n => (trace tick inp {} n).executed k) := by
  refine ⟨fun n => ?_, fun hk n hwait hleave => ?_, fun hfair => ?_⟩
  · refine ⟨(trace tick inp {} n).pending k, (inv_trace inp n).ledger k, Client.length_pending, fun hquiet => ?_⟩
    simp only [pending, DescProcessor.liteClient, hquiet]
    rfl
  · have hclient : clientAt inp k n = .waiting := by
      simp only [clientAt, DescProcessor.liteClient, hwait]
      rfl
    have hgo : (busAt inp n).port.done = true := by
      refine ((inv_trace inp n).inv.leave_own hk).symm.trans ?_
      by_contra hstay
      rw [Bool.not_eq_true] at hstay
      have hnext := (trace tick inp {} n).s.liteStage_next (inp n) k
      rw [hwait, hstay] at hnext
      exact hleave (of_decide_eq_true hnext)
    have hat := at_trace inp k n
    rw [hclient] at hat
    obtain ⟨j, hrep⟩ := hat.reports_of_done hk hgo
    refine ⟨(inv_trace inp n).inv.bus.port_done.symm.trans hgo, LiteBus.server_of_reporting hrep, ?_⟩
    have hnil : (clientAt inp k n).pending k (busAt inp n).port = [] := by
      rw [hclient, hrep]
      rfl
    exact ((inv_trace inp n).ledger k).trans ((congrArg _ hnil).trans (List.append_nil _))
  · exact delivered_of_pending (fun n => (inv_trace inp n).ledger k)
      (fun n => List.prefix_append _ _) (hfair.exists_not_pending k)

/-- Linux' FIFO always has a descriptor, and the AXI master answers at once. -/
def txfrInp : ℕ → DpCycle := fun _ =>
  { liteCmdack := true, liteCmplt := true, fifoValid := true, tdmaTxEnable := true, fifoDread := (0x60000818, 0x1000) }

theorem fair_txfrInp : Fair txfrInp where
  cmdack n := ⟨n, Nat.le_refl n, rfl⟩
  cmplt n := ⟨n, Nat.le_refl n, rfl⟩
  tcType _ h := nomatch h
  tcYields _ _ _ := rfl

theorem executed_once_txfr :
    (trace tick txfrInp {} 14).executed .txfr = [.write 0x60000818 0x1000]
      ∧ Delivered (fun n => (trace tick txfrInp {} n).asked .txfr) fun n => (trace tick txfrInp {} n).executed .txfr :=
  ⟨by decide +kernel, (executed_once txfrInp .txfr).2.2 fair_txfrInp⟩

end LiteRun

end VanetTdma.Fpga
