import VanetTdma.Lib.Clocked
import VanetTdma.Lib.Delivery
import VanetTdma.Fpga.AxiS00

/-!
# The buffers of the receive FIFO (`rxfifo_wr_machine.v`)

Linux puts new receive buffers into the FIFO by way of register 2, which gives a start signal of two cycles; the
IRQ machine puts a used one back by a start signal of one cycle.  Neither looks at `rxfifo_wr_done`.

* `RxBuffers.Heard` — the writer is there for a request of this cycle, and the FIFO has room when it looks;
* `RxBuffers.Inv.tick` — the buffers asked for are those written and the one on its way;
* `RxBuffers.buffers_delivered` — in runs of such cycles every buffer is written once and in order, and the writer
  returns to dispatch state 0 again and again.
-/

namespace VanetTdma.Fpga

open VanetTdma.Clocked

/-- The register block, the writer, and the buffers asked for and written. -/
structure RxBuffers where
  axi : AxiS00 := {}
  wr : FifoWr := {}
  asked : List (BitVec 32) := []
  written : List (BitVec 32) := []

/-- The inputs of one cycle: the bus of Linux, the request of the IRQ machine and the full flag. -/
structure RxIn where
  axi : AxiIn := {}
  desc : WrReq := {}
  full : Bool := false

namespace RxBuffers

def wrIn (s : RxBuffers) (i : RxIn) : FifoWrIn where
  full := i.full
  own := i.desc
  linux := s.axi.rx.req

/-- The requests that begin in this cycle: each cycle of `desc_wr_start`, and the first of the two cycles of
`linux_wr_start`. -/
def asks (s : RxBuffers) (i : RxIn) : List (BitVec 32) :=
  (if i.desc.start then [i.desc.data] else []) ++ if s.axi.rx.enableState = .ph1 then [s.axi.rx.req.data] else []

/-- One edge.  The FIFO has no other writer, so a place that is free when the writer looks is free at the edge with
`rxfifo_wr_en`. -/
def tick (s : RxBuffers) (i : RxIn) : RxBuffers where
  axi := s.axi.tick i.axi
  wr := s.wr.tick (s.wrIn i)
  asked := s.asked ++ s.asks i
  written := s.written ++ if s.wr.wrEn then [s.wr.dwrite] else []

/-- The writer is there for the requests of this cycle, and the FIFO has room when it looks. -/
structure Heard (s : RxBuffers) (i : RxIn) : Prop where
  /-- The IRQ machine finds the writer in dispatch state 0. -/
  desc : i.desc.start = true → s.wr.dispatchState = .ph0
  /-- Linux finds it there, alone, in the first cycle of its signal or will find it there in the second. -/
  first : s.axi.rx.enableState = .ph1 → s.wr.dispatchState = .ph0 ∧ i.desc.start = false ∨ s.wr.dispatchState = .ph2
  second : s.axi.rx.enableState = .ph2 → s.wr.dispatchState = .ph0 → i.desc.start = false
  room : s.wr.writeEnable = true → i.full = false

instance (s : RxBuffers) (i : RxIn) : Decidable (s.Heard i) :=
  decidable_of_iff
    ((i.desc.start = true → s.wr.dispatchState = .ph0)
      ∧ (s.axi.rx.enableState = .ph1 →
        s.wr.dispatchState = .ph0 ∧ i.desc.start = false ∨ s.wr.dispatchState = .ph2)
      ∧ (s.axi.rx.enableState = .ph2 → s.wr.dispatchState = .ph0 → i.desc.start = false)
      ∧ (s.wr.writeEnable = true → i.full = false))
    ⟨fun h => ⟨h.1, h.2.1, h.2.2.1, h.2.2.2⟩, fun h => ⟨h.desc, h.first, h.second, h.room⟩⟩

/-- The buffer on its way, by stage of the writer: Linux may have to wait for its second cycle. -/
def pending (s : RxBuffers) : WrStage → List (BitVec 32)
  | .idle => if s.axi.rx.enableState = .ph2 then [s.axi.rx.req.data] else []
  | .enabled => [s.wr.data]
  | .writing => [s.wr.dwrite]
  | .completing | .returning | .stuck => []

/-- The start signal of Linux is up in the last two states of its generator. -/
def Pulsed (p : PulseGen) : Prop := p.req.start = decide (p.enableState ≠ .ph0)

theorem Pulsed.tick {p : PulseGen} {enable : Bool} {data : BitVec 32} (h : Pulsed p) :
    Pulsed (p.tick enable data) := by
  unfold PulseGen.tick
  split
  case h_1 =>
    split
    · rfl
    · exact h
  case h_2 hst =>
    rw [Pulsed, hst] at h
    exact h
  case h_3 => rfl

/-- The invariant of the runs in which all requests are heard. -/
structure Inv (w : WrStage) (s : RxBuffers) : Prop where
  stage : s.wr.At w
  pulsed : Pulsed s.axi.rx
  ledger : s.asked = s.written ++ s.pending w
  /-- In its second cycle the signal of Linux is taken, or is about to be. -/
  second : s.axi.rx.enableState = .ph2 → w = .idle ∨ w = .enabled
  moving : w ≠ .stuck

theorem inv_reset : Inv .idle {} := ⟨FifoWr.at_reset, rfl, rfl, nofun, nofun⟩

section Step

variable {s : RxBuffers} {i : RxIn} {w : WrStage}

theorem tick_written (h : s.wr.At w) :
    (s.tick i).written = s.written ++ if w = .writing then [s.wr.dwrite] else [] := by
  rw [tick, h.wrEn]
  simp only [decide_eq_true_eq]

theorem tick_asked : (s.tick i).asked = s.asked ++ s.asks i := rfl

theorem enableState_tick : (s.tick i).axi.rx.enableState = .ph2 ↔ s.axi.rx.enableState = .ph1 := by
  change (s.axi.tick i.axi).rx.enableState = .ph2 ↔ _
  rw [AxiS00.tick_rx, PulseGen.tick]
  cases hst : s.axi.rx.enableState with
  | ph0 =>
    dsimp only
    split
    · exact ⟨fun h => WrPhase.noConfusion h, fun h => WrPhase.noConfusion h⟩
    · rw [hst]
      exact ⟨fun h => WrPhase.noConfusion h, fun h => WrPhase.noConfusion h⟩
  | ph1 => exact ⟨fun _ => rfl, fun _ => rfl⟩
  | ph2 => exact ⟨fun h => WrPhase.noConfusion h, fun h => WrPhase.noConfusion h⟩

theorem data_tick (h : s.axi.rx.enableState = .ph1) : (s.tick i).axi.rx.req.data = s.axi.rx.req.data := by
  change (s.axi.tick i.axi).rx.req.data = _
  rw [AxiS00.tick_rx, PulseGen.tick, h]

theorem asks_of_not (hdesc : i.desc.start = false) (hst : s.axi.rx.enableState ≠ .ph1) : s.asks i = [] := by
  rw [asks, hdesc, if_neg hst]
  rfl

theorem Inv.tick_idle (h : Inv .idle s) (hheard : s.Heard i) : Inv (WrStage.next (s.wrIn i) .idle) (s.tick i) := by
  have hstage := h.stage.tick (i := s.wrIn i)
  have hwritten : (s.tick i).written = s.written := by
    rw [tick_written h.stage, if_neg WrStage.noConfusion, List.append_nil]
  have hph0 : s.wr.dispatchState = .ph0 := h.stage.dispatchState
  have hpulsed : Pulsed (s.tick i).axi.rx := by
    change Pulsed (s.axi.tick i.axi).rx
    rw [AxiS00.tick_rx]
    exact h.pulsed.tick
  have hlinux : (s.wrIn i).linux.start = decide (s.axi.rx.enableState ≠ .ph0) := h.pulsed
  by_cases hdesc : i.desc.start = true
  · -- the IRQ machine asks, and Linux does not
    have hne1 : s.axi.rx.enableState ≠ .ph1 := by
      intro hst
      rcases hheard.first hst with ⟨-, hnot⟩ | hph2
      · exact Bool.false_ne_true (hnot.symm.trans hdesc)
      · exact WrPhase.noConfusion (hph0.symm.trans hph2)
    have hne2 : s.axi.rx.enableState ≠ .ph2 := by
      intro hst
      exact Bool.false_ne_true ((hheard.second hst hph0).symm.trans hdesc)
    rw [WrStage.next, if_pos (Or.inl (show (s.wrIn i).own.start = true from hdesc))] at hstage ⊢
    refine ⟨hstage, hpulsed, ?_, fun hst => Or.inr rfl, WrStage.noConfusion⟩
    have hdata : (s.tick i).wr.data = i.desc.data := h.stage.data_of_own hdesc
    rw [hwritten, pending, hdata, tick_asked, asks, if_pos hdesc, if_neg hne1, h.ledger, pending, if_neg hne2]
    simp only [List.append_nil]
  · rw [Bool.not_eq_true] at hdesc
    cases hst : s.axi.rx.enableState with
    | ph0 =>
      have hnone : ¬ ((s.wrIn i).own.start = true ∨ (s.wrIn i).linux.start = true) := by
        rw [hlinux, hst, show (s.wrIn i).own.start = false from hdesc]
        exact fun hc => hc.elim Bool.false_ne_true (by decide)
      have hne1 : s.axi.rx.enableState ≠ .ph1 := by
        rw [hst]
        exact WrPhase.noConfusion
      have hne2 : (s.tick i).axi.rx.enableState ≠ .ph2 := fun hc => hne1 (enableState_tick.mp hc)
      rw [WrStage.next, if_neg hnone] at hstage ⊢
      refine ⟨hstage, hpulsed, ?_, fun hc => absurd hc hne2, WrStage.noConfusion⟩
      rw [hwritten, pending, if_neg hne2, tick_asked, asks_of_not hdesc hne1, h.ledger, pending, hst]
      simp
    | ph1 =>
      have hstart : (s.wrIn i).linux.start = true := by
        rw [hlinux, hst]
        rfl
      rw [WrStage.next, if_pos (Or.inr hstart)] at hstage ⊢
      refine ⟨hstage, hpulsed, ?_, fun _ => Or.inr rfl, WrStage.noConfusion⟩
      have hdata : (s.tick i).wr.data = s.axi.rx.req.data := h.stage.data_of_linux hdesc hstart
      rw [hwritten, pending, hdata, tick_asked, asks, hdesc, if_pos hst, h.ledger, pending, hst]
      simp
    | ph2 =>
      have hstart : (s.wrIn i).linux.start = true := by
        rw [hlinux, hst]
        rfl
      have hne1 : s.axi.rx.enableState ≠ .ph1 := by
        rw [hst]
        exact WrPhase.noConfusion
      rw [WrStage.next, if_pos (Or.inr hstart)] at hstage ⊢
      refine ⟨hstage, hpulsed, ?_, fun _ => Or.inr rfl, WrStage.noConfusion⟩
      have hdata : (s.tick i).wr.data = s.axi.rx.req.data := h.stage.data_of_linux hdesc hstart
      rw [hwritten, pending, hdata, tick_asked, asks_of_not hdesc hne1, h.ledger, pending, if_pos hst]
      simp

theorem Inv.tick_busy (h : Inv w s) (hheard : s.Heard i) (hbusy : w ≠ .idle) :
    Inv (w.next (s.wrIn i)) (s.tick i) := by
  have hstage := h.stage.tick (i := s.wrIn i)
  have hpulsed : Pulsed (s.tick i).axi.rx := by
    change Pulsed (s.axi.tick i.axi).rx
    rw [AxiS00.tick_rx]
    exact h.pulsed.tick
  have hph : s.wr.dispatchState ≠ .ph0 := by
    rw [h.stage.dispatchState]
    cases w <;> first | exact absurd rfl hbusy | exact WrPhase.noConfusion
  have hdesc : i.desc.start = false := by
    by_contra hstart
    exact hph (hheard.desc ((Bool.not_eq_false _).mp hstart))
  have hreturning : s.axi.rx.enableState = .ph1 → w = .returning := by
    intro hst
    have hph2 := (hheard.first hst).resolve_left fun hc => hph hc.1
    rw [h.stage.dispatchState] at hph2
    cases w <;> first | rfl | exact WrPhase.noConfusion hph2
  have hwritten := tick_written (i := i) h.stage
  have hne1 : w ≠ .returning → s.axi.rx.enableState ≠ .ph1 := fun hw hst => hw (hreturning hst)
  have hne2 : w ≠ .returning → (s.tick i).axi.rx.enableState ≠ .ph2 :=
    fun hw hst => hne1 hw (enableState_tick.mp hst)
  cases w with
  | idle => exact absurd rfl hbusy
  | stuck => exact absurd rfl h.moving
  | enabled =>
    have hfull : i.full = false := hheard.room h.stage.writeEnable
    have hdwrite : (s.tick i).wr.dwrite = s.wr.data := h.stage.dwrite_of_enabled hfull
    rw [WrStage.next, show (s.wrIn i).full = false from hfull] at hstage ⊢
    refine ⟨hstage, hpulsed, ?_, fun hst => absurd hst (hne2 WrStage.noConfusion), WrStage.noConfusion⟩
    change _ = _ ++ [(s.tick i).wr.dwrite]
    rw [hwritten, hdwrite, tick_asked, asks_of_not hdesc (hne1 WrStage.noConfusion), h.ledger]
    simp [pending]
  | writing =>
    refine ⟨hstage, hpulsed, ?_, fun hst => absurd hst (hne2 WrStage.noConfusion), WrStage.noConfusion⟩
    rw [hwritten, tick_asked, asks_of_not hdesc (hne1 WrStage.noConfusion), h.ledger]
    simp [pending, WrStage.next]
  | completing =>
    refine ⟨hstage, hpulsed, ?_, fun hst => absurd hst (hne2 WrStage.noConfusion), WrStage.noConfusion⟩
    rw [hwritten, tick_asked, asks_of_not hdesc (hne1 WrStage.noConfusion), h.ledger]
    simp [pending, WrStage.next]
  | returning =>
    refine ⟨hstage, hpulsed, ?_, fun _ => Or.inl rfl, WrStage.noConfusion⟩
    have hpend : (s.tick i).pending .idle = s.asks i := by
      rw [pending, asks, hdesc]
      by_cases hst : s.axi.rx.enableState = .ph1
      · rw [if_pos (enableState_tick.mpr hst), if_pos hst, data_tick hst]
        rfl
      · rw [if_neg fun hc => hst (enableState_tick.mp hc), if_neg hst]
        rfl
    change _ = _ ++ (s.tick i).pending .idle
    rw [hpend, hwritten, tick_asked, h.ledger]
    simp [pending]

/-- **One edge keeps the invariant.** -/
theorem Inv.tick (h : Inv w s) (hheard : s.Heard i) : Inv (w.next (s.wrIn i)) (s.tick i) := by
  by_cases hidle : w = .idle
  · subst hidle
    exact h.tick_idle hheard
  · exact h.tick_busy hheard hidle

end Step

/-! ### Runs -/

section Run

variable {inp : ℕ → RxIn}

/-- The stage of the writer in cycle `n`. -/
def stageAt (inp : ℕ → RxIn) : ℕ → WrStage
  | 0 => .idle
  | n + 1 => (stageAt inp n).next ((trace tick inp {} n).wrIn (inp n))

theorem inv_stageAt (hheard : ∀ n, (trace tick inp {} n).Heard (inp n)) (n : ℕ) :
    Inv (stageAt inp n) (trace tick inp {} n) := by
  induction n with
  | zero => exact inv_reset
  | succ n ih => exact ih.tick (hheard n)

theorem stageAt_of_enabled {n : ℕ} (hheard : ∀ n, (trace tick inp {} n).Heard (inp n))
    (h : stageAt inp n = .enabled) : stageAt inp (n + 1) = .writing := by
  have henable : (trace tick inp {} n).wr.writeEnable = true := by
    have hstage := (inv_stageAt hheard n).stage
    rw [h] at hstage
    exact hstage.writeEnable
  rw [stageAt, h, WrStage.next, show ((trace tick inp {} n).wrIn (inp n)).full = false from (hheard n).room henable]
  rfl

theorem exists_completing (hheard : ∀ n, (trace tick inp {} n).Heard (inp n)) {n : ℕ}
    (h : stageAt inp n = .enabled ∨ stageAt inp n = .writing) : ∃ m, n ≤ m ∧ stageAt inp m = .completing := by
  rcases h with h | h
  · refine ⟨n + 2, by omega, ?_⟩
    rw [stageAt, stageAt_of_enabled hheard h]
    rfl
  · refine ⟨n + 1, by omega, ?_⟩
    rw [stageAt, h]
    rfl

theorem stageAt_of_completing {n : ℕ} (h : stageAt inp n = .completing) : stageAt inp (n + 2) = .idle := by
  rw [stageAt, stageAt, h]
  rfl

theorem exists_idle (hheard : ∀ n, (trace tick inp {} n).Heard (inp n)) (n : ℕ) :
    ∃ m, n ≤ m ∧ stageAt inp m = .idle := by
  cases hst : stageAt inp n with
  | idle => exact ⟨n, Nat.le_refl n, hst⟩
  | stuck => exact absurd hst (inv_stageAt hheard n).moving
  | completing => exact ⟨n + 2, by omega, stageAt_of_completing hst⟩
  | returning =>
    refine ⟨n + 1, by omega, ?_⟩
    rw [stageAt, hst]
    rfl
  | enabled =>
    obtain ⟨m, hle, hm⟩ := exists_completing hheard (Or.inl hst)
    exact ⟨m + 2, by omega, stageAt_of_completing hm⟩
  | writing =>
    obtain ⟨m, hle, hm⟩ := exists_completing hheard (Or.inr hst)
    exact ⟨m + 2, by omega, stageAt_of_completing hm⟩

theorem exists_not_pending (hheard : ∀ n, (trace tick inp {} n).Heard (inp n)) (n : ℕ) :
    ∃ m, n ≤ m ∧ (trace tick inp {} m).pending (stageAt inp m) = [] := by
  have hdone : ∀ m, stageAt inp m = .completing → (trace tick inp {} m).pending (stageAt inp m) = [] := by
    intro m hm
    rw [hm]
    rfl
  cases hst : stageAt inp n with
  | stuck => exact absurd hst (inv_stageAt hheard n).moving
  | completing | returning =>
    refine ⟨n, Nat.le_refl n, ?_⟩
    rw [hst]
    rfl
  | enabled =>
    obtain ⟨m, hle, hm⟩ := exists_completing hheard (Or.inl hst)
    exact ⟨m, hle, hdone m hm⟩
  | writing =>
    obtain ⟨m, hle, hm⟩ := exists_completing hheard (Or.inr hst)
    exact ⟨m, hle, hdone m hm⟩
  | idle =>
    by_cases hph2 : (trace tick inp {} n).axi.rx.enableState = .ph2
    · -- Linux' second cycle: the writer takes the request now
      have hnext : stageAt inp (n + 1) = .enabled := by
        have hpulsed := (inv_stageAt hheard n).pulsed
        rw [Pulsed, hph2] at hpulsed
        rw [stageAt, hst, WrStage.next]
        exact if_pos (Or.inr hpulsed)
      obtain ⟨m, hle, hm⟩ := exists_completing hheard (Or.inl hnext)
      exact ⟨m, by omega, hdone m hm⟩
    · refine ⟨n, Nat.le_refl n, ?_⟩
      rw [hst]
      exact if_neg hph2

/-- **The receive buffers reach the FIFO**, each once and in order, and the writer returns to dispatch state 0, if
every request is heard. -/
theorem buffers_delivered (inp : ℕ → RxIn) (hheard : ∀ n, (trace tick inp {} n).Heard (inp n)) :
    Delivered (fun n => (trace tick inp {} n).asked) (fun n => (trace tick inp {} n).written)
      ∧ ∀ n, ∃ m, n ≤ m ∧ (trace tick inp {} m).wr.dispatchState = .ph0 := by
  constructor
  · exact delivered_of_pending (fun n => (inv_stageAt hheard n).ledger) (fun n => List.prefix_append _ _)
      (exists_not_pending hheard)
  · intro n
    obtain ⟨m, hle, hm⟩ := exists_idle hheard n
    refine ⟨m, hle, ?_⟩
    have hstage := (inv_stageAt hheard m).stage
    rw [hm] at hstage
    exact hstage.dispatchState

end Run

/-! ### Two runs -/

theorem rest_trace {inp : ℕ → RxIn} {n : ℕ} (hinp : ∀ k, n ≤ k → inp k = {})
    (haxi : (trace tick inp {} n).axi.tick {} = (trace tick inp {} n).axi)
    (hwr : (trace tick inp {} n).wr.tick ((trace tick inp {} n).wrIn {}) = (trace tick inp {} n).wr) (k : ℕ) :
    (trace tick inp {} (n + k)).axi = (trace tick inp {} n).axi
      ∧ (trace tick inp {} (n + k)).wr = (trace tick inp {} n).wr := by
  induction k with
  | zero => exact ⟨rfl, rfl⟩
  | succ k ih =>
    obtain ⟨hka, hkw⟩ := ih
    have hin := hinp (n + k) (Nat.le_add_right n k)
    constructor
    · change (trace tick inp {} (n + k)).axi.tick (inp (n + k)).axi = _
      rw [hin, hka]
      exact haxi
    · change (trace tick inp {} (n + k)).wr.tick ((trace tick inp {} (n + k)).wrIn (inp (n + k))) = _
      rw [hin, hkw, wrIn, hka]
      exact hwr

/-- Linux asks for a buffer by its write of cycle 1, and the IRQ machine in cycle 12. -/
def servedInp (n : ℕ) : RxIn where
  axi := AxiS00.drives [(2, 0x1000)] n
  desc := if n = 12 then { start := true, data := 0x2000 } else {}

theorem buffers_delivered_served :
    (Delivered (fun n => (trace tick servedInp {} n).asked) (fun n => (trace tick servedInp {} n).written)
        ∧ ∀ n, ∃ m, n ≤ m ∧ (trace tick servedInp {} m).wr.dispatchState = .ph0)
      ∧ (trace tick servedInp {} 20).written = [0x1000, 0x2000] := by
  have hrun : (∀ n < 20, (trace tick servedInp {} n).Heard (servedInp n))
      ∧ (trace tick servedInp {} 20).axi.tick {} = (trace tick servedInp {} 20).axi
      ∧ (trace tick servedInp {} 20).wr.tick ((trace tick servedInp {} 20).wrIn {}) = (trace tick servedInp {} 20).wr
      ∧ (trace tick servedInp {} 20).axi.rx.enableState = .ph0
      ∧ (trace tick servedInp {} 20).written = [0x1000, 0x2000] := by
    decide +kernel
  obtain ⟨hheard, haxi, hwr, hrest, hwritten⟩ := hrun
  have hquiet : ∀ k, 20 ≤ k → servedInp k = {} := by
    intro k hk
    have hnone : AxiS00.drives [(2, 0x1000)] k = {} := by
      rw [AxiS00.drives, List.getElem?_eq_none_iff.mpr (by simp only [List.length_singleton]; omega)]
    rw [servedInp, hnone, if_neg (by omega)]
  refine ⟨buffers_delivered servedInp fun n => ?_, hwritten⟩
  by_cases hn : n < 20
  · exact hheard n hn
  · obtain ⟨k, rfl⟩ := Nat.exists_eq_add_of_le (Nat.le_of_not_lt hn)
    have hk := (rest_trace hquiet haxi hwr k).1
    rw [hquiet _ (Nat.le_add_right 20 k)]
    refine ⟨fun hc => absurd hc Bool.false_ne_true, fun hc => ?_, fun _ _ => rfl, fun _ => rfl⟩
    rw [hk, hrest] at hc
    exact WrPhase.noConfusion hc

/-- The IRQ machine asks in cycle 5, while the writer is busy with the buffer of Linux, and again in cycle 20. -/
def unheardInp (n : ℕ) : RxIn where
  axi := AxiS00.drives [(2, 0x1000)] n
  desc := if n = 5 then { start := true, data := 0x2000 } else if n = 20 then { start := true, data := 0x3000 } else {}

/-- Buffer `0x2000` is never written. -/
theorem buffer_lost :
    ¬ ∀ inp : ℕ → RxIn, (∀ n, (inp n).desc.start = true → (inp (n + 1)).desc.start = false) →
      Delivered (fun n => (trace tick inp {} n).asked) (fun n => (trace tick inp {} n).written)
        ∧ ∀ n, ∃ m, n ≤ m ∧ (trace tick inp {} m).wr.dispatchState = .ph0 := by
  intro h
  have hlost : ¬ (trace tick unheardInp {} 30).written <+: (trace tick unheardInp {} 30).asked := by
    decide +kernel
  refine hlost ((h unheardInp ?_).1.early 30)
  intro n hn
  have hcases : n = 5 ∨ n = 20 := by
    by_contra hnot
    obtain ⟨h5, h20⟩ := not_or.mp hnot
    rw [unheardInp, if_neg h5, if_neg h20] at hn
    exact Bool.false_ne_true hn
  rcases hcases with rfl | rfl <;> rfl

end RxBuffers

end VanetTdma.Fpga
