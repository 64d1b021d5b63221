import VanetTdma.Fpga.LiteClients

/-!
# The interrupt filter of `desc_processor.v`

The card keeps its pending causes in `AR_ISR`, to which it may add at any time.  IRQ reads the register, handles the
received packets and the transmissions of the FPGA's own queue, writes the other causes into a FIFO for Linux, and
then empties the register by a read of `AR_ISR_RAC`.  What that second read returns is not looked at.

* `CardRun` — a run with the card's register and a record of what was done in the pass;
* `CardRun.Inv.tick` — how far a pass is, state by state;
* `CardRun.cleared_iff` — the causes that the second read empties are accounted for exactly if they are among those
  that the first read returned, and were not written to a full FIFO.
-/

namespace VanetTdma.Fpga

open SharedBus Clocked

/-! ### The card -/

/-- What comes from outside in one cycle, with the causes that the card adds and the flag of the FIFO for Linux. -/
structure CardCycle where
  dp : DpCycle := {}
  newBits : BitVec 32 := 0
  irqfifoFull : Bool := false

/-- The record of a pass, which begins when IRQ's read of `AR_ISR` is completed. -/
structure IrqPass where
  /-- What the read returned. -/
  snap : BitVec 32 := 0
  /-- The receive buffers were taken until one was found that is not done. -/
  emptied : Bool := false
  /-- `AR_ISR_S0` named the FPGA's queue. -/
  ours : Bool := false
  /-- The causes written to the FIFO for Linux, and those written to it while it was full. -/
  pushed : BitVec 32 := 0
  dropped : BitVec 32 := 0

/-- Nothing was written to the FIFO in this pass. -/
def IrqPass.Clean (p : IrqPass) : Prop := p.pushed = 0 ∧ p.dropped = 0

def IrqPass.Fresh (p : IrqPass) : Prop := p.emptied = false ∧ p.ours = false ∧ p.Clean

/-- A run with the card's register and the record of the pass. -/
structure CardRun where
  s : DescProcessor := {}
  /-- The machine whose request the dispatcher of the lite bus took over last. -/
  server : LiteClient := .ur
  isr : BitVec 32 := 0
  pass : IrqPass := {}

namespace CardRun

/-- A read of the card's register is completed at this edge. -/
def Reads (r : CardRun) (i : CardCycle) (addr : BitVec 32) : Prop :=
  r.s.lite.completes (r.s.liteIn i.dp) = some (.read (ath9kBaseAddr + addr))

/-- A read of the card's register that IRQ has asked for is completed at this edge. -/
def IrqReads (r : CardRun) (i : CardCycle) (addr : BitVec 32) : Prop :=
  r.s.liteDone i.dp r.server .irq = [.read (ath9kBaseAddr + addr)]

instance (r : CardRun) (i : CardCycle) (addr : BitVec 32) : Decidable (r.Reads i addr) :=
  inferInstanceAs (Decidable (_ = _))

instance (r : CardRun) (i : CardCycle) (addr : BitVec 32) : Decidable (r.IrqReads i addr) :=
  inferInstanceAs (Decidable (_ = _))

/-- The card answers a read of its register. -/
def cycle (r : CardRun) (i : CardCycle) : DpCycle :=
  { i.dp with liteMstrdD := if r.Reads i arIsr ∨ r.Reads i arIsrRac then r.isr else i.dp.liteMstrdD }

/-- IRQ leaves the loop over the receive buffers. -/
def empties (r : CardRun) (i : CardCycle) : Bool :=
  r.s.irq.state = .peekPktJudge && (r.s.tick (r.cycle i)).irq.state = .isrJudgeTxok

def record (r : CardRun) (i : CardCycle) : IrqPass :=
  if r.IrqReads i arIsr then { snap := r.isr }
  else
    { r.pass with
      emptied := r.pass.emptied || r.empties i
      ours := if r.IrqReads i arIsrS0 then i.dp.liteMstrdD = fpgaQcu else r.pass.ours
      pushed :=
        if r.s.irq.irqfifoWrEn && !i.irqfifoFull then r.pass.pushed ||| r.s.irq.irqfifoDwrite else r.pass.pushed
      dropped :=
        if r.s.irq.irqfifoWrEn && i.irqfifoFull then r.pass.dropped ||| r.s.irq.irqfifoDwrite else r.pass.dropped }

/-- One edge.  A read of `AR_ISR_RAC` empties the register; what the card adds at that edge stays. -/
def tick (r : CardRun) (i : CardCycle) : CardRun where
  s := r.s.tick (r.cycle i)
  server := r.s.liteServer i.dp r.server
  isr := (if r.Reads i arIsrRac then 0 else r.isr) ||| i.newBits
  pass := r.record i

/-- A cause was handled by IRQ in this pass, or written to the FIFO for Linux, or is one of the two that are not
passed on: bits 31 and 24 are `RXINTM` and `RXMINTR`, bit 0 is `HP_RXOK` and bit 6 `TXOK`. -/
def Accounted (r : CardRun) (c : ℕ) : Prop :=
  c = 31 ∨ c = 24 ∨ c = 0 ∧ r.pass.emptied = true ∨ c = 6 ∧ r.pass.ours = true ∨ r.pass.pushed.getLsbD c = true

end CardRun

/-! ### The registers of IRQ in the course of a pass -/

/-- The request of IRQ in the states in which it has one. -/
def IrqState.job : IrqState → Option LiteJob
  | .getAsyncCauseStart | .getAsyncCauseMid | .getAsyncCauseWait => some (.read (ath9kBaseAddr + arIntrAsyncCause))
  | .disableStart | .disableMid | .disableWait => some (.write (ath9kBaseAddr + arIer) arIerDisable)
  | .getIsrStart | .getIsrMid | .getIsrWait => some (.read (ath9kBaseAddr + arIsr))
  | .handleTxokStart | .handleTxokMid | .handleTxokWait => some (.read (ath9kBaseAddr + arIsrS0))
  | .clearStart | .clearMid | .clearWait => some (.read (ath9kBaseAddr + arIsrRac))
  | .enableStart | .enableMid | .enableWait => some (.write (ath9kBaseAddr + arIer) arIerEnable)
  | _ => none

/-- IRQ has not yet found a transmission of the FPGA's queue. -/
def IrqState.beforeTxok : IrqState → Bool
  | .getAsyncCauseStart | .getAsyncCauseMid | .getAsyncCauseWait | .judgeAsyncCause | .disableStart | .disableMid
  | .disableWait | .getIsrStart | .getIsrMid | .getIsrWait | .isrJudgeRxhp | .peekPktStart | .peekPktMid
  | .peekPktWait | .peekPktSetaddr | .peekPktSetaddrWait | .peekPktJudge | .rxfifoDequeuePushbackStart
  | .rxfifoDequeuePushbackWait | .rxfifoDequeuePushbackEnd | .handleTdmaCtlStart | .handleTdmaCtlWait
  | .handleTdmaCtlEnd | .isrJudgeTxok | .handleTxokStart | .handleTxokMid | .handleTxokWait => true
  | _ => false

/-- IRQ has not yet read `AR_ISR`. -/
def IrqState.beforeIsr : IrqState → Bool
  | .getAsyncCauseStart | .getAsyncCauseMid | .getAsyncCauseWait | .judgeAsyncCause => true
  | _ => false

/-- What the registers of IRQ hold. -/
structure Irq.Neat (m : Irq) : Prop where
  job : ∀ j, m.state.job = some j → m.lite.job = j
  txok : m.state.beforeTxok = true → m.clearTxokFlag = false
  isrP : m.state.beforeIsr = true → m.isrP = 0
  wrEn : m.irqfifoWrEn = decide (m.state = .passStart)
  dwrite : m.state = .passStart → m.irqfifoDwrite = m.isrP &&& ~~~m.handled

theorem Irq.neat_init : Irq.Neat {} where
  job _ h := nomatch h
  txok h := nomatch h
  isrP h := nomatch h
  wrEn := rfl
  dwrite h := nomatch h

theorem Irq.Neat.tick {m : Irq} (h : m.Neat) (i : IrqIn) : (m.tick i).Neat := by
  obtain ⟨hjob, htxok, hisrP, hwr, hdw⟩ := h
  unfold Irq.tick nextState
  cases hst : m.state <;> rw [hst] at hjob htxok hisrP hwr hdw <;> dsimp only <;> (repeat' split) <;>
    refine ⟨fun j hj => ?_, fun ht => ?_, fun ht => ?_, ?_, fun ht => ?_⟩ <;>
    first
    | exact hjob j hj
    | exact Option.some.inj hj
    | exact nomatch hj
    | exact htxok ht
    | exact hisrP ht
    | exact hwr
    | rfl
    | exact nomatch ht

theorem Irq.act_keeps (i : IrqIn) (m : Irq) {n : IrqState} (hstart : n ≠ .getAsyncCauseStart)
    (hjudge : n ≠ .isrJudgeRxhp) : (m.act i n).isrP = m.isrP ∧ (m.act i n).clearRxhpFlag = m.clearRxhpFlag := by
  cases n <;> first | exact ⟨rfl, rfl⟩ | exact absurd rfl hstart | exact absurd rfl hjudge

theorem Irq.act_clearTxokFlag (i : IrqIn) (m : Irq) {n : IrqState} (hstart : n ≠ .getAsyncCauseStart)
    (hend : n ≠ .handleTxokEnd) : (m.act i n).clearTxokFlag = m.clearTxokFlag := by
  cases n <;> first | rfl | exact absurd rfl hstart | exact absurd rfl hend

theorem and_twoPow_ne_zero_iff {w k : ℕ} (x : BitVec w) (hk : k < w) :
    x &&& BitVec.twoPow w k ≠ 0 ↔ x.getLsbD k = true := by
  rw [BitVec.and_twoPow]
  cases hx : x.getLsbD k with
  | false => simp
  | true =>
    simp only [if_true, iff_true, ne_eq]
    intro h
    have hbit := congrArg (fun v => BitVec.getLsbD v k) h
    simp [hk] at hbit

theorem Irq.and_hpRxok (x : BitVec 32) : x &&& arIsrHpRxok ≠ 0 ↔ x.getLsbD 0 = true := by
  rw [show arIsrHpRxok = BitVec.twoPow 32 0 by decide]
  exact and_twoPow_ne_zero_iff x (by decide)

theorem Irq.and_txok (x : BitVec 32) : x &&& arIsrTxok ≠ 0 ↔ x.getLsbD 6 = true := by
  rw [show arIsrTxok = BitVec.twoPow 32 6 by decide]
  exact and_twoPow_ne_zero_iff x (by decide)

theorem Irq.getLsbD_handled (m : Irq) (c : ℕ) :
    m.handled.getLsbD c = (c = 6 && m.clearTxokFlag || c = 0 && m.clearRxhpFlag || (c = 31 || c = 24)) := by
  have htx : arIsrTxok = BitVec.twoPow 32 6 := by decide
  have hhp : arIsrHpRxok = BitVec.twoPow 32 0 := by decide
  have hrm : arIsrRxintm = BitVec.twoPow 32 31 := by decide
  have hrt : arIsrRxmintr = BitVec.twoPow 32 24 := by decide
  rw [handled, htx, hhp, hrm, hrt]
  cases m.clearTxokFlag <;> cases m.clearRxhpFlag <;>
    simp [BitVec.getLsbD_or, BitVec.getLsbD_twoPow, eq_comm]

theorem Irq.of_judgePass (m : Irq) (h : m.judgePass = false) : m.isrP ≠ 0 ∧ m.isrP &&& ~~~m.handled = 0 := by
  unfold judgePass at h
  unfold handled
  split at h
  case isTrue hc =>
    rw [hc.1, hc.2]
    cases m.clearTxokFlag <;> decide
  split at h
  case isTrue hc =>
    rw [hc.1, hc.2.1, hc.2.2]
    decide
  split at h
  case isTrue hc =>
    rw [hc.1, hc.2]
    cases m.clearRxhpFlag <;> decide
  split at h
  case isTrue hc =>
    rcases hc with hc | hc | hc <;> rw [hc] <;> cases m.clearTxokFlag <;> cases m.clearRxhpFlag <;> decide
  exact Bool.noConfusion h

theorem Irq.job_of_waiting (i : IrqIn) (m : Irq) (h : (m.tick i).state.liteStage = .waiting) :
    (m.tick i).lite.job = m.lite.job := by
  unfold tick at *
  cases hn : m.nextState i <;> rw [hn] at h <;> first | rfl | exact Stage.noConfusion h

/-! ### The transaction of IRQ on the bus -/

namespace DescProcessor

variable {s : DescProcessor} {i : DpCycle} {k₀ : LiteClient} {j : LiteJob}

/-- While IRQ waits, the bus has its request. -/
def IrqJob (s : DescProcessor) (k₀ : LiteClient) : Prop :=
  s.irq.state.liteStage = .waiting → ∀ j,
    s.lite.port k₀ = .busy .irq j ∨ s.lite.port k₀ = .ended .irq j ∨ s.lite.port k₀ = .reporting .irq j →
      j = s.irq.lite.job

theorem IrqJob.tick (hjob : s.IrqJob k₀) (h : s.LiteInv k₀) (i : DpCycle) :
    (s.tick i).IrqJob (s.liteServer i k₀) := by
  intro hwait j hj
  have hsame : (s.tick i).irq.lite.job = s.irq.lite.job := s.irq.job_of_waiting (s.irqIn i) hwait
  rw [hsame]
  have hport : (s.tick i).lite.port (s.liteServer i k₀)
      = (s.lite.port k₀).tick (s.liteBus k₀).hold.offer (s.lite.advances (s.liteIn i)) :=
    congrArg Bus.port (h.liteBus_tick i)
  rw [hport] at hj
  -- the request on the port is that of IRQ before the edge already
  have hold : ∃ j₀, (s.lite.port k₀ = .busy .irq j₀ ∨ s.lite.port k₀ = .ended .irq j₀) ∧ j₀ = s.irq.lite.job := by
    have hnext := s.liteStage_next i .irq
    rw [show (s.tick i).liteStage .irq = .waiting from hwait] at hnext
    cases hst : s.liteStage .irq with
    | quiet => rw [hst] at hnext; exact Bool.noConfusion hnext
    | fresh => rw [hst] at hnext; exact Bool.noConfusion hnext
    | calling =>
      have hack : s.liteArb.ack .irq = true := by
        rw [hst] at hnext
        by_contra hack
        rw [Bool.not_eq_true] at hack
        rw [hack] at hnext
        exact Bool.noConfusion hnext
      rw [← h.arb.acks] at hack
      obtain ⟨j₀, hhold⟩ := Hold.eq_acking_of_acks hack
      have hcall := (h.clients .irq).eq_calling (Or.inr hhold)
      rw [liteClient, hst] at hcall
      refine ⟨j₀, Or.inl (h.link.port_of_acking hhold), ?_⟩
      cases hcall
      rfl
    | waiting =>
      have hat := h.clients .irq
      rw [show s.liteClient .irq = .waiting by rw [liteClient, hst]; rfl] at hat
      have hstay : (s.liteBus k₀).port.done = false := by
        rw [← h.leave_own (k := .irq) LiteClient.noConfusion]
        rw [hst] at hnext
        by_contra hleave
        rw [Bool.not_eq_false] at hleave
        rw [hleave] at hnext
        exact Bool.noConfusion hnext
      cases hat with
      | idle hc => exact absurd rfl hc
      | waiting hh hp =>
        obtain ⟨j₀, hj₀⟩ := hp LiteClient.noConfusion
        refine ⟨j₀, ?_, hjob hst j₀ hj₀⟩
        rcases hj₀ with hb | he | hr
        · exact Or.inl hb
        · exact Or.inr he
        · rw [hr] at hstay
          exact Bool.noConfusion hstay
  obtain ⟨j₀, hb | he, hj₀⟩ := hold
  · rw [hb] at hj
    rw [← hj₀]
    generalize s.lite.advances (s.liteIn i) = go at hj
    cases go <;> rcases hj with hj | hj | hj <;> cases hj <;> rfl
  · rw [he, Port.tick] at hj
    rw [← hj₀]
    rcases hj with hj | hj | hj <;> cases hj
    rfl

theorem LiteInv.irq_of_busy (h : s.LiteInv k₀) (hjob : s.IrqJob k₀) (hp : s.lite.port k₀ = .busy .irq j) :
    j = s.irq.lite.job ∧ (s.irq.state.liteStage = .calling ∨ s.irq.state.liteStage = .waiting) := by
  have hat := h.clients .irq
  generalize hc : s.liteClient .irq = c at hat
  cases hat with
  | idle _ _ hspares => exact absurd hp (hspares j).2
  | asking hh hport =>
    rcases hport with htaken | hspares
    · exact nomatch htaken.symm.trans hp
    · exact absurd hp (hspares j).2
  | @acking j' hh =>
    have hstage := stage_of_client (g := .calling) hc
    have hj := (h.link.port_of_acking hh).symm.trans hp
    cases hj
    refine ⟨?_, Or.inl hstage⟩
    rw [liteClient, hstage] at hc
    cases hc
    rfl
  | waiting =>
    have hstage := stage_of_client (g := .waiting) (j := j) hc
    exact ⟨hjob hstage j (Or.inl hp), Or.inr hstage⟩

end DescProcessor

/-! ### A pass, state by state -/

namespace CardRun

variable {r : CardRun} {i : CardCycle} {addr : BitVec 32} {j : LiteJob}

/-- The bus as `desc_processor` sees it. -/
def port (r : CardRun) : Port LiteClient LiteJob := r.s.lite.port r.server

/-- The invariants of the machines and of the bus. -/
structure Base (r : CardRun) : Prop where
  inv : r.s.LiteInv r.server
  neat : r.s.irq.Neat
  job : r.s.IrqJob r.server

theorem base_init : Base {} where
  inv := DescProcessor.liteInv_init
  neat := Irq.neat_init
  job h := nomatch h

theorem Base.tick (h : r.Base) (i : CardCycle) : (r.tick i).Base where
  inv := h.inv.tick (r.cycle i)
  neat := h.neat.tick (r.s.irqIn (r.cycle i))
  job := h.job.tick h.inv (r.cycle i)

theorem job_isSome {st : IrqState} (h : st.liteStage = .calling ∨ st.liteStage = .waiting) : st.job.isSome = true := by
  cases st <;> first | rfl | (rcases h with h | h <;> exact Stage.noConfusion h)

theorem Base.of_irqReads (h : r.Base) (hr : r.IrqReads i addr) :
    r.s.irq.state.job = some (.read (ath9kBaseAddr + addr)) ∧ r.port = .busy .irq (.read (ath9kBaseAddr + addr))
      ∧ r.s.lite.completes (r.s.liteIn i.dp) = some (.read (ath9kBaseAddr + addr)) := by
  have hexec := h.inv.bus.executes_port (i := r.s.liteIn i.dp) (s := r.server) (k := LiteClient.irq)
  rw [show (if r.s.lite.dispatchType = .dp ∧ r.server = .irq then (r.s.lite.completes (r.s.liteIn i.dp)).toList
    else []) = [.read (ath9kBaseAddr + addr)] from hr] at hexec
  obtain ⟨hport, -⟩ := Port.busy_of_executes hexec
  obtain ⟨hj, hstage⟩ := h.inv.irq_of_busy h.job hport
  refine ⟨?_, hport, ?_⟩
  · obtain ⟨j, hsome⟩ := Option.isSome_iff_exists.mp (job_isSome hstage)
    rw [hsome, hj, h.neat.job j hsome]
  · have hlist : (r.s.lite.completes (r.s.liteIn i.dp)).toList = [.read (ath9kBaseAddr + addr)] := by
      unfold IrqReads DescProcessor.liteDone at hr
      split at hr
      · exact hr
      · exact nomatch hr
    cases hc : r.s.lite.completes (r.s.liteIn i.dp) with
    | none => rw [hc] at hlist; exact nomatch hlist
    | some j' => rw [hc] at hlist; rw [(List.cons.inj hlist).1]

theorem Base.not_irqReads (h : r.Base) (hjob : r.s.irq.state.job ≠ some (.read (ath9kBaseAddr + addr))) :
    ¬r.IrqReads i addr := fun hr => hjob (h.of_irqReads hr).1

/-- The transaction of IRQ has come to its end. -/
def Over (r : CardRun) : Prop := ∃ j, r.port = .ended .irq j ∨ r.port = .reporting .irq j

theorem Base.not_irqReads_of_over (h : r.Base) (hover : r.Over) : ¬r.IrqReads i addr := by
  intro hr
  have hbusy := (h.of_irqReads hr).2.1
  obtain ⟨j, hp | hp⟩ := hover <;> exact nomatch hbusy.symm.trans hp

theorem Base.record_eq (h : r.Base) (hisr : ¬r.IrqReads i arIsr) (hpass : r.s.irq.state ≠ .passStart) :
    (r.tick i).pass
      = { r.pass with
          emptied := r.pass.emptied || r.empties i
          ours := if r.IrqReads i arIsrS0 then i.dp.liteMstrdD = fpgaQcu else r.pass.ours } := by
  have hwr : r.s.irq.irqfifoWrEn = false := by rw [h.neat.wrEn, decide_eq_false hpass]
  change r.record i = _
  rw [record, if_neg hisr, hwr]
  simp only [Bool.false_and, Bool.false_eq_true, if_false]

theorem empties_eq_false (hpeek : r.s.irq.state ≠ .peekPktJudge) : r.empties i = false := by
  rw [empties, decide_eq_false hpeek, Bool.false_and]

/-- The states in which nothing is recorded. -/
def quiet (st : IrqState) : Bool :=
  st.job ≠ some (.read (ath9kBaseAddr + arIsr)) && st.job ≠ some (.read (ath9kBaseAddr + arIsrS0))
    && st ≠ .passStart && st ≠ .peekPktJudge

theorem Base.pass_eq (h : r.Base) (hq : quiet r.s.irq.state = true) : (r.tick i).pass = r.pass := by
  simp only [quiet, Bool.and_eq_true, decide_eq_true_eq] at hq
  obtain ⟨⟨⟨hisr, hs0⟩, hpass⟩, hpeek⟩ := hq
  rw [h.record_eq (h.not_irqReads hisr) hpass, if_neg (h.not_irqReads hs0), empties_eq_false hpeek, Bool.or_false]

theorem tick_data (r : CardRun) (i : CardCycle) :
    (r.tick i).s.singleReadDataLite
      = if r.s.lite.nextIpicState (r.s.liteIn i.dp) = .singleRdEnd then (r.cycle i).liteMstrdD
        else r.s.singleReadDataLite := rfl

theorem Base.data_eq (h : r.Base) (hp : r.port = .ended .irq j ∨ r.port = .reporting .irq j) :
    (r.tick i).s.singleReadDataLite = r.s.singleReadDataLite := by
  rw [tick_data, h.inv.bus.nextIpicState_idle hp]
  exact if_neg nofun

theorem Base.data_of_irqReads (h : r.Base) (hr : r.IrqReads i addr) :
    (r.tick i).s.singleReadDataLite = (r.cycle i).liteMstrdD := by
  rw [tick_data, if_pos (LiteBus.nextIpicState_of_read (h.of_irqReads hr).2.2)]

theorem Base.port_tick (h : r.Base) (i : CardCycle) :
    (r.tick i).port
      = r.port.tick (r.s.liteBus r.server).hold.offer (r.s.lite.advances (r.s.liteIn i.dp)) :=
  congrArg Bus.port (h.inv.liteBus_tick (r.cycle i))

theorem Base.irqReads_of_ended (h : r.Base) (hjob : r.s.irq.state.job = some (.read (ath9kBaseAddr + addr)))
    (hp : (r.tick i).port = .ended .irq j) : r.IrqReads i addr := by
  rw [h.port_tick] at hp
  obtain ⟨hbusy, hgo⟩ := Port.busy_of_tick_ended hp
  have hexec := h.inv.bus.executes_port (i := r.s.liteIn i.dp) (s := r.server) (k := LiteClient.irq)
  rw [show r.s.lite.port r.server = .busy .irq j from hbusy, hgo,
    (h.inv.irq_of_busy h.job hbusy).1, h.neat.job _ hjob] at hexec
  exact hexec.symm

/-- IRQ has the value that was read. -/
structure Knows (r : CardRun) : Prop where
  isrP : r.s.irq.isrP = r.pass.snap
  rxhp : r.s.irq.clearRxhpFlag = r.pass.snap.getLsbD 0

/-- What IRQ has to do with the receive buffers is done. -/
structure Received (r : CardRun) : Prop extends Knows r where
  emptied : r.pass.emptied = r.pass.snap.getLsbD 0
  clean : r.pass.Clean

/-- What IRQ has to do itself is done. -/
structure Ready (r : CardRun) : Prop extends Knows r where
  emptied : r.pass.emptied = r.pass.snap.getLsbD 0
  txok : r.s.irq.clearTxokFlag = r.pass.ours
  ours : r.pass.ours = true → r.pass.snap.getLsbD 6 = true

/-- The causes that were not handled have been written to the FIFO, or lost there. -/
def Written (r : CardRun) : Prop :=
  r.pass.pushed = r.s.irq.isrP &&& ~~~r.s.irq.handled ∧ r.pass.dropped = 0
    ∨ r.pass.pushed = 0 ∧ r.pass.dropped = r.s.irq.isrP &&& ~~~r.s.irq.handled

/-- How far a pass is in each state. -/
def Inv (r : CardRun) : IrqState → Prop
  | .getIsrWait => r.Over → r.s.singleReadDataLite = r.pass.snap ∧ r.pass.Fresh
  | .isrJudgeRxhp => r.s.singleReadDataLite = r.pass.snap ∧ r.Knows ∧ r.pass.Fresh
  | .peekPktStart | .peekPktMid | .peekPktWait | .peekPktSetaddr | .peekPktSetaddrWait | .peekPktJudge
  | .rxfifoDequeuePushbackStart | .rxfifoDequeuePushbackWait | .rxfifoDequeuePushbackEnd | .handleTdmaCtlStart
  | .handleTdmaCtlWait | .handleTdmaCtlEnd => r.Knows ∧ r.pass.snap.getLsbD 0 = true ∧ r.pass.Fresh
  | .isrJudgeTxok => r.Received ∧ r.pass.ours = false
  | .handleTxokStart | .handleTxokMid => r.Received ∧ r.pass.snap.getLsbD 6 = true
  | .handleTxokWait =>
    r.Received ∧ r.pass.snap.getLsbD 6 = true
      ∧ (r.Over → r.pass.ours = decide (r.s.singleReadDataLite = fpgaQcu))
  | .handleTxokEnd => r.Ready ∧ r.pass.Clean
  | .clearJudge | .passJudge => r.s.irq.passFlag = r.s.irq.judgePass ∧ (r.s.irq.isrP ≠ 0 → r.Ready ∧ r.pass.Clean)
  | .passStart => r.s.irq.isrP ≠ 0 → r.Ready ∧ r.pass.Clean
  | .passDone => r.s.irq.isrP ≠ 0 → r.Ready ∧ r.Written
  | .clearStart | .clearMid | .clearWait => r.Ready ∧ r.Written
  | _ => True

variable {n : IrqState}

/-- IRQ goes on to state `n`. -/
def Goes (r : CardRun) (i : CardCycle) (n : IrqState) : Prop := r.s.irq.nextState (r.s.irqIn (r.cycle i)) = n

theorem Goes.irq (hn : r.Goes i n) : (r.tick i).s.irq = r.s.irq.act (r.s.irqIn (r.cycle i)) n :=
  congrArg (r.s.irq.act _) hn

theorem Knows.tick (hk : r.Knows) (hn : r.Goes i n) (hstart : n ≠ .getAsyncCauseStart) (hjudge : n ≠ .isrJudgeRxhp)
    (hsnap : (r.tick i).pass.snap = r.pass.snap) : (r.tick i).Knows := by
  have hkeep := r.s.irq.act_keeps (r.s.irqIn (r.cycle i)) hstart hjudge
  refine ⟨?_, ?_⟩
  · rw [hn.irq, hkeep.1, hsnap, hk.isrP]
  · rw [hn.irq, hkeep.2, hsnap, hk.rxhp]

theorem Received.tick (hk : r.Received) (hn : r.Goes i n) (hstart : n ≠ .getAsyncCauseStart)
    (hjudge : n ≠ .isrJudgeRxhp) (hpass : ∃ b, (r.tick i).pass = { r.pass with ours := b }) :
    (r.tick i).Received := by
  obtain ⟨b, hpass⟩ := hpass
  refine ⟨hk.toKnows.tick hn hstart hjudge (by rw [hpass]), ?_, ?_⟩
  · rw [hpass, hk.emptied]
  · rw [hpass]
    exact hk.clean

theorem Ready.tick (hk : r.Ready) (hn : r.Goes i n) (hstart : n ≠ .getAsyncCauseStart) (hjudge : n ≠ .isrJudgeRxhp)
    (hend : n ≠ .handleTxokEnd) (hsnap : (r.tick i).pass.snap = r.pass.snap)
    (hemptied : (r.tick i).pass.emptied = r.pass.emptied) (hours : (r.tick i).pass.ours = r.pass.ours) :
    (r.tick i).Ready where
  toKnows := hk.toKnows.tick hn hstart hjudge hsnap
  emptied := by rw [hemptied, hsnap, hk.emptied]
  txok := by rw [hn.irq, r.s.irq.act_clearTxokFlag _ hstart hend, hours, hk.txok]
  ours := by rw [hours, hsnap]; exact hk.ours

/-- While a read is waited for, it is completed at this edge, or it was completed before and its data are kept. -/
theorem Base.over_tick (h : r.Base) (hjob : r.s.irq.state.job = some (.read (ath9kBaseAddr + addr)))
    (hover : (r.tick i).Over) : r.IrqReads i addr ∨ r.Over := by
  obtain ⟨j, hended | hrep⟩ := hover
  · exact Or.inl (h.irqReads_of_ended hjob hended)
  · rw [h.port_tick] at hrep
    exact Or.inr ⟨j, Or.inl (Port.ended_of_tick_reporting hrep)⟩

theorem Base.data_of_over (h : r.Base) (hover : r.Over) :
    (r.tick i).s.singleReadDataLite = r.s.singleReadDataLite := by
  obtain ⟨j, hp⟩ := hover
  exact h.data_eq hp

theorem Base.not_over_of_ack (h : r.Base) (hack : r.s.liteArb.ack .irq = true) : ¬r.Over := by
  rintro ⟨j, hover⟩
  rw [← h.inv.arb.acks] at hack
  obtain ⟨j₀, hhold⟩ := Hold.eq_acking_of_acks hack
  have hbusy := h.inv.link.port_of_acking hhold
  rcases hover with hp | hp <;> exact nomatch hbusy.symm.trans hp

theorem Base.over_of_done (h : r.Base) (hwait : r.s.irq.state.liteStage = .waiting)
    (hdone : r.s.lite.doneDp = true) : r.Over := by
  have hat := h.inv.clients .irq
  rw [show r.s.liteClient .irq = .waiting by
    rw [DescProcessor.liteClient, show r.s.liteStage .irq = .waiting from hwait]; rfl] at hat
  have hport : (r.s.liteBus r.server).port.done = true := h.inv.bus.port_done.trans hdone
  obtain ⟨j, hrep⟩ := hat.reports_of_done LiteClient.noConfusion hport
  exact ⟨j, Or.inr hrep⟩

theorem Base.over_getIsr (h : r.Base) (hst : r.s.irq.state = .getIsrMid ∨ r.s.irq.state = .getIsrWait)
    (hi : r.Over → r.s.singleReadDataLite = r.pass.snap ∧ r.pass.Fresh) (hover : (r.tick i).Over) :
    (r.tick i).s.singleReadDataLite = (r.tick i).pass.snap ∧ (r.tick i).pass.Fresh := by
  have hjob : r.s.irq.state.job = some (.read (ath9kBaseAddr + arIsr)) := by
    rcases hst with hst | hst <;> rw [hst] <;> rfl
  rcases h.over_tick hjob hover with hreads | hbefore
  · have hpass : (r.tick i).pass = { snap := r.isr } := if_pos hreads
    rw [h.data_of_irqReads hreads, hpass]
    exact ⟨if_pos (Or.inl (h.of_irqReads hreads).2.2), rfl, rfl, rfl, rfl⟩
  · have hpass : (r.tick i).pass = r.pass := by
      have hpush : r.s.irq.state ≠ .passStart := by rcases hst with hst | hst <;> rw [hst] <;> exact nofun
      have hpeek : r.s.irq.state ≠ .peekPktJudge := by rcases hst with hst | hst <;> rw [hst] <;> exact nofun
      rw [h.record_eq (h.not_irqReads_of_over hbefore) hpush, if_neg (h.not_irqReads_of_over hbefore),
        empties_eq_false hpeek, Bool.or_false]
    rw [h.data_of_over hbefore, hpass]
    exact hi hbefore

theorem Base.pass_txok (h : r.Base) (hst : r.s.irq.state = .handleTxokStart ∨ r.s.irq.state = .handleTxokMid
    ∨ r.s.irq.state = .handleTxokWait) :
    (r.tick i).pass
      = { r.pass with ours := if r.IrqReads i arIsrS0 then i.dp.liteMstrdD = fpgaQcu else r.pass.ours } := by
  have hisr : ¬r.IrqReads i arIsr := h.not_irqReads (by rcases hst with hst | hst | hst <;> rw [hst] <;> decide)
  have hpush : r.s.irq.state ≠ .passStart := by rcases hst with hst | hst | hst <;> rw [hst] <;> exact nofun
  have hpeek : r.s.irq.state ≠ .peekPktJudge := by rcases hst with hst | hst | hst <;> rw [hst] <;> exact nofun
  rw [h.record_eq hisr hpush, empties_eq_false hpeek, Bool.or_false]

theorem Base.over_handleTxok (h : r.Base)
    (hst : r.s.irq.state = .handleTxokMid ∨ r.s.irq.state = .handleTxokWait)
    (hi : r.Over → r.pass.ours = decide (r.s.singleReadDataLite = fpgaQcu)) (hover : (r.tick i).Over) :
    (r.tick i).pass.ours = decide ((r.tick i).s.singleReadDataLite = fpgaQcu) := by
  have hjob : r.s.irq.state.job = some (.read (ath9kBaseAddr + arIsrS0)) := by
    rcases hst with hst | hst <;> rw [hst] <;> rfl
  rw [h.pass_txok (Or.inr hst)]
  rcases h.over_tick hjob hover with hreads | hbefore
  · have hother : ¬(r.Reads i arIsr ∨ r.Reads i arIsrRac) := by
      unfold Reads
      rw [(h.of_irqReads hreads).2.2]
      decide
    rw [if_pos hreads, h.data_of_irqReads hreads, cycle, if_neg hother]
  · rw [if_neg (h.not_irqReads_of_over hbefore), h.data_of_over hbefore]
    exact hi hbefore

theorem Base.inv_peek (h : r.Base) (hq : quiet r.s.irq.state = true) (hn : r.Goes i n)
    (hstart : n ≠ .getAsyncCauseStart) (hjudge : n ≠ .isrJudgeRxhp)
    (hi : r.Knows ∧ r.pass.snap.getLsbD 0 = true ∧ r.pass.Fresh) :
    (r.tick i).Knows ∧ (r.tick i).pass.snap.getLsbD 0 = true ∧ (r.tick i).pass.Fresh := by
  have hpass := h.pass_eq (i := i) hq
  refine ⟨hi.1.tick hn hstart hjudge (congrArg IrqPass.snap hpass), ?_⟩
  rw [hpass]
  exact hi.2

theorem Base.ready_tick (h : r.Base) (hq : quiet r.s.irq.state = true) (hn : r.Goes i n)
    (hstart : n ≠ .getAsyncCauseStart) (hjudge : n ≠ .isrJudgeRxhp) (hend : n ≠ .handleTxokEnd)
    (hi : r.Ready) : (r.tick i).Ready :=
  have hpass := h.pass_eq (i := i) hq
  hi.tick hn hstart hjudge hend (congrArg IrqPass.snap hpass) (congrArg IrqPass.emptied hpass)
    (congrArg IrqPass.ours hpass)

theorem Goes.rest (hn : r.Goes i n) (hstart : n ≠ .getAsyncCauseStart) (hjudge : n ≠ .isrJudgeRxhp)
    (hend : n ≠ .handleTxokEnd) :
    (r.tick i).s.irq.isrP = r.s.irq.isrP ∧ (r.tick i).s.irq.handled = r.s.irq.handled := by
  obtain ⟨hisr, hrx⟩ := r.s.irq.act_keeps (r.s.irqIn (r.cycle i)) hstart hjudge
  have htx := r.s.irq.act_clearTxokFlag (r.s.irqIn (r.cycle i)) hstart hend
  rw [hn.irq]
  exact ⟨hisr, by rw [Irq.handled, hrx, htx, Irq.handled]⟩

theorem Base.written_tick (h : r.Base) (hq : quiet r.s.irq.state = true) (hn : r.Goes i n)
    (hstart : n ≠ .getAsyncCauseStart) (hjudge : n ≠ .isrJudgeRxhp) (hend : n ≠ .handleTxokEnd)
    (hi : r.Written) : (r.tick i).Written := by
  obtain ⟨hisr, hhandled⟩ := hn.rest hstart hjudge hend
  rw [Written, h.pass_eq hq, hisr, hhandled]
  exact hi

theorem Base.written_of_passStart (h : r.Base) (hst : r.s.irq.state = .passStart) (hn : r.Goes i n)
    (hstart : n ≠ .getAsyncCauseStart) (hjudge : n ≠ .isrJudgeRxhp) (hend : n ≠ .handleTxokEnd)
    (hi : r.Ready ∧ r.pass.Clean) : (r.tick i).Ready ∧ (r.tick i).Written := by
  have hwr : r.s.irq.irqfifoWrEn = true := by rw [h.neat.wrEn, hst]; rfl
  have hisr : ¬r.IrqReads i arIsr := h.not_irqReads (by rw [hst]; exact nofun)
  have hs0 : ¬r.IrqReads i arIsrS0 := h.not_irqReads (by rw [hst]; exact nofun)
  have hpeek : r.empties i = false := empties_eq_false (by rw [hst]; exact nofun)
  obtain ⟨hready, hpushed, hdropped⟩ := hi
  obtain ⟨hrest, hhandled⟩ := hn.rest hstart hjudge hend
  have hpass : (r.tick i).pass
      = { r.pass with
          pushed := if i.irqfifoFull then 0 else r.s.irq.isrP &&& ~~~r.s.irq.handled
          dropped := if i.irqfifoFull then r.s.irq.isrP &&& ~~~r.s.irq.handled else 0 } := by
    change r.record i = _
    rw [record, if_neg hisr, if_neg hs0, hpeek, hwr, h.neat.dwrite hst, hpushed, hdropped]
    cases i.irqfifoFull <;> simp
  refine ⟨hready.tick hn hstart hjudge hend (by rw [hpass]) (by rw [hpass]) (by rw [hpass]), ?_⟩
  rw [Written, hpass, hrest, hhandled]
  cases i.irqfifoFull with
  | false => exact Or.inl ⟨rfl, rfl⟩
  | true => exact Or.inr ⟨rfl, rfl⟩

theorem Base.inv_of_getIsrWait (h : r.Base) (hst : r.s.irq.state = .getIsrWait) (hn : r.Goes i n)
    (hi : r.Inv .getIsrWait) : (r.tick i).Inv n := by
  have hnext := hn
  rw [Goes, Irq.nextState, hst] at hnext
  dsimp only at hnext
  split at hnext <;> subst hnext
  case isFalse => exact h.over_getIsr (Or.inr hst) hi
  case isTrue hdone =>
    have hover := h.over_of_done (by rw [hst]; rfl) hdone
    obtain ⟨hdata, hfresh⟩ := hi hover
    have hpass : (r.tick i).pass = r.pass := by
      rw [h.record_eq (h.not_irqReads_of_over hover) (by rw [hst]; exact nofun),
        if_neg (h.not_irqReads_of_over hover), empties_eq_false (by rw [hst]; exact nofun), Bool.or_false]
    refine ⟨?_, ⟨?_, ?_⟩, ?_⟩
    · rw [h.data_of_over hover, hpass, hdata]
    · rw [hn.irq, hpass]
      exact hdata
    · rw [hn.irq, hpass, ← hdata]
      exact Bool.eq_iff_iff.mpr (decide_eq_true_iff.trans (Irq.and_hpRxok _))
    · rw [hpass]
      exact hfresh

theorem Base.inv_of_isrJudgeRxhp (h : r.Base) (hst : r.s.irq.state = .isrJudgeRxhp) (hn : r.Goes i n)
    (hi : r.Inv .isrJudgeRxhp) : (r.tick i).Inv n := by
  obtain ⟨hdata, hknows, hfresh⟩ := hi
  have hpass := h.pass_eq (i := i) (by rw [hst]; rfl)
  have hnext := hn
  rw [Goes, Irq.nextState, hst] at hnext
  dsimp only at hnext
  split at hnext <;> subst hnext
  case isTrue hbit =>
    refine ⟨hknows.tick hn nofun nofun (congrArg IrqPass.snap hpass), ?_, ?_⟩
    · rw [hpass, ← hdata]
      exact (Irq.and_hpRxok _).mp hbit
    · rw [hpass]
      exact hfresh
  case isFalse hbit =>
    have hclear : r.pass.snap.getLsbD 0 = false := by
      rw [← hdata, ← Bool.not_eq_true]
      exact fun hset => hbit ((Irq.and_hpRxok _).mpr hset)
    refine ⟨⟨hknows.tick hn nofun nofun (congrArg IrqPass.snap hpass), ?_, ?_⟩, ?_⟩
    · rw [hpass, hfresh.1, hclear]
    · rw [hpass]
      exact hfresh.2.2
    · rw [hpass]
      exact hfresh.2.1

theorem Base.inv_of_peekPktJudge (h : r.Base) (hst : r.s.irq.state = .peekPktJudge) (hn : r.Goes i n)
    (hi : r.Inv .peekPktJudge) : (r.tick i).Inv n := by
  obtain ⟨hknows, hbit, hfresh⟩ := hi
  have hisr : ¬r.IrqReads i arIsr := h.not_irqReads (by rw [hst]; exact nofun)
  have hs0 : ¬r.IrqReads i arIsrS0 := h.not_irqReads (by rw [hst]; exact nofun)
  have hrecord := h.record_eq hisr (by rw [hst]; exact nofun)
  rw [if_neg hs0] at hrecord
  have hstate : (r.s.tick (r.cycle i)).irq.state = n := by
    rw [show (r.s.tick (r.cycle i)).irq = _ from hn.irq, Irq.act_state]
  have hnext := hn
  rw [Goes, Irq.nextState, hst] at hnext
  dsimp only at hnext
  split at hnext <;> subst hnext
  case isTrue =>
    refine ⟨hknows.tick hn nofun nofun (by rw [hrecord]), ?_, ?_⟩
    · rw [hrecord]
      exact hbit
    · rw [hrecord, empties, hstate]
      exact ⟨by simp [hfresh.1], hfresh.2⟩
  case isFalse =>
    refine ⟨⟨hknows.tick hn nofun nofun (by rw [hrecord]), ?_, ?_⟩, ?_⟩
    · rw [hrecord, empties, hstate, hst, hbit]
      simp
    · rw [hrecord]
      exact hfresh.2.2
    · rw [hrecord]
      exact hfresh.2.1

theorem Goes.inv_clearJudge (hn : r.Goes i .clearJudge)
    (hi : (r.tick i).s.irq.isrP ≠ 0 → (r.tick i).Ready ∧ (r.tick i).pass.Clean) : (r.tick i).Inv .clearJudge := by
  refine ⟨?_, hi⟩
  rw [hn.irq]
  rfl

theorem Base.inv_of_isrJudgeTxok (h : r.Base) (hst : r.s.irq.state = .isrJudgeTxok) (hn : r.Goes i n)
    (hi : r.Inv .isrJudgeTxok) : (r.tick i).Inv n := by
  obtain ⟨hrec, hours⟩ := hi
  have hq : quiet r.s.irq.state = true := by rw [hst]; rfl
  have hnext := hn
  rw [Goes, Irq.nextState, hst] at hnext
  dsimp only at hnext
  split at hnext <;> subst hnext
  case isTrue hbit =>
    refine ⟨hrec.tick hn nofun nofun ⟨_, h.pass_eq hq⟩, ?_⟩
    rw [h.pass_eq hq, ← hrec.isrP]
    exact (Irq.and_txok _).mp hbit
  case isFalse =>
    have htx : r.s.irq.clearTxokFlag = false := h.neat.txok (by rw [hst]; rfl)
    have hready : r.Ready := ⟨hrec.toKnows, hrec.emptied, htx.trans hours.symm, fun ht => by
      rw [hours] at ht; exact Bool.noConfusion ht⟩
    refine hn.inv_clearJudge fun _ => ⟨h.ready_tick hq hn nofun nofun nofun hready, ?_⟩
    rw [h.pass_eq hq]
    exact hrec.clean

theorem Base.inv_of_handleTxok (h : r.Base)
    (hst : r.s.irq.state = .handleTxokStart ∨ r.s.irq.state = .handleTxokMid ∨ r.s.irq.state = .handleTxokWait)
    (hn : r.Goes i n) (hi : r.Inv r.s.irq.state) : (r.tick i).Inv n := by
  have hpass := h.pass_txok (i := i) hst
  have hnext := hn
  rw [Goes, Irq.nextState] at hnext
  rcases hst with hst | hst | hst <;> rw [hst] at hi hnext <;> dsimp only at hnext
  · subst hnext
    exact ⟨hi.1.tick hn nofun nofun ⟨_, hpass⟩, by rw [hpass]; exact hi.2⟩
  · split at hnext <;> subst hnext
    case isTrue hack =>
      exact ⟨hi.1.tick hn nofun nofun ⟨_, hpass⟩, by rw [hpass]; exact hi.2,
        h.over_handleTxok (Or.inl hst) fun hover => absurd hover (h.not_over_of_ack hack)⟩
    case isFalse => exact ⟨hi.1.tick hn nofun nofun ⟨_, hpass⟩, by rw [hpass]; exact hi.2⟩
  · obtain ⟨hrec, hbit, hours⟩ := hi
    split at hnext <;> subst hnext
    case isTrue hdone =>
      have hover := h.over_of_done (by rw [hst]; rfl) hdone
      rw [if_neg (h.not_irqReads_of_over hover)] at hpass
      have hrec' := hrec.tick hn nofun nofun ⟨_, hpass⟩
      refine ⟨⟨hrec'.toKnows, hrec'.emptied, ?_, ?_⟩, hrec'.clean⟩
      · rw [hn.irq, hpass, hours hover]
        rfl
      · rw [hpass]
        exact fun _ => hbit
    case isFalse =>
      exact ⟨hrec.tick hn nofun nofun ⟨_, hpass⟩, by rw [hpass]; exact hbit, h.over_handleTxok (Or.inr hst) hours⟩

theorem Base.inv_of_passJudge (h : r.Base) (hst : r.s.irq.state = .passJudge) (hn : r.Goes i n)
    (hi : r.Inv .passJudge) : (r.tick i).Inv n := by
  obtain ⟨hflag, hi⟩ := hi
  have hq : quiet r.s.irq.state = true := by rw [hst]; rfl
  have hnext := hn
  rw [Goes, Irq.nextState, hst] at hnext
  dsimp only at hnext
  split at hnext <;> subst hnext
  case isTrue =>
    intro hne
    rw [(hn.rest nofun nofun nofun).1] at hne
    refine ⟨h.ready_tick hq hn nofun nofun nofun (hi hne).1, ?_⟩
    rw [h.pass_eq hq]
    exact (hi hne).2
  case isFalse hpassFlag =>
    -- nothing is left to be passed on
    rw [hflag, Bool.not_eq_true] at hpassFlag
    obtain ⟨hne, hrest⟩ := r.s.irq.of_judgePass hpassFlag
    obtain ⟨hready, hpushed, hdropped⟩ := hi hne
    have hwritten : r.Written := Or.inl ⟨hpushed.trans hrest.symm, hdropped⟩
    exact ⟨h.ready_tick hq hn nofun nofun nofun hready, h.written_tick hq hn nofun nofun nofun hwritten⟩

/-- **How far a pass is, after an edge.** -/
theorem Inv.tick (h : r.Base) (hi : r.Inv r.s.irq.state) : (r.tick i).Inv (r.tick i).s.irq.state := by
  obtain ⟨n, hn⟩ : ∃ n, r.Goes i n := ⟨_, rfl⟩
  rw [show (r.tick i).s.irq.state = n by rw [hn.irq, Irq.act_state]]
  have hnext := hn
  rw [Goes, Irq.nextState] at hnext
  cases hst : r.s.irq.state <;> rw [hst] at hi hnext <;> dsimp only at hnext
  case getIsrMid =>
    split at hnext <;> subst hnext
    case isTrue hack => exact h.over_getIsr (Or.inl hst) fun hover => absurd hover (h.not_over_of_ack hack)
    case isFalse => trivial
  case getIsrWait => exact h.inv_of_getIsrWait hst hn hi
  case isrJudgeRxhp => exact h.inv_of_isrJudgeRxhp hst hn hi
  case peekPktJudge => exact h.inv_of_peekPktJudge hst hn hi
  case isrJudgeTxok => exact h.inv_of_isrJudgeTxok hst hn hi
  case handleTxokStart => exact h.inv_of_handleTxok (Or.inl hst) hn (by rw [hst]; exact hi)
  case handleTxokMid => exact h.inv_of_handleTxok (Or.inr (Or.inl hst)) hn (by rw [hst]; exact hi)
  case handleTxokWait => exact h.inv_of_handleTxok (Or.inr (Or.inr hst)) hn (by rw [hst]; exact hi)
  case handleTxokEnd =>
    subst hnext
    have hq : quiet r.s.irq.state = true := by rw [hst]; rfl
    refine hn.inv_clearJudge fun _ => ⟨h.ready_tick hq hn nofun nofun nofun hi.1, ?_⟩
    rw [h.pass_eq hq]
    exact hi.2
  case judgeAsyncCause =>
    split at hnext <;> subst hnext
    case isTrue => trivial
    case isFalse =>
      refine hn.inv_clearJudge fun hne => ?_
      rw [(hn.rest nofun nofun nofun).1, h.neat.isrP (by rw [hst]; rfl)] at hne
      exact absurd rfl hne
  case clearJudge =>
    subst hnext
    have hq : quiet r.s.irq.state = true := by rw [hst]; rfl
    refine ⟨?_, fun hne => ?_⟩
    · rw [hn.irq]
      exact hi.1
    · rw [(hn.rest nofun nofun nofun).1] at hne
      refine ⟨h.ready_tick hq hn nofun nofun nofun (hi.2 hne).1, ?_⟩
      rw [h.pass_eq hq]
      exact (hi.2 hne).2
  case passJudge => exact h.inv_of_passJudge hst hn hi
  case passStart =>
    subst hnext
    intro hne
    rw [(hn.rest nofun nofun nofun).1] at hne
    exact h.written_of_passStart hst hn nofun nofun nofun (hi hne)
  case passDone =>
    have hq : quiet r.s.irq.state = true := by rw [hst]; rfl
    split at hnext <;> subst hnext
    case isTrue => trivial
    case isFalse hne =>
      exact ⟨h.ready_tick hq hn nofun nofun nofun (hi hne).1, h.written_tick hq hn nofun nofun nofun (hi hne).2⟩
  case clearStart | clearMid | clearWait =>
    have hq : quiet r.s.irq.state = true := by rw [hst]; rfl
    repeat' split at hnext
    all_goals
      subst hnext
      first
      | exact ⟨h.ready_tick hq hn nofun nofun nofun hi.1, h.written_tick hq hn nofun nofun nofun hi.2⟩
      | trivial
  case peekPktStart | peekPktMid | peekPktWait | peekPktSetaddr | peekPktSetaddrWait
      | rxfifoDequeuePushbackStart | rxfifoDequeuePushbackWait | rxfifoDequeuePushbackEnd | handleTdmaCtlStart
      | handleTdmaCtlWait | handleTdmaCtlEnd =>
    have hq : quiet r.s.irq.state = true := by rw [hst]; rfl
    repeat' split at hnext
    all_goals
      subst hnext
      first
      | exact h.inv_peek hq hn nofun nofun hi
      | trivial
  -- the other states lead to states of which nothing is said
  all_goals
    repeat' split at hnext
    all_goals
      subst hnext
      trivial

theorem inv_trace (inp : ℕ → CardCycle) (n : ℕ) :
    (trace tick inp {} n).Base ∧ (trace tick inp {} n).Inv (trace tick inp {} n).s.irq.state := by
  induction n with
  | zero => exact ⟨base_init, trivial⟩
  | succ n ih => exact ⟨ih.1.tick (inp n), Inv.tick ih.1 ih.2⟩

/-! ### The causes that are cleared -/

theorem Base.of_clears (h : r.Base) (hi : r.Inv r.s.irq.state) (hr : r.IrqReads i arIsrRac) :
    r.Ready ∧ r.Written := by
  have hjob := (h.of_irqReads hr).1
  cases hst : r.s.irq.state <;> rw [hst] at hjob hi <;> first | exact hi | exact absurd hjob (by decide)

theorem Ready.getLsbD_rest (h : r.Ready) (c : ℕ) :
    (r.s.irq.isrP &&& ~~~r.s.irq.handled).getLsbD c = true
      ↔ r.pass.snap.getLsbD c = true ∧ ¬(c = 6 ∧ r.pass.ours = true) ∧ c ≠ 0 ∧ c ≠ 31 ∧ c ≠ 24 := by
  rw [h.isrP, BitVec.getLsbD_and, BitVec.getLsbD_not, Irq.getLsbD_handled, h.txok, h.rxhp]
  by_cases hc : r.pass.snap.getLsbD c = true
  · have hlt : c < 32 := by
      by_contra hge
      rw [BitVec.getLsbD_of_ge _ _ (Nat.le_of_not_lt hge)] at hc
      exact Bool.noConfusion hc
    have hzero : c = 0 → r.pass.snap.getLsbD 0 = true := fun hz => hz ▸ hc
    simp only [hc, hlt, decide_true, Bool.true_and, Bool.not_eq_true', Bool.or_eq_false_iff, Bool.and_eq_false_imp,
      decide_eq_true_eq, decide_eq_false_iff_not, true_and, not_and, Bool.not_eq_true, ne_eq]
    constructor
    · rintro ⟨⟨htx, hrx⟩, h31, h24⟩
      exact ⟨htx, fun hz => Bool.noConfusion ((hzero hz).symm.trans (hrx hz)), h31, h24⟩
    · rintro ⟨htx, hrx, h31, h24⟩
      exact ⟨⟨htx, fun hz => absurd hz hrx⟩, h31, h24⟩
  · simp only [Bool.not_eq_true] at hc
    simp only [hc, Bool.false_and, Bool.false_eq_true, false_and]

theorem Ready.accounted_iff (h : r.Ready) (hw : r.Written) (c : ℕ) :
    r.Accounted c
      ↔ c = 31 ∨ c = 24 ∨ r.pass.snap.getLsbD c = true ∧ r.pass.dropped.getLsbD c = false := by
  have hrest := h.getLsbD_rest c
  have hrx : c = 0 → (r.pass.emptied = true ↔ r.pass.snap.getLsbD c = true) := fun hc => by rw [hc, h.emptied]
  have htx : c = 6 → r.pass.ours = true → r.pass.snap.getLsbD c = true := fun hc ho => by rw [hc, h.ours ho]
  unfold Accounted
  rcases hw with ⟨hp, hd⟩ | ⟨hp, hd⟩ <;> rw [hp, hd] <;> simp only [BitVec.ofNat_eq_ofNat, BitVec.getLsbD_zero] <;> grind

/-- **The causes that the clearing read of IRQ empties are all accounted for exactly if each of them was there already
when IRQ read `AR_ISR`, and was not written to a full FIFO.** -/
theorem cleared_iff (inp : ℕ → CardCycle) (n : ℕ) (hr : (trace tick inp {} n).IrqReads (inp n) arIsrRac) :
    (∀ c, (trace tick inp {} n).isr.getLsbD c = true → (trace tick inp {} n).Accounted c)
      ↔ ∀ c, (trace tick inp {} n).isr.getLsbD c = true → c = 31 ∨ c = 24
          ∨ (trace tick inp {} n).pass.snap.getLsbD c = true ∧ (trace tick inp {} n).pass.dropped.getLsbD c = false := by
  obtain ⟨hbase, hinv⟩ := inv_trace inp n
  obtain ⟨hready, hwritten⟩ := hbase.of_clears hinv hr
  exact forall₂_congr fun c _ => hready.accounted_iff hwritten c

/-- `LP_RXOK` comes at the start and `TXOK` at a cycle `late`. -/
def lateInput (late n : ℕ) : CardCycle where
  dp := { irqIn := true, irqCounter := 1, liteCmdack := true, liteCmplt := true, liteMstrdD := arIntrMacIrq }
  newBits := (if n = 0 then arIsrLpRxok else 0) ||| if n = late then arIsrTxok else 0

/-- Before IRQ reads `AR_ISR`, `TXOK` comes in time. -/
theorem cleared_early :
    (trace tick (lateInput 10) {} 47).isr = arIsrLpRxok ||| arIsrTxok
      ∧ ∀ c, (trace tick (lateInput 10) {} 47).isr.getLsbD c = true → (trace tick (lateInput 10) {} 47).Accounted c := by
  have hsnap : (trace tick (lateInput 10) {} 47).pass.snap = (trace tick (lateInput 10) {} 47).isr := by decide +kernel
  have hdropped : (trace tick (lateInput 10) {} 47).pass.dropped = 0 := by decide +kernel
  refine ⟨by decide +kernel, (cleared_iff (lateInput 10) 47 (by decide +kernel)).mpr fun c hc => Or.inr (Or.inr ?_)⟩
  rw [hsnap, hdropped]
  exact ⟨hc, BitVec.getLsbD_zero⟩

/-- After it, `TXOK` is cleared, though Linux has not been told of it. -/
theorem cleared_late :
    (trace tick (lateInput 30) {} 38).IrqReads (lateInput 30 38) arIsrRac
      ∧ (trace tick (lateInput 30) {} 38).isr.getLsbD 6 = true
      ∧ ¬(trace tick (lateInput 30) {} 38).Accounted 6 := by
  unfold Accounted
  decide +kernel

end CardRun

end VanetTdma.Fpga
