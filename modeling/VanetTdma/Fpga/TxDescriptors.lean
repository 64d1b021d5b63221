import VanetTdma.Fpga.PktSend
import VanetTdma.Fpga.FifoWr

/-!
# The descriptors of the transmit FIFO (`tdma_control.v`, `txfifo_wr_machine.v`)

The `pktsend` machine takes a descriptor from the transmit FIFO, and the FIFO's writer is to push it back.  The
request for that (`txfifo_wr_start`) is a level: it is raised together with the request to the lite bus and stands
until the bus has acknowledged.  The writer samples it every five cycles.

`TxLoop` is the `pktsend` machine on its bus with the writer and the FIFO, and with the lists of the descriptors
popped and pushed.

* `TxLoop.Prompt` — when the machine raises its requests, nothing comes before it on the bus;
* `TxLoop.follows` — the stages of the writer and of the bus that go together then;
* `TxLoop.run_pushed_back` — in runs with prompt acknowledges each descriptor is pushed back exactly once.
-/

namespace VanetTdma.Fpga

open VanetTdma.GuardedRun

/-- The `pktsend` machine, the writer, the FIFO and what has happened: the sends begun, and the descriptors popped
and pushed. -/
structure TxLoop where
  send : SendState := {}
  wr : FifoWr := {}
  fifo : List (BitVec 32)
  sends : ℕ := 0
  popped : List (BitVec 32) := []
  pushed : List (BitVec 32) := []

/-- The inputs of one cycle.  `send.txfifoValid` says whether the FIFO shows its head, if it has one. -/
structure TxIn where
  send : SendIn := {}
  full : Bool := false
  linux : WrReq := {}

namespace TxLoop

def sendIn (s : TxLoop) (i : TxIn) : SendIn :=
  { i.send with txfifoValid := i.send.txfifoValid && !s.fifo.isEmpty, txfifoDread := s.fifo.headD 0 }

def wrIn (s : TxLoop) (i : TxIn) : FifoWrIn where
  full := i.full
  own := { start := s.send.pkt.txfifoWrStart, data := s.send.pkt.txfifoWrData }
  linux := i.linux

def Takes (s : TxLoop) (i : TxIn) : Prop :=
  s.send.pkt.status = .st2 ∧ (s.send.pktIn (s.sendIn i)).Ready

instance (s : TxLoop) (i : TxIn) : Decidable (s.Takes i) := inferInstanceAs (Decidable (_ ∧ _))

def pops (s : TxLoop) : List (BitVec 32) := if s.send.pkt.txfifoRdEn then s.fifo.take 1 else []

def pushes (s : TxLoop) : List (BitVec 32) := if s.wr.wrEn then [s.wr.dwrite] else []

def tick (s : TxLoop) (i : TxIn) : TxLoop where
  send := s.send.tick (s.sendIn i)
  wr := s.wr.tick (s.wrIn i)
  fifo := (if s.send.pkt.txfifoRdEn then s.fifo.drop 1 else s.fifo) ++ s.pushes
  sends := if s.Takes i then s.sends + 1 else s.sends
  popped := s.popped ++ s.pops
  pushed := s.pushed ++ s.pushes

def step (s : TxLoop) (i : TxIn) : Option TxLoop := some (s.tick i)

/-- The FIFO is never full, and Linux adds nothing to it. -/
def Alone (_ : TxLoop) (i : TxIn) : Prop := i.full = false ∧ i.linux.start = false

/-- When the machine leaves status 3, no request of DP is under way or comes first. -/
def Prompt (s : TxLoop) (i : TxIn) : Prop :=
  s.send.pkt.status = .st3 → s.send.bus.state = .idle →
    s.send.bus.dispatchState ≠ .serving ∧ (s.send.bus.dispatchState = .idle → i.send.dp.start = false)

instance (s : TxLoop) (i : TxIn) : Decidable (s.Alone i) := inferInstanceAs (Decidable (_ ∧ _))

instance (s : TxLoop) (i : TxIn) : Decidable (s.Prompt i) := inferInstanceAs (Decidable (_ → _ → _))

def Idle (s : TxLoop) : Prop := s.send.pkt.status = .st0 ∧ s.wr.dispatchState = .ph0

instance (s : TxLoop) : Decidable s.Idle := inferInstanceAs (Decidable (_ ∧ _))

/-! ### The ledger -/

section Ledger

variable {s : TxLoop} {i : TxIn} {l : List (BitVec 32)}

/-- What is in the FIFO and what was popped is what was there and what was pushed. -/
def Ledger (l : List (BitVec 32)) (s : TxLoop) : Prop := (s.popped ++ s.fifo).Perm (s.pushed ++ l)

theorem Ledger.tick (h : Ledger l s) : Ledger l (s.tick i) := by
  have hsplit : s.pops ++ (if s.send.pkt.txfifoRdEn then s.fifo.drop 1 else s.fifo) = s.fifo := by
    unfold pops
    split
    · exact List.take_append_drop 1 s.fifo
    · rfl
  have hold : (s.popped ++ s.pops ++ ((if s.send.pkt.txfifoRdEn then s.fifo.drop 1 else s.fifo) ++ s.pushes)).Perm
      (s.pushed ++ l ++ s.pushes) := by
    rw [List.append_assoc, ← List.append_assoc s.pops, hsplit, ← List.append_assoc]
    exact h.append_right s.pushes
  refine hold.trans ?_
  change (s.pushed ++ l ++ s.pushes).Perm (s.pushed ++ s.pushes ++ l)
  rw [List.append_assoc, List.append_assoc]
  exact List.Perm.append_left _ List.perm_append_comm

theorem Ledger.perm (h : Ledger l s) (heq : s.popped = s.pushed) : s.fifo.Perm l := by
  rw [Ledger, heq] at h
  exact (List.perm_append_left_iff s.pushed).mp h

end Ledger

/-! ### The stages of writer and bus -/

/-- The stages that go together after an acknowledge. -/
def follows : WrStage → LiteBus.TcStage → Bool
  | .enabled, .started => true
  | .writing, .dispatching => true
  | .completing, .waiting => true
  | .returning, g => g = .waiting ∨ g = .writing
  | .idle, g => g ≠ .started ∧ g ≠ .dispatching
  | _, _ => false

theorem follows_next {w : WrStage} {g : LiteBus.TcStage} (i : FifoWrIn) (b : LiteBusIn) (h : follows w g = true)
    (hown : w = .idle → i.own.start = false) (hlinux : i.linux.start = false) (hfull : i.full = false) :
    follows (w.next i) (g.next b) = true := by
  cases w with
  | idle =>
    have hnone : ¬ (i.own.start = true ∨ i.linux.start = true) := by
      rw [hown rfl, hlinux]
      exact fun hc => hc.elim Bool.false_ne_true Bool.false_ne_true
    rw [WrStage.next, if_neg hnone]
    cases g <;> simp only [LiteBus.TcStage.next] <;> (try split) <;> first | rfl | exact h
  | enabled =>
    cases g <;> first | exact absurd h Bool.false_ne_true | (simp only [WrStage.next, hfull]; rfl)
  | returning =>
    cases g <;> simp only [LiteBus.TcStage.next] <;> (try split) <;> first | exact absurd h Bool.false_ne_true | rfl
  | completing =>
    cases g <;> simp only [LiteBus.TcStage.next] <;> (try split) <;> first | exact absurd h Bool.false_ne_true | rfl
  | writing => cases g <;> first | exact absurd h Bool.false_ne_true | rfl
  | stuck => exact absurd h Bool.false_ne_true

/-! ### The invariant -/

/-- The machine rests or waits for a descriptor: nothing is out. -/
structure Home (s : TxLoop) : Prop where
  rdEn : s.send.pkt.txfifoRdEn = false
  liteStart : s.send.pkt.lite.start = false
  wrStart : s.send.pkt.txfifoWrStart = false
  bus : ¬ s.send.bus.ServesTc
  writer : s.wr.At .idle
  even : s.popped = s.pushed
  count : s.popped.length = s.sends

/-- Status 3: the descriptor is taken, and popped in the first cycle. -/
structure Takeoff (s : TxLoop) : Prop where
  liteStart : s.send.pkt.lite.start = false
  wrStart : s.send.pkt.txfifoWrStart = false
  ipicType : s.send.pkt.lite.ipicType = singleWr
  addr : s.send.pkt.lite.writeAddr = q6Txdp
  bus : ¬ s.send.bus.ServesTc
  writer : s.wr.At .idle
  out : s.popped ++ s.pops = s.pushed ++ [s.send.pkt.txfifoWrData]
  count : (s.popped ++ s.pops).length = s.sends

/-- Status 4: both requests are up, and both are taken at once. -/
structure Asking (s : TxLoop) : Prop where
  rdEn : s.send.pkt.txfifoRdEn = false
  liteStart : s.send.pkt.lite.start = true
  wrStart : s.send.pkt.txfifoWrStart = true
  ipicType : s.send.pkt.lite.ipicType = singleWr
  addr : s.send.pkt.lite.writeAddr = q6Txdp
  stage : s.send.bus.dispatchState = .idle ∧ s.wr.At .idle
    ∨ LiteBus.TcWrite q6Txdp s.send.bus .started ∧ s.wr.At .enabled ∧ s.wr.data = s.send.pkt.txfifoWrData
  out : s.popped = s.pushed ++ [s.send.pkt.txfifoWrData]
  count : s.popped.length = s.sends

/-- Status 5: the writer and the bus go on, the writer without another look at the request. -/
structure Landing (s : TxLoop) (w : WrStage) (g : LiteBus.TcStage) : Prop where
  rdEn : s.send.pkt.txfifoRdEn = false
  writer : s.wr.At w
  bus : LiteBus.TcWrite q6Txdp s.send.bus g
  together : follows w g = true
  acked : g ≠ .started
  liteStart : w = .writing ∨ s.send.pkt.lite.start = false
  wrStart : w = .writing ∨ s.send.pkt.txfifoWrStart = false
  out : s.popped = s.pushed ++ if w = .writing then [s.wr.dwrite] else []
  count : s.popped.length = s.sends

def StatusOk (s : TxLoop) : Prop :=
  match s.send.pkt.status with
  | .st0 | .st2 => s.Home
  | .st3 => s.Takeoff
  | .st4 => s.Asking
  | .st5 => ∃ w g, s.Landing w g

/-- The invariant of the runs with prompt acknowledges. -/
structure Inv (l : List (BitVec 32)) (s : TxLoop) : Prop where
  ledger : Ledger l s
  bus : s.send.bus.Ok
  status : s.StatusOk

theorem inv_reset (l : List (BitVec 32)) : Inv l { fifo := l } where
  ledger := List.Perm.refl l
  bus := LiteBus.ok_init
  status := ⟨rfl, rfl, rfl, fun h => h.1 rfl, FifoWr.at_reset, rfl, rfl⟩

section Step

variable {s : TxLoop} {i : TxIn}

theorem pops_of_not (h : s.send.pkt.txfifoRdEn = false) : s.pops = [] := by
  rw [pops, h]
  rfl

theorem pushes_of_at {w : WrStage} (h : s.wr.At w) :
    s.pushes = if w = .writing then [s.wr.dwrite] else [] := by
  rw [pushes, h.wrEn]
  simp only [decide_eq_true_eq]

theorem writer_idle (h : s.wr.At .idle) (hstart : s.send.pkt.txfifoWrStart = false) (halone : s.Alone i) :
    (s.tick i).wr.At .idle := by
  have hnone : ¬ ((s.wrIn i).own.start = true ∨ (s.wrIn i).linux.start = true) := by
    rw [show (s.wrIn i).own.start = false from hstart, show (s.wrIn i).linux.start = false from halone.2]
    exact fun hc => hc.elim Bool.false_ne_true Bool.false_ne_true
  have hnext := h.tick (i := s.wrIn i)
  rw [WrStage.next, if_neg hnone] at hnext
  exact hnext

theorem popped_of_not (h : s.send.pkt.txfifoRdEn = false) : (s.tick i).popped = s.popped := by
  rw [tick, pops_of_not h]
  exact List.append_nil _

theorem pushed_of_at {w : WrStage} (h : s.wr.At w) (hne : w ≠ .writing) : (s.tick i).pushed = s.pushed := by
  rw [tick, pushes_of_at h, if_neg hne]
  exact List.append_nil _

theorem sends_of_ne (h : s.send.pkt.status ≠ .st2) : (s.tick i).sends = s.sends := if_neg fun ht => h ht.1

theorem Home.stay (h : s.Home) (hbus : s.send.bus.Ok) (halone : s.Alone i)
    (hrd : (s.tick i).send.pkt.txfifoRdEn = s.send.pkt.txfifoRdEn)
    (hlite : (s.tick i).send.pkt.lite.start = s.send.pkt.lite.start)
    (hwr : (s.tick i).send.pkt.txfifoWrStart = s.send.pkt.txfifoWrStart) (hnot : ¬ s.Takes i) :
    (s.tick i).Home := by
  have hpopped := popped_of_not (i := i) h.rdEn
  have hpushed := pushed_of_at (i := i) h.writer nofun
  refine ⟨hrd.trans h.rdEn, hlite.trans h.liteStart, hwr.trans h.wrStart, ?_,
    writer_idle h.writer h.wrStart halone, ?_, ?_⟩
  · exact hbus.not_servesTc_tick h.bus h.liteStart
  · rw [hpopped, hpushed]
    exact h.even
  · rw [hpopped]
    exact h.count.trans (if_neg hnot).symm

theorem statusOk_st0 (h : s.Home) (hbus : s.send.bus.Ok) (hst : s.send.pkt.status = .st0) (halone : s.Alone i) :
    (s.tick i).StatusOk := by
  have hnot : ¬ s.Takes i := fun ht => PktsendStatus.noConfusion (hst.symm.trans ht.1)
  by_cases hne : (s.send.pktIn (s.sendIn i)).sendpktCounter ≠ s.send.pkt.currentSendpktCounter
  · have hpkt : (s.tick i).send.pkt = _ := PktSend.tick_st0_of_ne hst hne
    simp only [StatusOk, hpkt]
    exact h.stay hbus halone (by rw [hpkt]) (by rw [hpkt]) (by rw [hpkt]) hnot
  · have hpkt : (s.tick i).send.pkt = _ := PktSend.tick_st0_of_eq hst hne
    simp only [StatusOk, hpkt, hst]
    exact h.stay hbus halone (by rw [hpkt]) (by rw [hpkt]) (by rw [hpkt]) hnot

theorem statusOk_st2 (h : s.Home) (hbus : s.send.bus.Ok) (hst : s.send.pkt.status = .st2) (halone : s.Alone i) :
    (s.tick i).StatusOk := by
  by_cases hready : (s.send.pktIn (s.sendIn i)).Ready
  · have hpkt : (s.tick i).send.pkt = _ := PktSend.tick_st2_of_ready hst hready
    have hpopped := popped_of_not (i := i) h.rdEn
    have hpushed := pushed_of_at (i := i) h.writer nofun
    have hsends : (s.tick i).sends = s.sends + 1 := if_pos ⟨hst, hready⟩
    have hvalid : (i.send.txfifoValid && !s.fifo.isEmpty) = true := hready.1
    obtain ⟨d, rest, hfifo⟩ : ∃ d rest, s.fifo = d :: rest := by
      cases hf : s.fifo with
      | nil => simp [hf] at hvalid
      | cons d rest => exact ⟨d, rest, rfl⟩
    have hfifo' : (s.tick i).fifo = s.fifo := by
      rw [tick, h.rdEn, pushes_of_at h.writer]
      exact List.append_nil _
    have hpops : (s.tick i).pops = [d] := by
      rw [pops, hpkt, if_pos rfl, hfifo', hfifo]
      rfl
    have hdata : (s.tick i).send.pkt.txfifoWrData = d := by
      rw [hpkt]
      change s.fifo.headD 0 = d
      rw [hfifo]
      rfl
    simp only [StatusOk, hpkt]
    refine ⟨?_, ?_, ?_, ?_, hbus.not_servesTc_tick h.bus h.liteStart, writer_idle h.writer h.wrStart halone, ?_, ?_⟩
    · rw [hpkt]
      exact h.liteStart
    · rw [hpkt]
      exact h.wrStart
    · rw [hpkt]
    · rw [hpkt]
    · rw [hpops, hdata, hpopped, hpushed, h.even]
    · rw [hpops, hpopped, hsends, List.length_append, h.count]
      rfl
  · have hpkt : (s.tick i).send.pkt = _ := PktSend.tick_st2_of_not_ready hst hready
    simp only [StatusOk, hpkt, hst]
    exact h.stay hbus halone (by rw [hpkt]) (by rw [hpkt]) (by rw [hpkt]) fun ht => hready ht.2

theorem idle_of_prompt (hbus : s.send.bus.Ok) (hlite : s.send.pkt.lite.start = false)
    (hprompt : s.send.bus.dispatchState ≠ .serving ∧ (s.send.bus.dispatchState = .idle → i.send.dp.start = false)) :
    (s.tick i).send.bus.dispatchState = .idle := by
  change (s.send.bus.tick (s.send.busIn (s.sendIn i))).dispatchState = .idle
  cases hbus.phase with
  | rest hd hs hst hdone =>
    have htc : ¬ (s.send.busIn (s.sendIn i)).tc.start = true := by
      rw [show (s.send.busIn (s.sendIn i)).tc.start = false from hlite]
      exact Bool.false_ne_true
    have hdp : ¬ (s.send.busIn (s.sendIn i)).dp.start = true := by
      rw [show (s.send.busIn (s.sendIn i)).dp.start = false from hprompt.2 hd]
      exact Bool.false_ne_true
    rw [LiteBus.tick_rest hd hs hst, if_neg htc, if_neg hdp]
    exact hd
  | started hd => exact absurd hd hprompt.1
  | working hd => exact absurd hd hprompt.1
  | ended hd => exact absurd hd hprompt.1
  | reported hd hs hst hdone => rw [LiteBus.tick_reported hd hs hst]

theorem statusOk_st3 (h : s.Takeoff) (hbus : s.send.bus.Ok) (hst : s.send.pkt.status = .st3) (halone : s.Alone i)
    (hprompt : s.Prompt i) : (s.tick i).StatusOk := by
  have hwriter := writer_idle h.writer h.wrStart halone
  have hsends : (s.tick i).sends = s.sends := sends_of_ne (by rw [hst]; exact nofun)
  have hpushed := pushed_of_at (i := i) h.writer nofun
  have hdata : (s.tick i).send.pkt.txfifoWrData = s.send.pkt.txfifoWrData := by
    by_cases hidle : s.send.bus.state = .idle
    · have hpkt : (s.tick i).send.pkt = _ := PktSend.tick_st3_of_idle hst hidle
      rw [hpkt]
    · have hpkt : (s.tick i).send.pkt = _ := PktSend.tick_st3_of_busy hst hidle
      rw [hpkt]
  have hout : (s.tick i).popped = (s.tick i).pushed ++ [(s.tick i).send.pkt.txfifoWrData] := by
    rw [hpushed, hdata]
    exact h.out
  have hcount : (s.tick i).popped.length = (s.tick i).sends := h.count.trans hsends.symm
  by_cases hidle : s.send.bus.state = .idle
  · have hpkt : (s.tick i).send.pkt = _ := PktSend.tick_st3_of_idle hst hidle
    have hfree := idle_of_prompt hbus h.liteStart (hprompt hst hidle)
    simp only [StatusOk, hpkt]
    refine ⟨by rw [hpkt], by rw [hpkt], by rw [hpkt], ?_, ?_, Or.inl ⟨hfree, hwriter⟩, hout, hcount⟩
    · rw [hpkt]
      exact h.ipicType
    · rw [hpkt]
      exact h.addr
  · have hpkt : (s.tick i).send.pkt = _ := PktSend.tick_st3_of_busy hst hidle
    have hpops : (s.tick i).pops = [] := pops_of_not (by rw [hpkt])
    simp only [StatusOk, hpkt, hst]
    refine ⟨?_, ?_, ?_, ?_, hbus.not_servesTc_tick h.bus h.liteStart, hwriter, ?_, ?_⟩
    · rw [hpkt]
      exact h.liteStart
    · rw [hpkt]
      exact h.wrStart
    · rw [hpkt]
      exact h.ipicType
    · rw [hpkt]
      exact h.addr
    · rw [hpops, List.append_nil]
      exact hout
    · rw [hpops, List.append_nil]
      exact hcount

theorem statusOk_st4 (h : s.Asking) (hbus : s.send.bus.Ok) (hst : s.send.pkt.status = .st4) (halone : s.Alone i) :
    (s.tick i).StatusOk := by
  have hsends : (s.tick i).sends = s.sends := sends_of_ne (by rw [hst]; exact PktsendStatus.noConfusion)
  have hpopped := popped_of_not (i := i) h.rdEn
  have hcount : (s.tick i).popped.length = (s.tick i).sends := by
    rw [hpopped, hsends]
    exact h.count
  rcases h.stage with ⟨hfree, hwriter⟩ | ⟨hwrite, hwriter, hdata⟩
  · -- both requests are taken
    have hack : s.send.bus.ackTc = false := by
      by_contra hack
      rw [Bool.not_eq_false] at hack
      exact (hbus.ack hack).1.1 hfree
    have hpkt : (s.tick i).send.pkt = s.send.pkt := PktSend.tick_st4_of_not_ack hst hack
    have hstarted : LiteBus.TcWrite q6Txdp (s.tick i).send.bus .started := by
      rcases hbus.tick_request (i := s.send.busIn (s.sendIn i)) (LiteBus.not_servesTc_of_idle hfree) h.liteStart
        h.ipicType h.addr with hnot | hwrite
      · refine absurd ?_ hnot
        exact hbus.servesTc_tick_of_idle hfree h.liteStart
      · exact hwrite
    have hnext := hwriter.tick (i := s.wrIn i)
    rw [WrStage.next, if_pos (Or.inl (show (s.wrIn i).own.start = true from h.wrStart))] at hnext
    have hpushed := pushed_of_at (i := i) hwriter WrStage.noConfusion
    simp only [StatusOk, hpkt, hst]
    refine ⟨?_, ?_, ?_, ?_, ?_, Or.inr ⟨hstarted, hnext, ?_⟩, ?_, hcount⟩
    · rw [hpkt]
      exact h.rdEn
    · rw [hpkt]
      exact h.liteStart
    · rw [hpkt]
      exact h.wrStart
    · rw [hpkt]
      exact h.ipicType
    · rw [hpkt]
      exact h.addr
    · rw [hpkt]
      exact hwriter.data_of_own h.wrStart
    · rw [hpopped, hpushed, hpkt]
      exact h.out
  · have hpkt : (s.tick i).send.pkt = _ := PktSend.tick_st4_of_ack hst hwrite.ack
    have hnext := hwriter.tick (i := s.wrIn i)
    rw [WrStage.next, show (s.wrIn i).full = false from halone.1] at hnext
    have hpushed := pushed_of_at (i := i) hwriter WrStage.noConfusion
    have hdwrite : (s.tick i).wr.dwrite = s.wr.data := hwriter.dwrite_of_enabled halone.1
    simp only [StatusOk, hpkt]
    refine ⟨.writing, .dispatching, ?_, hnext, hwrite.tick LiteBus.TcStage.noConfusion, rfl,
      LiteBus.TcStage.noConfusion, Or.inl rfl, Or.inl rfl, ?_, hcount⟩
    · rw [hpkt]
      exact h.rdEn
    · rw [if_pos rfl, hpopped, hpushed, hdwrite, hdata]
      exact h.out

theorem statusOk_st5 {w : WrStage} {g : LiteBus.TcStage} (h : s.Landing w g) (hst : s.send.pkt.status = .st5)
    (halone : s.Alone i) : (s.tick i).StatusOk := by
  have hsends : (s.tick i).sends = s.sends := sends_of_ne (by rw [hst]; exact PktsendStatus.noConfusion)
  have hpopped := popped_of_not (i := i) h.rdEn
  have heven : (s.tick i).popped = (s.tick i).pushed := by
    rw [hpopped, h.out, tick, pushes_of_at h.writer]
  have hcount : (s.tick i).popped.length = (s.tick i).sends := by
    rw [hpopped, hsends]
    exact h.count
  have hnext := h.writer.tick (i := s.wrIn i)
  by_cases hreport : g = .reporting
  · -- the bus reports the end of the write long after the writer has returned
    subst hreport
    have hidle : w = .idle := by
      have htogether := h.together
      cases w <;> first | rfl | exact absurd htogether Bool.false_ne_true
    subst hidle
    have hwrStart : s.send.pkt.txfifoWrStart = false := h.wrStart.resolve_left WrStage.noConfusion
    have hpkt : (s.tick i).send.pkt = _ := PktSend.tick_st5_of_done hst h.bus.done
    simp only [StatusOk, hpkt]
    refine ⟨?_, by rw [hpkt], by rw [hpkt], LiteBus.not_servesTc_of_idle h.bus.tick_reporting,
      writer_idle h.writer hwrStart halone, heven, hcount⟩
    rw [hpkt]
    exact h.rdEn
  · have hdone : s.send.bus.doneTc = false := by
      rw [h.bus.done]
      exact decide_eq_false hreport
    have hpkt : (s.tick i).send.pkt = _ := PktSend.tick_st5_of_not_done hst hdone
    have hown : w = .idle → (s.wrIn i).own.start = false := by
      rintro rfl
      exact h.wrStart.resolve_left WrStage.noConfusion
    have htogether := follows_next (s.wrIn i) (s.send.busIn (s.sendIn i)) h.together hown halone.2 halone.1
    have hacked : g.next (s.send.busIn (s.sendIn i)) ≠ .started := by
      cases g <;> simp only [LiteBus.TcStage.next] <;> (try split) <;> exact LiteBus.TcStage.noConfusion
    have hpast : w.next (s.wrIn i) ≠ .writing := by
      have hne : w ≠ .enabled := by
        rintro rfl
        have htog := h.together
        cases g <;> first | exact absurd htog Bool.false_ne_true | exact h.acked rfl
      cases w with
      | enabled => exact absurd rfl hne
      | idle => rw [WrStage.next]; split <;> exact WrStage.noConfusion
      | _ => exact WrStage.noConfusion
    simp only [StatusOk, hpkt, hst]
    refine ⟨_, _, ?_, hnext, h.bus.tick hreport, htogether, hacked, Or.inr (by rw [hpkt]), Or.inr (by rw [hpkt]), ?_,
      hcount⟩
    · rw [hpkt]
      exact h.rdEn
    · rw [if_neg hpast, List.append_nil]
      exact heven

/-- **One edge keeps the invariant.** -/
theorem Inv.tick {l : List (BitVec 32)} (h : Inv l s) (halone : s.Alone i) (hprompt : s.Prompt i) :
    Inv l (s.tick i) where
  ledger := h.ledger.tick
  bus := h.bus.tick
  status := by
    have hok := h.status
    cases hst : s.send.pkt.status with
    | st0 =>
      simp only [StatusOk, hst] at hok
      exact statusOk_st0 hok h.bus hst halone
    | st2 =>
      simp only [StatusOk, hst] at hok
      exact statusOk_st2 hok h.bus hst halone
    | st3 =>
      simp only [StatusOk, hst] at hok
      exact statusOk_st3 hok h.bus hst halone hprompt
    | st4 =>
      simp only [StatusOk, hst] at hok
      exact statusOk_st4 hok h.bus hst halone
    | st5 =>
      simp only [StatusOk, hst] at hok
      obtain ⟨w, g, hlanding⟩ := hok
      exact statusOk_st5 hlanding hst halone

end Step

/-! ### Runs -/

/-- **The descriptors are conserved** in every run in which the requests of the machine come first on the bus:
when both machines are idle, each send has popped one descriptor and this one has been pushed back, once and in the
order of the sends, and the FIFO holds what it held. -/
theorem run_pushed_back {l : List (BitVec 32)} {s : TxLoop}
    (h : Reach step (fun s i => s.Alone i ∧ s.Prompt i) { fifo := l } s) (hidle : s.Idle) :
    s.pushed = s.popped ∧ s.popped.length = s.sends ∧ s.fifo.Perm l := by
  have hinv : Inv l s := by
    refine h.invariant (inv_reset l) ?_
    rintro s i t hs ⟨halone, hprompt⟩ ht
    cases ht
    exact hs.tick halone hprompt
  have hok := hinv.status
  simp only [StatusOk, hidle.1] at hok
  exact ⟨hok.even.symm, hok.count, hinv.ledger.perm hok.even⟩

/-- One edge of `sendpkt`, and a bus that is always ready. -/
theorem run_pushed_back_once :
    ∃ s, Reach step (fun s i => s.Alone i ∧ s.Prompt i) { fifo := [0x1000, 0x2000] } s ∧ s.Idle ∧ s.sends = 1
      ∧ s.pushed = s.popped ∧ s.popped.length = s.sends ∧ s.fifo.Perm [0x1000, 0x2000] := by
  have hobs : (runList step (fun s i => decide (s.Alone i ∧ s.Prompt i)) { fifo := [0x1000, 0x2000] }
      ({ send := { sendpkt := true } } :: List.replicate 10 ({} : TxIn))).map
      (fun s => (s.sends, decide s.Idle)) = some (1, true) := by decide +kernel
  obtain ⟨s, hs, hend⟩ := Option.map_eq_some_iff.mp hobs
  obtain ⟨hsends, hidle⟩ := Prod.mk.inj hend
  have hrun : Reach step (fun s i => s.Alone i ∧ s.Prompt i) { fifo := [0x1000, 0x2000] } s :=
    reach_of_runList (fun s i hi => of_decide_eq_true hi) hs
  exact ⟨s, hrun, of_decide_eq_true hidle, hsends, run_pushed_back hrun (of_decide_eq_true hidle)⟩

/-- A read of DP is taken in the cycle in which the machine leaves status 3: the level stands until it is over, and
the descriptor is pushed twice. -/
theorem run_pushed_twice :
    ¬ ∀ (l : List (BitVec 32)) (s : TxLoop), Reach step Alone { fifo := l } s → s.Idle →
      s.pushed = s.popped ∧ s.popped.length = s.sends ∧ s.fifo.Perm l := by
  intro h
  have hobs : (runList step (fun s i => decide (s.Alone i)) { fifo := [0x1000] }
      ({ send := { sendpkt := true } } :: ({} : TxIn) :: ({} : TxIn)
        :: { send := { dp := { start := true, ipicType := singleRd } } } :: List.replicate 14 ({} : TxIn))).map
      (fun s => (s.fifo, decide s.Idle)) = some ([0x1000, 0x1000], true) := by decide +kernel
  obtain ⟨s, hs, hend⟩ := Option.map_eq_some_iff.mp hobs
  obtain ⟨hfifo, hidle⟩ := Prod.mk.inj hend
  have hrun : Reach step Alone { fifo := [0x1000] } s := reach_of_runList (fun s i hi => of_decide_eq_true hi) hs
  have hperm := (h [0x1000] s hrun (of_decide_eq_true hidle)).2.2
  rw [hfifo] at hperm
  exact absurd hperm.length_eq (by decide)

end TxLoop

end VanetTdma.Fpga
