import VanetTdma.Fpga.BurstBus
import VanetTdma.Fpga.SlotEntry

/-!
# The IRQ machine (`desc_processor.v`)

On an interrupt of the wireless card the IRQ machine reads the card's interrupt status, takes the packets of the
TDMA protocol out of the receive buffers, passes the causes that are not its own on to Linux and clears the status.
Its outputs are set by the state it is about to enter.

* `Irq.nextState`, `Irq.act`, `Irq.tick` — one edge.
-/

namespace VanetTdma.Fpga

/-- `curr_irq_state`. -/
inductive IrqState where
  | idle
  | judge
  | getAsyncCauseStart
  | getAsyncCauseMid
  | getAsyncCauseWait
  | judgeAsyncCause
  | disableStart
  | disableMid
  | disableWait
  | getIsrStart
  | getIsrMid
  | getIsrWait
  | isrJudgeRxhp
  | peekPktStart
  | peekPktMid
  | peekPktWait
  | peekPktSetaddr
  | peekPktSetaddrWait
  | peekPktJudge
  | rxfifoDequeuePushbackStart
  | rxfifoDequeuePushbackWait
  | rxfifoDequeuePushbackEnd
  | handleTdmaCtlStart
  | handleTdmaCtlWait
  | handleTdmaCtlEnd
  | isrJudgeTxok
  | handleTxokStart
  | handleTxokMid
  | handleTxokWait
  | handleTxokEnd
  | clearJudge
  | passJudge
  | passStart
  | passDone
  | clearStart
  | clearMid
  | clearWait
  | enableStart
  | enableMid
  | enableWait
  | clrPirqStart
  | clrPirqWait
  | pushbackHwStart
  | pushbackHwWait
  | error
deriving DecidableEq

/-! ### Addresses and bits -/

def ath9kBaseAddr : BitVec 32 := 0x60000000

def arIer : BitVec 32 := 0x0024

def arIerEnable : BitVec 32 := 0x00000001

def arIerDisable : BitVec 32 := 0x00000000

def arIntrAsyncCause : BitVec 32 := 0x4038

def arIsr : BitVec 32 := 0x0080

/-- Read-to-clear. -/
def arIsrRac : BitVec 32 := 0x00c0

/-- `TXOK` by queue. -/
def arIsrS0 : BitVec 32 := 0x0084

def arIntrMacIrq : BitVec 32 := 0x00000002

def arIsrLpRxok : BitVec 32 := 0x00000002

def arIsrHpRxok : BitVec 32 := 0x00000001

def arIsrRxintm : BitVec 32 := 0x80000000

def arIsrRxmintr : BitVec 32 := 0x01000000

def arIsrTxok : BitVec 32 := 0x00000040

def fpgaQcu : BitVec 32 := 0x040

def rxDoneAddr : BitVec 9 := 11

def arRxDone : BitVec 32 := 0x00000001

/-- `C_PKT_LEN`. -/
def cPktLen : BitVec 12 := 256

/-- The registers of the IRQ machine. -/
structure Irq where
  state : IrqState := .idle
  currentIrqCounter : BitVec 3 := 0
  lite : LiteReq := {}
  burst : BurstReq := {}
  clearTxokFlag : Bool := false
  clearRxhpFlag : Bool := false
  rxhpOnly : Bool := false
  isrP : BitVec 32 := 0
  passFlag : Bool := false
  currentRxbufAddr : BitVec 32 := 0
  rcvpktAddrb : BitVec 9 := 0
  rxfifoRdEn : Bool := false
  rxfifoWrStart : Bool := false
  rxfifoWrData : BitVec 32 := 0
  usedRxfifoWrEn : Bool := false
  usedRxfifoDwrite : BitVec 32 := 0
  stuStart : Bool := false
  recvPktPulse : Bool := false
  irqStartClrPirq : Bool := false
  irqStartPushback : Bool := false
  irqOutTc : Bool := false
  irqfifoWrEn : Bool := false
  irqfifoDwrite : BitVec 32 := 0
deriving DecidableEq

/-- The signals the IRQ machine reads. -/
structure IrqIn where
  irqIn : Bool
  irqCounter : BitVec 3
  tdmaFunctionEnable : Bool
  ipicAckLite : Bool
  ipicDoneLite : Bool
  singleReadDataLite : BitVec 32
  ipicAck : Bool
  ipicDone : Bool
  rcvpktDoutb : BitVec 32
  rxfifoEmpty : Bool
  rxfifoDread : BitVec 32
  stuDone : Bool
  pirqDone : Bool
  urDone : Bool

namespace Irq

/-- `next_irq_state`. -/
def nextState (i : IrqIn) (m : Irq) : IrqState :=
  match m.state with
  | .idle => if i.irqIn then .judge else .idle
  | .judge => if m.currentIrqCounter ≠ i.irqCounter then .getAsyncCauseStart else .idle
  | .getAsyncCauseStart => .getAsyncCauseMid
  | .getAsyncCauseMid => if i.ipicAckLite then .getAsyncCauseWait else .getAsyncCauseMid
  | .getAsyncCauseWait => if i.ipicDoneLite then .judgeAsyncCause else .getAsyncCauseWait
  | .judgeAsyncCause => if i.singleReadDataLite &&& arIntrMacIrq ≠ 0 then .disableStart else .clearJudge
  | .disableStart => .disableMid
  | .disableMid => if i.ipicAckLite then .disableWait else .disableMid
  | .disableWait => if i.ipicDoneLite then .getIsrStart else .disableWait
  | .getIsrStart => .getIsrMid
  | .getIsrMid => if i.ipicAckLite then .getIsrWait else .getIsrMid
  | .getIsrWait => if i.ipicDoneLite then .isrJudgeRxhp else .getIsrWait
  | .isrJudgeRxhp => if i.singleReadDataLite &&& arIsrHpRxok ≠ 0 then .peekPktStart else .isrJudgeTxok
  | .peekPktStart => .peekPktMid
  | .peekPktMid => if i.ipicAck then .peekPktWait else .peekPktMid
  | .peekPktWait => if i.ipicDone then .peekPktSetaddr else .peekPktWait
  | .peekPktSetaddr => .peekPktSetaddrWait
  | .peekPktSetaddrWait => .peekPktJudge
  | .peekPktJudge => if i.rcvpktDoutb &&& arRxDone ≠ 0 then .rxfifoDequeuePushbackStart else .isrJudgeTxok
  | .rxfifoDequeuePushbackStart => if i.rxfifoEmpty then .error else .rxfifoDequeuePushbackWait
  | .rxfifoDequeuePushbackWait => .rxfifoDequeuePushbackEnd
  | .rxfifoDequeuePushbackEnd => .handleTdmaCtlStart
  | .handleTdmaCtlStart => if i.tdmaFunctionEnable then .handleTdmaCtlWait else .handleTdmaCtlEnd
  | .handleTdmaCtlWait => if i.stuDone then .handleTdmaCtlEnd else .handleTdmaCtlWait
  | .handleTdmaCtlEnd => .peekPktStart
  | .isrJudgeTxok => if m.isrP &&& arIsrTxok ≠ 0 then .handleTxokStart else .clearJudge
  | .handleTxokStart => .handleTxokMid
  | .handleTxokMid => if i.ipicAckLite then .handleTxokWait else .handleTxokMid
  | .handleTxokWait => if i.ipicDoneLite then .handleTxokEnd else .handleTxokWait
  | .handleTxokEnd => .clearJudge
  | .clearJudge => .passJudge
  | .passJudge => if m.passFlag then .passStart else .clearStart
  | .passStart => .passDone
  | .passDone => if m.isrP = 0 then .enableStart else .clearStart
  | .clearStart => .clearMid
  | .clearMid => if i.ipicAckLite then .clearWait else .clearMid
  | .clearWait => if i.ipicDoneLite then .enableStart else .clearWait
  | .enableStart => .enableMid
  | .enableMid => if i.ipicAckLite then .enableWait else .enableMid
  | .enableWait => if i.ipicDoneLite then .clrPirqStart else .enableWait
  | .clrPirqStart => .clrPirqWait
  | .clrPirqWait =>
    if i.pirqDone then if m.clearRxhpFlag then .pushbackHwStart else .idle else .clrPirqWait
  | .pushbackHwStart => .pushbackHwWait
  | .pushbackHwWait => if i.urDone then .idle else .pushbackHwWait
  | .error => .error

def readLite (addr : BitVec 32) (r : LiteReq) : LiteReq :=
  { r with readAddr := ath9kBaseAddr + addr, ipicType := singleRd, start := true }

/-- A write of `AR_IER` is asked for. -/
def writeIer (data : BitVec 32) (r : LiteReq) : LiteReq :=
  { r with writeAddr := ath9kBaseAddr + arIer, writeData := data, ipicType := singleWr, start := true }

/-- The causes that are not passed on. -/
def handled (m : Irq) : BitVec 32 :=
  (if m.clearTxokFlag then arIsrTxok else 0) ||| (if m.clearRxhpFlag then arIsrHpRxok else 0)
    ||| (arIsrRxintm ||| arIsrRxmintr)

/-- `pass_flag` as it is set on the way to `IRQ_CLEAR_JUDGE`. -/
def judgePass (m : Irq) : Bool :=
  if m.clearRxhpFlag = true ∧ m.isrP = arIsrHpRxok ||| arIsrRxintm ||| arIsrRxmintr then false
  else if m.clearTxokFlag = true ∧ m.clearRxhpFlag = true
      ∧ m.isrP = arIsrHpRxok ||| arIsrRxintm ||| arIsrRxmintr ||| arIsrTxok then false
  else if m.clearTxokFlag = true ∧ m.isrP = arIsrTxok then false
  else if m.isrP = arIsrRxintm ||| arIsrRxmintr ∨ m.isrP = arIsrRxmintr ∨ m.isrP = arIsrRxintm then false
  else true

/-- The registers set on entering a state. -/
def act (i : IrqIn) (m : Irq) (n : IrqState) : Irq :=
  match n with
  | .idle => { m with irqOutTc := false, state := n }
  | .getAsyncCauseStart =>
    { m with
      currentIrqCounter := i.irqCounter, lite := readLite arIntrAsyncCause m.lite, clearTxokFlag := false
      clearRxhpFlag := false, isrP := 0, rxhpOnly := false, state := n }
  | .getIsrStart => { m with lite := readLite arIsr m.lite, state := n }
  | .isrJudgeRxhp =>
    { m with
      isrP := i.singleReadDataLite
      clearRxhpFlag := decide (i.singleReadDataLite &&& arIsrHpRxok ≠ 0)
      rxhpOnly := decide (i.singleReadDataLite &&& arIsrHpRxok ≠ 0 ∧ i.singleReadDataLite &&& arIsrLpRxok = 0)
      state := n }
  | .peekPktStart =>
    { m with
      burst := { m.burst with
        readAddr := i.rxfifoDread, readLength := cPktLen, ipicType := burstRd, start := true }
      currentRxbufAddr := i.rxfifoDread, state := n }
  | .peekPktWait => { m with burst := { m.burst with start := false }, state := n }
  | .peekPktSetaddr => { m with rcvpktAddrb := rxDoneAddr, state := n }
  | .rxfifoDequeuePushbackStart =>
    { m with
      usedRxfifoWrEn := true, usedRxfifoDwrite := m.currentRxbufAddr, rxfifoWrStart := true
      rxfifoWrData := m.currentRxbufAddr, rxfifoRdEn := true, rcvpktAddrb := rxTypeAddr, state := n }
  | .rxfifoDequeuePushbackWait =>
    { m with rxfifoWrStart := false, usedRxfifoWrEn := false, rxfifoRdEn := false, state := n }
  | .handleTdmaCtlStart =>
    { m with
      stuStart := if i.tdmaFunctionEnable then true else m.stuStart, recvPktPulse := true, state := n }
  | .handleTdmaCtlWait => { m with stuStart := false, state := n }
  | .handleTdmaCtlEnd => { m with recvPktPulse := false, state := n }
  | .handleTxokStart => { m with lite := readLite arIsrS0 m.lite, state := n }
  | .handleTxokEnd => { m with clearTxokFlag := decide (i.singleReadDataLite = fpgaQcu), state := n }
  | .clearJudge => { m with passFlag := m.judgePass, state := n }
  | .disableStart => { m with lite := writeIer arIerDisable m.lite, state := n }
  | .clearStart => { m with lite := readLite arIsrRac m.lite, state := n }
  | .enableStart => { m with lite := writeIer arIerEnable m.lite, state := n }
  | .getAsyncCauseWait | .getIsrWait | .handleTxokWait | .disableWait | .clearWait | .enableWait =>
    { m with lite := { m.lite with start := false }, state := n }
  | .clrPirqStart => { m with irqStartClrPirq := true, state := n }
  | .clrPirqWait => { m with irqStartClrPirq := false, state := n }
  | .pushbackHwStart => { m with irqStartPushback := true, state := n }
  | .pushbackHwWait => { m with irqStartPushback := false, state := n }
  | .passStart =>
    { m with irqOutTc := true, irqfifoWrEn := true, irqfifoDwrite := m.isrP &&& ~~~m.handled, state := n }
  | .passDone => { m with irqfifoWrEn := false, irqOutTc := false, state := n }
  | .judge | .getAsyncCauseMid | .judgeAsyncCause | .disableMid | .getIsrMid | .peekPktMid | .peekPktSetaddrWait
  | .peekPktJudge | .rxfifoDequeuePushbackEnd | .isrJudgeTxok | .handleTxokMid | .passJudge | .clearMid | .enableMid
  | .error => { m with state := n }

def tick (i : IrqIn) (m : Irq) : Irq := m.act i (m.nextState i)

@[simp] theorem act_state (i : IrqIn) (m : Irq) (n : IrqState) : (m.act i n).state = n := by
  cases n <;> rfl

end Irq

end VanetTdma.Fpga
