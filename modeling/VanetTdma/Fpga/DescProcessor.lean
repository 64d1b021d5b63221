import VanetTdma.Fpga.BurstPort
import VanetTdma.Fpga.Irq
import VanetTdma.Fpga.LitePort

/-!
# The bus machines of `desc_processor.v`

Five machines of `desc_processor` ask for bus transactions: IRQ handles the card's interrupts, PIRQ clears the
interrupt in the PCIe controller, UR clears the used receive buffers and gives them back to the card, TXFR hands the
descriptors of Linux to the card, and ESDUR reads the length of the next packet.  Two arbiters join their requests,
one for the lite bus and one for the burst bus.  Of these the lite arbiter waits for the end of a transaction; the
burst arbiter does not.

* `Pirq.tick`, `Ur.tick`, `Txfr.tick`, `Esdur.tick` — the machines beside IRQ;
* `DescProcessor.tick` — one edge of the machines, the arbiters and the two buses.

FIFOs, block memories, the STU machine and the requests of `tdma_control` are inputs.
-/

namespace VanetTdma.Fpga

open SharedBus

/-! ### PIRQ -/

/-- `curr_pirq_state`. -/
inductive PirqState where
  | idle
  | clrStart
  | clrMid
  | clrWait
  | clrFifoStart
  | clrFifoMid
  | clrFifoWait
  | done
  | error
deriving DecidableEq

def pciectlBaseAddr : BitVec 32 := 0x50000000

def pciectlIntDecode : BitVec 32 := 0x138

def pciectlIntFifoReg1 : BitVec 32 := 0x158

/-- The registers of the PIRQ machine. -/
structure Pirq where
  state : PirqState := .idle
  pirqDone : Bool := false
  lite : LiteReq := {}
deriving DecidableEq

/-- The signals the PIRQ machine reads. -/
structure PirqIn where
  irqStartClrPirq : Bool
  irqIn : Bool
  ipicAckLite : Bool
  ipicDoneLite : Bool

def LiteReq.write (addr data : BitVec 32) (r : LiteReq) : LiteReq :=
  { r with writeAddr := addr, writeData := data, ipicType := singleWr, start := true }

namespace Pirq

/-- `next_pirq_state`. -/
def nextState (i : PirqIn) (m : Pirq) : PirqState :=
  match m.state with
  | .idle => if i.irqStartClrPirq then .clrStart else .idle
  | .clrStart => .clrMid
  | .clrMid => if i.ipicAckLite then .clrWait else .clrMid
  | .clrWait => if i.ipicDoneLite then .clrFifoStart else .clrWait
  | .clrFifoStart => .clrFifoMid
  | .clrFifoMid => if i.ipicAckLite then .clrFifoWait else .clrFifoMid
  | .clrFifoWait => if i.ipicDoneLite then if i.irqIn then .clrStart else .done else .clrFifoWait
  | .done => .idle
  | .error => .error

def act (m : Pirq) (n : PirqState) : Pirq :=
  match n with
  | .idle => { m with pirqDone := false, state := n }
  | .clrStart => { m with lite := m.lite.write (pciectlBaseAddr + pciectlIntDecode) 0x10000, state := n }
  | .clrFifoStart => { m with lite := m.lite.write (pciectlBaseAddr + pciectlIntFifoReg1) 0xffffffff, state := n }
  | .clrWait | .clrFifoWait => { m with lite := { m.lite with start := false }, state := n }
  | .done => { m with pirqDone := true, state := n }
  | .clrMid | .clrFifoMid | .error => { m with state := n }

def tick (i : PirqIn) (m : Pirq) : Pirq := m.act (m.nextState i)

end Pirq

/-! ### UR -/

/-- `curr_used_rxfifo_state`. -/
inductive UrState where
  | idle
  | judge
  | clrBuf
  | hwPushbackStart
  | hwPushbackMid
  | waitClr
  | waitPushback
  | done
  | error
deriving DecidableEq

def arHpRxdp : BitVec 32 := 0x0074

/-- The registers of the UR machine. -/
structure Ur where
  state : UrState := .idle
  currentUrAddr : BitVec 32 := 0
  urDone : Bool := false
  usedRxfifoRdEn : Bool := false
  burst : BurstReq := {}
  lite : LiteReq := {}
deriving DecidableEq

/-- The signals the UR machine reads. -/
structure UrIn where
  irqStartPushback : Bool
  usedRxfifoValid : Bool
  usedRxfifoEmpty : Bool
  usedRxfifoDread : BitVec 32
  ipicAckLite : Bool
  ipicDone : Bool
  /-- `curr_ipic_lite_state == 0`. -/
  liteIdle : Bool

namespace Ur

/-- `next_used_rxfifo_state`. -/
def nextState (i : UrIn) (m : Ur) : UrState :=
  match m.state with
  | .idle => if i.irqStartPushback then .judge else .idle
  | .judge => if i.usedRxfifoValid && !i.usedRxfifoEmpty then .clrBuf else .done
  | .clrBuf => .hwPushbackStart
  | .hwPushbackStart => .hwPushbackMid
  | .hwPushbackMid => if i.ipicAckLite then .waitClr else .hwPushbackMid
  | .waitClr => if i.ipicDone then .waitPushback else .waitClr
  | .waitPushback => if i.liteIdle then .judge else .waitPushback
  | .done => .idle
  | .error => .error

def act (i : UrIn) (m : Ur) (n : UrState) : Ur :=
  match n with
  | .idle => { m with urDone := false, state := n }
  | .clrBuf =>
    { m with
      usedRxfifoRdEn := true
      burst := { m.burst with
        writeAddr := i.usedRxfifoDread, writeLength := cPktLen, ipicType := setZero, start := true }
      currentUrAddr := i.usedRxfifoDread, state := n }
  | .hwPushbackStart =>
    { m with
      usedRxfifoRdEn := false, lite := m.lite.write (ath9kBaseAddr + arHpRxdp) m.currentUrAddr, state := n }
  | .hwPushbackMid => { m with burst := { m.burst with start := false }, state := n }
  | .waitClr => { m with lite := { m.lite with start := false }, state := n }
  | .done => { m with urDone := true, state := n }
  | .judge | .waitPushback | .error => { m with state := n }

def tick (i : UrIn) (m : Ur) : Ur := m.act i (m.nextState i)

@[simp] theorem act_state (i : UrIn) (m : Ur) (n : UrState) : (m.act i n).state = n := by
  cases n <;> rfl

end Ur

/-! ### TXFR -/

/-- `current_txf_read_status`. -/
inductive TxfrState where
  | idle
  | wrTest
  | wrPcieStart
  | wrPcieMid
  | wrPcieWait
  | error
deriving DecidableEq

/-- The registers of the TXFR machine; `ns_used_in_curr_slot` is added in `TransmitGate`. -/
structure Txfr where
  state : TxfrState := .idle
  fifoRdEn : Bool := false
  lite : LiteReq := {}
deriving DecidableEq

/-- The signals the TXFR machine reads; `fifoDread` is the pair of address and descriptor. -/
structure TxfrIn where
  fifoEmpty : Bool
  fifoValid : Bool
  fifoDread : BitVec 32 × BitVec 32
  tdmaTxEnable : Bool
  tdmaFunctionEnable : Bool
  nextPktEsDurationValid : Bool
  txslotEnoughFlag : Bool
  ipicAckLite : Bool
  ipicDoneLite : Bool

namespace Txfr

/-- `next_txf_read_status`. -/
def nextState (i : TxfrIn) (m : Txfr) : TxfrState :=
  match m.state with
  | .idle =>
    if !i.fifoEmpty && i.fifoValid && i.tdmaTxEnable then
      if !i.tdmaFunctionEnable then .wrPcieStart
      else if i.nextPktEsDurationValid && i.txslotEnoughFlag then .wrPcieStart
      else .idle
    else .idle
  | .wrPcieStart => .wrPcieMid
  | .wrPcieMid => if i.ipicAckLite then .wrPcieWait else .wrPcieMid
  | .wrPcieWait => if i.ipicDoneLite then .wrTest else .wrPcieWait
  | .wrTest => if !i.tdmaFunctionEnable || !i.tdmaTxEnable then .idle else .wrTest
  | .error => .error

def act (i : TxfrIn) (m : Txfr) (n : TxfrState) : Txfr :=
  match n with
  | .idle => { m with fifoRdEn := false, state := n }
  | .wrPcieStart => { m with fifoRdEn := true, lite := m.lite.write i.fifoDread.1 i.fifoDread.2, state := n }
  | .wrPcieMid => { m with fifoRdEn := false, state := n }
  | .wrPcieWait => { m with lite := { m.lite with start := false }, state := n }
  | .wrTest | .error => { m with state := n }

def tick (i : TxfrIn) (m : Txfr) : Txfr := m.act i (m.nextState i)

end Txfr

/-! ### ESDUR -/

/-- `esdur_state`, numbered as in the source. -/
inductive EsdurState where
  | st0
  | st1
  | st2
  | st3
  | st4
  | st5
deriving DecidableEq

/-- `TIME_PER_BYTE_12M_NS` and `TX_GUARD_NS`, as `axi_tdma_ath9k_middleware.v` instantiates them. -/
def timePerByte12mNs : BitVec 32 := 700

def txGuardNs : BitVec 32 := 70000

/-- The registers of the ESDUR machine. -/
structure Esdur where
  state : EsdurState := .st0
  initFlag : Bool := true
  nextPktlen : BitVec 12 := 0
  nextPktEsDurationValid : Bool := false
  nextPktEsDurationNs : BitVec 32 := 0
  burst : BurstReq := {}
deriving DecidableEq

/-- The signals the ESDUR machine reads. -/
structure EsdurIn where
  fifoRdEn : Bool
  fifoValid : Bool
  fifoEmpty : Bool
  fifoDread : BitVec 32 × BitVec 32
  ipicAck : Bool
  ipicDone : Bool
  singleReadData : BitVec 32

namespace Esdur

def tick (i : EsdurIn) (m : Esdur) : Esdur :=
  match m.state with
  | .st0 =>
    if (m.initFlag || i.fifoRdEn) && i.fifoValid then
      { m with state := .st2, nextPktEsDurationValid := false, initFlag := false }
    else if i.fifoEmpty then { m with nextPktEsDurationValid := false, state := .st1 }
    else m
  | .st1 => if i.fifoValid then { m with state := .st2 } else m
  | .st2 =>
    if i.fifoRdEn then m
    else if i.fifoValid then
      { m with
        burst := { m.burst with readAddr := i.fifoDread.2 + 44, ipicType := singleRd, start := true }
        state := .st3 }
    else { m with state := .st1 }
  | .st3 => if i.ipicAck then { m with burst := { m.burst with start := false }, state := .st4 } else m
  | .st4 => if i.ipicDone then { m with nextPktlen := i.singleReadData.setWidth 12, state := .st5 } else m
  | .st5 =>
    { m with
      nextPktEsDurationNs := m.nextPktlen.setWidth 32 * timePerByte12mNs + txGuardNs
      nextPktEsDurationValid := true, state := .st0 }

end Esdur

/-! ### The machines, the arbiters and the buses -/

/-- The machines that use the lite bus. -/
inductive LiteClient where
  | irq
  | txfr
  | ur
  | pirq
deriving DecidableEq

/-- The machines that use the burst bus. -/
inductive BurstClient where
  | irq
  | ur
  | esdur
deriving DecidableEq

/-- What comes from outside in one cycle. -/
structure DpCycle where
  tcLite : LiteReq := {}
  liteCmdack : Bool := false
  liteCmplt : Bool := false
  liteMstrdD : BitVec 32 := 0
  tcBurst : BurstReq := {}
  burstCmdack : Bool := false
  burstCmplt : Bool := false
  burstMstrdSrcRdyN : Bool := true
  burstMstwrDstRdyN : Bool := true
  burstMstrdD : BitVec 32 := 0
  irqIn : Bool := false
  irqCounter : BitVec 3 := 0
  tdmaFunctionEnable : Bool := false
  tdmaTxEnable : Bool := false
  txslotEnoughFlag : Bool := false
  stuDone : Bool := false
  rcvpktDoutb : BitVec 32 := 0
  rxfifoEmpty : Bool := false
  rxfifoDread : BitVec 32 := 0
  usedRxfifoValid : Bool := false
  usedRxfifoEmpty : Bool := false
  usedRxfifoDread : BitVec 32 := 0
  fifoValid : Bool := false
  fifoEmpty : Bool := false
  fifoDread : BitVec 32 × BitVec 32 := (0, 0)

/-- The registers. -/
structure DescProcessor where
  irq : Irq := {}
  pirq : Pirq := {}
  ur : Ur := {}
  txfr : Txfr := {}
  esdur : Esdur := {}
  liteArb : Arbiter LiteClient LiteReq := { owner := .ur, req := {} }
  burstArb : Arbiter BurstClient BurstReq := { owner := .ur, req := {} }
  lite : LiteBus := {}
  singleReadDataLite : BitVec 32 := 0
  burst : BurstBus := {}

namespace DescProcessor

def liteReq (s : DescProcessor) : LiteClient → LiteReq
  | .irq => s.irq.lite
  | .txfr => s.txfr.lite
  | .ur => s.ur.lite
  | .pirq => s.pirq.lite

/-- The machine whose request a free lite arbiter takes. -/
def litePick (s : DescProcessor) : Option LiteClient :=
  if s.irq.lite.start then some .irq
  else if s.txfr.lite.start then some .txfr
  else if s.ur.lite.start then some .ur
  else if s.pirq.lite.start then some .pirq
  else none

/-- The registers the lite arbiter takes over: the read address from IRQ only. -/
def liteLatch (s : DescProcessor) (k : LiteClient) (r : LiteReq) : LiteReq :=
  match k with
  | .irq => s.irq.lite
  | k =>
    { r with
      ipicType := (s.liteReq k).ipicType, writeAddr := (s.liteReq k).writeAddr, writeData := (s.liteReq k).writeData }

def burstReq (s : DescProcessor) : BurstClient → BurstReq
  | .irq => s.irq.burst
  | .ur => s.ur.burst
  | .esdur => s.esdur.burst

/-- The machine whose request a free burst arbiter takes. -/
def burstPick (s : DescProcessor) : Option BurstClient :=
  if s.irq.burst.start then some .irq
  else if s.ur.burst.start then some .ur
  else if s.esdur.burst.start then some .esdur
  else none

def burstLatch (s : DescProcessor) (k : BurstClient) (r : BurstReq) : BurstReq :=
  match k with
  | .irq =>
    { r with
      ipicType := s.irq.burst.ipicType, readAddr := s.irq.burst.readAddr, readLength := s.irq.burst.readLength
      writeAddr := s.irq.burst.writeAddr, writeLength := s.irq.burst.writeLength }
  | .ur =>
    { r with
      ipicType := s.ur.burst.ipicType, writeAddr := s.ur.burst.writeAddr, writeLength := s.ur.burst.writeLength }
  | .esdur => { r with ipicType := s.esdur.burst.ipicType, readAddr := s.esdur.burst.readAddr }

def irqIn (s : DescProcessor) (i : DpCycle) : IrqIn where
  irqIn := i.irqIn
  irqCounter := i.irqCounter
  tdmaFunctionEnable := i.tdmaFunctionEnable
  ipicAckLite := s.liteArb.ack .irq
  ipicDoneLite := s.lite.doneDp
  singleReadDataLite := s.singleReadDataLite
  ipicAck := s.burstArb.ack .irq
  ipicDone := s.burst.doneDp
  rcvpktDoutb := i.rcvpktDoutb
  rxfifoEmpty := i.rxfifoEmpty
  rxfifoDread := i.rxfifoDread
  stuDone := i.stuDone
  pirqDone := s.pirq.pirqDone
  urDone := s.ur.urDone

def pirqIn (s : DescProcessor) (i : DpCycle) : PirqIn where
  irqStartClrPirq := s.irq.irqStartClrPirq
  irqIn := i.irqIn
  ipicAckLite := s.liteArb.ack .pirq
  ipicDoneLite := s.lite.doneDp

def urIn (s : DescProcessor) (i : DpCycle) : UrIn where
  irqStartPushback := s.irq.irqStartPushback
  usedRxfifoValid := i.usedRxfifoValid
  usedRxfifoEmpty := i.usedRxfifoEmpty
  usedRxfifoDread := i.usedRxfifoDread
  ipicAckLite := s.liteArb.ack .ur
  ipicDone := s.burst.doneDp
  liteIdle := s.lite.state = .idle

def txfrIn (s : DescProcessor) (i : DpCycle) : TxfrIn where
  fifoEmpty := i.fifoEmpty
  fifoValid := i.fifoValid
  fifoDread := i.fifoDread
  tdmaTxEnable := i.tdmaTxEnable
  tdmaFunctionEnable := i.tdmaFunctionEnable
  nextPktEsDurationValid := s.esdur.nextPktEsDurationValid
  txslotEnoughFlag := i.txslotEnoughFlag
  ipicAckLite := s.liteArb.ack .txfr
  ipicDoneLite := s.lite.doneDp

def esdurIn (s : DescProcessor) (i : DpCycle) : EsdurIn where
  fifoRdEn := s.txfr.fifoRdEn
  fifoValid := i.fifoValid
  fifoEmpty := i.fifoEmpty
  fifoDread := i.fifoDread
  ipicAck := s.burstArb.ack .esdur
  ipicDone := s.burst.doneDp
  singleReadData := s.burst.singleReadData

def liteIn (s : DescProcessor) (i : DpCycle) : LiteBusIn where
  tc := i.tcLite
  dp := { s.liteArb.req with start := s.liteArb.start }
  cmdack := i.liteCmdack
  cmplt := i.liteCmplt

def burstIn (s : DescProcessor) (i : DpCycle) : BurstBusIn where
  tc := i.tcBurst
  dp := { s.burstArb.req with start := s.burstArb.start }
  cmdack := i.burstCmdack
  cmplt := i.burstCmplt
  mstrdSrcRdyN := i.burstMstrdSrcRdyN
  mstwrDstRdyN := i.burstMstwrDstRdyN
  mstrdD := i.burstMstrdD

def tick (s : DescProcessor) (i : DpCycle) : DescProcessor where
  irq := s.irq.tick (s.irqIn i)
  pirq := s.pirq.tick (s.pirqIn i)
  ur := s.ur.tick (s.urIn i)
  txfr := s.txfr.tick (s.txfrIn i)
  esdur := s.esdur.tick (s.esdurIn i)
  liteArb := s.liteArb.tick true s.liteLatch s.litePick s.lite.ackDp s.lite.doneDp
  burstArb := s.burstArb.tick false s.burstLatch s.burstPick s.burst.ackDp s.burst.doneDp
  lite := s.lite.tick (s.liteIn i)
  singleReadDataLite :=
    if s.lite.nextIpicState (s.liteIn i) = .singleRdEnd then i.liteMstrdD else s.singleReadDataLite
  burst := s.burst.tick (s.burstIn i)

end DescProcessor

end VanetTdma.Fpga
