import VanetTdma.Fpga.BurstBus
import VanetTdma.Fpga.System

/-!
# The MO machine (`tdma_control.v`, "Modify packets")

The MO machine writes ping packets into the buffer of the next transmit descriptor, and it starts the transmission
of the frame information that the FI builder has prepared.  It looks at its inputs in `MO_IDLE` only: a ping to
send first, then a received ping, then a received answer, and the BCH machine's request last.

`Sender` puts it beside the slot-table machines.
-/

namespace VanetTdma.Fpga

/-- `mo_state`, without the states whose code is commented out. -/
inductive MoState where
  | idle
  | waitTxen
  | processAckping
  | setpktStart
  | setpktWrSeq
  | setpktWrSec
  | setpktWrCounter2
  | setpktMid
  | setpktWait
  | sendFi
  | moEnd
deriving DecidableEq

/-- The registers of the MO machine. -/
structure Mo where
  state : MoState := .idle
  sendFiDone : Bool := false
  sendPktMo : Bool := false
  fiSendCount : BitVec 32 := 0
  bchControlTimeNs : BitVec 32 := 0
  testSeq : BitVec 32 := 0
  pktTypeFlag : BitVec 5 := 0
  pktSec : BitVec 32 := 0
  pktCounter2 : BitVec 32 := 0
  resSeq : BitVec 32 := 0
  resDeltaT : BitVec 32 := 0
  sendpktEn : Bool := false
  sendpktWe : Bool := false
  sendpktAddr : BitVec 9 := 0
  sendpktDin : BitVec 32 := 0
  ipicStart : Bool := false
  ipicType : BitVec 3 := 0
  writeAddr : BitVec 32 := 0
  writeLength : BitVec 12 := 0
deriving DecidableEq

/-- The signals the MO machine reads. -/
structure MoIn where
  startPing : Bool
  recvPing : Bool
  recvAckPing : Bool
  recvSeq : BitVec 32
  recvSec : BitVec 32
  recvCounter2 : BitVec 32
  openLoop : Bool
  currUtcSec : BitVec 32
  pulse2Counter : BitVec 32
  sendFiStart : Bool
  tdmaTxEnable : Bool
  fiPktTimeNs : BitVec 32
  currSkbdataAddr : BitVec 32
  ipicAck : Bool
  ipicDone : Bool

/-- `` `PING `` and `` `ACK_PING ``. -/
def pingFlag : BitVec 5 := 1

def ackPingFlag : BitVec 5 := 2

/-- `` `MAX_COUNTER2 ``. -/
def maxCounter2 : BitVec 32 := 0xf423f

/-- `` `PAYLOAD_OFFSET ``. -/
def payloadOffset : BitVec 32 := 0x20

namespace Mo

/-- `MO_IDLE`. -/
def idle (i : MoIn) (v : Mo) : Mo :=
  let m := { v with sendFiDone := false }
  if i.startPing then { m with state := .waitTxen }
  else if i.recvPing then
    { m with
      testSeq := i.recvSeq, pktTypeFlag := ackPingFlag, pktSec := i.recvSec, pktCounter2 := i.recvCounter2
      state := .setpktStart }
  else if i.recvAckPing then { m with state := .processAckping }
  else if i.sendFiStart then { m with bchControlTimeNs := 0, state := .sendFi }
  else m

/-- `MO_PROCESS_ACKPING`. -/
def processAckping (i : MoIn) (v : Mo) : Mo :=
  let m := { v with
    resSeq := i.recvSeq
    resDeltaT := if i.recvSec = i.currUtcSec then i.pulse2Counter - i.recvCounter2
      else i.pulse2Counter + maxCounter2 - i.recvCounter2 }
  if i.openLoop then
    { m with
      pktTypeFlag := pingFlag, testSeq := m.testSeq + 1, pktSec := i.currUtcSec, pktCounter2 := i.pulse2Counter
      state := .setpktStart }
  else { m with state := .idle, sendPktMo := false }

def tick (i : MoIn) (m : Mo) : Mo :=
  match m.state with
  | .idle => m.idle i
  | .sendFi =>
    { m with
      sendPktMo := true, fiSendCount := m.fiSendCount + 1, sendFiDone := true, bchControlTimeNs := i.fiPktTimeNs
      state := .moEnd }
  | .waitTxen =>
    if i.tdmaTxEnable then
      { m with
        testSeq := 1, resSeq := 0, resDeltaT := 0, pktTypeFlag := pingFlag, pktSec := i.currUtcSec
        pktCounter2 := i.pulse2Counter, state := .setpktStart }
    else m
  | .processAckping => m.processAckping i
  | .setpktStart =>
    { m with
      sendpktEn := true, sendpktWe := true, sendpktAddr := 0, sendpktDin := m.pktTypeFlag.setWidth 32
      state := .setpktWrSeq }
  | .setpktWrSeq => { m with sendpktAddr := 1, sendpktDin := m.testSeq, state := .setpktWrSec }
  | .setpktWrSec => { m with sendpktAddr := 2, sendpktDin := m.pktSec, state := .setpktWrCounter2 }
  | .setpktWrCounter2 =>
    { m with
      sendpktAddr := 3, sendpktDin := m.pktCounter2, ipicStart := true, ipicType := burstWr
      writeAddr := i.currSkbdataAddr + payloadOffset, writeLength := 16, state := .setpktMid }
  | .setpktMid =>
    let m := { m with sendpktEn := false, sendpktWe := false }
    if i.ipicAck then { m with state := .setpktWait, ipicStart := false } else m
  | .setpktWait => if i.ipicDone then { m with state := .moEnd, sendPktMo := true } else m
  | .moEnd => { m with sendPktMo := false, state := .idle }

end Mo

/-! ### The MO machine beside the slot-table machines -/

/-- `tdma_tx_enable`. -/
def System.tdmaTxEnable (g : TdmaSetting) (s : System) (i : Cycle) : Bool :=
  !g.tdmaFunctionEnable
    || (g.bchUserPointer != 0xffff || s.bch.accessibleFlag)
      && g.bchSlotPointer s.bch.workPointer == i.slotPointer

/-- What comes from outside in one cycle.  The `sendFiDone` of `cycle` is not used. -/
structure MoCycle where
  cycle : Cycle := {}
  startPing : Bool := false
  recvPing : Bool := false
  recvAckPing : Bool := false
  recvSeq : BitVec 32 := 0
  recvSec : BitVec 32 := 0
  recvCounter2 : BitVec 32 := 0
  openLoop : Bool := false
  currUtcSec : BitVec 32 := 0
  pulse2Counter : BitVec 32 := 0
  currSkbdataAddr : BitVec 32 := 0
  ipicAckMo : Bool := false
  ipicDone : Bool := false

/-- The slot-table machines, the MO machine, and the register `fi_pkt_time_ns`. -/
structure Sender where
  sys : System
  mo : Mo := {}
  fiPktTimeNs : BitVec 32 := 0

namespace Sender

def moIn (g : TdmaSetting) (s : Sender) (i : MoCycle) : MoIn where
  startPing := i.startPing
  recvPing := i.recvPing
  recvAckPing := i.recvAckPing
  recvSeq := i.recvSeq
  recvSec := i.recvSec
  recvCounter2 := i.recvCounter2
  openLoop := i.openLoop
  currUtcSec := i.currUtcSec
  pulse2Counter := i.pulse2Counter
  sendFiStart := s.sys.bch.sendFiStart
  tdmaTxEnable := s.sys.tdmaTxEnable g i.cycle
  fiPktTimeNs := s.fiPktTimeNs
  currSkbdataAddr := i.currSkbdataAddr
  ipicAck := i.ipicAckMo
  ipicDone := i.ipicDone

def tick (g : TdmaSetting) (s : Sender) (i : MoCycle) : Sender where
  sys := s.sys.tick g { i.cycle with sendFiDone := s.mo.sendFiDone }
  mo := s.mo.tick (s.moIn g i)
  fiPktTimeNs := 700 * (s.sys.fiPktLenByte.setWidth 32 + 4) + 70000

def reset (len : BitVec 10) : Sender where
  sys := System.reset len

end Sender

end VanetTdma.Fpga
