import VanetTdma.Fpga.LiteBus

/-!
# The burst bus (`ipic_state_machine.v`)

The dispatcher is that of the lite bus; the transaction machine knows six kinds of transaction.  Of its outputs the
request lines, address and length, the single words and the beat counters are modelled here; the framing signals of the
write channel and the words of a burst write are added in `BurstWrite`.

* `BurstBus.tick` — one edge.
-/

namespace VanetTdma.Fpga

/-- `curr_ipic_state`. -/
inductive BurstState where
  | idle
  | dispatch
  | burstRdWait
  | burstRdRcv
  | burstRdRcvEnd
  | burstRdEnd
  | singleRdWait
  | singleRdRcv
  | singleRdRcv1
  | singleRdEnd
  | singleRdEnd2
  | singleWrWait
  | singleWrWr
  | singleWrWr1
  | singleWrEnd
  | burstWrPreStart
  | burstWrPreSetaddr
  | burstWrPreWait
  | burstWrPreRd2fifo
  | burstWrStart
  | burstWrWait
  | burstWr
  | burstWrEnd
  | burstWrEnd2
  | setzeroWait
  | setzeroStart
  | setzeroLast
  | serzeroEnd
  | serzeroEnd2
  | calCksWait
  | calCksRdRcv
  | calCksRdRcvEnd
  | calCksRdEnd
  | error
deriving DecidableEq

/-- The types of transaction beside `singleRd` and `singleWr`. -/
def burstRd : BitVec 3 := 0

def burstWr : BitVec 3 := 1

def setZero : BitVec 3 := 4

def calDescCks : BitVec 3 := 5

/-- The signals of one requester. -/
structure BurstReq where
  start : Bool := false
  ipicType : BitVec 3 := 0
  readAddr : BitVec 32 := 0
  readLength : BitVec 12 := 0
  writeAddr : BitVec 32 := 0
  writeData : BitVec 32 := 0
  writeLength : BitVec 12 := 0
deriving DecidableEq

/-- The registers of the bus machines. -/
structure BurstBus where
  dispatchState : DispatchState := .idle
  dispatchType : Requester := .none
  ackTc : Bool := false
  ackDp : Bool := false
  doneTc : Bool := false
  doneDp : Bool := false
  ipicStart : Bool := false
  ipicType : BitVec 3 := 0
  readAddr : BitVec 32 := 0
  readLength : BitVec 12 := 0
  writeAddr : BitVec 32 := 0
  writeData : BitVec 32 := 0
  writeLength : BitVec 12 := 0
  state : BurstState := .idle
  ipicDone : Bool := false
  mstrdReq : Bool := false
  mstwrReq : Bool := false
  mstType : Bool := false
  mstAddr : BitVec 32 := 0
  mstLength : BitVec 12 := 0
  mstwrD : BitVec 32 := 0
  readBeatIdx : BitVec 13 := 0
  readBeatLength : BitVec 13 := 0
  wrBeatIdx : BitVec 13 := 0
  writeBeatLength : BitVec 13 := 0
  singleReadData : BitVec 32 := 0
  descChecksum : BitVec 32 := 0
  ptrChecksum : BitVec 16 := 0
deriving DecidableEq

/-- The requests and the answers of the AXI master. -/
structure BurstBusIn where
  tc : BurstReq
  dp : BurstReq
  cmdack : Bool
  cmplt : Bool
  mstrdSrcRdyN : Bool
  mstwrDstRdyN : Bool
  mstrdD : BitVec 32

namespace BurstBus

/-- The dispatcher.  A request of TC does not bring a read length. -/
def dispatch (i : BurstBusIn) (b : BurstBus) : BurstBus :=
  match b.dispatchState with
  | .idle =>
    if i.tc.start then
      { b with
        writeAddr := i.tc.writeAddr, writeData := i.tc.writeData, writeLength := i.tc.writeLength
        readAddr := i.tc.readAddr, ipicStart := true, ackTc := true, ipicType := i.tc.ipicType
        dispatchState := .serving, dispatchType := .tc }
    else if i.dp.start then
      { b with
        readAddr := i.dp.readAddr, readLength := i.dp.readLength, writeAddr := i.dp.writeAddr
        writeData := i.dp.writeData, writeLength := i.dp.writeLength, ipicStart := true, ackDp := true
        ipicType := i.dp.ipicType, dispatchState := .serving, dispatchType := .dp }
    else b
  | .serving =>
    let b' := { b with ipicStart := false, ackDp := false, ackTc := false }
    if b.ipicDone then
      { b' with
        dispatchState := .reporting
        doneTc := if b.dispatchType = .tc then true else b.doneTc
        doneDp := if b.dispatchType = .dp then true else b.doneDp }
    else b'
  | .reporting => { b with dispatchState := .idle, doneDp := false, doneTc := false }

def nextIpicState (i : BurstBusIn) (b : BurstBus) : BurstState :=
  match b.state with
  | .idle => if b.ipicStart then .dispatch else .idle
  | .dispatch =>
    if b.ipicType = burstRd then .burstRdWait
    else if b.ipicType = burstWr then .burstWrPreStart
    else if b.ipicType = setZero then .setzeroWait
    else if b.ipicType = singleRd then .singleRdWait
    else if b.ipicType = singleWr then .singleWrWait
    else if b.ipicType = calDescCks then .calCksWait
    else .error
  | .burstRdWait => if i.cmdack then .burstRdRcv else .burstRdWait
  | .burstRdRcv => if b.readBeatIdx < b.readBeatLength then .burstRdRcv else .burstRdRcvEnd
  | .burstRdRcvEnd => if i.cmplt then .burstRdEnd else .burstRdRcvEnd
  | .burstRdEnd => .idle
  | .calCksWait => if i.cmdack then .calCksRdRcv else .calCksWait
  | .calCksRdRcv => if b.readBeatIdx < b.readBeatLength then .calCksRdRcv else .calCksRdRcvEnd
  | .calCksRdRcvEnd => if i.cmplt then .calCksRdEnd else .calCksRdRcvEnd
  | .calCksRdEnd => .idle
  | .singleRdWait => if i.cmdack then .singleRdRcv else .singleRdWait
  | .singleRdRcv => if i.mstrdSrcRdyN then .singleRdRcv else .singleRdRcv1
  | .singleRdRcv1 => .singleRdEnd
  | .singleRdEnd => if i.cmplt then .singleRdEnd2 else .singleRdEnd
  | .singleRdEnd2 => .idle
  | .burstWrPreStart => .burstWrPreSetaddr
  | .burstWrPreSetaddr => .burstWrPreWait
  | .burstWrPreWait => .burstWrPreRd2fifo
  | .burstWrPreRd2fifo => if b.wrBeatIdx = b.writeBeatLength then .burstWrStart else .burstWrPreSetaddr
  | .burstWrStart => .burstWrWait
  | .burstWrWait => if i.cmdack then .burstWr else .burstWrWait
  | .burstWr => if b.wrBeatIdx = b.writeBeatLength then .burstWrEnd else .burstWr
  | .burstWrEnd => if i.cmplt then .burstWrEnd2 else .burstWrEnd
  | .burstWrEnd2 => .idle
  | .setzeroWait => if i.cmdack then .setzeroStart else .setzeroWait
  | .setzeroStart => if b.wrBeatIdx = b.writeBeatLength - 2 then .setzeroLast else .setzeroStart
  | .setzeroLast => if i.mstwrDstRdyN then .setzeroLast else .serzeroEnd
  | .serzeroEnd => if i.cmplt then .serzeroEnd2 else .serzeroEnd
  | .serzeroEnd2 => .idle
  | .singleWrWait => if i.cmdack then .singleWrWr else .singleWrWait
  | .singleWrWr => if i.mstwrDstRdyN then .singleWrWr else .singleWrWr1
  | .singleWrWr1 => if i.cmplt then .singleWrEnd else .singleWrWr1
  | .singleWrEnd => .idle
  | .error => .error

/-- The registers the transaction machine drives on entering a state; `b` is the bus before the edge and `b'` what
the dispatcher has made of it. -/
def enter (i : BurstBusIn) (b b' : BurstBus) (st : BurstState) : BurstBus :=
  match st with
  | .idle => { b' with state := st, ipicDone := false }
  | .burstRdWait =>
    { b' with
      state := st, mstrdReq := true, mstType := true, mstAddr := b.readAddr, mstLength := b.readLength
      readBeatLength := (b.readLength >>> 2).setWidth 13, readBeatIdx := 0 }
  | .burstRdRcv =>
    { b' with
      state := st, mstrdReq := false, mstType := false
      readBeatIdx := if i.mstrdSrcRdyN then b.readBeatIdx else b.readBeatIdx + 1 }
  | .burstRdEnd => { b' with state := st, ipicDone := true }
  | .calCksWait =>
    { b' with
      state := st, mstrdReq := true, mstType := true, mstAddr := b.readAddr, mstLength := 40
      readBeatLength := 10, readBeatIdx := 0, descChecksum := 0 }
  | .calCksRdRcv =>
    { b' with
      state := st, mstrdReq := false, mstType := false
      descChecksum := if i.mstrdSrcRdyN then b.descChecksum else b.descChecksum + i.mstrdD
      readBeatIdx := if i.mstrdSrcRdyN then b.readBeatIdx else b.readBeatIdx + 1 }
  | .calCksRdRcvEnd =>
    { b' with
      state := st
      ptrChecksum := (((b.descChecksum &&& 0xffff) + (b.descChecksum >>> 16)) &&& 0xffff).setWidth 16 }
  | .calCksRdEnd => { b' with state := st, ipicDone := true }
  | .burstWrPreStart =>
    { b' with state := st, wrBeatIdx := 1, writeBeatLength := (b.writeLength >>> 2).setWidth 13 }
  | .burstWrPreWait => { b' with state := st, wrBeatIdx := b.wrBeatIdx + 1 }
  | .burstWrStart =>
    { b' with
      state := st, mstwrReq := true, mstType := true, mstAddr := b.writeAddr, mstLength := b.writeLength
      writeBeatLength := (b.writeLength >>> 2).setWidth 13, wrBeatIdx := 1 }
  | .burstWr =>
    { b' with
      state := st, mstwrReq := false, mstType := false
      wrBeatIdx := if i.mstwrDstRdyN then b.wrBeatIdx else b.wrBeatIdx + 1 }
  | .burstWrEnd2 => { b' with state := st, ipicDone := true }
  | .setzeroWait =>
    { b' with
      state := st, mstwrD := 0, mstwrReq := true, mstType := true, mstAddr := b.writeAddr
      mstLength := b.writeLength, writeBeatLength := (b.writeLength >>> 2).setWidth 13, wrBeatIdx := 0 }
  | .setzeroStart =>
    { b' with
      state := st, mstwrReq := false, mstType := false
      wrBeatIdx := if i.mstwrDstRdyN then b.wrBeatIdx else b.wrBeatIdx + 1 }
  | .setzeroLast =>
    { b' with state := st, wrBeatIdx := if i.mstwrDstRdyN then b.wrBeatIdx else b.wrBeatIdx + 1 }
  | .serzeroEnd2 => { b' with state := st, ipicDone := true }
  | .singleRdWait => { b' with state := st, mstrdReq := true, mstType := false, mstAddr := b.readAddr }
  | .singleRdRcv => { b' with state := st, mstrdReq := false }
  | .singleRdRcv1 => { b' with state := st, singleReadData := i.mstrdD }
  | .singleRdEnd2 => { b' with state := st, ipicDone := true }
  | .singleWrWait =>
    { b' with
      state := st, mstwrD := b.writeData, mstwrReq := true, mstType := false, mstAddr := b.writeAddr }
  | .singleWrWr => { b' with state := st, mstwrReq := false }
  | .singleWrEnd => { b' with state := st, ipicDone := true }
  | .dispatch | .burstRdRcvEnd | .singleRdEnd | .singleWrWr1 | .burstWrPreSetaddr | .burstWrPreRd2fifo | .burstWrWait
  | .burstWrEnd | .serzeroEnd | .error => { b' with state := st }

def tick (i : BurstBusIn) (b : BurstBus) : BurstBus := enter i b (b.dispatch i) (b.nextIpicState i)

end BurstBus

end VanetTdma.Fpga
