import VanetTdma.Lib.Clocked
import VanetTdma.Fpga.Stu
import VanetTdma.Fpga.FiBuilder
import VanetTdma.Fpga.Fcb

/-!
# The slot-table machines together

The slot-table updater works on port A of the slot-status memory.  Port B is shared: the FCB search has it
while it is in progress, else the FI builder while it is enabled, else the BCH machine (the third user of the
source's multiplexer is never enabled).  `System.tick` is one edge of all of them.  Time (`slot_pointer`), the
packet memory, the bus, the transmitter, the random number and the divider are inputs.
-/

namespace VanetTdma.Fpga

open VanetTdma.Clocked VanetTdma.DualPort

/-- What comes from outside in one cycle. -/
structure Cycle where
  slotPointer : BitVec 16 := 0
  slotPulse2Counter : BitVec 10 := 0
  stuStart : Bool := false
  rcvPkt : RcvPkt := fun _ => 0
  rcvpktAddrbIrq : BitVec 9 := rxTypeAddr
  sendFiDone : Bool := false
  ipicAck : Bool := false
  ipicDone : Bool := false
  inputRandom : BitVec 9 := 0
  dividerDone : Bool := false
  dividerRemainder : BitVec 32 := 0
  emptyRead : BitVec 16 := 0
  clash : Clash SlotEntry := ⟨{}, {}, {}⟩

structure System where
  unit : StuUnit := {}
  ram : SlotRam := ⟨fun _ => {}, {}, {}⟩
  bch : Bch := {}
  fi : Fi := {}
  fcb : Fcb := {}
  s1 : Fifo := []
  s2 : Fifo := []
  half : Fifo := []
  currFrameLen : BitVec 10
  fiPktLenByte : BitVec 11 := 0

namespace System

def portA (s : System) : SlotPort := s.unit.portA

def portB (s : System) : SlotPort :=
  if s.fcb.inprogress then s.fcb.portB
  else if s.fi.slotStatusEn then s.fi.portB
  else s.bch.portB

def stuEnv (g : TdmaSetting) (s : System) (i : Cycle) : StuEnv where
  stuStart := i.stuStart
  globalSid := g.globalSid
  currFrameLen := s.currFrameLen
  rcvPkt := i.rcvPkt
  rcvpktAddrbIrq := i.rcvpktAddrbIrq

def bchIn (s : System) (i : Cycle) : BchIn where
  slotPointer := i.slotPointer
  currFrameLen := s.currFrameLen
  dout := s.ram.doutB
  initFiDone := s.fi.initFiDone
  sendFiDone := i.sendFiDone
  fcbFail := s.fcb.fail
  fcbBchCandidate := s.fcb.candidate
  slotNeedAdj := s.fi.slotNeedAdj
  frmaeLenNeedSlotadj := s.fi.frmaeLenNeedSlotadj
  isSingleFlag := s.fi.isSingleFlag
  adjSlotWin := s.fi.adjSlotWin

def fiIn (s : System) (i : Cycle) : FiIn where
  slotPointer := i.slotPointer
  slotPulse2Counter := i.slotPulse2Counter
  currFrameLen := s.currFrameLen
  fiPktLenByte := s.fiPktLenByte
  bchState := s.bch.state
  initFiStart := s.bch.initFiStart
  bchWorkPointer := s.bch.workPointer
  bchDecideAdj := s.bch.decideAdj
  dout := s.ram.doutB
  ipicAck := i.ipicAck
  ipicDone := i.ipicDone
  fcbDone := s.fcb.done

def fcbIn (s : System) (i : Cycle) : FcbIn where
  fcbStart := s.fi.fcbStart
  currFrameLen := s.currFrameLen
  dout := s.ram.doutB
  bchState := s.bch.state
  fcbStrict := s.fi.fcbStrict
  frameHalfEmpty := s.fi.frameHalfEmpty
  inputRandom := i.inputRandom
  dividerDone := i.dividerDone
  dividerRemainder := i.dividerRemainder
  emptyRead := i.emptyRead
  s1 := s.s1
  s2 := s.s2
  half := s.half

def tick (g : TdmaSetting) (s : System) (i : Cycle) : System where
  unit := s.unit.tick (s.stuEnv g i) s.ram.doutA
  ram := s.ram.tick s.portA s.portB i.clash
  bch := s.bch.tick g (s.bchIn i)
  fi := s.fi.tick g (s.fiIn i)
  fcb := s.fcb.tick g (s.fcbIn i)
  s1 := s.s1.tick s.fcb.srst s.fcb.wrEnS1 s.fcb.rdEnS1 s.fcb.dwrite
  s2 := s.s2.tick s.fcb.srst s.fcb.wrEnS2 s.fcb.rdEnS2 s.fcb.dwrite
  half := s.half.tick s.fcb.srst s.fcb.wrEnHalf s.fcb.rdEnHalf s.fcb.dwrite
  currFrameLen := g.nextFrameLen s.fi.frameLenExpBch s.unit.stu.frameLenExpDp s.fi.frameLenCutBch
    s.currFrameLen
  fiPktLenByte := Fpga.fiPktLenByte s.currFrameLen

/-- The state after reset, with the frame length that is then in force. -/
def reset (len : BitVec 10) : System where
  currFrameLen := len

abbrev run (g : TdmaSetting) (inp : ℕ → Cycle) (len : BitVec 10) : ℕ → System :=
  trace (tick g) inp (reset len)

end System

end VanetTdma.Fpga
