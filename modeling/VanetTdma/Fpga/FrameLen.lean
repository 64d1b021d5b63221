import VanetTdma.Fpga.SlotEntry

/-!
# User settings and the frame length (`tdma_control.v`)

`curr_frame_len` is set by the user while TDMA or its frame adjustment is off.  Otherwise it is doubled
by a pulse of the FI builder or of the slot-table updater, and halved by a pulse of the FI builder.
-/

namespace VanetTdma.Fpga

/-- The registers that user software sets; they stay fixed in a run. -/
structure TdmaSetting where
  globalSid : BitVec 8
  globalPriority : BitVec 2 := 0
  bchCandidateC3hopThresS1 : BitVec 9
  tdmaFunctionEnable : Bool := true
  bchUserPointer : BitVec 16 := 0xffff
  defaultFrameLenUser : BitVec 8 := 0
  frameAdjEna : Bool := true
  slotAdjEna : Bool := true
  adjFrameLowerBound : BitVec 9
  adjFrameUpperBound : BitVec 9
  randonBchIfSingle : Bool := false

/-- What depends on the frame length alone. -/
structure LenTable where
  currFrameLenLog2 : BitVec 5
  thresCutFreeEhs : BitVec 9
  thresExpFreeEhs : BitVec 9
  thresSlotAdj : BitVec 9

/-- The case table over `curr_frame_len`. -/
def lenTable (currFrameLen : BitVec 10) : LenTable :=
  if currFrameLen = 4 then ⟨2, 2, 0, 1⟩
  else if currFrameLen = 8 then ⟨3, 5, 2, 1⟩
  else if currFrameLen = 16 then ⟨4, 10, 3, 2⟩
  else if currFrameLen = 32 then ⟨5, 12, 4, 3⟩
  else if currFrameLen = 64 then ⟨6, 25, 5, 4⟩
  else if currFrameLen = 128 then ⟨7, 51, 13, 5⟩
  else ⟨0, 0, 0, 0⟩

/-- `curr_frame_len` after an edge, from the three pulses. -/
def TdmaSetting.nextFrameLen (g : TdmaSetting) (expBch expDp cutBch : Bool) (len : BitVec 10) :
    BitVec 10 :=
  if g.tdmaFunctionEnable ∧ g.frameAdjEna then
    if expBch ∨ expDp then len <<< 1
    else if cutBch then len >>> 1
    else len
  else if g.defaultFrameLenUser ≠ 0 then g.defaultFrameLenUser.setWidth 10
  else len

/-- `fi_pkt_len_byte` after an edge. -/
def fiPktLenByte (len : BitVec 10) : BitVec 11 := (len >>> 2).setWidth 11 * 7 + 2

end VanetTdma.Fpga
