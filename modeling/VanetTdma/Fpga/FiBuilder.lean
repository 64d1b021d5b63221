import VanetTdma.Fpga.Bch

/-!
# The FI builder (`tdma_control.v`)

Shortly before its own slot the node builds the frame information it will send: `FI_LOOP_1` reads an entry
of the slot table and latches its tag, `FI_LOOP_1_REFRESH` ages the entry and writes it back, `FI_LOOP_2`
appends the tag bit by bit to the words of the send-packet memory.  Then the builder decides on a slot
adjustment and on the frame length, hands the words to the bus and starts the FCB search.

The bus is seen through its acknowledge and done signals only; of the requests to it the model keeps the
write length.
-/

namespace VanetTdma.Fpga

inductive FiState where
  | idle
  | startRstBuf
  | startRstBufLoop
  | startPre
  | start
  | loop1Pre
  | loop1
  | loop1Unlock
  | loop1Refresh
  | loop2
  | loop2Wr
  | adjIsNeededPre
  | adjIsNeeded
  | adjWinnerPre
  | adjWinner
  | adjFrameLen
  | setPktContentStart
  | setPktContentMid
  | setPktContentWait
  | setBufLenStart
  | setBufLenMid
  | setBufLenWait
  | setFrameLenStart
  | setFrameLenMid
  | setFrameLenWait
  | calCksStart
  | calCksMid
  | calCksWait
  | setCksStart
  | setCksMid
  | setCksWait
  | startFcb
  | waitFcb
  | fiEnd
deriving DecidableEq

/-- The registers of the FI builder. -/
structure Fi where
  state : FiState := .idle
  initFiDone : Bool := false
  sendpktWe : Bool := false
  sendpktAddr : BitVec 9 := 0
  sendpktDin : BitVec 32 := 0
  slotStatusEn : Bool := false
  we : Bool := false
  addr : BitVec 7 := 0
  din : SlotEntry := {}
  bitFiIndex : BitVec 7 := 0
  fiPerSlot : FiTag := 0
  fiPerSlotIndex : BitVec 5 := 0
  frmaeLenNeedSlotadj : Bool := false
  frmaeLenNeedExpand : Bool := false
  frmaeLenNeedHalve : Bool := false
  slotNeedAdj : Bool := false
  adjSlotWin : Bool := false
  frameHalfEmpty : Bool := false
  freeEhsCount : BitVec 9 := 0
  fiInitialed : Bool := false
  fcbStrict : Bool := false
  frameCutFlag : Bool := true
  frameLenExpBch : Bool := false
  frameLenCutBch : Bool := false
  rstBeatIdx : BitVec 6 := 0
  isSingleFlag : Bool := false
  frameCount : BitVec 32 := 0
  bchC3h : BitVec 8 := 0
  sendpktTmpBuf : BitVec 32 := 0
  writeLength : BitVec 12 := 0
  fcbStart : Bool := false
deriving DecidableEq

/-- The signals the FI builder reads. -/
structure FiIn where
  slotPointer : BitVec 16
  slotPulse2Counter : BitVec 10
  currFrameLen : BitVec 10
  fiPktLenByte : BitVec 11
  bchState : BchState
  initFiStart : Bool
  bchWorkPointer : BitVec 16
  bchDecideAdj : BitVec 16
  dout : SlotEntry
  ipicAck : Bool
  ipicDone : Bool
  fcbDone : Bool

/-- `SLOT_US`: the microseconds of a slot. -/
def slotUs : ℕ := 1000

/-- The tag of an entry: its `busy`, its occupier, `count_2hop` cut off at 3, and its `psf`. -/
def SlotEntry.fiTag (e : SlotEntry) : FiTag :=
  e.psf ++ (if e.count2hop > 3 then 3 else e.count2hop.setWidth 2 : BitVec 2) ++ e.occupierSid ++ e.busy

/-- `FI_LOOP_1_UNLOCK`. -/
def unlocked (din : SlotEntry) : SlotEntry :=
  { din with c3hopN := false, existed := false, locker := false }

/-- `FI_LOOP_1_REFRESH`: the aging of an entry, decided by what port B shows. -/
def refreshed (globalSid : BitVec 8) (dout din : SlotEntry) : SlotEntry :=
  if dout.occupierSid ≠ globalSid ∧ dout.occupierSid ≠ 0 then
    if dout.life > 1 then { din with life := dout.life - 1 }
    else if dout.life = 1 then
      if dout.busy = 1 then
        { din with
          life := 0, occupierSid := 0, count2hop := 0, count3hop := 0, busy := 0, psf := 0,
          locker := false, c3hopN := false }
      else if dout.busy = 2 ∧ dout.existed = true then
        { din with busy := 1, life := occupierLifeFrame - 1, locker := false }
      else
        { din with
          life := 0, occupierSid := 0, count2hop := 0, count3hop := 0, busy := 0, psf := 0,
          locker := true, c3hopN := false }
    else din
  else din

/-- `bch_slot_pointer`. -/
def TdmaSetting.bchSlotPointer (g : TdmaSetting) (bchWorkPointer : BitVec 16) : BitVec 16 :=
  if g.bchUserPointer ≠ 0xffff then g.bchUserPointer else bchWorkPointer

/-- The slot before `p` is the present one. -/
def FiIn.BeforeSlot (i : FiIn) (p : BitVec 16) : Prop :=
  i.slotPointer.toNat + 1 = if p = 0 then i.currFrameLen.toNat else p.toNat

instance (i : FiIn) (p : BitVec 16) : Decidable (i.BeforeSlot p) :=
  inferInstanceAs (Decidable (_ = _))

namespace Fi

/-- `FI_IDLE`. -/
def idle (i : FiIn) (f : Fi) : Fi :=
  let f := { f with initFiDone := false, frameCutFlag := true, freeEhsCount := 0 }
  if i.initFiStart then { f with fiInitialed := true, state := .startPre }
  else if f.fiInitialed then
    if i.BeforeSlot i.bchWorkPointer ∧ i.slotPulse2Counter.toNat > slotUs - 30 then
      { f with frameCount := f.frameCount + 1, state := .startRstBuf }
    else f
  else f

/-- `FI_LOOP_1`. -/
def loop1 (g : TdmaSetting) (i : FiIn) (f : Fi) : Fi :=
  { f with
    fiPerSlot := i.dout.fiTag
    fiPerSlotIndex := 0
    freeEhsCount :=
      if i.dout.busy = 0 ∧ i.dout.count3hop = 0 then f.freeEhsCount + 1 else f.freeEhsCount
    frameCutFlag :=
      if i.dout.busy ≠ 0 ∧ f.addr.toNat ≥ (i.currFrameLen >>> 1).toNat then false else f.frameCutFlag
    isSingleFlag :=
      if i.dout.occupierSid ≠ 0 ∧ i.dout.occupierSid ≠ g.globalSid then false else f.isSingleFlag
    din := i.dout
    state := .loop1Unlock }

/-- `FI_LOOP_2`: one bit of the tag.  A full word is written in `FI_LOOP_2_WR`; the first word is kept in
`sendpkt_tmp_buf`. -/
def loop2 (v : Fi) : Fi :=
  let f := { v with
    we := false
    sendpktDin := writeBit v.sendpktDin v.bitFiIndex.toNat (v.fiPerSlot.getLsbD v.fiPerSlotIndex.toNat)
    bitFiIndex := BitVec.ofNat 7 ((v.bitFiIndex.toNat + 1) % 32)
    fiPerSlotIndex := v.fiPerSlotIndex + 1 }
  if f.bitFiIndex = 0 then
    { f with
      sendpktTmpBuf := if f.sendpktAddr = 0 then f.sendpktDin else f.sendpktTmpBuf
      sendpktWe := true
      state := .loop2Wr }
  else if f.fiPerSlotIndex.toNat = fiPerSlotBitsnum then
    { f with addr := f.addr + 1, state := .loop1Pre }
  else f

/-- `FI_LOOP_2_WR`. -/
def loop2Wr (v : Fi) : Fi :=
  let f := { v with sendpktWe := false, sendpktAddr := v.sendpktAddr + 1, sendpktDin := 0 }
  if f.fiPerSlotIndex.toNat = fiPerSlotBitsnum then { f with addr := f.addr + 1, state := .loop1Pre }
  else { f with state := .loop2 }

/-- Enough of the frame is free, and it may be halved. -/
def CanCut (g : TdmaSetting) (i : FiIn) (f : Fi) : Prop :=
  f.freeEhsCount ≥ (lenTable i.currFrameLen).thresCutFreeEhs
    ∧ i.currFrameLen.toNat > g.adjFrameLowerBound.toNat

instance (g : TdmaSetting) (i : FiIn) (f : Fi) : Decidable (f.CanCut g i) :=
  inferInstanceAs (Decidable (_ ∧ _))

/-- Little of the frame is free, and it may be doubled. -/
def CanExpand (g : TdmaSetting) (i : FiIn) (f : Fi) : Prop :=
  f.freeEhsCount ≤ (lenTable i.currFrameLen).thresExpFreeEhs
    ∧ i.currFrameLen.toNat < g.adjFrameUpperBound.toNat

instance (g : TdmaSetting) (i : FiIn) (f : Fi) : Decidable (f.CanExpand g i) :=
  inferInstanceAs (Decidable (_ ∧ _))

/-- The first part of the decision in `FI_ADJ_IS_NEEDED`: a better slot, a slot in the lower half, or a
longer frame. -/
def decideSlotAdj (g : TdmaSetting) (i : FiIn) (f : Fi) : Fi :=
  if i.dout.count3hop ≥ g.bchCandidateC3hopThresS1
      ∧ f.freeEhsCount ≥ (lenTable i.currFrameLen).thresSlotAdj then
    { f with slotNeedAdj := true, fcbStrict := true }
  else if g.frameAdjEna then
    let f := { f with slotNeedAdj := false }
    if f.CanCut g i ∧ i.bchWorkPointer.toNat ≥ (i.currFrameLen >>> 1).toNat then
      { f with frmaeLenNeedSlotadj := true, frmaeLenNeedExpand := false, fcbStrict := true }
    else if f.CanExpand g i then
      { f with
        frmaeLenNeedSlotadj := false, frmaeLenNeedExpand := true, frameLenExpBch := true,
        fcbStrict := false }
    else { f with frmaeLenNeedSlotadj := false, frmaeLenNeedExpand := false, fcbStrict := false }
  else f

/-- The second part: the upper half of the frame is free. -/
def decideHalve (g : TdmaSetting) (i : FiIn) (f : Fi) : Fi :=
  if g.frameAdjEna = true ∧ f.frameCutFlag = true ∧ f.CanCut g i then
    { f with frmaeLenNeedHalve := true, frameLenCutBch := true }
  else { f with frmaeLenNeedHalve := false }

/-- `FI_ADJ_IS_NEEDED`. -/
def adjIsNeeded (g : TdmaSetting) (i : FiIn) (v : Fi) : Fi :=
  let f := { v with frameHalfEmpty := decide (v.CanCut g i) }
  if i.bchState.pastInit then
    { (f.decideSlotAdj g i).decideHalve g i with
      bchC3h := i.dout.count3hop.setWidth 8, addr := i.bchDecideAdj.setWidth 7, state := .adjWinnerPre }
  else { f with state := .setPktContentStart }

/-- `FI_ADJ_WINNER`. -/
def adjWinner (g : TdmaSetting) (i : FiIn) (f : Fi) : Fi :=
  { f with
    adjSlotWin := decide (f.bchC3h.toNat ≥ i.dout.count3hop.toNat ∧ i.dout.occupierSid = g.globalSid
      ∧ i.dout.busy = 2)
    state := if f.frmaeLenNeedExpand ∨ f.frmaeLenNeedHalve then .adjFrameLen else .setPktContentStart }

def tick (g : TdmaSetting) (i : FiIn) (f : Fi) : Fi :=
  match f.state with
  | .idle => f.idle i
  | .startRstBuf =>
    { f with
      slotStatusEn := true, rstBeatIdx := 1, sendpktAddr := 0, sendpktWe := true, sendpktDin := 0
      state := .startRstBufLoop }
  | .startRstBufLoop =>
    { f with
      sendpktAddr := f.rstBeatIdx.setWidth 9, sendpktDin := 0, rstBeatIdx := f.rstBeatIdx + 1
      state := if f.rstBeatIdx = 57 then .startPre else .startRstBufLoop }
  | .startPre => { f with sendpktWe := false, slotStatusEn := true, addr := 0, state := .start }
  | .start =>
    { f with
      isSingleFlag := true, sendpktAddr := 0
      sendpktDin := f.sendpktDin.extractLsb' 12 20 ++ g.globalSid
        ++ (lenTable i.currFrameLen).currFrameLenLog2.setWidth 4
      bitFiIndex := 12, state := .loop1Pre }
  | .loop1Pre =>
    if f.addr.toNat = i.currFrameLen.toNat then
      { f with
        addr := i.bchWorkPointer.setWidth 7, sendpktWe := true
        state := if g.slotAdjEna then .adjIsNeededPre else .setPktContentStart }
    else { f with state := .loop1 }
  | .loop1 => f.loop1 g i
  | .loop1Unlock => { f with din := unlocked f.din, state := .loop1Refresh }
  | .loop1Refresh => { f with we := true, din := refreshed g.globalSid i.dout f.din, state := .loop2 }
  | .loop2 => f.loop2
  | .loop2Wr => f.loop2Wr
  | .adjIsNeededPre => { f with sendpktWe := false, state := .adjIsNeeded }
  | .adjIsNeeded => f.adjIsNeeded g i
  | .adjWinnerPre => { f with frameLenExpBch := false, frameLenCutBch := false, state := .adjWinner }
  | .adjWinner => f.adjWinner g i
  | .adjFrameLen =>
    { f with
      sendpktAddr := 0, sendpktWe := true
      sendpktDin := f.sendpktTmpBuf.extractLsb' 4 28
        ++ (lenTable i.currFrameLen).currFrameLenLog2.setWidth 4
      state := .setPktContentStart }
  | .setPktContentStart =>
    { f with
      sendpktWe := false, writeLength := (i.fiPktLenByte.setWidth 12 + 4) &&& 0xFFC
      state := .setPktContentMid }
  | .setPktContentMid => if i.ipicAck then { f with state := .setPktContentWait } else f
  | .setPktContentWait => if i.ipicDone then { f with state := .setBufLenStart } else f
  | .setBufLenStart => { f with state := .setBufLenMid }
  | .setBufLenMid => if i.ipicDone then { f with state := .setBufLenWait } else f
  | .setBufLenWait => if i.ipicDone then { f with state := .setFrameLenStart } else f
  | .setFrameLenStart => { f with state := .setFrameLenMid }
  | .setFrameLenMid => if i.ipicDone then { f with state := .setFrameLenWait } else f
  | .setFrameLenWait => if i.ipicDone then { f with state := .calCksStart } else f
  | .calCksStart => { f with state := .calCksMid }
  | .calCksMid => if i.ipicAck then { f with state := .calCksWait } else f
  | .calCksWait => if i.ipicDone then { f with state := .setCksStart } else f
  | .setCksStart => { f with state := .setCksMid }
  | .setCksMid => if i.ipicAck then { f with state := .setCksWait } else f
  | .setCksWait => if i.ipicDone then { f with state := .startFcb } else f
  | .startFcb => { f with fcbStart := true, state := .waitFcb }
  | .waitFcb => { f with fcbStart := false, state := if i.fcbDone then .fiEnd else .waitFcb }
  | .fiEnd =>
    { f with
      initFiDone := true, slotStatusEn := false
      state := if i.BeforeSlot (g.bchSlotPointer i.bchWorkPointer) then .fiEnd else .idle }

def portB (f : Fi) : SlotPort where
  addr := f.addr
  we := f.we
  din := f.din

/-! ### The pulses for the frame length -/

/-- A pulse is up in `FI_ADJ_WINNER_PRE` only. -/
def PulsesDown (f : Fi) : Prop :=
  f.state ≠ .adjWinnerPre → f.frameLenExpBch = false ∧ f.frameLenCutBch = false

theorem tick_pulses (g : TdmaSetting) (i : FiIn) {f : Fi} (hdec : f.state ≠ .adjIsNeeded)
    (hpre : f.state ≠ .adjWinnerPre) :
    (f.tick g i).frameLenExpBch = f.frameLenExpBch ∧ (f.tick g i).frameLenCutBch = f.frameLenCutBch := by
  unfold tick
  split
  case h_1 =>
    unfold idle
    simp only
    split
    · exact ⟨rfl, rfl⟩
    split
    · split <;> exact ⟨rfl, rfl⟩
    · exact ⟨rfl, rfl⟩
  case h_10 =>
    unfold loop2
    simp only
    split
    · exact ⟨rfl, rfl⟩
    split <;> exact ⟨rfl, rfl⟩
  case h_11 =>
    unfold loop2Wr
    simp only
    split <;> exact ⟨rfl, rfl⟩
  case h_13 hst => exact absurd hst hdec
  case h_14 hst => exact absurd hst hpre
  all_goals first | exact ⟨rfl, rfl⟩ | (split <;> exact ⟨rfl, rfl⟩)

theorem adjIsNeeded_state (g : TdmaSetting) (i : FiIn) (f : Fi) :
    (f.adjIsNeeded g i).state = .adjWinnerPre ∨
      (f.adjIsNeeded g i).frameLenExpBch = f.frameLenExpBch
        ∧ (f.adjIsNeeded g i).frameLenCutBch = f.frameLenCutBch := by
  unfold adjIsNeeded
  simp only
  split
  · exact Or.inl rfl
  · exact Or.inr ⟨rfl, rfl⟩

theorem PulsesDown.tick {f : Fi} (h : f.PulsesDown) (g : TdmaSetting) (i : FiIn) :
    (f.tick g i).PulsesDown := by
  intro hst
  by_cases hpre : f.state = .adjWinnerPre
  · rw [Fi.tick, hpre]
    exact ⟨rfl, rfl⟩
  by_cases hdec : f.state = .adjIsNeeded
  · rw [Fi.tick, hdec] at hst ⊢
    obtain ⟨hexp, hcut⟩ := (adjIsNeeded_state g i f).resolve_left hst
    exact ⟨hexp.trans (h hpre).1, hcut.trans (h hpre).2⟩
  · obtain ⟨hexp, hcut⟩ := tick_pulses g i hdec hpre
    exact ⟨hexp.trans (h hpre).1, hcut.trans (h hpre).2⟩

/-- The decision to double the frame. -/
def Expands (g : TdmaSetting) (i : FiIn) (f : Fi) : Prop :=
  f.state = .adjIsNeeded ∧ i.bchState.pastInit = true ∧ g.frameAdjEna = true
    ∧ ¬ (i.dout.count3hop ≥ g.bchCandidateC3hopThresS1
      ∧ f.freeEhsCount ≥ (lenTable i.currFrameLen).thresSlotAdj)
    ∧ ¬ (f.CanCut g i ∧ i.bchWorkPointer.toNat ≥ (i.currFrameLen >>> 1).toNat)
    ∧ f.CanExpand g i

section Decision

variable {g : TdmaSetting} {i : FiIn} {f : Fi}

theorem decideHalve_frameLenExpBch :
    (f.decideHalve g i).frameLenExpBch = f.frameLenExpBch := by
  unfold decideHalve
  split <;> rfl

theorem decideHalve_frameLenCutBch (hdown : f.frameLenCutBch = false)
    (h : (f.decideHalve g i).frameLenCutBch = true) : f.frameCutFlag = true ∧ f.CanCut g i := by
  revert h
  unfold decideHalve
  split
  · rename_i hcut
    exact fun _ => hcut.2
  · intro h
    exact absurd (hdown.symm.trans h) Bool.false_ne_true

theorem decideSlotAdj_frame : (f.decideSlotAdj g i).frameLenCutBch = f.frameLenCutBch
    ∧ (f.decideSlotAdj g i).frameCutFlag = f.frameCutFlag
    ∧ (f.decideSlotAdj g i).freeEhsCount = f.freeEhsCount := by
  unfold decideSlotAdj
  split
  · exact ⟨rfl, rfl, rfl⟩
  split
  · simp only
    split
    · exact ⟨rfl, rfl, rfl⟩
    split <;> exact ⟨rfl, rfl, rfl⟩
  · exact ⟨rfl, rfl, rfl⟩

theorem tick_expands (h : f.Expands g i) : (f.tick g i).frameLenExpBch = true := by
  obtain ⟨hst, hpast, hena, hslot, hcut, hexp⟩ := h
  rw [tick, hst]
  simp only [adjIsNeeded, hpast, if_true]
  rw [decideHalve_frameLenExpBch, decideSlotAdj, if_neg hslot, if_pos hena]
  -- the free count is the one the decision has seen
  exact (congrArg Fi.frameLenExpBch (if_neg hcut)).trans (congrArg Fi.frameLenExpBch (if_pos hexp))

theorem expands_of_tick (hdown : f.PulsesDown) (h : (f.tick g i).frameLenExpBch = true) :
    f.Expands g i := by
  by_cases hpre : f.state = .adjWinnerPre
  · rw [tick, hpre] at h
    exact nomatch h
  obtain ⟨hlow, -⟩ := hdown hpre
  have hno : ∀ {v : Fi}, v.frameLenExpBch = f.frameLenExpBch → ¬ v.frameLenExpBch = true := by
    intro v hv hc
    rw [hv, hlow] at hc
    exact Bool.false_ne_true hc
  by_cases hdec : f.state = .adjIsNeeded
  · rw [tick, hdec] at h
    revert h
    simp only [adjIsNeeded]
    split
    · rename_i hpast
      simp only
      rw [decideHalve_frameLenExpBch, decideSlotAdj]
      split
      · exact fun h => absurd h (hno rfl)
      rename_i hslot
      split
      · rename_i hena
        simp only
        split
        · exact fun h => absurd h (hno rfl)
        rename_i hcut
        split
        · rename_i hexp
          exact fun _ => ⟨hdec, hpast, hena, hslot, hcut, hexp⟩
        · exact fun h => absurd h (hno rfl)
      · exact fun h => absurd h (hno rfl)
    · exact fun h => absurd h (hno rfl)
  · exact absurd h (hno (tick_pulses g i hdec hpre).1)

theorem canCut_of_tick (hdown : f.PulsesDown) (h : (f.tick g i).frameLenCutBch = true) :
    f.state = .adjIsNeeded ∧ f.frameCutFlag = true ∧ f.CanCut g i := by
  by_cases hpre : f.state = .adjWinnerPre
  · rw [tick, hpre] at h
    exact nomatch h
  obtain ⟨-, hlow⟩ := hdown hpre
  by_cases hdec : f.state = .adjIsNeeded
  · refine ⟨hdec, ?_⟩
    rw [tick, hdec] at h
    revert h
    simp only [adjIsNeeded]
    split
    · intro h
      obtain ⟨hframe, hflag, hfree⟩ :=
        @decideSlotAdj_frame g i { f with frameHalfEmpty := decide (f.CanCut g i) }
      obtain ⟨hup, hcut⟩ := decideHalve_frameLenCutBch (hframe.trans hlow) h
      rw [CanCut, hfree] at hcut
      exact ⟨hflag.symm.trans hup, hcut⟩
    · exact fun h => absurd (hlow.symm.trans h) Bool.false_ne_true
  · rw [(tick_pulses g i hdec hpre).2, hlow] at h
    exact nomatch h

end Decision

end Fi

end VanetTdma.Fpga
