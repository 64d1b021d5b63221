import VanetTdma.Fpga.FrameLen

/-!
# The BCH machine (`tdma_control.v`)

The machine that finds a basic channel (a slot) for this node, requests it, works in it and moves to a
better one.  It listens for a frame (`BCH_LIS_..`), claims a candidate of the FCB search, waits for its
slot and sends a request (`BCH_WAIT_REQ_..`), waits for the slot again (`BCH_REQ_WAIT`) and then works in
it (`BCH_WORK_..`), with an optional move to an adjustment slot (`BCH_WORK_ADJ_..`).

`Bch.nextState` is the combinational block; `Bch.act` is the clocked block, which is driven by the *next*
state.
-/

namespace VanetTdma.Fpga

/-- `curr_bch_state`, without the states that no transition leads to. -/
inductive BchState where
  | idle
  | lisDecideReq
  | lisWaitNextSlot
  | lisWaitNextSlot2
  | lisWaitNextFrame
  | lisFcb
  | waitReqFiInitStart
  | waitReqFiInitWait
  | waitReqWait
  | waitReqFiSendStart
  | waitReqFiSendWait
  | waitReqFiSendDone
  | waitReqFcbPre
  | waitReqFcbStart
  | waitReqFcbDone
  | reqWait
  | workFiWait
  | workFiAdjFramelen
  | workFiSendFiStart
  | workFiSendFiWait
  | workFiFcb
  | workEnaTx
  | workDisaTx
  | workAdjWait
  | workAdjSendFiStart
  | workAdjSendFiWait
  | workAdjSetStatus
  | workAdjBchInvalid
  | workAdjDecideAdjBchInvalid
  | workAdjSetBch1BchInvalid
  | workAdjSetBch2BchInvalid
  | waitReqFcbPreWait
  | ifSingle
  | ifSingleSet1
  | ifSingleSet2
  | workAdjBchInvalidWait
  | ifSingleReset
  | reqFailCount
  | colCount
  | fcbFailCount
deriving DecidableEq

/-- The code of a state; the source compares codes in one place. -/
def BchState.code : BchState → ℕ
  | idle => 0
  | lisDecideReq => 1
  | lisWaitNextSlot => 2
  | lisWaitNextSlot2 => 3
  | lisWaitNextFrame => 4
  | lisFcb => 5
  | waitReqFiInitStart => 6
  | waitReqFiInitWait => 7
  | waitReqWait => 8
  | waitReqFiSendStart => 9
  | waitReqFiSendWait => 10
  | waitReqFiSendDone => 11
  | waitReqFcbPre => 12
  | waitReqFcbStart => 13
  | waitReqFcbDone => 14
  | reqWait => 16
  | workFiWait => 17
  | workFiAdjFramelen => 18
  | workFiSendFiStart => 20
  | workFiSendFiWait => 21
  | workFiFcb => 22
  | workEnaTx => 23
  | workDisaTx => 24
  | workAdjWait => 25
  | workAdjSendFiStart => 26
  | workAdjSendFiWait => 27
  | workAdjSetStatus => 28
  | workAdjBchInvalid => 29
  | workAdjDecideAdjBchInvalid => 30
  | workAdjSetBch1BchInvalid => 31
  | workAdjSetBch2BchInvalid => 32
  | waitReqFcbPreWait => 33
  | ifSingle => 34
  | ifSingleSet1 => 35
  | ifSingleSet2 => 36
  | workAdjBchInvalidWait => 37
  | ifSingleReset => 38
  | reqFailCount => 39
  | colCount => 40
  | fcbFailCount => 61

/-- `curr_bch_state > BCH_WAIT_REQ_FI_INIT_WAIT`. -/
def BchState.pastInit (s : BchState) : Bool := decide (BchState.waitReqFiInitWait.code < s.code)

def BchState.next : BchState → List BchState
  | idle => [idle, lisDecideReq]
  | lisDecideReq => [lisWaitNextSlot]
  | lisWaitNextSlot => [lisWaitNextSlot, lisWaitNextSlot2]
  | lisWaitNextSlot2 => [lisWaitNextSlot2, lisWaitNextFrame]
  | lisWaitNextFrame => [lisWaitNextFrame, lisFcb]
  | lisFcb => [fcbFailCount, waitReqFiInitStart]
  | waitReqFiInitStart => [waitReqFiInitWait]
  | waitReqFiInitWait => [waitReqFiInitWait, waitReqWait]
  | waitReqWait => [waitReqWait, waitReqFiSendStart, reqFailCount]
  | waitReqFiSendStart => [waitReqFiSendWait]
  | waitReqFiSendWait => [waitReqFiSendWait, waitReqFiSendDone]
  | waitReqFiSendDone => [waitReqFiSendDone, reqWait]
  | waitReqFcbPre => [waitReqFcbPreWait]
  | waitReqFcbStart => [waitReqFcbDone]
  | waitReqFcbDone => [fcbFailCount, waitReqWait]
  | reqWait => [reqWait, workFiWait, reqFailCount]
  | workFiWait => [workFiWait, workFiFcb, workFiAdjFramelen, colCount]
  | workFiAdjFramelen => [ifSingle]
  | workFiSendFiStart => [workFiSendFiWait]
  | workFiSendFiWait => [workFiSendFiWait, workEnaTx]
  | workFiFcb => [ifSingle]
  | workEnaTx => [workEnaTx, workDisaTx]
  | workDisaTx => [workAdjWait, workFiWait]
  | workAdjWait => [workAdjWait, workAdjSetStatus, workAdjDecideAdjBchInvalid]
  | workAdjSendFiStart => [workAdjSendFiWait]
  | workAdjSendFiWait => [workAdjSendFiWait, workEnaTx]
  | workAdjSetStatus => [workAdjSendFiStart]
  | workAdjBchInvalid => [workAdjBchInvalidWait]
  | workAdjDecideAdjBchInvalid => [workAdjSetBch1BchInvalid, colCount]
  | workAdjSetBch1BchInvalid => [workAdjSetBch2BchInvalid]
  | workAdjSetBch2BchInvalid => [workFiWait]
  | waitReqFcbPreWait => [waitReqFcbStart]
  | ifSingle => [ifSingleSet1, workFiSendFiStart, ifSingleReset]
  | ifSingleSet1 => [ifSingleSet2]
  | ifSingleSet2 => [workFiSendFiStart]
  | workAdjBchInvalidWait => [workAdjDecideAdjBchInvalid]
  | ifSingleReset => [workFiSendFiStart]
  | reqFailCount => [waitReqFcbPre]
  | colCount => [waitReqFcbPre]
  | fcbFailCount => [idle]

/-- The registers of the BCH machine. -/
structure Bch where
  state : BchState := .idle
  we : Bool := false
  addr : BitVec 7 := 0
  din : SlotEntry := {}
  initFiStart : Bool := false
  sendFiStart : Bool := false
  adjFlag : Bool := false
  singleLock : BitVec 3 := 5
  decideAdj : BitVec 16 := 0
  workPointer : BitVec 16 := 0
  accessibleFlag : Bool := false
  noAvailCount : BitVec 16 := 0
  requestFailCount : BitVec 16 := 0
  collisionCount : BitVec 16 := 0
deriving DecidableEq

/-- The signals the BCH machine reads: `dout` is the output of port B of the slot-status memory. -/
structure BchIn where
  slotPointer : BitVec 16
  currFrameLen : BitVec 10
  dout : SlotEntry
  initFiDone : Bool
  sendFiDone : Bool
  fcbFail : Bool
  fcbBchCandidate : BitVec 16
  slotNeedAdj : Bool
  frmaeLenNeedSlotadj : Bool
  isSingleFlag : Bool
  adjSlotWin : Bool

/-- The test that a slot is this node's without a collision, or free. -/
def Usable (globalSid : BitVec 8) (e : SlotEntry) : Prop :=
  globalSid = e.occupierSid ∧ e.busy = 2 ∨ e.occupierSid = 0

instance (globalSid : BitVec 8) (e : SlotEntry) : Decidable (Usable globalSid e) :=
  inferInstanceAs (Decidable (_ ∨ _))

def TdmaSetting.claim (g : TdmaSetting) (din : SlotEntry) : SlotEntry :=
  { din with
    busy := 2, occupierSid := g.globalSid, psf := g.globalPriority, count2hop := 1, count3hop := 1,
    c3hopN := false, locker := false }

/-- The word that gives a slot up and locks it. -/
def giveUp (din : SlotEntry) : SlotEntry :=
  { din with
    busy := 0, occupierSid := 0, psf := 0, count2hop := 0, count3hop := 0, c3hopN := false,
    locker := true }

/-- The slot after `slot_pointer`. -/
def BchIn.nextSlot (i : BchIn) : ℕ :=
  if i.slotPointer.toNat + 1 = i.currFrameLen.toNat then 0 else i.slotPointer.toNat + 1

namespace Bch

/-- The combinational block. -/
def nextState (g : TdmaSetting) (i : BchIn) (b : Bch) : BchState :=
  match b.state with
  | .idle => if g.tdmaFunctionEnable ∧ g.bchUserPointer = 0xffff then .lisDecideReq else .idle
  | .lisDecideReq => .lisWaitNextSlot
  | .lisWaitNextSlot =>
    if b.workPointer.toNat ≠ i.nextSlot then .lisWaitNextSlot2 else .lisWaitNextSlot
  | .lisWaitNextSlot2 =>
    if b.workPointer ≠ i.slotPointer then .lisWaitNextFrame else .lisWaitNextSlot2
  | .lisWaitNextFrame => if b.workPointer = i.slotPointer then .lisFcb else .lisWaitNextFrame
  | .lisFcb => if i.fcbFail then .fcbFailCount else .waitReqFiInitStart
  | .waitReqFiInitStart => .waitReqFiInitWait
  | .waitReqFiInitWait => if i.initFiDone then .waitReqWait else .waitReqFiInitWait
  | .waitReqWait =>
    if i.slotPointer = b.workPointer then
      if Usable g.globalSid i.dout then .waitReqFiSendStart else .reqFailCount
    else .waitReqWait
  | .waitReqFiSendStart => .waitReqFiSendWait
  | .waitReqFiSendWait => if i.sendFiDone then .waitReqFiSendDone else .waitReqFiSendWait
  | .waitReqFiSendDone => if i.slotPointer ≠ b.workPointer then .reqWait else .waitReqFiSendDone
  | .reqFailCount => .waitReqFcbPre
  | .colCount => .waitReqFcbPre
  | .waitReqFcbPre => .waitReqFcbPreWait
  | .waitReqFcbPreWait => .waitReqFcbStart
  | .waitReqFcbStart => .waitReqFcbDone
  | .waitReqFcbDone => if i.fcbFail then .fcbFailCount else .waitReqWait
  | .reqWait =>
    if i.slotPointer = b.workPointer then
      if Usable g.globalSid i.dout then .workFiWait else .reqFailCount
    else .reqWait
  | .workFiWait =>
    if i.slotPointer = b.workPointer then
      if Usable g.globalSid i.dout then
        if i.fcbFail = false ∧ (i.slotNeedAdj = true ∨ i.frmaeLenNeedSlotadj = true) then .workFiFcb
        else .workFiAdjFramelen
      else .colCount
    else .workFiWait
  | .workFiFcb => .ifSingle
  | .workFiAdjFramelen => .ifSingle
  | .ifSingle =>
    if g.randonBchIfSingle ∧ i.isSingleFlag then
      if b.singleLock = 0 then .ifSingleSet1 else .workFiSendFiStart
    else .ifSingleReset
  | .ifSingleSet1 => .ifSingleSet2
  | .ifSingleSet2 => .workFiSendFiStart
  | .ifSingleReset => .workFiSendFiStart
  | .workFiSendFiStart => .workFiSendFiWait
  | .workFiSendFiWait => if i.sendFiDone then .workEnaTx else .workFiSendFiWait
  | .workEnaTx => if i.slotPointer ≠ b.workPointer then .workDisaTx else .workEnaTx
  | .workDisaTx => if b.adjFlag then .workAdjWait else .workFiWait
  | .workAdjWait =>
    if i.slotPointer = b.workPointer then
      if Usable g.globalSid i.dout then .workAdjSetStatus else .workAdjDecideAdjBchInvalid
    else .workAdjWait
  | .workAdjSetStatus => .workAdjSendFiStart
  | .workAdjSendFiStart => .workAdjSendFiWait
  | .workAdjSendFiWait => if i.sendFiDone then .workEnaTx else .workAdjSendFiWait
  | .workAdjBchInvalid => .workAdjBchInvalidWait
  | .workAdjBchInvalidWait => .workAdjDecideAdjBchInvalid
  | .workAdjDecideAdjBchInvalid =>
    if Usable g.globalSid i.dout then .workAdjSetBch1BchInvalid else .colCount
  | .workAdjSetBch1BchInvalid => .workAdjSetBch2BchInvalid
  | .workAdjSetBch2BchInvalid => .workFiWait
  | .fcbFailCount => .idle

/-- The clocked block, for the next state `n`. -/
def act (g : TdmaSetting) (i : BchIn) (n : BchState) (b : Bch) : Bch :=
  match n with
  | .lisDecideReq => { b with initFiStart := true, workPointer := BitVec.ofNat 16 i.nextSlot }
  | .lisWaitNextSlot => { b with initFiStart := false }
  | .lisFcb => { b with workPointer := i.fcbBchCandidate }
  | .waitReqFiInitStart =>
    { b with
      we := true, addr := b.workPointer.setWidth 7, din := g.claim b.din, initFiStart := true }
  | .waitReqFiInitWait => { b with initFiStart := false, we := false }
  | .waitReqFiSendStart => { b with sendFiStart := true }
  | .waitReqFiSendWait => { b with sendFiStart := false }
  | .reqFailCount => { b with requestFailCount := b.requestFailCount + 1 }
  | .colCount => { b with collisionCount := b.collisionCount + 1 }
  | .waitReqFcbPre => { b with addr := b.workPointer.setWidth 7 }
  | .waitReqFcbStart =>
    if g.globalSid = i.dout.occupierSid then { b with we := true, din := giveUp b.din } else b
  | .waitReqFcbDone =>
    if i.fcbFail then { b with we := false }
    else
      { b with
        workPointer := i.fcbBchCandidate, addr := i.fcbBchCandidate.setWidth 7, we := true,
        din := g.claim b.din }
  | .reqWait => { b with we := false }
  | .workFiWait => { b with addr := b.workPointer.setWidth 7 }
  | .workFiFcb =>
    { b with
      decideAdj := i.fcbBchCandidate, addr := i.fcbBchCandidate.setWidth 7, din := g.claim b.din,
      we := true, adjFlag := true }
  | .ifSingle => { b with singleLock := b.singleLock - 1 }
  | .ifSingleSet1 =>
    { b with we := true, addr := b.workPointer.setWidth 7, din := giveUp b.din, singleLock := 5 }
  | .ifSingleSet2 =>
    { b with
      workPointer := i.fcbBchCandidate, addr := i.fcbBchCandidate.setWidth 7, din := g.claim b.din }
  | .ifSingleReset => { b with singleLock := 5 }
  | .workFiSendFiStart => { b with we := false, sendFiStart := true }
  | .workFiSendFiWait => { b with sendFiStart := false }
  | .workEnaTx => { b with accessibleFlag := true }
  | .workDisaTx => { b with accessibleFlag := false }
  | .workAdjWait => { b with addr := b.workPointer.setWidth 7, adjFlag := false }
  | .workAdjSetStatus =>
    if i.adjSlotWin then
      { b with
        workPointer := b.decideAdj, addr := b.workPointer.setWidth 7, din := giveUp b.din, we := true }
    else { b with addr := b.decideAdj.setWidth 7, din := giveUp b.din, we := true }
  | .workAdjSendFiStart => { b with we := false, sendFiStart := true }
  | .workAdjSendFiWait => { b with sendFiStart := false }
  | .workAdjBchInvalid => { b with addr := b.decideAdj.setWidth 7 }
  | .workAdjSetBch1BchInvalid =>
    { b with
      addr := b.workPointer.setWidth 7, we := true, din := giveUp b.din, workPointer := b.decideAdj }
  | .workAdjSetBch2BchInvalid => { b with we := false }
  | .fcbFailCount => { b with noAvailCount := b.noAvailCount + 1 }
  | _ => b

def tick (g : TdmaSetting) (i : BchIn) (b : Bch) : Bch :=
  { b.act g i (b.nextState g i) with state := b.nextState g i }

def portB (b : Bch) : SlotPort where
  addr := b.addr
  we := b.we
  din := b.din

/-! ### What an edge can do -/

theorem nextState_mem (g : TdmaSetting) (i : BchIn) (b : Bch) : b.nextState g i ∈ b.state.next := by
  unfold nextState
  cases b.state <;> simp only [BchState.next] <;> repeat' split
  all_goals simp

theorem tick_state (g : TdmaSetting) (i : BchIn) (b : Bch) : (b.tick g i).state = b.nextState g i := rfl

end Bch

/-- The states in which the address register is at the work slot. -/
def BchState.onWork : BchState → Bool
  | waitReqFiInitStart | waitReqFiInitWait | waitReqWait => true
  | waitReqFiSendStart | waitReqFiSendWait | waitReqFiSendDone => true
  | reqFailCount | colCount => true
  | waitReqFcbPre | waitReqFcbPreWait | waitReqFcbStart | waitReqFcbDone => true
  | reqWait | workFiWait | workFiAdjFramelen => true
  | ifSingleSet1 | ifSingleSet2 => true
  | workAdjWait | workAdjDecideAdjBchInvalid => true
  | _ => false

/-- The states that set the address register to the work slot. -/
def BchState.setsWork : BchState → Bool
  | waitReqFiInitStart | waitReqFcbPre | workFiWait | ifSingleSet1 | ifSingleSet2 | workAdjWait => true
  | _ => false

/-- The states in which the transmission of a frame information is asked for. -/
def BchState.sends : BchState → Bool
  | waitReqFiSendStart | workFiSendFiStart | workAdjSendFiStart => true
  | _ => false

/-- The states in which the BCH machine does not write. -/
def BchState.quiet : BchState → Bool
  | waitReqFiInitWait | reqWait | workFiWait | workFiAdjFramelen | colCount => true
  | workFiSendFiStart | workFiSendFiWait | workEnaTx | workDisaTx => true
  | workAdjWait | workAdjSendFiStart | workAdjSendFiWait => true
  | workAdjDecideAdjBchInvalid | workAdjSetBch2BchInvalid => true
  | _ => false

/-- The states that drop the write enable. -/
def BchState.dropsWe : BchState → Bool
  | waitReqFiInitWait | reqWait | workFiSendFiStart | workAdjSendFiStart | workAdjSetBch2BchInvalid => true
  | _ => false

/-- A state that some transition leads to. -/
def BchState.live : BchState → Bool
  | workAdjBchInvalid | workAdjBchInvalidWait => false
  | _ => true

namespace BchState

section Next

variable {st n : BchState}

theorem of_next {p : BchState → BchState → Bool} (hall : ∀ st : BchState, st.next.all (p st) = true)
    (hnext : n ∈ st.next) : p st n = true :=
  List.all_eq_true.mp (hall st) n hnext

theorem eq_of_next {t : BchState} (hall : ∀ st : BchState, (st.next.all fun m => m != n || st == t) = true)
    (hnext : n ∈ st.next) : st = t := by
  simpa using of_next hall hnext

theorem live_of_next (hnext : n ∈ st.next) (h : st.live = true) : n.live = true := by
  have hall : ∀ st : BchState, (st.next.all fun n => !st.live || n.live) = true := by
    intro st
    cases st <;> rfl
  simpa [h] using of_next hall hnext

theorem onWork_of_next (hnext : n ∈ st.next) (hlive : st.live = true) (h : n.onWork = true) :
    st.onWork = true ∨ n.setsWork = true := by
  have hall : ∀ st : BchState,
      (st.next.all fun n => !st.live || !n.onWork || (st.onWork || n.setsWork)) = true := by
    intro st
    cases st <;> rfl
  simpa [h, hlive] using of_next hall hnext

theorem quiet_of_next (hnext : n ∈ st.next) (hlive : st.live = true) (h : n.quiet = true) :
    st.quiet = true ∨ n.dropsWe = true := by
  have hall : ∀ st : BchState,
      (st.next.all fun n => !st.live || !n.quiet || (st.quiet || n.dropsWe)) = true := by
    intro st
    cases st <;> rfl
  simpa [h, hlive] using of_next hall hnext

theorem not_sends_of_next (hnext : n ∈ st.next) (h : st.sends = true) :
    n = .waitReqFiSendWait ∨ n = .workFiSendFiWait ∨ n = .workAdjSendFiWait := by
  have hall : ∀ st : BchState, (st.next.all fun n => !st.sends ||
      (n == .waitReqFiSendWait || (n == .workFiSendFiWait || n == .workAdjSendFiWait))) = true := by
    intro st
    cases st <;> rfl
  simpa [h] using of_next hall hnext

end Next

end BchState

namespace Bch

/-- What the BCH machine keeps on every input. -/
structure Regular (b : Bch) : Prop where
  live : b.state.live = true
  addr : b.state.onWork = true → b.addr = b.workPointer.setWidth 7
  sends : b.sendFiStart = true → b.state.sends = true
  quiet : b.state.quiet = true → b.we = false

section Regular

variable {g : TdmaSetting} {i : BchIn} {b : Bch} {n : BchState}

theorem act_addr_of_setsWork (h : n.setsWork = true) :
    (b.act g i n).addr = (b.act g i n).workPointer.setWidth 7 := by
  cases n <;> first | exact absurd h Bool.false_ne_true | rfl

theorem act_addr_of_onWork (h : n.onWork = true) (hold : b.addr = b.workPointer.setWidth 7) :
    (b.act g i n).addr = (b.act g i n).workPointer.setWidth 7 := by
  cases n <;> first
    | exact absurd h Bool.false_ne_true
    | rfl
    | exact hold
    | (simp only [act]; split <;> first | exact hold | rfl)

theorem act_sendFiStart (h : (b.act g i n).sendFiStart = true) :
    n.sends = true ∨ b.sendFiStart = true
      ∧ n ≠ .waitReqFiSendWait ∧ n ≠ .workFiSendFiWait ∧ n ≠ .workAdjSendFiWait := by
  cases n <;> first
    | exact Or.inl rfl
    | exact absurd h Bool.false_ne_true
    | exact Or.inr ⟨h, nofun, nofun, nofun⟩
    | (simp only [act] at h
       split at h <;> exact Or.inr ⟨h, nofun, nofun, nofun⟩)

theorem act_we_of_dropsWe (h : n.dropsWe = true) : (b.act g i n).we = false := by
  cases n <;> first | exact absurd h Bool.false_ne_true | rfl

theorem act_we_of_quiet (h : n.quiet = true) (hold : b.we = false) : (b.act g i n).we = false := by
  cases n <;> first | exact absurd h Bool.false_ne_true | rfl | exact hold

theorem Regular.tick (h : b.Regular) : (b.tick g i).Regular where
  live := BchState.live_of_next (nextState_mem g i b) h.live
  addr := by
    intro hwork
    rcases BchState.onWork_of_next (nextState_mem g i b) h.live hwork with hold | hsets
    · exact act_addr_of_onWork hwork (h.addr hold)
    · exact act_addr_of_setsWork hsets
  sends := by
    intro hsend
    rcases act_sendFiStart hsend with hn | ⟨hold, hw, hf, ha⟩
    · exact hn
    · rcases BchState.not_sends_of_next (nextState_mem g i b) (h.sends hold) with hn | hn | hn
      · exact absurd hn hw
      · exact absurd hn hf
      · exact absurd hn ha
  quiet := by
    intro hquiet
    rcases BchState.quiet_of_next (nextState_mem g i b) h.live hquiet with hold | hdrop
    · exact act_we_of_quiet hquiet (h.quiet hold)
    · exact act_we_of_dropsWe hdrop

end Regular

/-- What leads to an adjustment: at the own slot, usable, the last search has offered a slot and a flag is up. -/
structure Adjusting (g : TdmaSetting) (i : BchIn) (b : Bch) : Prop where
  state : b.state = .workFiWait
  atSlot : i.slotPointer = b.workPointer
  usable : Usable g.globalSid i.dout
  fcbFail : i.fcbFail = false
  flag : i.slotNeedAdj = true ∨ i.frmaeLenNeedSlotadj = true

theorem workFiFcb_of_nextState {g : TdmaSetting} {i : BchIn} {b : Bch} (hn : b.nextState g i = .workFiFcb) :
    b.Adjusting g i := by
  have hmem := nextState_mem g i b
  rw [hn] at hmem
  have hst : b.state = .workFiWait := BchState.eq_of_next (fun st => by cases st <;> rfl) hmem
  revert hn
  simp only [nextState, hst]
  split
  · rename_i hslot
    split
    · rename_i husable
      split
      · rename_i hgo
        exact fun _ => ⟨hst, hslot, husable, hgo.1, hgo.2⟩
      · exact nofun
    · exact nofun
  · exact nofun

end Bch

end VanetTdma.Fpga
