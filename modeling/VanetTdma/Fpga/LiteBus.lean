import Mathlib.Tactic.Common

/-!
# The lite bus (`ipic_lite_state_machine.v`)

One dispatcher serves the requests of `tdma_control` (TC) and `desc_processor` (DP); a second machine
carries out the transaction on the bus.  A request is acknowledged in the cycle after it is taken, and
its end is reported by a pulse of the requester's `ipic_done`.

* `LiteBus.Ok` — the two machines keep in step; it holds after reset and is kept by every edge
  (`LiteBus.Ok.tick`);
* `TcWrite` — the stages of a write that TC has asked for, and `TcWrite.tick`, how they follow.
-/

namespace VanetTdma.Fpga

/-- `dispatch_state`. -/
inductive DispatchState where
  | idle
  | serving
  | reporting
deriving DecidableEq

/-- `dispatch_type`. -/
inductive Requester where
  | none
  | tc
  | dp
deriving DecidableEq

/-- `curr_ipic_state`. -/
inductive IpicState where
  | idle
  | dispatch
  | singleRdWait
  | singleRdRcvWait
  | singleRdEnd
  | singleWrWait
  | singleWrWrWait
  | singleWrEnd
  | error
deriving DecidableEq

/-- `` `SINGLE_RD `` and `` `SINGLE_WR ``. -/
def singleRd : BitVec 3 := 2

def singleWr : BitVec 3 := 3

/-- The signals of one requester. -/
structure LiteReq where
  start : Bool := false
  ipicType : BitVec 3 := 0
  readAddr : BitVec 32 := 0
  writeAddr : BitVec 32 := 0
  writeData : BitVec 32 := 0
deriving DecidableEq

/-- The registers of the bus machines. -/
structure LiteBus where
  dispatchState : DispatchState := .idle
  dispatchType : Requester := .none
  ackTc : Bool := false
  ackDp : Bool := false
  doneTc : Bool := false
  doneDp : Bool := false
  ipicStart : Bool := false
  ipicType : BitVec 3 := 0
  readAddr : BitVec 32 := 0
  writeAddr : BitVec 32 := 0
  writeData : BitVec 32 := 0
  state : IpicState := .idle
  ipicDone : Bool := false
  mstrdReq : Bool := false
  mstwrReq : Bool := false
  mstAddr : BitVec 32 := 0
  mstwrD : BitVec 32 := 0
deriving DecidableEq

/-- The requests and the answers of the AXI master. -/
structure LiteBusIn where
  tc : LiteReq
  dp : LiteReq
  cmdack : Bool
  cmplt : Bool

namespace LiteBus

def take (r : LiteReq) (b : LiteBus) : LiteBus :=
  { b with
    readAddr := r.readAddr, writeAddr := r.writeAddr, writeData := r.writeData, ipicType := r.ipicType
    ipicStart := true, dispatchState := .serving }

def dispatch (i : LiteBusIn) (b : LiteBus) : LiteBus :=
  match b.dispatchState with
  | .idle =>
    if i.tc.start then { b.take i.tc with ackTc := true, dispatchType := .tc }
    else if i.dp.start then { b.take i.dp with ackDp := true, dispatchType := .dp }
    else b
  | .serving =>
    let b' := { b with ipicStart := false, ackDp := false, ackTc := false }
    if b.ipicDone then
      { b' with
        dispatchState := .reporting
        doneTc := if b.dispatchType = .tc then true else b.doneTc
        doneDp := if b.dispatchType = .dp then true else b.doneDp }
    else b'
  | .reporting => { b with dispatchState := .idle, doneDp := false, doneTc := false }

def nextIpicState (i : LiteBusIn) (b : LiteBus) : IpicState :=
  match b.state with
  | .idle => if b.ipicStart then .dispatch else .idle
  | .dispatch =>
    if b.ipicType = singleRd then .singleRdWait
    else if b.ipicType = singleWr then .singleWrWait
    else .error
  | .singleRdWait => if i.cmdack then .singleRdRcvWait else .singleRdWait
  | .singleRdRcvWait => if i.cmplt then .singleRdEnd else .singleRdRcvWait
  | .singleRdEnd => .idle
  | .singleWrWait => if i.cmdack then .singleWrWrWait else .singleWrWait
  | .singleWrWrWait => if i.cmplt then .singleWrEnd else .singleWrWrWait
  | .singleWrEnd => .idle
  | .error => .error

/-- The registers the transaction machine drives on entering a state; `b` is the bus before the edge and
`b'` what the dispatcher has made of it. -/
def enter (b b' : LiteBus) : IpicState → LiteBus
  | .idle => { b' with state := .idle, ipicDone := false }
  | .dispatch => { b' with state := .dispatch }
  | .singleRdWait =>
    { b' with state := .singleRdWait, mstrdReq := true, mstwrReq := false, mstAddr := b.readAddr }
  | .singleRdRcvWait => { b' with state := .singleRdRcvWait, mstrdReq := false }
  | .singleRdEnd => { b' with state := .singleRdEnd, ipicDone := true }
  | .singleWrWait =>
    { b' with
      state := .singleWrWait, mstwrReq := true, mstrdReq := false, mstAddr := b.writeAddr
      mstwrD := b.writeData }
  | .singleWrWrWait => { b' with state := .singleWrWrWait, mstwrReq := false }
  | .singleWrEnd => { b' with state := .singleWrEnd, ipicDone := true }
  | .error => { b' with state := .error }

def tick (i : LiteBusIn) (b : LiteBus) : LiteBus := enter b (b.dispatch i) (b.nextIpicState i)

/-! ### The two machines keep in step -/

/-- Where dispatcher and transaction machine are, together. -/
inductive Phase (b : LiteBus) : Prop
  | rest (hd : b.dispatchState = .idle) (hs : b.ipicStart = false) (hst : b.state = .idle)
      (hdone : b.ipicDone = false)
  | started (hd : b.dispatchState = .serving) (hs : b.ipicStart = true) (hst : b.state = .idle)
      (hdone : b.ipicDone = false)
  | working (hd : b.dispatchState = .serving) (hs : b.ipicStart = false) (hidle : b.state ≠ .idle)
      (hrd : b.state ≠ .singleRdEnd) (hwr : b.state ≠ .singleWrEnd) (hdone : b.ipicDone = false)
  | ended (hd : b.dispatchState = .serving) (hs : b.ipicStart = false)
      (hst : b.state = .singleRdEnd ∨ b.state = .singleWrEnd) (hdone : b.ipicDone = true)
  | reported (hd : b.dispatchState = .reporting) (hs : b.ipicStart = false) (hst : b.state = .idle)
      (hdone : b.ipicDone = false)

def ServesTc (b : LiteBus) : Prop := b.dispatchState ≠ .idle ∧ b.dispatchType = .tc

/-- What holds of the bus at every edge. -/
structure Ok (b : LiteBus) : Prop where
  phase : b.Phase
  ack : b.ackTc = true → b.ServesTc ∧ b.ipicStart = true
  done : b.doneTc = true → b.ServesTc ∧ b.dispatchState = .reporting

theorem ok_init : Ok {} where
  phase := .rest rfl rfl rfl rfl
  ack h := Bool.noConfusion h
  done h := Bool.noConfusion h

variable {b : LiteBus} {i : LiteBusIn}

@[simp] theorem enter_dispatchState (b b' : LiteBus) (st : IpicState) :
    (enter b b' st).dispatchState = b'.dispatchState := by cases st <;> rfl

@[simp] theorem enter_dispatchType (b b' : LiteBus) (st : IpicState) :
    (enter b b' st).dispatchType = b'.dispatchType := by cases st <;> rfl

@[simp] theorem enter_ipicStart (b b' : LiteBus) (st : IpicState) :
    (enter b b' st).ipicStart = b'.ipicStart := by cases st <;> rfl

@[simp] theorem enter_ackTc (b b' : LiteBus) (st : IpicState) :
    (enter b b' st).ackTc = b'.ackTc := by cases st <;> rfl

@[simp] theorem enter_doneTc (b b' : LiteBus) (st : IpicState) :
    (enter b b' st).doneTc = b'.doneTc := by cases st <;> rfl

@[simp] theorem enter_state (b b' : LiteBus) (st : IpicState) :
    (enter b b' st).state = st := by cases st <;> rfl

theorem Ok.ackTc_of_idle (h : Ok b) (hs : b.ipicStart = false) : b.ackTc = false := by
  by_contra hack
  rw [Bool.not_eq_false] at hack
  rw [(h.ack hack).2] at hs
  exact Bool.noConfusion hs

theorem Ok.doneTc_of_ne (h : Ok b) (hd : b.dispatchState ≠ .reporting) : b.doneTc = false := by
  by_contra hdone
  rw [Bool.not_eq_false] at hdone
  exact hd (h.done hdone).2

theorem tick_rest (hd : b.dispatchState = .idle) (hs : b.ipicStart = false) (hst : b.state = .idle) :
    b.tick i =
      { (if i.tc.start then { b.take i.tc with ackTc := true, dispatchType := .tc }
          else if i.dp.start then { b.take i.dp with ackDp := true, dispatchType := .dp }
          else b) with state := .idle, ipicDone := false } := by
  simp only [tick, dispatch, nextIpicState, hd, hs, hst, Bool.false_eq_true, if_false, enter]

theorem tick_serving (hd : b.dispatchState = .serving) (hdone : b.ipicDone = false) :
    b.tick i = enter b { b with ipicStart := false, ackDp := false, ackTc := false }
      (b.nextIpicState i) := by
  simp only [tick, dispatch, hd, hdone, Bool.false_eq_true, if_false]

theorem tick_ended (hd : b.dispatchState = .serving) (hdone : b.ipicDone = true)
    (hst : b.state = .singleRdEnd ∨ b.state = .singleWrEnd) :
    b.tick i = { b with
      ipicStart := false, ackDp := false, ackTc := false, dispatchState := .reporting
      doneTc := if b.dispatchType = .tc then true else b.doneTc
      doneDp := if b.dispatchType = .dp then true else b.doneDp
      state := .idle, ipicDone := false } := by
  have hnext : b.nextIpicState i = .idle := by
    rcases hst with hst | hst <;> simp only [nextIpicState, hst]
  simp only [tick, dispatch, hd, hdone, if_true, hnext, enter]

theorem tick_reported (hd : b.dispatchState = .reporting) (hs : b.ipicStart = false)
    (hst : b.state = .idle) :
    b.tick i = { b with
      dispatchState := .idle, doneDp := false, doneTc := false, state := .idle, ipicDone := false } := by
  simp only [tick, dispatch, nextIpicState, hd, hs, hst, Bool.false_eq_true, if_false, enter]

theorem enter_ipicDone (b b' : LiteBus) {st : IpicState} (hrd : st ≠ .singleRdEnd)
    (hwr : st ≠ .singleWrEnd) (hdone : b'.ipicDone = false) : (enter b b' st).ipicDone = false := by
  cases st with
  | singleRdEnd => exact absurd rfl hrd
  | singleWrEnd => exact absurd rfl hwr
  | _ => first | exact hdone | rfl

theorem enter_ipicDone_end (b b' : LiteBus) {st : IpicState}
    (h : st = .singleRdEnd ∨ st = .singleWrEnd) : (enter b b' st).ipicDone = true := by
  rcases h with rfl | rfl <;> rfl

theorem nextIpicState_working (hidle : b.state ≠ .idle) (hrd : b.state ≠ .singleRdEnd)
    (hwr : b.state ≠ .singleWrEnd) : b.nextIpicState i ≠ .idle := by
  unfold nextIpicState
  cases hst : b.state with
  | idle => exact absurd hst hidle
  | singleRdEnd => exact absurd hst hrd
  | singleWrEnd => exact absurd hst hwr
  | _ => dsimp only; repeat' split
         all_goals exact nofun

/-- **The dispatcher and the transaction machine keep in step.** -/
theorem Ok.tick (h : Ok b) : Ok (b.tick i) := by
  cases h.phase with
  | rest hd hs hst hdone =>
    have hack := h.ackTc_of_idle hs
    have hdoneTc := h.doneTc_of_ne (by rw [hd]; exact nofun)
    rw [tick_rest hd hs hst]
    split
    · exact ⟨.started rfl rfl rfl rfl, fun _ => ⟨⟨nofun, rfl⟩, rfl⟩,
        fun hd' => Bool.noConfusion (hdoneTc.symm.trans hd')⟩
    split
    · exact ⟨.started rfl rfl rfl rfl, fun ha => Bool.noConfusion (hack.symm.trans ha),
        fun hd' => Bool.noConfusion (hdoneTc.symm.trans hd')⟩
    · exact ⟨.rest hd hs rfl rfl, fun ha => Bool.noConfusion (hack.symm.trans ha),
        fun hd' => Bool.noConfusion (hdoneTc.symm.trans hd')⟩
  | started hd hs hst hdone =>
    have hdoneTc := h.doneTc_of_ne (by rw [hd]; exact nofun)
    rw [tick_serving hd hdone]
    simp only [nextIpicState, hst, hs, if_true]
    exact ⟨.working hd rfl nofun nofun IpicState.noConfusion hdone,
      fun ha => Bool.noConfusion ha, fun hd' => Bool.noConfusion (hdoneTc.symm.trans hd')⟩
  | working hd hs hidle hrd hwr hdone =>
    have hdoneTc := h.doneTc_of_ne (by rw [hd]; exact nofun)
    have hnext := nextIpicState_working (i := i) hidle hrd hwr
    rw [tick_serving hd hdone]
    generalize b.nextIpicState i = st at hnext
    refine ⟨?_, fun ha => ?_, fun hd' => ?_⟩
    · by_cases hend : st = .singleRdEnd ∨ st = .singleWrEnd
      · exact .ended (by simpa using hd) (by simp) (by simpa using hend)
          (enter_ipicDone_end _ _ hend)
      · obtain ⟨hrd', hwr'⟩ := not_or.mp hend
        exact .working (by simpa using hd) (by simp) (by simpa using hnext) (by simpa using hrd')
          (by simpa using hwr') (enter_ipicDone _ _ hrd' hwr' hdone)
    · rw [enter_ackTc] at ha
      exact Bool.noConfusion ha
    · rw [enter_doneTc] at hd'
      exact Bool.noConfusion (hdoneTc.symm.trans hd')
  | ended hd hs hst hdone =>
    have hdoneTc := h.doneTc_of_ne (by rw [hd]; exact nofun)
    rw [tick_ended hd hdone hst]
    refine ⟨.reported rfl rfl rfl rfl, fun ha => Bool.noConfusion ha, fun hd' => ?_⟩
    refine ⟨⟨nofun, ?_⟩, rfl⟩
    by_contra htc
    rw [if_neg htc, hdoneTc] at hd'
    exact Bool.noConfusion hd'
  | reported hd hs hst hdone =>
    have hack := h.ackTc_of_idle hs
    rw [tick_reported hd hs hst]
    exact ⟨.rest rfl hs rfl rfl, fun ha => Bool.noConfusion (hack.symm.trans ha),
      fun hd' => Bool.noConfusion hd'⟩

theorem not_servesTc_of_idle (hd : b.dispatchState = .idle) : ¬ b.ServesTc := fun h => h.1 hd

theorem Ok.not_servesTc_tick (h : Ok b) (hfree : ¬ b.ServesTc) (hstart : i.tc.start = false) :
    ¬ (b.tick i).ServesTc := by
  rintro ⟨hd', htc⟩
  cases h.phase with
  | rest hd hs hst hdone =>
    rw [tick_rest hd hs hst, hstart, if_neg Bool.false_ne_true] at hd' htc
    split at htc
    · exact Requester.noConfusion htc
    · rename_i hdp
      rw [if_neg hdp] at hd'
      exact hd' hd
  | started hd hs hst hdone =>
    rw [tick_serving hd hdone, enter_dispatchType] at htc
    exact hfree ⟨by rw [hd]; exact nofun, htc⟩
  | working hd hs hidle hrd hwr hdone =>
    rw [tick_serving hd hdone, enter_dispatchType] at htc
    exact hfree ⟨by rw [hd]; exact nofun, htc⟩
  | ended hd hs hst hdone =>
    rw [tick_ended hd hdone hst] at htc
    exact hfree ⟨by rw [hd]; exact nofun, htc⟩
  | reported hd hs hst hdone =>
    rw [tick_reported hd hs hst] at hd'
    exact hd' rfl

theorem Ok.servesTc_tick_of_idle (h : Ok b) (hd : b.dispatchState = .idle) (hstart : i.tc.start = true) :
    (b.tick i).ServesTc := by
  cases h.phase with
  | rest _ hs hst _ =>
    rw [tick_rest hd hs hst, if_pos hstart]
    exact ⟨nofun, rfl⟩
  | started hd' => exact DispatchState.noConfusion (hd.symm.trans hd')
  | working hd' => exact DispatchState.noConfusion (hd.symm.trans hd')
  | ended hd' => exact DispatchState.noConfusion (hd.symm.trans hd')
  | reported hd' => exact DispatchState.noConfusion (hd.symm.trans hd')

/-! ### A write for TC -/

/-- The stages of a write that TC has asked for. -/
inductive TcStage where
  | started
  | dispatching
  | waiting
  | writing
  | ended
  | reporting
deriving DecidableEq

/-- The bus is at the given stage of a write of TC to address `q`. -/
structure TcWrite (q : BitVec 32) (b : LiteBus) (g : TcStage) : Prop where
  tc : b.dispatchType = .tc
  type : b.ipicType = singleWr
  addr : b.writeAddr = q
  dispatch : b.dispatchState = if g = .reporting then .reporting else .serving
  start : b.ipicStart = decide (g = .started)
  ack : b.ackTc = decide (g = .started)
  state : b.state = match g with
    | .started => .idle
    | .dispatching => .dispatch
    | .waiting => .singleWrWait
    | .writing => .singleWrWrWait
    | .ended => .singleWrEnd
    | .reporting => .idle
  ipicDone : b.ipicDone = decide (g = .ended)
  done : b.doneTc = decide (g = .reporting)
  mst : g = .waiting ∨ g = .writing → b.mstAddr = q

variable {q : BitVec 32} {g : TcStage}

/-- The bus completes, at this edge, a write of TC to address `q`. -/
def CompletesTc (q : BitVec 32) (i : LiteBusIn) (b : LiteBus) : Prop :=
  b.state = .singleWrWrWait ∧ i.cmplt = true ∧ b.dispatchType = .tc ∧ b.mstAddr = q

instance (q : BitVec 32) (i : LiteBusIn) (b : LiteBus) : Decidable (CompletesTc q i b) :=
  inferInstanceAs (Decidable (_ ∧ _))

def TcStage.next (i : LiteBusIn) : TcStage → TcStage
  | .started => .dispatching
  | .dispatching => .waiting
  | .waiting => if i.cmdack then .writing else .waiting
  | .writing => if i.cmplt then .ended else .writing
  | .ended => .reporting
  | .reporting => .reporting

theorem TcWrite.tick (h : TcWrite q b g) (hg : g ≠ .reporting) : TcWrite q (b.tick i) (g.next i) := by
  have hserving : b.dispatchState = .serving := by
    rw [h.dispatch, if_neg hg]
  have htc := h.tc
  have htype := h.type
  have haddr := h.addr
  have hdone := h.done
  cases g with
  | started =>
    have hstate : b.state = .idle := h.state
    have hstart : b.ipicStart = true := h.start
    rw [tick_serving hserving h.ipicDone]
    simp only [nextIpicState, hstate, hstart, if_true, enter]
    exact ⟨htc, htype, haddr, hserving, rfl, rfl, rfl, h.ipicDone, hdone, by simp [TcStage.next]⟩
  | dispatching =>
    have hstate : b.state = .dispatch := h.state
    have hne : b.ipicType ≠ singleRd := by rw [htype]; decide
    rw [tick_serving hserving h.ipicDone]
    simp only [nextIpicState, hstate, if_neg hne, if_pos htype, enter]
    exact ⟨htc, htype, haddr, hserving, rfl, rfl, rfl, h.ipicDone, hdone, fun _ => haddr⟩
  | waiting =>
    have hstate : b.state = .singleWrWait := h.state
    have hq := h.mst (Or.inl rfl)
    rw [tick_serving hserving h.ipicDone]
    simp only [nextIpicState, hstate, TcStage.next]
    split
    · exact ⟨htc, htype, haddr, hserving, rfl, rfl, rfl, h.ipicDone, hdone, fun _ => hq⟩
    · exact ⟨htc, htype, haddr, hserving, rfl, rfl, rfl, h.ipicDone, hdone, fun _ => haddr⟩
  | writing =>
    have hstate : b.state = .singleWrWrWait := h.state
    have hq := h.mst (Or.inr rfl)
    rw [tick_serving hserving h.ipicDone]
    simp only [nextIpicState, hstate, TcStage.next]
    split
    · exact ⟨htc, htype, haddr, hserving, rfl, rfl, rfl, rfl, hdone, by simp⟩
    · exact ⟨htc, htype, haddr, hserving, rfl, rfl, rfl, h.ipicDone, hdone, fun _ => hq⟩
  | ended =>
    rw [tick_ended hserving h.ipicDone (Or.inr h.state)]
    exact ⟨htc, htype, haddr, rfl, rfl, rfl, rfl, rfl, if_pos htc, by simp [TcStage.next]⟩
  | reporting => exact absurd rfl hg

theorem TcWrite.tick_reporting (h : TcWrite q b .reporting) : (b.tick i).dispatchState = .idle := by
  rw [tick_reported h.dispatch h.start h.state]

theorem TcWrite.completesTc_iff (h : TcWrite q b g) :
    CompletesTc q i b ↔ g = .writing ∧ i.cmplt = true := by
  constructor
  · rintro ⟨hst, hcmplt, -, -⟩
    refine ⟨?_, hcmplt⟩
    rw [h.state] at hst
    cases g <;> first | rfl | exact IpicState.noConfusion hst
  · rintro ⟨rfl, hcmplt⟩
    exact ⟨h.state, hcmplt, h.tc, h.mst (Or.inr rfl)⟩

theorem not_completesTc (h : Ok b) (hfree : ¬ b.ServesTc) : ¬ CompletesTc q i b := by
  rintro ⟨hst, -, htc, -⟩
  refine hfree ⟨?_, htc⟩
  intro hidle
  cases h.phase with
  | rest hd hs hst' hdone =>
    rw [hst] at hst'
    exact IpicState.noConfusion hst'
  | started hd hs hst' hdone =>
    rw [hidle] at hd
    exact DispatchState.noConfusion hd
  | working hd hs hne hrd hwr hdone =>
    rw [hidle] at hd
    exact DispatchState.noConfusion hd
  | ended hd hs hst' hdone =>
    rw [hidle] at hd
    exact DispatchState.noConfusion hd
  | reported hd hs hst' hdone =>
    rw [hidle] at hd
    exact DispatchState.noConfusion hd

theorem Ok.tick_request (h : Ok b) (hfree : ¬ b.ServesTc) (hstart : i.tc.start = true)
    (htype : i.tc.ipicType = singleWr) (haddr : i.tc.writeAddr = q) :
    ¬ (b.tick i).ServesTc ∨ TcWrite q (b.tick i) .started := by
  cases h.phase with
  | rest hd hs hst hdone =>
    right
    have hdoneTc := h.doneTc_of_ne (by rw [hd]; exact nofun)
    rw [tick_rest hd hs hst, if_pos hstart]
    exact ⟨rfl, htype, haddr, rfl, rfl, rfl, rfl, rfl, hdoneTc, by simp⟩
  | started hd hs hst hdone =>
    left
    rintro ⟨-, htc⟩
    rw [tick_serving hd hdone, enter_dispatchType] at htc
    exact hfree ⟨by rw [hd]; exact nofun, htc⟩
  | working hd hs hidle hrd hwr hdone =>
    left
    rintro ⟨-, htc⟩
    rw [tick_serving hd hdone, enter_dispatchType] at htc
    exact hfree ⟨by rw [hd]; exact nofun, htc⟩
  | ended hd hs hst hdone =>
    left
    rintro ⟨-, htc⟩
    rw [tick_ended hd hdone hst] at htc
    exact hfree ⟨by rw [hd]; exact nofun, htc⟩
  | reported hd hs hst hdone =>
    left
    apply not_servesTc_of_idle
    rw [tick_reported hd hs hst]

end LiteBus

end VanetTdma.Fpga
