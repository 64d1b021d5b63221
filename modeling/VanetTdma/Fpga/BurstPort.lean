import VanetTdma.Lib.SharedBus
import VanetTdma.Fpga.BurstBus

/-!
# The burst bus as a shared port

The burst bus as the machines of one side, `tdma_control` (TC) or `desc_processor` (DP), see it: a port that takes a
request over, carries it out on the AXI master and reports.  While the other side is served the port is away.

* `BurstBus.completes` — the transaction that the AXI master completes at an edge;
* `BurstBus.Ported.tick` — dispatcher and transaction machine keep in step, and the registers of the AXI master are
  those of the request in hand;
* `BurstBus.port_tick`, `BurstBus.executes_port` — the bus refines the abstract port.
-/

namespace VanetTdma.Fpga

open SharedBus

/-- What a transaction does. -/
inductive BurstJob where
  | burstRd (addr : BitVec 32) (len : BitVec 12)
  | burstWr (addr : BitVec 32) (len : BitVec 12)
  | setZero (addr : BitVec 32) (len : BitVec 12)
  | singleRd (addr : BitVec 32)
  | singleWr (addr data : BitVec 32)
  | calDescCks (addr : BitVec 32)
  | unknown (ipicType : BitVec 3)
deriving DecidableEq

def BurstReq.job (r : BurstReq) : BurstJob :=
  if r.ipicType = burstRd then .burstRd r.readAddr r.readLength
  else if r.ipicType = burstWr then .burstWr r.writeAddr r.writeLength
  else if r.ipicType = setZero then .setZero r.writeAddr r.writeLength
  else if r.ipicType = singleRd then .singleRd r.readAddr
  else if r.ipicType = singleWr then .singleWr r.writeAddr r.writeData
  else if r.ipicType = calDescCks then .calDescCks r.readAddr
  else .unknown r.ipicType

theorem BurstReq.job_of_readLength {r : BurstReq} {l : BitVec 12} (h : r.ipicType ≠ Fpga.burstRd) :
    { r with readLength := l }.job = r.job := by
  simp only [BurstReq.job, if_neg h]

def BurstState.isEnd : BurstState → Bool
  | .burstRdEnd | .calCksRdEnd | .singleRdEnd2 | .burstWrEnd2 | .serzeroEnd2 | .singleWrEnd => true
  | _ => false

def BurstBusIn.of (i : BurstBusIn) : Requester → BurstReq
  | .tc => i.tc
  | .dp => i.dp
  | .none => {}

/-- An idle dispatcher would take a request of this side over. -/
def BurstBusIn.grants (i : BurstBusIn) : Requester → Bool
  | .tc => true
  | .dp => !i.tc.start
  | .none => false

namespace BurstBus

def req (b : BurstBus) : BurstReq where
  ipicType := b.ipicType
  readAddr := b.readAddr
  readLength := b.readLength
  writeAddr := b.writeAddr
  writeData := b.writeData
  writeLength := b.writeLength

/-- In the course of a transaction the AXI master has the address and the data of the request in hand. -/
def Drives (b : BurstBus) : Prop :=
  match b.state with
  | .burstRdWait | .burstRdRcv | .burstRdRcvEnd =>
    b.ipicType = burstRd ∧ b.mstAddr = b.readAddr ∧ b.mstLength = b.readLength
  | .calCksWait | .calCksRdRcv | .calCksRdRcvEnd => b.ipicType = calDescCks ∧ b.mstAddr = b.readAddr
  | .singleRdWait | .singleRdRcv | .singleRdRcv1 | .singleRdEnd => b.ipicType = singleRd ∧ b.mstAddr = b.readAddr
  | .burstWrPreStart | .burstWrPreSetaddr | .burstWrPreWait | .burstWrPreRd2fifo => b.ipicType = burstWr
  | .burstWrStart | .burstWrWait | .burstWr | .burstWrEnd =>
    b.ipicType = burstWr ∧ b.mstAddr = b.writeAddr ∧ b.mstLength = b.writeLength
  | .setzeroWait | .setzeroStart | .setzeroLast | .serzeroEnd =>
    b.ipicType = setZero ∧ b.mstAddr = b.writeAddr ∧ b.mstLength = b.writeLength
  | .singleWrWait | .singleWrWr | .singleWrWr1 =>
    b.ipicType = singleWr ∧ b.mstAddr = b.writeAddr ∧ b.mstwrD = b.writeData
  | _ => True

/-- The transaction on the AXI master that only waits for its completion. -/
def closing (b : BurstBus) : Option BurstJob :=
  match b.state with
  | .burstRdRcvEnd => some (.burstRd b.mstAddr b.mstLength)
  | .calCksRdRcvEnd => some (.calDescCks b.mstAddr)
  | .singleRdEnd => some (.singleRd b.mstAddr)
  | .burstWrEnd => some (.burstWr b.mstAddr b.mstLength)
  | .serzeroEnd => some (.setZero b.mstAddr b.mstLength)
  | .singleWrWr1 => some (.singleWr b.mstAddr b.mstwrD)
  | _ => none

/-- The transaction that the AXI master completes at this edge. -/
def completes (i : BurstBusIn) (b : BurstBus) : Option BurstJob := if i.cmplt then b.closing else none

def ackTo (b : BurstBus) : Requester → Bool
  | .tc => b.ackTc
  | .dp => b.ackDp
  | .none => false

def doneTo (b : BurstBus) : Requester → Bool
  | .tc => b.doneTc
  | .dp => b.doneDp
  | .none => false

/-- A request of side `w` is taken over at this edge. -/
def takes (w : Requester) (i : BurstBusIn) (b : BurstBus) : Bool :=
  b.dispatchState = .idle && i.grants w && (i.of w).start

/-- The bus as side `w` sees it; `k` is the machine whose request was taken over last. -/
def port {κ : Type*} (w : Requester) (k : κ) (b : BurstBus) : Port κ BurstJob :=
  if b.dispatchType = w then
    match b.dispatchState with
    | .idle => .away
    | .serving =>
      if b.ipicStart then .taken k b.req.job else if b.ipicDone then .ended k b.req.job else .busy k b.req.job
    | .reporting => .reporting k b.req.job
  else .away

/-- Whether the port takes a request over or completes it. -/
def advances (w : Requester) (i : BurstBusIn) (b : BurstBus) : Bool :=
  match b.dispatchState with
  | .idle => i.grants w
  | _ => b.dispatchType = w && (b.completes i).isSome

/-- Where dispatcher and transaction machine are, together. -/
inductive Phase (b : BurstBus) : Prop
  | rest (hd : b.dispatchState = .idle) (hs : b.ipicStart = false) (hst : b.state = .idle)
      (hdone : b.ipicDone = false)
  | started (hd : b.dispatchState = .serving) (hs : b.ipicStart = true) (hst : b.state = .idle)
      (hdone : b.ipicDone = false)
  | working (hd : b.dispatchState = .serving) (hs : b.ipicStart = false) (hidle : b.state ≠ .idle)
      (hend : b.state.isEnd = false) (hdone : b.ipicDone = false)
  | ended (hd : b.dispatchState = .serving) (hs : b.ipicStart = false) (hend : b.state.isEnd = true)
      (hdone : b.ipicDone = true)
  | reported (hd : b.dispatchState = .reporting) (hs : b.ipicStart = false) (hst : b.state = .idle)
      (hdone : b.ipicDone = false)

/-- What the two sides rely on. -/
structure Ported (b : BurstBus) : Prop where
  phase : b.Phase
  ack : ∀ w ≠ Requester.none, b.ackTo w = (b.ipicStart && b.dispatchType = w)
  done : ∀ w ≠ Requester.none, b.doneTo w = (b.dispatchState = .reporting && b.dispatchType = w)
  drives : b.Drives

theorem ported_init : Ported {} where
  phase := .rest rfl rfl rfl rfl
  ack w _ := by cases w <;> rfl
  done w _ := by cases w <;> rfl
  drives := trivial

variable {κ : Type*} {w : Requester} {k k' s : κ} {b : BurstBus} {i : BurstBusIn} {j : BurstJob}

/-! ### What an edge leaves alone -/

@[simp] theorem enter_dispatchState (b b' : BurstBus) (st : BurstState) :
    (enter i b b' st).dispatchState = b'.dispatchState := by cases st <;> rfl

@[simp] theorem enter_dispatchType (b b' : BurstBus) (st : BurstState) :
    (enter i b b' st).dispatchType = b'.dispatchType := by cases st <;> rfl

@[simp] theorem enter_ipicStart (b b' : BurstBus) (st : BurstState) :
    (enter i b b' st).ipicStart = b'.ipicStart := by cases st <;> rfl

@[simp] theorem enter_ackTo (b b' : BurstBus) (st : BurstState) :
    (enter i b b' st).ackTo w = b'.ackTo w := by cases w <;> cases st <;> rfl

@[simp] theorem enter_doneTo (b b' : BurstBus) (st : BurstState) :
    (enter i b b' st).doneTo w = b'.doneTo w := by cases w <;> cases st <;> rfl

@[simp] theorem enter_req (b b' : BurstBus) (st : BurstState) : (enter i b b' st).req = b'.req := by
  cases st <;> rfl

@[simp] theorem enter_state (b b' : BurstBus) (st : BurstState) : (enter i b b' st).state = st := by
  cases st <;> rfl

/-- The transaction machine says that it is done on entering a last state, and takes it back on entering idle. -/
theorem enter_ipicDone (b b' : BurstBus) (st : BurstState) (hdone : b'.ipicDone = false) :
    (enter i b b' st).ipicDone = st.isEnd := by
  cases st <;> first | rfl | exact hdone

theorem nextIpicState_of_isEnd (h : b.state.isEnd = true) : b.nextIpicState i = .idle := by
  unfold nextIpicState
  cases hst : b.state <;> rw [hst] at h <;> first | rfl | exact Bool.noConfusion h

theorem nextIpicState_working (hidle : b.state ≠ .idle) (hend : b.state.isEnd = false) :
    b.nextIpicState i ≠ .idle := by
  unfold nextIpicState
  cases hst : b.state with
  | idle => exact absurd hst hidle
  | _ =>
    rw [hst] at hend
    first
    | exact Bool.noConfusion hend
    | dsimp only; repeat' split
      all_goals exact nofun

theorem isEnd_nextIpicState (hidle : b.state ≠ .idle) (hend : b.state.isEnd = false) :
    (b.nextIpicState i).isEnd = (b.completes i).isSome := by
  unfold nextIpicState completes closing
  cases hst : b.state with
  | idle => exact absurd hst hidle
  | _ =>
    rw [hst] at hend
    first
    | exact Bool.noConfusion hend
    | dsimp only; repeat' split
      all_goals rfl

/-! ### The edges of the bus -/

theorem tick_rest (hs : b.ipicStart = false) (hst : b.state = .idle) :
    b.tick i = { b.dispatch i with state := .idle, ipicDone := false } := by
  simp only [tick, nextIpicState, hs, hst, Bool.false_eq_true, if_false, enter]

theorem tick_serving (hd : b.dispatchState = .serving) (hdone : b.ipicDone = false) :
    b.tick i = enter i b { b with ipicStart := false, ackDp := false, ackTc := false } (b.nextIpicState i) := by
  simp only [tick, dispatch, hd, hdone, Bool.false_eq_true, if_false]

theorem tick_ended (hd : b.dispatchState = .serving) (hdone : b.ipicDone = true) (hend : b.state.isEnd = true) :
    b.tick i = { b with
      ipicStart := false, ackDp := false, ackTc := false, dispatchState := .reporting
      doneTc := if b.dispatchType = .tc then true else b.doneTc
      doneDp := if b.dispatchType = .dp then true else b.doneDp
      state := .idle, ipicDone := false } := by
  simp only [tick, dispatch, hd, hdone, if_true, nextIpicState_of_isEnd hend, enter]

theorem tick_reported (hd : b.dispatchState = .reporting) (hs : b.ipicStart = false) (hst : b.state = .idle) :
    b.tick i = { b with
      dispatchState := .idle, doneDp := false, doneTc := false, state := .idle, ipicDone := false } := by
  simp only [tick, dispatch, nextIpicState, hd, hs, hst, Bool.false_eq_true, if_false, enter]

theorem tick_serving_keeps (hd : b.dispatchState = .serving) (hdone : b.ipicDone = false) :
    (b.tick i).dispatchType = b.dispatchType ∧ (b.tick i).dispatchState = .serving
      ∧ (b.tick i).ipicStart = false ∧ (b.tick i).req = b.req ∧ (b.tick i).state = b.nextIpicState i
      ∧ (b.tick i).ipicDone = (b.nextIpicState i).isEnd ∧ (∀ w, (b.tick i).ackTo w = false)
      ∧ ∀ w, (b.tick i).doneTo w = b.doneTo w := by
  rw [tick_serving hd hdone]
  refine ⟨enter_dispatchType _ _ _, ?_, enter_ipicStart _ _ _, enter_req _ _ _, enter_state _ _ _,
    enter_ipicDone _ _ _ hdone, fun w => ?_, fun w => ?_⟩
  · rw [enter_dispatchState]
    exact hd
  · rw [enter_ackTo]
    cases w <;> rfl
  · rw [enter_doneTo]
    cases w <;> rfl

theorem Drives.of_idle (h : b.state = .idle) : b.Drives := by
  simp only [Drives, h]

theorem Drives.tick_serving (h : b.Drives) (hd : b.dispatchState = .serving) (hdone : b.ipicDone = false) :
    (b.tick i).Drives := by
  rw [BurstBus.tick_serving hd hdone]
  unfold Drives at h
  cases hst : b.state with
  | dispatch =>
    simp only [nextIpicState, hst]
    split
    · exact ⟨‹_›, rfl, rfl⟩
    split
    · exact ‹b.ipicType = burstWr›
    split
    · exact ⟨‹_›, rfl, rfl⟩
    split
    · exact ⟨‹_›, rfl⟩
    split
    · exact ⟨‹_›, rfl, rfl⟩
    split
    · exact ⟨‹_›, rfl⟩
    · exact trivial
  | _ =>
    rw [hst] at h
    simp only [nextIpicState, hst]
    first
    | exact trivial
    | exact h
    | exact ⟨h, rfl, rfl⟩
    | split <;> first | exact trivial | exact h | exact ⟨h.1, rfl, rfl⟩ | exact ⟨h.1, rfl⟩ | exact ⟨h, rfl, rfl⟩

theorem Drives.job_of_completes (h : b.Drives) (hj : b.completes i = some j) : j = b.req.job := by
  have hclosing : b.closing = some j := by
    unfold completes at hj
    split at hj
    · exact hj
    · exact nomatch hj
  unfold closing at hclosing
  unfold Drives at h
  split at hclosing
  case h_7 => exact nomatch hclosing
  all_goals
    rename_i hst
    rw [hst] at h
    rw [← Option.some.inj hclosing]
    simp [BurstReq.job, req, h, burstRd, burstWr, setZero, singleRd, singleWr, calDescCks]

/-! ### The refinement -/

theorem completes_of_idle (h : b.state = .idle) : b.completes i = none := by
  simp [completes, closing, h]

theorem completes_of_isEnd (h : b.state.isEnd = true) : b.completes i = none := by
  unfold completes closing
  cases hst : b.state <;> rw [hst] at h <;> first | exact ite_self none | exact Bool.noConfusion h

/-- **What the two sides rely on is kept.** -/
theorem Ported.tick (h : Ported b) : Ported (b.tick i) := by
  cases h.phase with
  | rest hd hs hst hdone =>
    have hack : ∀ w ≠ Requester.none, b.ackTo w = false := by
      intro w hw
      rw [h.ack w hw, hs, Bool.false_and]
    have hdn : ∀ w ≠ Requester.none, b.doneTo w = false := by
      intro w hw
      rw [h.done w hw, hd]
      rfl
    have hackTc : b.ackTc = false := hack .tc nofun
    have hackDp : b.ackDp = false := hack .dp nofun
    have hdnTc : b.doneTc = false := hdn .tc nofun
    have hdnDp : b.doneDp = false := hdn .dp nofun
    rw [tick_rest hs hst, dispatch, hd]
    dsimp only
    split
    · refine ⟨.started rfl rfl rfl rfl, fun w hw => ?_, fun w hw => ?_, .of_idle rfl⟩
      · cases w <;> simp [ackTo, hackDp] at hw ⊢
      · cases w <;> simp [doneTo, hdnDp, hdnTc] at hw ⊢
    split
    · refine ⟨.started rfl rfl rfl rfl, fun w hw => ?_, fun w hw => ?_, .of_idle rfl⟩
      · cases w <;> simp [ackTo, hackTc] at hw ⊢
      · cases w <;> simp [doneTo, hdnDp, hdnTc] at hw ⊢
    · refine ⟨.rest hd hs rfl rfl, fun w hw => ?_, fun w hw => ?_, .of_idle rfl⟩
      · cases w <;> simp [ackTo, hackTc, hackDp, hs] at hw ⊢
      · cases w <;> simp [doneTo, hdnDp, hdnTc, hd] at hw ⊢
  | started hd hs hst hdone =>
    obtain ⟨htype, hd', hs', -, hst', hdone', hack', hdn'⟩ := tick_serving_keeps (i := i) hd hdone
    have hnext : b.nextIpicState i = .dispatch := by simp only [nextIpicState, hst, hs, if_true]
    rw [hnext] at hst' hdone'
    refine ⟨.working hd' hs' (by rw [hst']; nofun) (by rw [hst']; rfl) hdone', fun w hw => ?_, fun w hw => ?_,
      h.drives.tick_serving hd hdone⟩
    · rw [hack', hs', Bool.false_and]
    · rw [hdn', h.done w hw, hd, hd', htype]
  | working hd hs hidle hend hdone =>
    obtain ⟨htype, hd', hs', -, hst', hdone', hack', hdn'⟩ := tick_serving_keeps (i := i) hd hdone
    refine ⟨?_, fun w hw => ?_, fun w hw => ?_, h.drives.tick_serving hd hdone⟩
    · cases hnext : (b.nextIpicState i).isEnd with
      | true => exact .ended hd' hs' (by rw [hst', hnext]) (by rw [hdone', hnext])
      | false =>
        exact .working hd' hs' (by rw [hst']; exact nextIpicState_working hidle hend) (by rw [hst', hnext])
          (by rw [hdone', hnext])
    · rw [hack', hs', Bool.false_and]
    · rw [hdn', h.done w hw, hd, hd', htype]
  | ended hd hs hend hdone =>
    have hdn : ∀ w ≠ Requester.none, b.doneTo w = false := by
      intro w hw
      rw [h.done w hw, hd]
      rfl
    have hdnTc : b.doneTc = false := hdn .tc nofun
    have hdnDp : b.doneDp = false := hdn .dp nofun
    rw [tick_ended hd hdone hend]
    refine ⟨.reported rfl rfl rfl rfl, fun w hw => ?_, fun w hw => ?_, .of_idle rfl⟩
    · cases w <;> simp [ackTo] at hw ⊢
    · cases w with
      | none => exact absurd rfl hw
      | tc => simp only [doneTo, hdnTc]; split <;> simp [*]
      | dp => simp only [doneTo, hdnDp]; split <;> simp [*]
  | reported hd hs hst hdone =>
    have hack : ∀ w ≠ Requester.none, b.ackTo w = false := by
      intro w hw
      rw [h.ack w hw, hs, Bool.false_and]
    have hackTc : b.ackTc = false := hack .tc nofun
    have hackDp : b.ackDp = false := hack .dp nofun
    rw [tick_reported hd hs hst]
    refine ⟨.rest rfl hs rfl rfl, fun w hw => ?_, fun w hw => ?_, .of_idle rfl⟩
    · cases w <;> simp [ackTo, hackTc, hackDp, hs] at hw ⊢
    · cases w <;> simp [doneTo] at hw ⊢

theorem Ported.port_ack (h : Ported b) (hw : w ≠ .none) : (b.port w k).ack = b.ackTo w := by
  rw [h.ack w hw, port]
  cases h.phase with
  | rest hd hs => rw [hd, hs]; split <;> rfl
  | started hd hs => rw [hd, hs]; split <;> simp [Port.ack, *]
  | working hd hs _ _ hdone => rw [hd, hs, hdone]; split <;> rfl
  | ended hd hs _ hdone => rw [hd, hs, hdone]; split <;> rfl
  | reported hd hs => rw [hd, hs]; split <;> rfl

theorem Ported.port_done (h : Ported b) (hw : w ≠ .none) : (b.port w k).done = b.doneTo w := by
  rw [h.done w hw, port]
  cases h.phase with
  | rest hd hs => rw [hd]; split <;> rfl
  | started hd hs => rw [hd, hs]; split <;> rfl
  | working hd hs _ _ hdone => rw [hd, hs, hdone]; split <;> rfl
  | ended hd hs _ hdone => rw [hd, hs, hdone]; split <;> rfl
  | reported hd hs => rw [hd]; split <;> simp [Port.done, *]

theorem server_of_reporting (h : b.port w s = .reporting k j) : s = k := by
  unfold port at h
  repeat' split at h
  all_goals
    cases h
    try rfl

theorem port_of_other (h : b.dispatchType ≠ w) : b.port w k = .away := if_neg h

theorem advances_of_other (hd : b.dispatchState ≠ .idle) (h : b.dispatchType ≠ w) : b.advances w i = false := by
  unfold advances
  split
  · exact absurd ‹_› hd
  · rw [decide_eq_false h, Bool.false_and]

theorem port_tick_of_other {offer : Option (κ × BurstJob)} (hd : b.dispatchState ≠ .idle) (h : b.dispatchType ≠ w)
    (htype : (b.tick i).dispatchType = b.dispatchType) :
    (b.tick i).port w k' = (b.port w k).tick offer (b.advances w i) := by
  rw [advances_of_other hd h, port_of_other h, Port.away_tick_false]
  exact port_of_other (by rw [htype]; exact h)

theorem takes_of_serving (hd : b.dispatchState ≠ .idle) : b.takes w i = false := by
  rw [takes, decide_eq_false hd, Bool.false_and, Bool.false_and]

/-- **The burst bus is a shared port.**  For TC a read length is not passed on. -/
theorem Ported.port_tick (h : Ported b) (hw : w ≠ .none) (htc : w = .tc → i.tc.start = true → i.tc.ipicType ≠ burstRd) :
    (b.tick i).port w (if b.takes w i then k' else k)
      = (b.port w k).tick (if (i.of w).start then some (k', (i.of w).job) else none) (b.advances w i) := by
  cases h.phase with
  | rest hd hs hst hdone =>
    have haway : b.port w k = .away := by
      rw [port, hd]
      split <;> rfl
    rw [haway, tick_rest hs hst, dispatch, hd]
    simp only [takes, advances, hd, decide_true, Bool.true_and]
    by_cases hstart : i.tc.start = true
    · rw [if_pos hstart]
      cases w with
      | none => exact absurd rfl hw
      | tc =>
        have hjob := (BurstReq.job_of_readLength (r := i.tc) (l := b.readLength) (htc rfl hstart)).symm
        simp only [BurstBusIn.grants, BurstBusIn.of, hstart, Bool.true_and, port, if_true, Port.tick, hjob]
        rfl
      | dp =>
        simp only [BurstBusIn.grants, hstart, Bool.not_true, Port.away_tick_false]
        rfl
    · rw [if_neg hstart]
      rw [Bool.not_eq_true] at hstart
      by_cases hdp : i.dp.start = true
      · rw [if_pos hdp]
        cases w with
        | none => exact absurd rfl hw
        | tc =>
          simp only [BurstBusIn.of, hstart]
          rfl
        | dp =>
          simp only [BurstBusIn.grants, BurstBusIn.of, hstart, hdp]
          rfl
      · rw [if_neg hdp]
        rw [Bool.not_eq_true] at hdp
        have hnone : (i.of w).start = false := by cases w <;> first | exact hstart | exact hdp | rfl
        simp [hnone, port, hd, Port.tick]
  | started hd hs hst hdone =>
    have hne : b.dispatchState ≠ .idle := by rw [hd]; decide
    obtain ⟨htype, hd', hs', hreq, -, hdone', -, -⟩ := tick_serving_keeps (i := i) hd hdone
    rw [takes_of_serving hne, if_neg Bool.false_ne_true]
    by_cases hside : b.dispatchType = w
    · have hnext : b.nextIpicState i = .dispatch := by simp only [nextIpicState, hst, hs, if_true]
      have hnew : (b.tick i).ipicDone = false := by rw [hdone', hnext]; rfl
      simp only [port, htype, hd', hs', hreq, hnew, hside, hd, hs, if_true, Bool.false_eq_true, if_false, Port.tick]
    · exact port_tick_of_other hne hside htype
  | working hd hs hidle hend hdone =>
    have hne : b.dispatchState ≠ .idle := by rw [hd]; decide
    obtain ⟨htype, hd', hs', hreq, -, hdone', -, -⟩ := tick_serving_keeps (i := i) hd hdone
    rw [takes_of_serving hne, if_neg Bool.false_ne_true]
    by_cases hside : b.dispatchType = w
    · rw [isEnd_nextIpicState hidle hend] at hdone'
      simp only [port, htype, hd', hs', hreq, hdone', hside, hd, hs, hdone, if_true, Bool.false_eq_true, if_false,
        Port.tick, advances, decide_true, Bool.true_and]
    · exact port_tick_of_other hne hside htype
  | ended hd hs hend hdone =>
    have hne : b.dispatchState ≠ .idle := by rw [hd]; decide
    rw [takes_of_serving hne, if_neg Bool.false_ne_true]
    by_cases hside : b.dispatchType = w
    · simp only [port, tick_ended hd hdone hend, hside, hd, hs, hdone, if_true, Bool.false_eq_true, if_false,
        Port.tick]
      rfl
    · exact port_tick_of_other hne hside (by rw [tick_ended hd hdone hend])
  | reported hd hs hst hdone =>
    have hne : b.dispatchState ≠ .idle := by rw [hd]; decide
    rw [takes_of_serving hne, if_neg Bool.false_ne_true]
    by_cases hside : b.dispatchType = w
    · simp only [port, tick_reported hd hs hst, hside, hd, if_true, Port.tick]
    · exact port_tick_of_other hne hside (by rw [tick_reported hd hs hst])

/-- **What the port carries out for a machine is what the AXI master completes.** -/
theorem Ported.executes_port [DecidableEq κ] (h : Ported b) :
    (b.port w s).executes k (b.advances w i)
      = if b.dispatchType = w ∧ s = k then (b.completes i).toList else [] := by
  by_cases hside : b.dispatchType = w
  · cases h.phase with
    | rest hd hs hst hdone =>
      rw [completes_of_idle hst, port, if_pos hside, hd]
      exact (ite_self _).symm
    | started hd hs hst hdone =>
      rw [completes_of_idle hst, port, if_pos hside, hd, hs]
      exact (ite_self _).symm
    | working hd hs hidle hend hdone =>
      simp only [port, hside, hd, hs, hdone, advances, if_true, Bool.false_eq_true, if_false, Port.executes, true_and,
        decide_true, Bool.true_and]
      cases hj : b.completes i with
      | none => simp
      | some j => simp [h.drives.job_of_completes hj]
    | ended hd hs hend hdone =>
      rw [completes_of_isEnd hend, port, if_pos hside, hd, hs, hdone]
      exact (ite_self _).symm
    | reported hd hs hst hdone =>
      rw [completes_of_idle hst, port, if_pos hside, hd]
      exact (ite_self _).symm
  · rw [port_of_other hside, if_neg fun h' => hside h'.1]
    rfl

end BurstBus

end VanetTdma.Fpga
