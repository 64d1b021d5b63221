import VanetTdma.Fpga.BurstPort
import VanetTdma.Fpga.Mo
import VanetTdma.Fpga.PortB

/-!
# The requests of `tdma_control` on the burst bus

Three machines of `tdma_control.v` share one line to the burst bus.  EX reads the buffer address of the next transmit
descriptor, MO writes ping packets, and the FI builder writes the frame information and three words of its descriptor.
Of the builder the slot-table machines know the answers of the bus only; here its request registers are added.

Each machine holds a request until it is acknowledged and then waits for the done line, with two exceptions: in
`FI_SET_BUF_LEN_MID` and `FI_SET_FRAME_LEN_MID` the builder waits for the done line at once, and again after it.

* `TdmaControl.tick` — the machines, the arbiter and the bus;
* `TdmaControl.Inv.tick` — they keep in step;
* `TdmaControl.Inv.ledger` — the account of a machine at one edge, without the two hasty requests.
-/

namespace VanetTdma.Fpga

open SharedBus

/-! ### The machines -/

/-- The machines that share the line, in the order in which the arbiter looks at them. -/
inductive TcClient where
  | ex
  | mo
  | fi
deriving DecidableEq

/-- `exaddr_state`, 0 to 4. -/
inductive ExState where
  | idle
  | popped
  | ready
  | mid
  | wait
deriving DecidableEq

/-- The registers of the EX machine. -/
structure Ex where
  state : ExState := .idle
  initFlag : Bool := true
  currSkbdataAddr : BitVec 32 := 0
  req : BurstReq := {}

/-- The signals the EX machine reads. -/
structure ExIn where
  txfifoRdEn : Bool
  txfifoValid : Bool
  txfifoDread : BitVec 32
  ipicAck : Bool
  ipicDone : Bool
  singleReadData : BitVec 32

def Ex.tick (i : ExIn) (m : Ex) : Ex :=
  match m.state with
  | .idle =>
    if (m.initFlag || i.txfifoRdEn) && i.txfifoValid then { m with state := .popped, initFlag := false } else m
  | .popped => { m with state := .ready }
  | .ready =>
    if i.txfifoRdEn then m
    else
      { m with
        req := { m.req with readAddr := i.txfifoDread + 8, ipicType := singleRd, start := true }
        state := .mid }
  | .mid => if i.ipicAck then { m with req := { m.req with start := false }, state := .wait } else m
  | .wait => if i.ipicDone then { m with currSkbdataAddr := i.singleReadData, state := .idle } else m

/-- The request registers of the MO machine.  It has no data word and reads nothing. -/
def Mo.req (m : Mo) : BurstReq where
  start := m.ipicStart
  ipicType := m.ipicType
  writeAddr := m.writeAddr
  writeLength := m.writeLength

/-- The signals from which the FI builder makes its requests. -/
structure FiReqIn where
  txfifoDread : BitVec 32
  currSkbdataAddr : BitVec 32
  fiPktLenByte : BitVec 11
  ptrChecksum : BitVec 16
  ipicAck : Bool
  ipicDone : Bool

/-- One edge of the request registers of the FI builder.  `write_length_fi` is a register of `Fi`. -/
def Fi.request (i : FiReqIn) (r : BurstReq) (f : Fi) : BurstReq :=
  match f.state with
  | .setPktContentStart =>
    { r with start := true, ipicType := burstWr, writeAddr := i.currSkbdataAddr + payloadOffset }
  | .setBufLenStart =>
    { r with
      start := true, ipicType := singleWr, writeAddr := i.txfifoDread + 12
      writeData := ((payloadOffset + i.fiPktLenByte.setWidth 32 + 4) <<< 16) &&& 0x0fff0000 }
  | .setFrameLenStart =>
    { r with
      start := true, ipicType := singleWr, writeAddr := i.txfifoDread + 44
      writeData := ((payloadOffset + i.fiPktLenByte.setWidth 32 + 4 + 4) &&& 0x00000fff) ||| 0x13f0000 }
  | .calCksStart => { r with start := true, ipicType := calDescCks, readAddr := i.txfifoDread }
  | .setCksStart =>
    { r with
      start := true, ipicType := singleWr, writeAddr := i.txfifoDread + 40
      writeData := i.ptrChecksum.setWidth 32 }
  | .setPktContentMid | .calCksMid | .setCksMid => if i.ipicAck then { r with start := false } else r
  | .setBufLenMid | .setFrameLenMid => if i.ipicDone then { r with start := false } else r
  | _ => r

/-- What comes from outside in one cycle.  The answers of the bus and the buffer address in `mo` are not used. -/
structure TcCycle where
  mo : MoCycle := {}
  txfifoRdEn : Bool := false
  txfifoValid : Bool := false
  txfifoDread : BitVec 32 := 0
  dp : BurstReq := {}
  cmdack : Bool := false
  cmplt : Bool := false
  mstrdSrcRdyN : Bool := true
  mstwrDstRdyN : Bool := true
  mstrdD : BitVec 32 := 0

/-- The machines of `tdma_control`, their arbiter, and the burst bus. -/
structure TdmaControl where
  sender : Sender
  ex : Ex := {}
  fiReq : BurstReq := {}
  arb : Arbiter TcClient BurstReq := { owner := .ex, req := {} }
  burst : BurstBus := {}

namespace TdmaControl

def fi (s : TdmaControl) : Fi := s.sender.sys.fi

def req (s : TdmaControl) : TcClient → BurstReq
  | .ex => s.ex.req
  | .mo => s.sender.mo.req
  | .fi => { s.fiReq with writeLength := s.fi.writeLength }

def pick (s : TdmaControl) : Option TcClient :=
  if (s.req .ex).start then some .ex
  else if (s.req .mo).start then some .mo
  else if (s.req .fi).start then some .fi
  else none

def latch (s : TdmaControl) (k : TcClient) (r : BurstReq) : BurstReq :=
  match k with
  | .ex => { r with ipicType := (s.req .ex).ipicType, readAddr := (s.req .ex).readAddr }
  | k =>
    { r with
      ipicType := (s.req k).ipicType, writeAddr := (s.req k).writeAddr, writeData := (s.req k).writeData
      writeLength := (s.req k).writeLength, readAddr := (s.req k).readAddr }

def exIn (s : TdmaControl) (i : TcCycle) : ExIn where
  txfifoRdEn := i.txfifoRdEn
  txfifoValid := i.txfifoValid
  txfifoDread := i.txfifoDread
  ipicAck := s.arb.ack .ex
  ipicDone := s.burst.doneTc
  singleReadData := s.burst.singleReadData

def moCycle (s : TdmaControl) (i : TcCycle) : MoCycle :=
  { i.mo with
    cycle := { i.mo.cycle with ipicAck := s.arb.ack .fi, ipicDone := s.burst.doneTc }
    currSkbdataAddr := s.ex.currSkbdataAddr
    ipicAckMo := s.arb.ack .mo
    ipicDone := s.burst.doneTc }

def fiReqIn (s : TdmaControl) (i : TcCycle) : FiReqIn where
  txfifoDread := i.txfifoDread
  currSkbdataAddr := s.ex.currSkbdataAddr
  fiPktLenByte := s.sender.sys.fiPktLenByte
  ptrChecksum := s.burst.ptrChecksum
  ipicAck := s.arb.ack .fi
  ipicDone := s.burst.doneTc

def burstIn (s : TdmaControl) (i : TcCycle) : BurstBusIn where
  tc := { s.arb.req with start := s.arb.start }
  dp := i.dp
  cmdack := i.cmdack
  cmplt := i.cmplt
  mstrdSrcRdyN := i.mstrdSrcRdyN
  mstwrDstRdyN := i.mstwrDstRdyN
  mstrdD := i.mstrdD

def tick (g : TdmaSetting) (s : TdmaControl) (i : TcCycle) : TdmaControl where
  sender := s.sender.tick g (s.moCycle i)
  ex := s.ex.tick (s.exIn i)
  fiReq := s.fi.request (s.fiReqIn i) s.fiReq
  arb := s.arb.tick false s.latch s.pick s.burst.ackTc s.burst.doneTc
  burst := s.burst.tick (s.burstIn i)

def reset (len : BitVec 10) : TdmaControl where
  sender := Sender.reset len

end TdmaControl

/-! ### The machines as clients -/

def ExState.stage : ExState → Stage
  | .mid => .calling
  | .wait => .waiting
  | _ => .quiet

def MoState.stage : MoState → Stage
  | .setpktMid => .calling
  | .setpktWait => .waiting
  | _ => .quiet

/-- The stage of the FI builder, apart from the two requests that it does not hold until they are acknowledged. -/
def FiState.stage : FiState → Stage
  | .setPktContentMid | .calCksMid | .setCksMid => .calling
  | .setPktContentWait | .calCksWait | .setCksWait => .waiting
  | _ => .quiet

/-- The builder shows a request and waits for the done line instead of the acknowledgement. -/
def FiState.hastyMid : FiState → Bool
  | .setBufLenMid | .setFrameLenMid => true
  | _ => false

/-- The builder has seen a done pulse and waits for another one. -/
def FiState.hastyWait : FiState → Bool
  | .setBufLenWait | .setFrameLenWait => true
  | _ => false

/-- The types of transaction that `tdma_control` asks for. -/
def TcType (t : BitVec 3) : Prop := t = burstWr ∨ t = singleRd ∨ t = singleWr ∨ t = calDescCks

theorem TcType.ne_burstRd {t : BitVec 3} (h : TcType t) : t ≠ burstRd := by
  rcases h with rfl | rfl | rfl | rfl <;> decide

/-- The request lines of a machine follow its state, and what it asks for is known to the bus. -/
structure BurstReq.Shown (r : BurstReq) (shown : Bool) (types : BitVec 3 → Prop) : Prop where
  start : r.start = shown
  type : shown = true → types r.ipicType

theorem Ex.stage_next (i : ExIn) (m : Ex) :
    m.state.stage.next i.ipicAck i.ipicDone (m.tick i).state.stage = true := by
  unfold tick
  cases hst : m.state with
  | idle | ready | mid | wait => dsimp only; split <;> simp_all [Stage.next, ExState.stage]
  | popped => rfl

theorem Ex.req_tick (i : ExIn) (m : Ex) (h : m.req.Shown m.state.stage.asks (· = singleRd)) :
    (m.tick i).req.Shown (m.tick i).state.stage.asks (· = singleRd)
      ∧ (m.state.stage.asks = true → (m.tick i).state.stage.asks = true → (m.tick i).req = m.req) := by
  unfold tick
  cases hst : m.state <;> rw [hst] at h <;> dsimp only <;> (try split) <;> (try rw [hst]) <;>
    first
    | exact ⟨h, fun _ _ => rfl⟩
    | exact ⟨h, fun hask => nomatch hask⟩
    | exact ⟨⟨rfl, fun _ => rfl⟩, fun hask => nomatch hask⟩
    | exact ⟨⟨rfl, fun hask => nomatch hask⟩, fun _ hask => nomatch hask⟩

theorem Mo.stage_next (i : MoIn) (m : Mo) :
    m.state.stage.next i.ipicAck i.ipicDone (m.tick i).state.stage = true := by
  unfold tick
  cases hst : m.state <;> dsimp only
  case setpktMid | setpktWait => split <;> simp_all [Stage.next, MoState.stage]
  case idle =>
    unfold idle
    dsimp only
    (repeat' split) <;> simp_all [Stage.next, MoState.stage]
  case waitTxen => split <;> simp_all [Stage.next, MoState.stage]
  case processAckping =>
    unfold processAckping
    dsimp only
    split <;> simp_all [Stage.next, MoState.stage]
  all_goals rfl

theorem Mo.req_tick (i : MoIn) (m : Mo) (h : m.req.Shown m.state.stage.asks (· = burstWr)) :
    (m.tick i).req.Shown (m.tick i).state.stage.asks (· = burstWr)
      ∧ (m.state.stage.asks = true → (m.tick i).state.stage.asks = true → (m.tick i).req = m.req) := by
  unfold tick idle processAckping
  cases hst : m.state <;> rw [hst] at h <;> dsimp only <;> (repeat' split) <;> (try rw [hst]) <;>
    first
    | exact ⟨h, fun _ _ => rfl⟩
    | exact ⟨h, fun hask => nomatch hask⟩
    | exact ⟨⟨rfl, fun _ => rfl⟩, fun hask => nomatch hask⟩
    | exact ⟨⟨rfl, fun hask => nomatch hask⟩, fun _ hask => nomatch hask⟩

/-- The next state of the builder where it talks to the bus. -/
def FiState.answered (ack done : Bool) : FiState → Option FiState
  | .setPktContentStart => some .setPktContentMid
  | .setPktContentMid => some (if ack then .setPktContentWait else .setPktContentMid)
  | .setPktContentWait => some (if done then .setBufLenStart else .setPktContentWait)
  | .setBufLenStart => some .setBufLenMid
  | .setBufLenMid => some (if done then .setBufLenWait else .setBufLenMid)
  | .setBufLenWait => some (if done then .setFrameLenStart else .setBufLenWait)
  | .setFrameLenStart => some .setFrameLenMid
  | .setFrameLenMid => some (if done then .setFrameLenWait else .setFrameLenMid)
  | .setFrameLenWait => some (if done then .calCksStart else .setFrameLenWait)
  | .calCksStart => some .calCksMid
  | .calCksMid => some (if ack then .calCksWait else .calCksMid)
  | .calCksWait => some (if done then .setCksStart else .calCksWait)
  | .setCksStart => some .setCksMid
  | .setCksMid => some (if ack then .setCksWait else .setCksMid)
  | .setCksWait => some (if done then .startFcb else .setCksWait)
  | _ => none

def FiState.shown (st : FiState) : Bool := st.stage.asks || st.hastyMid

def FiState.hasty (st : FiState) : Bool := st.hastyMid || st.hastyWait

section Answered

variable {ack done : Bool} {st st' : FiState} {g : TdmaSetting}

theorem Fi.state_of_answered {i : FiIn} {f : Fi} (h : f.state.answered i.ipicAck i.ipicDone = some st') :
    (f.tick g i).state = st' := by
  cases hst : f.state <;> rw [hst] at h <;> cases h <;> simp only [tick, hst]
  all_goals split <;> first | rfl | exact hst

theorem FiState.quiet_of_answered (hnext : st' ∈ st.next) (h : st.answered ack done = none) :
    (st.stage = .quiet ∧ st.hasty = false) ∧ st'.stage = .quiet ∧ st'.hasty = false := by
  cases st <;> cases h
  all_goals
    simp only [next, List.mem_cons, List.not_mem_nil, or_false] at hnext
    refine ⟨⟨rfl, rfl⟩, ?_⟩
    first
    | (subst hnext; exact ⟨rfl, rfl⟩)
    | (rcases hnext with rfl | rfl <;> exact ⟨rfl, rfl⟩)
    | (rcases hnext with rfl | rfl | rfl <;> exact ⟨rfl, rfl⟩)

theorem FiState.stage_answered (h : st.answered ack done = some st') : st.stage.next ack done st'.stage = true := by
  cases st <;> cases ack <;> cases done <;> cases h <;> rfl

theorem FiState.hasty_answered (h : st.answered ack done = some st') :
    (st.hastyMid = true → st'.hastyMid = !done ∧ st'.hastyWait = done)
      ∧ (st.hastyWait = true → st'.hastyWait = !done ∧ st'.hastyMid = false)
      ∧ (st.hasty = false → st'.hastyWait = false) ∧ (st.hasty = true → st'.stage = .quiet) := by
  cases st <;> cases ack <;> cases done <;> cases h <;> decide

end Answered

theorem Fi.req_tick {i : FiIn} {ri : FiReqIn} {r : BurstReq} {f : Fi} (g : TdmaSetting)
    (hack : ri.ipicAck = i.ipicAck) (hdone : ri.ipicDone = i.ipicDone) (h : r.Shown f.state.shown TcType) :
    (f.request ri r).Shown (f.tick g i).state.shown TcType
      ∧ (f.state.stage.asks = true → (f.tick g i).state.stage.asks = true → f.request ri r = r) := by
  cases ha : f.state.answered i.ipicAck i.ipicDone with
  | none =>
    obtain ⟨⟨hstage, hhasty⟩, hstage', hhasty'⟩ := FiState.quiet_of_answered (f.tick_controls g i).state ha
    have hreq : f.request ri r = r := by
      unfold request
      cases hst : f.state <;> rw [hst] at ha <;> cases ha
    have hmid : f.state.hastyMid = false := (Bool.or_eq_false_iff.mp hhasty).1
    have hmid' : (f.tick g i).state.hastyMid = false := (Bool.or_eq_false_iff.mp hhasty').1
    rw [hreq]
    refine ⟨?_, fun _ _ => rfl⟩
    rw [FiState.shown, hstage, hmid] at h
    rw [FiState.shown, hstage', hmid']
    exact h
  | some st' =>
    rw [state_of_answered ha]
    unfold request
    rw [hack, hdone]
    cases hst : f.state <;> rw [hst] at ha h <;> cases ha <;> dsimp only <;> (try split) <;>
      first
      | exact ⟨h, fun _ _ => rfl⟩
      | exact ⟨h, fun hask => (Bool.false_ne_true hask).elim⟩
      | exact ⟨⟨rfl, fun hask => (Bool.false_ne_true hask).elim⟩, fun _ hask => (Bool.false_ne_true hask).elim⟩
      | exact ⟨⟨rfl, fun hask => (Bool.false_ne_true hask).elim⟩, fun hask => (Bool.false_ne_true hask).elim⟩
      | exact ⟨⟨rfl, fun _ => by simp [TcType]⟩, fun hask => (Bool.false_ne_true hask).elim⟩

theorem Fi.writeLength_tick {f : Fi} (g : TdmaSetting) (i : FiIn) (h : f.state.stage.asks = true) :
    (f.tick g i).writeLength = f.writeLength := by
  cases hst : f.state <;> rw [hst] at h <;> first | exact (Bool.false_ne_true h).elim | skip
  all_goals
    simp only [tick, hst]
    split <;> rfl

/-! ### Machines, arbiter and bus together -/

namespace TdmaControl

def stage (s : TdmaControl) : TcClient → Stage
  | .ex => s.ex.state.stage
  | .mo => s.sender.mo.state.stage
  | .fi => s.fi.state.stage

def hasty (s : TdmaControl) : TcClient → Bool
  | .fi => s.fi.state.hasty
  | _ => false

def client (s : TdmaControl) (k : TcClient) : Client BurstJob := (s.stage k).client (s.req k).job

/-- Arbiter and bus; `k` is the machine whose request was taken over last. -/
def bus (s : TdmaControl) (k : TcClient) : Bus TcClient BurstJob where
  hold := s.arb.hold BurstReq.job
  port := s.burst.port .tc k

def found (s : TdmaControl) : Option (TcClient × BurstJob) := s.pick.map fun k => (k, (s.latch k s.arb.req).job)

/-- The machine whose request was taken over last, after an edge. -/
def server (s : TdmaControl) (i : TcCycle) (k : TcClient) : TcClient :=
  if s.burst.takes .tc (s.burstIn i) then s.arb.owner else k

/-- What is carried out for a machine at an edge, without the hasty requests. -/
def done (s : TdmaControl) (i : TcCycle) (k₀ k : TcClient) : List BurstJob :=
  if s.burst.dispatchType = .tc ∧ k₀ = k ∧ s.hasty k = false then (s.burst.completes (s.burstIn i)).toList else []

/-- Machines, arbiter and bus are in step. -/
structure Inv (s : TdmaControl) (k₀ : TcClient) : Prop where
  arb : s.arb.Ok
  arbType : s.arb.start = true → TcType s.arb.req.ipicType
  burst : s.burst.Ported
  link : (s.bus k₀).Ok false
  ex : (s.req .ex).Shown (s.stage .ex).asks (· = singleRd)
  mo : (s.req .mo).Shown (s.stage .mo).asks (· = burstWr)
  fi : s.fiReq.Shown s.fi.state.shown TcType
  clients : ∀ k, s.hasty k = false → (s.client k).At True k (s.bus k₀)
  last : s.fi.state.hastyWait = true → (s.bus k₀).Last .fi

variable {s : TdmaControl} {g : TdmaSetting} {i : TcCycle} {k k₀ : TcClient} {j : BurstJob}

theorem inv_reset (len : BitVec 10) : (reset len).Inv .ex where
  arb := ⟨fun _ => rfl, nofun, fun _ => rfl⟩
  arbType h := nomatch h
  burst := BurstBus.ported_init
  link := .free (fun _ _ => nofun) nofun
  ex := ⟨rfl, nofun⟩
  mo := ⟨rfl, nofun⟩
  fi := ⟨rfl, nofun⟩
  clients k _ := by
    refine .idle ?_ (fun j => ⟨nofun, nofun⟩) (fun j => ⟨nofun, nofun⟩)
    cases k <;> exact nofun
  last h := nomatch h

/-- **Arbiter and bus refine the shared bus.** -/
theorem Inv.bus_tick (h : s.Inv k₀) (g : TdmaSetting) (i : TcCycle) :
    (s.tick g i).bus (s.server i k₀) = (s.bus k₀).tick false s.found (s.burst.advances .tc (s.burstIn i)) := by
  refine congrArg₂ Bus.mk ?_ ?_
  · exact Arbiter.hold_tick h.arb (h.burst.port_ack (w := .tc) nofun).symm (h.burst.port_done (w := .tc) nofun).symm
  · rw [show (s.bus k₀).hold.offer = _ from h.arb.offer]
    exact h.burst.port_tick (w := .tc) nofun fun _ hstart => (h.arbType hstart).ne_burstRd

theorem start_of_pick (h : s.pick = some k) : (s.req k).start = true := by
  unfold pick at h
  repeat' split at h
  all_goals
    cases h
    try assumption

theorem Inv.typeOk (h : s.Inv k₀) (hstart : (s.req k).start = true) : TcType (s.req k).ipicType := by
  cases k with
  | ex => exact Or.inr (Or.inl (h.ex.type (h.ex.start.symm.trans hstart)))
  | mo => exact Or.inl (h.mo.type (h.mo.start.symm.trans hstart))
  | fi => exact h.fi.type (h.fi.start.symm.trans hstart)

theorem Inv.job_latch (h : s.Inv k₀) (hstart : (s.req k).start = true) (r : BurstReq) :
    (s.latch k r).job = (s.req k).job := by
  cases k with
  | ex =>
    have htype : (s.req .ex).ipicType = singleRd := h.ex.type (h.ex.start.symm.trans hstart)
    simp [latch, BurstReq.job, htype, singleRd, burstRd, burstWr, setZero]
  | mo => exact BurstReq.job_of_readLength (r := s.req .mo) (l := r.readLength) (h.typeOk hstart).ne_burstRd
  | fi => exact BurstReq.job_of_readLength (r := s.req .fi) (l := r.readLength) (h.typeOk hstart).ne_burstRd

theorem Inv.shows_of_found (h : s.Inv k₀) (hk : s.hasty k = false) (hfound : s.found = some (k, j)) :
    (s.client k).shows = some j := by
  obtain ⟨k', hpick, heq⟩ := Option.map_eq_some_iff.mp hfound
  cases heq
  have hstart := start_of_pick hpick
  have hask : (s.stage k).asks = true := by
    cases k with
    | ex => exact h.ex.start.symm.trans hstart
    | mo => exact h.mo.start.symm.trans hstart
    | fi =>
      have hshown : s.fi.state.shown = true := h.fi.start.symm.trans hstart
      have hmid : s.fi.state.hastyMid = false := (Bool.or_eq_false_iff.mp hk).1
      rwa [FiState.shown, hmid, Bool.or_false] at hshown
  rw [client, Stage.shows_client, if_pos hask, h.job_latch hstart]

theorem fi_tick (g : TdmaSetting) (s : TdmaControl) (i : TcCycle) :
    ∃ fi : FiIn, fi.ipicAck = s.arb.ack .fi ∧ fi.ipicDone = s.burst.doneTc ∧ (s.tick g i).fi = s.fi.tick g fi :=
  ⟨_, rfl, rfl, rfl⟩

theorem stage_next (g : TdmaSetting) (s : TdmaControl) (i : TcCycle) (k : TcClient) :
    (s.stage k).next (s.arb.ack k) s.burst.doneTc ((s.tick g i).stage k) = true := by
  cases k with
  | ex => exact s.ex.stage_next (s.exIn i)
  | mo => exact s.sender.mo.stage_next (s.sender.moIn g (s.moCycle i))
  | fi =>
    obtain ⟨fi, hack, hdone, htick⟩ := fi_tick g s i
    change s.fi.state.stage.next _ _ (s.tick g i).fi.state.stage = true
    rw [htick, ← hack, ← hdone]
    cases ha : s.fi.state.answered fi.ipicAck fi.ipicDone with
    | none =>
      obtain ⟨⟨hstage, -⟩, hstage', -⟩ := FiState.quiet_of_answered (s.fi.tick_controls g fi).state ha
      rw [hstage, hstage']
      rfl
    | some st' =>
      rw [Fi.state_of_answered ha]
      exact FiState.stage_answered ha

theorem hasty_next (g : TdmaSetting) (s : TdmaControl) (i : TcCycle) :
    (s.fi.state.hastyMid = true →
        (s.tick g i).fi.state.hastyMid = !s.burst.doneTc ∧ (s.tick g i).fi.state.hastyWait = s.burst.doneTc)
      ∧ (s.fi.state.hastyWait = true →
        (s.tick g i).fi.state.hastyWait = !s.burst.doneTc ∧ (s.tick g i).fi.state.hastyMid = false)
      ∧ (s.fi.state.hasty = false → (s.tick g i).fi.state.hastyWait = false)
      ∧ (s.fi.state.hasty = true → (s.tick g i).fi.state.stage = .quiet) := by
  obtain ⟨fi, hack, hdone, htick⟩ := fi_tick g s i
  rw [htick, ← hdone]
  cases ha : s.fi.state.answered fi.ipicAck fi.ipicDone with
  | none =>
    obtain ⟨⟨-, hhasty⟩, hstage', hhasty'⟩ := FiState.quiet_of_answered (s.fi.tick_controls g fi).state ha
    have hparts := Bool.or_eq_false_iff.mp hhasty
    refine ⟨fun hmid => ?_, fun hwait => ?_, fun _ => (Bool.or_eq_false_iff.mp hhasty').2, fun _ => hstage'⟩
    · exact (Bool.false_ne_true (hparts.1.symm.trans hmid)).elim
    · exact (Bool.false_ne_true (hparts.2.symm.trans hwait)).elim
  | some st' =>
    rw [Fi.state_of_answered ha]
    exact FiState.hasty_answered ha

theorem Inv.req_tick (h : s.Inv k₀) (g : TdmaSetting) (i : TcCycle) (hask : (s.stage k).asks = true)
    (hask' : ((s.tick g i).stage k).asks = true) : (s.tick g i).req k = s.req k := by
  cases k with
  | ex => exact (s.ex.req_tick (s.exIn i) h.ex).2 hask hask'
  | mo => exact (s.sender.mo.req_tick (s.sender.moIn g (s.moCycle i)) h.mo).2 hask hask'
  | fi =>
    obtain ⟨fi, hack, hdone, htick⟩ := fi_tick g s i
    change ((s.tick g i).fi.state.stage).asks = true at hask'
    rw [htick] at hask'
    have hreq : (s.tick g i).fiReq = s.fiReq :=
      (@Fi.req_tick fi (s.fiReqIn i) _ _ g hack.symm hdone.symm h.fi).2 hask hask'
    rw [req, hreq, htick, Fi.writeLength_tick g fi hask]
    rfl

/-- **Every machine is a client** where it is not at a hasty request. -/
theorem Inv.follows (h : s.Inv k₀) (g : TdmaSetting) (i : TcCycle) (k : TcClient) :
    (s.client k).Follows ((s.bus k₀).hold.acks k) s.burst.doneTc ((s.tick g i).client k) := by
  rw [show (s.bus k₀).hold.acks k = s.arb.ack k from h.arb.acks k]
  exact Stage.follows (s.stage_next g i k) fun hask hask' => by rw [h.req_tick g i hask hask']

theorem Inv.port_done (h : s.Inv k₀) : (s.bus k₀).port.done = s.burst.doneTc := h.burst.port_done (w := .tc) nofun

theorem Inv.spares_of_done (h : s.Inv k₀) (hdone : s.burst.doneTc = true) : (s.bus k₀).port.Spares k :=
  Port.spares_of_done (h.port_done.trans hdone) k

theorem Inv.found_ne_of_hastyWait (h : s.Inv k₀) (hwait : s.fi.state.hastyWait = true) (j : BurstJob) :
    s.found ≠ some (.fi, j) := by
  intro hfound
  obtain ⟨k', hpick, heq⟩ := Option.map_eq_some_iff.mp hfound
  cases heq
  have hshown : s.fi.state.shown = true := h.fi.start.symm.trans (start_of_pick hpick)
  revert hshown hwait
  cases s.fi.state <;> decide

theorem client_of_hasty (hk : s.hasty k = true) : s.client k = .quiet := by
  cases k with
  | fi =>
    change s.fi.state.hasty = true at hk
    rw [client, stage]
    revert hk
    cases s.fi.state <;> first | exact fun _ => rfl | exact fun h => nomatch h
  | _ => exact nomatch hk

theorem client_tick_of_hasty (hk : s.hasty k = true) : (s.tick g i).client k = .quiet := by
  cases k with
  | fi =>
    have hstage : (s.tick g i).stage .fi = .quiet := (hasty_next g s i).2.2.2 hk
    rw [client, hstage]
    rfl
  | _ => exact nomatch hk

theorem Inv.clients_tick_of_hasty (h : s.Inv k₀) (hk : s.hasty k = true) (hk' : (s.tick g i).hasty k = false) :
    ((s.tick g i).client k).At True k ((s.bus k₀).tick false s.found (s.burst.advances .tc (s.burstIn i))) := by
  cases k with
  | fi =>
    obtain ⟨hmid, hwait, -, -⟩ := hasty_next g s i
    obtain ⟨hmid', hwait'⟩ := Bool.or_eq_false_iff.mp hk'
    have hst : s.fi.state.hastyWait = true := by
      rcases Bool.or_eq_true_iff.mp hk with hm | hw
      · obtain ⟨h₁, h₂⟩ := hmid hm
        rw [h₂] at hwait'
        rw [h₁, hwait'] at hmid'
        exact Bool.noConfusion hmid'
      · exact hw
    have hdone : s.burst.doneTc = true := by
      rw [(hwait hst).1] at hwait'
      simpa using hwait'
    obtain ⟨hhold, hport⟩ := (h.last hst).spares_of_done h.link (h.port_done.trans hdone)
    rw [client_tick_of_hasty hk]
    exact .tick_idle (fun hc => nomatch hc) hhold hport fun j hj => absurd hj (h.found_ne_of_hastyWait hst j)
  | _ => exact nomatch hk

/-- **The joint invariant is kept by every edge.** -/
theorem Inv.tick (h : s.Inv k₀) (g : TdmaSetting) (i : TcCycle) : (s.tick g i).Inv (s.server i k₀) where
  arb := h.arb.tick
  arbType := by
    change (s.arb.tick false s.latch s.pick s.burst.ackTc s.burst.doneTc).start = true →
      TcType (s.arb.tick false s.latch s.pick s.burst.ackTc s.burst.doneTc).req.ipicType
    unfold Arbiter.tick
    split
    · split
      · rename_i k hpick
        intro _
        have htype := h.typeOk (start_of_pick hpick)
        cases k <;> exact htype
      · exact h.arbType
    · split <;> exact h.arbType
    · exact fun hstart => nomatch hstart
  burst := h.burst.tick
  link := by
    rw [h.bus_tick g i]
    exact h.link.tick
  ex := (s.ex.req_tick (s.exIn i) h.ex).1
  mo := (s.sender.mo.req_tick (s.sender.moIn g (s.moCycle i)) h.mo).1
  fi := by
    obtain ⟨fi, hack, hdone, htick⟩ := fi_tick g s i
    rw [htick]
    exact (@Fi.req_tick fi (s.fiReqIn i) _ _ g hack.symm hdone.symm h.fi).1
  clients k hk' := by
    rw [h.bus_tick g i]
    cases hk : s.hasty k with
    | true => exact h.clients_tick_of_hasty hk hk'
    | false =>
      exact (h.clients k hk).tick h.link (h.follows g i k) h.spares_of_done (fun _ => h.port_done.symm)
        fun _ => h.shows_of_found hk
  last hwait' := by
    rw [h.bus_tick g i]
    obtain ⟨hmid, hwait, hquiet, -⟩ := hasty_next g s i
    cases hm : s.fi.state.hastyMid with
    | true => exact Bus.last_of_done (h.port_done.trans ((hmid hm).2.symm.trans hwait'))
    | false =>
      cases hw : s.fi.state.hastyWait with
      | true => exact (h.last hw).tick (h.found_ne_of_hastyWait hw)
      | false =>
        have hnone := hquiet (Bool.or_eq_false_iff.mpr ⟨hm, hw⟩)
        exact (Bool.false_ne_true (hnone.symm.trans hwait')).elim

/-- **The account of a machine at one edge.** -/
theorem Inv.ledger (h : s.Inv k₀) (g : TdmaSetting) (i : TcCycle) (k : TcClient) :
    (s.client k).pending k (s.burst.port .tc k₀) ++ (s.client k).asks ((s.tick g i).client k)
      = s.done i k₀ k ++ ((s.tick g i).client k).pending k ((s.tick g i).burst.port .tc (s.server i k₀)) := by
  have hport : (s.tick g i).burst.port .tc (s.server i k₀)
      = ((s.bus k₀).tick false s.found (s.burst.advances .tc (s.burstIn i))).port := congrArg Bus.port (h.bus_tick g i)
  cases hk : s.hasty k with
  | false =>
    have hdone : s.done i k₀ k = (s.bus k₀).port.executes k (s.burst.advances .tc (s.burstIn i)) := by
      rw [show (s.bus k₀).port = s.burst.port .tc k₀ from rfl, h.burst.executes_port, done, hk]
      simp only [and_true]
    rw [hdone, hport]
    exact (h.clients k hk).ledger h.link (h.follows g i k) h.spares_of_done
  | true =>
    rw [client_of_hasty hk, client_tick_of_hasty hk, done, hk]
    simp only [Bool.true_eq_false, and_false, if_false]
    rfl

end TdmaControl

end VanetTdma.Fpga
