import VanetTdma.Lib.GuardedRun
import VanetTdma.Fpga.LiteBus

/-!
# Sending control packets (`tdma_control.v`, `pktsend_status`)

Each rising edge of `sendpkt` asks for one packet.  The edges are counted in `sendpkt_counter`; the
`pktsend` machine compares this with its own `current_sendpkt_counter`, takes a descriptor from the
transmit FIFO, writes it to `AR_Q6_TXDP` over the lite bus and pushes it back.  Both counters have five
bits, and the machine advances its own in every cycle of status 2, the cycles in which it waits for the
FIFO and the IRQ machine included.

`SendState` is the machine on its bus, with counters of what has happened: edges, descriptors popped,
writes completed, and the cycles waited in the present stay in status 2.

* `run_sent` — when every descriptor is taken after a waiting time that is a multiple of 32 (no waiting at
  all, for one), at rest as many have been popped and written as there were edges.
-/

namespace VanetTdma.Fpga

open VanetTdma.GuardedRun

/-- `pktsend_status`: the values 0, 2, 3, 4 and 5. -/
inductive PktsendStatus where
  | st0
  | st2
  | st3
  | st4
  | st5
deriving DecidableEq

/-- The registers of the `pktsend` machine. -/
structure PktSend where
  status : PktsendStatus := .st0
  currentSendpktCounter : BitVec 5 := 0
  txfifoRdEn : Bool := false
  txfifoWrStart : Bool := false
  txfifoWrData : BitVec 32 := 0
  lite : LiteReq := {}
deriving DecidableEq

/-- `ATH9K_BASE_ADDR + AR_Q6_TXDP`. -/
def q6Txdp : BitVec 32 := 0x60000000 + 0x0818

/-- The signals the machine reads besides the bus. -/
structure PktSendIn where
  sendpktCounter : BitVec 5
  txfifoValid : Bool
  txfifoDread : BitVec 32
  descIrqState : BitVec 6

/-- A descriptor is there and the IRQ machine is idle. -/
def PktSendIn.Ready (i : PktSendIn) : Prop := i.txfifoValid = true ∧ i.descIrqState = 0

instance (i : PktSendIn) : Decidable i.Ready := inferInstanceAs (Decidable (_ ∧ _))

/-- One edge of the `pktsend` machine. -/
def PktSend.tick (i : PktSendIn) (b : LiteBus) (u : PktSend) : PktSend :=
  match u.status with
  | .st0 =>
    if i.sendpktCounter ≠ u.currentSendpktCounter then { u with status := .st2 } else u
  | .st2 =>
    let u := { u with currentSendpktCounter := u.currentSendpktCounter + 1 }
    if i.Ready then
      { u with
        txfifoRdEn := true, txfifoWrData := i.txfifoDread
        lite := { u.lite with
          writeAddr := q6Txdp, writeData := i.txfifoDread, ipicType := singleWr }
        status := .st3 }
    else u
  | .st3 =>
    let u := { u with txfifoRdEn := false }
    if b.state = .idle then
      { u with txfifoWrStart := true, lite := { u.lite with start := true }, status := .st4 }
    else u
  | .st4 => if b.ackTc then { u with status := .st5 } else u
  | .st5 =>
    let u := { u with txfifoWrStart := false, lite := { u.lite with start := false } }
    if b.doneTc then { u with status := .st0 } else u

namespace PktSend

section Step

variable {i : PktSendIn} {b : LiteBus} {u : PktSend}

theorem tick_st0_of_ne (hst : u.status = .st0) (h : i.sendpktCounter ≠ u.currentSendpktCounter) :
    u.tick i b = { u with status := .st2 } := by
  simp only [tick, hst]
  exact if_pos h

theorem tick_st0_of_eq (hst : u.status = .st0) (h : ¬ i.sendpktCounter ≠ u.currentSendpktCounter) :
    u.tick i b = u := by
  simp only [tick, hst]
  exact if_neg h

theorem tick_st2_of_ready (hst : u.status = .st2) (h : i.Ready) :
    u.tick i b = { u with
      currentSendpktCounter := u.currentSendpktCounter + 1
      txfifoRdEn := true, txfifoWrData := i.txfifoDread
      lite := { u.lite with writeAddr := q6Txdp, writeData := i.txfifoDread, ipicType := singleWr }
      status := .st3 } := by
  simp only [tick, hst, if_pos h]

theorem tick_st2_of_not_ready (hst : u.status = .st2) (h : ¬ i.Ready) :
    u.tick i b = { u with currentSendpktCounter := u.currentSendpktCounter + 1 } := by
  simp only [tick, hst, if_neg h]

theorem tick_st3_of_idle (hst : u.status = .st3) (h : b.state = .idle) :
    u.tick i b = { u with
      txfifoRdEn := false, txfifoWrStart := true, lite := { u.lite with start := true }, status := .st4 } := by
  simp only [tick, hst, if_pos h]

theorem tick_st3_of_busy (hst : u.status = .st3) (h : b.state ≠ .idle) :
    u.tick i b = { u with txfifoRdEn := false } := by
  simp only [tick, hst, if_neg h]

theorem tick_st4_of_ack (hst : u.status = .st4) (h : b.ackTc = true) :
    u.tick i b = { u with status := .st5 } := by
  simp only [tick, hst, h, if_true]

theorem tick_st4_of_not_ack (hst : u.status = .st4) (h : b.ackTc = false) : u.tick i b = u := by
  simp only [tick, hst, h, Bool.false_eq_true, if_false]

theorem tick_st5_of_done (hst : u.status = .st5) (h : b.doneTc = true) :
    u.tick i b = { u with
      txfifoWrStart := false, lite := { u.lite with start := false }, status := .st0 } := by
  simp only [tick, hst, h, if_true]

theorem tick_st5_of_not_done (hst : u.status = .st5) (h : b.doneTc = false) :
    u.tick i b = { u with txfifoWrStart := false, lite := { u.lite with start := false } } := by
  simp only [tick, hst, h, Bool.false_eq_true, if_false]

end Step

end PktSend

/-! ### The machine on its bus -/

/-- The machine, the edge counter, the bus, and what has happened so far. -/
structure SendState where
  pkt : PktSend := {}
  sendpkt : Bool := false
  sendpktCounter : BitVec 5 := 0
  bus : LiteBus := {}
  edges : ℕ := 0
  popped : ℕ := 0
  written : ℕ := 0
  waited : ℕ := 0
deriving DecidableEq

/-- The inputs of one cycle: the level of `sendpkt` after the edge, the FIFO, the IRQ machine, the requests
of DP and the answers of the AXI master. -/
structure SendIn where
  sendpkt : Bool := false
  txfifoValid : Bool := true
  txfifoDread : BitVec 32 := 0
  descIrqState : BitVec 6 := 0
  dp : LiteReq := {}
  cmdack : Bool := true
  cmplt : Bool := true

namespace SendState

variable {s : SendState} {i : SendIn}

def pktIn (s : SendState) (i : SendIn) : PktSendIn where
  sendpktCounter := s.sendpktCounter
  txfifoValid := i.txfifoValid
  txfifoDread := i.txfifoDread
  descIrqState := i.descIrqState

def busIn (s : SendState) (i : SendIn) : LiteBusIn where
  tc := s.pkt.lite
  dp := i.dp
  cmdack := i.cmdack
  cmplt := i.cmplt

/-- `sendpkt` rises at this edge. -/
def Rises (s : SendState) (i : SendIn) : Prop := s.sendpkt = false ∧ i.sendpkt = true

instance (s : SendState) (i : SendIn) : Decidable (s.Rises i) := inferInstanceAs (Decidable (_ ∧ _))

/-- One clock edge.  A descriptor leaves the FIFO at an edge at which `txfifo_rd_en` is high: the FIFO has
no other reader, so the word that was valid when the enable was raised is still there. -/
def tick (s : SendState) (i : SendIn) : SendState where
  pkt := s.pkt.tick (s.pktIn i) s.bus
  sendpkt := i.sendpkt
  sendpktCounter := if s.Rises i then s.sendpktCounter + 1 else s.sendpktCounter
  bus := s.bus.tick (s.busIn i)
  edges := if s.Rises i then s.edges + 1 else s.edges
  popped := if s.pkt.txfifoRdEn then s.popped + 1 else s.popped
  written := if LiteBus.CompletesTc q6Txdp (s.busIn i) s.bus then s.written + 1 else s.written
  waited := if s.pkt.status = .st2 ∧ ¬ (s.pktIn i).Ready then s.waited + 1 else 0

def step (s : SendState) (i : SendIn) : Option SendState := some (s.tick i)

/-- An edge leaves fewer than 32 requests outstanding. -/
def FewOutstanding (s : SendState) (i : SendIn) : Prop := s.Rises i → s.edges + 1 < s.popped + 32

/-- A descriptor is taken only after a waiting time in status 2 that is a multiple of 32. -/
def TakenInStep (s : SendState) (i : SendIn) : Prop :=
  s.pkt.status = .st2 → (s.pktIn i).Ready → 32 ∣ s.waited

instance (s : SendState) (i : SendIn) : Decidable (s.FewOutstanding i) :=
  inferInstanceAs (Decidable (_ → _))

instance (s : SendState) (i : SendIn) : Decidable (s.TakenInStep i) :=
  inferInstanceAs (Decidable (_ → _ → _))

/-- The machine is in status 0 and stays there until the next edge. -/
def AtRest (s : SendState) : Prop :=
  s.pkt.status = .st0 ∧ s.sendpktCounter = s.pkt.currentSendpktCounter

instance (s : SendState) : Decidable s.AtRest := inferInstanceAs (Decidable (_ ∧ _))

/-! ### The invariant -/

/-- The descriptors popped, the one whose pop is under way included. -/
def taken (s : SendState) : ℕ := if s.pkt.txfifoRdEn then s.popped + 1 else s.popped

/-- What each status says about the bus and the counts. -/
def StatusOk (s : SendState) : Prop :=
  match s.pkt.status with
  | .st0 =>
    s.pkt.txfifoRdEn = false ∧ s.pkt.lite.start = false ∧ ¬ s.bus.ServesTc ∧ s.written = s.popped
      ∧ s.pkt.currentSendpktCounter = BitVec.ofNat 5 s.popped ∧ s.popped ≤ s.edges ∧ s.waited = 0
  | .st2 =>
    s.pkt.txfifoRdEn = false ∧ s.pkt.lite.start = false ∧ ¬ s.bus.ServesTc ∧ s.written = s.popped
      ∧ s.pkt.currentSendpktCounter = BitVec.ofNat 5 (s.popped + s.waited) ∧ s.popped < s.edges
  | .st3 =>
    s.pkt.lite.start = false ∧ ¬ s.bus.ServesTc ∧ s.written + 1 = s.taken
      ∧ s.pkt.currentSendpktCounter = BitVec.ofNat 5 s.taken ∧ s.taken ≤ s.edges
      ∧ s.pkt.lite.ipicType = singleWr ∧ s.pkt.lite.writeAddr = q6Txdp ∧ s.waited = 0
  | .st4 =>
    s.pkt.txfifoRdEn = false ∧ s.pkt.lite.start = true
      ∧ (¬ s.bus.ServesTc ∨ LiteBus.TcWrite q6Txdp s.bus .started) ∧ s.written + 1 = s.popped
      ∧ s.pkt.currentSendpktCounter = BitVec.ofNat 5 s.popped ∧ s.popped ≤ s.edges
      ∧ s.pkt.lite.ipicType = singleWr ∧ s.pkt.lite.writeAddr = q6Txdp ∧ s.waited = 0
  | .st5 =>
    s.pkt.txfifoRdEn = false
      ∧ (∃ g, LiteBus.TcWrite q6Txdp s.bus g ∧ g ≠ .started
          ∧ (s.pkt.lite.start = true → g = .dispatching)
          ∧ if g = .ended ∨ g = .reporting then s.written = s.popped else s.written + 1 = s.popped)
      ∧ s.pkt.currentSendpktCounter = BitVec.ofNat 5 s.popped ∧ s.popped ≤ s.edges ∧ s.waited = 0

/-- The invariant of the runs that take their descriptors in step. -/
structure Inv (s : SendState) : Prop where
  bus : s.bus.Ok
  counter : s.sendpktCounter = BitVec.ofNat 5 s.edges
  few : s.edges < s.popped + 32
  status : s.StatusOk

theorem inv_init : Inv {} where
  bus := LiteBus.ok_init
  counter := rfl
  few := by decide
  status := ⟨rfl, rfl, fun h => h.1 rfl, rfl, rfl, Nat.le_refl 0, rfl⟩

theorem ofNat_succ (n : ℕ) : BitVec.ofNat 5 n + 1 = BitVec.ofNat 5 (n + 1) := by
  rw [BitVec.ofNat_add]
  rfl

theorem eq_of_ofNat_eq {m n : ℕ} (hle : m ≤ n) (hlt : n < m + 32)
    (h : BitVec.ofNat 5 n = BitVec.ofNat 5 m) : n = m := by
  have hmod := congrArg BitVec.toNat h
  simp only [BitVec.toNat_ofNat] at hmod
  omega

theorem edges_le_tick (s : SendState) (i : SendIn) : s.edges ≤ (s.tick i).edges := by
  unfold tick
  dsimp only
  split <;> omega

theorem Inv.counter_tick (h : Inv s) :
    (s.tick i).sendpktCounter = BitVec.ofNat 5 (s.tick i).edges := by
  unfold tick
  dsimp only
  split
  · rw [h.counter, ofNat_succ]
  · exact h.counter

theorem Inv.few_tick (h : Inv s) (hfew : s.FewOutstanding i) :
    (s.tick i).edges < (s.tick i).popped + 32 := by
  have hold := h.few
  have hpop : s.popped ≤ (s.tick i).popped := by
    unfold tick
    dsimp only
    split <;> omega
  have hedge : (s.tick i).edges < s.popped + 32 := by
    unfold tick
    dsimp only
    split
    · rename_i hrise
      exact hfew hrise
    · exact hold
  omega

theorem tick_written_of_not (h : ¬ LiteBus.CompletesTc q6Txdp (s.busIn i) s.bus) :
    (s.tick i).written = s.written := if_neg h

theorem tick_popped_of_not (h : s.pkt.txfifoRdEn = false) : (s.tick i).popped = s.popped := by
  simp only [tick, h, Bool.false_eq_true, if_false]

theorem tick_waited_of_ne {st : PktsendStatus} (hst : s.pkt.status = st) (hne : st ≠ .st2) : (s.tick i).waited = 0 :=
  if_neg fun hw => hne (hst.symm.trans hw.1)

theorem Inv.written_tick (h : Inv s) (hfree : ¬ s.bus.ServesTc) : (s.tick i).written = s.written :=
  tick_written_of_not (LiteBus.not_completesTc h.bus hfree)

theorem written_tick_of_write {g : LiteBus.TcStage} (h : LiteBus.TcWrite q6Txdp s.bus g) (hg : g ≠ .started)
    (hreport : g ≠ .reporting)
    (hwr : if g = .ended ∨ g = .reporting then s.written = s.popped else s.written + 1 = s.popped) :
    if g.next (s.busIn i) = .ended ∨ g.next (s.busIn i) = .reporting
      then (s.tick i).written = s.popped else (s.tick i).written + 1 = s.popped := by
  have hiff := h.completesTc_iff (i := s.busIn i)
  by_cases hcompl : LiteBus.CompletesTc q6Txdp (s.busIn i) s.bus
  · obtain ⟨rfl, hcmplt⟩ := hiff.mp hcompl
    have hwritten : (s.tick i).written = s.written + 1 := if_pos hcompl
    have hwr' : s.written + 1 = s.popped := hwr
    simp only [LiteBus.TcStage.next, hcmplt, if_true, true_or, hwritten]
    exact hwr'
  · rw [tick_written_of_not hcompl]
    rw [hiff] at hcompl
    cases g with
    | started => exact absurd rfl hg
    | reporting => exact absurd rfl hreport
    | writing =>
      have hcmplt : ¬ (s.busIn i).cmplt = true := fun hc => hcompl ⟨rfl, hc⟩
      simp only [LiteBus.TcStage.next, if_neg hcmplt]
      exact hwr
    | waiting =>
      simp only [LiteBus.TcStage.next]
      split <;> exact hwr
    | dispatching => exact hwr
    | ended => exact hwr

/-! ### One edge in each status -/

theorem statusOk_st0 (h : Inv s) (hst : s.pkt.status = .st0) : (s.tick i).StatusOk := by
  have hok := h.status
  simp only [StatusOk, hst] at hok
  obtain ⟨hrd, hstart, hfree, hwr, hcur, hle, -⟩ := hok
  have hbus := h.bus.not_servesTc_tick (i := s.busIn i) hfree hstart
  have hwritten := h.written_tick (i := i) hfree
  have hpopped := tick_popped_of_not (i := i) hrd
  have hwaited := tick_waited_of_ne (i := i) hst nofun
  have hedges := edges_le_tick s i
  by_cases hne : s.sendpktCounter ≠ s.pkt.currentSendpktCounter
  · have hpkt : (s.tick i).pkt = { s.pkt with status := .st2 } := PktSend.tick_st0_of_ne hst hne
    have hlt : s.popped ≠ s.edges := by
      intro heq
      apply hne
      rw [h.counter, hcur, heq]
    simp only [StatusOk, hpkt, hwritten, hpopped, hwaited, Nat.add_zero]
    exact ⟨hrd, hstart, hbus, hwr, hcur, by omega⟩
  · have hpkt : (s.tick i).pkt = s.pkt := PktSend.tick_st0_of_eq hst hne
    simp only [StatusOk, hpkt, hst, hwritten, hpopped, hwaited]
    exact ⟨hrd, hstart, hbus, hwr, hcur, by omega, trivial⟩

/-- Status 2: the machine waits, advancing its counter, or takes a descriptor. -/
theorem statusOk_st2 (h : Inv s) (hst : s.pkt.status = .st2) (hstep : s.TakenInStep i) :
    (s.tick i).StatusOk := by
  have hok := h.status
  simp only [StatusOk, hst] at hok
  obtain ⟨hrd, hstart, hfree, hwr, hcur, hlt⟩ := hok
  have hbus := h.bus.not_servesTc_tick (i := s.busIn i) hfree hstart
  have hwritten := h.written_tick (i := i) hfree
  have hpopped := tick_popped_of_not (i := i) hrd
  have hedges := edges_le_tick s i
  by_cases hready : (s.pktIn i).Ready
  · obtain ⟨k, hk⟩ := hstep hst hready
    have hpkt : (s.tick i).pkt = _ := PktSend.tick_st2_of_ready hst hready
    have hwaited : (s.tick i).waited = 0 := if_neg fun hw => hw.2 hready
    -- a multiple of 32 waiting cycles leaves no trace in the five bits
    have hcur' : s.pkt.currentSendpktCounter + 1 = BitVec.ofNat 5 (s.popped + 1) := by
      rw [hcur, ofNat_succ, hk]
      apply BitVec.eq_of_toNat_eq
      simp only [BitVec.toNat_ofNat]
      omega
    simp only [StatusOk, taken, hpkt, hwritten, hpopped, hwaited, if_true]
    exact ⟨hstart, hbus, by omega, hcur', by omega, trivial, trivial, trivial⟩
  · have hpkt : (s.tick i).pkt = _ := PktSend.tick_st2_of_not_ready hst hready
    have hwaited : (s.tick i).waited = s.waited + 1 := if_pos ⟨hst, hready⟩
    simp only [StatusOk, hpkt, hst, hwritten, hpopped, hwaited]
    exact ⟨hrd, hstart, hbus, hwr, by rw [hcur, ofNat_succ, Nat.add_assoc], by omega⟩

/-- Status 3: the pop is completed, and the write is asked for once the bus is idle. -/
theorem statusOk_st3 (h : Inv s) (hst : s.pkt.status = .st3) : (s.tick i).StatusOk := by
  have hok := h.status
  simp only [StatusOk, hst] at hok
  obtain ⟨hstart, hfree, hwr, hcur, hle, htype, haddr, -⟩ := hok
  have hbus := h.bus.not_servesTc_tick (i := s.busIn i) hfree hstart
  have hwritten := h.written_tick (i := i) hfree
  have hpopped : (s.tick i).popped = s.taken := rfl
  have hwaited := tick_waited_of_ne (i := i) hst nofun
  have hedges := edges_le_tick s i
  by_cases hidle : s.bus.state = .idle
  · have hpkt : (s.tick i).pkt = _ := PktSend.tick_st3_of_idle hst hidle
    simp only [StatusOk, hpkt, hwritten, hpopped, hwaited]
    exact ⟨trivial, trivial, Or.inl hbus, hwr, hcur, by omega, htype, haddr, trivial⟩
  · have hpkt : (s.tick i).pkt = _ := PktSend.tick_st3_of_busy hst hidle
    have htaken : (s.tick i).taken = s.taken := by
      simp only [taken, hpkt, hpopped, Bool.false_eq_true, if_false]
    simp only [StatusOk, hpkt, hst, hwritten, htaken, hwaited]
    exact ⟨hstart, hbus, hwr, hcur, by omega, htype, haddr, trivial⟩

/-- Status 4: the request stands until it is acknowledged, which is the cycle after it was taken. -/
theorem statusOk_st4 (h : Inv s) (hst : s.pkt.status = .st4) : (s.tick i).StatusOk := by
  have hok := h.status
  simp only [StatusOk, hst] at hok
  obtain ⟨hrd, hstart, hreq, hwr, hcur, hle, htype, haddr, -⟩ := hok
  have hpopped := tick_popped_of_not (i := i) hrd
  have hwaited := tick_waited_of_ne (i := i) hst nofun
  have hedges := edges_le_tick s i
  rcases hreq with hfree | hwrite
  · have hack : s.bus.ackTc = false := by
      by_contra hack
      rw [Bool.not_eq_false] at hack
      exact hfree (h.bus.ack hack).1
    have hpkt : (s.tick i).pkt = s.pkt := PktSend.tick_st4_of_not_ack hst hack
    have hwritten := h.written_tick (i := i) hfree
    have hbus := h.bus.tick_request (i := s.busIn i) hfree hstart htype haddr
    simp only [StatusOk, hpkt, hst, hwritten, hpopped, hwaited]
    exact ⟨hrd, hstart, hbus, hwr, hcur, by omega, htype, haddr, trivial⟩
  · have hpkt : (s.tick i).pkt = { s.pkt with status := .st5 } := PktSend.tick_st4_of_ack hst hwrite.ack
    have hwritten : (s.tick i).written = s.written := by
      apply tick_written_of_not
      rw [hwrite.completesTc_iff]
      rintro ⟨hg, -⟩
      exact LiteBus.TcStage.noConfusion hg
    have hnext := hwrite.tick (i := s.busIn i) nofun
    simp only [StatusOk, hpkt, hwritten, hpopped, hwaited]
    exact ⟨hrd, ⟨.dispatching, hnext, nofun, fun _ => rfl, hwr⟩, hcur,
      by omega, trivial⟩

/-- Status 5: the write goes through its stages and is counted when it is completed. -/
theorem statusOk_st5 (h : Inv s) (hst : s.pkt.status = .st5) : (s.tick i).StatusOk := by
  have hok := h.status
  simp only [StatusOk, hst] at hok
  obtain ⟨hrd, ⟨g, hwrite, hg, hearly, hwr⟩, hcur, hle, -⟩ := hok
  have hpopped := tick_popped_of_not (i := i) hrd
  have hwaited := tick_waited_of_ne (i := i) hst PktsendStatus.noConfusion
  have hedges := edges_le_tick s i
  by_cases hreport : g = .reporting
  · subst hreport
    have hpkt : (s.tick i).pkt = _ := PktSend.tick_st5_of_done hst hwrite.done
    have hwritten : (s.tick i).written = s.written := by
      apply tick_written_of_not
      rw [hwrite.completesTc_iff]
      rintro ⟨hg', -⟩
      exact LiteBus.TcStage.noConfusion hg'
    have hbus : ¬ (s.tick i).bus.ServesTc := LiteBus.not_servesTc_of_idle hwrite.tick_reporting
    simp only [StatusOk, hpkt, hwritten, hpopped, hwaited]
    exact ⟨hrd, trivial, hbus, hwr, hcur, by omega, trivial⟩
  · have hdone : s.bus.doneTc = false := by
      rw [hwrite.done]
      exact decide_eq_false hreport
    have hpkt : (s.tick i).pkt = _ := PktSend.tick_st5_of_not_done hst hdone
    have hnext := hwrite.tick (i := s.busIn i) hreport
    have hne : g.next (s.busIn i) ≠ .started := by
      cases g <;> simp only [LiteBus.TcStage.next] <;> (try split) <;>
        exact LiteBus.TcStage.noConfusion
    have hcount := written_tick_of_write (i := i) hwrite hg hreport hwr
    simp only [StatusOk, hpkt, hst, hpopped, hwaited]
    exact ⟨hrd, ⟨_, hnext, hne, fun hs => Bool.noConfusion hs, hcount⟩, hcur, by omega, trivial⟩

/-- **One edge keeps the invariant.** -/
theorem Inv.tick (h : Inv s) (hfew : s.FewOutstanding i) (hstep : s.TakenInStep i) :
    Inv (s.tick i) where
  bus := h.bus.tick
  counter := h.counter_tick
  few := h.few_tick hfew
  status := by
    cases hst : s.pkt.status with
    | st0 => exact statusOk_st0 h hst
    | st2 => exact statusOk_st2 h hst hstep
    | st3 => exact statusOk_st3 h hst
    | st4 => exact statusOk_st4 h hst
    | st5 => exact statusOk_st5 h hst

/-! ### Runs -/

/-- **Control packets are sent exactly once** in every run that takes its descriptors in step: at rest,
as many descriptors have been popped, and as many written to `AR_Q6_TXDP`, as `sendpkt` had edges. -/
theorem run_sent {s : SendState}
    (h : Reach step (fun s i => s.FewOutstanding i ∧ s.TakenInStep i) {} s) (hrest : s.AtRest) :
    s.popped = s.edges ∧ s.written = s.edges := by
  have hinv : Inv s := by
    refine h.invariant inv_init ?_
    rintro s i t hs ⟨hfew, hstep⟩ ht
    cases ht
    exact hs.tick hfew hstep
  obtain ⟨hst, hcounter⟩ := hrest
  have hok := hinv.status
  simp only [StatusOk, hst] at hok
  obtain ⟨-, -, -, hwr, hcur, hle, -⟩ := hok
  rw [hinv.counter, hcur] at hcounter
  have heq := eq_of_ofNat_eq hle hinv.few hcounter
  exact ⟨heq.symm, hwr.trans heq.symm⟩

/-- One edge, and a FIFO and a bus that are always ready: nothing is waited for. -/
theorem run_sent_once :
    ∃ s, Reach step (fun s i => s.FewOutstanding i ∧ s.TakenInStep i) {} s ∧ s.AtRest ∧ s.edges = 1
      ∧ s.popped = s.edges ∧ s.written = s.edges := by
  have hobs : (runList step (fun s i => decide (s.FewOutstanding i ∧ s.TakenInStep i)) {}
      ({ sendpkt := true } :: List.replicate 10 ({} : SendIn))).map
      (fun s => (s.edges, decide s.AtRest))
      = some (1, true) := by decide +kernel
  obtain ⟨s, hs, hend⟩ := Option.map_eq_some_iff.mp hobs
  obtain ⟨hedges, hrest⟩ := Prod.mk.inj hend
  have hrun : Reach step (fun s i => s.FewOutstanding i ∧ s.TakenInStep i) {} s :=
    reach_of_runList (fun s i hi => of_decide_eq_true hi) hs
  exact ⟨s, hrun, of_decide_eq_true hrest, hedges, run_sent hrun (of_decide_eq_true hrest)⟩

/-- Two edges, the second while the machine waits one cycle for the FIFO: one packet is never sent. -/
theorem run_not_sent :
    ¬ ∀ s : SendState, Reach step FewOutstanding {} s → s.AtRest →
      s.popped = s.edges ∧ s.written = s.edges := by
  intro h
  have hobs : (runList step (fun s i => decide (s.FewOutstanding i)) {}
      ({ sendpkt := true } :: ({} : SendIn) :: { sendpkt := true, txfifoValid := false }
        :: List.replicate 9 ({} : SendIn))).map
      (fun s => (s.edges, s.popped, decide s.AtRest))
      = some (2, 1, true) := by decide +kernel
  obtain ⟨s, hs, hend⟩ := Option.map_eq_some_iff.mp hobs
  obtain ⟨hedges, hrest⟩ := Prod.mk.inj hend
  obtain ⟨hpopped, hrest⟩ := Prod.mk.inj hrest
  have hrun : Reach step FewOutstanding {} s :=
    reach_of_runList (fun s i hi => of_decide_eq_true hi) hs
  have heq := (h s hrun (of_decide_eq_true hrest)).1
  rw [hedges, hpopped] at heq
  exact absurd heq (by decide)

end SendState

end VanetTdma.Fpga
