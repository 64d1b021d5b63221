import VanetTdma.Lib.Clocked
import VanetTdma.Fpga.DescProcessor

/-!
# The transmit gate (`desc_processor.v`)

A packet of Linux is sent when the own slot leaves enough time for it.  ESDUR reads the length of the packet at the
head of the queue and latches an estimate of its duration; a second process computes from the slot clock how much of
the slot is left; a third compares the two and keeps the result in a flag; TXFR goes by that flag and by the validity
of the estimate.  Each of these is a register.

`TxGate` closes the loop: the machines of the descriptor processor on their buses, the queue of Linux' packets, the
time used and left in the slot, and the flag.

* `TxGate.Inv.tick` — the estimate that is valid is that of the packet at the head of the queue;
* `TxGate.txfr_fits_iff` — a packet that is sent had fitted, unless its estimate was latched at the last edge.
-/

namespace VanetTdma.Fpga

open Clocked

/-- `SLOT_NS`, as `axi_tdma_ath9k_middleware.v` instantiates it. -/
def slotNs : BitVec 32 := 1000000

/-- The descriptor processor, the queue of packets and the time in the slot. -/
structure TxGate where
  dp : DescProcessor := {}
  fifo : List (BitVec 32 × BitVec 32) := []
  nsUsedInCurrSlot : BitVec 32 := 0
  nsAvailInCurrSlot : BitVec 32
  txslotEnoughFlag : Bool := true

/-- The inputs of one cycle: what comes to the descriptor processor, the packet that Linux enters into the queue, and
the slot clock.  Of `dp` the signals of the queue and the flag are not read. -/
structure GateIn where
  dp : DpCycle := {}
  arrival : Option (BitVec 32 × BitVec 32) := none
  slotPulse2Counter : BitVec 10 := 0
  bchControlTimeNs : BitVec 32 := 0

namespace TxGate

/-- The signals of the queue, whose head falls through, and of the flag. -/
def dpIn (s : TxGate) (i : GateIn) : DpCycle :=
  { i.dp with
    fifoEmpty := s.fifo.isEmpty, fifoValid := !s.fifo.isEmpty, fifoDread := s.fifo.headD (0, 0)
    txslotEnoughFlag := s.txslotEnoughFlag }

/-- `ns_passed_in_curr_slot`. -/
def nsPassedInCurrSlot (s : TxGate) (i : GateIn) : BitVec 32 :=
  i.slotPulse2Counter.setWidth 32 * 1000 + i.bchControlTimeNs + s.nsUsedInCurrSlot

/-- One edge.  The flag is computed from the registers before the edge. -/
def tick (s : TxGate) (i : GateIn) : TxGate where
  dp := s.dp.tick (s.dpIn i)
  fifo := (if s.dp.txfr.fifoRdEn then s.fifo.drop 1 else s.fifo) ++ i.arrival.toList
  nsUsedInCurrSlot :=
    match s.dp.txfr.nextState (s.dp.txfrIn (s.dpIn i)) with
    | .idle => if i.dp.tdmaTxEnable then s.nsUsedInCurrSlot else 0
    | .wrPcieStart => s.nsUsedInCurrSlot + s.dp.esdur.nextPktEsDurationNs
    | _ => s.nsUsedInCurrSlot
  nsAvailInCurrSlot :=
    if s.nsPassedInCurrSlot i < slotNs then slotNs - s.nsPassedInCurrSlot i else 0
  txslotEnoughFlag :=
    if i.dp.tdmaFunctionEnable then !(s.nsAvailInCurrSlot < s.dp.esdur.nextPktEsDurationNs) else true

/-- The gate in cycle `n`; `ns_avail_in_curr_slot` is not reset. -/
def run (avail : BitVec 32) (inp : ℕ → GateIn) : ℕ → TxGate := trace tick inp { nsAvailInCurrSlot := avail }

/-- The estimate that ESDUR is about to latch. -/
def estimate (e : Esdur) : BitVec 32 := e.nextPktlen.setWidth 32 * timePerByte12mNs + txGuardNs

/-- ESDUR has asked for the length of the packet at the head of the queue. -/
def Asked (s : TxGate) : Prop := ∃ p rest, s.fifo = p :: rest ∧ s.dp.esdur.burst.readAddr = p.2 + 44

/-- How the queue, TXFR and ESDUR hang together while the TDMA function is enabled. -/
structure Inv (s : TxGate) : Prop where
  rdEn : s.dp.txfr.fifoRdEn = decide (s.dp.txfr.state = .wrPcieStart)
  valid : s.dp.esdur.nextPktEsDurationValid = true →
    s.dp.esdur.state = .st0 ∧ s.Asked ∧ s.dp.esdur.nextPktEsDurationNs = estimate s.dp.esdur
  start : s.dp.txfr.state = .wrPcieStart → s.dp.esdur.state = .st0 ∨ s.dp.esdur.state = .st2
  asked : s.dp.esdur.state = .st3 ∨ s.dp.esdur.state = .st4 ∨ s.dp.esdur.state = .st5 → s.Asked

section Step

variable {s : TxGate} {i : GateIn}

theorem goes_iff (hena : i.dp.tdmaFunctionEnable = true) :
    s.dp.txfr.nextState (s.dp.txfrIn (s.dpIn i)) = .wrPcieStart ↔ s.dp.txfr.state = .idle ∧ s.fifo.isEmpty = false
      ∧ i.dp.tdmaTxEnable = true ∧ s.dp.esdur.nextPktEsDurationValid = true ∧ s.txslotEnoughFlag = true := by
  unfold Txfr.nextState
  cases hst : s.dp.txfr.state with
  | idle =>
    simp only [DescProcessor.txfrIn, dpIn, hena]
    cases s.fifo.isEmpty <;> cases i.dp.tdmaTxEnable <;> cases s.dp.esdur.nextPktEsDurationValid <;>
      cases s.txslotEnoughFlag <;> simp
  | _ => dsimp only; (try split) <;> simp

theorem tick_txfr_state : (s.tick i).dp.txfr.state = s.dp.txfr.nextState (s.dp.txfrIn (s.dpIn i)) := by
  change (s.dp.txfr.act _ (s.dp.txfr.nextState _)).state = _
  cases s.dp.txfr.nextState (s.dp.txfrIn (s.dpIn i)) <;> rfl

theorem Inv.rdEn_tick (h : Inv s) :
    (s.tick i).dp.txfr.fifoRdEn = decide ((s.tick i).dp.txfr.state = .wrPcieStart) := by
  have hold := h.rdEn
  change (s.dp.txfr.act _ (s.dp.txfr.nextState _)).fifoRdEn = _
  change _ = decide ((s.dp.txfr.act _ (s.dp.txfr.nextState _)).state = .wrPcieStart)
  unfold Txfr.nextState
  cases hst : s.dp.txfr.state with
  | _ =>
    rw [hst] at hold
    dsimp only
    repeat' split
    all_goals first | rfl | exact hold

theorem Asked.tick (h : s.Asked) (hrd : s.dp.txfr.fifoRdEn = false)
    (haddr : (s.tick i).dp.esdur.burst.readAddr = s.dp.esdur.burst.readAddr) : (s.tick i).Asked := by
  obtain ⟨p, rest, hfifo, hread⟩ := h
  refine ⟨p, rest ++ i.arrival.toList, ?_, haddr.trans hread⟩
  simp only [TxGate.tick, hrd, hfifo, Bool.false_eq_true, if_false, List.cons_append]

theorem Inv.rdEn_of_state (h : Inv s) (h0 : s.dp.esdur.state ≠ .st0) (h2 : s.dp.esdur.state ≠ .st2) :
    s.dp.txfr.fifoRdEn = false := by
  rw [h.rdEn]
  exact decide_eq_false fun hst => (h.start hst).elim h0 h2

theorem esdur_of_goes (hst : s.dp.esdur.state = .st0) (hfifo : s.fifo.isEmpty = false) :
    s.dp.esdur.tick (s.dp.esdurIn (s.dpIn i)) = s.dp.esdur
      ∧ s.dp.txfr.fifoRdEn = false
    ∨ s.dp.esdur.tick (s.dp.esdurIn (s.dpIn i))
      = { s.dp.esdur with state := .st2, nextPktEsDurationValid := false, initFlag := false } := by
  simp only [Esdur.tick, hst, DescProcessor.esdurIn, dpIn, hfifo]
  cases s.dp.esdur.initFlag <;> cases s.dp.txfr.fifoRdEn <;> simp

theorem esdur_of_empty (hst : s.dp.esdur.state = .st0) (hfifo : s.fifo.isEmpty = true) :
    s.dp.esdur.tick (s.dp.esdurIn (s.dpIn i))
      = { s.dp.esdur with nextPktEsDurationValid := false, state := .st1 } := by
  simp [Esdur.tick, hst, DescProcessor.esdurIn, dpIn, hfifo]

theorem Inv.valid_tick (h : Inv s) (hv : (s.tick i).dp.esdur.nextPktEsDurationValid = true) :
    (s.tick i).dp.esdur.state = .st0 ∧ (s.tick i).Asked
      ∧ (s.tick i).dp.esdur.nextPktEsDurationNs = estimate (s.tick i).dp.esdur := by
  have hesdur : (s.tick i).dp.esdur = s.dp.esdur.tick (s.dp.esdurIn (s.dpIn i)) := rfl
  cases hst : s.dp.esdur.state with
  | st0 =>
    cases hfifo : s.fifo.isEmpty with
    | true =>
      rw [hesdur, esdur_of_empty hst hfifo] at hv
      cases hv
    | false =>
      rcases esdur_of_goes (i := i) hst hfifo with ⟨hkeep, hrd⟩ | hread
      · rw [← hesdur] at hkeep
        rw [hkeep] at hv ⊢
        obtain ⟨h0, hasked, hns⟩ := h.valid hv
        exact ⟨h0, hasked.tick hrd (by rw [hkeep]), hns⟩
      · rw [hesdur, hread] at hv
        cases hv
  | st5 =>
    have hlatch : (s.tick i).dp.esdur = { s.dp.esdur with
        nextPktEsDurationNs := estimate s.dp.esdur, nextPktEsDurationValid := true, state := .st0 } := by
      rw [hesdur, Esdur.tick, hst]
      rfl
    have hrd := h.rdEn_of_state (by rw [hst]; decide) (by rw [hst]; decide)
    have hasked := (h.asked (Or.inr (Or.inr hst))).tick (i := i) hrd (by rw [hlatch])
    rw [hlatch]
    exact ⟨rfl, hasked, rfl⟩
  | _ =>
    have hsame : s.dp.esdur.nextPktEsDurationValid = true := by
      rw [hesdur, Esdur.tick, hst] at hv
      dsimp only at hv
      repeat' split at hv
      all_goals exact hv
    have h0 := (h.valid hsame).1
    rw [hst] at h0
    cases h0

theorem Inv.asked_tick (h : Inv s) (hst' : (s.tick i).dp.esdur.state = .st3 ∨ (s.tick i).dp.esdur.state = .st4
      ∨ (s.tick i).dp.esdur.state = .st5) : (s.tick i).Asked := by
  have hesdur : (s.tick i).dp.esdur = s.dp.esdur.tick (s.dp.esdurIn (s.dpIn i)) := rfl
  cases hst : s.dp.esdur.state with
  | st0 | st1 | st5 =>
    rw [hesdur, Esdur.tick, hst] at hst'
    dsimp only at hst'
    repeat' split at hst'
    all_goals simp [hst] at hst'
  | st2 =>
    rw [hesdur, Esdur.tick, hst] at hst'
    cases hrd : s.dp.txfr.fifoRdEn with
    | true => simp [DescProcessor.esdurIn, hrd, hst] at hst'
    | false =>
      cases hfifo : s.fifo with
      | nil => simp [DescProcessor.esdurIn, dpIn, hrd, hfifo] at hst'
      | cons p rest =>
        refine ⟨p, rest ++ i.arrival.toList, ?_, ?_⟩
        · simp only [TxGate.tick, hrd, hfifo, Bool.false_eq_true, if_false, List.cons_append]
        · rw [hesdur, Esdur.tick, hst]
          simp [DescProcessor.esdurIn, dpIn, hrd, hfifo]
  | st3 | st4 =>
    have hrd := h.rdEn_of_state (by rw [hst]; decide) (by rw [hst]; decide)
    refine Asked.tick (h.asked (by rw [hst]; simp)) hrd ?_
    rw [hesdur, Esdur.tick, hst]
    dsimp only
    split <;> rfl

theorem Inv.tick (h : Inv s) (hena : i.dp.tdmaFunctionEnable = true) : Inv (s.tick i) where
  rdEn := h.rdEn_tick
  start hst := by
    rw [tick_txfr_state] at hst
    obtain ⟨-, hfifo, -, hvalid, -⟩ := (goes_iff hena).mp hst
    obtain ⟨h0, -⟩ := h.valid hvalid
    change (s.dp.esdur.tick (s.dp.esdurIn (s.dpIn i))).state = .st0
      ∨ (s.dp.esdur.tick (s.dp.esdurIn (s.dpIn i))).state = .st2
    rcases esdur_of_goes (i := i) h0 hfifo with ⟨hkeep, -⟩ | hread
    · rw [hkeep]
      exact Or.inl h0
    · rw [hread]
      exact Or.inr rfl
  valid hv := h.valid_tick hv
  asked hst := h.asked_tick hst

end Step

theorem inv_run (avail : BitVec 32) (inp : ℕ → GateIn) (hena : ∀ n, (inp n).dp.tdmaFunctionEnable = true) (n : ℕ) :
    Inv (run avail inp n) := by
  induction n with
  | zero =>
    refine ⟨rfl, nofun, nofun, fun hst => ?_⟩
    rcases hst with hst | hst | hst <;> cases hst
  | succ n ih => exact ih.tick (hena n)

theorem esdur_ns_tick (s : TxGate) (i : GateIn) :
    (s.tick i).dp.esdur.nextPktEsDurationNs
      = if s.dp.esdur.state = .st5 then estimate s.dp.esdur else s.dp.esdur.nextPktEsDurationNs := by
  change (s.dp.esdur.tick (s.dp.esdurIn (s.dpIn i))).nextPktEsDurationNs = _
  by_cases h5 : s.dp.esdur.state = .st5
  · rw [if_pos h5, Esdur.tick, h5]
    rfl
  · rw [if_neg h5, Esdur.tick]
    cases hst : s.dp.esdur.state with
    | st5 => exact absurd hst h5
    | _ =>
      dsimp only
      repeat' split
      all_goals rfl

/-- **A packet that is sent fits into the slot, unless its estimate is too new.**  In every run with the TDMA function
enabled, whenever TXFR takes a packet, the estimate is that of the packet taken, and it is at most what was left of the
slot in the cycle before exactly if ESDUR did not latch it at the edge between, or it fits nevertheless: at that edge
the flag is still computed from the estimate of the packet before. -/
theorem txfr_fits_iff (avail : BitVec 32) (inp : ℕ → GateIn) (hena : ∀ n, (inp n).dp.tdmaFunctionEnable = true) (n : ℕ)
    (hgoes : (run avail inp (n + 2)).dp.txfr.state = .wrPcieStart) :
    (∃ p rest, (run avail inp (n + 1)).fifo = p :: rest ∧ (run avail inp (n + 1)).dp.esdur.burst.readAddr = p.2 + 44
        ∧ (run avail inp (n + 2)).dp.txfr.lite.writeData = p.2
        ∧ (run avail inp (n + 1)).dp.esdur.nextPktEsDurationNs = estimate (run avail inp (n + 1)).dp.esdur)
      ∧ ((run avail inp (n + 1)).dp.esdur.nextPktEsDurationNs ≤ (run avail inp n).nsAvailInCurrSlot
        ↔ ((run avail inp n).dp.esdur.state = .st5 →
          estimate (run avail inp n).dp.esdur ≤ (run avail inp n).nsAvailInCurrSlot)) := by
  have hnext : run avail inp (n + 2) = (run avail inp (n + 1)).tick (inp (n + 1)) := rfl
  rw [hnext, tick_txfr_state] at hgoes
  obtain ⟨-, -, -, hvalid, hflag⟩ := (goes_iff (hena (n + 1))).mp hgoes
  refine ⟨?_, ?_⟩
  · obtain ⟨-, ⟨p, rest, hfifo, hread⟩, hns⟩ := (inv_run avail inp hena (n + 1)).valid hvalid
    refine ⟨p, rest, hfifo, hread, ?_, hns⟩
    have htaken : (run avail inp (n + 2)).dp.txfr
        = (run avail inp (n + 1)).dp.txfr.act ((run avail inp (n + 1)).dp.txfrIn
          ((run avail inp (n + 1)).dpIn (inp (n + 1)))) .wrPcieStart := by
      rw [← hgoes]
      rfl
    rw [htaken]
    simp only [Txfr.act, LiteReq.write, DescProcessor.txfrIn, dpIn, hfifo, List.headD_cons]
  · -- the flag was computed from the estimate of the cycle before
    have hfits : (run avail inp n).dp.esdur.nextPktEsDurationNs ≤ (run avail inp n).nsAvailInCurrSlot := by
      have heq : (run avail inp (n + 1)).txslotEnoughFlag
          = !decide ((run avail inp n).nsAvailInCurrSlot < (run avail inp n).dp.esdur.nextPktEsDurationNs) :=
        if_pos (hena n)
      rw [heq, Bool.not_eq_true', decide_eq_false_iff_not, BitVec.not_lt] at hflag
      exact hflag
    rw [show run avail inp (n + 1) = (run avail inp n).tick (inp n) from rfl, esdur_ns_tick]
    split
    · rename_i h5
      exact ⟨fun h _ => h, fun h => h h5⟩
    · rename_i h5
      exact ⟨fun _ hst => absurd hst h5, fun _ => hfits⟩

/-- Linux enters one packet of `len` bytes in the first cycle and the buses answer at once; `us` microseconds of a slot
have passed, which is the own slot from cycle `own` on. -/
def promptGate (len : BitVec 32) (us : BitVec 10) (own : ℕ) : ℕ → GateIn := fun n =>
  { dp := { liteCmdack := true, liteCmplt := true, burstCmdack := true, burstCmplt := true, burstMstrdSrcRdyN := false
            burstMstrdD := len, tdmaFunctionEnable := true, tdmaTxEnable := own ≤ n }
    arrival := if n = 0 then some (0x60000818, 0x1000) else none
    slotPulse2Counter := us }

theorem txfr_fits_iff_own_slot :
    (run 0 (promptGate 1000 100 40) 41).dp.txfr.state = .wrPcieStart
      ∧ (run 0 (promptGate 1000 100 40) 40).dp.esdur.nextPktEsDurationNs
        ≤ (run 0 (promptGate 1000 100 40) 39).nsAvailInCurrSlot :=
  ⟨by decide +kernel,
    (txfr_fits_iff 0 (promptGate 1000 100 40) (fun _ => rfl) 39 (by decide +kernel)).2.mpr (by decide +kernel)⟩

/-- A packet of 770 µs is sent when 100 µs of the slot are left: it is taken as soon as its estimate is there, and the
flag has been computed from the register's value before, the 0 of the reset. -/
theorem sent_beyond_slot :
    (run 0 (promptGate 1000 900 0) 14).dp.txfr.state = .idle
      ∧ (run 0 (promptGate 1000 900 0) 15).dp.txfr.state = .wrPcieStart
      ∧ (run 0 (promptGate 1000 900 0) 14).dp.esdur.nextPktEsDurationNs = 770000
      ∧ (run 0 (promptGate 1000 900 0) 13).nsAvailInCurrSlot = 100000 := by
  decide +kernel

end TxGate

end VanetTdma.Fpga
