import Mathlib.Tactic.Common

/-!
# The FIFO writers (`txfifo_wr_machine.v`, `rxfifo_wr_machine.v`)

The transmit and the receive FIFO have a writer each.  The two files are the same but for names: one requester on
the FPGA (`tdma_control`, or `desc_processor`), which comes first, and Linux.  A request is the level of a start
signal in dispatch state 0; the writer then needs five cycles, and it looks at the FIFO's full flag in the first
of them only.

* `WrStage` — where the two processes of the writer are, together;
* `FifoWr.At.tick` — how the stages follow one another.
-/

namespace VanetTdma.Fpga

/-- The values of `dispatch_state` and `*fifo_write_status`. -/
inductive WrPhase where
  | ph0
  | ph1
  | ph2
deriving DecidableEq

/-- The registers of a writer. -/
structure FifoWr where
  dispatchState : WrPhase := .ph0
  writeEnable : Bool := false
  data : BitVec 32 := 0
  wrDone : Bool := false
  writeStatus : WrPhase := .ph0
  writeCplPulse : Bool := false
  wrEn : Bool := false
  dwrite : BitVec 32 := 0
deriving DecidableEq

/-- A start signal with its data. -/
structure WrReq where
  start : Bool := false
  data : BitVec 32 := 0
deriving DecidableEq

/-- The inputs of a writer: `own` is `tc_wr_*` of the transmit FIFO and `desc_wr_*` of the receive FIFO. -/
structure FifoWrIn where
  full : Bool
  own : WrReq
  linux : WrReq

namespace FifoWr

def take (r : WrReq) (w : FifoWr) : FifoWr :=
  { w with data := r.data, writeEnable := true, dispatchState := .ph1 }

/-- The process of `dispatch_state`. -/
def dispatch (i : FifoWrIn) (w : FifoWr) : FifoWr :=
  match w.dispatchState with
  | .ph0 => if i.own.start then w.take i.own else if i.linux.start then w.take i.linux else w
  | .ph1 =>
    let v := { w with writeEnable := false }
    if w.writeCplPulse then { v with wrDone := true, dispatchState := .ph2 } else v
  | .ph2 => { w with wrDone := false, dispatchState := .ph0 }

/-- The process of `*fifo_write_status`; `w` is the writer before the edge and `v` what the other process has
made of it. -/
def write (full : Bool) (w v : FifoWr) : FifoWr :=
  if w.writeEnable = true ∧ w.writeStatus = .ph0 ∧ full = false then
    { v with dwrite := w.data, writeStatus := .ph1, wrEn := true }
  else
    match w.writeStatus with
    | .ph0 => v
    | .ph1 => { v with wrEn := false, writeStatus := .ph2, writeCplPulse := true }
    | .ph2 => { v with writeStatus := .ph0, writeCplPulse := false }

def tick (i : FifoWrIn) (w : FifoWr) : FifoWr := write i.full w (w.dispatch i)

end FifoWr

/-! ### Stages -/

/-- The stages of a write.  From `stuck` there is no way out. -/
inductive WrStage where
  | idle
  | enabled
  | writing
  | completing
  | returning
  | stuck
deriving DecidableEq

namespace WrStage

def dispatchState : WrStage → WrPhase
  | idle => .ph0
  | enabled | writing | completing | stuck => .ph1
  | returning => .ph2

def writeStatus : WrStage → WrPhase
  | idle | enabled | returning | stuck => .ph0
  | writing => .ph1
  | completing => .ph2

def next (i : FifoWrIn) : WrStage → WrStage
  | idle => if i.own.start = true ∨ i.linux.start = true then enabled else idle
  | enabled => if i.full then stuck else writing
  | writing => completing
  | completing => returning
  | returning => idle
  | stuck => stuck

end WrStage

namespace FifoWr

/-- The writer is at the given stage. -/
structure At (g : WrStage) (w : FifoWr) : Prop where
  dispatchState : w.dispatchState = g.dispatchState
  writeEnable : w.writeEnable = decide (g = .enabled)
  writeStatus : w.writeStatus = g.writeStatus
  writeCplPulse : w.writeCplPulse = decide (g = .completing)
  wrEn : w.wrEn = decide (g = .writing)

theorem at_reset : At .idle {} := ⟨rfl, rfl, rfl, rfl, rfl⟩

variable {g : WrStage} {i : FifoWrIn} {w : FifoWr}

/-- **The stages follow one another.** -/
theorem At.tick (h : At g w) : At (g.next i) (w.tick i) := by
  obtain ⟨hd, he, hs, hc, hw⟩ := h
  cases g with
  | idle =>
    simp only [FifoWr.tick, write, dispatch, hd, he, hs, WrStage.dispatchState, WrStage.writeStatus, WrStage.next,
      reduceCtorEq, decide_false, Bool.false_eq_true, false_and, if_false]
    by_cases hown : i.own.start = true
    · rw [if_pos hown, if_pos (Or.inl hown)]
      exact ⟨rfl, rfl, hs, hc, hw⟩
    · rw [if_neg hown]
      by_cases hlinux : i.linux.start = true
      · rw [if_pos hlinux, if_pos (Or.inr hlinux)]
        exact ⟨rfl, rfl, hs, hc, hw⟩
      · rw [if_neg hlinux, if_neg (not_or.mpr ⟨hown, hlinux⟩)]
        exact ⟨hd, he, hs, hc, hw⟩
  | enabled =>
    simp only [FifoWr.tick, write, dispatch, hd, he, hs, hc, WrStage.dispatchState, WrStage.writeStatus,
      WrStage.next, reduceCtorEq, decide_false, decide_true, Bool.false_eq_true, true_and, if_false]
    cases hfull : i.full with
    | true => exact ⟨rfl, rfl, rfl, rfl, hw⟩
    | false => exact ⟨rfl, rfl, rfl, rfl, rfl⟩
  | writing | completing | returning | stuck =>
    simp only [FifoWr.tick, write, dispatch, hd, he, hs, hc, WrStage.dispatchState, WrStage.writeStatus,
      WrStage.next, reduceCtorEq, decide_false, decide_true, Bool.false_eq_true, false_and, if_false, if_true]
    constructor <;> first | rfl | assumption

theorem At.data_of_own (h : At .idle w) (hown : i.own.start = true) : (w.tick i).data = i.own.data := by
  simp only [FifoWr.tick, write, dispatch, h.dispatchState, h.writeEnable, h.writeStatus, WrStage.dispatchState,
    WrStage.writeStatus, hown, reduceCtorEq, decide_false, Bool.false_eq_true, false_and, if_false, if_true]
  rfl

theorem At.data_of_linux (h : At .idle w) (hown : i.own.start = false) (hlinux : i.linux.start = true) :
    (w.tick i).data = i.linux.data := by
  simp only [FifoWr.tick, write, dispatch, h.dispatchState, h.writeEnable, h.writeStatus, WrStage.dispatchState,
    WrStage.writeStatus, hown, hlinux, reduceCtorEq, decide_false, Bool.false_eq_true, false_and, if_false, if_true]
  rfl

theorem At.dwrite_of_enabled (h : At .enabled w) (hfull : i.full = false) : (w.tick i).dwrite = w.data := by
  have hcond : w.writeEnable = true ∧ w.writeStatus = .ph0 ∧ i.full = false := ⟨h.writeEnable, h.writeStatus, hfull⟩
  rw [FifoWr.tick, write, if_pos hcond]

end FifoWr

end VanetTdma.Fpga
