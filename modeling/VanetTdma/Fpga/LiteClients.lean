import VanetTdma.Fpga.DescProcessor
import VanetTdma.Lib.Clocked

/-!
# The requests of `desc_processor` on the lite bus

IRQ, TXFR, UR and PIRQ share the lite bus through an arbiter that waits for the end of each transaction; behind it
the dispatcher serves `tdma_control` as well.

* `LiteRun` — a run with a ledger of what each machine has asked for and what has been carried out for it;
* `LiteInv.tick` — the joint invariant of machines, arbiter, dispatcher and transaction machine;
* `LiteRun.inv_trace` — the invariant and the ledger in every run.
-/

namespace VanetTdma.Fpga

open SharedBus Clocked

/-! ### The machines as clients -/

def IrqState.liteStage : IrqState → Stage
  | .getAsyncCauseStart | .disableStart | .getIsrStart | .handleTxokStart | .clearStart | .enableStart => .fresh
  | .getAsyncCauseMid | .disableMid | .getIsrMid | .handleTxokMid | .clearMid | .enableMid => .calling
  | .getAsyncCauseWait | .disableWait | .getIsrWait | .handleTxokWait | .clearWait | .enableWait => .waiting
  | _ => .quiet

def PirqState.liteStage : PirqState → Stage
  | .clrStart | .clrFifoStart => .fresh
  | .clrMid | .clrFifoMid => .calling
  | .clrWait | .clrFifoWait => .waiting
  | _ => .quiet

/-- UR waits for its buffer to be cleared first; it does not look at the done line of the lite bus. -/
def UrState.liteStage : UrState → Stage
  | .hwPushbackStart => .fresh
  | .hwPushbackMid => .calling
  | .waitClr | .waitPushback => .waiting
  | _ => .quiet

def TxfrState.liteStage : TxfrState → Stage
  | .wrPcieStart => .fresh
  | .wrPcieMid => .calling
  | .wrPcieWait => .waiting
  | _ => .quiet

theorem Irq.liteStage_next (i : IrqIn) (m : Irq) :
    m.state.liteStage.next i.ipicAckLite i.ipicDoneLite (m.tick i).state.liteStage = true := by
  rw [tick, act_state]
  unfold nextState
  cases m.state <;> dsimp only <;> (repeat' split) <;> simp_all [Stage.next, IrqState.liteStage]

theorem Irq.lite_tick (i : IrqIn) (m : Irq) (h : m.lite.start = m.state.liteStage.asks) :
    (m.tick i).lite.start = (m.tick i).state.liteStage.asks
      ∧ (m.state.liteStage.asks = true → (m.tick i).state.liteStage.asks = true → (m.tick i).lite = m.lite) := by
  unfold tick nextState
  cases hst : m.state <;> rw [hst] at h <;> dsimp only <;> (repeat' split) <;>
    first
    | exact ⟨h, fun _ _ => rfl⟩
    | exact ⟨h, fun hask => (Bool.false_ne_true hask).elim⟩
    | exact ⟨rfl, fun hask => (Bool.false_ne_true hask).elim⟩
    | exact ⟨rfl, fun _ hask => (Bool.false_ne_true hask).elim⟩

/-- The request lines of a machine that only writes. -/
structure LiteReq.Writes (r : LiteReq) (asks : Bool) : Prop where
  start : r.start = asks
  type : asks = true → r.ipicType = singleWr

theorem LiteReq.writes_of_quiet {r : LiteReq} (hstart : r.start = false) : r.Writes false :=
  ⟨hstart, fun h => nomatch h⟩

theorem Pirq.liteStage_next (i : PirqIn) (m : Pirq) :
    m.state.liteStage.next i.ipicAckLite i.ipicDoneLite (m.tick i).state.liteStage = true := by
  unfold tick nextState
  cases m.state <;> dsimp only <;> (repeat' split) <;> simp_all [Stage.next, PirqState.liteStage, act]

theorem Pirq.lite_tick (i : PirqIn) (m : Pirq) (h : m.lite.Writes m.state.liteStage.asks) :
    (m.tick i).lite.Writes (m.tick i).state.liteStage.asks
      ∧ (m.state.liteStage.asks = true → (m.tick i).state.liteStage.asks = true → (m.tick i).lite = m.lite) := by
  unfold tick nextState
  cases hst : m.state <;> rw [hst] at h <;> dsimp only <;> (repeat' split) <;>
    first
    | exact ⟨h, fun _ _ => rfl⟩
    | exact ⟨h, fun hask => nomatch hask⟩
    | exact ⟨⟨rfl, fun _ => rfl⟩, fun hask => nomatch hask⟩
    | exact ⟨LiteReq.writes_of_quiet rfl, fun _ hask => nomatch hask⟩

theorem Ur.liteStage_next (i : UrIn) (m : Ur) :
    m.state.liteStage.next i.ipicAckLite (m.state = .waitPushback && i.liteIdle) (m.tick i).state.liteStage
      = true := by
  unfold tick nextState
  cases m.state <;> dsimp only <;> (repeat' split) <;> simp_all [Stage.next, UrState.liteStage, act]

theorem Ur.lite_tick (i : UrIn) (m : Ur) (h : m.lite.Writes m.state.liteStage.asks) :
    (m.tick i).lite.Writes (m.tick i).state.liteStage.asks
      ∧ (m.state.liteStage.asks = true → (m.tick i).state.liteStage.asks = true → (m.tick i).lite = m.lite) := by
  unfold tick nextState
  cases hst : m.state <;> rw [hst] at h <;> dsimp only <;> (repeat' split) <;>
    first
    | exact ⟨h, fun _ _ => rfl⟩
    | exact ⟨h, fun hask => nomatch hask⟩
    | exact ⟨⟨rfl, fun _ => rfl⟩, fun hask => nomatch hask⟩
    | exact ⟨LiteReq.writes_of_quiet rfl, fun _ hask => nomatch hask⟩

theorem Txfr.liteStage_next (i : TxfrIn) (m : Txfr) :
    m.state.liteStage.next i.ipicAckLite i.ipicDoneLite (m.tick i).state.liteStage = true := by
  unfold tick nextState
  cases m.state <;> dsimp only <;> (repeat' split) <;> simp_all [Stage.next, TxfrState.liteStage, act]

theorem Txfr.lite_tick (i : TxfrIn) (m : Txfr) (h : m.lite.Writes m.state.liteStage.asks) :
    (m.tick i).lite.Writes (m.tick i).state.liteStage.asks
      ∧ (m.state.liteStage.asks = true → (m.tick i).state.liteStage.asks = true → (m.tick i).lite = m.lite) := by
  unfold tick nextState
  cases hst : m.state <;> rw [hst] at h <;> dsimp only <;> (repeat' split) <;>
    first
    | exact ⟨h, fun _ _ => rfl⟩
    | exact ⟨h, fun hask => nomatch hask⟩
    | exact ⟨⟨rfl, fun _ => rfl⟩, fun hask => nomatch hask⟩
    | exact ⟨LiteReq.writes_of_quiet rfl, fun _ hask => nomatch hask⟩

namespace DescProcessor

def liteStage (s : DescProcessor) : LiteClient → Stage
  | .irq => s.irq.state.liteStage
  | .txfr => s.txfr.state.liteStage
  | .ur => s.ur.state.liteStage
  | .pirq => s.pirq.state.liteStage

def liteClient (s : DescProcessor) (k : LiteClient) : Client LiteJob := (s.liteStage k).client (s.liteReq k).job

def liteLeave (s : DescProcessor) : LiteClient → Bool
  | .ur => s.ur.state = .waitPushback && s.lite.state = .idle
  | _ => s.lite.doneDp

/-- Arbiter and bus; `k` is the machine whose request was taken over last. -/
def liteBus (s : DescProcessor) (k : LiteClient) : Bus LiteClient LiteJob where
  hold := s.liteArb.hold LiteReq.job
  port := s.lite.port k

def liteFound (s : DescProcessor) : Option (LiteClient × LiteJob) :=
  s.litePick.map fun k => (k, (s.liteLatch k s.liteArb.req).job)

/-- The machine whose request was taken over last, after an edge. -/
def liteServer (s : DescProcessor) (i : DpCycle) (k : LiteClient) : LiteClient :=
  if s.lite.takesDp (s.liteIn i) then s.liteArb.owner else k

/-- Machines, arbiter and bus are in step. -/
structure LiteInv (s : DescProcessor) (k₀ : LiteClient) : Prop where
  arb : s.liteArb.Ok
  bus : s.lite.Ported
  link : (s.liteBus k₀).Ok true
  irq : s.irq.lite.start = s.irq.state.liteStage.asks
  txfr : s.txfr.lite.Writes s.txfr.state.liteStage.asks
  ur : s.ur.lite.Writes s.ur.state.liteStage.asks
  pirq : s.pirq.lite.Writes s.pirq.state.liteStage.asks
  clients : ∀ k, (s.liteClient k).At (k ≠ .ur) k (s.liteBus k₀)

variable {s : DescProcessor} {i : DpCycle} {k k₀ : LiteClient}

theorem liteInv_init : LiteInv {} .ur where
  arb := ⟨fun _ => rfl, nofun, fun _ => rfl⟩
  bus := LiteBus.ported_init
  link := .free (fun _ _ => nofun) fun _ => rfl
  irq := rfl
  txfr := ⟨rfl, nofun⟩
  ur := ⟨rfl, nofun⟩
  pirq := ⟨rfl, nofun⟩
  clients k := by
    refine .idle ?_ (fun j => ⟨nofun, nofun⟩) (fun j => ⟨nofun, nofun⟩)
    cases k <;> exact nofun

theorem stage_of_client {g : Stage} {j : LiteJob} (h : s.liteClient k = g.client j) : s.liteStage k = g := by
  unfold liteClient at h
  cases hst : s.liteStage k <;> cases g <;> rw [hst] at h <;> first | rfl | cases h

theorem LiteInv.start (h : s.LiteInv k₀) (k : LiteClient) : (s.liteReq k).start = (s.liteStage k).asks := by
  cases k with
  | irq => exact h.irq
  | txfr => exact h.txfr.start
  | ur => exact h.ur.start
  | pirq => exact h.pirq.start

theorem start_of_litePick (h : s.litePick = some k) : (s.liteReq k).start = true := by
  unfold litePick at h
  repeat' split at h
  all_goals
    cases h
    try assumption

theorem LiteReq.job_of_write {r r' : LiteReq} (h : r.ipicType = singleWr) :
    { r' with ipicType := r.ipicType, writeAddr := r.writeAddr, writeData := r.writeData }.job = r.job := by
  have hne : singleWr ≠ singleRd := by decide
  simp only [LiteReq.job, LiteJob.of, h, if_neg hne]

theorem LiteInv.job_liteLatch (h : s.LiteInv k₀) (hk : (s.liteStage k).asks = true) (r : LiteReq) :
    (s.liteLatch k r).job = (s.liteReq k).job := by
  cases k with
  | irq => rfl
  | txfr => exact LiteReq.job_of_write (h.txfr.type hk)
  | ur => exact LiteReq.job_of_write (h.ur.type hk)
  | pirq => exact LiteReq.job_of_write (h.pirq.type hk)

theorem LiteInv.shows_of_liteFound (h : s.LiteInv k₀) {j : LiteJob} (hfound : s.liteFound = some (k, j)) :
    (s.liteClient k).shows = some j := by
  obtain ⟨k', hpick, heq⟩ := Option.map_eq_some_iff.mp hfound
  cases heq
  have hask : (s.liteStage k).asks = true := by rw [← h.start, start_of_litePick hpick]
  rw [liteClient, Stage.shows_client, if_pos hask, h.job_liteLatch hask]

theorem liteStage_next (s : DescProcessor) (i : DpCycle) (k : LiteClient) :
    (s.liteStage k).next (s.liteArb.ack k) (s.liteLeave k) ((s.tick i).liteStage k) = true := by
  cases k with
  | irq => exact s.irq.liteStage_next (s.irqIn i)
  | txfr => exact s.txfr.liteStage_next (s.txfrIn i)
  | ur => exact s.ur.liteStage_next (s.urIn i)
  | pirq => exact s.pirq.liteStage_next (s.pirqIn i)

theorem LiteInv.liteReq_tick (h : s.LiteInv k₀) (hask : (s.liteStage k).asks = true)
    (hask' : ((s.tick i).liteStage k).asks = true) : (s.tick i).liteReq k = s.liteReq k := by
  cases k with
  | irq => exact (s.irq.lite_tick (s.irqIn i) h.irq).2 hask hask'
  | txfr => exact (s.txfr.lite_tick (s.txfrIn i) h.txfr).2 hask hask'
  | ur => exact (s.ur.lite_tick (s.urIn i) h.ur).2 hask hask'
  | pirq => exact (s.pirq.lite_tick (s.pirqIn i) h.pirq).2 hask hask'

/-- **Every machine is a client.** -/
theorem LiteInv.follows (h : s.LiteInv k₀) (i : DpCycle) (k : LiteClient) :
    (s.liteClient k).Follows ((s.liteBus k₀).hold.acks k) (s.liteLeave k) ((s.tick i).liteClient k) := by
  rw [show (s.liteBus k₀).hold.acks k = s.liteArb.ack k from h.arb.acks k]
  exact Stage.follows (s.liteStage_next i k) fun hask hask' => by rw [h.liteReq_tick hask hask']

/-- **Arbiter and bus refine the shared bus.** -/
theorem LiteInv.liteBus_tick (h : s.LiteInv k₀) (i : DpCycle) :
    (s.tick i).liteBus (s.liteServer i k₀)
      = (s.liteBus k₀).tick true s.liteFound (s.lite.advances (s.liteIn i)) := by
  refine congrArg₂ Bus.mk ?_ ?_
  · exact Arbiter.hold_tick h.arb h.bus.port_ack.symm h.bus.port_done.symm
  · rw [show (s.liteBus k₀).hold.offer = _ from h.arb.offer]
    exact h.bus.port_tick

theorem LiteInv.leave_own (h : s.LiteInv k₀) (hk : k ≠ .ur) : s.liteLeave k = (s.liteBus k₀).port.done := by
  rw [show (s.liteBus k₀).port.done = s.lite.doneDp from h.bus.port_done]
  cases k with
  | ur => exact absurd rfl hk
  | _ => rfl

theorem LiteInv.spares_of_leave (h : s.LiteInv k₀) (hleave : s.liteLeave k = true) :
    (s.liteBus k₀).port.Spares k := by
  by_cases hk : k = .ur
  · subst hk
    have hur := Bool.and_eq_true_iff.mp hleave
    have hstate : s.ur.state = .waitPushback := of_decide_eq_true hur.1
    have hwait : s.liteClient .ur = .waiting := by
      simp only [liteClient, liteStage, hstate, UrState.liteStage, Stage.client]
    intro j
    refine ⟨fun htaken => ?_, fun hbusy => h.bus.state_ne_idle hbusy (of_decide_eq_true hur.2)⟩
    have hhold := h.link.hold_of_taken htaken
    have hat := h.clients .ur
    rw [hwait] at hat
    cases hat with
    | idle hc => exact hc rfl
    | waiting hh => exact (hh j).1 hhold
  · rw [h.leave_own hk] at hleave
    exact Port.spares_of_done hleave k

/-- **The joint invariant is kept by every edge.** -/
theorem LiteInv.tick (h : s.LiteInv k₀) (i : DpCycle) : (s.tick i).LiteInv (s.liteServer i k₀) where
  arb := h.arb.tick
  bus := h.bus.tick
  link := by
    rw [h.liteBus_tick i]
    exact h.link.tick
  irq := (s.irq.lite_tick (s.irqIn i) h.irq).1
  txfr := (s.txfr.lite_tick (s.txfrIn i) h.txfr).1
  ur := (s.ur.lite_tick (s.urIn i) h.ur).1
  pirq := (s.pirq.lite_tick (s.pirqIn i) h.pirq).1
  clients k := by
    rw [h.liteBus_tick i]
    exact (h.clients k).tick h.link (h.follows i k) h.spares_of_leave h.leave_own fun _ => h.shows_of_liteFound

def liteDone (s : DescProcessor) (i : DpCycle) (k₀ k : LiteClient) : List LiteJob :=
  if s.lite.dispatchType = .dp ∧ k₀ = k then (s.lite.completes (s.liteIn i)).toList else []

/-- **The account of a machine at one edge.** -/
theorem LiteInv.ledger (h : s.LiteInv k₀) (i : DpCycle) (k : LiteClient) :
    (s.liteClient k).pending k (s.lite.port k₀) ++ (s.liteClient k).asks ((s.tick i).liteClient k)
      = s.liteDone i k₀ k
        ++ ((s.tick i).liteClient k).pending k ((s.tick i).lite.port (s.liteServer i k₀)) := by
  have hport : (s.tick i).lite.port (s.liteServer i k₀)
      = ((s.liteBus k₀).tick true s.liteFound (s.lite.advances (s.liteIn i))).port :=
    congrArg Bus.port (h.liteBus_tick i)
  rw [liteDone, ← h.bus.executes_port, hport]
  exact (h.clients k).ledger h.link (h.follows i k) h.spares_of_leave

end DescProcessor

/-! ### Runs -/

/-- A run with its ledger: the machine whose request the dispatcher took over last, and for each machine the
requests it has asked for and those that were carried out for it. -/
structure LiteRun where
  s : DescProcessor := {}
  server : LiteClient := .ur
  asked : LiteClient → List LiteJob := fun _ => []
  executed : LiteClient → List LiteJob := fun _ => []

namespace LiteRun

def tick (r : LiteRun) (i : DpCycle) : LiteRun where
  s := r.s.tick i
  server := r.s.liteServer i r.server
  asked k := r.asked k ++ (r.s.liteClient k).asks ((r.s.tick i).liteClient k)
  executed k := r.executed k ++ r.s.liteDone i r.server k

/-- The requests of a machine that are still to be carried out. -/
def pending (r : LiteRun) (k : LiteClient) : List LiteJob :=
  (r.s.liteClient k).pending k (r.s.lite.port r.server)

/-- The invariant with the ledger. -/
structure Inv (r : LiteRun) : Prop where
  inv : r.s.LiteInv r.server
  ledger : ∀ k, r.asked k = r.executed k ++ r.pending k

theorem inv_init : Inv {} where
  inv := DescProcessor.liteInv_init
  ledger k := by cases k <;> rfl

theorem Inv.tick {r : LiteRun} (h : r.Inv) (i : DpCycle) : (r.tick i).Inv where
  inv := h.inv.tick i
  ledger k := by
    calc (r.tick i).asked k
        = r.executed k ++ (r.pending k ++ (r.s.liteClient k).asks ((r.s.tick i).liteClient k)) := by
          rw [← List.append_assoc, ← h.ledger k]
          rfl
      _ = r.executed k ++ (r.s.liteDone i r.server k ++ (r.tick i).pending k) :=
          congrArg (r.executed k ++ ·) (h.inv.ledger i k)
      _ = (r.tick i).executed k ++ (r.tick i).pending k := (List.append_assoc _ _ _).symm

theorem inv_trace (inp : ℕ → DpCycle) (n : ℕ) : (trace tick inp {} n).Inv := by
  induction n with
  | zero => exact inv_init
  | succ n ih => exact ih.tick (inp n)

end LiteRun

end VanetTdma.Fpga
