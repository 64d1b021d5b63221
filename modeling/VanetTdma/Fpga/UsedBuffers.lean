import VanetTdma.Fpga.BurstProgress
import VanetTdma.Fpga.LiteProgress

/-!
# The used receive buffers (`desc_processor.v`)

UR takes the addresses of used receive buffers from a FIFO, has each of them cleared by a SET_ZERO burst and gives it
back to the card.  IRQ and ESDUR hold their requests on the burst bus until they are acknowledged.  UR shows its request
for two cycles only, and takes the next done pulse for its own that it sees in UR_WAIT_CLR.

* `DescProcessor.BurstInv.burstBus_tick` — arbiter and burst bus refine the shared bus;
* `DescProcessor.Apart` — the burst bus is free when UR asks, and has not reported when UR begins to wait;
* `DescProcessor.UrInv.tick` — in such cycles UR is a client like the others;
* `UrRun.zeroed_once` — in such runs each buffer is cleared once, before UR goes on.
-/

namespace VanetTdma.Fpga

open SharedBus Clocked

namespace DescProcessor

variable {s : DescProcessor} {i : DpCycle} {k₀ : BurstClient}

/-! ### Arbiter and burst bus -/

/-- Arbiter and bus; `k` is the machine whose request was taken over last. -/
def burstBus (s : DescProcessor) (k : BurstClient) : Bus BurstClient BurstJob where
  hold := s.burstArb.hold BurstReq.job
  port := s.burst.port .dp k

def burstFound (s : DescProcessor) : Option (BurstClient × BurstJob) :=
  s.burstPick.map fun k => (k, (s.burstLatch k s.burstArb.req).job)

/-- The machine whose request was taken over last, after an edge. -/
def burstServer (s : DescProcessor) (i : DpCycle) (k : BurstClient) : BurstClient :=
  if s.burst.takes .dp (s.burstIn i) then s.burstArb.owner else k

def burstDone (s : DescProcessor) (i : DpCycle) (k₀ k : BurstClient) : List BurstJob :=
  if s.burst.dispatchType = .dp ∧ k₀ = k then (s.burst.completes (s.burstIn i)).toList else []

/-- Arbiter and bus are in step. -/
structure BurstInv (s : DescProcessor) (k₀ : BurstClient) : Prop where
  arb : s.burstArb.Ok
  bus : s.burst.Ported
  link : (s.burstBus k₀).Ok false

/-- **Arbiter and bus refine the shared bus.** -/
theorem BurstInv.burstBus_tick (h : s.BurstInv k₀) (i : DpCycle) :
    (s.tick i).burstBus (s.burstServer i k₀)
      = (s.burstBus k₀).tick false s.burstFound (s.burst.advances .dp (s.burstIn i)) := by
  refine congrArg₂ Bus.mk ?_ ?_
  · exact Arbiter.hold_tick h.arb (h.bus.port_ack (w := .dp) nofun).symm (h.bus.port_done (w := .dp) nofun).symm
  · rw [show (s.burstBus k₀).hold.offer = _ from h.arb.offer]
    exact h.bus.port_tick (w := .dp) nofun nofun

theorem burstInv_init : BurstInv {} .ur where
  arb := ⟨fun _ => rfl, nofun, fun _ => rfl⟩
  bus := BurstBus.ported_init
  link := .free (fun _ _ => nofun) nofun

theorem BurstInv.tick (h : s.BurstInv k₀) (i : DpCycle) : (s.tick i).BurstInv (s.burstServer i k₀) where
  arb := h.arb.tick
  bus := h.bus.tick
  link := by
    rw [h.burstBus_tick i]
    exact h.link.tick

/-! ### UR as a client -/

/-- UR has asked for a burst and has not seen a done pulse since. -/
def urAsked : UrState → Bool
  | .clrBuf | .hwPushbackStart | .hwPushbackMid | .waitClr => true
  | _ => false

/-- UR as a client of the burst bus: from the cycle in which the arbiter has taken its request over, the arbiter's hold
stands for the request that UR itself does not hold. -/
def urClient (s : DescProcessor) : Client BurstJob :=
  match s.ur.state with
  | .clrBuf => .fresh s.ur.burst.job
  | .hwPushbackStart | .hwPushbackMid | .waitClr =>
    if (s.burstArb.hold BurstReq.job).actsFor .ur then .calling s.ur.burst.job else .waiting
  | _ => .quiet

/-- The burst bus is free for UR when UR asks, and has not reported before UR begins to wait. -/
def Apart (s : DescProcessor) : Prop :=
  (s.ur.state = .clrBuf →
      s.burstArb.phase = .free ∧ (s.burst.dispatchState = .idle ∨ s.burst.dispatchType ≠ .dp))
    ∧ (s.ur.state = .hwPushbackStart ∨ s.ur.state = .hwPushbackMid → s.burst.doneDp = false)

instance (s : DescProcessor) : Decidable s.Apart := inferInstanceAs (Decidable (_ ∧ _))

end DescProcessor

/-- What the request of UR is. -/
structure Ur.Neat (m : Ur) : Prop where
  start : m.burst.start = (m.state = .clrBuf || m.state = .hwPushbackStart)
  type : DescProcessor.urAsked m.state = true → m.burst.ipicType = setZero

theorem Ur.Neat.tick {m : Ur} (h : m.Neat) (i : UrIn) : (m.tick i).Neat := by
  obtain ⟨hstart, htype⟩ := h
  unfold Ur.tick nextState
  cases hst : m.state <;> rw [hst] at hstart htype <;> dsimp only <;> (repeat' split) <;>
    refine ⟨?_, fun hask => ?_⟩ <;>
    first
    | exact hstart
    | rfl
    | exact htype rfl
    | exact nomatch hask

theorem Ur.job_tick (i : UrIn) (m : Ur) (h : (m.tick i).state ≠ .clrBuf) : (m.tick i).burst.job = m.burst.job := by
  unfold tick at *
  cases hn : m.nextState i <;> rw [hn] at h <;> first | rfl | exact absurd rfl h

theorem Irq.burst_tick (i : IrqIn) (m : Irq)
    (h : m.burst.start = true → m.state = .peekPktStart ∨ m.state = .peekPktMid) :
    (m.tick i).burst.start = true → (m.tick i).state = .peekPktStart ∨ (m.tick i).state = .peekPktMid := by
  unfold tick nextState
  cases hst : m.state <;> rw [hst] at h <;> dsimp only <;> (repeat' split) <;>
    first
    | exact fun _ => Or.inl rfl
    | exact fun _ => Or.inr rfl
    | exact fun hstart => (Bool.false_ne_true hstart).elim
    | exact fun hstart => (h hstart).elim nofun nofun

namespace DescProcessor

variable {s : DescProcessor} {i : DpCycle} {k₀ : BurstClient} {j : BurstJob}

/-- UR, the arbiter and the bus are in step. -/
structure UrInv (s : DescProcessor) (k₀ : BurstClient) : Prop extends BurstInv s k₀ where
  order : s.Order
  irq : s.irq.burst.start = true → s.irq.state = .peekPktStart ∨ s.irq.state = .peekPktMid
  ur : s.ur.Neat
  client : s.urClient.At True .ur (s.burstBus k₀)
  first : s.ur.state = .hwPushbackStart → (s.burstBus k₀).hold = .asking .ur s.ur.burst.job
  alone : ∀ j, (s.burstBus k₀).hold = .asking .ur j →
    (s.burstBus k₀).port = .away ∨ (s.burstBus k₀).port = .taken .ur j

theorem urInv_init : UrInv {} .ur where
  toBurstInv := burstInv_init
  order := order_init
  irq h := nomatch h
  ur := ⟨rfl, fun h => nomatch h⟩
  client := .idle nofun (fun _ => ⟨nofun, nofun⟩) fun _ => ⟨nofun, nofun⟩
  first h := nomatch h
  alone _ h := nomatch h

theorem BurstInv.hold_tick (h : s.BurstInv k₀) (i : DpCycle) :
    ((s.tick i).burstBus (s.burstServer i k₀)).hold
      = (s.burstBus k₀).hold.tick false s.burstFound (s.burstBus k₀).port := congrArg Bus.hold (h.burstBus_tick i)

theorem BurstInv.port_tick (h : s.BurstInv k₀) (i : DpCycle) :
    ((s.tick i).burstBus (s.burstServer i k₀)).port
      = (s.burstBus k₀).port.tick (s.burstBus k₀).hold.offer (s.burst.advances .dp (s.burstIn i)) :=
  congrArg Bus.port (h.burstBus_tick i)

theorem BurstInv.port_done (h : s.BurstInv k₀) : (s.burstBus k₀).port.done = s.burst.doneDp :=
  h.bus.port_done (w := .dp) nofun

theorem UrInv.irq_quiet (h : s.UrInv k₀) (hne : s.ur.state ≠ .idle) : s.irq.burst.start = false := by
  have hirq := h.order.ur hne
  by_contra hstart
  rw [Bool.not_eq_false] at hstart
  rcases h.irq hstart with hst | hst <;> rw [hirq] at hst <;> exact IrqState.noConfusion hst

theorem UrInv.job_burstLatch (h : s.UrInv k₀) (hask : urAsked s.ur.state = true) (r : BurstReq) :
    (s.burstLatch .ur r).job = s.ur.burst.job := by
  have htype := h.ur.type hask
  simp [burstLatch, BurstReq.job, htype, setZero, burstRd, burstWr]

theorem UrInv.shows_of_burstFound (h : s.UrInv k₀) (hfound : s.burstFound = some (.ur, j)) :
    (s.ur.state = .clrBuf ∨ s.ur.state = .hwPushbackStart) ∧ j = s.ur.burst.job := by
  obtain ⟨k, hpick, heq⟩ := Option.map_eq_some_iff.mp hfound
  obtain ⟨rfl, hj⟩ := Prod.mk.inj heq
  have hstart : s.ur.burst.start = true := by
    unfold burstPick at hpick
    repeat' split at hpick
    all_goals first | assumption | exact nomatch hpick
  rw [h.ur.start, Bool.or_eq_true, decide_eq_true_eq, decide_eq_true_eq] at hstart
  refine ⟨hstart, hj.symm.trans (h.job_burstLatch ?_ _)⟩
  rcases hstart with hst | hst <;> rw [hst] <;> rfl

/-- **The arbiter is free for UR and takes its request at once.** -/
theorem UrInv.hold_clrBuf (h : s.UrInv k₀) (ha : s.Apart) (hst : s.ur.state = .clrBuf) :
    ((s.tick i).burstBus (s.burstServer i k₀)).hold = .asking .ur s.ur.burst.job := by
  have hfree : (s.burstBus k₀).hold = .free := by
    simp only [burstBus, Arbiter.hold, (ha.1 hst).1]
  have hirq : s.irq.burst.start = false := h.irq_quiet (by rw [hst]; decide)
  have hstart : s.ur.burst.start = true := by rw [h.ur.start, hst]; rfl
  have hfound : s.burstFound = some (.ur, s.ur.burst.job) := by
    rw [burstFound, burstPick, hirq, hstart, if_neg Bool.false_ne_true, if_pos rfl, Option.map_some,
      h.job_burstLatch (by rw [hst]; rfl)]
  rw [h.hold_tick, hfree, hfound]
  rfl

theorem urClient_of_waits (k₀ : BurstClient)
    (hst : s.ur.state = .hwPushbackStart ∨ s.ur.state = .hwPushbackMid ∨ s.ur.state = .waitClr) :
    s.urClient
      = if (s.burstBus k₀).hold.actsFor .ur then .calling s.ur.burst.job else .waiting := by
  rcases hst with hst | hst | hst <;> rw [urClient, hst] <;> rfl

theorem UrInv.follows_waits (h : s.UrInv k₀) (i : DpCycle)
    (hst : s.ur.state = .hwPushbackStart ∨ s.ur.state = .hwPushbackMid ∨ s.ur.state = .waitClr)
    (hst' : (s.tick i).ur.state = .hwPushbackStart ∨ (s.tick i).ur.state = .hwPushbackMid
      ∨ (s.tick i).ur.state = .waitClr) (hdone : s.burst.doneDp = false) :
    s.urClient.Follows ((s.burstBus k₀).hold.acks .ur) s.burst.doneDp (s.tick i).urClient := by
  have hjob : (s.tick i).ur.burst.job = s.ur.burst.job := by
    refine s.ur.job_tick (s.urIn i) ?_
    rcases hst' with hst' | hst' | hst' <;> rw [show (s.ur.tick (s.urIn i)).state = _ from hst'] <;> nofun
  rw [urClient_of_waits k₀ hst, urClient_of_waits (s.burstServer i k₀) hst', hjob, h.hold_tick]
  cases hacts : (s.burstBus k₀).hold.actsFor .ur with
  | true =>
    obtain ⟨j, hj | hj⟩ := Hold.eq_of_actsFor hacts
    · rw [hj, Hold.actsFor_tick_asking]
      exact .calling rfl
    · rw [hj]
      exact .granted Hold.acks_acking
  | false =>
    -- UR asks no more, so the arbiter does not come to it again
    have hspares := Hold.spares_of_actsFor hacts
    have hspares' : ((s.burstBus k₀).hold.tick false s.burstFound (s.burstBus k₀).port).Spares .ur := by
      rcases hspares.tick with hs | ⟨j, hfound, -⟩
      · exact hs
      · obtain ⟨hclr | hstart, -⟩ := h.shows_of_burstFound hfound
        · rw [hclr] at hst
          rcases hst with hst | hst | hst <;> exact UrState.noConfusion hst
        · exact absurd (h.first hstart) (hspares _).1
    rw [Hold.actsFor_of_spares hspares']
    exact .wait hdone

/-- **In a cycle in which the burst bus keeps apart, UR behaves as a client that holds its request and waits for its own
pulse.** -/
theorem UrInv.follows (h : s.UrInv k₀) (ha : s.Apart) (i : DpCycle) :
    s.urClient.Follows ((s.burstBus k₀).hold.acks .ur) s.burst.doneDp (s.tick i).urClient := by
  have hnext : (s.tick i).ur.state = s.ur.nextState (s.urIn i) := Ur.act_state _ _ _
  unfold Ur.nextState at hnext
  cases hst : s.ur.state with
  | clrBuf =>
    rw [hst] at hnext
    have hstart : (s.tick i).ur.state = .hwPushbackStart := hnext
    have hjob : (s.tick i).ur.burst.job = s.ur.burst.job :=
      s.ur.job_tick (s.urIn i) (by rw [show (s.ur.tick (s.urIn i)).state = _ from hstart]; nofun)
    rw [urClient_of_waits (s.burstServer i k₀) (Or.inl hstart), h.hold_clrBuf ha hst, Hold.actsFor_asking, hjob,
      urClient, hst]
    exact .fresh
  | hwPushbackStart =>
    rw [hst] at hnext
    exact h.follows_waits i (Or.inl hst) (Or.inr (Or.inl hnext)) (ha.2 (Or.inl hst))
  | hwPushbackMid =>
    rw [hst] at hnext
    refine h.follows_waits i (Or.inr (Or.inl hst)) ?_ (ha.2 (Or.inr hst))
    dsimp only at hnext
    split at hnext
    · exact Or.inr (Or.inr hnext)
    · exact Or.inr (Or.inl hnext)
  | waitClr =>
    rw [hst] at hnext
    dsimp only at hnext
    split at hnext
    · rename_i hdone
      have hport : (s.burstBus k₀).port.done = true := h.port_done.trans hdone
      -- the pulse is not that of another machine, as the bus was free when UR asked
      have hacts : (s.burstBus k₀).hold.actsFor .ur = false := by
        by_contra hacts
        rw [Bool.not_eq_false] at hacts
        obtain ⟨j, hj | hj⟩ := Hold.eq_of_actsFor hacts
        · rcases h.alone j hj with hp | hp <;> rw [hp] at hport <;> exact Bool.noConfusion hport
        · rw [h.link.port_of_acking hj] at hport
          exact Bool.noConfusion hport
      rw [urClient_of_waits k₀ (Or.inr (Or.inr hst)), hacts]
      refine .leave hdone ?_
      rw [urClient, hnext]
      exact nofun
    · rename_i hdone
      rw [Bool.not_eq_true] at hdone
      exact h.follows_waits i (Or.inr (Or.inr hst)) (Or.inr (Or.inr hnext)) hdone
  | _ =>
    rw [hst] at hnext
    rw [urClient, hst]
    refine .quiet ?_
    dsimp only at hnext
    repeat' split at hnext
    all_goals
      rw [urClient, hnext]
      exact nofun

theorem UrInv.shows (h : s.UrInv k₀) (hfound : s.burstFound = some (.ur, j)) : s.urClient.shows = some j := by
  obtain ⟨hst, rfl⟩ := h.shows_of_burstFound hfound
  rcases hst with hst | hst
  · rw [urClient, hst]
    rfl
  · rw [urClient_of_waits k₀ (Or.inl hst), h.first hst, Hold.actsFor_asking]
    rfl

theorem UrInv.spares_of_done (h : s.UrInv k₀) (hdone : s.burst.doneDp = true) : (s.burstBus k₀).port.Spares .ur :=
  Port.spares_of_done (h.port_done.trans hdone) .ur

theorem Apart.port_away (ha : s.Apart) (hst : s.ur.state = .clrBuf) : (s.burstBus k₀).port = .away := by
  simp only [burstBus, BurstBus.port]
  rcases (ha.1 hst).2 with hidle | hother
  · rw [hidle]
    exact ite_self _
  · exact if_neg hother

theorem UrInv.alone_tick (h : s.UrInv k₀) (ha : s.Apart)
    (hj : ((s.tick i).burstBus (s.burstServer i k₀)).hold = .asking .ur j) :
    ((s.tick i).burstBus (s.burstServer i k₀)).port = .away
      ∨ ((s.tick i).burstBus (s.burstServer i k₀)).port = .taken .ur j := by
  rw [h.hold_tick] at hj
  rw [h.port_tick]
  rcases Hold.of_tick_asking hj with ⟨hfree, hfound⟩ | ⟨hasking, hack⟩
  · obtain ⟨hclr | hstart, -⟩ := h.shows_of_burstFound hfound
    · rw [ha.port_away hclr, hfree]
      exact Or.inl rfl
    · exact nomatch hfree.symm.trans (h.first hstart)
  · rcases h.alone j hasking with hp | hp
    · rw [hp, hasking]
      cases s.burst.advances .dp (s.burstIn i) with
      | true => exact Or.inr rfl
      | false => exact Or.inl rfl
    · rw [hp] at hack
      exact Bool.noConfusion hack

/-- **UR, the arbiter and the bus keep in step.** -/
theorem UrInv.tick (h : s.UrInv k₀) (ha : s.Apart) (i : DpCycle) : (s.tick i).UrInv (s.burstServer i k₀) where
  toBurstInv := h.toBurstInv.tick i
  order := h.order.tick i
  irq := s.irq.burst_tick (s.irqIn i) h.irq
  ur := h.ur.tick (s.urIn i)
  client := by
    rw [h.burstBus_tick i]
    exact h.client.tick h.link (h.follows ha i) h.spares_of_done (fun _ => h.port_done.symm) fun _ => h.shows
  first := by
    intro hstart
    have hclr : s.ur.state = .clrBuf := by
      have hnext : s.ur.nextState (s.urIn i) = .hwPushbackStart := (Ur.act_state _ _ _).symm.trans hstart
      unfold Ur.nextState at hnext
      cases hst : s.ur.state <;> rw [hst] at hnext <;> dsimp only at hnext <;> (repeat' split at hnext) <;>
        first | rfl | exact UrState.noConfusion hnext
    rw [h.hold_clrBuf ha hclr, show (s.tick i).ur.burst.job = s.ur.burst.job from
      s.ur.job_tick (s.urIn i) (by rw [show (s.ur.tick (s.urIn i)).state = _ from hstart]; nofun)]
  alone _ := h.alone_tick ha

/-- **The account of UR at one edge.** -/
theorem UrInv.ledger (h : s.UrInv k₀) (ha : s.Apart) (i : DpCycle) :
    s.urClient.pending .ur (s.burst.port .dp k₀) ++ s.urClient.asks (s.tick i).urClient
      = s.burstDone i k₀ .ur
        ++ (s.tick i).urClient.pending .ur ((s.tick i).burst.port .dp (s.burstServer i k₀)) := by
  have hport : (s.tick i).burst.port .dp (s.burstServer i k₀)
      = ((s.burstBus k₀).tick false s.burstFound (s.burst.advances .dp (s.burstIn i))).port := h.port_tick i
  rw [burstDone, ← h.bus.executes_port, hport]
  exact h.client.ledger h.link (h.follows ha i) h.spares_of_done

theorem UrInv.asks_eq_nil (h : s.UrInv k₀) (ha : s.Apart) (i : DpCycle) (hst' : (s.tick i).ur.state ≠ .clrBuf) :
    s.urClient.asks (s.tick i).urClient = [] := by
  have hnext : (s.tick i).ur.state = s.ur.nextState (s.urIn i) := Ur.act_state _ _ _
  unfold Ur.nextState at hnext
  by_cases hwaits : s.ur.state = .hwPushbackStart ∨ s.ur.state = .hwPushbackMid ∨ s.ur.state = .waitClr
  · have hf := h.follows ha i
    rw [urClient_of_waits k₀ hwaits] at hf ⊢
    split
    · rfl
    · rename_i hacts
      rw [if_neg hacts] at hf
      by_cases hdone : s.burst.doneDp = true
      · have hst : s.ur.state = .waitClr := by
          rcases hwaits with hst | hst | hst
          · exact Bool.noConfusion ((ha.2 (Or.inl hst)).symm.trans hdone)
          · exact Bool.noConfusion ((ha.2 (Or.inr hst)).symm.trans hdone)
          · exact hst
        rw [hst] at hnext
        dsimp only at hnext
        rw [if_pos (show (s.urIn i).ipicDone = true from hdone)] at hnext
        rw [urClient, hnext]
        rfl
      · generalize (s.tick i).urClient = c' at hf
        cases hf with
        | wait => rfl
        | leave hleave => exact absurd hleave hdone
  · cases hst : s.ur.state <;> rw [hst] at hnext hwaits
    case clrBuf => rw [urClient, hst]; rfl
    case hwPushbackStart | hwPushbackMid | waitClr => exact absurd hwaits (by simp)
    all_goals
      dsimp only at hnext
      repeat' split at hnext
      all_goals first | exact absurd hnext hst' | (rw [urClient, hst, urClient, hnext]; rfl)

theorem UrInv.asks_urClient (h : s.UrInv k₀) (ha : s.Apart) (i : DpCycle) :
    s.urClient.asks (s.tick i).urClient
      = if (s.tick i).ur.state = .clrBuf then [.setZero i.usedRxfifoDread cPktLen] else [] := by
  split
  · rename_i hst'
    have hjudge : s.ur.nextState (s.urIn i) = .clrBuf := (Ur.act_state _ _ _).symm.trans hst'
    have hur : (s.tick i).ur = s.ur.act (s.urIn i) .clrBuf := congrArg (s.ur.act _) hjudge
    have hst : s.ur.state = .judge := by
      unfold Ur.nextState at hjudge
      cases hst : s.ur.state <;> rw [hst] at hjudge <;> dsimp only at hjudge <;> (repeat' split at hjudge) <;>
        first | rfl | exact UrState.noConfusion hjudge
    rw [urClient, hst, urClient, hst', hur]
    rfl
  · exact h.asks_eq_nil ha i ‹_›

end DescProcessor

/-! ### The types of the bursts -/

open BurstReq

theorem Irq.burstType_tick (i : IrqIn) (m : Irq) (h : TypeOk m.burst.ipicType) :
    TypeOk (m.tick i).burst.ipicType := by
  unfold tick
  cases m.nextState i <;> first | exact h | exact Or.inl rfl

theorem Ur.burstType_tick (i : UrIn) (m : Ur) (h : TypeOk m.burst.ipicType) : TypeOk (m.tick i).burst.ipicType := by
  unfold tick
  cases m.nextState i <;> first | exact h | exact Or.inr (Or.inr (Or.inl rfl))

theorem Esdur.burstType_tick (i : EsdurIn) (m : Esdur) (h : TypeOk m.burst.ipicType) :
    TypeOk (m.tick i).burst.ipicType := by
  unfold tick
  repeat' split
  all_goals first | exact h | exact Or.inr (Or.inr (Or.inr (Or.inl rfl)))

/-- All that the burst bus is asked for by `desc_processor` is known to it. -/
structure DescProcessor.BurstSound (s : DescProcessor) : Prop where
  reqs : ∀ k, TypeOk (s.burstReq k).ipicType
  arb : TypeOk s.burstArb.req.ipicType
  bus : s.burst.Sound

theorem DescProcessor.burstSound_init : BurstSound {} where
  reqs k := by cases k <;> exact Or.inl rfl
  arb := Or.inl rfl
  bus := ⟨fun h => absurd rfl h, nofun⟩

theorem DescProcessor.type_burstLatch (s : DescProcessor) (k : BurstClient) (r : BurstReq) :
    (s.burstLatch k r).ipicType = (s.burstReq k).ipicType := by
  cases k <;> rfl

theorem DescProcessor.BurstSound.tick {s : DescProcessor} {i : DpCycle} (h : s.BurstSound) (hbus : s.burst.Ported)
    (htc : i.tcBurst.start = true → TypeOk i.tcBurst.ipicType) : (s.tick i).BurstSound where
  reqs k := by
    cases k with
    | irq => exact s.irq.burstType_tick (s.irqIn i) (h.reqs .irq)
    | ur => exact s.ur.burstType_tick (s.urIn i) (h.reqs .ur)
    | esdur => exact s.esdur.burstType_tick (s.esdurIn i) (h.reqs .esdur)
  arb := by
    change TypeOk (s.burstArb.tick false s.burstLatch s.burstPick s.burst.ackDp s.burst.doneDp).req.ipicType
    unfold Arbiter.tick
    repeat' split
    all_goals first | exact h.arb | (rw [type_burstLatch]; exact h.reqs _)
  bus := h.bus.tick hbus htc fun _ => h.arb

/-! ### Runs -/

/-- A run with the machine whose burst was taken over last, the addresses that UR has taken from its FIFO, and the bursts
that were carried out for it. -/
structure UrRun where
  s : DescProcessor := {}
  server : BurstClient := .ur
  popped : List (BitVec 32) := []
  zeroed : List BurstJob := []

namespace UrRun

/-- One edge.  UR takes an address as it enters UR_CLR_BUF. -/
def tick (r : UrRun) (i : DpCycle) : UrRun where
  s := r.s.tick i
  server := r.s.burstServer i r.server
  popped := if (r.s.tick i).ur.state = .clrBuf then r.popped ++ [i.usedRxfifoDread] else r.popped
  zeroed := r.zeroed ++ r.s.burstDone i r.server .ur

/-- The bursts that clear the buffers taken from the FIFO. -/
def wanted (r : UrRun) : List BurstJob := r.popped.map fun addr => .setZero addr cPktLen

/-- The burst that is still to be carried out. -/
def pending (r : UrRun) : List BurstJob := r.s.urClient.pending .ur (r.s.burst.port .dp r.server)

/-- The invariant with the ledger. -/
structure Inv (r : UrRun) : Prop where
  inv : r.s.UrInv r.server
  ledger : r.wanted = r.zeroed ++ r.pending

theorem inv_init : Inv {} where
  inv := DescProcessor.urInv_init
  ledger := rfl

theorem wanted_tick {r : UrRun} (h : r.Inv) (ha : r.s.Apart) (i : DpCycle) :
    (r.tick i).wanted = r.wanted ++ r.s.urClient.asks (r.s.tick i).urClient := by
  rw [h.inv.asks_urClient ha, wanted, tick]
  split
  · rw [List.map_append]
    rfl
  · rw [List.append_nil]
    rfl

theorem Inv.tick {r : UrRun} (h : r.Inv) (ha : r.s.Apart) (i : DpCycle) : (r.tick i).Inv where
  inv := h.inv.tick ha i
  ledger := by
    calc (r.tick i).wanted
        = r.zeroed ++ (r.pending ++ r.s.urClient.asks (r.s.tick i).urClient) := by
          rw [wanted_tick h ha, h.ledger, List.append_assoc]
      _ = r.zeroed ++ (r.s.burstDone i r.server .ur ++ (r.tick i).pending) := by
          rw [pending, h.inv.ledger ha i]
          rfl
      _ = (r.tick i).zeroed ++ (r.tick i).pending := (List.append_assoc _ _ _).symm

variable {inp : ℕ → DpCycle} {n : ℕ} {j : BurstJob}

theorem inv_trace (ha : ∀ m < n, (trace tick inp {} m).s.Apart) : (trace tick inp {} n).Inv :=
  trace_invariant inv_init (fun r i h (ha : r.s.Apart) => h.tick ha i) ha

theorem pending_of_judge {r : UrRun} (h : DescProcessor.urAsked r.s.ur.state = false) : r.pending = [] := by
  unfold pending DescProcessor.urClient
  cases hst : r.s.ur.state <;> rw [hst] at h <;> first | rfl | exact Bool.noConfusion h

/-! ### No buffer is left -/

/-- The AXI master answers again and again, and `tdma_control` asks for transactions that the bus knows and gives way for
a cycle after each of them. -/
structure Fair (inp : ℕ → DpCycle) : Prop where
  cmdack : ∀ n, ∃ m, n ≤ m ∧ (inp m).burstCmdack = true
  cmplt : ∀ n, ∃ m, n ≤ m ∧ (inp m).burstCmplt = true
  srcRdy : ∀ n, ∃ m, n ≤ m ∧ (inp m).burstMstrdSrcRdyN = false
  dstRdy : ∀ n, ∃ m, n ≤ m ∧ (inp m).burstMstwrDstRdyN = false
  tcType : ∀ n, (inp n).tcBurst.start = true → TypeOk (inp n).tcBurst.ipicType
  tcYields : ∀ n, (trace tick inp {} n).s.burst.Reports .tc → (inp (n + 1)).tcBurst.start = false

/-- Arbiter and bus in cycle `n`. -/
def busAt (inp : ℕ → DpCycle) (n : ℕ) : Bus BurstClient BurstJob :=
  (trace tick inp {} n).s.burstBus (trace tick inp {} n).server

theorem burstInv_trace (inp : ℕ → DpCycle) (n : ℕ) :
    (trace tick inp {} n).s.BurstInv (trace tick inp {} n).server := by
  induction n with
  | zero => exact DescProcessor.burstInv_init
  | succ n ih => exact ih.tick (inp n)

theorem Fair.burstSound (h : Fair inp) (n : ℕ) : (trace tick inp {} n).s.BurstSound := by
  induction n with
  | zero => exact DescProcessor.burstSound_init
  | succ n ih => exact ih.tick (burstInv_trace inp n).bus (h.tcType n)

theorem Fair.answered (h : Fair inp) :
    BurstBus.Answered (fun n => (trace tick inp {} n).s.burst)
      fun n => (trace tick inp {} n).s.burstIn (inp n) where
  tick _ := rfl
  ported n := (burstInv_trace inp n).bus
  sound n := (h.burstSound n).bus
  answer st n := by
    cases st <;>
      first
      | exact ⟨n, Nat.le_refl n, rfl⟩
      | exact h.cmdack n
      | exact h.cmplt n
      | (obtain ⟨m, hle, hm⟩ := h.srcRdy n; exact ⟨m, hle, congrArg not hm⟩)
      | (obtain ⟨m, hle, hm⟩ := h.dstRdy n; exact ⟨m, hle, congrArg not hm⟩)

theorem Fair.busRun (h : Fair inp) :
    BusRun false (busAt inp) (fun n => (trace tick inp {} n).s.burstFound)
      fun n => (trace tick inp {} n).s.burst.advances .dp ((trace tick inp {} n).s.burstIn (inp n)) where
  ok n := (burstInv_trace inp n).link
  tick n := (burstInv_trace inp n).burstBus_tick (inp n)
  turn n := by
    obtain ⟨m, hle, hidle, htc⟩ := h.answered.exists_idle_dp h.tcYields n
    refine ⟨m, hle, ?_, ?_⟩
    · change (trace tick inp {} m).s.burst.port .dp _ = _
      simp only [BurstBus.port, hidle, ite_self]
    · simp only [BurstBus.advances, hidle, BurstBusIn.grants, htc, Bool.not_false]

theorem Inv.urClient_of_ended {r : UrRun} (h : r.Inv) (ha : r.s.Apart)
    (hp : (r.s.burstBus r.server).port = .ended .ur j) : r.s.urClient = .quiet ∨ r.s.urClient = .waiting := by
  by_cases hwaits : r.s.ur.state = .hwPushbackStart ∨ r.s.ur.state = .hwPushbackMid ∨ r.s.ur.state = .waitClr
  · rw [DescProcessor.urClient_of_waits r.server hwaits]
    split
    · rename_i hacts
      obtain ⟨j', hj' | hj'⟩ := Hold.eq_of_actsFor hacts
      · rcases h.inv.alone j' hj' with hp' | hp' <;> cases hp'.symm.trans hp
      · cases (h.inv.link.port_of_acking hj').symm.trans hp
    · exact Or.inr rfl
  · rw [DescProcessor.urClient]
    cases hst : r.s.ur.state <;> rw [hst] at hwaits
    case clrBuf =>
      have haway : (r.s.burstBus r.server).port = .away := ha.port_away hst
      cases haway.symm.trans hp
    case hwPushbackStart | hwPushbackMid | waitClr => exact absurd hwaits (by simp)
    all_goals exact Or.inl rfl

theorem Inv.pending_of_ended {r : UrRun} (h : r.Inv) (ha : r.s.Apart)
    (hp : (r.s.burstBus r.server).port = .ended .ur j) : r.pending = [] := by
  rcases h.urClient_of_ended ha hp with hc | hc
  · rw [pending, hc]
    rfl
  · rw [pending, hc, show r.s.burst.port .dp r.server = .ended .ur j from hp]
    rfl

theorem Inv.of_pending {r : UrRun} (h : r.Inv) (hne : r.pending ≠ []) :
    r.s.ur.state = .clrBuf ∨ (∃ j, (r.s.burstBus r.server).hold = .asking .ur j)
      ∨ ∃ j, (r.s.burstBus r.server).port = .busy .ur j := by
  by_cases hwaits : r.s.ur.state = .hwPushbackStart ∨ r.s.ur.state = .hwPushbackMid ∨ r.s.ur.state = .waitClr
  · rw [pending, DescProcessor.urClient_of_waits r.server hwaits] at hne
    split at hne
    · rename_i hacts
      obtain ⟨j, hj | hj⟩ := Hold.eq_of_actsFor hacts
      · exact Or.inr (Or.inl ⟨j, hj⟩)
      · exact Or.inr (Or.inr ⟨j, h.inv.link.port_of_acking hj⟩)
    · cases hp : r.s.burst.port .dp r.server with
      | busy k j =>
        rw [hp] at hne
        by_cases hk : k = .ur
        · subst hk
          exact Or.inr (Or.inr ⟨j, hp⟩)
        · exact absurd (if_neg hk) hne
      | _ => rw [hp] at hne; exact absurd rfl hne
  · by_cases hst : r.s.ur.state = .clrBuf
    · exact Or.inl hst
    · refine absurd (pending_of_judge ?_) hne
      revert hwaits hst
      cases r.s.ur.state <;> simp [DescProcessor.urAsked]

/-- **No burst of UR is left standing.** -/
theorem Fair.exists_not_pending (h : Fair inp) (ha : ∀ n, (trace tick inp {} n).s.Apart) (n : ℕ) :
    ∃ m, n ≤ m ∧ (trace tick inp {} m).pending = [] := by
  have hinv : ∀ n, (trace tick inp {} n).Inv := fun n => inv_trace fun m _ => ha m
  have hbusy : ∀ n j, (busAt inp n).port = .busy .ur j → ∃ m, n ≤ m ∧ (trace tick inp {} m).pending = [] := by
    intro n j hn
    obtain ⟨m, hle, hended, -⟩ := h.busRun.exists_ended hn
    exact ⟨m + 1, by omega, (hinv (m + 1)).pending_of_ended (ha (m + 1)) hended⟩
  have hasking : ∀ n j, (busAt inp n).hold = .asking .ur j → ∃ m, n ≤ m ∧ (trace tick inp {} m).pending = [] := by
    intro n j hn
    obtain ⟨m, hle, hack, -⟩ := h.busRun.exists_acking hn
    obtain ⟨m', hle', hm'⟩ := hbusy (m + 1) j ((h.busRun.ok (m + 1)).port_of_acking hack)
    exact ⟨m', by omega, hm'⟩
  by_cases hne : (trace tick inp {} n).pending = []
  · exact ⟨n, Nat.le_refl n, hne⟩
  · rcases (hinv n).of_pending hne with hst | ⟨j, hj⟩ | ⟨j, hj⟩
    · obtain ⟨m, hle, hm⟩ := hasking (n + 1) _ ((hinv n).inv.hold_clrBuf (ha n) hst)
      exact ⟨m, by omega, hm⟩
    · exact hasking n j hj
    · exact hbusy n j hj

theorem wanted_grows (ha : ∀ n, (trace tick inp {} n).s.Apart) (n : ℕ) :
    (trace tick inp {} n).wanted <+: (trace tick inp {} (n + 1)).wanted := by
  refine ⟨_, (wanted_tick (inv_trace fun m _ => ha m) (ha n) (inp n)).symm⟩

/-- **Each used buffer is cleared once, before UR goes on**, in every run in whose cycles the burst bus keeps apart: what
was carried out for UR is the clearing of the buffers that it has taken, in that order, except for at most the last of
them, and without exception whenever UR looks for the next one; and when the AXI master answers and `tdma_control` gives
way, every buffer is cleared. -/
theorem zeroed_once (inp : ℕ → DpCycle) (ha : ∀ n, (trace tick inp {} n).s.Apart) :
    (∀ n, ∃ rest : List BurstJob, (trace tick inp {} n).wanted = (trace tick inp {} n).zeroed ++ rest
        ∧ rest.length ≤ 1 ∧ ((trace tick inp {} n).s.ur.state = .judge → rest = []))
      ∧ (Fair inp → Delivered (fun n => (trace tick inp {} n).wanted) fun n => (trace tick inp {} n).zeroed) := by
  refine ⟨fun n => ?_, fun hfair => ?_⟩
  · refine ⟨(trace tick inp {} n).pending, (inv_trace fun m _ => ha m).ledger, Client.length_pending, fun hst => ?_⟩
    exact pending_of_judge (by rw [hst]; rfl)
  · exact delivered_of_pending (fun n => (inv_trace fun m _ => ha m).ledger) (wanted_grows ha)
      (hfair.exists_not_pending ha)

/-- The card interrupts once, one used buffer is waiting, and the AXI master answers at once; `esdur` says when Linux'
FIFO has a descriptor for ESDUR to look at. -/
def usedInp (esdur : ℕ → Bool) (n : ℕ) : DpCycle where
  irqIn := n < 3
  irqCounter := 1
  liteCmdack := true
  liteCmplt := true
  liteMstrdD := arIntrMacIrq ||| arIsrHpRxok
  burstCmdack := true
  burstCmplt := true
  burstMstrdSrcRdyN := false
  burstMstwrDstRdyN := false
  usedRxfifoValid := n < 190
  usedRxfifoDread := 0x1000
  fifoValid := esdur n

theorem fair_usedInp (esdur : ℕ → Bool) : Fair (usedInp esdur) where
  cmdack n := ⟨n, Nat.le_refl n, rfl⟩
  cmplt n := ⟨n, Nat.le_refl n, rfl⟩
  srcRdy n := ⟨n, Nat.le_refl n, rfl⟩
  dstRdy n := ⟨n, Nat.le_refl n, rfl⟩
  tcType _ h := nomatch h
  tcYields _ _ := rfl

theorem resting_usedInp (esdur : ℕ → Bool) {n : ℕ} (hn : 218 ≤ n)
    (h : (trace tick (usedInp esdur) {} 218).s.irq.state = .idle
      ∧ (trace tick (usedInp esdur) {} 218).s.irq.irqStartPushback = false
      ∧ (trace tick (usedInp esdur) {} 218).s.ur.state = .idle) :
    (trace tick (usedInp esdur) {} n).s.irq.state = .idle
      ∧ (trace tick (usedInp esdur) {} n).s.irq.irqStartPushback = false
      ∧ (trace tick (usedInp esdur) {} n).s.ur.state = .idle := by
  induction n, hn using Nat.le_induction with
  | base => exact h
  | succ n hn ih =>
    obtain ⟨hirq, hpush, hur⟩ := ih
    have hlow : ((trace tick (usedInp esdur) {} n).s.irqIn (usedInp esdur n)).irqIn = false :=
      decide_eq_false (by omega)
    have hnext : (trace tick (usedInp esdur) {} n).s.irq.nextState
        ((trace tick (usedInp esdur) {} n).s.irqIn (usedInp esdur n)) = .idle := by
      rw [Irq.nextState, hirq]
      dsimp only
      rw [hlow, if_neg Bool.false_ne_true]
    have hstay : (trace tick (usedInp esdur) {} (n + 1)).s.irq
        = (trace tick (usedInp esdur) {} n).s.irq.act _ .idle := congrArg (Irq.act _ _) hnext
    refine ⟨by rw [hstay]; rfl, by rw [hstay]; exact hpush, ?_⟩
    change Ur.state (Ur.tick _ (trace tick (usedInp esdur) {} n).s.ur) = .idle
    rw [Ur.tick, Ur.act_state, Ur.nextState, hur]
    exact if_neg (by rw [show UrIn.irqStartPushback _ = _ from hpush]; exact Bool.false_ne_true)

/-- While ESDUR has nothing to do, the buffer is cleared. -/
theorem zeroed_once_alone :
    (trace tick (usedInp fun _ => false) {} 216).zeroed = [.setZero 0x1000 256]
      ∧ Delivered (fun n => (trace tick (usedInp fun _ => false) {} n).wanted)
        fun n => (trace tick (usedInp fun _ => false) {} n).zeroed := by
  refine ⟨by decide +kernel, (zeroed_once _ fun n => ?_).2 (fair_usedInp _)⟩
  have hfirst : ∀ n < 218, (trace tick (usedInp fun _ => false) {} n).s.Apart := by decide +kernel
  by_cases hn : n < 218
  · exact hfirst n hn
  · have hidle := (resting_usedInp (fun _ => false) (Nat.le_of_not_lt hn) (by decide +kernel)).2.2
    refine ⟨fun hst => ?_, fun hst => ?_⟩
    · exact nomatch hidle.symm.trans hst
    · rcases hst with hst | hst <;> exact nomatch hidle.symm.trans hst

/-- When ESDUR's request is with the arbiter as UR asks, the request of UR is lost, and UR takes the pulse of ESDUR for
its own: it looks for the next buffer with the first one not cleared. -/
theorem zeroed_lost :
    (trace tick (usedInp fun n => 141 ≤ n) {} 154).s.ur.state = .judge
      ∧ (trace tick (usedInp fun n => 141 ≤ n) {} 154).popped = [0x1000]
      ∧ (trace tick (usedInp fun n => 141 ≤ n) {} 154).zeroed = [] := by
  decide +kernel

end UrRun

end VanetTdma.Fpga
