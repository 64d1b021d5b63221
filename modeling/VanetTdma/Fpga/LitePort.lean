import VanetTdma.Lib.SharedBus
import VanetTdma.Fpga.LiteBus

/-!
# The lite bus as a shared port

The lite bus as the machines of `desc_processor` (DP) see it: a port that takes a request over, carries it out on the
AXI master and reports.  Requests of `tdma_control` are served in between; for DP the port is away then.

* `LiteBus.completes` — the transaction that the AXI master completes at an edge;
* `LiteBus.Ported.tick` — the registers of the AXI master are those of the request in hand;
* `LiteBus.port_tick`, `LiteBus.executes_port` — the bus refines the abstract port.
-/

namespace VanetTdma.Fpga

open SharedBus

/-- What a transaction does. -/
inductive LiteJob where
  | read (addr : BitVec 32)
  | write (addr data : BitVec 32)
  | unknown (ipicType : BitVec 3)
deriving DecidableEq

/-- The transaction that the registers of a request describe. -/
def LiteJob.of (ipicType : BitVec 3) (readAddr writeAddr writeData : BitVec 32) : LiteJob :=
  if ipicType = singleRd then .read readAddr
  else if ipicType = singleWr then .write writeAddr writeData
  else .unknown ipicType

def LiteReq.job (r : LiteReq) : LiteJob := .of r.ipicType r.readAddr r.writeAddr r.writeData

namespace LiteBus

def job (b : LiteBus) : LiteJob := .of b.ipicType b.readAddr b.writeAddr b.writeData

/-- In the course of a transaction the AXI master has the address and the data of the request in hand. -/
def Drives (b : LiteBus) : Prop :=
  match b.state with
  | .singleRdWait | .singleRdRcvWait => b.ipicType = singleRd ∧ b.mstAddr = b.readAddr
  | .singleWrWait | .singleWrWrWait =>
    b.ipicType = singleWr ∧ b.mstAddr = b.writeAddr ∧ b.mstwrD = b.writeData
  | _ => True

/-- The transaction that the AXI master completes at this edge. -/
def completes (i : LiteBusIn) (b : LiteBus) : Option LiteJob :=
  match b.state with
  | .singleRdRcvWait => if i.cmplt then some (.read b.mstAddr) else none
  | .singleWrWrWait => if i.cmplt then some (.write b.mstAddr b.mstwrD) else none
  | _ => none

def takesDp (i : LiteBusIn) (b : LiteBus) : Bool :=
  b.dispatchState = .idle && !i.tc.start && i.dp.start

/-- The bus as DP sees it; `k` is the machine whose request was taken over last. -/
def port {κ : Type*} (k : κ) (b : LiteBus) : Port κ LiteJob :=
  if b.dispatchType = .dp then
    match b.dispatchState with
    | .idle => .away
    | .serving => if b.ipicStart then .taken k b.job else if b.ipicDone then .ended k b.job else .busy k b.job
    | .reporting => .reporting k b.job
  else .away

/-- Whether the port takes a request over or completes it. -/
def advances (i : LiteBusIn) (b : LiteBus) : Bool :=
  match b.dispatchState with
  | .idle => !i.tc.start
  | _ => b.dispatchType = .dp && (b.completes i).isSome

/-- What DP relies on. -/
structure Ported (b : LiteBus) : Prop extends Ok b where
  ackDp : b.ackDp = (b.ipicStart && b.dispatchType = .dp)
  doneDp : b.doneDp = (b.dispatchState = .reporting && b.dispatchType = .dp)
  drives : b.Drives

theorem ported_init : Ported {} where
  toOk := ok_init
  ackDp := rfl
  doneDp := rfl
  drives := trivial

variable {κ : Type*} {k k' s : κ} {b : LiteBus} {i : LiteBusIn} {j : LiteJob}

@[simp] theorem enter_ackDp (b b' : LiteBus) (st : IpicState) : (enter b b' st).ackDp = b'.ackDp := by
  cases st <;> rfl

@[simp] theorem enter_doneDp (b b' : LiteBus) (st : IpicState) : (enter b b' st).doneDp = b'.doneDp := by
  cases st <;> rfl

@[simp] theorem enter_job (b b' : LiteBus) (st : IpicState) : (enter b b' st).job = b'.job := by
  cases st <;> rfl

theorem Drives.of_idle (h : b.state = .idle) : b.Drives := by
  simp only [Drives, h]

theorem Drives.tick_serving (h : b.Drives) (hd : b.dispatchState = .serving) (hdone : b.ipicDone = false) :
    (b.tick i).Drives := by
  rw [LiteBus.tick_serving hd hdone]
  unfold Drives at h
  cases hst : b.state with
  | idle => simp only [nextIpicState, hst]; split <;> exact trivial
  | dispatch =>
    simp only [nextIpicState, hst]
    split
    · exact ⟨‹_›, rfl⟩
    split
    · exact ⟨‹_›, rfl, rfl⟩
    · exact trivial
  | singleRdWait =>
    rw [hst] at h
    simp only [nextIpicState, hst]
    split
    · exact h
    · exact ⟨h.1, rfl⟩
  | singleRdRcvWait =>
    rw [hst] at h
    simp only [nextIpicState, hst]
    split
    · exact trivial
    · exact h
  | singleWrWait =>
    rw [hst] at h
    simp only [nextIpicState, hst]
    split
    · exact h
    · exact ⟨h.1, rfl, rfl⟩
  | singleWrWrWait =>
    rw [hst] at h
    simp only [nextIpicState, hst]
    split
    · exact trivial
    · exact h
  | _ => simp only [nextIpicState, hst]; exact trivial

theorem Drives.job_of_completes (h : b.Drives) (hj : b.completes i = some j) : j = b.job := by
  unfold completes at hj
  split at hj
  case h_1 hst =>
    rw [Drives, hst] at h
    split at hj
    · rw [← Option.some.inj hj, job, LiteJob.of, if_pos h.1, h.2]
    · exact nomatch hj
  case h_2 hst =>
    rw [Drives, hst] at h
    have hne : b.ipicType ≠ singleRd := by rw [h.1]; decide
    split at hj
    · rw [← Option.some.inj hj, job, LiteJob.of, if_neg hne, if_pos h.1, h.2.1, h.2.2]
    · exact nomatch hj
  case h_3 => exact nomatch hj

theorem completes_of_idle (h : b.state = .idle) : b.completes i = none := by
  simp only [completes, h]

theorem completes_of_ended (h : b.state = .singleRdEnd ∨ b.state = .singleWrEnd) : b.completes i = none := by
  rcases h with h | h <;> simp only [completes, h]

theorem tick_serving_keeps (hd : b.dispatchState = .serving) (hdone : b.ipicDone = false) :
    (b.tick i).dispatchType = b.dispatchType ∧ (b.tick i).dispatchState = .serving
      ∧ (b.tick i).ipicStart = false ∧ (b.tick i).job = b.job := by
  rw [LiteBus.tick_serving hd hdone]
  refine ⟨enter_dispatchType _ _ _, ?_, enter_ipicStart _ _ _, enter_job _ _ _⟩
  rw [enter_dispatchState]
  exact hd

theorem ipicDone_tick_serving (hd : b.dispatchState = .serving) (hidle : b.state ≠ .idle)
    (hrd : b.state ≠ .singleRdEnd) (hwr : b.state ≠ .singleWrEnd) (hdone : b.ipicDone = false) :
    (b.tick i).ipicDone = (b.completes i).isSome := by
  rw [LiteBus.tick_serving hd hdone]
  cases hst : b.state with
  | idle => exact absurd hst hidle
  | singleRdEnd => exact absurd hst hrd
  | singleWrEnd => exact absurd hst hwr
  | dispatch =>
    simp only [nextIpicState, completes, hst]
    split
    · exact hdone
    split
    · exact hdone
    · exact hdone
  | error => simp only [nextIpicState, completes, hst]; exact hdone
  | singleRdWait => simp only [nextIpicState, completes, hst]; split <;> exact hdone
  | singleWrWait => simp only [nextIpicState, completes, hst]; split <;> exact hdone
  | singleRdRcvWait =>
    simp only [nextIpicState, completes, hst]
    split
    · rfl
    · exact hdone
  | singleWrWrWait =>
    simp only [nextIpicState, completes, hst]
    split
    · rfl
    · exact hdone

/-- **What DP relies on is kept.** -/
theorem Ported.tick (h : Ported b) : Ported (b.tick i) := by
  suffices hdp : (b.tick i).ackDp = ((b.tick i).ipicStart && (b.tick i).dispatchType = .dp)
      ∧ (b.tick i).doneDp = ((b.tick i).dispatchState = .reporting && (b.tick i).dispatchType = .dp)
      ∧ (b.tick i).Drives from
    ⟨h.toOk.tick, hdp.1, hdp.2.1, hdp.2.2⟩
  have hack := h.ackDp
  have hdn := h.doneDp
  cases h.phase with
  | rest hd hs hst hdone =>
    rw [hs, Bool.false_and] at hack
    rw [hd] at hdn
    rw [tick_rest hd hs hst]
    split
    · exact ⟨hack, hdn, .of_idle rfl⟩
    split
    · exact ⟨rfl, hdn, .of_idle rfl⟩
    · exact ⟨by rw [hack, hs]; rfl, by rw [hdn, hd], .of_idle rfl⟩
  | started hd hs hst hdone =>
    rw [hd] at hdn
    refine ⟨?_, ?_, h.drives.tick_serving hd hdone⟩
    · simp [LiteBus.tick_serving hd hdone]
    · simp [LiteBus.tick_serving hd hdone, hd, hdn]
  | working hd hs hidle hrd hwr hdone =>
    rw [hd] at hdn
    refine ⟨?_, ?_, h.drives.tick_serving hd hdone⟩
    · simp [LiteBus.tick_serving hd hdone]
    · simp [LiteBus.tick_serving hd hdone, hd, hdn]
  | ended hd hs hst hdone =>
    rw [hd] at hdn
    rw [tick_ended hd hdone hst]
    refine ⟨rfl, ?_, .of_idle rfl⟩
    simp only [hdn]
    split <;> simp [*]
  | reported hd hs hst hdone =>
    rw [hs, Bool.false_and] at hack
    rw [tick_reported hd hs hst]
    exact ⟨by rw [hack, hs]; rfl, rfl, .of_idle rfl⟩

theorem Ported.port_ack (h : Ported b) : (b.port k).ack = b.ackDp := by
  rw [h.ackDp, port]
  cases h.phase with
  | rest hd hs => rw [hd, hs]; split <;> rfl
  | started hd hs => rw [hd, hs]; split <;> simp [Port.ack, *]
  | working hd hs _ _ _ hdone => rw [hd, hs, hdone]; split <;> rfl
  | ended hd hs _ hdone => rw [hd, hs, hdone]; split <;> rfl
  | reported hd hs => rw [hd, hs]; split <;> rfl

theorem Ported.port_done (h : Ported b) : (b.port k).done = b.doneDp := by
  rw [h.doneDp, port]
  cases h.phase with
  | rest hd hs => rw [hd]; split <;> rfl
  | started hd hs => rw [hd, hs]; split <;> rfl
  | working hd hs _ _ _ hdone => rw [hd, hs, hdone]; split <;> rfl
  | ended hd hs _ hdone => rw [hd, hs, hdone]; split <;> rfl
  | reported hd hs => rw [hd]; split <;> simp [Port.done, *]

theorem Ported.nextIpicState_idle (h : Ported b) (hp : b.port s = .ended k j ∨ b.port s = .reporting k j) :
    b.nextIpicState i = .idle := by
  unfold port at hp
  split at hp
  case isFalse => rcases hp with hp | hp <;> exact nomatch hp
  case isTrue =>
    cases h.phase with
    | rest hd => rw [hd] at hp; rcases hp with hp | hp <;> exact nomatch hp
    | started hd hs => rw [hd, hs] at hp; rcases hp with hp | hp <;> exact nomatch hp
    | working hd hs _ _ _ hdone => rw [hd, hs, hdone] at hp; rcases hp with hp | hp <;> exact nomatch hp
    | ended hd hs hst => rcases hst with hst | hst <;> simp only [nextIpicState, hst]
    | reported hd hs hst => simp only [nextIpicState, hst, hs, Bool.false_eq_true, if_false]

theorem nextIpicState_of_read {a : BitVec 32} (h : b.completes i = some (.read a)) :
    b.nextIpicState i = .singleRdEnd := by
  unfold completes at h
  split at h
  case h_1 hst =>
    split at h
    · simp only [nextIpicState, if_true, *]
    · cases h
  case h_2 => split at h <;> cases h
  case h_3 => cases h

theorem server_of_reporting (h : b.port s = .reporting k j) : s = k := by
  unfold port at h
  repeat' split at h
  all_goals
    cases h
    try rfl

theorem port_of_not_dp (h : b.dispatchType ≠ .dp) : b.port k = .away := if_neg h

theorem Ported.state_ne_idle (h : Ported b) (hp : b.port s = .busy k j) : b.state ≠ .idle := by
  unfold port at hp
  split at hp
  case isFalse => exact nomatch hp
  case isTrue =>
    cases h.phase with
    | rest hd => rw [hd] at hp; exact nomatch hp
    | started hd hs => rw [hd, hs] at hp; exact nomatch hp
    | working _ _ hidle => exact hidle
    | ended hd hs _ hdone => rw [hd, hs, hdone] at hp; exact nomatch hp
    | reported hd => rw [hd] at hp; exact nomatch hp

theorem advances_of_not_dp (hd : b.dispatchState ≠ .idle) (h : b.dispatchType ≠ .dp) : b.advances i = false := by
  unfold advances
  split
  · exact absurd ‹_› hd
  · rw [decide_eq_false h, Bool.false_and]

theorem port_tick_of_tc {offer : Option (κ × LiteJob)} (hd : b.dispatchState ≠ .idle) (h : b.dispatchType ≠ .dp)
    (htype : (b.tick i).dispatchType = b.dispatchType) :
    (b.tick i).port k' = (b.port k).tick offer (b.advances i) := by
  rw [advances_of_not_dp hd h, port_of_not_dp h, Port.away_tick_false]
  exact port_of_not_dp (by rw [htype]; exact h)

/-- **The lite bus is a shared port.** -/
theorem Ported.port_tick (h : Ported b) :
    (b.tick i).port (if b.takesDp i then k' else k)
      = (b.port k).tick (if i.dp.start then some (k', i.dp.job) else none) (b.advances i) := by
  cases h.phase with
  | rest hd hs hst hdone =>
    have haway : b.port k = .away := by
      rw [port, hd]
      split <;> rfl
    rw [haway, tick_rest hd hs hst]
    simp only [takesDp, advances, hd]
    cases htc : i.tc.start with
    | true =>
      rw [if_pos rfl]
      exact Port.away_tick_false.symm
    | false =>
      cases hdp : i.dp.start with
      | true => rfl
      | false => simp [port, hd, Port.tick]
  | started hd hs hst hdone =>
    have hkeep : b.takesDp i = false := by simp [takesDp, hd]
    rw [hkeep, if_neg Bool.false_ne_true]
    by_cases hdp : b.dispatchType = .dp
    · obtain ⟨htype', hd', hs', hjob⟩ := tick_serving_keeps (i := i) hd hdone
      have hnew : (b.tick i).ipicDone = false := by
        simpa only [tick_serving hd hdone, nextIpicState, hst, hs, if_true, enter] using hdone
      simp only [port, htype', hd', hs', hjob, hnew, hdp, hd, hs, if_true, Bool.false_eq_true, if_false, Port.tick]
    · exact port_tick_of_tc (by rw [hd]; decide) hdp (tick_serving_keeps hd hdone).1
  | working hd hs hidle hrd hwr hdone =>
    have hkeep : b.takesDp i = false := by simp [takesDp, hd]
    rw [hkeep, if_neg Bool.false_ne_true]
    by_cases hdp : b.dispatchType = .dp
    · obtain ⟨htype', hd', hs', hjob⟩ := tick_serving_keeps (i := i) hd hdone
      have hnew := ipicDone_tick_serving (i := i) hd hidle hrd hwr hdone
      simp only [port, htype', hd', hs', hjob, hnew, hdp, hd, hs, hdone, if_true, Bool.false_eq_true, if_false,
        Port.tick, advances, decide_true, Bool.true_and]
    · exact port_tick_of_tc (by rw [hd]; decide) hdp (tick_serving_keeps hd hdone).1
  | ended hd hs hst hdone =>
    have hkeep : b.takesDp i = false := by simp [takesDp, hd]
    rw [hkeep, if_neg Bool.false_ne_true]
    by_cases hdp : b.dispatchType = .dp
    · simp only [port, tick_ended hd hdone hst, hdp, hd, hs, hdone, if_true, Bool.false_eq_true, if_false, Port.tick]
      rfl
    · exact port_tick_of_tc (by rw [hd]; decide) hdp (by rw [tick_ended hd hdone hst])
  | reported hd hs hst hdone =>
    have hkeep : b.takesDp i = false := by simp [takesDp, hd]
    rw [hkeep, if_neg Bool.false_ne_true]
    by_cases hdp : b.dispatchType = .dp
    · simp only [port, tick_reported hd hs hst, hdp, hd, if_true, Port.tick]
    · exact port_tick_of_tc (by rw [hd]; decide) hdp (by rw [tick_reported hd hs hst])

/-- **What the port carries out for a machine is what the AXI master completes.** -/
theorem Ported.executes_port [DecidableEq κ] (h : Ported b) :
    (b.port s).executes k (b.advances i)
      = if b.dispatchType = .dp ∧ s = k then (b.completes i).toList else [] := by
  by_cases hdp : b.dispatchType = .dp
  · cases h.phase with
    | rest hd hs hst hdone =>
      rw [completes_of_idle hst, port, if_pos hdp, hd]
      exact (ite_self _).symm
    | started hd hs hst hdone =>
      rw [completes_of_idle hst, port, if_pos hdp, hd, hs]
      exact (ite_self _).symm
    | working hd hs hidle hrd hwr hdone =>
      simp only [port, hdp, hd, hs, hdone, advances, if_true, Bool.false_eq_true, if_false, Port.executes, true_and,
        decide_true, Bool.true_and]
      cases hj : b.completes i with
      | none => simp
      | some j => simp [h.drives.job_of_completes hj]
    | ended hd hs hst hdone =>
      rw [completes_of_ended hst, port, if_pos hdp, hd, hs, hdone]
      exact (ite_self _).symm
    | reported hd hs hst hdone =>
      rw [completes_of_idle hst, port, if_pos hdp, hd]
      exact (ite_self _).symm
  · rw [port_of_not_dp hdp, if_neg fun h' => hdp h'.1]
    rfl

end LiteBus

end VanetTdma.Fpga
