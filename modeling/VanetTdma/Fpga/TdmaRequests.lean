import VanetTdma.Fpga.BurstProgress
import VanetTdma.Fpga.TdmaControl
import VanetTdma.Lib.Delivery

/-!
# What becomes of the requests of `tdma_control`

A run of the machines of `tdma_control` on the burst bus, with a ledger of what each of them has asked for and what was
carried out for it.  The two requests that the FI builder does not hold until they are acknowledged are left out; a run
shows that one of them is carried out twice.

* `TcRun.inv_trace` — the invariant and the ledger in every run;
* `TcRun.Fair.exists_asking` — the arbiter comes to every machine that holds a request;
* `TcRun.requests_executed_once` — the account of a run as a whole;
* `TcRun.bufLen_executed_twice` — a hasty request.
-/

namespace VanetTdma.Fpga

open SharedBus Clocked

theorem TcType.typeOk {t : BitVec 3} (h : TcType t) : BurstReq.TypeOk t := by
  rcases h with rfl | rfl | rfl | rfl <;> simp [BurstReq.TypeOk]

/-- A run with its ledger: the machine whose request the dispatcher took over last, and for each machine the requests it
has asked for and those that were carried out for it, without the hasty ones. -/
structure TcRun where
  s : TdmaControl
  server : TcClient := .ex
  asked : TcClient → List BurstJob := fun _ => []
  executed : TcClient → List BurstJob := fun _ => []

namespace TcRun

def tick (g : TdmaSetting) (r : TcRun) (i : TcCycle) : TcRun where
  s := r.s.tick g i
  server := r.s.server i r.server
  asked k := r.asked k ++ (r.s.client k).asks ((r.s.tick g i).client k)
  executed k := r.executed k ++ r.s.done i r.server k

def reset (len : BitVec 10) : TcRun where
  s := TdmaControl.reset len

/-- The run in cycle `n`. -/
def run (g : TdmaSetting) (len : BitVec 10) (inp : ℕ → TcCycle) : ℕ → TcRun := trace (tick g) inp (reset len)

/-- The requests of a machine that are still to be carried out. -/
def pending (r : TcRun) (k : TcClient) : List BurstJob := (r.s.client k).pending k (r.s.burst.port .tc r.server)

/-- The invariant with the ledger. -/
structure Inv (r : TcRun) : Prop where
  inv : r.s.Inv r.server
  ledger : ∀ k, r.asked k = r.executed k ++ r.pending k

theorem inv_reset (len : BitVec 10) : (reset len).Inv where
  inv := TdmaControl.inv_reset len
  ledger k := by cases k <;> rfl

theorem Inv.tick {r : TcRun} (h : r.Inv) (g : TdmaSetting) (i : TcCycle) : (r.tick g i).Inv where
  inv := h.inv.tick g i
  ledger k := by
    calc (r.tick g i).asked k
        = r.executed k ++ (r.pending k ++ (r.s.client k).asks ((r.s.tick g i).client k)) := by
          rw [← List.append_assoc, ← h.ledger k]
          rfl
      _ = r.executed k ++ (r.s.done i r.server k ++ (r.tick g i).pending k) :=
          congrArg (r.executed k ++ ·) (h.inv.ledger g i k)
      _ = (r.tick g i).executed k ++ (r.tick g i).pending k := (List.append_assoc _ _ _).symm

/-! ### Runs -/

section Run

variable {g : TdmaSetting} {len : BitVec 10} {inp : ℕ → TcCycle} {k : TcClient} {j : BurstJob} {n : ℕ}

theorem inv_run (g : TdmaSetting) (len : BitVec 10) (inp : ℕ → TcCycle) (n : ℕ) : (run g len inp n).Inv := by
  induction n with
  | zero => exact inv_reset len
  | succ n ih => exact ih.tick g (inp n)

/-- Arbiter and bus in cycle `n`. -/
def busAt (g : TdmaSetting) (len : BitVec 10) (inp : ℕ → TcCycle) (n : ℕ) : Bus TcClient BurstJob :=
  (run g len inp n).s.bus (run g len inp n).server

/-- A machine as a client in cycle `n`. -/
def clientAt (g : TdmaSetting) (len : BitVec 10) (inp : ℕ → TcCycle) (k : TcClient) (n : ℕ) : Client BurstJob :=
  (run g len inp n).s.client k

/-- The AXI master answers again and again, and `desc_processor` asks for transactions that the bus knows. -/
structure Fair (inp : ℕ → TcCycle) : Prop where
  cmdack : ∀ n, ∃ m, n ≤ m ∧ (inp m).cmdack = true
  cmplt : ∀ n, ∃ m, n ≤ m ∧ (inp m).cmplt = true
  srcRdy : ∀ n, ∃ m, n ≤ m ∧ (inp m).mstrdSrcRdyN = false
  dstRdy : ∀ n, ∃ m, n ≤ m ∧ (inp m).mstwrDstRdyN = false
  dpType : ∀ n, (inp n).dp.start = true → BurstReq.TypeOk (inp n).dp.ipicType

theorem Fair.sound (h : Fair inp) (n : ℕ) : (run g len inp n).s.burst.Sound := by
  induction n with
  | zero => exact ⟨fun hd => absurd rfl hd, nofun⟩
  | succ n ih =>
    have hinv := (inv_run g len inp n).inv
    exact ih.tick hinv.burst (fun hstart => (hinv.arbType hstart).typeOk) (h.dpType n)

theorem Fair.answered (h : Fair inp) :
    BurstBus.Answered (fun n => (run g len inp n).s.burst) fun n => (run g len inp n).s.burstIn (inp n) where
  tick _ := rfl
  ported n := (inv_run g len inp n).inv.burst
  sound := h.sound
  answer st n := by
    cases st <;>
      first
      | exact ⟨n, Nat.le_refl n, rfl⟩
      | exact h.cmdack n
      | exact h.cmplt n
      | (obtain ⟨m, hle, hm⟩ := h.srcRdy n; exact ⟨m, hle, congrArg not hm⟩)
      | (obtain ⟨m, hle, hm⟩ := h.dstRdy n; exact ⟨m, hle, congrArg not hm⟩)

theorem advances_of_idle (hidle : (run g len inp n).s.burst.dispatchState = .idle) :
    (run g len inp n).s.burst.advances .tc ((run g len inp n).s.burstIn (inp n)) = true := by
  simp only [BurstBus.advances, hidle, BurstBusIn.grants]

theorem Fair.busRun (h : Fair inp) :
    BusRun false (busAt g len inp) (fun n => (run g len inp n).s.found)
      fun n => (run g len inp n).s.burst.advances .tc ((run g len inp n).s.burstIn (inp n)) where
  ok n := (inv_run g len inp n).inv.link
  tick n := (inv_run g len inp n).inv.bus_tick g (inp n)
  turn n := by
    obtain ⟨m, hle, hidle⟩ := h.answered.exists_idle n
    refine ⟨m, hle, ?_, advances_of_idle hidle⟩
    change (run g len inp m).s.burst.port .tc _ = _
    simp only [BurstBus.port, hidle, ite_self]

theorem clientRun (g : TdmaSetting) (len : BitVec 10) (inp : ℕ → TcCycle) (k : TcClient) :
    ClientRun True k (busAt g len inp) (fun n => (run g len inp n).s.burst.doneTc) (clientAt g len inp k) where
  at_bus n hne := by
    refine (inv_run g len inp n).inv.clients k ?_
    by_contra hk
    rw [Bool.not_eq_false] at hk
    exact hne (TdmaControl.client_of_hasty hk)
  follows n := (inv_run g len inp n).inv.follows g (inp n) k
  spares n := (inv_run g len inp n).inv.spares_of_done

/-! ### The arbiter comes to every machine -/

theorem asks_of_calling (h : clientAt g len inp k n = .calling j) : ((run g len inp n).s.stage k).asks = true := by
  have hshows := congrArg Client.shows h
  rw [clientAt, TdmaControl.client, Stage.shows_client] at hshows
  by_contra hno
  rw [if_neg hno] at hshows
  cases hshows

theorem stage_of_waiting (h : clientAt g len inp k n = .waiting) : (run g len inp n).s.stage k = .waiting := by
  by_contra hne
  exact Stage.client_ne_waiting hne _ h

theorem asks_of_waiting (h : clientAt g len inp k n = .waiting) : ((run g len inp n).s.stage k).asks = false := by
  rw [stage_of_waiting h]
  rfl

theorem pick_eq (g : TdmaSetting) (len : BitVec 10) (inp : ℕ → TcCycle) (n : ℕ) :
    (((run g len inp n).s.stage .ex).asks = true → (run g len inp n).s.pick = some .ex)
      ∧ (((run g len inp n).s.stage .ex).asks = false →
        (((run g len inp n).s.stage .mo).asks = true → (run g len inp n).s.pick = some .mo)
        ∧ (((run g len inp n).s.stage .mo).asks = false → ((run g len inp n).s.stage .fi).asks = true →
          (run g len inp n).s.pick = some .fi)) := by
  have h := (inv_run g len inp n).inv
  refine ⟨fun hex => ?_, fun hex => ⟨fun hmo => ?_, fun hmo hfi => ?_⟩⟩
  · rw [TdmaControl.pick, h.ex.start, if_pos hex]
  · rw [TdmaControl.pick, h.ex.start, h.mo.start, hex, if_neg Bool.false_ne_true, if_pos hmo]
  · have hstart : ((run g len inp n).s.req .fi).start = true := by
      refine h.fi.start.trans ?_
      exact Bool.or_eq_true_iff.mpr (Or.inl hfi)
    rw [TdmaControl.pick, h.ex.start, h.mo.start, hex, hmo, if_neg Bool.false_ne_true, if_neg Bool.false_ne_true,
      if_pos hstart]

theorem hold_of_pick (hfree : (busAt g len inp n).hold = .free) (hpick : (run g len inp n).s.pick = some k) :
    ∃ j, (busAt g len inp (n + 1)).hold = .asking k j := by
  have hbus := congrArg Bus.hold ((inv_run g len inp n).inv.bus_tick g (inp n))
  refine ⟨((run g len inp n).s.latch k (run g len inp n).s.arb.req).job, hbus.trans ?_⟩
  change Hold.tick false (run g len inp n).s.found _ (busAt g len inp n).hold = _
  rw [hfree, TdmaControl.found, hpick]
  rfl

/-- **EX and MO wait when the arbiter has passed them on**, and the arbiter is free then. -/
theorem Fair.exists_round (h : Fair inp) (hk : k ≠ .fi) (hfree : (busAt g len inp n).hold = .free)
    (hpick : (run g len inp n).s.pick = some k) :
    ∃ m j, n < m ∧ (busAt g len inp m).hold = .acking k j ∧ (busAt g len inp (m + 1)).hold = .free
      ∧ clientAt g len inp k (m + 1) = .waiting ∧ ∀ l, n < l → l < m → (busAt g len inp l).hold = .asking k j := by
  obtain ⟨j, hask⟩ := hold_of_pick hfree hpick
  obtain ⟨m, hlt, hack, hfree', hall⟩ := h.busRun.exists_free_of_asking hask
  refine ⟨m, j, by omega, hack, hfree', ?_, fun l hnl hlm => hall l (by omega) hlm⟩
  have hat : (clientAt g len inp k m).At True k (busAt g len inp m) := by
    refine (inv_run g len inp m).inv.clients k ?_
    cases k with
    | fi => exact absurd rfl hk
    | _ => rfl
  exact (clientRun g len inp k).waiting_of_acking (hat.eq_calling (Or.inr hack)) hack

end Run

end TcRun

/-- A lower bound on the edges until MO asks. -/
def MoState.edges : MoState → ℕ
  | .setpktMid => 0
  | .setpktWrCounter2 => 1
  | .setpktWrSec => 2
  | .setpktWrSeq => 3
  | .setpktStart => 4
  | .idle | .waitTxen | .processAckping => 5
  | .moEnd => 6
  | .setpktWait | .sendFi => 7

theorem MoState.edges_of_waiting {st : MoState} (h : st.stage = .waiting) : st.edges = 7 := by
  cases st <;> first | rfl | exact Stage.noConfusion h

theorem MoState.asks_of_edges {st : MoState} (h : 0 < st.edges) : st.stage.asks = false := by
  cases st <;> first | rfl | exact absurd h (Nat.lt_irrefl 0)

theorem Mo.edges_tick (i : MoIn) (m : Mo) : m.state.edges ≤ (m.tick i).state.edges + 1 := by
  unfold tick idle processAckping
  cases hst : m.state <;> dsimp only <;> (repeat' split) <;> simp [MoState.edges, hst]

namespace TcRun

section Run

variable {g : TdmaSetting} {len : BitVec 10} {inp : ℕ → TcCycle} {k : TcClient} {j : BurstJob} {n : ℕ}

theorem edges_run (g : TdmaSetting) (len : BitVec 10) (inp : ℕ → TcCycle) (n d : ℕ) :
    (run g len inp n).s.sender.mo.state.edges ≤ (run g len inp (n + d)).s.sender.mo.state.edges + d := by
  induction d with
  | zero => exact Nat.le_refl _
  | succ d ih =>
    have hstep : (run g len inp (n + d)).s.sender.mo.state.edges
        ≤ (run g len inp (n + (d + 1))).s.sender.mo.state.edges + 1 :=
      (run g len inp (n + d)).s.sender.mo.edges_tick _
    omega

theorem not_waiting_of_acking {k' : TcClient} (hne : k' ≠ k)
    (hack : (busAt g len inp n).hold = .acking k' j) : clientAt g len inp k n ≠ .waiting := by
  intro hwait
  have hbusy := (inv_run g len inp n).inv.link.port_of_acking hack
  have hat : (clientAt g len inp k n).At True k (busAt g len inp n) :=
    (clientRun g len inp k).at_bus n (by rw [hwait]; nofun)
  rw [hwait] at hat
  cases hat with
  | idle hc => exact hc rfl
  | waiting _ hp =>
    obtain ⟨j', hp | hp | hp⟩ := hp trivial
    · cases hbusy.symm.trans hp
      exact hne rfl
    · cases hbusy.symm.trans hp
    · cases hbusy.symm.trans hp

theorem Fair.idle_of_leave (h : Fair inp) (hn : clientAt g len inp k n = .waiting)
    (hnot : clientAt g len inp k (n + 1) ≠ .waiting) : (run g len inp (n + 1)).s.burst.dispatchState = .idle := by
  have hdone : (run g len inp n).s.burst.doneTc = true := by
    have hf := (clientRun g len inp k).follows n
    rw [hn] at hf
    generalize clientAt g len inp k (n + 1) = c' at hf hnot
    cases hf with
    | wait => exact absurd rfl hnot
    | leave hyes => exact hyes
  have hrep : (run g len inp n).s.burst.doneTc
      = (decide ((run g len inp n).s.burst.dispatchState = .reporting)
        && decide ((run g len inp n).s.burst.dispatchType = .tc)) := (inv_run g len inp n).inv.burst.done .tc nofun
  rw [hrep, Bool.and_eq_true] at hdone
  exact h.answered.idle_succ (of_decide_eq_true hdone.1)

theorem Fair.acking_of_idle (h : Fair inp) (hask : (busAt g len inp n).hold = .asking k j)
    (hidle : (run g len inp n).s.burst.dispatchState = .idle) :
    (busAt g len inp (n + 1)).hold = .asking k j ∧ (busAt g len inp (n + 2)).hold = .acking k j := by
  have haway : (busAt g len inp n).port = .away := by
    change (run g len inp n).s.burst.port .tc _ = _
    simp only [BurstBus.port, hidle, ite_self]
  have hask' : (busAt g len inp (n + 1)).hold = .asking k j := by
    rw [h.busRun.hold_succ, hask, haway]
    rfl
  have htaken : (busAt g len inp (n + 1)).port = .taken k j := by
    rw [h.busRun.port_succ, hask, haway, advances_of_idle hidle]
    rfl
  refine ⟨hask', ?_⟩
  rw [h.busRun.hold_succ, hask', htaken]
  rfl

/-- **MO has not asked again when EX, which the arbiter showed in the meantime, is acknowledged.** -/
theorem Fair.asks_mo_of_acking (h : Fair inp) {m q : ℕ} (hmq : m < q) (hwait : clientAt g len inp .mo m = .waiting)
    (hask : ∀ l, m < l → l < q → (busAt g len inp l).hold = .asking .ex j)
    (hack : (busAt g len inp q).hold = .acking .ex j) : ((run g len inp (q + 1)).s.stage .mo).asks = false := by
  have hq : clientAt g len inp .mo q ≠ .waiting := not_waiting_of_acking (by nofun) hack
  -- MO stops waiting with the report of its own transaction, in cycle `u`
  obtain ⟨u, hmu, hnot, hall⟩ := exists_of_leaves (P := fun l => clientAt g len inp .mo l = .waiting)
    (Q := fun l => clientAt g len inp .mo l ≠ .waiting) (fun l _ _ => em _) hwait ⟨q, by omega, hq⟩
  have hu := hall u hmu (Nat.le_refl u)
  have hidle := h.idle_of_leave hu hnot
  have hle : u + 1 ≤ q := by
    by_contra hge
    exact hq (hall q (by omega) (by omega))
  have huq : u + 1 < q := by
    refine lt_of_le_of_ne hle fun heq => ?_
    rw [← heq] at hack
    have haway : (busAt g len inp (u + 1)).port = .away := by
      change (run g len inp (u + 1)).s.burst.port .tc _ = _
      simp only [BurstBus.port, hidle, ite_self]
    cases haway.symm.trans ((inv_run g len inp (u + 1)).inv.link.port_of_acking hack)
  -- so EX is acknowledged in cycle `u + 3`
  obtain ⟨hask₂, hack₃⟩ := h.acking_of_idle (hask (u + 1) (by omega) huq) hidle
  have heq : q = u + 3 := by
    have hne : q ≠ u + 2 := by
      intro heq
      rw [heq] at hack
      cases hask₂.symm.trans hack
    by_contra hne'
    cases hack₃.symm.trans (hask (u + 3) (by omega) (by omega))
  have hedges := edges_run g len inp u 4
  rw [MoState.edges_of_waiting (stage_of_waiting hu)] at hedges
  rw [heq]
  change (run g len inp (u + 4)).s.sender.mo.state.stage.asks = false
  exact MoState.asks_of_edges (by omega)

/-- **The arbiter comes to every machine that holds a request.** -/
theorem Fair.exists_asking (h : Fair inp) (hn : clientAt g len inp k n = .calling j)
    (hspares : (busAt g len inp n).hold.Spares k) :
    ∃ m j, n ≤ m ∧ clientAt g len inp k m = .calling j ∧ (busAt g len inp m).hold = .asking k j := by
  by_contra hnone
  push Not at hnone
  -- otherwise the machine is left calling for ever
  have hall : ∀ m, n ≤ m → clientAt g len inp k m = .calling j ∧ (busAt g len inp m).hold.Spares k := by
    intro m hle
    induction m, hle using Nat.le_induction with
    | base => exact ⟨hn, hspares⟩
    | succ m hle ih =>
      obtain ⟨hcall, hsp⟩ := ih
      have hcall' := (clientRun g len inp k).calling_succ hcall (Hold.acks_of_spares hsp)
      refine ⟨hcall', ?_⟩
      have hat := (clientRun g len inp k).at_bus (m + 1) (by rw [hcall']; nofun)
      by_contra hno
      simp only [Hold.Spares, not_forall, not_and_or, not_not, ne_eq] at hno
      obtain ⟨j', hj' | hj'⟩ := hno
      · exact hnone (m + 1) j' (by omega) (hat.eq_calling (Or.inl hj')) hj'
      · have hnext : ((busAt g len inp m).hold.tick false (run g len inp m).s.found (busAt g len inp m).port).Spares k ∨
            ∃ j, (run g len inp m).s.found = some (k, j) ∧
              (busAt g len inp m).hold.tick false (run g len inp m).s.found (busAt g len inp m).port = .asking k j :=
          Hold.Spares.tick hsp
        rw [← h.busRun.hold_succ] at hnext
        rcases hnext with hs | ⟨j'', -, hask⟩
        · exact (hs j').2 hj'
        · cases hask.symm.trans hj'
  have hask : ∀ m, n ≤ m → ((run g len inp m).s.stage k).asks = true := fun m hle => asks_of_calling (hall m hle).1
  have hpick : ∀ m, n ≤ m → (busAt g len inp m).hold = .free → (run g len inp m).s.pick ≠ some k := by
    intro m hle hfree hk
    obtain ⟨j', hj'⟩ := hold_of_pick hfree hk
    exact ((hall (m + 1) (by omega)).2 j').1 hj'
  -- once the arbiter has passed EX on, it is free while EX waits
  have hex : ∀ m, n ≤ m → (busAt g len inp m).hold = .free →
      ∃ m', m ≤ m' ∧ (busAt g len inp m').hold = .free ∧ ((run g len inp m').s.stage .ex).asks = false := by
    intro m hle hfree
    cases hm : ((run g len inp m).s.stage .ex).asks with
    | false => exact ⟨m, Nat.le_refl m, hfree, hm⟩
    | true =>
      obtain ⟨q, j', hlt, -, hfree', hwait, -⟩ := h.exists_round (by nofun) hfree ((pick_eq g len inp m).1 hm)
      exact ⟨q + 1, by omega, hfree', asks_of_waiting hwait⟩
  obtain ⟨m, hle, hfree⟩ := h.busRun.exists_free_of_impatient n
  induction k with
  | ex => exact hpick m hle hfree ((pick_eq g len inp m).1 (hask m hle))
  | mo =>
    obtain ⟨m', hle', hfree', hno⟩ := hex m hle hfree
    exact hpick m' (by omega) hfree' (((pick_eq g len inp m').2 hno).1 (hask m' (by omega)))
  | fi =>
    -- the builder is passed over for MO, and then for EX, but not for a third time
    have hmo : ∀ l, n ≤ l → (busAt g len inp l).hold = .free → ((run g len inp l).s.stage .ex).asks = false →
        ((run g len inp l).s.stage .mo).asks = true := by
      intro l hl hfree hno
      by_contra hmo
      rw [Bool.not_eq_true] at hmo
      exact hpick l hl hfree (((pick_eq g len inp l).2 hno).2 hmo (hask l hl))
    obtain ⟨m', hle', hfree', hno⟩ := hex m hle hfree
    have hm' := hmo m' (by omega) hfree' hno
    obtain ⟨p, j₁, hlt₁, -, hfree₁, hwait₁, -⟩ :=
      h.exists_round (by nofun) hfree' (((pick_eq g len inp m').2 hno).1 hm')
    have hex₁ : ((run g len inp (p + 1)).s.stage .ex).asks = true := by
      by_contra hno₁
      rw [Bool.not_eq_true] at hno₁
      have hmo₁ := hmo (p + 1) (by omega) hfree₁ hno₁
      rw [asks_of_waiting hwait₁] at hmo₁
      exact Bool.noConfusion hmo₁
    obtain ⟨q, j₂, hlt₂, hack₂, hfree₂, hwait₂, hasking₂⟩ :=
      h.exists_round (by nofun) hfree₁ ((pick_eq g len inp (p + 1)).1 hex₁)
    have hmo₂ := hmo (q + 1) (by omega) hfree₂ (asks_of_waiting hwait₂)
    rw [h.asks_mo_of_acking hlt₂ hwait₁ hasking₂ hack₂] at hmo₂
    exact Bool.noConfusion hmo₂

/-- **No request is left standing.** -/
theorem Fair.exists_not_pending (h : Fair inp) (k : TcClient) (n : ℕ) :
    ∃ m, n ≤ m ∧ (run g len inp m).pending k = [] :=
  (clientRun g len inp k).exists_not_pending h.busRun (fun _ _ => h.exists_asking) n

/-- **Every request of `tdma_control` that its machine holds until the acknowledgement is carried out once.**  In every run,
whatever `desc_processor` asks for and however long the bus takes, what has been carried out for EX, MO or the FI builder
is what it has asked for, in that order and as it asked for it, except for at most one request, by which the machine still
stands; it stops waiting only with the report of its own transaction.  And when the AXI master answers, every such request
is carried out.  The two requests of the builder for the length of the buffer and of the frame are left out. -/
theorem requests_executed_once (g : TdmaSetting) (len : BitVec 10) (inp : ℕ → TcCycle) (k : TcClient) :
    (∀ n, ∃ rest : List BurstJob, (run g len inp n).asked k = (run g len inp n).executed k ++ rest
        ∧ rest.length ≤ 1 ∧ ((run g len inp n).s.stage k = .quiet → rest = []))
      ∧ (∀ n, (run g len inp n).s.stage k = .waiting → (run g len inp (n + 1)).s.stage k ≠ .waiting →
        (run g len inp n).s.burst.doneTc = true ∧ (run g len inp n).server = k
          ∧ (run g len inp n).asked k = (run g len inp n).executed k)
      ∧ (Fair inp → Delivered (fun n => (run g len inp n).asked k) fun n => (run g len inp n).executed k) := by
  refine ⟨fun n => ?_, fun n hwait hleave => ?_, fun hfair => ?_⟩
  · refine ⟨(run g len inp n).pending k, (inv_run g len inp n).ledger k, Client.length_pending, fun hquiet => ?_⟩
    simp only [pending, TdmaControl.client, hquiet]
    rfl
  · have hinv := (inv_run g len inp n).inv
    have hclient : clientAt g len inp k n = .waiting := by
      simp only [clientAt, TdmaControl.client, hwait]
      rfl
    have hdone : (run g len inp n).s.burst.doneTc = true := by
      by_contra hstay
      rw [Bool.not_eq_true] at hstay
      have hnext := (run g len inp n).s.stage_next g (inp n) k
      rw [hwait, hstay] at hnext
      exact hleave (of_decide_eq_true hnext)
    have hat := (clientRun g len inp k).at_bus n (by rw [hclient]; intro hidle; cases hidle)
    rw [hclient] at hat
    obtain ⟨j, hrep⟩ := hat.reports_of_done trivial (hinv.port_done.trans hdone)
    refine ⟨hdone, BurstBus.server_of_reporting hrep, ?_⟩
    · have hnil : (clientAt g len inp k n).pending k (busAt g len inp n).port = [] := by
        rw [hclient, hrep]
        rfl
      exact ((inv_run g len inp n).ledger k).trans ((congrArg _ hnil).trans (List.append_nil _))
  · exact delivered_of_pending (fun n => (inv_run g len inp n).ledger k)
      (fun n => List.prefix_append _ _) (hfair.exists_not_pending k)

end Run

/-- A descriptor is always at hand, and the AXI master answers at once. -/
def promptInp : ℕ → TcCycle := fun _ =>
  { txfifoValid := true, txfifoDread := 0x1000, cmdack := true, cmplt := true, mstrdSrcRdyN := false
    mstwrDstRdyN := false, mstrdD := 0x2000 }

theorem fair_promptInp : Fair promptInp where
  cmdack n := ⟨n, Nat.le_refl n, rfl⟩
  cmplt n := ⟨n, Nat.le_refl n, rfl⟩
  srcRdy n := ⟨n, Nat.le_refl n, rfl⟩
  dstRdy n := ⟨n, Nat.le_refl n, rfl⟩
  dpType _ h := nomatch h

/-- Frames of 4 to 16 slots. -/
def promptSetting : TdmaSetting where
  globalSid := 7
  bchCandidateC3hopThresS1 := 2
  adjFrameLowerBound := 4
  adjFrameUpperBound := 16

theorem requests_executed_once_fi :
    (run promptSetting 4 promptInp 170).executed .fi
        = [.burstWr 0x2020 12, .calDescCks 0x1000, .singleWr 0x1028 0x4001]
      ∧ Delivered (fun n => (run promptSetting 4 promptInp n).asked .fi)
        fun n => (run promptSetting 4 promptInp n).executed .fi :=
  ⟨by decide +kernel, (requests_executed_once promptSetting 4 promptInp .fi).2.2 fair_promptInp⟩

/-! ### The hasty requests -/

/-- A run with all requests of the FI builder, the hasty ones too, and all transactions that were carried out for it. -/
structure FiLog where
  r : TcRun
  begun : List BurstJob := []
  completed : List BurstJob := []

def FiLog.tick (g : TdmaSetting) (l : FiLog) (i : TcCycle) : FiLog where
  r := l.r.tick g i
  begun := if (l.r.tick g i).s.fi.state.shown && !l.r.s.fi.state.shown then l.begun ++ [((l.r.tick g i).s.req .fi).job]
    else l.begun
  completed := if l.r.s.burst.dispatchType = .tc ∧ l.r.server = .fi then
      l.completed ++ (l.r.s.burst.completes (l.r.s.burstIn i)).toList
    else l.completed

/-- The log in cycle `n` of the run in which nobody competes with the builder. -/
def promptLog : ℕ → FiLog := trace (FiLog.tick promptSetting) promptInp { r := reset 4 }

/-- **The two hasty requests are carried out twice.**  When the builder has done with the bus and waits for the FCB search, it
has made five requests, and seven transactions were carried out for it. -/
theorem bufLen_executed_twice :
    (promptLog 170).r.s.fi.state = .waitFcb
      ∧ (promptLog 170).begun
        = [.burstWr 0x2020 12, .singleWr 0x100c 0x2d0000, .singleWr 0x102c 0x13f0031, .calDescCks 0x1000,
          .singleWr 0x1028 0x4001]
      ∧ (promptLog 170).completed
        = [.burstWr 0x2020 12, .singleWr 0x100c 0x2d0000, .singleWr 0x100c 0x2d0000, .singleWr 0x102c 0x13f0031,
          .singleWr 0x102c 0x13f0031, .calDescCks 0x1000, .singleWr 0x1028 0x4001] := by
  decide +kernel

end TcRun

end VanetTdma.Fpga
