import VanetTdma.Fpga.Mo

/-!
# The request to send a frame information

The BCH machine asks for a transmission by a pulse of one cycle (`send_fi_start`) and then waits for
`send_fi_done`.  The MO machine sees the pulse in `MO_IDLE` only, and there last.

* `Sender.Ready` — the MO machine will take a request in this cycle;
* `Sender.Handshake` — the two machines as parties of the handshake, `Handshake.tick` for a cycle in which a
  request, if there is one, is taken;
* `Sender.served_iff` — every request is served iff the MO machine is ready in every cycle of a request.
-/

namespace VanetTdma.Fpga

open VanetTdma.Clocked

/-- The states in which the BCH machine waits for the end of a transmission. -/
def BchState.awaits : BchState → Bool
  | waitReqFiSendWait | workFiSendFiWait | workAdjSendFiWait => true
  | _ => false

namespace Bch

section Send

variable {g : TdmaSetting} {i : BchIn} {b : Bch}

theorem awaits_tick (h : (b.tick g i).state.awaits = true) :
    b.state.sends = true ∨ b.state.awaits = true ∧ i.sendFiDone = false := by
  have hall : ∀ st : BchState, (st.next.all fun n => !n.awaits || (st.sends || st.awaits)) = true := by
    intro st
    cases st <;> rfl
  have hcases : b.state.sends = true ∨ b.state.awaits = true := by
    simpa [show (b.nextState g i).awaits = true from h] using BchState.of_next hall (nextState_mem g i b)
  rcases hcases with hsends | hawaits
  · exact Or.inl hsends
  · refine Or.inr ⟨hawaits, ?_⟩
    rw [← Bool.not_eq_true]
    intro hdone
    have hnext : (b.nextState g i).awaits = false := by
      revert hawaits
      simp only [nextState]
      cases b.state <;> intro hawaits <;> first
        | exact absurd hawaits Bool.false_ne_true
        | (simp only [hdone, if_true]; rfl)
    exact Bool.false_ne_true (hnext.symm.trans h)

theorem sendFiStart_of_sends (h : (b.tick g i).state.sends = true) : (b.tick g i).sendFiStart = true := by
  change (b.nextState g i).sends = true at h
  change (b.act g i (b.nextState g i)).sendFiStart = true
  revert h
  cases b.nextState g i <;> intro h <;> first | exact absurd h Bool.false_ne_true | rfl

end Send

end Bch

namespace Mo

section Step

variable {i : MoIn} {m : Mo}

theorem tick_sendFi_iff : (m.tick i).state = .sendFi ↔ m.state = .idle ∧ i.startPing = false
    ∧ i.recvPing = false ∧ i.recvAckPing = false ∧ i.sendFiStart = true := by
  constructor
  · intro h
    unfold tick at h
    split at h
    case h_1 hst =>
      unfold idle at h
      simp only at h
      refine ⟨hst, ?_⟩
      split at h
      · exact MoState.noConfusion h
      split at h
      · exact MoState.noConfusion h
      split at h
      · exact MoState.noConfusion h
      split at h
      · simp_all
      · exact MoState.noConfusion (hst.symm.trans h)
    case h_3 hst =>
      split at h
      · exact MoState.noConfusion h
      · exact MoState.noConfusion (hst.symm.trans h)
    case h_4 =>
      unfold processAckping at h
      simp only at h
      split at h <;> exact MoState.noConfusion h
    case h_9 hst =>
      simp only at h
      split at h
      · exact MoState.noConfusion h
      · exact MoState.noConfusion (hst.symm.trans h)
    case h_10 hst =>
      split at h
      · exact MoState.noConfusion h
      · exact MoState.noConfusion (hst.symm.trans h)
    all_goals exact MoState.noConfusion h
  · rintro ⟨hst, hstart, hping, hack, hsend⟩
    rw [tick, hst]
    simp only [idle, hstart, hping, hack, hsend, Bool.false_eq_true, if_false, if_true]

theorem tick_idle_sendFiDone (h : m.state = .idle) : (m.tick i).sendFiDone = false := by
  rw [tick, h]
  simp only [idle]
  repeat' split
  all_goals rfl

theorem tick_of_sendFi (h : m.state = .sendFi) : (m.tick i).state = .moEnd ∧ (m.tick i).sendFiDone = true := by
  rw [tick, h]
  exact ⟨rfl, rfl⟩

theorem tick_fiSendCount :
    (m.tick i).fiSendCount = m.fiSendCount + if m.state = .sendFi then 1 else 0 := by
  by_cases h : m.state = .sendFi
  · rw [if_pos h, tick, h]
  · rw [if_neg h, show m.fiSendCount + 0 = m.fiSendCount from BitVec.add_zero _]
    unfold tick
    split
    case h_1 =>
      simp only [idle]
      repeat' split
      all_goals rfl
    case h_2 hst => exact absurd hst h
    case h_3 => split <;> rfl
    case h_4 =>
      simp only [processAckping]
      split <;> rfl
    case h_9 =>
      simp only
      split <;> rfl
    case h_10 => split <;> rfl
    all_goals rfl

end Step

end Mo

namespace Sender

/-- The MO machine will take a request in this cycle. -/
def Ready (s : Sender) (i : MoCycle) : Prop :=
  s.mo.state = .idle ∧ i.startPing = false ∧ i.recvPing = false ∧ i.recvAckPing = false

instance (s : Sender) (i : MoCycle) : Decidable (s.Ready i) := inferInstanceAs (Decidable (_ ∧ _))

/-- The two machines as parties of the handshake. -/
structure Handshake (s : Sender) : Prop where
  regular : s.sys.bch.Regular
  asks : s.sys.bch.state.sends = true → s.sys.bch.sendFiStart = true
  waits : s.sys.bch.state.awaits = true →
    s.mo.state = .sendFi ∧ s.mo.sendFiDone = false ∨ s.mo.state = .moEnd ∧ s.mo.sendFiDone = true

section Step

variable {g : TdmaSetting} {s : Sender} {i : MoCycle}

theorem taken_iff (h : s.sys.bch.sendFiStart = true) : (s.tick g i).mo.state = .sendFi ↔ s.Ready i := by
  rw [show (s.tick g i).mo.state = .sendFi ↔ _ from Mo.tick_sendFi_iff]
  constructor
  · rintro ⟨hst, hstart, hping, hack, -⟩
    exact ⟨hst, hstart, hping, hack⟩
  · rintro ⟨hst, hstart, hping, hack⟩
    exact ⟨hst, hstart, hping, hack, h⟩

/-- **A cycle of the handshake.** -/
theorem Handshake.tick (h : s.Handshake) (hready : s.sys.bch.sendFiStart = true → s.Ready i) :
    (s.tick g i).Handshake where
  regular := h.regular.tick
  asks := Bch.sendFiStart_of_sends
  waits := by
    intro hawaits
    rcases Bch.awaits_tick hawaits with hsends | ⟨hold, hdone⟩
    · have hstart := h.asks hsends
      have hidle := (hready hstart).1
      exact Or.inl ⟨(taken_iff hstart).mpr (hready hstart), Mo.tick_idle_sendFiDone hidle⟩
    · rcases h.waits hold with ⟨hst, -⟩ | ⟨-, hhigh⟩
      · exact Or.inr (Mo.tick_of_sendFi hst)
      · exact absurd (hdone.symm.trans hhigh) Bool.false_ne_true

theorem handshake_reset (len : BitVec 10) : (reset len).Handshake where
  regular := ⟨rfl, fun h => absurd h Bool.false_ne_true, fun h => absurd h Bool.false_ne_true,
    fun h => absurd h Bool.false_ne_true⟩
  asks h := nomatch h
  waits h := nomatch h

end Step

/-! ### Runs -/

/-- The number of cycles before `n` in which the BCH machine is in a `SEND_START` state.  It stays there for one
cycle, so these are its entries. -/
def requests (σ : ℕ → Sender) (n : ℕ) : ℕ := (List.range n).countP fun k => (σ k).sys.bch.state.sends

theorem requests_succ (σ : ℕ → Sender) (n : ℕ) :
    requests σ (n + 1) = requests σ n + if (σ n).sys.bch.state.sends = true then 1 else 0 := by
  rw [requests, List.range_succ, List.countP_append, List.countP_singleton]
  rfl

/-- What the BCH machine may expect in cycle `n` of a run: a request is taken, the transmissions are counted, and
it does not wait for a machine that does not work for it. -/
structure Served (σ : ℕ → Sender) (n : ℕ) : Prop where
  taken : (σ n).sys.bch.sendFiStart = true → (σ (n + 1)).mo.state = .sendFi
  counted : (σ (n + 2)).mo.fiSendCount = BitVec.ofNat 32 (requests σ (n + 1))
  waits : (σ n).sys.bch.state.awaits = true → (σ n).mo.state ≠ .idle ∧ (σ n).mo.state ≠ .waitTxen

section Run

variable {g : TdmaSetting} {len : BitVec 10} {inp : ℕ → MoCycle}

theorem handshake_trace
    (hready : ∀ n, (trace (tick g) inp (reset len) n).sys.bch.sendFiStart = true →
      (trace (tick g) inp (reset len) n).Ready (inp n)) (n : ℕ) :
    (trace (tick g) inp (reset len) n).Handshake := by
  induction n with
  | zero => exact handshake_reset len
  | succ n ih => exact ih.tick (hready n)

theorem sends_of_sendFi {n : ℕ} (hreg : (trace (tick g) inp (reset len) n).sys.bch.Regular)
    (h : (trace (tick g) inp (reset len) (n + 1)).mo.state = .sendFi) :
    (trace (tick g) inp (reset len) n).sys.bch.state.sends = true := by
  have hcases := Mo.tick_sendFi_iff.mp (show ((trace (tick g) inp (reset len) n).mo.tick _).state = _ from h)
  exact hreg.sends hcases.2.2.2.2

theorem fiSendCount_trace
    (hready : ∀ n, (trace (tick g) inp (reset len) n).sys.bch.sendFiStart = true →
      (trace (tick g) inp (reset len) n).Ready (inp n)) (n : ℕ) :
    (trace (tick g) inp (reset len) (n + 1)).mo.fiSendCount
      = BitVec.ofNat 32 (requests (trace (tick g) inp (reset len)) n) := by
  induction n with
  | zero => exact Mo.tick_fiSendCount
  | succ n ih =>
    have hshake := handshake_trace hready n
    have hiff : (trace (tick g) inp (reset len) (n + 1)).mo.state = .sendFi
        ↔ (trace (tick g) inp (reset len) n).sys.bch.state.sends = true := by
      refine ⟨sends_of_sendFi hshake.regular, fun hsends => ?_⟩
      have hstart := hshake.asks hsends
      exact (taken_iff hstart).mpr (hready n hstart)
    have hcount : (trace (tick g) inp (reset len) (n + 2)).mo.fiSendCount = _ := Mo.tick_fiSendCount
    rw [hcount, ih, requests_succ, BitVec.ofNat_add]
    congr 1
    by_cases hsends : (trace (tick g) inp (reset len) n).sys.bch.state.sends = true
    · rw [if_pos hsends, if_pos (hiff.mpr hsends)]
      rfl
    · rw [if_neg hsends, if_neg fun hc => hsends (hiff.mp hc)]
      rfl

/-- **The requests to send.**  In a run all requests of the BCH machine are served iff in every cycle of a request
the MO machine is in `MO_IDLE` and no ping comes first. -/
theorem served_iff (g : TdmaSetting) (len : BitVec 10) (inp : ℕ → MoCycle) :
    (∀ n, Served (trace (tick g) inp (reset len)) n) ↔
      ∀ n, (trace (tick g) inp (reset len) n).sys.bch.sendFiStart = true →
        (trace (tick g) inp (reset len) n).Ready (inp n) := by
  constructor
  · intro h n hstart
    exact (taken_iff hstart).mp ((h n).taken hstart)
  · intro hready n
    refine ⟨fun hstart => (taken_iff hstart).mpr (hready n hstart), fiSendCount_trace hready (n + 1), ?_⟩
    intro hawaits
    rcases (handshake_trace hready n).waits hawaits with ⟨hst, -⟩ | ⟨hst, -⟩ <;>
      (rw [hst]; exact ⟨MoState.noConfusion, MoState.noConfusion⟩)

end Run

/-! ### A request that is lost -/

def askingSetting : TdmaSetting where
  globalSid := 5
  bchCandidateC3hopThresS1 := 3
  adjFrameLowerBound := 4
  adjFrameUpperBound := 8

/-- Slots of 25 cycles.  The node takes slot 0 and asks for the transmission of its request in cycle 301; a ping
is to be sent in the same cycle. -/
def askingInp (n : ℕ) : MoCycle where
  cycle :=
    { slotPointer := BitVec.ofNat 16 (n / 25 % 4)
      ipicAck := true
      ipicDone := true }
  startPing := n == 301

abbrev asking : ℕ → Sender := trace (tick askingSetting) askingInp (reset 4)

/-- The BCH machine waits for the end of the transmission, and the MO machine for the permission to send, which
the BCH machine gives after it. -/
theorem request_lost :
    ¬ ∀ (g : TdmaSetting) (len : BitVec 10) (inp : ℕ → MoCycle) (n : ℕ),
      Served (trace (tick g) inp (reset len)) n := by
  intro h
  have hrun : (asking 303).sys.bch.state.awaits = true ∧ (asking 303).mo.state = .waitTxen := by
    decide +kernel
  exact ((h askingSetting 4 askingInp 303).waits hrun.1).2 hrun.2

end Sender

end VanetTdma.Fpga
