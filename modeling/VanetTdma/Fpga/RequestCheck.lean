import VanetTdma.Fpga.WriteBack

/-!
# The check before a request

In `BCH_WAIT_REQ_WAIT` the node waits for the slot it has claimed; when the slot comes, it looks at the entry
once more and sends its request only if the entry is still its own or free.  Meanwhile the slot-table updater
may have stored a conflict there.

* `Conflicts` — the entry shows a collision of this node, or another occupier;
* `Undisturbed` — port B does not wipe the conflict out in this cycle;
* `Conflicted.tick` — a conflict then stays;
* `request_fails_of_conflict` — the check sees it, and no request is sent.
-/

namespace VanetTdma.Fpga

open VanetTdma.Clocked VanetTdma.DualPort

/-! ### Entries in conflict -/

/-- A collision of this node, or another occupier. -/
def Conflicts (globalSid : BitVec 8) (e : SlotEntry) : Prop :=
  e.occupierSid = globalSid ∧ e.busy = 3 ∨ e.occupierSid ≠ globalSid ∧ e.occupierSid ≠ 0

instance (globalSid : BitVec 8) (e : SlotEntry) : Decidable (Conflicts globalSid e) :=
  inferInstanceAs (Decidable (_ ∧ _ ∨ _ ∧ _))

/-- The aging of the FI builder frees the entry. -/
def Expires (globalSid : BitVec 8) (e : SlotEntry) : Prop :=
  e.occupierSid ≠ globalSid ∧ e.life = 1 ∧ ¬ (e.busy = 2 ∧ e.existed = true)

section Entry

variable {sid : BitVec 8} {e : SlotEntry}

theorem Conflicts.not_usable (hsid : sid ≠ 0) (h : Conflicts sid e) : ¬ Usable sid e := by
  rintro (⟨hown, hbusy⟩ | hfree)
  · rcases h with ⟨-, hthree⟩ | ⟨hne, -⟩
    · rw [hbusy] at hthree
      exact absurd hthree (by decide)
    · exact hne hown.symm
  · rcases h with ⟨hown, -⟩ | ⟨-, hne⟩
    · exact hsid (hown.symm.trans hfree)
    · exact hne hfree

theorem Conflicts.refreshed (h : Conflicts sid e) (hlasts : ¬ Expires sid e) :
    Conflicts sid (refreshed sid e (unlocked e)) := by
  unfold Fpga.refreshed
  split
  · rename_i hne
    have hforeign : Conflicts sid (unlocked e) := Or.inr hne
    split
    · exact Or.inr hne
    split
    · rename_i hlife
      split
      · rename_i hbusy
        refine absurd ⟨hne.1, hlife, ?_⟩ hlasts
        rintro ⟨htwo, -⟩
        rw [hbusy] at htwo
        exact absurd htwo (by decide)
      split
      · exact Or.inr hne
      · rename_i hno
        exact absurd ⟨hne.1, hlife, hno⟩ hlasts
    · exact hforeign
  · exact h

theorem Conflicts.countsCleared (h : Conflicts sid e) : Conflicts sid (countsCleared sid e) := by
  unfold Fpga.countsCleared
  split <;> exact h

end Entry

namespace System

def workSlot (s : System) : BitVec 7 := s.bch.workPointer.setWidth 7

/-- In this cycle port B does not wipe a conflict at the work slot out: the BCH machine does not write, the
updater does not write into a read-modify-write of the entry, and the aging does not free the entry. -/
structure Undisturbed (g : TdmaSetting) (s : System) : Prop where
  we : s.bch.we = false
  apart : s.portA.Writes s.workSlot → ¬ s.Held s.workSlot
  lasts : s.fi.portB.Writes s.workSlot → ¬ Expires g.globalSid (s.ram.cell s.workSlot)

/-- Port B is at the BCH machine's address, and the updater does not write that entry. -/
structure Looks (s : System) : Prop where
  fi : s.fi.slotStatusEn = false
  fcb : s.fcb.inprogress = false
  stu : ¬ s.portA.Writes s.workSlot

section Step

variable {g : TdmaSetting} {s : System} {i : Cycle} {a : BitVec 7}

theorem portB_writes (h : s.portB.Writes a) :
    s.fcb.portB.Writes a ∨ s.fi.portB.Writes a ∨ s.bch.portB.Writes a := by
  unfold portB at h
  split at h
  · exact Or.inl h
  split at h
  · exact Or.inr (Or.inl h)
  · exact Or.inr (Or.inr h)

theorem portB_bch (hfcb : s.fcb.inprogress = false) (hfi : s.fi.slotStatusEn = false) :
    s.portB = s.bch.portB := by
  rw [portB, hfcb, hfi, if_neg Bool.false_ne_true, if_neg Bool.false_ne_true]

theorem workSlot_tick (h : (s.tick g i).bch.state = .waitReqWait) :
    (s.tick g i).workSlot = s.workSlot := by
  have hnext : s.bch.nextState g (s.bchIn i) = .waitReqWait := h
  change (s.bch.act g (s.bchIn i) (s.bch.nextState g (s.bchIn i))).workPointer.setWidth 7 = _
  rw [hnext]
  rfl

/-- A conflict at the work slot, stored or just being written. -/
def Conflicted (g : TdmaSetting) (s : System) : Prop :=
  if s.portA.Writes s.workSlot then Conflicts g.globalSid s.portA.din
  else Conflicts g.globalSid (s.ram.cell s.workSlot)

/-- **A conflict stays** while nothing on port B wipes it out. -/
theorem Conflicted.tick_cell (hs : s.Shared) (hf : s.Fresh g s.workSlot) (h : s.Conflicted g)
    (hok : s.Undisturbed g) : Conflicts g.globalSid ((s.tick g i).ram.cell s.workSlot) := by
  have hbch : ¬ s.bch.portB.Writes s.workSlot := Port.not_writes_of_we hok.we _
  by_cases hA : s.portA.Writes s.workSlot
  · rw [Conflicted, if_pos hA] at h
    have hB : ¬ s.portB.Writes s.workSlot := by
      intro hB
      rcases portB_writes hB with hfcb | hfi | hb
      · exact hok.apart hA (Or.inr ⟨hfcb.2, Or.inr (Or.inr hfcb.1)⟩)
      · exact hok.apart hA (Or.inl ⟨hfi.2, Or.inr (Or.inr (Or.inr (Or.inr hfi.1)))⟩)
      · exact hbch hb
    have hcell : (s.tick g i).ram.cell s.workSlot = s.portA.din := tick_cell_write_a hA hB
    rw [hcell]
    exact h
  · rw [Conflicted, if_neg hA] at h
    by_cases hfi : s.fi.portB.Writes s.workSlot
    · rw [hs.tick_cell_of_fiWrites hA hfi, hf.fiWrite hfi]
      exact h.refreshed (hok.lasts hfi)
    by_cases hfcb : s.fcb.portB.Writes s.workSlot
    · rw [hs.tick_cell_of_fcbWrites hA hfcb, hf.fcbWrite hfcb]
      exact h.countsCleared
    · have hB : ¬ s.portB.Writes s.workSlot := by
        intro hB
        rcases portB_writes hB with hc | hc | hc
        · exact hfcb hc
        · exact hfi hc
        · exact hbch hc
      have hcell : (s.tick g i).ram.cell s.workSlot = s.ram.cell s.workSlot := tick_cell_of_quiet hA hB
      rw [hcell]
      exact h

theorem tick_doutB_of_looks (hr : s.bch.Regular) (hst : s.bch.state.onWork = true) (hwe : s.bch.we = false)
    (hlook : s.Looks) : (s.tick g i).ram.doutB = s.ram.cell s.workSlot := by
  have hport := portB_bch hlook.fcb hlook.fi
  have haddr : s.portB.addr = s.workSlot := by
    rw [hport]
    exact hr.addr hst
  exact (tick_ram_of_look hlook.stu haddr (by rw [hport]; exact hwe)).1

theorem tick_bch_of_conflict (hr : s.bch.Regular) (hst : s.bch.state = .waitReqWait)
    (hreach : i.slotPointer = s.bch.workPointer) (hno : ¬ Usable g.globalSid s.ram.doutB) :
    (s.tick g i).bch.state = .reqFailCount ∧ (s.tick g i).bch.sendFiStart = false := by
  have hstate : (s.tick g i).bch.state = .reqFailCount := by
    change s.bch.nextState g (s.bchIn i) = .reqFailCount
    simp only [Bch.nextState, hst]
    rw [if_pos (show (s.bchIn i).slotPointer = s.bch.workPointer from hreach)]
    exact if_neg hno
  refine ⟨hstate, ?_⟩
  rw [← Bool.not_eq_true]
  intro hsend
  have hnot := (Bch.Regular.tick hr).sends hsend
  rw [show ((s.bch.tick g (s.bchIn i)).state) = .reqFailCount from hstate] at hnot
  exact Bool.false_ne_true hnot

end Step

/-! ### Runs -/

theorem regular_trace (g : TdmaSetting) (inp : ℕ → Cycle) (len : BitVec 10) (n : ℕ) :
    (run g inp len n).bch.Regular := by
  induction n with
  | zero =>
    exact ⟨rfl, fun h => absurd h Bool.false_ne_true, fun h => absurd h Bool.false_ne_true,
      fun h => absurd h Bool.false_ne_true⟩
  | succ n ih => exact ih.tick

section Run

variable {g : TdmaSetting} {len : BitVec 10} {inp : ℕ → Cycle} {m n : ℕ}

theorem workSlot_of_waits (hwait : ∀ k, m ≤ k → k ≤ n →
      (run g inp len k).bch.state = .waitReqWait) {k : ℕ} (hmk : m ≤ k) (hkn : k ≤ n) :
    (run g inp len k).workSlot = (run g inp len m).workSlot := by
  induction k, hmk using Nat.le_induction with
  | base => rfl
  | succ k hmk ih =>
    exact (workSlot_tick (hwait (k + 1) (Nat.le_succ_of_le hmk) hkn)).trans (ih (Nat.le_of_succ_le hkn))

/-- **The check before a request sees a conflict.**  In cycle `m` the updater stores a conflict at the work slot
of a node that waits for the slot; until the slot comes, in cycle `n + 1`, the updater stores nothing else there.
If nothing wipes the conflict out on port B and the BCH machine looks at the entry in cycle `n`, then the
request is not sent. -/
theorem request_fails_of_conflict (hsid : g.globalSid ≠ 0) (hmn : m < n)
    (hwait : ∀ k, m ≤ k → k ≤ n + 1 → (trace (tick g) inp (reset len) k).bch.state = .waitReqWait)
    (hwrite : (trace (tick g) inp (reset len) m).portA.Writes (trace (tick g) inp (reset len) m).workSlot)
    (hconf : ∀ k, m ≤ k → k ≤ n →
      (trace (tick g) inp (reset len) k).portA.Writes (trace (tick g) inp (reset len) k).workSlot →
      Conflicts g.globalSid (trace (tick g) inp (reset len) k).portA.din)
    (hreach : (inp (n + 1)).slotPointer = (trace (tick g) inp (reset len) (n + 1)).bch.workPointer)
    (hok : ∀ k, m ≤ k → k ≤ n → (trace (tick g) inp (reset len) k).Undisturbed g)
    (hlook : (trace (tick g) inp (reset len) n).Looks) :
    (trace (tick g) inp (reset len) (n + 2)).bch.state = .reqFailCount
      ∧ (trace (tick g) inp (reset len) (n + 2)).bch.sendFiStart = false := by
  have hslot : ∀ {k}, m ≤ k → k ≤ n →
      (trace (tick g) inp (reset len) k).workSlot = (trace (tick g) inp (reset len) m).workSlot :=
    fun hmk hkn => workSlot_of_waits hwait hmk (Nat.le_succ_of_le hkn)
  have hapart : ∀ k, m ≤ k → k ≤ n →
      (trace (tick g) inp (reset len) k).portA.Writes (trace (tick g) inp (reset len) m).workSlot →
      ¬ (trace (tick g) inp (reset len) k).Held (trace (tick g) inp (reset len) m).workSlot := by
    intro k hmk hkn
    rw [← hslot hmk hkn]
    exact (hok k hmk hkn).apart
  have hfresh : ∀ k, m ≤ k → k ≤ n →
      (trace (tick g) inp (reset len) k).Fresh g (trace (tick g) inp (reset len) k).workSlot := by
    intro k hmk hkn
    rw [hslot hmk hkn]
    refine fresh_trace hmk (hapart m (Nat.le_refl m) (Nat.le_of_lt hmn) hwrite) ?_
    exact fun j hmj hjk => hapart j hmj (Nat.le_trans (Nat.le_of_lt hjk) hkn)
  -- the conflict, from the updater's write on
  have hstays : ∀ k, m ≤ k → k ≤ n → (trace (tick g) inp (reset len) k).Conflicted g := by
    intro k hmk
    induction k, hmk using Nat.le_induction with
    | base =>
      intro hkn
      rw [Conflicted, if_pos hwrite]
      exact hconf m (Nat.le_refl m) hkn hwrite
    | succ k hmk ih =>
      intro hkn
      have hk : k ≤ n := Nat.le_of_succ_le hkn
      unfold Conflicted
      split
      · rename_i hA
        exact hconf (k + 1) (Nat.le_succ_of_le hmk) hkn hA
      · rw [hslot (Nat.le_succ_of_le hmk) hkn, ← hslot hmk hk]
        exact (ih hk).tick_cell (shared_trace g inp len k) (hfresh k hmk hk) (hok k hmk hk)
  have hlast := hstays n (Nat.le_of_lt hmn) (Nat.le_refl n)
  rw [Conflicted, if_neg hlook.stu] at hlast
  have hdout : (trace (tick g) inp (reset len) (n + 1)).ram.doutB
      = (trace (tick g) inp (reset len) n).ram.cell (trace (tick g) inp (reset len) n).workSlot := by
    refine tick_doutB_of_looks (regular_trace g inp len n) ?_
      (hok n (Nat.le_of_lt hmn) (Nat.le_refl n)).we hlook
    rw [hwait n (Nat.le_of_lt hmn) (Nat.le_succ n)]
    rfl
  refine tick_bch_of_conflict (regular_trace g inp len (n + 1))
    (hwait (n + 1) (Nat.le_succ_of_le (Nat.le_of_lt hmn)) (Nat.le_refl _)) hreach ?_
  rw [hdout]
  exact hlast.not_usable hsid

end Run

/-! ### A request that is sent in spite of a conflict -/

def requestingSetting : TdmaSetting where
  globalSid := 5
  bchCandidateC3hopThresS1 := 3
  adjFrameLowerBound := 4
  adjFrameUpperBound := 8

/-- Node 7 announces that it holds slot 0. -/
def requestingPkt0 : RcvPkt := fun k => if k = 20 then 7 * 2 ^ 4 + 2 * 2 ^ 12 + 7 * 2 ^ 14 else 0

/-- Node 7 announces that it holds slot 1 of two. -/
def requestingPkt1 : RcvPkt := fun k => if k = 20 then 1 + 7 * 2 ^ 4 + 2 * 2 ^ 26 + 7 * 2 ^ 28 else 0

/-- The node claims slot 0, to which the first announcement objects, and then slot 1, to which the second one
objects.  From cycle 360 on slot 0 lasts longer, so that the FI builder is done before slot 1 begins. -/
def requestingInp (n : ℕ) : Cycle where
  slotPointer := if n < 390 then BitVec.ofNat 16 (n / 30 % 4) else if n < 550 then 0 else 1
  slotPulse2Counter := if 360 ≤ n then 990 else 0
  stuStart := n == 290 || n == 360
  rcvPkt := if n < 360 then requestingPkt0 else requestingPkt1
  ipicAck := true
  ipicDone := true

abbrev requesting : ℕ → System := trace (tick requestingSetting) requestingInp (reset 4)

/-- The first objection is seen. -/
theorem request_fails_of_conflict_first :
    (requesting 309).portA.Writes (requesting 309).workSlot
      ∧ (requesting 361).bch.state = .reqFailCount ∧ (requesting 361).bch.sendFiStart = false := by
  have hrun : (∀ k < 361, 309 ≤ k → (requesting k).bch.state = .waitReqWait ∧ (requesting k).bch.we = false
        ∧ ((requesting k).portA.Writes (requesting k).workSlot → Conflicts 5 (requesting k).portA.din)
        ∧ ((requesting k).portA.Writes (requesting k).workSlot →
          ¬ (requesting k).Held (requesting k).workSlot)
        ∧ ¬ (requesting k).fi.portB.Writes (requesting k).workSlot)
      ∧ (requesting 309).portA.Writes (requesting 309).workSlot
      ∧ (requestingInp 360).slotPointer = (requesting 360).bch.workPointer
      ∧ (requesting 359).fi.slotStatusEn = false ∧ (requesting 359).fcb.inprogress = false
      ∧ ¬ (requesting 359).portA.Writes (requesting 359).workSlot := by
    decide +kernel
  obtain ⟨hall, hwrite, hreach, hfi, hfcb, hstu⟩ := hrun
  refine ⟨hwrite, @request_fails_of_conflict requestingSetting 4 requestingInp 309 359 (by decide) (by decide)
    ?_ hwrite ?_ hreach ?_ ⟨hfi, hfcb, hstu⟩⟩
  · exact fun k hk hk' => (hall k (by omega) hk).1
  · exact fun k hk hk' => (hall k (by omega) hk).2.2.1
  · intro k hk hk'
    obtain ⟨-, hwe, -, hapart, hno⟩ := hall k (by omega) hk
    exact ⟨hwe, hapart, fun hw => absurd hw hno⟩

/-- The second one is not: since `BCH_WAIT_REQ_FCB_DONE` the BCH machine writes its claim in every cycle in which
it has the port. -/
theorem request_sent_in_spite_of_conflict :
    ¬ ∀ (g : TdmaSetting) (len : BitVec 10) (inp : ℕ → Cycle) (m n : ℕ), g.globalSid ≠ 0 → m < n →
      (∀ k, m ≤ k → k ≤ n + 1 → (trace (tick g) inp (reset len) k).bch.state = .waitReqWait) →
      (trace (tick g) inp (reset len) m).portA.Writes (trace (tick g) inp (reset len) m).workSlot →
      (∀ k, m ≤ k → k ≤ n →
        (trace (tick g) inp (reset len) k).portA.Writes (trace (tick g) inp (reset len) k).workSlot →
        Conflicts g.globalSid (trace (tick g) inp (reset len) k).portA.din) →
      (inp (n + 1)).slotPointer = (trace (tick g) inp (reset len) (n + 1)).bch.workPointer →
      (trace (tick g) inp (reset len) (n + 2)).bch.state = .reqFailCount := by
  intro h
  have hrun : (∀ k < 551, 398 ≤ k → (requesting k).bch.state = .waitReqWait
        ∧ ((requesting k).portA.Writes (requesting k).workSlot → Conflicts 5 (requesting k).portA.din))
      ∧ (requesting 398).portA.Writes (requesting 398).workSlot
      ∧ (requestingInp 550).slotPointer = (requesting 550).bch.workPointer
      ∧ (requesting 551).bch.state = .waitReqFiSendStart := by
    decide +kernel
  obtain ⟨hall, hwrite, hreach, hsent⟩ := hrun
  have hfail := h requestingSetting 4 requestingInp 398 549 (by decide) (by decide)
    (fun k hk hk' => (hall k (by omega) hk).1) hwrite (fun k hk hk' => (hall k (by omega) hk).2) hreach
  exact BchState.noConfusion (hsent.symm.trans hfail)

end System

end VanetTdma.Fpga
