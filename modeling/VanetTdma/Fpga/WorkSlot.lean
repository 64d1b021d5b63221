import VanetTdma.Fpga.Candidates
import VanetTdma.Fpga.FrameBounds

/-!
# The work slot stays in the frame

The FI builder halves the frame when no entry of its upper half is busy.  A node past listening has a work slot, and
for a while the slot of an adjustment; `Bch.Guards` collects both.  A halving must not strand them.

* `Bch.guards_tick` — a slot comes to be guarded as a candidate of the search, or with the end of listening;
* `Offers.tick` — the search offers slots of the present frame only;
* `Anchored.tick` — what a cycle keeps in which the builder finds a guarded slot of the upper half busy;
* `workPointer_lt_of_workSafe` — the work slot is in the frame in every run of such cycles.
-/

namespace VanetTdma.Fpga

open VanetTdma.Clocked

/-! ### The slots of the BCH machine -/

/-- The states without a slot: the node listens, or goes back to listening. -/
def BchState.listening : BchState → Bool
  | idle | lisDecideReq | lisWaitNextSlot | lisWaitNextSlot2 | lisWaitNextFrame | lisFcb => true
  | fcbFailCount => true
  | _ => false

/-- The states after the adjustment was announced in which its slot may still be taken. -/
def BchState.adjusting : BchState → Bool
  | workAdjWait | workAdjBchInvalid | workAdjBchInvalidWait | workAdjDecideAdjBchInvalid => true
  | _ => false

namespace BchState

section Next

variable {st n : BchState}

theorem eq_lisFcb_of_next (hnext : n ∈ st.next) (h : st.listening = true) (hn : n.listening = false) :
    st = .lisFcb := by
  have hall : ∀ st : BchState, (st.next.all fun n => !st.listening || n.listening || st == .lisFcb) = true := by
    intro st
    cases st <;> rfl
  simpa [h, hn] using of_next hall hnext

theorem adjusting_of_next (hnext : n ∈ st.next) (hn : n.adjusting = true) :
    st.adjusting = true ∨ st = .workDisaTx ∧ n = .workAdjWait := by
  have hall : ∀ st : BchState,
      (st.next.all fun n => !n.adjusting || (st.adjusting || (st == .workDisaTx && n == .workAdjWait))) = true := by
    intro st
    cases st <;> rfl
  simpa [hn] using of_next hall hnext

end Next

end BchState

namespace Bch

/-- The slot of an adjustment may still become the work slot. -/
def Adjusts (b : Bch) : Prop := b.adjFlag = true ∨ b.state.adjusting = true

instance (b : Bch) : Decidable b.Adjusts := inferInstanceAs (Decidable (_ ∨ _))

/-- The slots that the node needs the frame to have. -/
def Guards (b : Bch) (q : BitVec 16) : Prop :=
  b.state.listening = false ∧ q = b.workPointer ∨ b.Adjusts ∧ q = b.decideAdj

instance (b : Bch) (q : BitVec 16) : Decidable (b.Guards q) := inferInstanceAs (Decidable (_ ∨ _))

def Claims (g : TdmaSetting) (i : BchIn) (b : Bch) : Prop :=
  b.nextState g i = .waitReqFcbDone ∧ i.fcbFail = false ∨ b.nextState g i = .workFiFcb
    ∨ b.nextState g i = .ifSingleSet2

/-- The candidate of the search is taken, to be claimed at once or after a look at the outcome of the search. -/
def Takes (g : TdmaSetting) (i : BchIn) (b : Bch) : Prop := b.nextState g i = .lisFcb ∨ b.Claims g i

instance (g : TdmaSetting) (i : BchIn) (b : Bch) : Decidable (b.Claims g i) :=
  inferInstanceAs (Decidable (_ ∨ _))

instance (g : TdmaSetting) (i : BchIn) (b : Bch) : Decidable (b.Takes g i) :=
  inferInstanceAs (Decidable (_ ∨ _))

section Step

variable {g : TdmaSetting} {i : BchIn} {b : Bch} {n : BchState} {q : BitVec 16}

theorem act_workPointer (hn : n.listening = false) :
    (b.act g i n).workPointer = b.workPointer
      ∨ (n = .waitReqFcbDone ∧ i.fcbFail = false ∨ n = .ifSingleSet2)
        ∧ (b.act g i n).workPointer = i.fcbBchCandidate
      ∨ (n = .workAdjSetStatus ∨ n = .workAdjSetBch1BchInvalid) ∧ (b.act g i n).workPointer = b.decideAdj := by
  cases n with
  | lisDecideReq => exact nomatch hn.symm
  | lisFcb => exact nomatch hn.symm
  | waitReqFcbStart =>
    simp only [act]
    split <;> exact Or.inl rfl
  | waitReqFcbDone =>
    cases hfail : i.fcbFail with
    | true => exact Or.inl (by simp [act, hfail])
    | false => exact Or.inr (Or.inl ⟨Or.inl ⟨rfl, rfl⟩, by simp [act, hfail]⟩)
  | ifSingleSet2 => exact Or.inr (Or.inl ⟨Or.inr rfl, rfl⟩)
  | workAdjSetStatus =>
    cases hwin : i.adjSlotWin with
    | true => exact Or.inr (Or.inr ⟨Or.inl rfl, by simp [act, hwin]⟩)
    | false => exact Or.inl (by simp [act, hwin])
  | workAdjSetBch1BchInvalid => exact Or.inr (Or.inr ⟨Or.inr rfl, rfl⟩)
  | _ => exact Or.inl rfl

theorem act_adjust (hn : n ≠ .workFiFcb) :
    (b.act g i n).decideAdj = b.decideAdj ∧ ((b.act g i n).adjFlag = true → b.adjFlag = true) := by
  cases n with
  | workFiFcb => exact absurd rfl hn
  | workAdjWait => exact ⟨rfl, fun h => nomatch h⟩
  | waitReqFcbStart | waitReqFcbDone | workAdjSetStatus =>
    simp only [act]
    split <;> exact ⟨rfl, id⟩
  | _ => exact ⟨rfl, id⟩

theorem adjFlag_of_nextState (hst : b.state = .workDisaTx) (hn : b.nextState g i = .workAdjWait) :
    b.adjFlag = true := by
  rw [nextState, hst] at hn
  by_contra hflag
  rw [if_neg hflag] at hn
  exact BchState.noConfusion hn

theorem fcbFail_of_nextState (hst : b.state = .lisFcb) (hn : (b.nextState g i).listening = false) :
    i.fcbFail = false := by
  rw [nextState, hst] at hn
  cases hfail : i.fcbFail with
  | false => rfl
  | true =>
    rw [if_pos hfail] at hn
    exact absurd hn.symm Bool.false_ne_true

theorem not_takes (h : b.state = .idle ∨ b.state = .lisDecideReq) : ¬ b.Takes g i := by
  have hmem := nextState_mem g i b
  rcases h with hst | hst <;> rw [hst] at hmem
  · simp only [BchState.next, List.mem_cons, List.not_mem_nil, or_false] at hmem
    rcases hmem with hn | hn <;> simp [Takes, Claims, hn]
  · simp [Takes, Claims, List.mem_singleton.mp hmem]

theorem tick_of_idle (hst : b.state = .idle) :
    (b.tick g i).state = .idle ∨ (b.tick g i).state = .lisDecideReq ∧ (b.tick g i).initFiStart = true := by
  have hmem := nextState_mem g i b
  rw [hst] at hmem
  simp only [BchState.next, List.mem_cons, List.not_mem_nil, or_false] at hmem
  refine hmem.imp_right ?_
  intro hn
  refine ⟨hn, ?_⟩
  rw [tick, hn]
  rfl

theorem adjusts_of_tick (hn : b.nextState g i ≠ .workFiFcb) (h : (b.tick g i).Adjusts) : b.Adjusts := by
  rcases h with hflag | hst
  · exact Or.inl ((act_adjust hn).2 hflag)
  · rcases BchState.adjusting_of_next (nextState_mem g i b) hst with hold | ⟨hdis, hwait⟩
    · exact Or.inr hold
    · exact Or.inl (adjFlag_of_nextState hdis hwait)

/-- **How a slot comes to be guarded.** -/
theorem guards_tick (h : (b.tick g i).Guards q) :
    b.Guards q ∨ b.Claims g i ∧ q = i.fcbBchCandidate
      ∨ b.state = .lisFcb ∧ i.fcbFail = false ∧ q = b.workPointer := by
  have hmem := nextState_mem g i b
  rw [← tick_state] at hmem
  rcases h with ⟨hlis, hq⟩ | ⟨hadj, hq⟩
  · rcases act_workPointer hlis with hwork | ⟨htake, hwork⟩ | ⟨hmove, hwork⟩ <;>
      have hq := hq.trans hwork
    · cases hold : b.state.listening with
      | false => exact Or.inl (Or.inl ⟨hold, hq⟩)
      | true =>
        have hst := BchState.eq_lisFcb_of_next hmem hold hlis
        exact Or.inr (Or.inr ⟨hst, fcbFail_of_nextState hst hlis, hq⟩)
    · refine Or.inr (Or.inl ⟨?_, hq⟩)
      rcases htake with hdone | hset
      · exact Or.inl hdone
      · exact Or.inr (Or.inr hset)
    · -- the work slot moves to the slot of the adjustment
      have hst : b.state.adjusting = true := by
        rcases hmove with hn | hn <;> rw [hn] at hmem
        · rw [show b.state = .workAdjWait from BchState.eq_of_next (fun st => by cases st <;> rfl) hmem]
          rfl
        · rw [show b.state = .workAdjDecideAdjBchInvalid from
            BchState.eq_of_next (fun st => by cases st <;> rfl) hmem]
          rfl
      exact Or.inl (Or.inr ⟨Or.inr hst, hq⟩)
  · by_cases hn : b.nextState g i = .workFiFcb
    · refine Or.inr (Or.inl ⟨Or.inr (Or.inl hn), hq.trans ?_⟩)
      rw [tick, hn]
      rfl
    · exact Or.inl (Or.inr ⟨adjusts_of_tick hn hadj, hq.trans (act_adjust hn).1⟩)

end Step

end Bch

/-! ### The scan of the FI builder -/

/-- With the address `addr` the scan is past the slot `p`. -/
def FiState.Covers (addr p : ℕ) : FiState → Prop
  | start | loop1Pre | loop1 => p < addr
  | loop1Unlock | loop1Refresh | loop2 | loop2Wr => p ≤ addr
  | adjIsNeededPre | adjIsNeeded => True
  | _ => False

/-- No scan is going on or about to begin. -/
def FiState.beforeScan : FiState → Bool
  | idle | fiEnd | startPre | startRstBuf => true
  | _ => false

namespace Fi

/-- The scan has seen the slot `p`, and the decision on the frame is still to come. -/
def Passed (f : Fi) (p : ℕ) : Prop := f.state.Covers f.addr.toNat p

section Step

variable {g : TdmaSetting} {i : FiIn} {f : Fi} {p : ℕ}

theorem addr_succ_le (a : BitVec 7) : (a + 1).toNat ≤ a.toNat + 1 := by
  rw [BitVec.toNat_add]
  exact Nat.mod_le _ _

theorem passed_loop2 (hst : f.state = .loop2) (h : f.loop2.Passed p) : f.Passed p := by
  rw [Passed, hst]
  revert h
  unfold loop2
  simp only
  split
  · exact id
  split
  · exact fun h => Nat.le_of_lt_succ (Nat.lt_of_lt_of_le h (addr_succ_le f.addr))
  · rw [Passed, hst]
    exact id

theorem passed_loop2Wr (hst : f.state = .loop2Wr) (h : f.loop2Wr.Passed p) : f.Passed p := by
  rw [Passed, hst]
  revert h
  unfold loop2Wr
  simp only
  split
  · exact fun h => Nat.le_of_lt_succ (Nat.lt_of_lt_of_le h (addr_succ_le f.addr))
  · exact id

theorem tick_of_initFiStart (hst : f.state = .idle) (h : i.initFiStart = true) :
    (f.tick g i).state = .startPre := by
  rw [tick, hst]
  simp only [idle, h, if_true]

theorem not_passed {st : FiState} (hst : f.state = st) (h : ¬ st.Covers f.addr.toNat p) : ¬ f.Passed p := by
  rw [Passed, hst]
  exact h

theorem idle_not_passed (hst : f.state = .idle) : ¬ (f.idle i).Passed p := by
  unfold idle
  simp only
  split
  · exact not_passed rfl id
  split
  · split
    · exact not_passed rfl id
    · exact not_passed hst id
  · exact not_passed hst id

theorem adjIsNeeded_not_passed : ¬ (f.adjIsNeeded g i).Passed p := by
  unfold adjIsNeeded
  simp only
  split <;> exact not_passed rfl id

/-- **What a cycle adds to the scan**: the slot whose entry is read, or the end. -/
theorem passed_tick (h : (f.tick g i).Passed p) :
    f.Passed p ∨ f.state = .loop1 ∧ p = f.addr.toNat
      ∨ f.state = .loop1Pre ∧ f.addr.toNat = i.currFrameLen.toNat := by
  revert h
  unfold tick
  split
  case h_1 hst => exact fun h => absurd h (idle_not_passed hst)
  case h_3 => exact fun h => absurd h (not_passed rfl (by split <;> exact id))
  case h_4 => exact fun h => absurd h (Nat.not_lt_zero p)
  case h_6 hst =>
    split
    · rename_i hend
      exact fun _ => Or.inr (Or.inr ⟨hst, hend⟩)
    · intro h
      left
      rw [Passed, hst]
      exact h
  case h_7 hst =>
    intro h
    rcases Nat.lt_or_eq_of_le h with hlt | heq
    · left
      rw [Passed, hst]
      exact hlt
    · exact Or.inr (Or.inl ⟨hst, heq⟩)
  case h_10 hst => exact fun h => Or.inl (passed_loop2 hst h)
  case h_11 hst => exact fun h => Or.inl (passed_loop2Wr hst h)
  case h_13 => exact fun h => absurd h adjIsNeeded_not_passed
  case h_15 => exact fun h => absurd h (not_passed rfl (by simp only [adjWinner]; split <;> exact id))
  case h_33 => exact fun h => absurd h (not_passed rfl (by split <;> exact id))
  case h_34 => exact fun h => absurd h (not_passed rfl (by split <;> exact id))
  all_goals
    rename_i hst
    first
    | exact fun h => absurd h (not_passed rfl id)
    | (intro h; left; rw [Passed, hst]; exact h)
    | (split
       · exact fun h => absurd h (not_passed rfl id)
       · exact fun h => absurd h (not_passed hst id))

theorem not_passed_of_beforeScan (h : f.state.beforeScan = true) : ¬ (f.tick g i).Passed p := by
  intro hp
  rcases passed_tick hp with hold | ⟨hst, -⟩ | ⟨hst, -⟩
  · revert hold h
    unfold Passed
    cases f.state <;> simp [FiState.Covers, FiState.beforeScan]
  · rw [hst] at h
    exact Bool.false_ne_true h
  · rw [hst] at h
    exact Bool.false_ne_true h

/-- Up to the decision the flag stays up as long as the scan sees no busy slot in the upper half. -/
theorem frameCutFlag_tick (hidle : f.state ≠ .idle) (hdec : f.state ≠ .adjIsNeeded)
    (h : (f.tick g i).frameCutFlag = true) : f.frameCutFlag = true
      ∧ (f.state = .loop1 → ¬ (i.dout.busy ≠ 0 ∧ f.addr.toNat ≥ (i.currFrameLen >>> 1).toNat)) := by
  by_cases hloop : f.state = .loop1
  · rw [tick, hloop] at h
    simp only [loop1] at h
    split at h
    · exact absurd h Bool.false_ne_true
    · rename_i hfree
      exact ⟨h, fun _ => hfree⟩
  refine ⟨?_, fun hst => absurd hst hloop⟩
  revert h
  unfold tick
  split
  case h_1 hst => exact absurd hst hidle
  case h_7 hst => exact absurd hst hloop
  case h_10 =>
    unfold loop2
    simp only
    split
    · exact id
    split <;> exact id
  case h_11 =>
    unfold loop2Wr
    simp only
    split <;> exact id
  case h_13 hst => exact absurd hst hdec
  all_goals first | exact id | (split <;> exact id)

end Step

end Fi

/-! ### The search -/

/-- In a frame of `len` slots the scan of the search may have the address `addr`. -/
def FcbState.Within (addr len : ℕ) : FcbState → Prop
  | start | rdLoop | clrSetaddrWait => addr ≤ len
  | clrC3h | clrSetaddr => addr < len
  | _ => True

/-- The states in which the FIFOs may be empty. -/
def FcbState.drains : FcbState → Bool
  | idle | start | done | done2 => true
  | _ => false

/-- The states after the choice. -/
def FcbState.over : FcbState → Bool
  | done | done2 => true
  | _ => false

section Fifo

variable {srst wrEn rdEn : Bool} {din : BitVec 16} {l : Fifo}

theorem Fifo.tick_nil (hl : l = []) (hwr : wrEn = false) : l.tick srst wrEn rdEn din = [] := by
  subst hl hwr
  cases srst <;> cases rdEn <;> rfl

theorem Fifo.of_tick_nil (hrd : rdEn = false) (h : l.tick srst wrEn rdEn din = []) :
    srst = true ∨ l = [] ∧ wrEn = false := by
  subst hrd
  cases srst with
  | true => exact Or.inl rfl
  | false =>
    obtain ⟨hl, hwr⟩ := List.append_eq_nil_iff.mp h
    have hl : l = [] := hl
    subst hl
    cases wrEn with
    | false => exact Or.inr ⟨rfl, rfl⟩
    | true => exact absurd hwr (List.cons_ne_nil _ _)

end Fifo

namespace Fcb

def ScansWithin (len : ℕ) (f : Fcb) : Prop := f.state.Within f.addr.toNat len

/-- The second FIFO is read by the choice only. -/
def ReadsInTime (f : Fcb) : Prop := f.rdEnS2 = true → f.state = .selRanWait2 ∨ f.state = .done

/-- What goes to the first FIFO goes to the second one too. -/
def WritesBoth (f : Fcb) : Prop := f.wrEnS1 = true → f.wrEnS2 = true

/-- The states with empty FIFOs. -/
def Drained (f : Fcb) : Prop :=
  f.state = .idle ∨ f.state = .start ∨ f.state = .done2 ∨ f.state = .done ∧ f.srst = false

def Chosen (f : Fcb) : Prop := f.state = .done ∨ f.state = .done2 ∨ f.done = true

/-- The search has failed or offers a slot of a frame of `len` slots. -/
def Settled (len : ℕ) (f : Fcb) : Prop := f.fail = true ∨ f.candidate.toNat < len

section Step

variable {g : TdmaSetting} {i : FcbIn} {f : Fcb} {len : ℕ}

theorem scansWithin_of_state {st : FcbState} (hst : f.state = st) (h : st.Within f.addr.toNat len) :
    f.ScansWithin len := by
  rw [ScansWithin, hst]
  exact h

theorem ScansWithin.mono {len' : ℕ} (h : f.ScansWithin len) (hle : len ≤ len') : f.ScansWithin len' := by
  revert h
  unfold ScansWithin
  cases f.state <;> first | exact id | exact fun h => Nat.le_trans h hle

theorem ScansWithin.tick (h : f.ScansWithin i.currFrameLen.toNat) :
    (f.tick g i).ScansWithin i.currFrameLen.toNat := by
  unfold Fcb.tick
  split
  case h_1 hst =>
    split
    · exact Nat.zero_le _
    · exact scansWithin_of_state hst trivial
  case h_3 hst =>
    rw [ScansWithin, hst] at h
    split
    · exact scansWithin_of_state rfl trivial
    · rename_i hne
      obtain ⟨hkeeps, hnext⟩ := @rdLoop_keeps g i f
      refine scansWithin_of_state hnext ?_
      rw [hkeeps.addr]
      exact Nat.lt_of_le_of_ne h hne
  case h_4 hst =>
    rw [ScansWithin, hst] at h
    simp only
    split <;> exact scansWithin_of_state rfl h
  case h_5 hst =>
    rw [ScansWithin, hst] at h
    exact (Fi.addr_succ_le f.addr).trans h
  case h_7 hst =>
    rcases (@selRanStart_chooses g i f).2 with hn | hn | hn <;> exact scansWithin_of_state hn trivial
  case h_8 hst =>
    simp only
    split
    · exact scansWithin_of_state rfl trivial
    · exact scansWithin_of_state hst trivial
  case h_9 hst =>
    rcases (@selRanWait2_chooses g i f).2 with hn | hn
    · exact scansWithin_of_state (hn.trans hst) trivial
    · exact scansWithin_of_state hn trivial
  all_goals
    rename_i hst
    rw [ScansWithin, hst] at h
    exact h

theorem pick_rdEnS2 (count : ℕ) : (f.pick count).rdEnS2 = f.rdEnS2 := by
  unfold pick
  split <;> rfl

theorem selRanStart_rdEnS2 : (f.selRanStart g i).rdEnS2 = f.rdEnS2 := by
  unfold selRanStart
  split
  · exact pick_rdEnS2 _
  split
  · split
    · exact pick_rdEnS2 _
    split
    · exact pick_rdEnS2 _
    · rfl
  split
  · exact pick_rdEnS2 _
  · rfl

theorem rdLoop_rdEnS2 : (f.rdLoop g i).rdEnS2 = f.rdEnS2 := by
  unfold rdLoop
  simp only
  split
  · split <;> rfl
  · split <;> rfl

theorem ReadsInTime.low (h : f.ReadsInTime) {st : FcbState} (hst : f.state = st) (hsel : st ≠ .selRanWait2)
    (hdone : st ≠ .done) : f.rdEnS2 = false := by
  rw [← Bool.not_eq_true]
  intro hc
  rcases h hc with hn | hn
  · exact hsel (hst.symm.trans hn)
  · exact hdone (hst.symm.trans hn)

theorem ReadsInTime.tick (h : f.ReadsInTime) : (f.tick g i).ReadsInTime := by
  have hno : ∀ {v : Fcb} {st : FcbState}, f.state = st → st ≠ .selRanWait2 → st ≠ .done →
      v.rdEnS2 = f.rdEnS2 → v.ReadsInTime := by
    intro v st hst hsel hdone hv hc
    rw [hv, h.low hst hsel hdone] at hc
    exact nomatch hc
  unfold Fcb.tick
  split
  case h_1 hst => split <;> exact hno hst nofun nofun rfl
  case h_3 hst =>
    split
    · exact hno hst nofun nofun rfl
    · exact hno hst nofun nofun rdLoop_rdEnS2
  case h_4 hst =>
    simp only
    split <;> exact hno hst nofun nofun rfl
  case h_7 hst => exact hno hst nofun nofun selRanStart_rdEnS2
  case h_8 hst =>
    simp only
    split <;> exact hno hst nofun nofun rfl
  case h_9 hst =>
    intro _
    rw [← hst]
    exact (@selRanWait2_chooses g i f).2.imp_left (fun hn => hn)
  case h_10 => exact fun hc => nomatch hc
  all_goals
    rename_i hst
    exact hno hst nofun nofun rfl

theorem WritesBoth.tick (hslot : g.slotAdjEna = true) (h : f.WritesBoth) : (f.tick g i).WritesBoth := by
  have hsame : ∀ {v : Fcb}, v.wrEnS1 = f.wrEnS1 → v.wrEnS2 = f.wrEnS2 → v.WritesBoth := by
    intro v h1 h2 hc
    rw [h1] at hc
    exact h2.trans (h hc)
  unfold Fcb.tick
  split
  case h_1 => split <;> exact h
  case h_3 =>
    split
    · exact fun hc => nomatch hc
    · unfold rdLoop
      simp only [hslot, if_true]
      split
      · exact fun _ => rfl
      · exact fun hc => nomatch hc
  case h_4 =>
    simp only
    split <;> exact fun hc => nomatch hc
  case h_7 => exact hsame selRanStart_chooses.1.wrEnS1 selRanStart_chooses.1.wrEnS2
  case h_8 =>
    simp only
    split <;> exact h
  case h_9 => exact hsame selRanWait2_chooses.1.wrEnS1 selRanWait2_chooses.1.wrEnS2
  all_goals exact h

/-! ### The end of the search -/

theorem pick_ne_done (count : ℕ) : (f.pick count).state ≠ .done := by
  rcases (@pick_chooses f count).2 with hn | hn <;> (rw [hn]; exact nofun)

theorem selRanStart_done (hslot : g.slotAdjEna = true) (hadj : g.frameAdjEna = true)
    (h : (f.selRanStart g i).state = .done) :
    i.half = [] ∧ i.s2 = [] ∧ (f.selRanStart g i).fail = true := by
  revert h
  unfold selRanStart
  split
  · exact fun h => absurd h (pick_ne_done _)
  rename_i hhalf
  split
  · exact fun h => absurd h (pick_ne_done _)
  split
  · exact fun h => absurd h (pick_ne_done _)
  rename_i hs2
  intro _
  refine ⟨?_, List.length_eq_zero_iff.mp (not_not.mp hs2), rfl⟩
  by_contra hne
  exact hhalf ⟨hadj, hne⟩

theorem advance_done (hst : f.state = .selRanWait2) (h : f.advance.state = .done) : f.advance.srst = true := by
  revert h
  unfold advance
  split
  · exact fun _ => rfl
  · intro h
    exact FcbState.noConfusion (hst.symm.trans h)

/-- The choice ends with a reset of the FIFOs and with a slot that one of them has shown. -/
theorem selRanWait2_done (hslot : g.slotAdjEna = true) (hst : f.state = .selRanWait2)
    (hread : f.ReadsFull g i) (h : (f.selRanWait2 g i).state = .done) :
    (f.selRanWait2 g i).srst = true ∧ ((f.selRanWait2 g i).candidate ∈ i.s1
      ∨ (f.selRanWait2 g i).candidate ∈ i.s2 ∨ (f.selRanWait2 g i).candidate ∈ i.half) := by
  revert h
  unfold selRanWait2
  split
  · rename_i hhalf
    intro h
    rw [advance_candidate]
    exact ⟨advance_done hst h, Or.inr (Or.inr (dread_mem hhalf.2))⟩
  split
  · rename_i hlen
    intro h
    rw [advance_candidate]
    refine ⟨advance_done hst h, Or.inl (dread_mem ?_)⟩
    exact hread.s1_ne_nil hst hslot hlen
  split
  · rename_i hlen
    have hne : i.s2 ≠ [] := fun hnil => hlen (by rw [hnil]; rfl)
    split
    all_goals
      intro h
      rw [advance_candidate]
      exact ⟨advance_done hst h, Or.inr (Or.inl (dread_mem hne))⟩
  · intro h
    exact FcbState.noConfusion (hst.symm.trans h)

theorem not_drained {v : Fcb} {st : FcbState} (hst : v.state = st) (h : st.drains = false) : ¬ v.Drained := by
  subst hst
  rintro (hc | hc | hc | ⟨hc, -⟩) <;> (rw [hc] at h; exact Bool.false_ne_true h.symm)

/-- **How the FIFOs come to be empty**: they were, they are reset, or nothing was found. -/
theorem drained_of_tick (hslot : g.slotAdjEna = true) (hadj : g.frameAdjEna = true) (hread : f.ReadsFull g i)
    (h : (f.tick g i).Drained) :
    f.Drained ∨ f.state = .done ∧ f.srst = true ∨ f.state = .selRanStart ∧ i.half = [] ∧ i.s2 = [] := by
  revert h
  unfold Fcb.tick
  split
  case h_1 hst => exact fun _ => Or.inl (Or.inl hst)
  case h_2 hst => exact fun _ => Or.inl (Or.inr (Or.inl hst))
  case h_3 =>
    split
    · exact fun h => absurd h (not_drained rfl rfl)
    · exact fun h => absurd h (not_drained rdLoop_keeps.2 rfl)
  case h_4 =>
    simp only
    split <;> exact fun h => absurd h (not_drained rfl rfl)
  case h_7 hst =>
    intro h
    rcases (@selRanStart_chooses g i f).2 with hn | hn | hn
    · exact absurd h (not_drained hn rfl)
    · exact absurd h (not_drained hn rfl)
    · obtain ⟨hhalf, hs2, -⟩ := selRanStart_done hslot hadj hn
      exact Or.inr (Or.inr ⟨hst, hhalf, hs2⟩)
  case h_8 hst =>
    simp only
    split
    · exact fun h => absurd h (not_drained rfl rfl)
    · exact fun h => absurd h (not_drained hst rfl)
  case h_9 hst =>
    intro h
    rcases (@selRanWait2_chooses g i f).2 with hn | hn
    · exact absurd h (not_drained (hn.trans hst) rfl)
    · obtain ⟨hreset, -⟩ := selRanWait2_done hslot hst hread hn
      rcases h with hc | hc | hc | ⟨-, hc⟩
      · exact FcbState.noConfusion (hn.symm.trans hc)
      · exact FcbState.noConfusion (hn.symm.trans hc)
      · exact FcbState.noConfusion (hn.symm.trans hc)
      · exact absurd (hc.symm.trans hreset) Bool.false_ne_true
  case h_10 hst =>
    intro _
    cases hreset : f.srst with
    | true => exact Or.inr (Or.inl ⟨hst, rfl⟩)
    | false => exact Or.inl (Or.inr (Or.inr (Or.inr ⟨hst, hreset⟩)))
  case h_11 hst => exact fun _ => Or.inl (Or.inr (Or.inr (Or.inl hst)))
  all_goals exact fun h => absurd h (not_drained rfl rfl)

theorem not_chosen {v : Fcb} {st : FcbState} (hst : v.state = st) (h : st.over = false)
    (hd : v.done = false) : ¬ v.Chosen := by
  subst hst
  rintro (hc | hc | hc)
  · rw [hc] at h
    exact Bool.false_ne_true h.symm
  · rw [hc] at h
    exact Bool.false_ne_true h.symm
  · exact Bool.false_ne_true (hd.symm.trans hc)

/-- **What a search ends with**: a failure, or a slot from the FIFOs; it is then kept. -/
theorem chosen_of_tick (hslot : g.slotAdjEna = true) (hadj : g.frameAdjEna = true) (hread : f.ReadsFull g i)
    (hdone : f.done = true → f.state = .idle) (h : (f.tick g i).Chosen) :
    f.Chosen ∧ (f.tick g i).fail = f.fail ∧ (f.tick g i).candidate = f.candidate
      ∨ (f.tick g i).fail = true
      ∨ (f.tick g i).candidate ∈ i.s1 ∨ (f.tick g i).candidate ∈ i.s2 ∨ (f.tick g i).candidate ∈ i.half := by
  have hlow : ∀ {st : FcbState}, f.state = st → st ≠ .idle → f.done = false := by
    intro st hst hne
    rw [← Bool.not_eq_true]
    exact fun hc => hne (hst.symm.trans (hdone hc))
  revert h
  unfold Fcb.tick
  split
  case h_1 hst =>
    split
    · exact fun h => absurd h (not_chosen rfl rfl rfl)
    · exact fun h => absurd h (not_chosen hst rfl rfl)
  case h_3 hst =>
    have hd := hlow hst nofun
    split
    · exact fun h => absurd h (not_chosen rfl rfl hd)
    · exact fun h => absurd h (not_chosen rdLoop_keeps.2 rfl (rdLoop_keeps.1.done.trans hd))
  case h_4 hst =>
    have hd := hlow hst nofun
    simp only
    split <;> exact fun h => absurd h (not_chosen rfl rfl hd)
  case h_7 hst =>
    have hd := (@selRanStart_chooses g i f).1.done.trans (hlow hst nofun)
    intro h
    rcases (@selRanStart_chooses g i f).2 with hn | hn | hn
    · exact absurd h (not_chosen hn rfl hd)
    · exact absurd h (not_chosen hn rfl hd)
    · exact Or.inr (Or.inl (selRanStart_done hslot hadj hn).2.2)
  case h_8 hst =>
    have hd := hlow hst nofun
    simp only
    split
    · exact fun h => absurd h (not_chosen rfl rfl hd)
    · exact fun h => absurd h (not_chosen hst rfl hd)
  case h_9 hst =>
    have hd := (@selRanWait2_chooses g i f).1.done.trans (hlow hst nofun)
    intro h
    rcases (@selRanWait2_chooses g i f).2 with hn | hn
    · exact absurd h (not_chosen (hn.trans hst) rfl hd)
    · exact Or.inr (Or.inr (selRanWait2_done hslot hst hread hn).2)
  case h_10 hst => exact fun _ => Or.inl ⟨Or.inl hst, rfl, rfl⟩
  case h_11 hst => exact fun _ => Or.inl ⟨Or.inr (Or.inl hst), rfl, rfl⟩
  all_goals
    rename_i hst
    exact fun h => absurd h (not_chosen rfl rfl (hlow hst nofun))

end Step

end Fcb

/-! ### The length of the frame with any received frame information -/

namespace System

/-- The pulses that change the frame length come up for a frame that can take them. -/
structure Paced (s : System) : Prop where
  pulsesDown : s.fi.PulsesDown
  pulseDown : s.unit.stu.PulseDown
  fiFrameLen : s.unit.stu.fiFrameLen.toNat ≤ 256
  exp : s.fi.frameLenExpBch = true ∨ s.unit.stu.frameLenExpDp = true → s.currFrameLen.toNat < 512

section Paced

variable {g : TdmaSetting} {s : System} {i : Cycle}

theorem le_of_pow_lt {m : ℕ} (hm : ∃ k, m = 2 ^ k) (h : m < 512) : m ≤ 256 := by
  by_contra hgt
  have := two_mul_le_of_pow ⟨8, rfl⟩ hm (by omega : 2 ^ 8 < m)
  omega

theorem fiFrameLen_tick (h : s.unit.stu.fiFrameLen.toNat ≤ 256) :
    (s.tick g i).unit.stu.fiFrameLen.toNat ≤ 256 := by
  rw [tick_stu]
  by_cases hst : s.unit.stu.state = .dispatch
  · rw [Stu.tick, hst]
    have hall : ∀ c : BitVec 4, ((1 : BitVec 9) <<< c).toNat ≤ 256 := by decide
    exact hall _
  · rw [Stu.tick_fiFrameLen _ hst]
    exact h

variable (hena : g.tdmaFunctionEnable = true) (hadj : g.frameAdjEna = true)

include hena hadj

/-- **The next length**: doubled, halved by the pulse, or the same. -/
theorem Paced.currFrameLen_tick (h : s.Paced) :
    (s.tick g i).currFrameLen.toNat = 2 * s.currFrameLen.toNat
      ∨ s.fi.frameLenCutBch = true ∧ (s.tick g i).currFrameLen.toNat = s.currFrameLen.toNat / 2
      ∨ (s.tick g i).currFrameLen.toNat = s.currFrameLen.toNat := by
  rw [tick_currFrameLen hena hadj h.exp]
  split
  · exact Or.inl rfl
  split
  · rename_i hcut
    exact Or.inr (Or.inl ⟨hcut, rfl⟩)
  · exact Or.inr (Or.inr rfl)

theorem Paced.le_tick (h : s.Paced) (hcut : s.fi.frameLenCutBch = false) :
    s.currFrameLen.toNat ≤ (s.tick g i).currFrameLen.toNat := by
  rcases h.currFrameLen_tick hena hadj (i := i) with hlen | ⟨hup, -⟩ | hlen
  · omega
  · exact absurd (hcut.symm.trans hup) Bool.false_ne_true
  · omega

/-- A decision to double is taken for fewer than 256 slots. -/
theorem Paced.tick (h : s.Paced) (hupper : ∃ k, g.adjFrameUpperBound.toNat = 2 ^ k) : (s.tick g i).Paced where
  pulsesDown := h.pulsesDown.tick g _
  pulseDown := fun hup => (Stu.tick_frameLenExpDp h.pulseDown hup).2
  fiFrameLen := fiFrameLen_tick h.fiFrameLen
  exp := by
    intro hup
    have hlt : s.currFrameLen.toNat < 256 := by
      rcases hup with hup | hup
      · have hexp : s.currFrameLen.toNat < g.adjFrameUpperBound.toNat :=
          (Fi.expands_of_tick h.pulsesDown hup).2.2.2.2.2.2
        have := le_of_pow_lt hupper g.adjFrameUpperBound.isLt
        omega
      · have hexp : s.currFrameLen.toNat < s.unit.stu.fiFrameLen.toNat :=
          (Stu.tick_frameLenExpDp h.pulseDown hup).1.2.2
        have := h.fiFrameLen
        omega
    rcases h.currFrameLen_tick hena hadj (i := i) with hlen | ⟨-, hlen⟩ | hlen <;> omega

end Paced

/-! ### What the search offers -/

def Empty (s : System) : Prop := s.s1 = [] ∧ s.s2 = [] ∧ s.half = []

/-- The search works in the present frame. -/
structure Offers (s : System) : Prop where
  scans : s.fcb.ScansWithin s.currFrameLen.toNat
  queued : ∀ q, s.Queued q → q.toNat < s.currFrameLen.toNat
  readsInTime : s.fcb.ReadsInTime
  writesBoth : s.fcb.WritesBoth
  pairs : s.fcb.state ≠ .selRanWait2 → s.fcb.state ≠ .done → s.s2 = [] → s.s1 = []
  drained : s.fcb.Drained → s.Empty
  chosen : s.fcb.Chosen → s.fcb.Settled s.currFrameLen.toNat
  fiEnd : s.fi.state = .fiEnd → s.fcb.Settled s.currFrameLen.toNat
  fiIdle : s.fi.state = .idle → s.fcb.Settled s.currFrameLen.toNat
    ∨ s.bch.state = .idle ∨ s.bch.state = .lisDecideReq ∧ s.bch.initFiStart = true

theorem Search.rests {s : System} (h : s.Search) (hfi : s.fi.state ≠ .waitFcb) :
    s.fcb.state = .idle ∧ s.fi.fcbStart = false ∧ s.fcb.done = false := by
  cases h with
  | none _ hstart hfcb hdone => exact ⟨hfcb, hstart, hdone⟩
  | asked hw => exact absurd hw hfi
  | searching hw => exact absurd hw hfi
  | answered hw => exact absurd hw hfi

theorem Search.idle_of_done {s : System} (h : s.Search) (hdone : s.fcb.done = true) :
    s.fcb.state = .idle ∧ s.fi.fcbStart = false := by
  cases h with
  | none _ hstart hfcb => exact ⟨hfcb, hstart⟩
  | asked _ _ _ hd => exact absurd (hd.symm.trans hdone) Bool.false_ne_true
  | searching _ _ _ hd => exact absurd (hd.symm.trans hdone) Bool.false_ne_true
  | answered _ hstart hfcb => exact ⟨hfcb, hstart⟩

section Offers

variable {g : TdmaSetting} {s : System} {i : Cycle}

theorem Empty.tick (h : s.Empty) (hw : ¬ s.fcb.Writing) : (s.tick g i).Empty := by
  simp only [Fcb.Writing, not_or, Bool.not_eq_true] at hw
  exact ⟨Fifo.tick_nil h.1 hw.1, Fifo.tick_nil h.2.1 hw.2.1, Fifo.tick_nil h.2.2 hw.2.2⟩

theorem empty_of_srst (h : s.fcb.srst = true) : (s.tick g i).Empty := by
  refine ⟨?_, ?_, ?_⟩ <;> exact if_pos h

theorem Empty.not_queued {q : BitVec 16} (h : s.Empty) (hw : ¬ s.fcb.Writing) : ¬ s.Queued q := by
  rintro (hq | hq | hq | ⟨hq, -⟩)
  · exact List.not_mem_nil (h.1 ▸ hq)
  · exact List.not_mem_nil (h.2.1 ▸ hq)
  · exact List.not_mem_nil (h.2.2 ▸ hq)
  · exact hw hq

theorem Offers.pairs_tick (h : s.Offers)
    (hsel : (s.tick g i).fcb.state ≠ .selRanWait2) (hdone : (s.tick g i).fcb.state ≠ .done)
    (hs2 : (s.tick g i).s2 = []) (hdrain : (s.tick g i).fcb.Drained → (s.tick g i).Empty) :
    (s.tick g i).s1 = [] := by
  have hnext := (@fcb_controls g s i).state
  by_cases hst : s.fcb.state = .done
  · rw [hst] at hnext
    exact (hdrain (Or.inr (Or.inr (Or.inl (List.mem_singleton.mp hnext))))).1
  by_cases hst' : s.fcb.state = .selRanWait2
  · rw [hst'] at hnext
    simp only [FcbState.next, List.mem_cons, List.not_mem_nil, or_false] at hnext
    rcases hnext with hn | hn
    · exact absurd hn hsel
    · exact absurd hn hdone
  have hrd := h.readsInTime.low rfl hst' hst
  rcases Fifo.of_tick_nil hrd hs2 with hreset | ⟨hold, hwr⟩
  · exact (empty_of_srst hreset).1
  · refine Fifo.tick_nil (h.pairs hst' hst hold) ?_
    rw [← Bool.not_eq_true]
    intro hc
    exact Bool.false_ne_true (hwr.symm.trans (h.writesBoth hc))

theorem Offers.drained_tick (h : s.Offers) (hw : s.fcb.WritesInTime) (hslot : g.slotAdjEna = true)
    (hadj : g.frameAdjEna = true) (hread : s.fcb.ReadsFull g (s.fcbIn i)) (hd : (s.tick g i).fcb.Drained) :
    (s.tick g i).Empty := by
  rcases Fcb.drained_of_tick hslot hadj hread hd with hold | ⟨-, hreset⟩ | ⟨hst, hhalf, hs2⟩
  · refine (h.drained hold).tick ?_
    intro hwr
    exact Fcb.not_drained (hw hwr) rfl hold
  · exact empty_of_srst hreset
  · have hs1 : s.s1 = [] := h.pairs (by rw [hst]; exact nofun)
      (by rw [hst]; exact nofun) hs2
    exact Empty.tick ⟨hs1, hs2, hhalf⟩ (hw.not_writing hst nofun)

variable (hena : g.tdmaFunctionEnable = true) (hadj : g.frameAdjEna = true)

include hena hadj

theorem Paced.le_tick_of_ne (h : s.Paced) (hne : s.fi.state ≠ .adjWinnerPre) :
    s.currFrameLen.toNat ≤ (s.tick g i).currFrameLen.toNat :=
  h.le_tick hena hadj (h.pulsesDown hne).2

theorem Offers.scans_tick (h : s.Offers) (hpaced : s.Paced) (hsearch : s.Search) :
    (s.tick g i).fcb.ScansWithin (s.tick g i).currFrameLen.toNat := by
  by_cases hpre : s.fi.state = .adjWinnerPre
  · obtain ⟨hidle, hstart, -⟩ := hsearch.rests (by rw [hpre]; exact nofun)
    rw [tick_fcb_of_rest hidle hstart]
    exact Fcb.scansWithin_of_state hidle trivial
  · have hscans : (s.tick g i).fcb.ScansWithin s.currFrameLen.toNat := h.scans.tick
    exact hscans.mono (hpaced.le_tick_of_ne hena hadj hpre)

theorem Offers.queued_tick (h : s.Offers) (hpaced : s.Paced) (hsearch : s.Search) (hw : s.fcb.WritesInTime)
    {q : BitVec 16} (hq : (s.tick g i).Queued q) : q.toNat < (s.tick g i).currFrameLen.toNat := by
  rcases System.queued_tick hw hq with hold | ⟨⟨hst, hne, -⟩, rfl⟩
  · by_cases hpre : s.fi.state = .adjWinnerPre
    · obtain ⟨hidle, -⟩ := hsearch.rests (by rw [hpre]; exact nofun)
      have hno : ¬ s.Queued q :=
        (h.drained (Or.inl hidle)).not_queued (hw.not_writing hidle nofun)
      exact absurd hold hno
    · exact Nat.lt_of_lt_of_le (h.queued q hold) (hpaced.le_tick_of_ne hena hadj hpre)
  · have hwait := hsearch.waitFcb (by rw [hst]; exact nofun)
    have hle := hpaced.le_tick_of_ne (i := i) hena hadj (by rw [hwait]; exact nofun)
    have hscan := h.scans
    rw [Fcb.ScansWithin, hst] at hscan
    have hlt : s.fcb.addr.toNat < s.currFrameLen.toNat := Nat.lt_of_le_of_ne hscan hne
    rw [BitVec.toNat_setWidth, Nat.mod_eq_of_lt (by omega)]
    omega

theorem Offers.settled_rest (hpaced : s.Paced) (hne : s.fi.state ≠ .adjWinnerPre) (hfcb : s.fcb.state = .idle)
    (hstart : s.fi.fcbStart = false) (h : s.fcb.Settled s.currFrameLen.toNat) :
    (s.tick g i).fcb.Settled (s.tick g i).currFrameLen.toNat := by
  rw [tick_fcb_of_rest hfcb hstart]
  refine h.imp_right ?_
  intro hlt
  exact Nat.lt_of_lt_of_le hlt (hpaced.le_tick_of_ne hena hadj hne)

theorem Offers.chosen_tick (h : s.Offers) (hpaced : s.Paced) (hsearch : s.Search) (hslot : g.slotAdjEna = true)
    (hread : s.fcb.ReadsFull g (s.fcbIn i)) (hc : (s.tick g i).fcb.Chosen) :
    (s.tick g i).fcb.Settled (s.tick g i).currFrameLen.toNat := by
  have hle : s.fcb.state ≠ .idle → s.currFrameLen.toNat ≤ (s.tick g i).currFrameLen.toNat := by
    intro hbusy
    refine hpaced.le_tick_of_ne hena hadj ?_
    rw [hsearch.waitFcb hbusy]
    exact nofun
  by_cases hidle : s.fcb.state = .idle
  · -- a search at rest takes its answer back
    obtain ⟨hdone, hst⟩ := @tick_fcb_of_idle g s i hidle
    refine absurd hc (Fcb.not_chosen hst ?_ hdone)
    cases s.fi.fcbStart <;> rfl
  · have hnext := Fcb.chosen_of_tick hslot hadj hread (fun hd => (hsearch.idle_of_done hd).1) hc
    rcases hnext with ⟨hold, hfail, hcand⟩ | hfail | hmem
    · rcases h.chosen hold with hf | hlt
      · exact Or.inl (hfail.trans hf)
      · right
        change (s.fcb.tick g (s.fcbIn i)).candidate.toNat < _
        rw [hcand]
        exact Nat.lt_of_lt_of_le hlt (hle hidle)
    · exact Or.inl hfail
    · right
      refine Nat.lt_of_lt_of_le (h.queued _ ?_) (hle hidle)
      rcases hmem with hm | hm | hm
      · exact Or.inl hm
      · exact Or.inr (Or.inl hm)
      · exact Or.inr (Or.inr (Or.inl hm))

theorem Offers.fiEnd_tick (h : s.Offers) (hpaced : s.Paced) (hsearch : s.Search)
    (hst : (s.tick g i).fi.state = .fiEnd) : (s.tick g i).fcb.Settled (s.tick g i).currFrameLen.toNat := by
  by_cases hold : s.fi.state = .fiEnd
  · obtain ⟨hidle, hstart, -⟩ := hsearch.rests (by rw [hold]; exact FiState.noConfusion)
    exact Offers.settled_rest hena hadj hpaced (by rw [hold]; exact FiState.noConfusion) hidle hstart
      (h.fiEnd hold)
  · have hnext := (@fi_controls g s i).state
    rw [hst] at hnext
    have hwait : s.fi.state = .waitFcb := by
      revert hnext hold
      cases s.fi.state <;> simp [FiState.next]
    have hdone : s.fcb.done = true := by
      obtain ⟨-, hfi⟩ := @tick_fi_of_waitFcb g s i hwait
      rw [hst] at hfi
      by_contra hc
      rw [if_neg hc] at hfi
      exact FiState.noConfusion hfi
    obtain ⟨hidle, hstart⟩ := hsearch.idle_of_done hdone
    exact Offers.settled_rest hena hadj hpaced (by rw [hwait]; exact FiState.noConfusion) hidle hstart
      (h.chosen (Or.inr (Or.inr hdone)))

theorem Offers.fiIdle_tick (h : s.Offers) (hpaced : s.Paced) (hsearch : s.Search)
    (hst : (s.tick g i).fi.state = .idle) :
    (s.tick g i).fcb.Settled (s.tick g i).currFrameLen.toNat ∨ (s.tick g i).bch.state = .idle
      ∨ (s.tick g i).bch.state = .lisDecideReq ∧ (s.tick g i).bch.initFiStart = true := by
  have hrest : s.fi.state ≠ .waitFcb → s.fi.state ≠ .adjWinnerPre → s.fcb.Settled s.currFrameLen.toNat →
      (s.tick g i).fcb.Settled (s.tick g i).currFrameLen.toNat := by
    intro hwait hpre hset
    obtain ⟨hidle, hstart, -⟩ := hsearch.rests hwait
    exact Offers.settled_rest hena hadj hpaced hpre hidle hstart hset
  have hnext := (@fi_controls g s i).state
  rw [hst] at hnext
  have hfi : s.fi.state = .idle ∨ s.fi.state = .fiEnd := by
    revert hnext
    cases s.fi.state <;> simp [FiState.next]
  rcases hfi with hfi | hfi
  · rcases h.fiIdle hfi with hset | hbch | ⟨-, hinit⟩
    · exact Or.inl (hrest (by rw [hfi]; exact FiState.noConfusion) (by rw [hfi]; exact FiState.noConfusion) hset)
    · exact Or.inr (Bch.tick_of_idle hbch)
    · -- the request for a build is taken at once
      have hgo : (s.tick g i).fi.state = .startPre := Fi.tick_of_initFiStart hfi hinit
      exact FiState.noConfusion (hst.symm.trans hgo)
  · exact Or.inl (hrest (by rw [hfi]; exact FiState.noConfusion) (by rw [hfi]; exact FiState.noConfusion)
      (h.fiEnd hfi))

/-- **A cycle of the search.** -/
theorem Offers.tick (h : s.Offers) (hpaced : s.Paced) (hsearch : s.Search) (hw : s.fcb.WritesInTime)
    (hslot : g.slotAdjEna = true) (hread : s.fcb.ReadsFull g (s.fcbIn i)) : (s.tick g i).Offers where
  scans := h.scans_tick hena hadj hpaced hsearch
  queued := fun _ hq => h.queued_tick hena hadj hpaced hsearch hw hq
  readsInTime := h.readsInTime.tick
  writesBoth := h.writesBoth.tick hslot
  pairs := fun hsel hdone hs2 => h.pairs_tick hsel hdone hs2 (h.drained_tick hw hslot hadj hread)
  drained := h.drained_tick hw hslot hadj hread
  chosen := h.chosen_tick hena hadj hpaced hsearch hslot hread
  fiEnd := h.fiEnd_tick hena hadj hpaced hsearch
  fiIdle := h.fiIdle_tick hena hadj hpaced hsearch

end Offers

/-! ### The work slot -/

/-- What a cycle has to grant: a candidate is taken when no build or search is going on, a node that finds itself
alone has been offered a slot, and where the builder reads a guarded slot of the upper half, it finds it busy. -/
structure WorkSafe (g : TdmaSetting) (s : System) (i : Cycle) : Prop where
  takes : s.bch.Takes g (s.bchIn i) → s.fi.state = .idle ∨ s.fi.state = .fiEnd
  single : s.bch.nextState g (s.bchIn i) = .ifSingleSet2 → s.fcb.fail = false
  busy : s.fi.state = .loop1 → s.bch.Guards (s.fi.addr.setWidth 16) →
    s.currFrameLen.toNat / 2 ≤ s.fi.addr.toNat → s.ram.doutB.busy ≠ 0
  reads : s.fcb.ReadsFull g (s.fcbIn i)

/-- The slots that the node needs are in the frame, and a halving that may come leaves them in it. -/
structure Anchored (s : System) : Prop where
  shared : s.Shared
  writes : s.fcb.WritesInTime
  paced : s.Paced
  offers : s.Offers
  lisFcb : s.bch.state = .lisFcb →
    (s.fcb.fail = true ∨ s.bch.workPointer.toNat < s.currFrameLen.toNat) ∧ s.fi.state.beforeScan = true
  inFrame : ∀ q, s.bch.Guards q → q.toNat < s.currFrameLen.toNat
  passed : ∀ q, s.bch.Guards q → s.fi.Passed q.toNat → s.fi.frameCutFlag = true →
    q.toNat < s.currFrameLen.toNat / 2
  cut : s.fi.frameLenCutBch = true → ∀ q, s.bch.Guards q → q.toNat < s.currFrameLen.toNat / 2

section Anchored

variable {g : TdmaSetting} {s : System} {i : Cycle} {q : BitVec 16}

theorem beforeScan_of_rest (h : s.fi.state = .idle ∨ s.fi.state = .fiEnd) : s.fi.state.beforeScan = true := by
  rcases h with hst | hst <;> (rw [hst]; rfl)

theorem ne_adjWinnerPre_of_beforeScan (h : s.fi.state.beforeScan = true) : s.fi.state ≠ .adjWinnerPre := by
  intro hst
  rw [hst] at h
  exact Bool.false_ne_true h

theorem Anchored.settled (h : s.Anchored) (hok : s.WorkSafe g i) (ht : s.bch.Takes g (s.bchIn i)) :
    s.fcb.Settled s.currFrameLen.toNat := by
  rcases hok.takes ht with hfi | hfi
  · rcases h.offers.fiIdle hfi with hset | hbch | ⟨hbch, -⟩
    · exact hset
    · exact absurd ht (Bch.not_takes (Or.inl hbch))
    · exact absurd ht (Bch.not_takes (Or.inr hbch))
  · exact h.offers.fiEnd hfi

/-- **A slot that comes to be guarded** is in the frame, and no scan is going on. -/
theorem Anchored.guards_tick (h : s.Anchored) (hok : s.WorkSafe g i) (hq : (s.tick g i).bch.Guards q) :
    s.bch.Guards q ∨ q.toNat < s.currFrameLen.toNat ∧ s.fi.state.beforeScan = true := by
  rcases Bch.guards_tick hq with hold | ⟨hclaims, rfl⟩ | ⟨hst, hfail, rfl⟩
  · exact Or.inl hold
  · right
    have hfail : s.fcb.fail = false := by
      rcases hclaims with ⟨-, hf⟩ | hn | hn
      · exact hf
      · exact (Bch.workFiFcb_of_nextState hn).fcbFail
      · exact hok.single hn
    have hset := (h.settled hok (Or.inr hclaims)).resolve_left (by rw [hfail]; exact Bool.false_ne_true)
    exact ⟨hset, beforeScan_of_rest (hok.takes (Or.inr hclaims))⟩
  · right
    obtain ⟨hor, hbefore⟩ := h.lisFcb hst
    have hlow : ¬ s.fcb.fail = true := by
      rw [show s.fcb.fail = false from hfail]
      exact Bool.false_ne_true
    exact ⟨hor.resolve_left hlow, hbefore⟩

variable (hena : g.tdmaFunctionEnable = true) (hadj : g.frameAdjEna = true)

include hena hadj

theorem Anchored.inFrame_tick (h : s.Anchored) (hok : s.WorkSafe g i) (hq : (s.tick g i).bch.Guards q) :
    q.toNat < (s.tick g i).currFrameLen.toNat := by
  rcases h.guards_tick hok hq with hold | ⟨hlt, hbefore⟩
  · have hlt := h.inFrame q hold
    rcases h.paced.currFrameLen_tick hena hadj (i := i) with hlen | ⟨hcut, hlen⟩ | hlen
    · omega
    · have := h.cut hcut q hold
      omega
    · omega
  · exact Nat.lt_of_lt_of_le hlt
      (h.paced.le_tick_of_ne hena hadj (ne_adjWinnerPre_of_beforeScan hbefore))

theorem Anchored.passed_tick (h : s.Anchored) (hok : s.WorkSafe g i) (hq : (s.tick g i).bch.Guards q)
    (hpass : (s.tick g i).fi.Passed q.toNat) (hflag : (s.tick g i).fi.frameCutFlag = true) :
    q.toNat < (s.tick g i).currFrameLen.toNat / 2 := by
  have hold : s.bch.Guards q := by
    rcases h.guards_tick hok hq with hold | ⟨-, hbefore⟩
    · exact hold
    · exact absurd hpass (Fi.not_passed_of_beforeScan hbefore)
  have hst : s.fi.state ≠ .idle ∧ s.fi.state ≠ .adjIsNeeded ∧ s.fi.state ≠ .adjWinnerPre := by
    refine ⟨?_, ?_, ?_⟩ <;> (intro hst; rw [tick_fi, Fi.tick, hst] at hpass)
    · exact Fi.idle_not_passed hst hpass
    · exact Fi.adjIsNeeded_not_passed hpass
    · exact hpass
  obtain ⟨hup, hfree⟩ := Fi.frameCutFlag_tick hst.1 hst.2.1 hflag
  have hhalf : (s.currFrameLen >>> 1).toNat = s.currFrameLen.toNat / 2 := by
    rw [BitVec.toNat_ushiftRight, Nat.shiftRight_eq_div_pow]
  have hlow : q.toNat < s.currFrameLen.toNat / 2 := by
    rcases Fi.passed_tick hpass with hp | ⟨hloop, haddr⟩ | ⟨hpre, hend⟩
    · exact h.passed q hold hp hup
    · by_contra hge
      have hqa : s.fi.addr.setWidth 16 = q := by
        apply BitVec.eq_of_toNat_eq
        rw [BitVec.toNat_setWidth, Nat.mod_eq_of_lt (by omega), haddr]
      have hbusy := hok.busy hloop (by rw [hqa]; exact hold) (by omega)
      refine hfree hloop ⟨hbusy, ?_⟩
      change s.fi.addr.toNat ≥ (s.currFrameLen >>> 1).toNat
      omega
    · -- at the end every slot of the frame has been read
      refine h.passed q hold ?_ hup
      rw [Fi.Passed, hpre]
      exact Nat.lt_of_lt_of_eq (h.inFrame q hold) hend.symm
  have hle := h.paced.le_tick_of_ne (i := i) hena hadj hst.2.2
  omega

theorem Anchored.cut_tick (h : s.Anchored) (hok : s.WorkSafe g i) (hq : (s.tick g i).bch.Guards q)
    (hcut : (s.tick g i).fi.frameLenCutBch = true) : q.toNat < (s.tick g i).currFrameLen.toNat / 2 := by
  obtain ⟨hst, hflag, -⟩ := Fi.canCut_of_tick h.paced.pulsesDown hcut
  have hold : s.bch.Guards q := by
    rcases h.guards_tick hok hq with hold | ⟨-, hbefore⟩
    · exact hold
    · rw [hst] at hbefore
      exact nomatch hbefore
  have hlow := h.passed q hold (by rw [Fi.Passed, hst]; trivial) hflag
  have hle := h.paced.le_tick_of_ne (i := i) hena hadj (by rw [hst]; exact nofun)
  omega

theorem Anchored.lisFcb_tick (h : s.Anchored) (hok : s.WorkSafe g i) (hst : (s.tick g i).bch.state = .lisFcb) :
    ((s.tick g i).fcb.fail = true ∨ (s.tick g i).bch.workPointer.toNat < (s.tick g i).currFrameLen.toNat)
      ∧ (s.tick g i).fi.state.beforeScan = true := by
  have hn : s.bch.nextState g (s.bchIn i) = .lisFcb := hst
  have hfi := hok.takes (Or.inl hn)
  have hbefore := beforeScan_of_rest hfi
  obtain ⟨hidle, hstart, -⟩ := h.shared.search.rests (by rcases hfi with hc | hc <;> rw [hc] <;>
    exact nofun)
  constructor
  · have hset := Offers.settled_rest (i := i) hena hadj h.paced (ne_adjWinnerPre_of_beforeScan hbefore) hidle
      hstart (h.settled hok (Or.inl hn))
    refine hset.imp_right ?_
    intro hlt
    have hwork : (s.tick g i).bch.workPointer = (s.tick g i).fcb.candidate := by
      rw [tick_fcb_of_rest hidle hstart]
      change (s.bch.tick g (s.bchIn i)).workPointer = _
      rw [Bch.tick, hn]
      rfl
    rw [hwork]
    exact hlt
  · have hnext := (@fi_controls g s i).state
    revert hnext
    rcases hfi with hc | hc <;> rw [hc] <;>
      simp only [FiState.next, List.mem_cons, List.not_mem_nil, or_false]
    · rintro (hm | hm | hm) <;> (rw [hm]; rfl)
    · rintro (hm | hm) <;> (rw [hm]; rfl)

/-- **A cycle that keeps the slots in the frame.** -/
theorem Anchored.tick (hslot : g.slotAdjEna = true) (hupper : ∃ k, g.adjFrameUpperBound.toNat = 2 ^ k)
    (h : s.Anchored) (hok : s.WorkSafe g i) : (s.tick g i).Anchored where
  shared := h.shared.tick
  writes := h.writes.tick
  paced := h.paced.tick hena hadj hupper
  offers := h.offers.tick hena hadj h.paced h.shared.search h.writes hslot hok.reads
  lisFcb := h.lisFcb_tick hena hadj hok
  inFrame := fun _ hq => h.inFrame_tick hena hadj hok hq
  passed := fun _ hq => h.passed_tick hena hadj hok hq
  cut := fun hcut _ hq => h.cut_tick hena hadj hok hq hcut

end Anchored

/-! ### Runs -/

section Run

variable {g : TdmaSetting} {len : BitVec 10} {inp : ℕ → Cycle} {n : ℕ}

theorem offers_reset : (reset len).Offers where
  scans := trivial
  queued := by
    rintro q (hq | hq | hq | ⟨hq | hq | hq, -⟩)
    · exact absurd hq List.not_mem_nil
    · exact absurd hq List.not_mem_nil
    · exact absurd hq List.not_mem_nil
    all_goals exact nomatch hq
  readsInTime := fun h => nomatch h
  writesBoth := fun h => nomatch h
  pairs := fun _ _ _ => rfl
  drained := fun _ => ⟨rfl, rfl, rfl⟩
  chosen := by
    rintro (h | h | h)
    · exact FcbState.noConfusion h
    · exact FcbState.noConfusion h
    · exact nomatch h
  fiEnd := nofun
  fiIdle := fun _ => Or.inr (Or.inl rfl)

theorem not_guards_reset {q : BitVec 16} : ¬ (reset len).bch.Guards q := by
  rintro (⟨h, -⟩ | ⟨h | h, -⟩)
  · exact Bool.false_ne_true h.symm
  · exact Bool.false_ne_true h
  · exact Bool.false_ne_true h

theorem anchored_reset : (reset len).Anchored where
  shared := shared_reset len
  writes := writesInTime_reset len
  paced := ⟨fun _ => ⟨rfl, rfl⟩, fun h => absurd h Bool.false_ne_true, Nat.zero_le _,
    fun h => h.elim (fun h => absurd h Bool.false_ne_true) fun h => absurd h Bool.false_ne_true⟩
  offers := offers_reset
  lisFcb := nofun
  inFrame := fun _ hq => absurd hq not_guards_reset
  passed := fun _ hq => absurd hq not_guards_reset
  cut := fun h => nomatch h

theorem bch_idle_of_disabled (hoff : g.tdmaFunctionEnable = false) :
    (run g inp len n).bch.state = .idle := by
  induction n with
  | zero => rfl
  | succ n ih =>
    change (run g inp len n).bch.nextState g _ = _
    rw [Bch.nextState, ih]
    exact if_neg fun h => absurd (hoff.symm.trans h.1) Bool.false_ne_true

/-- **The work slot stays in the frame.**  With both adjustments on and an upper bound that is a power of two, on
any received frame informations: once the node is past listening, its work slot is below the frame length, in every
run whose cycles find the guarded slots of the upper half busy. -/
theorem workPointer_lt_of_workSafe (hadj : g.frameAdjEna = true) (hslot : g.slotAdjEna = true)
    (hupper : ∃ k, g.adjFrameUpperBound.toNat = 2 ^ k)
    (hok : ∀ m < n, (trace (tick g) inp (reset len) m).WorkSafe g (inp m))
    (hpast : (trace (tick g) inp (reset len) n).bch.state.listening = false) :
    (trace (tick g) inp (reset len) n).bch.workPointer.toNat
      < (trace (tick g) inp (reset len) n).currFrameLen.toNat := by
  cases hena : g.tdmaFunctionEnable with
  | false =>
    rw [bch_idle_of_disabled hena] at hpast
    exact absurd hpast.symm Bool.false_ne_true
  | true =>
    have hanch : (trace (tick g) inp (reset len) n).Anchored :=
      trace_invariant anchored_reset (fun _ _ h hsafe => h.tick hena hadj hslot hupper hsafe) hok
    exact hanch.inFrame _ (Or.inl ⟨hpast, rfl⟩)

end Run

/-! ### A node that is stranded -/

/-- A node whose frame of four slots may be halved. -/
def strandedSetting : TdmaSetting where
  globalSid := 5
  bchCandidateC3hopThresS1 := 3
  adjFrameLowerBound := 2
  adjFrameUpperBound := 4

/-- Node 7 holds the slots 0 and 1. -/
def strandedPkt0 : RcvPkt := fun k =>
  if k = 20 then 1 + 7 * 2 ^ 4 + 2 * 2 ^ 12 + 7 * 2 ^ 14 + 2 * 2 ^ 26 + 7 * 2 ^ 28 else 0

/-- Node 7 gives them up and takes slot 2 with a higher priority. -/
def strandedPkt1 : RcvPkt := fun k =>
  if k = 20 then 2 + 7 * 2 ^ 4 else if k = 21 then 2 * 2 ^ 8 + 7 * 2 ^ 10 + 1 * 2 ^ 20 else 0

/-- Node 7 gives slot 2 up. -/
def strandedPkt2 : RcvPkt := fun k => if k = 20 then 2 + 7 * 2 ^ 4 else 0

/-- The bus answers the first build after the slots 0 and 1 are taken, so that the node claims slot 2.  Before that
slot comes, node 7 takes it over and gives it up again. -/
def strandedInp (n : ℕ) : Cycle where
  slotPointer := if n < 210 then BitVec.ofNat 16 (n / 40 % 4) else if n < 440 then 0 else 1
  slotPulse2Counter := if 440 ≤ n then 990 else 0
  stuStart := n == 0 || n == 215 || n == 375
  rcvPkt := if n < 215 then strandedPkt0 else if n < 375 then strandedPkt1 else strandedPkt2
  ipicAck := decide (100 ≤ n)
  ipicDone := true
  dividerDone := true

abbrev stranded : ℕ → System := trace (tick strandedSetting) strandedInp (reset 4)

/-- The build after the claim finds slot 2 busy. -/
theorem workPointer_lt_stranded :
    (stranded 250).bch.state.listening = false
      ∧ (stranded 250).bch.workPointer.toNat < (stranded 250).currFrameLen.toNat := by
  have hrun : (∀ k < 250,
        ((stranded k).bch.Takes strandedSetting ((stranded k).bchIn (strandedInp k)) →
          (stranded k).fi.state = .idle ∨ (stranded k).fi.state = .fiEnd)
        ∧ (stranded k).bch.nextState strandedSetting ((stranded k).bchIn (strandedInp k)) ≠ .ifSingleSet2
        ∧ ((stranded k).fi.state = .loop1 → (stranded k).bch.Guards ((stranded k).fi.addr.setWidth 16) →
          (stranded k).currFrameLen.toNat / 2 ≤ (stranded k).fi.addr.toNat → (stranded k).ram.doutB.busy ≠ 0)
        ∧ ((stranded k).fcb.state = .selRanWait2 → (stranded k).s1 ≠ []))
      ∧ (stranded 250).bch.state.listening = false := by
    decide +kernel
  obtain ⟨hall, hpast⟩ := hrun
  refine ⟨hpast, workPointer_lt_of_workSafe rfl rfl ⟨2, rfl⟩ ?_ hpast⟩
  intro k hk
  obtain ⟨htakes, hsingle, hbusy, hfull⟩ := hall k hk
  exact ⟨htakes, fun hn => absurd hn hsingle, hbusy, fun hst _ => Or.inr (hfull hst)⟩

/-- The frame is halved although the node waits for slot 2. -/
theorem halving_strands_node :
    ¬ ∀ (g : TdmaSetting) (len : BitVec 10) (inp : ℕ → Cycle) (n : ℕ), g.frameAdjEna = true →
      g.slotAdjEna = true → g.PowerBounds → g.Within len.toNat →
      (trace (tick g) inp (reset len) n).bch.state.listening = false →
      (trace (tick g) inp (reset len) n).bch.workPointer.toNat
        < (trace (tick g) inp (reset len) n).currFrameLen.toNat := by
  intro h
  have hrun : (stranded 580).bch.state = .waitReqWait ∧ (stranded 580).bch.workPointer = 2
      ∧ (stranded 580).currFrameLen = 2 := by decide +kernel
  obtain ⟨hst, hwork, hlen⟩ := hrun
  have hb : strandedSetting.PowerBounds := ⟨⟨1, rfl⟩, ⟨2, rfl⟩, by decide, by decide⟩
  have hw : strandedSetting.Within 4 := ⟨⟨2, rfl⟩, by decide, by decide⟩
  have hlt := h strandedSetting 4 strandedInp 580 rfl rfl hb hw (by rw [hst]; rfl)
  rw [hwork, hlen] at hlt
  exact absurd hlt (by decide)

end System

end VanetTdma.Fpga
