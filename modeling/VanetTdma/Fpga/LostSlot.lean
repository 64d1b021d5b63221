import VanetTdma.Fpga.RequestCheck

/-!
# A slot that is lost (`tdma_control.v`)

The BCH machine checks the entry of its slot each time the slot comes.  A node that has asked for an adjustment slot
looks, when its own slot is lost, for the other one; every other node counts the loss, gives the slot up and takes the
candidate of the last search.

* `FallsBack` — from `BCH_WORK_ADJ_WAIT` to the adjustment slot, without a collision;
* `fallsBack_iff_of_lost` — this depends on the entry that was lost, read once more: the states that read the entry of
  the adjustment slot are never entered;
* `Departs` — the search that offers the next slot rests, and offers another entry;
* `leaves_lost_slot` — a node that counts a loss then leaves the slot, free and locked.
-/

namespace VanetTdma.Fpga

open VanetTdma.Clocked VanetTdma.DualPort

/-! ### The BCH machine -/

namespace BchState

/-- The states in which a raised write enable stands for a claim. -/
def keepsClaim : BchState → Bool
  | waitReqFcbDone | waitReqWait | waitReqFiSendStart | waitReqFiSendWait | waitReqFiSendDone => true
  | reqFailCount | waitReqFcbPre | waitReqFcbPreWait => true
  | _ => false

/-- The states between the choice of a slot and its first check. -/
def chosen : BchState → Bool
  | lisFcb | waitReqFiInitStart | waitReqFiInitWait | waitReqFcbDone | waitReqWait => true
  | _ => false

section Next

variable {st n : BchState}

theorem keepsClaim_of_next (hnext : n ∈ st.next) (h : n.keepsClaim = true) :
    st.keepsClaim = true ∨ st.quiet = true ∨ n = .waitReqFcbDone := by
  have hall : ∀ st : BchState, (st.next.all fun n => !n.keepsClaim ||
      (st.keepsClaim || (st.quiet || n == .waitReqFcbDone))) = true := by
    intro st
    cases st <;> rfl
  simpa [h] using of_next hall hnext

theorem chosen_of_next (hnext : n ∈ st.next) (h : n.chosen = true) :
    n = .lisFcb ∨ n = .waitReqFcbDone ∨ st.chosen = true := by
  have hall : ∀ st : BchState, (st.next.all fun n => !n.chosen ||
      (n == .lisFcb || (n == .waitReqFcbDone || st.chosen))) = true := by
    intro st
    cases st <;> rfl
  simpa [h] using of_next hall hnext

end Next

end BchState

namespace Bch

variable {g : TdmaSetting} {i : BchIn} {b : Bch} {n : BchState}

theorem tick_of_nextState (h : b.nextState g i = n) : b.tick g i = { b.act g i n with state := n } := by
  rw [tick, h]

/-- What is written while a claim is kept. -/
def Claiming (g : TdmaSetting) (b : Bch) : Prop :=
  b.state.keepsClaim = true → b.we = true → b.din.occupierSid = g.globalSid

theorem act_of_keepsClaim (h : n.keepsClaim = true) (hn : n ≠ .waitReqFcbDone) :
    (b.act g i n).we = b.we ∧ (b.act g i n).din = b.din := by
  cases n <;> first
    | exact absurd h Bool.false_ne_true
    | exact absurd rfl hn
    | exact ⟨rfl, rfl⟩

theorem Claiming.tick (hr : b.Regular) (h : b.Claiming g) : (b.tick g i).Claiming g := by
  intro hst
  change (b.act g i (b.nextState g i)).we = true → (b.act g i (b.nextState g i)).din.occupierSid = g.globalSid
  by_cases hdone : b.nextState g i = .waitReqFcbDone
  · rw [hdone]
    simp only [act]
    split
    · exact fun hwe => absurd hwe Bool.false_ne_true
    · exact fun _ => rfl
  · have hact : (b.act g i (b.nextState g i)).we = b.we ∧ (b.act g i (b.nextState g i)).din = b.din :=
      act_of_keepsClaim hst hdone
    rw [hact.1, hact.2]
    rcases BchState.keepsClaim_of_next (nextState_mem g i b) hst with hold | hquiet | hd
    · exact h hold
    · intro hwe'
      rw [hr.quiet hquiet] at hwe'
      exact absurd hwe' Bool.false_ne_true
    · exact absurd hd hdone

theorem act_workPointer_of_chosen (h : n.chosen = true) (hlis : n ≠ .lisFcb) (hdone : n ≠ .waitReqFcbDone) :
    (b.act g i n).workPointer = b.workPointer := by
  cases n <;> first
    | exact absurd h Bool.false_ne_true
    | exact absurd rfl hlis
    | exact absurd rfl hdone
    | rfl

theorem fcbFail_of_chosen (hst : b.state = .lisFcb ∨ b.state = .waitReqFcbDone)
    (h : (b.nextState g i).chosen = true) : i.fcbFail = false := by
  rw [← Bool.not_eq_true]
  intro hfail
  have hcount : b.nextState g i = .fcbFailCount := by
    rcases hst with hst | hst
    · simp only [nextState, hst]
      exact if_pos hfail
    · simp only [nextState, hst]
      exact if_pos hfail
  rw [hcount] at h
  exact Bool.false_ne_true h

theorem tick_of_giveUp (hst : b.state = .waitReqFcbPreWait) (hown : i.dout.occupierSid = g.globalSid) :
    b.tick g i = { b with state := .waitReqFcbStart, we := true, din := giveUp b.din } := by
  have hn : b.nextState g i = .waitReqFcbStart := by
    simp only [nextState, hst]
  rw [tick_of_nextState hn]
  simp only [act]
  rw [if_pos hown.symm]

/-! #### The adjustment slot -/

theorem tick_of_lost (hst : b.state = .workAdjWait) (hown : i.slotPointer = b.workPointer)
    (hlost : ¬ Usable g.globalSid i.dout) : b.tick g i = { b with state := .workAdjDecideAdjBchInvalid } := by
  refine tick_of_nextState ?_
  simp only [nextState, hst]
  rw [if_pos hown]
  exact if_neg hlost

theorem tick_of_decide (hst : b.state = .workAdjDecideAdjBchInvalid) :
    (b.tick g i).state = (if Usable g.globalSid i.dout then .workAdjSetBch1BchInvalid else .colCount)
      ∧ (Usable g.globalSid i.dout → (b.tick g i).workPointer = b.decideAdj) := by
  have hn : b.nextState g i = if Usable g.globalSid i.dout then .workAdjSetBch1BchInvalid else .colCount := by
    simp only [nextState, hst]
  refine ⟨hn, fun husable => ?_⟩
  rw [if_pos husable] at hn
  rw [tick_of_nextState hn]
  rfl

theorem tick_of_setBch1 (hst : b.state = .workAdjSetBch1BchInvalid) :
    (b.tick g i).state = .workAdjSetBch2BchInvalid ∧ (b.tick g i).workPointer = b.workPointer := by
  have hn : b.nextState g i = .workAdjSetBch2BchInvalid := by
    simp only [nextState, hst]
  rw [tick_of_nextState hn]
  exact ⟨rfl, rfl⟩

theorem tick_of_setBch2 (hst : b.state = .workAdjSetBch2BchInvalid) :
    (b.tick g i).state = .workFiWait ∧ (b.tick g i).workPointer = b.workPointer := by
  have hn : b.nextState g i = .workFiWait := by
    simp only [nextState, hst]
  rw [tick_of_nextState hn]
  exact ⟨rfl, rfl⟩

/-- The machine in a state, at a slot, with no adjustment under way. -/
structure At (st : BchState) (q : BitVec 16) (b : Bch) : Prop where
  state : b.state = st
  slot : b.workPointer = q
  settled : b.adjFlag = false

variable {q : BitVec 16}

/-- The slot that the node is at after its own slot was found usable. -/
def kept (i : BchIn) (b : Bch) : BitVec 16 := if i.adjSlotWin then b.decideAdj else b.workPointer

theorem At.setStatus (h : b.At .workAdjWait b.workPointer) (hown : i.slotPointer = b.workPointer)
    (husable : Usable g.globalSid i.dout) : (b.tick g i).At .workAdjSetStatus (b.kept i) := by
  have hn : b.nextState g i = .workAdjSetStatus := by
    simp only [nextState, h.state]
    rw [if_pos hown]
    exact if_pos husable
  rw [tick_of_nextState hn]
  unfold kept
  simp only [act]
  split
  · exact ⟨rfl, rfl, h.settled⟩
  · exact ⟨rfl, rfl, h.settled⟩

theorem At.sendStart (h : b.At .workAdjSetStatus q) : (b.tick g i).At .workAdjSendFiStart q := by
  have hn : b.nextState g i = .workAdjSendFiStart := by
    simp only [nextState, h.state]
  rw [tick_of_nextState hn]
  exact ⟨rfl, h.slot, h.settled⟩

theorem At.sendWait (h : b.At .workAdjSendFiStart q) : (b.tick g i).At .workAdjSendFiWait q := by
  have hn : b.nextState g i = .workAdjSendFiWait := by
    simp only [nextState, h.state]
  rw [tick_of_nextState hn]
  exact ⟨rfl, h.slot, h.settled⟩

theorem At.sent (h : b.At .workAdjSendFiWait q) :
    (b.tick g i).At (if i.sendFiDone then .workEnaTx else .workAdjSendFiWait) q := by
  have hn : b.nextState g i = if i.sendFiDone then .workEnaTx else .workAdjSendFiWait := by
    simp only [nextState, h.state]
  rw [tick_of_nextState hn]
  split
  · exact ⟨rfl, h.slot, h.settled⟩
  · exact ⟨rfl, h.slot, h.settled⟩

theorem At.enaTx (h : b.At .workEnaTx q) :
    (b.tick g i).At (if i.slotPointer ≠ q then .workDisaTx else .workEnaTx) q := by
  have hn : b.nextState g i = if i.slotPointer ≠ q then .workDisaTx else .workEnaTx := by
    simp only [nextState, h.state, h.slot]
  rw [tick_of_nextState hn]
  split
  · exact ⟨rfl, h.slot, h.settled⟩
  · exact ⟨rfl, h.slot, h.settled⟩

theorem At.disaTx (h : b.At .workDisaTx q) : (b.tick g i).At .workFiWait q := by
  have hn : b.nextState g i = .workFiWait := by
    simp only [nextState, h.state, h.settled]
    exact if_neg Bool.false_ne_true
  rw [tick_of_nextState hn]
  exact ⟨rfl, h.slot, h.settled⟩

end Bch

namespace System

/-! ### The fallback to the adjustment slot -/

/-- From cycle `n` on the machine comes to `BCH_WORK_FI_WAIT` at the slot it had asked for, and counts no collision on
the way. -/
def FallsBack (run : ℕ → System) (n : ℕ) : Prop :=
  ∃ m, n ≤ m ∧ (run m).bch.state = .workFiWait ∧ (run m).bch.workPointer = (run n).bch.decideAdj
    ∧ ∀ k, n ≤ k → k < m → (run k).bch.state ≠ .workFiWait ∧ (run k).bch.state ≠ .colCount

section Fallback

variable {g : TdmaSetting} {len : BitVec 10} {inp : ℕ → Cycle} {n : ℕ}

theorem settled_of_workAdjWait (hst : (run g inp len n).bch.state = .workAdjWait) :
    (run g inp len n).bch.adjFlag = false := by
  cases n with
  | zero => exact BchState.noConfusion hst
  | succ n =>
    have hn : (run g inp len n).bch.nextState g
        ((run g inp len n).bchIn (inp n)) = .workAdjWait := hst
    have htick := Bch.tick_of_nextState hn
    change ((run g inp len n).bch.tick g _).adjFlag = false
    rw [htick]
    rfl

/-- **A lost slot is looked at once more.**  The adjustment slot is taken only if the word read after the loss was seen
is usable again; the address is still that of the lost slot. -/
theorem fallsBack_iff_of_lost (hst : (run g inp len n).bch.state = .workAdjWait)
    (hown : (inp n).slotPointer = (run g inp len n).bch.workPointer)
    (hlost : ¬ Usable g.globalSid (run g inp len n).ram.doutB) :
    FallsBack (run g inp len) n
      ↔ Usable g.globalSid (run g inp len (n + 1)).ram.doutB := by
  have h1 : (run g inp len (n + 1)).bch
      = { (run g inp len n).bch with state := .workAdjDecideAdjBchInvalid } :=
    Bch.tick_of_lost hst hown hlost
  have hst1 : (run g inp len (n + 1)).bch.state = .workAdjDecideAdjBchInvalid := by
    rw [h1]
  obtain ⟨hst2, hslot2⟩ := @Bch.tick_of_decide g ((run g inp len (n + 1)).bchIn (inp (n + 1))) _ hst1
  constructor
  · rintro ⟨m, hnm, hm, -, hway⟩
    by_contra hno
    have hcol : (run g inp len (n + 2)).bch.state = .colCount := hst2.trans (if_neg hno)
    -- the collision is counted before `BCH_WORK_FI_WAIT` can be reached
    have hlt : n + 2 < m := by
      have h0 : m ≠ n := by
        rintro rfl
        exact BchState.noConfusion (hst.symm.trans hm)
      have h1 : m ≠ n + 1 := by
        rintro rfl
        exact BchState.noConfusion (hst1.symm.trans hm)
      have h2 : m ≠ n + 2 := by
        rintro rfl
        exact BchState.noConfusion (hcol.symm.trans hm)
      omega
    exact (hway (n + 2) (by omega) hlt).2 hcol
  · intro husable
    have hst2 : (run g inp len (n + 2)).bch.state = .workAdjSetBch1BchInvalid :=
      hst2.trans (if_pos husable)
    have hslot2 : (run g inp len (n + 2)).bch.workPointer
        = (run g inp len n).bch.decideAdj := by
      refine (hslot2 husable).trans ?_
      rw [h1]
    obtain ⟨hst3, hslot3⟩ :=
      @Bch.tick_of_setBch1 g ((run g inp len (n + 2)).bchIn (inp (n + 2))) _ hst2
    obtain ⟨hst4, hslot4⟩ :=
      @Bch.tick_of_setBch2 g ((run g inp len (n + 3)).bchIn (inp (n + 3))) _ hst3
    refine ⟨n + 4, by omega, hst4, hslot4.trans (hslot3.trans hslot2), fun k hnk hk => ?_⟩
    obtain rfl | rfl | rfl | rfl : k = n ∨ k = n + 1 ∨ k = n + 2 ∨ k = n + 3 := by omega
    · rw [hst]
      exact ⟨nofun, nofun⟩
    · rw [hst1]
      exact ⟨nofun, nofun⟩
    · rw [hst2]
      exact ⟨nofun, nofun⟩
    · rw [show (run g inp len (n + 3)).bch.state = _ from hst3]
      exact ⟨nofun, nofun⟩

section Sending

variable {q : BitVec 16} {m a b : ℕ}

theorem sending_lasts (h : (run g inp len n).bch.At .workAdjSendFiWait q) (hnm : n ≤ m) :
    (∀ k, n ≤ k → k ≤ m → (run g inp len k).bch.At .workAdjSendFiWait q)
      ∨ ∃ a, n ≤ a ∧ a < m ∧ (inp a).sendFiDone = true
        ∧ ∀ k, n ≤ k → k ≤ a → (run g inp len k).bch.At .workAdjSendFiWait q := by
  refine lasts_or_exists (fun k _ hk hno => ?_) h hnm
  have hnext := @Bch.At.sent g ((run g inp len k).bchIn (inp k)) _ _ hk
  rw [if_neg (show ¬ ((run g inp len k).bchIn (inp k)).sendFiDone = true from hno)] at hnext
  exact hnext

theorem enaTx_of_sent (h : (run g inp len n).bch.At .workAdjSendFiWait q)
    (hdone : (inp n).sendFiDone = true) : (run g inp len (n + 1)).bch.At .workEnaTx q := by
  have hnext := @Bch.At.sent g ((run g inp len n).bchIn (inp n)) _ _ h
  rw [if_pos (show ((run g inp len n).bchIn (inp n)).sendFiDone = true from hdone)] at hnext
  exact hnext

theorem enaTx_lasts (h : (run g inp len n).bch.At .workEnaTx q) (hnm : n ≤ m) :
    (∀ k, n ≤ k → k ≤ m → (run g inp len k).bch.At .workEnaTx q)
      ∨ ∃ b, n ≤ b ∧ b < m ∧ (inp b).slotPointer ≠ q
        ∧ ∀ k, n ≤ k → k ≤ b → (run g inp len k).bch.At .workEnaTx q := by
  refine lasts_or_exists (fun k _ hk hno => ?_) h hnm
  have hnext := @Bch.At.enaTx g ((run g inp len k).bchIn (inp k)) _ _ hk
  rw [if_neg (show ¬ ((run g inp len k).bchIn (inp k)).slotPointer ≠ q from hno)] at hnext
  exact hnext

theorem disaTx_of_over (h : (run g inp len n).bch.At .workEnaTx q) (hover : (inp n).slotPointer ≠ q) :
    (run g inp len (n + 1)).bch.At .workDisaTx q := by
  have hnext := @Bch.At.enaTx g ((run g inp len n).bchIn (inp n)) _ _ h
  rw [if_pos (show ((run g inp len n).bchIn (inp n)).slotPointer ≠ q from hover)] at hnext
  exact hnext

theorem signals_of_workFiWait (h : (run g inp len n).bch.At .workAdjSendFiWait q) (hnm : n ≤ m)
    (hm : (run g inp len m).bch.state = .workFiWait) :
    ∃ a, n ≤ a ∧ (inp a).sendFiDone = true ∧ ∃ b, a < b ∧ (inp b).slotPointer ≠ q := by
  rcases sending_lasts h hnm with hall | ⟨a, hna, ham, hdone, hsending⟩
  · exact BchState.noConfusion ((hall m hnm (Nat.le_refl m)).state.symm.trans hm)
  · have hena := enaTx_of_sent (hsending a hna (Nat.le_refl a)) hdone
    rcases enaTx_lasts hena (Nat.succ_le_of_lt ham) with hall | ⟨b, hab, -, hover, -⟩
    · exact BchState.noConfusion ((hall m (Nat.succ_le_of_lt ham) (Nat.le_refl m)).state.symm.trans hm)
    · exact ⟨a, hna, hdone, b, hab, hover⟩

theorem workFiWait_of_signals (h : (run g inp len n).bch.At .workAdjSendFiWait q) (hna : n ≤ a)
    (hdone : (inp a).sendFiDone = true) (hab : a < b) (hover : (inp b).slotPointer ≠ q) :
    ∃ m, n ≤ m ∧ (run g inp len m).bch.At .workFiWait q
      ∧ ∀ k, n ≤ k → k < m → (run g inp len k).bch.state ≠ .workFiWait
        ∧ (run g inp len k).bch.state ≠ .colCount := by
  obtain ⟨a', hna', haa', hdone', hsending⟩ : ∃ a', n ≤ a' ∧ a' ≤ a ∧ (inp a').sendFiDone = true
      ∧ ∀ k, n ≤ k → k ≤ a' → (run g inp len k).bch.At .workAdjSendFiWait q := by
    rcases sending_lasts h hna with hall | ⟨a', hna', haa', hdone', hsending⟩
    · exact ⟨a, hna, Nat.le_refl a, hdone, hall⟩
    · exact ⟨a', hna', Nat.le_of_lt haa', hdone', hsending⟩
  have hena := enaTx_of_sent (hsending a' hna' (Nat.le_refl a')) hdone'
  obtain ⟨b', hab', hover', henabled⟩ : ∃ b', a' + 1 ≤ b' ∧ (inp b').slotPointer ≠ q
      ∧ ∀ k, a' + 1 ≤ k → k ≤ b' → (run g inp len k).bch.At .workEnaTx q := by
    rcases enaTx_lasts hena (show a' + 1 ≤ b by omega) with hall | ⟨b', hab', -, hover', henabled⟩
    · exact ⟨b, by omega, hover, hall⟩
    · exact ⟨b', hab', hover', henabled⟩
  have hdisa := disaTx_of_over (henabled b' hab' (Nat.le_refl b')) hover'
  refine ⟨b' + 2, by omega, hdisa.disaTx, fun k hnk hk => ?_⟩
  by_cases hka : k ≤ a'
  · rw [(hsending k hnk hka).state]
    exact ⟨nofun, nofun⟩
  · by_cases hkb : k ≤ b'
    · rw [(henabled k (by omega) hkb).state]
      exact ⟨nofun, nofun⟩
    · obtain rfl : k = b' + 1 := by omega
      rw [hdisa.state]
      exact ⟨nofun, nofun⟩

end Sending

/-- **A slot that is found usable** is kept or exchanged; the node comes to the next wait once its frame information is
sent and the slot is over. -/
theorem fallsBack_iff_of_usable (hst : (run g inp len n).bch.state = .workAdjWait)
    (hown : (inp n).slotPointer = (run g inp len n).bch.workPointer)
    (husable : Usable g.globalSid (run g inp len n).ram.doutB) :
    FallsBack (run g inp len) n
      ↔ (run g inp len n).bch.kept ((run g inp len n).bchIn (inp n))
          = (run g inp len n).bch.decideAdj
        ∧ ∃ a, n + 3 ≤ a ∧ (inp a).sendFiDone = true
          ∧ ∃ b, a < b ∧ (inp b).slotPointer ≠ (run g inp len n).bch.decideAdj := by
  have hat : (run g inp len n).bch.At .workAdjWait (run g inp len n).bch.workPointer :=
    ⟨hst, rfl, settled_of_workAdjWait hst⟩
  have h1 := @Bch.At.setStatus g ((run g inp len n).bchIn (inp n)) _ hat hown husable
  have h3 : (run g inp len (n + 3)).bch.At .workAdjSendFiWait _ := h1.sendStart.sendWait
  have hbefore : ∀ k, n ≤ k → k < n + 3 → (run g inp len k).bch.state ≠ .workFiWait
      ∧ (run g inp len k).bch.state ≠ .colCount := by
    intro k hnk hk
    obtain rfl | rfl | rfl : k = n ∨ k = n + 1 ∨ k = n + 2 := by omega
    · rw [hst]
      exact ⟨nofun, nofun⟩
    · rw [show (run g inp len (n + 1)).bch.state = _ from h1.state]
      exact ⟨nofun, nofun⟩
    · rw [show (run g inp len (n + 2)).bch.state = _ from h1.sendStart.state]
      exact ⟨nofun, nofun⟩
  constructor
  · rintro ⟨m, hnm, hm, hslot, hway⟩
    have hm3 : n + 3 ≤ m := by
      by_contra hlt
      exact (hbefore m hnm (by omega)).1 hm
    obtain ⟨a, ha, hdone, b, hab, hover⟩ := signals_of_workFiWait h3 hm3 hm
    obtain ⟨m', hm3', hend, hway'⟩ := workFiWait_of_signals h3 ha hdone hab hover
    -- both are the first wait after cycle `n`
    have heq : m = m' := by
      refine Nat.le_antisymm ?_ ?_
      · by_contra hlt
        exact (hway m' (by omega) (by omega)).1 hend.state
      · by_contra hlt
        exact (hway' m hm3 (by omega)).1 hm
    rw [heq, hend.slot] at hslot
    rw [hslot] at hover
    exact ⟨hslot, a, ha, hdone, b, hab, hover⟩
  · rintro ⟨hkept, a, ha, hdone, b, hab, hover⟩
    rw [hkept] at h3
    obtain ⟨m, hm3, hend, hway⟩ := workFiWait_of_signals h3 ha hdone hab hover
    refine ⟨m, by omega, hend.state, hend.slot, fun k hnk hk => ?_⟩
    by_cases hk3 : k < n + 3
    · exact hbefore k hnk hk3
    · exact hway k (by omega) hk

theorem kept_eq_iff {b : Bch} {i : BchIn} :
    b.kept i = b.decideAdj ↔ i.adjSlotWin = true ∨ b.workPointer = b.decideAdj := by
  unfold Bch.kept
  split
  · rename_i hwin
    exact iff_of_true rfl (Or.inl hwin)
  · rename_i hwin
    exact ⟨Or.inr, fun h => h.resolve_left hwin⟩

/-- **When the node comes to the adjustment slot.**  Either its own slot looked lost and the same entry, read once more,
looks usable; or its own slot looked usable and the exchange was won. -/
theorem falls_back_iff (hst : (trace (tick g) inp (reset len) n).bch.state = .workAdjWait)
    (hown : (inp n).slotPointer = (trace (tick g) inp (reset len) n).bch.workPointer) :
    FallsBack (trace (tick g) inp (reset len)) n
      ↔ ¬ Usable g.globalSid (trace (tick g) inp (reset len) n).ram.doutB
          ∧ Usable g.globalSid (trace (tick g) inp (reset len) (n + 1)).ram.doutB
        ∨ Usable g.globalSid (trace (tick g) inp (reset len) n).ram.doutB
          ∧ ((trace (tick g) inp (reset len) n).fi.adjSlotWin = true
            ∨ (trace (tick g) inp (reset len) n).bch.workPointer = (trace (tick g) inp (reset len) n).bch.decideAdj)
          ∧ ∃ a, n + 3 ≤ a ∧ (inp a).sendFiDone = true
            ∧ ∃ b, a < b ∧ (inp b).slotPointer ≠ (trace (tick g) inp (reset len) n).bch.decideAdj := by
  by_cases husable : Usable g.globalSid (trace (tick g) inp (reset len) n).ram.doutB
  · rw [fallsBack_iff_of_usable hst hown husable, kept_eq_iff]
    constructor
    · exact fun h => Or.inr ⟨husable, h⟩
    · rintro (⟨hlost, -⟩ | ⟨-, h⟩)
      · exact absurd husable hlost
      · exact h
  · rw [fallsBack_iff_of_lost hst hown husable]
    constructor
    · exact fun h => Or.inl ⟨husable, h⟩
    · rintro (⟨-, h⟩ | ⟨husable', -⟩)
      · exact h
      · exact absurd husable' husable

end Fallback

def movingSetting : TdmaSetting where
  globalSid := 5
  bchCandidateC3hopThresS1 := 1
  frameAdjEna := false
  adjFrameLowerBound := 2
  adjFrameUpperBound := 4

/-- Node 7 holds slot 0, and grants slot 1 to this node. -/
def movingPkt : RcvPkt := fun k =>
  if k = 20 then 2 + 7 * 2 ^ 4 + 2 * 2 ^ 12 + 7 * 2 ^ 14 + 1 * 2 ^ 24 + 2 * 2 ^ 26 + 5 * 2 ^ 28 else 0

/-- The node works in slot 0 and asks for slot 1; node 7 may be heard before slot 0 comes again. -/
def movingInp (heard : Bool) (n : ℕ) : Cycle where
  slotPointer := BitVec.ofNat 16 (if n < 330 then n / 40 % 4 else if n < 560 then 3 else if n < 570 then 0
    else if n < 735 then 1 else 0)
  slotPulse2Counter := if 340 ≤ n then 990 else 0
  stuStart := heard && n == 572
  rcvPkt := movingPkt
  ipicAck := true
  ipicDone := true
  sendFiDone := true
  dividerDone := true

abbrev moving (heard : Bool) : ℕ → System := trace (tick movingSetting) (movingInp heard) (reset 4)

/-- A node that is alone exchanges slot 0 for slot 1. -/
theorem falls_back_iff_alone : FallsBack (moving false) 735 := by
  have hrun : (moving false 735).bch.state = .workAdjWait
      ∧ (movingInp false 735).slotPointer = (moving false 735).bch.workPointer
      ∧ Usable movingSetting.globalSid (moving false 735).ram.doutB
      ∧ (moving false 735).fi.adjSlotWin = true
      ∧ (movingInp false 739).slotPointer ≠ (moving false 735).bch.decideAdj := by
    decide +kernel
  obtain ⟨hst, hown, husable, hwin, hover⟩ := hrun
  exact (falls_back_iff hst hown).mpr
    (Or.inr ⟨husable, Or.inl hwin, 738, Nat.le_refl _, rfl, 739, Nat.lt_succ_self _, hover⟩)

/-- The own slot comes and its entry is lost, while that of the adjustment slot is usable. -/
def Loses (g : TdmaSetting) (s : System) (i : Cycle) : Prop :=
  s.bch.state = .workAdjWait ∧ i.slotPointer = s.bch.workPointer ∧ ¬ Usable g.globalSid (s.ram.cell s.workSlot)
    ∧ Usable g.globalSid (s.ram.cell (s.bch.decideAdj.setWidth 7))

instance (g : TdmaSetting) (s : System) (i : Cycle) : Decidable (s.Loses g i) :=
  inferInstanceAs (Decidable (_ ∧ _ ∧ ¬ _ ∧ _))

/-- Node 7 takes slot 0; slot 1 is this node's, but it counts a collision. -/
theorem adjustment_slot_not_taken :
    ¬ ∀ (g : TdmaSetting) (len : BitVec 10) (inp : ℕ → Cycle) (n : ℕ), g.globalSid ≠ 0 →
      (trace (tick g) inp (reset len) n).Loses g (inp n) →
      ∃ m, n ≤ m ∧ (trace (tick g) inp (reset len) m).bch.state = .workFiWait
        ∧ (trace (tick g) inp (reset len) m).bch.workPointer = (trace (tick g) inp (reset len) n).bch.decideAdj
        ∧ ∀ k, n ≤ k → k ≤ m → (trace (tick g) inp (reset len) k).bch.state ≠ .colCount := by
  intro h
  have hrun : (moving true 735).Loses movingSetting (movingInp true 735)
      ∧ (moving true 736).bch.state = .workAdjDecideAdjBchInvalid ∧ (moving true 737).bch.state = .colCount := by
    decide +kernel
  obtain ⟨hlost, hdecide, hcol⟩ := hrun
  obtain ⟨m, hnm, hm, -, hway⟩ := h movingSetting 4 (movingInp true) 735 (by decide) hlost
  have hlt : m < 737 := by
    by_contra hge
    exact hway 737 (by omega) (by omega) hcol
  obtain rfl | rfl : m = 735 ∨ m = 736 := by omega
  · exact BchState.noConfusion (hlost.1.symm.trans hm)
  · exact BchState.noConfusion (hdecide.symm.trans hm)

/-! ### The departure from a lost slot -/

/-- Port B is the BCH machine's, and the updater does not write the entry. -/
structure Alone (s : System) (a : BitVec 7) : Prop where
  fi : s.fi.slotStatusEn = false
  fcb : s.fcb.inprogress = false
  stu : ¬ s.portA.Writes a

instance (s : System) (a : BitVec 7) : Decidable (s.Alone a) :=
  decidable_of_iff (s.fi.slotStatusEn = false ∧ s.fcb.inprogress = false ∧ ¬ s.portA.Writes a)
    ⟨fun h => ⟨h.1, h.2.1, h.2.2⟩, fun h => ⟨h.fi, h.fcb, h.stu⟩⟩

/-- The BCH machine takes over what the search offers. -/
def Takes (g : TdmaSetting) (s : System) (i : Cycle) : Prop :=
  s.bch.nextState g (s.bchIn i) = .lisFcb ∨ s.bch.state = .waitReqFcbStart

instance (g : TdmaSetting) (s : System) (i : Cycle) : Decidable (s.Takes g i) := inferInstanceAs (Decidable (_ ∨ _))

/-- What is taken over is the answer of a search that rests, and is not the entry. -/
structure Departs (g : TdmaSetting) (s : System) (i : Cycle) (a : BitVec 7) : Prop where
  rests : s.Takes g i → s.fcb.inprogress = false ∧ s.fi.fcbStart = false
  other : s.Takes g i → s.fcb.fail = false → s.fcb.candidate.setWidth 7 ≠ a

instance (g : TdmaSetting) (s : System) (i : Cycle) (a : BitVec 7) : Decidable (s.Departs g i a) :=
  decidable_of_iff ((s.Takes g i → s.fcb.inprogress = false ∧ s.fi.fcbStart = false)
      ∧ (s.Takes g i → s.fcb.fail = false → s.fcb.candidate.setWidth 7 ≠ a))
    ⟨fun h => ⟨h.1, h.2⟩, fun h => ⟨h.rests, h.other⟩⟩

/-- The slot that was chosen is another one, or the choice is about to be dropped. -/
def Left (s : System) (a : BitVec 7) : Prop :=
  s.bch.state.chosen = true →
    s.workSlot ≠ a ∨ s.fcb.fail = true ∧ (s.bch.state = .lisFcb ∨ s.bch.state = .waitReqFcbDone)

def Carries (g : TdmaSetting) (s : System) (a : BitVec 7) : Prop := (s.ram.cell a).occupierSid = g.globalSid

instance (g : TdmaSetting) (s : System) (a : BitVec 7) : Decidable (s.Carries g a) :=
  inferInstanceAs (Decidable (_ = _))

/-- The entry is free and locked. -/
def GivenUp (s : System) (a : BitVec 7) : Prop :=
  (s.ram.cell a).busy = 0 ∧ (s.ram.cell a).occupierSid = 0 ∧ (s.ram.cell a).locker = true

section Step

variable {g : TdmaSetting} {s : System} {i : Cycle} {a : BitVec 7}

theorem Departs.fail_tick (hs : s.Shared) (hok : s.Departs g i a) (htakes : s.Takes g i) :
    (s.tick g i).fcb.fail = s.fcb.fail := by
  obtain ⟨hlow, hstart⟩ := hok.rests htakes
  have hidle : s.fcb.state = .idle := by
    by_contra hbusy
    exact Bool.false_ne_true (hlow.symm.trans (hs.inprogress.mpr hbusy))
  rw [tick_fcb_of_rest hidle hstart]

theorem Left.tick (hs : s.Shared) (h : s.Left a) (hok : s.Departs g i a) : (s.tick g i).Left a := by
  intro hchosen
  by_cases hlis : s.bch.nextState g (s.bchIn i) = .lisFcb
  · have htakes : s.Takes g i := Or.inl hlis
    rw [hok.fail_tick hs htakes]
    by_cases hfail : s.fcb.fail = true
    · exact Or.inr ⟨hfail, Or.inl hlis⟩
    · left
      change (s.bch.act g (s.bchIn i) (s.bch.nextState g (s.bchIn i))).workPointer.setWidth 7 ≠ a
      rw [hlis]
      exact hok.other htakes (Bool.eq_false_iff.mpr hfail)
  by_cases hdone : s.bch.nextState g (s.bchIn i) = .waitReqFcbDone
  · have hmem := Bch.nextState_mem g (s.bchIn i) s.bch
    rw [hdone] at hmem
    have htakes : s.Takes g i := Or.inr (BchState.eq_of_next (fun st => by cases st <;> rfl) hmem)
    rw [hok.fail_tick hs htakes]
    by_cases hfail : s.fcb.fail = true
    · exact Or.inr ⟨hfail, Or.inr hdone⟩
    · left
      change (s.bch.act g (s.bchIn i) (s.bch.nextState g (s.bchIn i))).workPointer.setWidth 7 ≠ a
      rw [hdone]
      simp only [Bch.act]
      rw [if_neg (show ¬ (s.bchIn i).fcbFail = true from hfail)]
      exact hok.other htakes (Bool.eq_false_iff.mpr hfail)
  · left
    change (s.bch.act g (s.bchIn i) (s.bch.nextState g (s.bchIn i))).workPointer.setWidth 7 ≠ a
    have hkeep : (s.bch.act g (s.bchIn i) (s.bch.nextState g (s.bchIn i))).workPointer = s.bch.workPointer :=
      Bch.act_workPointer_of_chosen hchosen hlis hdone
    rw [hkeep]
    rcases BchState.chosen_of_next (Bch.nextState_mem g (s.bchIn i) s.bch) hchosen with hn | hn | hold
    · exact absurd hn hlis
    · exact absurd hn hdone
    · rcases h hold with hne | ⟨hfail, hst⟩
      · exact hne
      · have hlow : s.fcb.fail = false := Bch.fcbFail_of_chosen hst hchosen
        exact absurd (hlow.symm.trans hfail) Bool.false_ne_true

theorem Alone.tick_own (h : s.Alone a) (haddr : s.bch.addr = a)
    (hwe : s.bch.we = true → s.bch.din.occupierSid = g.globalSid)
    (hcell : s.Carries g a) : (s.tick g i).Carries g a ∧ (s.tick g i).ram.doutB.occupierSid = g.globalSid := by
  have hport : s.portB = s.bch.portB := portB_bch h.fcb h.fi
  have hat : s.portB.addr = a := by
    rw [hport]
    exact haddr
  by_cases hw : s.portB.we = true
  · have hdin : s.portB.din.occupierSid = g.globalSid := by
      rw [hport] at hw ⊢
      exact hwe hw
    have hstored : (s.tick g i).ram.cell a = s.portB.din := tick_cell_write_b h.stu ⟨hw, hat⟩
    have hread : (s.tick g i).ram.doutB = s.portB.din := by
      change (if s.portA.Writes s.portB.addr then i.clash.readB else if s.portB.we then s.portB.din else _) = _
      rw [hat, if_neg h.stu, if_pos hw]
    rw [Carries, hstored, hread]
    exact ⟨hdin, hdin⟩
  · obtain ⟨hread, hstored⟩ := @tick_ram_of_look g s i a h.stu hat (Bool.eq_false_iff.mpr hw)
    rw [Carries, hstored, hread]
    exact ⟨hcell, hcell⟩

end Step

section Run

variable {g : TdmaSetting} {len : BitVec 10} {inp : ℕ → Cycle} {n m : ℕ} {a : BitVec 7}

theorem claiming_trace (g : TdmaSetting) (inp : ℕ → Cycle) (len : BitVec 10) (n : ℕ) :
    (run g inp len n).bch.Claiming g := by
  induction n with
  | zero => exact fun h => nomatch h
  | succ n ih => exact ih.tick (regular_trace g inp len n)

theorem left_trace (hst : (run g inp len n).bch.state.chosen = false) (hnm : n ≤ m)
    (hok : ∀ k, n ≤ k → k < m → (run g inp len k).Departs g (inp k) a) :
    (run g inp len m).Left a := by
  induction m, hnm using Nat.le_induction with
  | base =>
    intro h
    exact absurd (hst.symm.trans h) Bool.false_ne_true
  | succ m hnm ih =>
    have hm := ih fun k hnk hkm => hok k hnk (Nat.lt_succ_of_lt hkm)
    exact hm.tick (shared_trace g inp len m) (hok m hnm (Nat.lt_succ_self m))

theorem states_of_count (hst : (run g inp len n).bch.state = .reqFailCount
      ∨ (run g inp len n).bch.state = .colCount) :
    (run g inp len (n + 1)).bch.state = .waitReqFcbPre
      ∧ (run g inp len (n + 2)).bch.state = .waitReqFcbPreWait
      ∧ (run g inp len (n + 3)).bch.state = .waitReqFcbStart
      ∧ (run g inp len (n + 4)).bch.state = .waitReqFcbDone := by
  have h1 : (run g inp len (n + 1)).bch.state = .waitReqFcbPre := by
    change (run g inp len n).bch.nextState g _ = _
    rcases hst with hst | hst
    · simp only [Bch.nextState, hst]
    · simp only [Bch.nextState, hst]
  have h2 : (run g inp len (n + 2)).bch.state = .waitReqFcbPreWait := by
    change (run g inp len (n + 1)).bch.nextState g _ = _
    simp only [Bch.nextState, h1]
  have h3 : (run g inp len (n + 3)).bch.state = .waitReqFcbStart := by
    change (run g inp len (n + 2)).bch.nextState g _ = _
    simp only [Bch.nextState, h2]
  refine ⟨h1, h2, h3, ?_⟩
  change (run g inp len (n + 3)).bch.nextState g _ = _
  simp only [Bch.nextState, h3]

theorem addr_of_count (hst : (run g inp len n).bch.state = .reqFailCount
      ∨ (run g inp len n).bch.state = .colCount) {k : ℕ} (hnk : n ≤ k) (hk : k ≤ n + 3) :
    (run g inp len k).bch.addr = (run g inp len n).workSlot := by
  obtain ⟨h1, h2, h3, -⟩ := states_of_count hst
  have e1 := Bch.tick_of_nextState (show (run g inp len n).bch.nextState g _ = _ from h1)
  have e2 := Bch.tick_of_nextState (show (run g inp len (n + 1)).bch.nextState g _ = _ from h2)
  have e3 := Bch.tick_of_nextState (show (run g inp len (n + 2)).bch.nextState g _ = _ from h3)
  have hpre : (run g inp len (n + 1)).bch.addr = (run g inp len n).workSlot := by
    change ((run g inp len n).bch.tick g _).addr = _
    rw [e1]
    rfl
  have hwait : (run g inp len (n + 2)).bch.addr = (run g inp len n).workSlot := by
    change ((run g inp len (n + 1)).bch.tick g _).addr = _
    rw [e2]
    exact hpre
  obtain rfl | rfl | rfl | rfl : k = n ∨ k = n + 1 ∨ k = n + 2 ∨ k = n + 3 := by omega
  · refine (regular_trace g inp len k).addr ?_
    rcases hst with hst | hst
    · rw [hst]
      rfl
    · rw [hst]
      rfl
  · exact hpre
  · exact hwait
  · change ((run g inp len (n + 2)).bch.tick g _).addr = _
    rw [e3]
    simp only [Bch.act]
    split
    · exact hwait
    · exact hwait

theorem givenUp_of_count (hst : (run g inp len n).bch.state = .reqFailCount
      ∨ (run g inp len n).bch.state = .colCount)
    (halone : ∀ k, n ≤ k → k ≤ n + 4 →
      (run g inp len k).Alone (run g inp len n).workSlot)
    (hok : (run g inp len (n + 3)).Departs g (inp (n + 3)) (run g inp len n).workSlot)
    (hown : (run g inp len n).Carries g (run g inp len n).workSlot) :
    (run g inp len (n + 5)).GivenUp (run g inp len n).workSlot := by
  obtain ⟨h1, h2, h3, h4⟩ := states_of_count hst
  have haddr : ∀ {k}, n ≤ k → k ≤ n + 3 →
      (run g inp len k).bch.addr = (run g inp len n).workSlot :=
    fun hnk hk => addr_of_count hst hnk hk
  -- what is written before the slot is given up is a claim
  have hclaim : (run g inp len n).bch.we = true →
      (run g inp len n).bch.din.occupierSid = g.globalSid := by
    rcases hst with hst | hst
    · refine claiming_trace g inp len n ?_
      rw [hst]
      rfl
    · intro hwe
      rw [(regular_trace g inp len n).quiet (by rw [hst]; rfl)] at hwe
      exact nomatch hwe
  have hclaim1 := claiming_trace g inp len (n + 1) (by rw [h1]; rfl)
  have hcell1 := ((halone n (Nat.le_refl n) (by omega)).tick_own (i := inp n) (haddr (Nat.le_refl n) (by omega)) hclaim
    hown).1
  have hdout2 := ((halone (n + 1) (by omega) (by omega)).tick_own (i := inp (n + 1)) (haddr (by omega) (by omega))
    hclaim1 hcell1).2
  -- the word that gives it up
  have e3 := Bch.tick_of_giveUp (i := (run g inp len (n + 2)).bchIn (inp (n + 2))) h2 hdout2
  have hport3 : (run g inp len (n + 3)).portB = (run g inp len (n + 3)).bch.portB :=
    portB_bch (halone (n + 3) (by omega) (by omega)).fcb (halone (n + 3) (by omega) (by omega)).fi
  have hwrites : (run g inp len (n + 3)).portB.Writes (run g inp len n).workSlot := by
    rw [hport3]
    refine ⟨?_, haddr (by omega) (Nat.le_refl _)⟩
    change ((run g inp len (n + 2)).bch.tick g _).we = true
    rw [e3]
  have hcell4 : (run g inp len (n + 4)).ram.cell (run g inp len n).workSlot
      = giveUp (run g inp len (n + 2)).bch.din := by
    refine (tick_cell_write_b (halone (n + 3) (by omega) (by omega)).stu hwrites).trans ?_
    rw [hport3]
    change ((run g inp len (n + 2)).bch.tick g _).din = _
    rw [e3]
  -- the claim that follows is written elsewhere
  have hquiet : ¬ (run g inp len (n + 4)).portB.Writes (run g inp len n).workSlot := by
    rw [portB_bch (halone (n + 4) (by omega) (by omega)).fcb (halone (n + 4) (by omega) (by omega)).fi]
    have e4 := Bch.tick_of_nextState (show (run g inp len (n + 3)).bch.nextState g _ = _ from h4)
    change ¬ ((run g inp len (n + 3)).bch.tick g _).portB.Writes _
    rw [e4]
    simp only [Bch.act]
    split
    · exact Port.not_writes_of_we rfl _
    · rename_i hfail
      rintro ⟨-, heq⟩
      exact hok.other (Or.inr h3) (Bool.eq_false_iff.mpr hfail) heq
  have hcell5 : (run g inp len (n + 5)).ram.cell (run g inp len n).workSlot
      = giveUp (run g inp len (n + 2)).bch.din :=
    (tick_cell_of_quiet (halone (n + 4) (by omega) (by omega)).stu hquiet).trans hcell4
  rw [GivenUp, hcell5]
  exact ⟨rfl, rfl, rfl⟩

end Run

def leavingSetting : TdmaSetting where
  globalSid := 5
  bchCandidateC3hopThresS1 := 3
  adjFrameLowerBound := 4
  adjFrameUpperBound := 4

/-- Not a frame information. -/
def silence : RcvPkt := fun _ => 0

/-- Node 7 holds slot 0. -/
def rivalPkt : RcvPkt := fun k => if k = 20 then 2 + 7 * 2 ^ 4 + 2 * 2 ^ 12 + 7 * 2 ^ 14 else 0

/-- Node 7 holds the slots 1 to 3. -/
def neighbourPkt : RcvPkt := fun k =>
  if k = 20 then 2 + 7 * 2 ^ 4 + 2 * 2 ^ 26 + 7 * 2 ^ 28
  else if k = 21 then 2 * 2 ^ 8 + 7 * 2 ^ 10 + 2 * 2 ^ 22 + 7 * 2 ^ 24 else 0

/-- Node 7 holds all four slots, slot 0 with a higher priority than this node. -/
def greedyPkt : RcvPkt := fun k =>
  if k = 20 then 2 + 7 * 2 ^ 4 + 2 * 2 ^ 12 + 7 * 2 ^ 14 + 1 * 2 ^ 24 + 2 * 2 ^ 26 + 7 * 2 ^ 28
  else if k = 21 then 2 * 2 ^ 8 + 7 * 2 ^ 10 + 2 * 2 ^ 22 + 7 * 2 ^ 24 else 0

/-- One packet is heard before the node claims slot 0, and another one after it; then slot 0 comes. -/
def leavingInp (before after : RcvPkt) (n : ℕ) : Cycle where
  slotPointer := BitVec.ofNat 16 (if n < 210 then n / 40 % 4 else if n < 510 then 1 else 0)
  stuStart := n == 0 || n == 340
  rcvPkt := if n < 300 then before else after
  ipicAck := decide (100 ≤ n)
  ipicDone := true
  dividerDone := true

abbrev leaving (before after : RcvPkt) : ℕ → System :=
  trace (tick leavingSetting) (leavingInp before after) (reset 4)

end System

end VanetTdma.Fpga
