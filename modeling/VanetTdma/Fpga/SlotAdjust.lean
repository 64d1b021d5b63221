import VanetTdma.Fpga.System

/-!
# When the node looks for a better slot (`tdma_control.v`)

`FI_ADJ_IS_NEEDED` decides, once in every build of the frame information, whether the node should move: because its
slot is crowded and better ones are free, or because it stands in the way of a shorter frame.  The decision is kept in
two flags, `slot_need_adj` and `frmae_len_need_slotadj`, and the BCH machine acts on them at the own slot.

`AdjLog` is the system with the verdict of the last build as history.

* `Timely` — the build decides, or finds both flags down; and it has decided when the own slot comes;
* `Sincere.tick` — a flag that is up is the verdict of the last build;
* `adjusts_when_needed` — the BCH machine takes an adjustment slot only if that build found it needed.
-/

namespace VanetTdma.Fpga

open VanetTdma.Clocked

/-- The states of a build up to its decision. -/
def FiState.undecided : FiState → Bool
  | .startRstBuf | .startRstBufLoop | .startPre | .start | .loop1Pre | .loop1 | .loop1Unlock | .loop1Refresh | .loop2
  | .loop2Wr | .adjIsNeededPre | .adjIsNeeded => true
  | _ => false

namespace Fi

variable {g : TdmaSetting} {i : FiIn} {f : Fi}

/-- The own slot is crowded, and enough slots are free of any use. -/
def Crowded (g : TdmaSetting) (i : FiIn) (f : Fi) : Prop :=
  i.dout.count3hop ≥ g.bchCandidateC3hopThresS1 ∧ f.freeEhsCount ≥ (lenTable i.currFrameLen).thresSlotAdj

/-- The frame could be halved, were the own slot not in its upper half. -/
def InTheWay (g : TdmaSetting) (i : FiIn) (f : Fi) : Prop :=
  g.frameAdjEna = true ∧ f.CanCut g i ∧ i.bchWorkPointer.toNat ≥ (i.currFrameLen >>> 1).toNat

instance (g : TdmaSetting) (i : FiIn) (f : Fi) : Decidable (f.Crowded g i) := inferInstanceAs (Decidable (_ ∧ _))

instance (g : TdmaSetting) (i : FiIn) (f : Fi) : Decidable (f.InTheWay g i) := inferInstanceAs (Decidable (_ ∧ _))

def Flagged (f : Fi) : Prop := f.slotNeedAdj = true ∨ f.frmaeLenNeedSlotadj = true

instance (f : Fi) : Decidable f.Flagged := inferInstanceAs (Decidable (_ ∨ _))

/-- The decision raises a flag only for a reason; where it does not decide, it leaves the flags alone. -/
theorem flagged_decideSlotAdj (h : (f.decideSlotAdj g i).Flagged) :
    f.Crowded g i ∨ f.InTheWay g i ∨ g.frameAdjEna = false ∧ f.Flagged := by
  unfold decideSlotAdj at h
  split at h
  · rename_i hcrowded
    exact Or.inl hcrowded
  · split at h
    · rename_i hena
      dsimp only at h
      split at h
      · rename_i hway
        exact Or.inr (Or.inl ⟨hena, hway⟩)
      · split at h <;> exact h.elim (fun hf => Bool.noConfusion hf) fun hf => Bool.noConfusion hf
    · rename_i hena
      exact Or.inr (Or.inr ⟨Bool.eq_false_iff.mpr hena, h⟩)

theorem flagged_decideHalve : (f.decideHalve g i).Flagged ↔ f.Flagged := by
  unfold decideHalve
  split <;> exact Iff.rfl

theorem flagged_adjIsNeeded (h : (f.adjIsNeeded g i).Flagged) :
    f.Crowded g i ∨ f.InTheWay g i ∨ (i.bchState.pastInit = false ∨ g.frameAdjEna = false) ∧ f.Flagged := by
  unfold adjIsNeeded at h
  dsimp only at h
  split at h
  · rcases flagged_decideSlotAdj (flagged_decideHalve.mp h) with hc | hw | ⟨hena, hold⟩
    · exact Or.inl hc
    · exact Or.inr (Or.inl hw)
    · exact Or.inr (Or.inr ⟨Or.inr hena, hold⟩)
  · rename_i hinit
    exact Or.inr (Or.inr ⟨Or.inl (Bool.eq_false_iff.mpr hinit), h⟩)

theorem flagged_tick (hst : f.state ≠ .adjIsNeeded) : (f.tick g i).Flagged ↔ f.Flagged := by
  have hsame : (f.tick g i).slotNeedAdj = f.slotNeedAdj ∧ (f.tick g i).frmaeLenNeedSlotadj = f.frmaeLenNeedSlotadj := by
    unfold tick
    cases hfi : f.state with
    | adjIsNeeded => exact absurd hfi hst
    | idle =>
      unfold idle
      dsimp only
      repeat' split
      all_goals exact ⟨rfl, rfl⟩
    | loop2 =>
      unfold loop2
      dsimp only
      repeat' split
      all_goals exact ⟨rfl, rfl⟩
    | loop2Wr =>
      unfold loop2Wr
      dsimp only
      split <;> exact ⟨rfl, rfl⟩
    | _ => dsimp only; (try split) <;> exact ⟨rfl, rfl⟩
  rw [Flagged, Flagged, hsame.1, hsame.2]

theorem undecided_tick (hslot : g.slotAdjEna = true) (h : f.state.undecided = true) (hst : f.state ≠ .adjIsNeeded) :
    (f.tick g i).state.undecided = true := by
  unfold tick
  cases hfi : f.state with
  | adjIsNeeded => exact absurd hfi hst
  | startRstBufLoop =>
    dsimp only
    split <;> rfl
  | loop1Pre =>
    rw [hslot]
    dsimp only
    split <;> rfl
  | loop2 =>
    unfold loop2
    dsimp only
    repeat' split
    all_goals first | rfl | exact hfi ▸ rfl
  | loop2Wr =>
    unfold loop2Wr
    dsimp only
    split <;> rfl
  | startRstBuf | startPre | start | loop1 | loop1Unlock | loop1Refresh | adjIsNeededPre => rfl
  | _ =>
    rw [hfi] at h
    cases h

end Fi

/-- The system, and what the last build has found: nothing as long as it has not decided. -/
structure AdjLog where
  sys : System
  verdict : Option Bool := none

namespace AdjLog

def tick (g : TdmaSetting) (l : AdjLog) (i : Cycle) : AdjLog where
  sys := l.sys.tick g i
  verdict :=
    if l.sys.fi.state = .adjIsNeeded then
      some (decide (l.sys.fi.Crowded g (l.sys.fiIn i) ∨ l.sys.fi.InTheWay g (l.sys.fiIn i)))
    else if (l.sys.tick g i).fi.state.undecided then none
    else l.verdict

/-- The system in cycle `n`, from reset. -/
def run (g : TdmaSetting) (len : BitVec 10) (inp : ℕ → Cycle) : ℕ → AdjLog :=
  trace (tick g) inp { sys := System.reset len }

/-- What a cycle has to grant: `FI_ADJ_IS_NEEDED` decides, or the flags are down; and the BCH machine does not look at
them while a build is to decide. -/
structure Timely (g : TdmaSetting) (s : System) (i : Cycle) : Prop where
  decides : s.fi.state = .adjIsNeeded →
    s.bch.state.pastInit = true ∧ (g.frameAdjEna = true ∨ s.fi.Crowded g (s.fiIn i))
      ∨ s.fi.slotNeedAdj = false ∧ s.fi.frmaeLenNeedSlotadj = false
  looks : s.bch.state = .workFiWait → i.slotPointer = s.bch.workPointer → s.fi.state.undecided = false

instance (g : TdmaSetting) (s : System) (i : Cycle) : Decidable (Timely g s i) :=
  decidable_of_iff ((s.fi.state = .adjIsNeeded →
        s.bch.state.pastInit = true ∧ (g.frameAdjEna = true ∨ s.fi.Crowded g (s.fiIn i))
          ∨ s.fi.slotNeedAdj = false ∧ s.fi.frmaeLenNeedSlotadj = false)
      ∧ (s.bch.state = .workFiWait → i.slotPointer = s.bch.workPointer → s.fi.state.undecided = false))
    ⟨fun h => ⟨h.1, h.2⟩, fun h => ⟨h.decides, h.looks⟩⟩

/-- Between two builds a flag that is up is the verdict of the last one. -/
def Sincere (l : AdjLog) : Prop := l.sys.fi.state.undecided = false → l.sys.fi.Flagged → l.verdict = some true

variable {g : TdmaSetting} {l : AdjLog} {i : Cycle} {len : BitVec 10} {inp : ℕ → Cycle} {n : ℕ}

theorem Sincere.tick (hslot : g.slotAdjEna = true) (h : l.Sincere) (hok : Timely g l.sys i) : (l.tick g i).Sincere := by
  intro hrest hflag
  by_cases hst : l.sys.fi.state = .adjIsNeeded
  · have hfi : (l.sys.tick g i).fi = l.sys.fi.adjIsNeeded g (l.sys.fiIn i) := by
      change l.sys.fi.tick g (l.sys.fiIn i) = _
      rw [Fi.tick, hst]
    have hneeded : l.sys.fi.Crowded g (l.sys.fiIn i) ∨ l.sys.fi.InTheWay g (l.sys.fiIn i) := by
      have hflag' : (l.sys.fi.adjIsNeeded g (l.sys.fiIn i)).Flagged := hfi ▸ hflag
      rcases Fi.flagged_adjIsNeeded hflag' with hc | hw | ⟨hopen, hold⟩
      · exact Or.inl hc
      · exact Or.inr hw
      · -- the build has not decided: then the flags were down before it
        rcases hok.decides hst with ⟨hpast, hena | hc⟩ | ⟨hneed, hlen⟩
        · rcases hopen with hinit | hoff
          · exact absurd (hpast.symm.trans hinit) (by decide)
          · exact absurd (hena.symm.trans hoff) (by decide)
        · exact Or.inl hc
        · rcases hold with hup | hup
          · exact absurd (hup.symm.trans hneed) (by decide)
          · exact absurd (hup.symm.trans hlen) (by decide)
    change (if l.sys.fi.state = .adjIsNeeded then _ else _) = _
    rw [if_pos hst, decide_eq_true hneeded]
  · have hnone : l.sys.fi.state.undecided = false := by
      by_contra hscan
      rw [Bool.not_eq_false] at hscan
      exact absurd (hrest.symm.trans (Fi.undecided_tick hslot hscan hst)) (by decide)
    change (if l.sys.fi.state = .adjIsNeeded then _ else _) = _
    rw [if_neg hst, if_neg (by rw [show (l.sys.tick g i).fi.state.undecided = false from hrest]; decide)]
    exact h hnone ((Fi.flagged_tick hst).mp hflag)

/-- **The node looks for a better slot only when it needs one.**  With `slot_adj_ena` on, in every run whose cycles are
timely: when the BCH machine enters `BCH_WORK_FI_FCB`, the last build of the frame information has found the own slot
crowded, or in the way of a shorter frame. -/
theorem adjusts_when_needed (hslot : g.slotAdjEna = true)
    (hok : ∀ m ≤ n, Timely g (run g len inp m).sys (inp m))
    (henter : (run g len inp (n + 1)).sys.bch.state = .workFiFcb) :
    (run g len inp n).verdict = some true := by
  have hreset : Sincere { sys := System.reset len } := fun _ hflag => hflag.elim Bool.noConfusion Bool.noConfusion
  have hstep : ∀ l i, Sincere l → Timely g l.sys i → Sincere (l.tick g i) := fun _ _ h hok => h.tick hslot hok
  have hsincere : (run g len inp n).Sincere := trace_invariant hreset hstep fun m hm => hok m (Nat.le_of_lt hm)
  have hadj : (run g len inp n).sys.bch.Adjusting g ((run g len inp n).sys.bchIn (inp n)) :=
    Bch.workFiFcb_of_nextState henter
  exact hsincere ((hok n (Nat.le_refl n)).looks hadj.state hadj.atSlot) hadj.flag

/-- Four slots, no adjustment of the frame length, and a slot counts as crowded with its own claim alone. -/
def crowdedSetting : TdmaSetting where
  globalSid := 5
  bchCandidateC3hopThresS1 := 1
  frameAdjEna := false
  adjFrameLowerBound := 2
  adjFrameUpperBound := 4

/-- The node claims slot 0, and slot 3 lasts long enough for a build. -/
def aloneInp (n : ℕ) : Cycle where
  slotPointer := BitVec.ofNat 16 (if n < 330 then n / 40 % 4 else if n < 560 then 3 else 0)
  slotPulse2Counter := if 340 ≤ n then 990 else 0
  ipicAck := true
  ipicDone := true
  sendFiDone := true
  dividerDone := true

theorem adjusts_when_needed_alone :
    (run crowdedSetting 4 aloneInp 562).sys.bch.state = .workFiFcb
      ∧ (run crowdedSetting 4 aloneInp 561).verdict = some true := by
  have hrun : (∀ m < 562, Timely crowdedSetting (run crowdedSetting 4 aloneInp m).sys (aloneInp m))
      ∧ (run crowdedSetting 4 aloneInp 562).sys.bch.state = .workFiFcb := by
    decide +kernel
  exact ⟨hrun.2, adjusts_when_needed rfl (fun m hm => hrun.1 m (Nat.lt_succ_of_le hm)) hrun.2⟩

/-- Node 7 holds the slots 1 and 2, and slot 3 is used two hops away from it. -/
def crowdedPkt : RcvPkt := fun k =>
  if k = 20 then 2 + 7 * 2 ^ 4 + 2 * 2 ^ 12 + 5 * 2 ^ 14 + 2 * 2 ^ 26 + 7 * 2 ^ 28
  else if k = 21 then 2 * 2 ^ 8 + 7 * 2 ^ 10 + 1 * 2 ^ 22 + 9 * 2 ^ 24
  else if k = 22 then 1 else 0

/-- The build before the request finds three free slots.  Then node 7 is heard, and the build before the node begins to
work finds none. -/
def crowdedInp (n : ℕ) : Cycle where
  slotPointer := BitVec.ofNat 16 (if n < 320 then n / 40 % 4 else if n < 330 then 2 else if n < 560 then 3
    else if n < 570 then 0 else if n < 600 then 1 else if n < 860 then 3 else 0)
  slotPulse2Counter := if 325 ≤ n then 990 else 0
  stuStart := n == 480
  rcvPkt := crowdedPkt
  ipicAck := true
  ipicDone := true
  sendFiDone := true
  dividerDone := true

/-- The flag of the first build is still up after the second one, which does not clear it. -/
theorem stale_flag_adjusts :
    ¬ ∀ (g : TdmaSetting) (len : BitVec 10) (inp : ℕ → Cycle) (n : ℕ), g.slotAdjEna = true →
      (run g len inp (n + 1)).sys.bch.state = .workFiFcb → (run g len inp n).verdict = some true := by
  intro h
  have hrun : (run crowdedSetting 4 crowdedInp 862).sys.bch.state = .workFiFcb
      ∧ (run crowdedSetting 4 crowdedInp 861).verdict = some false := by
    decide +kernel
  have hneeded := h crowdedSetting 4 crowdedInp 861 rfl hrun.1
  rw [hrun.2] at hneeded
  exact absurd hneeded (by decide)

end AdjLog

end VanetTdma.Fpga
