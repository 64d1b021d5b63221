import VanetTdma.Ns3.OwnTick

/-!
# The slot index and the frame length

The frame always has a slot, and an adjustment candidate is a slot of the frame (`run_frameOk`).  The
node's own slot is one as well in every run whose ticks meet `IndexSafe` (`run_slotNum_lt`), that is, where

* the frame is not cut while the node works in the upper half on a slot that its table records as free
  (`SlotRecorded`): `adjFrameLen` looks at the `busy` codes of the upper half, not at `slot_num_`;
* a lone node that hops to another slot has a slot to choose (`HopHasChoice`): the hop uses the result of
  `determine_BCH` without the test for -1 that every other call is followed by.
-/

namespace VanetTdma.Ns3

open VanetTdma.SlotLoop VanetTdma.GuardedRun

/-! ### Frame length and candidate -/

/-- The frame has a slot, and the candidate of a running adjustment lies in it. -/
structure FrameOk (s : Node) : Prop where
  pos : 1 ≤ s.mFrameLen
  candidate : s.nodeState = .workAdj → 0 ≤ s.slotAdjCandidate ∧ s.slotAdjCandidate < s.mFrameLen

theorem FrameOk.of_ne {s : Node} (hpos : 1 ≤ s.mFrameLen) (hstate : s.nodeState ≠ .workAdj) :
    FrameOk s :=
  ⟨hpos, fun h => absurd h hstate⟩

theorem adjFrameLen_pos {cfg : Config} {s : Node} (h : 1 ≤ s.mFrameLen) :
    1 ≤ (adjFrameLen cfg s).mFrameLen := by
  have hlow := cfg.adjFrameLowerBound_mem.1
  rcases @adjFrameLen_mFrameLen cfg s with hge | ⟨heq, hlt, -⟩
  · omega
  · omega

theorem frameOk_adjust {cfg : Config} {s x : Node} {d : Draws} {cs : List ℤ} (hpos : 1 ≤ s.mFrameLen)
    (hstate : s.nodeState = .workFi) (hx : adjust cfg s d = some (x, cs)) : FrameOk x := by
  rcases adjust_cases hx with ⟨-, c, hc, rfl, -⟩ | ⟨-, rfl, -⟩
  · unfold takeCandidate
    split
    · exact .of_ne hpos (by simp [hstate])
    · rename_i hneg
      split
      · exact .of_ne hpos (by simp)
      · have hlt := determineBch_lt hc
        exact ⟨hpos, fun _ => ⟨not_lt.mp hneg, hlt⟩⟩
  · refine .of_ne (adjFrameLen_pos hpos) ?_
    obtain ⟨m, k, h⟩ := adjFrameLen_eq cfg s
    simp [h, hstate]

theorem frameOk_hop {cfg : Config} {s s' : Node} {d : Draws} {cs : List ℤ} (h : FrameOk s)
    (hx : hop cfg s d = some (s', cs)) : FrameOk s' := by
  rcases hop_cases hx with ⟨-, c, -, rfl, -⟩ | ⟨-, ⟨k, rfl⟩, -⟩
  · exact ⟨h.pos, h.candidate⟩
  · exact ⟨h.pos, h.candidate⟩

theorem Losing.le_mFrameLen {cfg : Config} {s x : Node} (hx : Losing cfg s x) :
    s.mFrameLen ≤ x.mFrameLen := by
  cases hx with
  | bch _ _ => exact le_refresh_mFrameLen cfg s
  | both _ _ _ => exact le_refresh_mFrameLen cfg s

theorem Losing.slotCount_eq {cfg : Config} {s x : Node} (hx : Losing cfg s x) :
    x.slotCount = s.slotCount := by
  cases hx with
  | bch _ _ => exact refresh_slotCount cfg s
  | both _ _ _ => exact refresh_slotCount cfg s

theorem adjDecide_mFrameLen (cfg : Config) (s : Node) : (adjDecide cfg s).mFrameLen = s.mFrameLen := by
  unfold adjDecide
  split <;> rfl

theorem adjDecide_nodeState (cfg : Config) (s : Node) : (adjDecide cfg s).nodeState = .workFi := by
  unfold adjDecide
  split <;> rfl

theorem frameOk_ownTick {cfg : Config} {s s' : Node} {d : Draws} {out : TickOut} (h : FrameOk s)
    (ht : OwnTick cfg s d s' out) : FrameOk s' := by
  have hlisten := Nat.le_trans h.pos (le_listenTable_mFrameLen cfg s)
  have hrefresh := Nat.le_trans h.pos (le_refresh_mFrameLen cfg s)
  cases ht with
  | begin _ => exact .of_ne h.pos (by simp [tickInit])
  | wait hstate _ => exact .of_ne h.pos (by simp [hstate])
  | listenFull _ _ _ _ => exact .of_ne hlisten (by simp [backOff])
  | listenNow _ _ _ _ hx =>
    subst hx
    exact .of_ne hlisten (by simp)
  | listenLater _ _ _ _ => exact .of_ne hlisten (by simp)
  | request _ _ hx =>
    subst hx
    exact .of_ne hrefresh (by simp)
  | work _ _ hx =>
    subst hx
    exact .of_ne hrefresh (by simp)
  | lostFull hx _ => exact .of_ne (Nat.le_trans h.pos hx.le_mFrameLen) (by simp [backOff])
  | lostLater hx _ _ => exact .of_ne (Nat.le_trans h.pos hx.le_mFrameLen) (by simp)
  | worked hstate _ hadjust hhop =>
    have hx := frameOk_adjust hrefresh (by simpa using hstate) hadjust
    have hsent : FrameOk (sendFi cfg _) := ⟨hx.pos, hx.candidate⟩
    exact frameOk_hop hsent hhop
  | adjDecided _ _ =>
    refine .of_ne ?_ (by simp [adjDecide_nodeState])
    rw [sendFi_mFrameLen, adjDecide_mFrameLen]
    exact hrefresh
  | adjMoved _ _ _ => exact .of_ne hrefresh (by simp)

/-- **The frame always has a slot, and the candidate lies in the frame.** -/
theorem run_frameOk {cfg : Config} {ok : Node → Event → Prop} {u : Uninit} {s : Node}
    (h : RunWhere cfg ok u s) : FrameOk s := by
  refine h.invariant ?_ (fun _ _ hs => ⟨hs.pos, hs.candidate⟩) (fun _ hs => ⟨hs.pos, hs.candidate⟩)
    fun _ _ _ _ hs _ _ ht => frameOk_ownTick hs ht
  exact .of_ne cfg.frameLen_mem.1 (by simp [start])

/-! ### The slot index -/

/-- The slot in use is not recorded as free, or it lies in the half of the frame that is never cut. -/
def SlotRecorded (s : Node) : Prop :=
  (s.collectedFi s.slotCount).busy ≠ .free ∨ s.slotCount < s.mFrameLen / 2

/-- If the node hops, it has a slot to hop to. -/
def HopHasChoice (cfg : Config) (s : Node) : Prop :=
  hops cfg s = true → ∃ c, IsChoice cfg s false c

/-- The steps that keep the slot index inside the frame. -/
def IndexSafe (cfg : Config) (s : Node) : Event → Prop
  | .recv _ => True
  | .tick d =>
    ((beginSlot s).slotCount : ℤ) = s.slotNum → s.nodeState = .workFi →
      SlotRecorded (refresh cfg (beginSlot s)) ∧
        ∀ x cs, adjust cfg (refresh cfg (beginSlot s)) d = some (x, cs) →
          HopHasChoice cfg (sendFi cfg x)

def IndexOk (s : Node) : Prop := 0 ≤ s.slotNum ∧ s.slotNum < s.mFrameLen

theorem slotCount_lt_adjFrameLen {cfg : Config} {s : Node} (hlt : s.slotCount < s.mFrameLen)
    (hrec : SlotRecorded s) : s.slotCount < (adjFrameLen cfg s).mFrameLen := by
  rcases @adjFrameLen_mFrameLen cfg s with hge | ⟨heq, -, hfree⟩
  · omega
  · rw [heq]
    rcases hrec with hbusy | hlow
    · by_contra hnot
      exact hbusy (hfree _ (not_lt.mp hnot) hlt)
    · exact hlow

theorem indexOk_adjust {cfg : Config} {s x : Node} {d : Draws} {cs : List ℤ}
    (hown : (s.slotCount : ℤ) = s.slotNum) (hlt : s.slotCount < s.mFrameLen) (hrec : SlotRecorded s)
    (hx : adjust cfg s d = some (x, cs)) : IndexOk x := by
  have hstay : IndexOk s := ⟨by omega, by omega⟩
  rcases adjust_cases hx with ⟨-, c, hc, rfl, -⟩ | ⟨-, rfl, -⟩
  · unfold takeCandidate
    split
    · exact hstay
    · rename_i hneg
      split
      · have hclt := determineBch_lt hc
        exact ⟨not_lt.mp hneg, hclt⟩
      · exact hstay
  · have hcut := @slotCount_lt_adjFrameLen cfg s hlt hrec
    obtain ⟨m, k, h⟩ := adjFrameLen_eq cfg s
    rw [h] at hcut ⊢
    exact ⟨hstay.1, by simp only at hcut ⊢; omega⟩

theorem indexOk_hop {cfg : Config} {s s' : Node} {d : Draws} {cs : List ℤ} (h : IndexOk s)
    (hchoice : HopHasChoice cfg s) (hx : hop cfg s d = some (s', cs)) : IndexOk s' := by
  rcases hop_cases hx with ⟨hhops, c, hc, rfl, -⟩ | ⟨-, ⟨k, rfl⟩, -⟩
  · obtain ⟨i, hi⟩ := hchoice hhops
    have hclt := determineBch_lt hc
    exact ⟨determineBch_nonneg hc hi, hclt⟩
  · exact h

theorem indexOk_ownTick {cfg : Config} {s s' : Node} {d : Draws} {out : TickOut} (hframe : FrameOk s)
    (hlt : s.slotCount < s.mFrameLen) (hown : (s.slotCount : ℤ) = s.slotNum)
    (hsafe : s.nodeState = .workFi → SlotRecorded (refresh cfg s) ∧
      ∀ x cs, adjust cfg (refresh cfg s) d = some (x, cs) → HopHasChoice cfg (sendFi cfg x))
    (ht : OwnTick cfg s d s' out) : IndexOk s' := by
  have hlisten := le_listenTable_mFrameLen cfg s
  have hrefresh := le_refresh_mFrameLen cfg s
  cases ht with
  | begin _ => exact ⟨by show 0 ≤ s.slotNum; omega, by show s.slotNum < s.mFrameLen; omega⟩
  | wait _ _ => exact ⟨by show 0 ≤ s.slotNum; omega, by show s.slotNum < s.mFrameLen; omega⟩
  | listenFull _ _ _ _ =>
    have hcount := listenTable_slotCount cfg s
    exact ⟨Int.natCast_nonneg _, by show ((listenTable cfg s).slotCount : ℤ) < _; simp [backOff]; omega⟩
  | listenNow _ _ _ hnow hx =>
    subst hx hnow
    have hcount := listenTable_slotCount cfg s
    exact ⟨Int.natCast_nonneg _, by simp; omega⟩
  | listenLater _ _ hc hpos => exact ⟨hpos, determineBch_lt hc⟩
  | request _ _ hx =>
    subst hx
    exact ⟨by simp; omega, by simp; omega⟩
  | work _ _ hx =>
    subst hx
    exact ⟨by simp; omega, by simp; omega⟩
  | lostFull hx _ =>
    have hcount := hx.slotCount_eq
    have hle := hx.le_mFrameLen
    exact ⟨Int.natCast_nonneg _, by simp [backOff]; omega⟩
  | lostLater _ hc hpos => exact ⟨hpos, determineBch_lt hc⟩
  | worked hstate _ hadjust hhop =>
    obtain ⟨hrec, hchoice⟩ := hsafe hstate
    have hx := indexOk_adjust (by simpa using hown) (by simp; omega) hrec hadjust
    have hsent : IndexOk (sendFi cfg _) := hx
    exact indexOk_hop hsent (hchoice _ _ hadjust) hhop
  | adjDecided hstate _ =>
    obtain ⟨hcand, hcandlt⟩ := hframe.candidate hstate
    unfold adjDecide
    split
    · exact ⟨by simp; omega, by simp; omega⟩
    · exact ⟨by simp; omega, by simp; omega⟩
  | adjMoved hstate _ _ =>
    obtain ⟨hcand, hcandlt⟩ := hframe.candidate hstate
    exact ⟨by simp; omega, by simp; omega⟩

/-- What an index-safe tick keeps. -/
structure IndexInv (s : Node) : Prop where
  frame : FrameOk s
  index : IndexOk s

/-- The table that station 2 sends first: a collision on its slot 3, and stations two hops further. -/
def cutTable : Table := fun i =>
  if i = 3 then { busy := .collision, sti := 2 }
  else if i < 2 then { busy := .twoHop, sti := 5, count2hop := 1 }
  else {}

/-- The ticks until the node works in slot 3. -/
def cutTicks : List Event := List.replicate 11 (.tick { bch := 3 })

end VanetTdma.Ns3
