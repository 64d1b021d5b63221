import VanetTdma.Ns2.FiPacket
import VanetTdma.Ns3.SlotHandler

/-!
# The node of `MacTdma`: variables, table upkeep and the choice of a slot (`mac-tdma.cc`)

The ns-2 node keeps the same table as the ns-3 one, and what its functions do to a single entry without
reading a parameter (`vacate`, `expire`, `dropLock`, `unlockSlot`, `release`, `hopCode`) has the same text;
those definitions serve here as well.  What differs is written out:

* the variables are bound from the simulation script, without the bounds of the ns-3 checkers;
* a reservation has two life times, `slot_lifetime_frame_s1_` and `slot_lifetime_frame_s2_`: after the
  first stage the slot counts as free (`busy`) while its occupier stays recorded (`sti`);
* with `choose_bch_random_switch_ == 2` the first choice that is not made for a shorter frame is a fixed
  slot, whatever the frame length is;
* `adjFrameLen` sets the threshold to 5 for every frame length.

The table has `max_frame_len_` entries in the source; an index past them is undefined behaviour there and
an ordinary entry here.
-/

namespace VanetTdma.Ns2

open VanetTdma.SlotLoop
open VanetTdma.Ns3 (SlotTag Table FrameInfo Busy NodeState hopCode isNewNeighbor freeThs freeEhs pick
  unlockSlot clearCounts)

/-! ### Variables -/

/-- The variables bound from the simulation script.  The three ratios enter as the outcomes of the
comparisons they are used in, for `used` slots out of `m`. -/
structure Params where
  globalSti : ℕ
  frameLen : ℕ
  slotLifetimeFrameS1 : ℕ
  slotLifetimeFrameS2 : ℕ
  c3hopThresholdS1 : ℕ
  adjFreeThreshold : ℕ
  randomBchIfSingleSwitch : Bool
  chooseBchRandomSwitch : ℕ
  adjEna : Bool
  adjSingleSlotEna : Bool
  adjFrameEna : Bool
  adjFrameLowerBound : ℕ
  adjFrameUpperBound : ℕ
  slotMemory : Bool
  /-- `(float)used/m <= frameadj_cut_ratio_ths_`. -/
  cutRatioThs : ℕ → ℕ → Bool
  /-- `(float)used/m <= frameadj_cut_ratio_ehs_`. -/
  cutRatioEhs : ℕ → ℕ → Bool
  /-- `(float)used/m >= frameadj_exp_ratio_`. -/
  expRatio : ℕ → ℕ → Bool
  frameLen_pos : 1 ≤ frameLen := by decide
  lifetimes_le : 1 ≤ slotLifetimeFrameS1 ∧ slotLifetimeFrameS1 ≤ slotLifetimeFrameS2 := by decide

/-- The member variables of the slot logic. -/
structure Node where
  totalSlotCount : ℤ
  slotCount : ℕ
  slotNum : ℤ
  slotAdjCandidate : ℤ
  bchSlotLock : ℤ
  maxSlotNum : ℕ
  adjFreeThreshold : ℕ
  backoffFrameNum : ℕ
  nodeState : NodeState
  enable : Bool
  testmodeInitFlag : Bool
  collectedFi : Table
  receivedFiList : List FrameInfo

/-- The members that the constructor does not write, and the slot in which the node is made. -/
structure Uninit where
  slotNum : ℤ
  slotAdjCandidate : ℤ
  backoffFrameNum : ℕ
  /-- `(int)((NOW - start_time_)/slot_time_)`. -/
  firstSlot : ℕ

/-- The constructor. -/
def construct (p : Params) (u : Uninit) : Node where
  totalSlotCount := u.firstSlot - 1
  slotCount := 0
  slotNum := u.slotNum
  slotAdjCandidate := u.slotAdjCandidate
  bchSlotLock := 5
  maxSlotNum := p.frameLen
  adjFreeThreshold := p.adjFreeThreshold
  backoffFrameNum := u.backoffFrameNum
  nodeState := .init
  enable := false
  testmodeInitFlag := true
  collectedFi := Table.blank
  receivedFiList := []

/-! ### Scans of the table -/

/-- `isSingle`. -/
def isSingle (p : Params) (s : Node) : Bool :=
  (List.range s.maxSlotNum).all fun i =>
    (s.collectedFi i).sti = 0 ∨ (s.collectedFi i).sti = p.globalSti

def freeCountThs (s : Node) : ℕ := (List.range s.maxSlotNum).countP fun i => freeThs (s.collectedFi i)

def freeCountEhs (s : Node) : ℕ := (List.range s.maxSlotNum).countP fun i => freeEhs (s.collectedFi i)

/-- The frame is longer than its lower bound and used little enough to be cut. -/
def frameCuttable (p : Params) (s : Node) : Bool :=
  p.adjFrameLowerBound < s.maxSlotNum
    ∧ p.cutRatioEhs (s.maxSlotNum - freeCountEhs s) s.maxSlotNum
    ∧ p.cutRatioThs (s.maxSlotNum - freeCountThs s) s.maxSlotNum

/-! ### `determine_BCH` -/

/-- The slots `determine_BCH` considers: unlocked, and free or (unless `strict`) the node's own. -/
def bchCandidate (p : Params) (strict : Bool) (e : SlotTag) : Bool :=
  (e.busy = .free ∨ (strict = false ∧ e.sti = p.globalSti)) ∧ e.locker = false

/-- The array `s2c` (with `adj_ena_`; without it the same slots go to `s0c`). -/
def s2c (p : Params) (s : Node) (strict : Bool) : List ℕ :=
  (List.range s.maxSlotNum).filter fun i => bchCandidate p strict (s.collectedFi i)

/-- The array `s0c`. -/
def s0c (p : Params) (s : Node) (strict : Bool) : List ℕ :=
  if p.adjEna then (s2c p s strict).filter fun i => (s.collectedFi i).count3hop = 0
  else s2c p s strict

/-- The array `s0_1c`. -/
def s01c (p : Params) (s : Node) (strict : Bool) : List ℕ :=
  if p.adjEna then (s0c p s strict).filter fun i => i < s.maxSlotNum / 2 else []

/-- The fixed slot of the test mode. -/
def testSlot (globalSti : ℕ) : ℤ :=
  match globalSti with
  | 1 => 0
  | 2 => 1
  | 3 => 2
  | 4 => 0
  | n => (n : ℤ) - 1

/-- The choice of `determine_BCH` outside the test mode.  `Random::random() % n` and an element of an
empty array have no defined value. -/
def chooseBch (p : Params) (s : Node) (strict : Bool) (draw : ℕ) : Option ℤ :=
  if p.adjEna = false then
    if s0c p s strict ≠ [] then pick (s0c p s strict) draw else some (-1)
  else if s.adjFreeThreshold ≤ (s0c p s strict).length then
    pick (s0c p s strict) (if p.chooseBchRandomSwitch ≠ 0 then draw else 0)
  else if s2c p s strict ≠ [] then
    pick (s2c p s strict) (if p.chooseBchRandomSwitch ≠ 0 then draw else 0)
  else some (-1)

/-- The choice is made for a shorter frame. -/
def choosesLow (p : Params) (s : Node) (strict : Bool) : Bool :=
  p.adjFrameEna ∧ frameCuttable p s ∧ s01c p s strict ≠ []

/-- The choice is the fixed slot of the test mode. -/
def choosesTestSlot (p : Params) (s : Node) : Bool :=
  s.testmodeInitFlag ∧ p.chooseBchRandomSwitch = 2

/-- `determine_BCH`, with the value it leaves in `testmode_init_flag_`. -/
def determineBch (p : Params) (s : Node) (strict : Bool) (draw : ℕ) : Option (ℤ × Bool) :=
  if choosesLow p s strict then (pick (s01c p s strict) draw).map (·, s.testmodeInitFlag)
  else if choosesTestSlot p s then some (testSlot p.globalSti, false)
  else (chooseBch p s strict draw).map (·, s.testmodeInitFlag)

/-! ### `adjust_is_needed` and `adjFrameLen` -/

/-- `adjust_is_needed`. -/
def adjustIsNeeded (p : Params) (s : Node) (slotNum : ℤ) : Bool :=
  (p.adjEna ∧ p.c3hopThresholdS1 ≤ (s.collectedFi slotNum.toNat).count3hop
      ∧ s.adjFreeThreshold ≤ freeCountEhs s)
    ∨ (p.adjFrameEna ∧ ((s.maxSlotNum / 2 : ℕ) : ℤ) ≤ slotNum ∧ frameCuttable p s
      ∧ (List.range (s.maxSlotNum / 2)).any fun i => freeEhs (s.collectedFi i))

/-- The slots in use that a rate of `adjFrameLen` counts: all of them when few are free. -/
def usedSlots (s : Node) (free : ℕ) : ℕ :=
  if free ≤ s.adjFreeThreshold then s.maxSlotNum else s.maxSlotNum - free

/-- `cutflag`: every slot of the upper half is free. -/
def cutflag (s : Node) : Bool :=
  (List.range s.maxSlotNum).all fun i => i < s.maxSlotNum / 2 ∨ (s.collectedFi i).busy = .free

/-- The condition of `adjFrameLen` to double the frame. -/
def expands (p : Params) (s : Node) : Bool :=
  p.expRatio (usedSlots s (freeCountEhs s)) s.maxSlotNum ∧ s.maxSlotNum < p.adjFrameUpperBound

/-- The condition of `adjFrameLen` to halve the frame. -/
def cuts (p : Params) (s : Node) : Bool :=
  p.adjFrameEna ∧ expands p s = false ∧ cutflag s
    ∧ p.cutRatioThs (usedSlots s (freeCountThs s)) s.maxSlotNum
    ∧ p.cutRatioEhs (usedSlots s (freeCountEhs s)) s.maxSlotNum
    ∧ p.adjFrameLowerBound < s.maxSlotNum

/-- `adjFrameLen`. -/
def adjFrameLen (p : Params) (s : Node) : Node :=
  if p.adjFrameEna = false then s
  else
    { s with
      maxSlotNum :=
        if expands p s then s.maxSlotNum * 2
        else if cuts p s then s.maxSlotNum / 2
        else s.maxSlotNum
      adjFreeThreshold := 5 }

/-! ### `merge_fi` -/

/-- The entry handed to the station of a tag. -/
def handTo (p : Params) (e tag : SlotTag) (b : Busy) (count2hop count3hop : ℕ) : SlotTag :=
  { e with
    lifeTime := p.slotLifetimeFrameS2
    sti := tag.sti
    count2hop := count2hop
    count3hop := count3hop
    busy := b }

/-- The body of the first loop of `merge_fi`, for a tag sent by `sender`. -/
def ownSlot (p : Params) (sender : ℕ) (tag : SlotTag) (newNeighbor : Bool) (e : SlotTag) : SlotTag :=
  if e.sti = p.globalSti then
    if e.sti ≠ tag.sti ∧ tag.sti ≠ 0 then
      match tag.busy with
      | .oneHop =>
        if e.psf < tag.psf then
          handTo p e tag (hopCode sender tag) (e.count2hop + 1) (e.count3hop + tag.count2hop)
        else if tag.psf = e.psf then { e with busy := .collision }
        else e
      | .twoHop => { e with count3hop := e.count3hop + tag.count2hop }
      | .free => { e with busy := .collision } -- a hidden station
      | .collision => handTo p e tag .twoHop 1 1
      | .other _ => e
    else if e.sti = tag.sti then
      match tag.busy with
      | .free => { e with busy := .collision } -- a hidden station
      | _ => e
    else if tag.busy = .free ∧ newNeighbor = false then { e with busy := .collision }
    else e
  else e

/-- Second loop, slot of a direct neighbour. -/
def mergeOneHop (p : Params) (sender : ℕ) (tag e : SlotTag) : SlotTag :=
  if e.sti ≠ tag.sti ∧ tag.sti ≠ 0 then
    match tag.busy with
    | .oneHop =>
      if tag.sti = sender then
        if e.psf < tag.psf then
          handTo p e tag .oneHop (e.count2hop + 1) (e.count3hop + tag.count2hop)
        else if tag.psf = e.psf then
          { e with lifeTime := p.slotLifetimeFrameS2, busy := .collision }
        else e
      else { e with count2hop := e.count2hop + 1, count3hop := e.count3hop + tag.count2hop }
    | .twoHop => { e with count3hop := e.count3hop + tag.count2hop }
    | .collision => handTo p e tag .twoHop 1 1
    | _ => e
  else if e.sti = tag.sti then
    match tag.busy with
    | .oneHop =>
      if tag.sti = sender then
        let e := { e with lifeTime := p.slotLifetimeFrameS2 }
        if e.c3hopFlag = false then
          { e with
            count2hop := e.count2hop + 1
            count3hop := e.count3hop + tag.count2hop
            c3hopFlag := true }
        else e
      else { e with existed := true }
    | _ => e
  else if sender = e.sti then e.vacate
  else e

/-- Second loop, slot of a two-hop neighbour. -/
def mergeTwoHop (p : Params) (sender : ℕ) (tag e : SlotTag) : SlotTag :=
  if e.sti ≠ tag.sti ∧ tag.sti ≠ 0 then
    match tag.busy with
    | .oneHop => { e with count2hop := e.count2hop + 1, count3hop := e.count3hop + tag.count2hop }
    | .collision => handTo p e tag .twoHop 1 1
    | _ => e
  else if e.sti = tag.sti then
    match tag.busy with
    | .oneHop =>
      let e := if tag.sti = sender then { e with busy := .oneHop } else e
      let e := { e with lifeTime := p.slotLifetimeFrameS2 }
      if e.c3hopFlag = false then
        { e with
          c3hopFlag := true
          count2hop := e.count2hop + 1
          count3hop := e.count3hop + tag.count2hop }
      else e
    | _ => e
  else if sender = e.sti then e.vacate
  else e

/-- Second loop, free slot. -/
def mergeFree (p : Params) (sender : ℕ) (tag e : SlotTag) : SlotTag :=
  if e.sti ≠ tag.sti then
    match tag.busy with
    | .oneHop => { handTo p e tag (hopCode sender tag) 1 tag.count2hop with c3hopFlag := true }
    | .twoHop => { e with count3hop := e.count3hop + tag.count2hop }
    | .collision => handTo p e tag .twoHop 1 1
    | _ => e
  else e

/-- The `continue` tests of the second loop. -/
def skipped (p : Params) (tag e : SlotTag) : Bool :=
  e.locker ∨ e.sti = p.globalSti ∨ tag.sti = p.globalSti

/-- The body of the second loop.  A slot in the first stage of its timeout, free but recorded, is left
alone: the branch for it is commented out. -/
def otherSlot (p : Params) (sender : ℕ) (tag e : SlotTag) : SlotTag :=
  if skipped p tag e then e
  else if e.busy = .oneHop then mergeOneHop p sender tag e
  else if e.busy = .twoHop then mergeTwoHop p sender tag e
  else if e.busy = .free ∧ e.sti = 0 then mergeFree p sender tag e
  else e

/-- The table after the first loop.  `isNewNeighbor` reads the table as the loop has left it so far. -/
def mergeOwn (p : Params) (s : Node) (fi : FrameInfo) : Table :=
  sweep (fun i t => ownSlot p fi.sti (fi.slotDescribe i) (isNewNeighbor t s.maxSlotNum fi.sti) (t i))
    (min s.maxSlotNum fi.frameLen) s.collectedFi

/-- The test at the end of the second loop's body: an entry past the frame that is recorded now. -/
def restores (p : Params) (sender : ℕ) (tag e : SlotTag) : Bool :=
  skipped p tag e = false ∧ (otherSlot p sender tag e).sti ≠ 0

/-- The frame length after the second loop has passed slot `i`. -/
def restoreLen (p : Params) (s : Node) (fi : FrameInfo) (m i : ℕ) : ℕ :=
  if m ≤ i ∧ restores p fi.sti (fi.slotDescribe i) (mergeOwn p s fi i) then fi.frameLen else m

/-- `merge_fi`. -/
def mergeFi (p : Params) (s : Node) (fi : FrameInfo) : Node :=
  { s with
    collectedFi :=
      forSlots fi.frameLen (fun i e => otherSlot p fi.sti (fi.slotDescribe i) e) (mergeOwn p s fi)
    maxSlotNum := (List.range fi.frameLen).foldl (restoreLen p s fi) s.maxSlotNum }

/-- `merge_fi` prints `Protocol ERROR`: its second loop comes to an entry past the frame, as long as it is
then, that is recorded. -/
def protocolError (p : Params) (s : Node) (fi : FrameInfo) : Bool :=
  (List.range fi.frameLen).any fun i =>
    (List.range i).foldl (restoreLen p s fi) s.maxSlotNum ≤ i ∧ (mergeOwn p s fi i).sti ≠ 0

/-! ### `synthesize_fi_list` -/

/-- An entry whose life time is over. -/
def endOfLife (p : Params) (e : SlotTag) : SlotTag :=
  if e.busy = .twoHop then e.expire false
  else if e.busy = .oneHop ∧ e.existed = true then
    { e with busy := .twoHop, lifeTime := (p.slotLifetimeFrameS2 : ℤ) - 1, locker := false }
  else e.expire true

/-- The first stage of the timeout: the slot counts as free, its occupier stays recorded. -/
def firstStage (p : Params) (e : SlotTag) : SlotTag :=
  if e.busy ≠ .collision ∧ e.lifeTime = (p.slotLifetimeFrameS2 : ℤ) - p.slotLifetimeFrameS1 then
    { e with busy := .free }
  else e

/-- A slot in use by the node itself does not age, nor does one that is not recorded. -/
def ageless (p : Params) (slotNum candidate : ℤ) (i : ℕ) (e : SlotTag) : Bool :=
  (e.sti = p.globalSti ∧ ((i : ℤ) = slotNum ∨ (i : ℤ) = candidate)) ∨ e.sti = 0

/-- The body of the first loop of `synthesize_fi_list`. -/
def ageSlot (p : Params) (slotNum candidate : ℤ) (i : ℕ) (e : SlotTag) : SlotTag :=
  if ageless p slotNum candidate i e.dropLock then e.dropLock
  else if e.dropLock.tickLife.lifeTime = 0 then
    { endOfLife p e.dropLock.tickLife with existed := false }
  else { firstStage p e.dropLock.tickLife with existed := false }

/-- The condition on the first loop. -/
def agesFrame (p : Params) (s : Node) : Bool := s.nodeState ≠ .listen ∧ p.slotMemory = true

/-- `unlock_flag`: some slot of the frame is locked and not recorded. -/
def unlockFlag (p : Params) (s : Node) : Bool :=
  agesFrame p s ∧ (List.range s.maxSlotNum).any fun i =>
    (s.collectedFi i).locker ∧ (s.collectedFi i).sti = 0

/-- The node after the first loop. -/
def ageFrame (p : Params) (s : Node) : Node :=
  if agesFrame p s then
    { s with
      collectedFi := forSlots s.maxSlotNum (ageSlot p s.slotNum s.slotAdjCandidate) s.collectedFi }
  else s

/-- The node when `merge_fi` is called for the `k`-th received FI. -/
def mergeState (p : Params) (s : Node) (k : ℕ) : Node :=
  (s.receivedFiList.take k).foldl (mergeFi p) (ageFrame p s)

/-- The node after the loop over the received FIs. -/
def mergeList (p : Params) (s : Node) : Node := s.receivedFiList.foldl (mergeFi p) (ageFrame p s)

/-- `synthesize_fi_list`. -/
def synthesizeFiList (p : Params) (s : Node) : Node :=
  let merged := mergeList p s
  if unlockFlag p s then
    { merged with collectedFi := forSlots merged.maxSlotNum (fun _ => unlockSlot) merged.collectedFi }
  else merged

/-- `clear_others_slot_status`. -/
def clearOthersSlotStatus (p : Params) (s : Node) : Node :=
  { s with
    collectedFi := forSlots s.maxSlotNum
      (fun _ e => if e.sti ≠ p.globalSti then e.release false else e) s.collectedFi }

end VanetTdma.Ns2
