import Mathlib.Data.List.Basic
import VanetTdma.Ns3.SlotTag

/-!
# The node of `TdmaSatmac`: attributes, member variables, and the functions that choose a slot

`Config` holds the attributes of `GetTypeId` with the bounds of their checkers; `Node` holds the member
variables that the slot logic reads.  The statistics counters (`waiting_frame_count`, `collision_count_`
and the like) are written and logged but never read, and are left out.

`determineBch` returns `none` where the source reads an element of an empty candidate array: with
`AdjThreshold = 0` the test `s0c_num >= adj_free_threshold_` also admits `s0c_num == 0`, and the value
read then is an uninitialised `int`.  The branch for `choose_bch_random_switch_ == 2` is excluded by the
attribute's checker and left out.

Quotients such as `((float)(m_frame_len - free_count_ehs))/m_frame_len` are compared with `double`
constants.  A `float` quotient that is exactly 0.6 or 0.4 as a rational lies above the constant, and one
that is exactly 0.9 lies below it, so the comparisons are strict on the rationals.
-/

namespace VanetTdma.Ns3

/-- The attributes of a node, within the bounds of their checkers. -/
structure Config where
  globalSti : ℕ
  frameLen : ℕ
  slotLife : ℕ
  c3hopThreshold : ℕ
  adjThreshold : ℕ
  randomBchIfSingle : Bool
  chooseBchRandomSwitch : Bool
  adjEna : Bool
  adjFrameEna : Bool
  adjFrameLowerBound : ℕ
  adjFrameUpperBound : ℕ
  slotMemory : Bool
  globalSti_le : globalSti ≤ 9999 := by decide
  frameLen_mem : 1 ≤ frameLen ∧ frameLen ≤ 129 := by decide
  slotLife_le : slotLife ≤ 20 := by decide
  c3hopThreshold_le : c3hopThreshold ≤ 10 := by decide
  adjThreshold_le : adjThreshold ≤ 50 := by decide
  adjFrameLowerBound_mem : 1 ≤ adjFrameLowerBound ∧ adjFrameLowerBound ≤ 129 := by decide
  adjFrameUpperBound_mem : 1 ≤ adjFrameUpperBound ∧ adjFrameUpperBound ≤ 129 := by decide

/-- The member variables of the slot logic. -/
structure Node where
  totalSlotCount : ℕ
  slotCount : ℕ
  slotNum : ℤ
  slotAdjCandidate : ℤ
  bchSlotLock : ℤ
  mFrameLen : ℕ
  adjFreeThreshold : ℕ
  adjSingleSlotEna : Bool
  backoffFrameNum : ℕ
  nodeState : NodeState
  collectedFi : Table
  receivedFiList : List FrameInfo

/-- The members that neither the constructor nor `Start` writes: their first values are whatever the
allocation left there. -/
structure Uninit where
  slotAdjCandidate : ℤ
  bchSlotLock : ℤ
  adjSingleSlotEna : Bool
  backoffFrameNum : ℕ

/-- `Start`, on an object whose attributes are set. -/
def start (cfg : Config) (u : Uninit) : Node where
  totalSlotCount := 0
  slotCount := 0
  slotNum := ((0 + 1) % cfg.frameLen : ℕ)
  slotAdjCandidate := u.slotAdjCandidate
  bchSlotLock := u.bchSlotLock
  mFrameLen := cfg.frameLen
  adjFreeThreshold := cfg.adjThreshold
  adjSingleSlotEna := u.adjSingleSlotEna
  backoffFrameNum := u.backoffFrameNum
  nodeState := .init
  collectedFi := Table.blank
  receivedFiList := []

/-! ### Scans of the table -/

/-- `isNewNeighbor`: no slot of the frame is recorded for `sid`. -/
def isNewNeighbor (t : Table) (m sid : ℕ) : Bool :=
  (List.range m).all fun i => (t i).sti ≠ sid

/-- `isSingle`: every slot of the frame is unrecorded or the node's own. -/
def isSingle (cfg : Config) (s : Node) : Bool :=
  (List.range s.mFrameLen).all fun i =>
    (s.collectedFi i).sti = 0 ∨ (s.collectedFi i).sti = cfg.globalSti

def freeThs (e : SlotTag) : Bool := e.busy = .free

/-- A free slot that no third-hop report mentions. -/
def freeEhs (e : SlotTag) : Bool := e.busy = .free ∧ e.count3hop = 0

def freeCountThs (s : Node) : ℕ := (List.range s.mFrameLen).countP fun i => freeThs (s.collectedFi i)

def freeCountEhs (s : Node) : ℕ := (List.range s.mFrameLen).countP fun i => freeEhs (s.collectedFi i)

/-- `(float)used/m <= FRAMEADJ_CUT_RATIO_EHS`, the ratio being 0.6. -/
def cutRatioEhs (used m : ℕ) : Bool := 5 * used < 3 * m

/-- `(float)used/m <= FRAMEADJ_CUT_RATIO_THS`, the ratio being 0.4. -/
def cutRatioThs (used m : ℕ) : Bool := 5 * used < 2 * m

/-- `(float)used/m >= FRAMEADJ_EXP_RATIO`, the ratio being 0.9. -/
def expRatio (used m : ℕ) : Bool := 9 * m < 10 * used

/-- The frame is longer than its lower bound and used little enough to be cut. -/
def frameCuttable (cfg : Config) (s : Node) : Bool :=
  cfg.adjFrameLowerBound < s.mFrameLen
    ∧ cutRatioEhs (s.mFrameLen - freeCountEhs s) s.mFrameLen
    ∧ cutRatioThs (s.mFrameLen - freeCountThs s) s.mFrameLen

/-! ### `determine_BCH` -/

/-- The slots `determine_BCH` considers: unlocked, and free or (unless `strict`) the node's own. -/
def bchCandidate (cfg : Config) (strict : Bool) (e : SlotTag) : Bool :=
  (e.busy = .free ∨ (strict = false ∧ e.sti = cfg.globalSti)) ∧ e.locker = false

/-- The array `s2c` (with `adj_ena_`; without it the same slots go to `s0c`). -/
def s2c (cfg : Config) (s : Node) (strict : Bool) : List ℕ :=
  (List.range s.mFrameLen).filter fun i => bchCandidate cfg strict (s.collectedFi i)

/-- The array `s0c`. -/
def s0c (cfg : Config) (s : Node) (strict : Bool) : List ℕ :=
  if cfg.adjEna then (s2c cfg s strict).filter fun i => (s.collectedFi i).count3hop = 0
  else s2c cfg s strict

/-- The array `s0_1c`. -/
def s01c (cfg : Config) (s : Node) (strict : Bool) : List ℕ :=
  if cfg.adjEna then (s0c cfg s strict).filter fun i => i < s.mFrameLen / 2 else []

/-- `arr[GetInteger (0, n - 1)]` for an array with `n` entries written. -/
def pick (l : List ℕ) (draw : ℕ) : Option ℤ := l[draw % l.length]?.map Int.ofNat

/-- `determine_BCH`. -/
def determineBch (cfg : Config) (s : Node) (strict : Bool) (draw : ℕ) : Option ℤ :=
  if cfg.adjFrameEna ∧ frameCuttable cfg s ∧ s01c cfg s strict ≠ [] then
    pick (s01c cfg s strict) draw
  else if cfg.adjEna = false then
    if s0c cfg s strict ≠ [] then pick (s0c cfg s strict) draw else some (-1)
  else if s.adjFreeThreshold ≤ (s0c cfg s strict).length then
    pick (s0c cfg s strict) (if cfg.chooseBchRandomSwitch then draw else 0)
  else if s2c cfg s strict ≠ [] then
    pick (s2c cfg s strict) (if cfg.chooseBchRandomSwitch then draw else 0)
  else some (-1)

/-- A slot of the frame that `determine_BCH` may return. -/
def IsChoice (cfg : Config) (s : Node) (strict : Bool) (c : ℕ) : Prop :=
  c < s.mFrameLen ∧ bchCandidate cfg strict (s.collectedFi c) = true

theorem mem_s2c {cfg : Config} {s : Node} {strict : Bool} {c : ℕ} :
    c ∈ s2c cfg s strict ↔ IsChoice cfg s strict c := by
  simp [s2c, IsChoice]

theorem mem_s0c {cfg : Config} {s : Node} {strict : Bool} {c : ℕ} (h : c ∈ s0c cfg s strict) :
    IsChoice cfg s strict c := by
  unfold s0c at h
  split at h
  · exact mem_s2c.mp (List.mem_of_mem_filter h)
  · exact mem_s2c.mp h

theorem mem_s01c {cfg : Config} {s : Node} {strict : Bool} {c : ℕ} (h : c ∈ s01c cfg s strict) :
    IsChoice cfg s strict c := by
  unfold s01c at h
  split at h
  · exact mem_s0c (List.mem_of_mem_filter h)
  · simp at h

theorem pick_mem {l : List ℕ} {draw : ℕ} {b : ℤ} (h : pick l draw = some b) :
    ∃ c : ℕ, c ∈ l ∧ b = (c : ℤ) := by
  unfold pick at h
  simp only [Option.map_eq_some_iff] at h
  obtain ⟨c, hc, rfl⟩ := h
  exact ⟨c, List.mem_of_getElem? hc, rfl⟩

theorem exists_pick {l : List ℕ} (h : l ≠ []) (draw : ℕ) : ∃ b, pick l draw = some b := by
  have hpos : 0 < l.length := List.length_pos_iff.mpr h
  have hlt : draw % l.length < l.length := Nat.mod_lt _ hpos
  exact ⟨_, by rw [pick, List.getElem?_eq_getElem hlt]; rfl⟩

/-- **What `determine_BCH` returns**: a slot of the frame it may choose, or -1 when there is none. -/
theorem determineBch_cases {cfg : Config} {s : Node} {strict : Bool} {draw : ℕ} {b : ℤ}
    (h : determineBch cfg s strict draw = some b) :
    (∃ c : ℕ, b = (c : ℤ) ∧ IsChoice cfg s strict c) ∨
      (b = -1 ∧ ∀ c, ¬ IsChoice cfg s strict c) := by
  have hpick : ∀ {l : List ℕ} {d : ℕ}, (∀ c ∈ l, IsChoice cfg s strict c) → pick l d = some b →
      (∃ c : ℕ, b = (c : ℤ) ∧ IsChoice cfg s strict c) := by
    intro l d hl hp
    obtain ⟨c, hc, rfl⟩ := pick_mem hp
    exact ⟨c, rfl, hl c hc⟩
  unfold determineBch at h
  split at h
  · exact Or.inl (hpick (fun c hc => mem_s01c hc) h)
  · split at h
    · -- without slot adjustment `s0c` holds every candidate
      rename_i hadj
      have hs0c : s0c cfg s strict = s2c cfg s strict := by simp [s0c, hadj]
      split at h
      · exact Or.inl (hpick (fun c hc => mem_s0c hc) h)
      · rename_i hnil
        refine Or.inr ⟨by simpa using h.symm, fun c hc => ?_⟩
        rw [hs0c, not_not] at hnil
        have := mem_s2c.mpr hc
        rw [hnil] at this
        simp at this
    · split at h
      · exact Or.inl (hpick (fun c hc => mem_s0c hc) h)
      · split at h
        · exact Or.inl (hpick (fun c hc => mem_s2c.mp hc) h)
        · rename_i hnil
          refine Or.inr ⟨by simpa using h.symm, fun c hc => ?_⟩
          rw [not_not] at hnil
          have := mem_s2c.mpr hc
          rw [hnil] at this
          simp at this

theorem determineBch_lt {cfg : Config} {s : Node} {strict : Bool} {draw : ℕ} {b : ℤ}
    (h : determineBch cfg s strict draw = some b) : b < s.mFrameLen := by
  rcases determineBch_cases h with ⟨c, rfl, hc, _⟩ | ⟨rfl, _⟩
  · exact_mod_cast hc
  · omega

theorem determineBch_nonneg {cfg : Config} {s : Node} {strict : Bool} {draw : ℕ} {b : ℤ}
    (h : determineBch cfg s strict draw = some b) {c : ℕ} (hc : IsChoice cfg s strict c) :
    0 ≤ b := by
  rcases determineBch_cases h with ⟨d, rfl, _⟩ | ⟨_, hno⟩
  · omega
  · exact absurd hc (hno c)

/-! ### The specification of `determine_BCH` -/

/-- The number of slots that may be chosen and that no third-hop report mentions. -/
def quietCount (cfg : Config) (s : Node) (strict : Bool) : ℕ :=
  (List.range s.mFrameLen).countP fun i =>
    bchCandidate cfg strict (s.collectedFi i) ∧ (s.collectedFi i).count3hop = 0

/-- What `determine_BCH` should return: -1 exactly if no slot may be chosen, otherwise such a slot; and
with slot adjustment a quiet one if there are enough of them. -/
structure BchSpec (cfg : Config) (s : Node) (strict : Bool) (b : ℤ) : Prop where
  none_iff : b = -1 ↔ ∀ c, ¬ IsChoice cfg s strict c
  choice : b ≠ -1 → ∃ c : ℕ, b = c ∧ IsChoice cfg s strict c
  quiet : cfg.adjEna = true → s.adjFreeThreshold ≤ quietCount cfg s strict →
    1 ≤ quietCount cfg s strict → ∃ c : ℕ, b = c ∧ (s.collectedFi c).count3hop = 0

section spec

variable {cfg : Config} {s : Node} {strict : Bool} {draw : ℕ} {b : ℤ}

theorem s0c_length (hadj : cfg.adjEna = true) : (s0c cfg s strict).length = quietCount cfg s strict := by
  simp only [s0c, hadj, if_true, s2c, List.filter_filter, quietCount, List.countP_eq_length_filter]
  refine congrArg List.length (List.filter_congr fun i _ => ?_)
  simp [Bool.and_comm]

theorem count3hop_of_mem_s0c {c : ℕ} (hadj : cfg.adjEna = true) (h : c ∈ s0c cfg s strict) :
    (s.collectedFi c).count3hop = 0 := by
  simp only [s0c, hadj, if_true, List.mem_filter, decide_eq_true_eq] at h
  exact h.2

theorem count3hop_of_mem_s01c {c : ℕ} (h : c ∈ s01c cfg s strict) :
    cfg.adjEna = true ∧ (s.collectedFi c).count3hop = 0 := by
  unfold s01c at h
  split at h
  · rename_i hadj
    exact ⟨hadj, count3hop_of_mem_s0c hadj (List.mem_of_mem_filter h)⟩
  · simp at h

/-- `determine_BCH` has no defined result exactly if the threshold is 0 and no slot is quiet. -/
theorem determineBch_eq_none_iff :
    determineBch cfg s strict draw = none ↔
      cfg.adjEna = true ∧ s.adjFreeThreshold = 0 ∧ quietCount cfg s strict = 0 := by
  have hpick : ∀ {l : List ℕ} {d : ℕ}, l ≠ [] → pick l d ≠ none := fun hl hnone => by
    obtain ⟨b, hb⟩ := exists_pick hl _
    rw [hnone] at hb
    cases hb
  unfold determineBch
  split
  · rename_i hcut
    refine ⟨fun h => absurd h (hpick hcut.2.2), fun ⟨hadj, _, hquiet⟩ => ?_⟩
    rw [← s0c_length hadj, List.length_eq_zero_iff] at hquiet
    exact absurd (by simp [s01c, hquiet]) hcut.2.2
  · split
    · rename_i hadj
      refine ⟨fun h => ?_, fun h => by simp [h.1] at hadj⟩
      split at h
      · exact absurd h (hpick ‹_›)
      · cases h
    · rename_i hadj
      rw [Bool.not_eq_false] at hadj
      split
      · rename_i hths
        rw [s0c_length hadj] at hths
        refine ⟨fun h => ?_, fun ⟨_, _, hquiet⟩ => ?_⟩
        · have hnil : s0c cfg s strict = [] := by
            by_contra hne
            exact hpick hne h
          have hquiet : quietCount cfg s strict = 0 := by rw [← s0c_length hadj, hnil]; rfl
          exact ⟨hadj, by omega, hquiet⟩
        · rw [← s0c_length hadj, List.length_eq_zero_iff] at hquiet
          simp [hquiet, pick]
      · rename_i hths
        rw [s0c_length hadj] at hths
        refine ⟨fun h => ?_, fun ⟨_, hzero, _⟩ => by omega⟩
        split at h
        · exact absurd h (hpick ‹_›)
        · cases h

theorem determineBch_quiet (h : determineBch cfg s strict draw = some b) (hadj : cfg.adjEna = true)
    (hths : s.adjFreeThreshold ≤ quietCount cfg s strict) :
    ∃ c : ℕ, b = c ∧ (s.collectedFi c).count3hop = 0 := by
  unfold determineBch at h
  rw [s0c_length hadj] at h
  split at h
  · obtain ⟨c, hc, rfl⟩ := pick_mem h
    exact ⟨c, rfl, (count3hop_of_mem_s01c hc).2⟩
  · simp only [hadj, Bool.true_eq_false, if_false] at h
    obtain ⟨c, hc, rfl⟩ := pick_mem h
    exact ⟨c, rfl, count3hop_of_mem_s0c hadj hc⟩

theorem determineBch_bchSpec (h : determineBch cfg s strict draw = some b) : BchSpec cfg s strict b where
  none_iff := by
    rcases determineBch_cases h with ⟨c, rfl, hc⟩ | ⟨rfl, hno⟩
    · exact ⟨fun hneg => by omega, fun hno => absurd hc (hno c)⟩
    · exact ⟨fun _ => hno, fun _ => rfl⟩
  choice := by
    intro hne
    rcases determineBch_cases h with hc | ⟨hneg, _⟩
    · exact hc
    · exact absurd hneg hne
  quiet := fun hadj hths _ => determineBch_quiet h hadj hths

end spec

/-- **The specification of `determine_BCH`** is met for every table, every draw and all attributes,
except with slot adjustment, the threshold 0 and no quiet slot: then the source takes an element of an
array into which it has written none. -/
theorem determineBch_spec_iff (cfg : Config) (s : Node) (strict : Bool) (draw : ℕ) :
    (∃ b, determineBch cfg s strict draw = some b ∧ BchSpec cfg s strict b) ↔
      ¬ (cfg.adjEna = true ∧ s.adjFreeThreshold = 0 ∧ quietCount cfg s strict = 0) := by
  rw [← @determineBch_eq_none_iff cfg s strict draw]
  refine ⟨fun ⟨b, hb, _⟩ hnone => ?_, fun hsome => ?_⟩
  · rw [hnone] at hb
    cases hb
  · obtain ⟨b, hb⟩ := Option.ne_none_iff_exists'.mp hsome
    exact ⟨b, hb, determineBch_bchSpec hb⟩

/-- A node with slot adjustment and `AdjThreshold = 0` in a frame of 16 slots. -/
def eagerCfg : Config where
  globalSti := 7
  frameLen := 16
  slotLife := 5
  c3hopThreshold := 2
  adjThreshold := 0
  randomBchIfSingle := false
  chooseBchRandomSwitch := true
  adjEna := true
  adjFrameEna := false
  adjFrameLowerBound := 16
  adjFrameUpperBound := 32
  slotMemory := true

/-- Station 2 holds every slot: instead of -1 there is no defined result. -/
theorem determineBch_undefined :
    ¬ ∀ (cfg : Config) (s : Node) (strict : Bool) (draw : ℕ), s.mFrameLen ≤ 128 →
      ∃ b, determineBch cfg s strict draw = some b ∧ BchSpec cfg s strict b := by
  intro h
  let s : Node := { start eagerCfg ⟨0, 0, false, 0⟩ with
    collectedFi := fun _ => { busy := .oneHop, sti := 2 } }
  have hnone : determineBch eagerCfg s true 0 = none := by decide
  obtain ⟨b, hb, -⟩ := h eagerCfg s true 0 (by decide)
  rw [hnone] at hb
  cases hb

/-! ### Adjusting the slot and the frame length -/

/-- `adjust_is_needed`. -/
def adjustIsNeeded (cfg : Config) (s : Node) (slotNum : ℤ) : Bool :=
  (cfg.adjEna ∧ cfg.c3hopThreshold ≤ (s.collectedFi slotNum.toNat).count3hop
      ∧ s.adjFreeThreshold ≤ freeCountEhs s)
    ∨ (cfg.adjFrameEna ∧ ((s.mFrameLen / 2 : ℕ) : ℤ) ≤ slotNum ∧ frameCuttable cfg s
      ∧ (List.range (s.mFrameLen / 2)).any fun i => freeEhs (s.collectedFi i))

/-- `utilrate_ehs >= FRAMEADJ_EXP_RATIO`, the rate being set to 1 when few slots are left. -/
def expandWanted (s : Node) : Bool :=
  freeCountEhs s ≤ s.adjFreeThreshold ∨ expRatio (s.mFrameLen - freeCountEhs s) s.mFrameLen

/-- The utilisation part of the condition to halve the frame. -/
def cutWanted (s : Node) : Bool :=
  (s.adjFreeThreshold < freeCountThs s ∧ cutRatioThs (s.mFrameLen - freeCountThs s) s.mFrameLen)
    ∧ (s.adjFreeThreshold < freeCountEhs s ∧ cutRatioEhs (s.mFrameLen - freeCountEhs s) s.mFrameLen)

/-- `cutflag`: every slot of the upper half is free. -/
def cutflag (s : Node) : Bool :=
  (List.range s.mFrameLen).all fun i => i < s.mFrameLen / 2 ∨ (s.collectedFi i).busy = .free

/-- The frame length after `adjFrameLen`. -/
def adjustedLen (cfg : Config) (s : Node) : ℕ :=
  if expandWanted s ∧ s.mFrameLen < cfg.adjFrameUpperBound then s.mFrameLen * 2
  else if cutflag s ∧ cutWanted s ∧ cfg.adjFrameLowerBound < s.mFrameLen then s.mFrameLen / 2
  else s.mFrameLen

/-- The `switch` that ends `adjFrameLen`. -/
def thresholdFor : ℕ → ℕ
  | 16 => 2
  | 32 => 3
  | 64 => 4
  | _ => 5 -- 128 and the default

/-- `adjFrameLen`. -/
def adjFrameLen (cfg : Config) (s : Node) : Node :=
  if cfg.adjFrameEna = false then s
  else { s with
    mFrameLen := adjustedLen cfg s
    adjFreeThreshold := thresholdFor (adjustedLen cfg s) }

theorem adjFrameLen_eq (cfg : Config) (s : Node) :
    ∃ m k, adjFrameLen cfg s = { s with mFrameLen := m, adjFreeThreshold := k } := by
  unfold adjFrameLen
  split
  · exact ⟨s.mFrameLen, s.adjFreeThreshold, rfl⟩
  · exact ⟨_, _, rfl⟩

theorem adjFrameLen_mFrameLen {cfg : Config} {s : Node} :
    s.mFrameLen ≤ (adjFrameLen cfg s).mFrameLen ∨
      ((adjFrameLen cfg s).mFrameLen = s.mFrameLen / 2 ∧ cfg.adjFrameLowerBound < s.mFrameLen ∧
        ∀ i, s.mFrameLen / 2 ≤ i → i < s.mFrameLen → (s.collectedFi i).busy = .free) := by
  unfold adjFrameLen
  split
  · exact Or.inl (Nat.le_refl _)
  · show s.mFrameLen ≤ adjustedLen cfg s ∨ (adjustedLen cfg s = _ ∧ _)
    unfold adjustedLen
    split
    · exact Or.inl (by omega)
    · split
      · rename_i hcut
        refine Or.inr ⟨rfl, hcut.2.2, fun i hlo hi => ?_⟩
        have hflag := hcut.1
        simp only [cutflag, List.all_eq_true, List.mem_range, decide_eq_true_eq] at hflag
        rcases hflag i hi with h | h
        · omega
        · exact h
      · exact Or.inl (Nat.le_refl _)

end VanetTdma.Ns3
