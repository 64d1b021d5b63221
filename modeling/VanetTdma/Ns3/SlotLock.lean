import VanetTdma.Ns3.SlotHandler

/-!
# The lock of a slot

A slot whose occupier has gone is locked for one frame, so that no FI of the same interval fills it again
(`locker = 1; // lock the status for one frame.`).  `Locks` says that a round of table maintenance locks a
slot, by the end of its life or by a release in `merge_fi`.  Unlocking is driven by `unlockFlag`, one flag
for the whole table, computed before the merges and applied after them.

* `Locks.merged` — what a round locks is locked and unrecorded after its last merge;
* `Locks.locked_iff` — it is still locked when the round returns exactly if the flag was not set;
* `lock_lasts_one_frame` — the lifetime of a lock.
-/

namespace VanetTdma.Ns3

open VanetTdma.SlotLoop

/-- The round `synthesize_fi_list` locks slot `i`. -/
inductive Locks (cfg : Config) (s : Node) (i : ℕ) : Prop
  /-- The ageing loop ends the reservation of the slot. -/
  | expiry (hrecorded : (s.collectedFi i).sti ≠ 0)
      (hlocked : ((ageFrame cfg s).collectedFi i).locker = true) (hages : agesFrame cfg s = true)
      (hlt : i < s.mFrameLen)
  /-- The merge of an FI sets the lock. -/
  | release (before after : List FrameInfo) (fi : FrameInfo)
      (hlist : s.receivedFiList = before ++ fi :: after)
      (hbefore : ((before.foldl (mergeFi cfg) (ageFrame cfg s)).collectedFi i).locker = false)
      (hafter : ((mergeFi cfg (before.foldl (mergeFi cfg) (ageFrame cfg s)) fi).collectedFi i).locker
        = true)

def LockedFree (e : SlotTag) : Prop := e.locker = true ∧ e.sti = 0

/-! ### The merges -/

section merge

variable {cfg : Config} {s : Node} {fi : FrameInfo} {i : ℕ}

theorem mergeOwn_locker : (mergeOwn cfg s fi i).locker = (s.collectedFi i).locker := by
  by_cases hown : (s.collectedFi i).sti = cfg.globalSti
  · cases (mergeOwn_effect : MergeEffect cfg.globalSti fi.sti (fi.slotDescribe i) _ _) with
    | keep hs => exact hs.locker_eq
    | contested _ _ _ hlocker _ => exact hlocker
    | heard _ _ _ hlocker _ => exact hlocker
    | taken _ _ _ _ _ hlocker _ => exact hlocker
    | released _ _ hother _ _ _ _ => exact absurd hown hother
  · rw [mergeOwn_of_ne hown]

theorem mergeFi_lockedFree (hbefore : (s.collectedFi i).locker = false)
    (hafter : ((mergeFi cfg s fi).collectedFi i).locker = true) :
    LockedFree ((mergeFi cfg s fi).collectedFi i) := by
  have hkept : ((mergeFi cfg s fi).collectedFi i).locker ≠ (mergeOwn cfg s fi i).locker := by
    rw [mergeOwn_locker, hbefore, hafter]
    decide
  rcases Nat.lt_or_ge i fi.frameLen with hlt | hge
  · rw [mergeFi_of_lt hlt] at hkept hafter ⊢
    cases (otherSlot_effect : MergeEffect cfg.globalSti fi.sti (fi.slotDescribe i) _ _) with
    | keep hs => exact absurd hs.locker_eq hkept
    | contested _ _ _ hlocker _ => exact absurd hlocker hkept
    | heard _ _ _ hlocker _ => exact absurd hlocker hkept
    | taken _ _ _ _ _ hlocker _ => exact absurd hlocker hkept
    | released _ _ _ _ hsti _ _ => exact ⟨hafter, hsti⟩
  · exact absurd (by rw [mergeFi_of_ge hge]) hkept

theorem mergeFi_of_locked (hlock : (s.collectedFi i).locker = true)
    (hne : (s.collectedFi i).sti ≠ cfg.globalSti) :
    (mergeFi cfg s fi).collectedFi i = s.collectedFi i := by
  rcases Nat.lt_or_ge i fi.frameLen with hlt | hge
  · rw [mergeFi_of_lt hlt, mergeOwn_of_ne hne]
    exact otherSlot_of_skipped (by simp [skipped, hlock])
  · rw [mergeFi_of_ge hge, mergeOwn_of_ne hne]

theorem foldl_mergeFi_of_locked (l : List FrameInfo) (s : Node)
    (hlock : (s.collectedFi i).locker = true) (hne : (s.collectedFi i).sti ≠ cfg.globalSti) :
    (l.foldl (mergeFi cfg) s).collectedFi i = s.collectedFi i := by
  induction l generalizing s with
  | nil => rfl
  | cons fi l ih =>
    have hsame : (mergeFi cfg s fi).collectedFi i = s.collectedFi i := mergeFi_of_locked hlock hne
    rw [List.foldl_cons, ih _ (hsame ▸ hlock) (hsame ▸ hne), hsame]

theorem foldl_mergeFi_unlocked (l : List FrameInfo) (s : Node)
    (h : (s.collectedFi i).locker = false)
    (hno : ∀ before fi after, l = before ++ fi :: after →
      ((before.foldl (mergeFi cfg) s).collectedFi i).locker = false →
        ((mergeFi cfg (before.foldl (mergeFi cfg) s) fi).collectedFi i).locker ≠ true) :
    ((l.foldl (mergeFi cfg) s).collectedFi i).locker = false := by
  induction l generalizing s with
  | nil => exact h
  | cons fi l ih =>
    refine ih _ (Bool.eq_false_iff.mpr (hno [] fi l rfl h)) fun before fi' after heq => ?_
    exact hno (fi :: before) fi' after (congrArg (fi :: ·) heq)

end merge

/-! ### The round -/

section round

variable {cfg : Config} {s : Node} {i : ℕ}

theorem ageFrame_of_lt (hages : agesFrame cfg s = true) (hlt : i < s.mFrameLen) :
    (ageFrame cfg s).collectedFi i = ageSlot cfg s.slotNum s.slotAdjCandidate i (s.collectedFi i) := by
  rw [ageFrame, if_pos hages]
  exact forSlots_of_lt hlt

/-- Ageing leaves a lock on a slot only if it is nobody's. -/
theorem ageFrame_lockedFree (hages : agesFrame cfg s = true) (hlt : i < s.mFrameLen)
    (hlock : ((ageFrame cfg s).collectedFi i).locker = true) :
    LockedFree ((ageFrame cfg s).collectedFi i) := by
  rw [ageFrame_of_lt hages hlt] at hlock ⊢
  refine ⟨hlock, ?_⟩
  cases ageSlot_effect cfg s.slotNum s.slotAdjCandidate i (s.collectedFi i) with
  | keep _ hsti _ hlocker => exact hsti.trans (hlocker hlock).2
  | fade _ _ _ _ hlocker => simp [hlocker] at hlock
  | expired _ _ _ hsti _ => exact hsti

theorem ageFrame_receivedFiList : (ageFrame cfg s).receivedFiList = s.receivedFiList := by
  obtain ⟨t, ht⟩ := @ageFrame_eq cfg s
  rw [ht]

theorem ageFrame_mFrameLen : (ageFrame cfg s).mFrameLen = s.mFrameLen := by
  obtain ⟨t, ht⟩ := @ageFrame_eq cfg s
  rw [ht]

theorem mergeList_mFrameLen : s.mFrameLen ≤ (mergeList cfg (ageFrame cfg s)).mFrameLen := by
  obtain ⟨t, m, hm, heq⟩ := @foldl_mergeFi_eq cfg (ageFrame cfg s).receivedFiList (ageFrame cfg s)
  rw [mergeList, heq]
  rwa [ageFrame_mFrameLen] at hm

/-- **What a round locks is locked and unrecorded after its last merge.** -/
theorem Locks.merged (h : Locks cfg s i) (hg : cfg.globalSti ≠ 0) :
    LockedFree ((mergeList cfg (ageFrame cfg s)).collectedFi i) := by
  rw [mergeList, ageFrame_receivedFiList]
  cases h with
  | expiry _ hlocked hages hlt =>
    have hfree := ageFrame_lockedFree hages hlt hlocked
    rw [foldl_mergeFi_of_locked _ _ hlocked (hfree.2 ▸ hg.symm)]
    exact hfree
  | release before after fi hlist hbefore hafter =>
    have hfree := mergeFi_lockedFree hbefore hafter
    rw [hlist, List.foldl_append, List.foldl_cons,
      foldl_mergeFi_of_locked _ _ hafter (hfree.2 ▸ hg.symm)]
    exact hfree

theorem synthesizeFiList_of_lt (hlt : i < s.mFrameLen) :
    (synthesizeFiList cfg s).collectedFi i
      = if unlockFlag cfg s then unlockSlot ((mergeList cfg (ageFrame cfg s)).collectedFi i)
        else (mergeList cfg (ageFrame cfg s)).collectedFi i := by
  unfold synthesizeFiList
  simp only
  split
  · simp only [forSlots_of_lt (Nat.lt_of_lt_of_le hlt mergeList_mFrameLen)]
  · rfl

theorem unlockSlot_of_lockedFree {e : SlotTag} (h : LockedFree e) : (unlockSlot e).locker = false := by
  rw [unlockSlot, if_pos (And.intro h.1 h.2)]

/-- **The lock of a round that sets it**: still there at the end exactly if the flag was not set. -/
theorem Locks.locked_iff (h : Locks cfg s i) (hg : cfg.globalSti ≠ 0) (hlt : i < s.mFrameLen) :
    ((synthesizeFiList cfg s).collectedFi i).locker = true ↔ unlockFlag cfg s = false := by
  have hfree := h.merged hg
  rw [synthesizeFiList_of_lt hlt]
  cases hflag : unlockFlag cfg s with
  | false => simp [hfree.1]
  | true => simp [unlockSlot_of_lockedFree hfree]

/-- **The round after**: a slot of the frame that the round does not lock is unlocked when it returns. -/
theorem unlocked_of_not_locks (hg : cfg.globalSti ≠ 0) (hages : agesFrame cfg s = true)
    (hlt : i < s.mFrameLen) (hno : ¬ Locks cfg s i) :
    ((synthesizeFiList cfg s).collectedFi i).locker = false := by
  rw [synthesizeFiList_of_lt hlt]
  cases hlock : ((ageFrame cfg s).collectedFi i).locker with
  | true =>
    -- the lock is an old one on an unrecorded slot, and sets the flag
    have hsti : (s.collectedFi i).sti = 0 := by
      by_contra hne
      exact hno (.expiry hne hlock hages hlt)
    have hfree := ageFrame_lockedFree hages hlt hlock
    have hold : (s.collectedFi i).locker = true := by
      rw [ageFrame_of_lt hages hlt] at hlock
      cases ageSlot_effect cfg s.slotNum s.slotAdjCandidate i (s.collectedFi i) with
      | keep _ _ _ hlocker => exact (hlocker hlock).1
      | fade _ _ _ _ hlocker => simp [hlocker] at hlock
      | expired hzero _ _ _ _ => exact absurd hsti hzero
    have hflag : unlockFlag cfg s = true := by
      simp only [unlockFlag, decide_eq_true_eq, List.any_eq_true, List.mem_range]
      exact ⟨hages, i, hlt, hold, hsti⟩
    rw [if_pos hflag, mergeList, foldl_mergeFi_of_locked _ _ hlock (hfree.2 ▸ hg.symm)]
    exact unlockSlot_of_lockedFree hfree
  | false =>
    have hmerged : ((mergeList cfg (ageFrame cfg s)).collectedFi i).locker = false := by
      rw [mergeList, ageFrame_receivedFiList]
      exact foldl_mergeFi_unlocked _ _ hlock fun before fi after hlist hbefore hafter =>
        hno (.release before after fi hlist hbefore hafter)
    split
    · rcases unlockSlot_cases ((mergeList cfg (ageFrame cfg s)).collectedFi i) with h | ⟨-, h⟩
      · rwa [h]
      · rw [h]
    · exact hmerged

end round

/-- **The lifetime of a lock.**  With `SlotMemory`, outside `NODE_LISTEN`, a slot of the frame that a round
locks is still locked when the round returns exactly if no slot of the frame was locked and unrecorded
before; and any later round that finds it in the frame and does not lock it again unlocks it. -/
theorem lock_lasts_one_frame (cfg : Config) (s : Node) (i : ℕ) (hmem : cfg.slotMemory = true)
    (hg : cfg.globalSti ≠ 0) (hstate : s.nodeState ≠ .listen) (hlt : i < s.mFrameLen)
    (hlocks : Locks cfg s i) :
    (((synthesizeFiList cfg s).collectedFi i).locker = true ↔
      ∀ k < s.mFrameLen, ¬ LockedFree (s.collectedFi k)) ∧
      ∀ s' : Node, s'.nodeState ≠ .listen → i < s'.mFrameLen → ¬ Locks cfg s' i →
        ((synthesizeFiList cfg s').collectedFi i).locker = false := by
  have hages : ∀ r : Node, r.nodeState ≠ .listen → agesFrame cfg r = true := by
    intro r hr
    simp [agesFrame, hr, hmem]
  refine ⟨?_, fun s' hs' hlt' hno => unlocked_of_not_locks hg (hages s' hs') hlt' hno⟩
  rw [hlocks.locked_iff hg hlt]
  simp only [unlockFlag, hages s hstate, LockedFree, decide_eq_false_iff_not, true_and,
    List.any_eq_true, List.mem_range, decide_eq_true_eq, not_exists, not_and]

/-- A working node in slot 0 that has not heard station 2 in slot 2 for a while; slot 1 is free. -/
def fading (lock : Bool) : Node :=
  { start cutCfg ⟨0, 0, false, 0⟩ with
    nodeState := .workFi
    slotNum := 0
    collectedFi := fun
      | 0 => { busy := .oneHop, sti := 1 }
      | 1 => { locker := lock }
      | 2 => { busy := .oneHop, sti := 2, lifeTime := 1 }
      | _ => {} }

/-- Station 2 is forgotten: its slot is locked at the end of the round and free in the next one. -/
theorem lock_lasts_one_frame_fading :
    ((synthesizeFiList cutCfg (fading false)).collectedFi 2).locker = true ∧
      ((synthesizeFiList cutCfg (synthesizeFiList cutCfg (fading false))).collectedFi 2).locker
        = false := by
  have hlocks : Locks cutCfg (fading false) 2 := .expiry (by decide) (by decide) (by decide) (by decide)
  have hlast := lock_lasts_one_frame cutCfg (fading false) 2 rfl (by decide) (by decide) (by decide)
    hlocks
  refine ⟨hlast.1.mpr (by unfold LockedFree; decide), hlast.2 _ (by decide) (by decide) fun hagain => ?_⟩
  cases hagain with
  | expiry hrecorded _ _ _ => exact hrecorded (by decide)
  | release before after fi hlist _ _ =>
    have hnil : (synthesizeFiList cutCfg (fading false)).receivedFiList = [] := by rfl
    rw [hnil] at hlist
    simp at hlist

/-- With another slot locked before, the lock is gone in the round that sets it. -/
theorem lock_undone_at_once :
    ¬ ∀ (cfg : Config) (s : Node) (i : ℕ), cfg.slotMemory = true → s.nodeState ≠ .listen →
      Locks cfg s i → ((synthesizeFiList cfg s).collectedFi i).locker = true := by
  intro h
  have hlocks : Locks cutCfg (fading true) 2 := .expiry (by decide) (by decide) (by decide) (by decide)
  exact absurd (h cutCfg (fading true) 2 rfl (by decide) hlocks) (by decide)

end VanetTdma.Ns3
