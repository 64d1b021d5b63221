import VanetTdma.Ns3.SlotIndex
import VanetTdma.Ns3.TickRound

/-!
# The range of the table

Beyond `TableOk`, which ties the code of an entry to the station it records, a running node keeps

* every `busy` byte among the four `SLOT_` constants and every life time at 0 or above;
* every entry past the frame unrecorded.

The last one is what the two ways to change the frame length rely on: `adjFrameLen` halves the frame only
over free entries, and `merge_fi` takes over the length of an FI as soon as it has recorded an entry past
its own frame (`mergeFi_tail`).  So the `Protocol ERROR` message of `merge_fi` is never printed
(`run_wellFormed`).
-/

namespace VanetTdma.Ns3

open VanetTdma.SlotLoop VanetTdma.GuardedRun

/-- The `busy` byte is one of the four constants and the life time has not run below 0. -/
structure InRange (e : SlotTag) : Prop where
  named : ∀ n, e.busy ≠ .other n
  life : 0 ≤ e.lifeTime

/-! ### Entries -/

section entry

variable {cfg : Config} {sender : ℕ} {tag e e' : SlotTag}

theorem ownSlot_lifeTime (newNeighbor : Bool) :
    (ownSlot cfg sender tag newNeighbor e).lifeTime = e.lifeTime ∨
      (ownSlot cfg sender tag newNeighbor e).lifeTime = cfg.slotLife := by
  unfold ownSlot
  split
  · split
    · split
      · split
        · exact .inr rfl
        · split <;> exact .inl rfl
      · exact .inl rfl
      · exact .inl rfl
      · exact .inr rfl
      · exact .inl rfl
    · split
      · split <;> exact .inl rfl
      · split <;> exact .inl rfl
  · exact .inl rfl

theorem mergeOneHop_lifeTime (h : 0 ≤ e.lifeTime) : 0 ≤ (mergeOneHop cfg sender tag e).lifeTime := by
  have hlife : (0 : ℤ) ≤ cfg.slotLife := Int.natCast_nonneg _
  unfold mergeOneHop
  split
  · split
    · split
      · split
        · exact hlife
        · split
          · exact hlife
          · exact h
      · exact h
    · exact h
    · exact hlife
    · exact h
  · split
    · split
      · split
        · split
          · exact hlife
          · exact hlife
        · exact h
      · exact h
    · split
      · exact le_refl 0
      · exact h

theorem mergeTwoHop_lifeTime (h : 0 ≤ e.lifeTime) : 0 ≤ (mergeTwoHop cfg sender tag e).lifeTime := by
  have hlife : (0 : ℤ) ≤ cfg.slotLife := Int.natCast_nonneg _
  unfold mergeTwoHop
  split
  · split
    · exact h
    · exact hlife
    · exact h
  · split
    · split
      · by_cases hsender : tag.sti = sender
        · simp only [hsender, if_true]
          split <;> exact hlife
        · simp only [hsender, if_false]
          split <;> exact hlife
      · exact h
    · split
      · exact le_refl 0
      · exact h

theorem mergeFree_lifeTime (h : 0 ≤ e.lifeTime) : 0 ≤ (mergeFree cfg sender tag e).lifeTime := by
  have hlife : (0 : ℤ) ≤ cfg.slotLife := Int.natCast_nonneg _
  unfold mergeFree
  split
  · split
    · exact hlife
    · exact h
    · exact hlife
    · exact h
  · exact h

theorem otherSlot_lifeTime (h : 0 ≤ e.lifeTime) : 0 ≤ (otherSlot cfg sender tag e).lifeTime := by
  unfold otherSlot
  split
  · exact h
  · split
    · exact mergeOneHop_lifeTime h
    · split
      · exact mergeTwoHop_lifeTime h
      · split
        · exact mergeFree_lifeTime h
        · exact h

theorem MergeEffect.named {g : ℕ} (h : MergeEffect g sender tag e e') (he : ∀ n, e.busy ≠ .other n)
    (n : ℕ) : e'.busy ≠ .other n := by
  cases h with
  | keep hs =>
    rw [hs.busy_eq]
    exact he n
  | contested _ hbusy _ _ _ => simp [hbusy]
  | heard _ hbusy _ _ _ => simp [hbusy]
  | taken _ _ _ hbusy _ _ _ => rcases hbusy with hb | hb <;> simp [hb]
  | released _ _ _ hbusy _ _ _ => simp [hbusy]

theorem InRange.ownSlot (h : InRange e) (newNeighbor : Bool) :
    InRange (ownSlot cfg sender tag newNeighbor e) := by
  refine ⟨(ownSlot_effect cfg sender tag newNeighbor e).named h.named, ?_⟩
  rcases @ownSlot_lifeTime cfg sender tag e newNeighbor with heq | heq
  · rw [heq]
    exact h.life
  · rw [heq]
    exact Int.natCast_nonneg _

theorem InRange.otherSlot (h : InRange e) : InRange (otherSlot cfg sender tag e) :=
  ⟨otherSlot_effect.named h.named, otherSlot_lifeTime h.life⟩

theorem SlotTag.tickLife_nonneg (h : 0 ≤ e.lifeTime) : 0 ≤ e.tickLife.lifeTime := by
  unfold SlotTag.tickLife
  split
  · show 0 ≤ e.lifeTime - 1
    omega
  · exact h

/-- Ageing: the shortened life of a station that is only heard of from others needs `SlotLife >= 1`. -/
theorem InRange.ageSlot (h : InRange e) (hlife : 1 ≤ cfg.slotLife) (slotNum candidate : ℤ) (i : ℕ) :
    InRange (ageSlot cfg slotNum candidate i e) := by
  have hticked : 0 ≤ e.dropLock.tickLife.lifeTime := by
    apply SlotTag.tickLife_nonneg
    rw [SlotTag.dropLock_lifeTime]
    exact h.life
  constructor
  · intro n
    have heffect := ageSlot_effect cfg slotNum candidate i e
    cases heffect with
    | keep hbusy _ _ _ =>
      rw [hbusy]
      exact h.named n
    | fade _ hbusy _ _ _ => simp [hbusy]
    | expired _ _ hbusy _ _ => simp [hbusy]
  · unfold VanetTdma.Ns3.ageSlot
    split
    · rw [SlotTag.dropLock_lifeTime]
      exact h.life
    · split
      · show 0 ≤ (endOfLife cfg e.dropLock.tickLife).lifeTime
        unfold endOfLife
        split
        · exact le_refl 0
        · split
          · show 0 ≤ (cfg.slotLife : ℤ) - 1
            omega
          · exact le_refl 0
      · exact hticked

theorem InRange.claim (h : InRange e) (cfg : Config) : InRange (e.claim cfg) :=
  ⟨fun n => by simp [SlotTag.claim], h.life⟩

theorem InRange.release (h : InRange e) (lock : Bool) : InRange (e.release lock) :=
  ⟨fun n => by simp [SlotTag.release], h.life⟩

theorem InRange.giveUp (h : InRange e) (cfg : Config) : InRange (e.giveUp cfg) := by
  unfold SlotTag.giveUp
  split
  · exact h.release true
  · exact h

end entry

/-! ### The table and the frame -/

/-- The entries of a node are in range, and none past its frame is recorded. -/
structure Ranged (s : Node) : Prop where
  entry : ∀ j, InRange (s.collectedFi j)
  tail : ∀ j, s.mFrameLen ≤ j → (s.collectedFi j).sti = 0

namespace Ranged

variable {cfg : Config} {s : Node}

theorem congr {s' : Node} (h : Ranged s) (htable : s'.collectedFi = s.collectedFi)
    (hlen : s'.mFrameLen = s.mFrameLen) : Ranged s' := by
  refine ⟨fun j => ?_, fun j hj => ?_⟩
  · rw [htable]
    exact h.entry j
  · rw [htable]
    exact h.tail j (hlen ▸ hj)

theorem claim (h : Ranged s) {i : ℤ} (hi : i < s.mFrameLen) :
    Ranged (s.edit i fun e => e.claim cfg) := by
  refine ⟨fun j => ?_, fun j hj => ?_⟩
  · rw [Node.edit_collectedFi]
    split
    · exact (h.entry j).claim cfg
    · exact h.entry j
  · rw [Node.edit_mFrameLen] at hj
    rw [Node.edit_collectedFi, if_neg (by omega)]
    exact h.tail j hj

theorem edit (h : Ranged s) (i : ℤ) {f : SlotTag → SlotTag} (hf : ∀ e, InRange e → InRange (f e))
    (hzero : ∀ e, e.sti = 0 → (f e).sti = 0) : Ranged (s.edit i f) := by
  refine ⟨fun j => ?_, fun j hj => ?_⟩
  · rw [Node.edit_collectedFi]
    split
    · exact hf _ (h.entry j)
    · exact h.entry j
  · rw [Node.edit_collectedFi]
    split
    · exact hzero _ (h.tail j hj)
    · exact h.tail j hj

theorem release (h : Ranged s) (i : ℤ) (lock : Bool) : Ranged (s.edit i fun e => e.release lock) :=
  h.edit i (fun _ he => he.release lock) fun _ _ => rfl

theorem giveUp (h : Ranged s) (i : ℤ) : Ranged (s.edit i fun e => e.giveUp cfg) := by
  refine h.edit i (fun _ he => he.giveUp cfg) fun e he => ?_
  unfold SlotTag.giveUp
  split
  · rfl
  · exact he

theorem sendFi (h : Ranged s) : Ranged (sendFi cfg s) := by
  refine ⟨fun j => ?_, fun j hj => ?_⟩
  · have hsame := sendFi_sameSlot cfg s j
    refine ⟨fun n => ?_, ?_⟩
    · rw [hsame.busy_eq]
      exact (h.entry j).named n
    · have hlife : ((VanetTdma.Ns3.sendFi cfg s).collectedFi j).lifeTime = (s.collectedFi j).lifeTime := by
        simp only [VanetTdma.Ns3.sendFi, forSlots, clearCounts]
        split
        · split <;> rfl
        · rfl
      rw [hlife]
      exact (h.entry j).life
  · rw [(sendFi_sameSlot cfg s j).sti_eq]
    exact h.tail j hj

theorem ageFrame (h : Ranged s) (hlife : 1 ≤ cfg.slotLife) : Ranged (ageFrame cfg s) := by
  obtain ⟨t, ht⟩ := @ageFrame_eq cfg s
  have hlen : (VanetTdma.Ns3.ageFrame cfg s).mFrameLen = s.mFrameLen := by rw [ht]
  refine ⟨fun j => ?_, fun j hj => ?_⟩
  · rcases @ageFrame_cases cfg s j with heq | ⟨-, -, -, heq⟩
    · rw [heq]
      exact h.entry j
    · rw [heq]
      exact (h.entry j).ageSlot hlife _ _ j
  · rw [hlen] at hj
    rcases @ageFrame_cases cfg s j with heq | ⟨-, -, hlt, -⟩
    · rw [heq]
      exact h.tail j hj
    · omega

end Ranged

/-! ### Merging -/

section merge

variable {cfg : Config} {s : Node} {fi : FrameInfo}

theorem foldl_restoreLen_frameLen {l : List ℕ} (hl : ∀ i ∈ l, i < fi.frameLen) :
    l.foldl (restoreLen cfg s fi) fi.frameLen = fi.frameLen := by
  induction l with
  | nil => rfl
  | cons i l ih =>
    have hi : i < fi.frameLen := hl i (List.mem_cons_self ..)
    have hkeep : restoreLen cfg s fi fi.frameLen i = fi.frameLen := by
      unfold restoreLen
      split
      · rfl
      · rfl
    rw [List.foldl_cons, hkeep]
    exact ih fun k hk => hl k (List.mem_cons_of_mem _ hk)

theorem foldl_restoreLen_cases (l : List ℕ) (m : ℕ) :
    l.foldl (restoreLen cfg s fi) m = m ∨ l.foldl (restoreLen cfg s fi) m = fi.frameLen := by
  induction l generalizing m with
  | nil => exact .inl rfl
  | cons i l ih =>
    rw [List.foldl_cons]
    unfold restoreLen
    split
    · rcases ih fi.frameLen with h | h
      · exact .inr h
      · exact .inr h
    · exact ih m

theorem mergeFi_mFrameLen_cases :
    (mergeFi cfg s fi).mFrameLen = s.mFrameLen ∨ (mergeFi cfg s fi).mFrameLen = fi.frameLen :=
  foldl_restoreLen_cases _ _

theorem foldl_restoreLen_of_restores {i n : ℕ} (hn : n ≤ fi.frameLen) (hi : i < n)
    (hm : s.mFrameLen ≤ i)
    (hrestores : restores cfg fi.sti (fi.slotDescribe i) (mergeOwn cfg s fi i) = true) :
    (List.range n).foldl (restoreLen cfg s fi) s.mFrameLen = fi.frameLen := by
  induction n with
  | zero => exact absurd hi (Nat.not_lt_zero i)
  | succ n ih =>
    rw [List.range_succ, List.foldl_append]
    rcases Nat.lt_succ_iff_lt_or_eq.mp hi with hlt | heq
    · rw [ih (by omega) hlt]
      exact foldl_restoreLen_frameLen fun k hk => by
        rw [List.mem_singleton] at hk
        omega
    · subst heq
      rw [List.foldl_cons, List.foldl_nil]
      rcases @foldl_restoreLen_cases cfg s fi (List.range i) s.mFrameLen with h | h
      · rw [h, restoreLen, if_pos ⟨hm, hrestores⟩]
      · rw [h]
        unfold restoreLen
        split <;> rfl

theorem mergeOwn_of_ge {j : ℕ} (h : s.mFrameLen ≤ j) : mergeOwn cfg s fi j = s.collectedFi j := by
  unfold mergeOwn
  exact sweep_of_ge (Nat.le_trans (Nat.min_le_left ..) h)

/-- **Merging an FI keeps the entries past the frame unrecorded.** -/
theorem mergeFi_tail (h : ∀ j, s.mFrameLen ≤ j → (s.collectedFi j).sti = 0) (j : ℕ)
    (hj : (mergeFi cfg s fi).mFrameLen ≤ j) : ((mergeFi cfg s fi).collectedFi j).sti = 0 := by
  have hold : s.mFrameLen ≤ j := Nat.le_trans mergeFi_mFrameLen hj
  have hzero : (mergeOwn cfg s fi j).sti = 0 := by
    rw [mergeOwn_of_ge hold]
    exact h j hold
  rcases Nat.lt_or_ge j fi.frameLen with hlt | hge
  · rw [mergeFi_of_lt hlt]
    by_contra hne
    cases hskip : skipped cfg (fi.slotDescribe j) (mergeOwn cfg s fi j) with
    | true =>
      rw [otherSlot_of_skipped hskip] at hne
      exact hne hzero
    | false =>
      have hlen : (mergeFi cfg s fi).mFrameLen = fi.frameLen :=
        foldl_restoreLen_of_restores (Nat.le_refl _) hlt hold
          (by simp only [restores, decide_eq_true_eq]; exact ⟨hskip, hne⟩)
      omega
  · rw [mergeFi_of_ge hge]
    exact hzero

theorem mergeOwn_inRange (h : ∀ j, InRange (s.collectedFi j)) (j : ℕ) :
    InRange (mergeOwn cfg s fi j) := by
  unfold mergeOwn
  rcases Nat.lt_or_ge j (min s.mFrameLen fi.frameLen) with hlt | hge
  · rw [sweep_of_lt hlt, sweep_of_ge (Nat.le_refl j)]
    exact (h j).ownSlot _
  · rw [sweep_of_ge hge]
    exact h j

theorem Ranged.mergeFi (h : Ranged s) : Ranged (mergeFi cfg s fi) := by
  refine ⟨fun j => ?_, mergeFi_tail h.tail⟩
  have hown := @mergeOwn_inRange cfg s fi h.entry j
  rcases Nat.lt_or_ge j fi.frameLen with hlt | hge
  · rw [mergeFi_of_lt hlt]
    exact hown.otherSlot
  · rw [mergeFi_of_ge hge]
    exact hown

theorem Ranged.foldl_mergeFi (h : Ranged s) (l : List FrameInfo) :
    Ranged (l.foldl (VanetTdma.Ns3.mergeFi cfg) s) := by
  induction l generalizing s with
  | nil => exact h
  | cons fi l ih => exact ih h.mergeFi

/-- `merge_fi` prints `Protocol ERROR`: its second loop comes to an entry past the frame, as long as it is
then, that is recorded. -/
def protocolError (cfg : Config) (s : Node) (fi : FrameInfo) : Bool :=
  (List.range fi.frameLen).any fun i =>
    (List.range i).foldl (restoreLen cfg s fi) s.mFrameLen ≤ i ∧ (mergeOwn cfg s fi i).sti ≠ 0

theorem Ranged.protocolError_eq_false (h : Ranged s) : protocolError cfg s fi = false := by
  simp only [protocolError, List.any_eq_false, List.mem_range, decide_eq_true_eq, not_and, not_not]
  intro i hi hlen
  have hm : s.mFrameLen ≤ i := by
    rcases @foldl_restoreLen_cases cfg s fi (List.range i) s.mFrameLen with h | h
    · exact h ▸ hlen
    · omega
  rw [mergeOwn_of_ge hm]
  exact h.tail i hm

end merge

/-! ### A tick -/

namespace Ranged

variable {cfg : Config} {s : Node}

theorem unlock (h : Ranged s) :
    Ranged { s with collectedFi := forSlots s.mFrameLen (fun _ => unlockSlot) s.collectedFi } := by
  refine ⟨fun j => ?_, fun j hj => ?_⟩
  · show InRange (forSlots s.mFrameLen (fun _ => unlockSlot) s.collectedFi j)
    refine forSlots_induction (P := fun _ e => InRange e) h.entry (fun _ e he => ?_) j
    rcases unlockSlot_cases e with heq | ⟨-, heq⟩
    · rw [heq]
      exact he
    · rw [heq]
      exact ⟨he.named, he.life⟩
  · show (forSlots s.mFrameLen (fun _ => unlockSlot) s.collectedFi j).sti = 0
    rw [forSlots_of_ge hj]
    exact h.tail j hj

theorem synthesizeFiList (h : Ranged s) (hlife : 1 ≤ cfg.slotLife) :
    Ranged (synthesizeFiList cfg s) := by
  have hmerged : Ranged (mergeList cfg (VanetTdma.Ns3.ageFrame cfg s)) :=
    (h.ageFrame hlife).foldl_mergeFi _
  unfold VanetTdma.Ns3.synthesizeFiList
  simp only
  split
  · exact hmerged.unlock
  · exact hmerged

theorem clearOthersSlotStatus (h : Ranged s) : Ranged (clearOthersSlotStatus cfg s) := by
  refine ⟨fun j => ?_, fun j hj => ?_⟩
  · simp only [VanetTdma.Ns3.clearOthersSlotStatus]
    refine forSlots_induction (P := fun _ e => InRange e) h.entry (fun _ e he => ?_) j
    split
    · exact ⟨fun n => by simp, he.life⟩
    · exact he
  · have hout : s.mFrameLen ≤ j := hj
    simp only [VanetTdma.Ns3.clearOthersSlotStatus, forSlots_of_ge hout]
    exact h.tail j hj

theorem blank (s : Node) : Ranged { s with collectedFi := Table.blank } :=
  ⟨fun _ => ⟨fun n => by simp [Table.blank], le_refl 0⟩, fun _ _ => rfl⟩

theorem refresh (h : Ranged s) (hlife : 1 ≤ cfg.slotLife) : Ranged (refresh cfg s) := by
  unfold VanetTdma.Ns3.refresh
  split
  · exact h.synthesizeFiList hlife
  · exact h.clearOthersSlotStatus.synthesizeFiList hlife

theorem listenTable (s : Node) (hlife : 1 ≤ cfg.slotLife) : Ranged (listenTable cfg s) :=
  (blank s).synthesizeFiList hlife

theorem mergeBase (h : Ranged s) (hlife : 1 ≤ cfg.slotLife) : Ranged (mergeBase cfg s) := by
  refine Ranged.ageFrame ?_ hlife
  unfold tickBase
  split
  · exact blank s
  · split
    · exact h
    · exact h.clearOthersSlotStatus

/-- The frame is halved over free entries, which record nobody. -/
theorem adjFrameLen (h : Ranged s) (hok : TableOk cfg s) : Ranged (adjFrameLen cfg s) := by
  obtain ⟨m, k, heq⟩ := adjFrameLen_eq cfg s
  have hlen := @adjFrameLen_mFrameLen cfg s
  rw [heq] at hlen ⊢
  refine ⟨h.entry, fun j hj => ?_⟩
  rcases hlen with hge | ⟨hhalf, -, hfree⟩
  · exact h.tail j (Nat.le_trans hge hj)
  · rcases Nat.lt_or_ge j s.mFrameLen with hlt | hge
    · exact (hok.entry j).zero_of_free (hfree j (hhalf ▸ hj) hlt)
    · exact h.tail j hge

theorem takeCandidate (h : Ranged s) {c : ℤ} (hc : c < s.mFrameLen) :
    Ranged (takeCandidate cfg s c) := by
  unfold VanetTdma.Ns3.takeCandidate
  split
  · exact h.congr rfl rfl
  · split
    · refine Ranged.claim (Ranged.release ?_ _ _) hc
      exact h.congr rfl rfl
    · refine Ranged.claim ?_ hc
      exact h.congr rfl rfl

theorem adjust {d : Draws} {x : Node} {cs : List ℤ} (h : Ranged s) (hok : TableOk cfg s)
    (hx : adjust cfg s d = some (x, cs)) : Ranged x := by
  rcases adjust_cases hx with ⟨-, c, hc, rfl, -⟩ | ⟨-, rfl, -⟩
  · exact h.takeCandidate (determineBch_lt hc)
  · exact h.adjFrameLen hok

theorem hop {d : Draws} {s' : Node} {cs : List ℤ} (h : Ranged s)
    (hx : hop cfg s d = some (s', cs)) : Ranged s' := by
  rcases hop_cases hx with ⟨-, c, hc, rfl, -⟩ | ⟨-, ⟨k, rfl⟩, -⟩
  · have hlt := determineBch_lt hc
    refine Ranged.claim (Ranged.release ?_ _ _) hlt
    exact h.congr rfl rfl
  · exact h.congr rfl rfl

theorem adjDecide (h : Ranged s) : Ranged (adjDecide cfg s) := by
  unfold VanetTdma.Ns3.adjDecide
  split
  · refine Ranged.release ?_ _ _
    exact h.congr rfl rfl
  · refine Ranged.release ?_ _ _
    exact h.congr rfl rfl

theorem losing {x : Node} (h : Ranged s) (hlife : 1 ≤ cfg.slotLife) (hx : Losing cfg s x) :
    Ranged x := by
  cases hx with
  | bch _ _ => exact (h.refresh hlife).giveUp _
  | both _ _ _ => exact (h.refresh hlife).giveUp _

theorem ownTick {d : Draws} {s' : Node} {out : TickOut} (h : Ranged s) (hlife : 1 ≤ cfg.slotLife)
    (hok : TableOk cfg s) (hlt : s.slotCount < s.mFrameLen) (ht : OwnTick cfg s d s' out) :
    Ranged s' := by
  have hlisten : Ranged (VanetTdma.Ns3.listenTable cfg s) := listenTable s hlife
  have hrefresh := h.refresh hlife
  cases ht with
  | begin _ => exact h.congr rfl rfl
  | wait _ _ => exact h.congr rfl rfl
  | listenFull _ _ _ _ => exact hlisten.congr rfl rfl
  | listenNow _ _ hc hnow hx =>
    subst hx hnow
    have hlt := determineBch_lt hc
    refine (Ranged.sendFi (Ranged.claim ?_ hlt)).congr rfl rfl
    exact hlisten.congr rfl rfl
  | listenLater _ _ _ _ => exact hlisten.congr rfl rfl
  | request _ _ hx =>
    subst hx
    have hin : ((VanetTdma.Ns3.refresh cfg s).slotCount : ℤ)
        < (VanetTdma.Ns3.refresh cfg s).mFrameLen := by
      have := le_refresh_mFrameLen cfg s
      rw [refresh_slotCount]
      omega
    exact (Ranged.sendFi (hrefresh.claim hin)).congr rfl rfl
  | work _ _ hx =>
    subst hx
    refine Ranged.sendFi ?_
    exact hrefresh.congr rfl rfl
  | lostFull hx _ => exact (h.losing hlife hx).congr rfl rfl
  | lostLater hx _ _ => exact (h.losing hlife hx).congr rfl rfl
  | worked _ _ hadjust hhop => exact (hrefresh.adjust hok.refresh hadjust).sendFi.hop hhop
  | adjDecided _ _ => exact hrefresh.adjDecide.sendFi
  | adjMoved _ _ _ => exact hrefresh.congr rfl rfl

end Ranged

/-! ### Runs -/

/-- What the maintenance of the table relies on. -/
structure WellFormed (s : Node) : Prop where
  named : ∀ j n, (s.collectedFi j).busy ≠ .other n
  free_iff : ∀ j, (s.collectedFi j).busy = .free ↔ (s.collectedFi j).sti = 0
  life : ∀ j, 0 ≤ (s.collectedFi j).lifeTime
  tail : ∀ j, s.mFrameLen ≤ j → (s.collectedFi j).sti = 0

theorem Ranged.wellFormed {cfg : Config} {s : Node} (h : Ranged s) (hok : TableOk cfg s)
    (hsti : cfg.globalSti ≠ 0) : WellFormed s where
  named := fun j => (h.entry j).named
  free_iff := fun j => ⟨(hok.entry j).zero_of_free, fun hz =>
    (hok.entry j).free_of_zero (fun hg => hsti (hg.symm.trans hz)) hz⟩
  life := fun j => (h.entry j).life
  tail := h.tail

/-- The steps in which a lone node that changes its slot finds one: the result -1 would be used as an
index. -/
def HopFinds (cfg : Config) (s : Node) : Event → Prop
  | .recv _ => True
  | .tick d =>
    s.nodeState = .workFi → ∀ x cs, adjust cfg (refresh cfg (beginSlot s)) d = some (x, cs) →
      hops cfg (sendFi cfg x) = true → determineBch cfg (sendFi cfg x) false d.hop ≠ some (-1)

/-- The node as the call of `merge_fi` for the FI number `k` finds it, in a tick that merges. -/
def mergeState (cfg : Config) (s : Node) (k : ℕ) : Node :=
  (s.receivedFiList.take k).foldl (mergeFi cfg) (mergeBase cfg s)

/-- What an own tick keeps. -/
structure RangeInv (cfg : Config) (s : Node) : Prop where
  ok : TableOk cfg s
  frame : FrameOk s
  ranged : Ranged s

theorem run_rangeInv {cfg : Config} {ok : Node → Event → Prop} {u : Uninit} {s : Node}
    (hlife : 1 ≤ cfg.slotLife) (h : RunWhere cfg ok u s) : RangeInv cfg s := by
  refine ⟨run_tableOk h, run_frameOk h, ?_⟩
  have hinv : RangeInv cfg s := by
    refine RunWhere.invariant h ?_ ?_ ?_ ?_
    · have hstart : RunWhere cfg ok u (start cfg u) := Reach.refl
      exact ⟨run_tableOk hstart, run_frameOk hstart, Ranged.blank (start cfg u)⟩
    · exact fun _ buffer hs => ⟨hs.ok.recvFi buffer, ⟨hs.frame.pos, hs.frame.candidate⟩,
        hs.ranged.congr rfl rfl⟩
    · exact fun _ hs => ⟨hs.ok.beginSlot, ⟨hs.frame.pos, hs.frame.candidate⟩, hs.ranged.congr rfl rfl⟩
    · intro s d s' out hs _ _ ht
      exact ⟨hs.ok.ownTick ht, frameOk_ownTick hs.frame ht,
        hs.ranged.ownTick hlife hs.ok (Nat.mod_lt _ hs.frame.pos) ht⟩
  exact hinv.ranged

/-- **The table invariant**: after every event of a run, and before every call of `merge_fi` in the tick
that follows, the table is well formed, and no call prints `Protocol ERROR`. -/
theorem run_wellFormed (cfg : Config) (u : Uninit) (s : Node) (hsti : cfg.globalSti ≠ 0)
    (hlife : 1 ≤ cfg.slotLife) (h : RunWhere cfg (HopFinds cfg) u s) :
    WellFormed s ∧ ∀ (k : ℕ) (fi : FrameInfo), (beginSlot s).receivedFiList[k]? = some fi →
      WellFormed (mergeState cfg (beginSlot s) k) ∧
        protocolError cfg (mergeState cfg (beginSlot s) k) fi = false := by
  have hinv := run_rangeInv hlife h
  refine ⟨hinv.ranged.wellFormed hinv.ok hsti, fun k fi _ => ?_⟩
  have hbegin : Ranged (beginSlot s) := hinv.ranged.congr rfl rfl
  have hranged : Ranged (mergeState cfg (beginSlot s) k) :=
    (hbegin.mergeBase hlife).foldl_mergeFi _
  have hok : TableOk cfg (mergeState cfg (beginSlot s) k) :=
    foldl_mergeFi_tableOk hinv.ok.beginSlot.mergeBase
  exact ⟨hranged.wellFormed hok hsti, hranged.protocolError_eq_false⟩

/-- A node that has heard an FI of station 2 and merges it in the next tick. -/
theorem run_wellFormed_heard :
    ∃ s, RunWhere pairCfg (HopFinds pairCfg) ⟨0, 0, false, 0⟩ s ∧
      (beginSlot s).receivedFiList.length = 1 ∧ WellFormed s ∧
      ∀ (k : ℕ) (fi : FrameInfo), (beginSlot s).receivedFiList[k]? = some fi →
        WellFormed (mergeState pairCfg (beginSlot s) k) ∧
          protocolError pairCfg (mergeState pairCfg (beginSlot s) k) fi = false := by
  have hobs : (runList (step pairCfg) (fun _ _ => true) (start pairCfg ⟨0, 0, false, 0⟩)
      [.tick {}, .tick {}, .recv (fiHeader 2 2 (Table.single 0 .oneHop 2)).buffer]).map
      (fun s => (beginSlot s).receivedFiList.length) = some 1 := by decide +kernel
  obtain ⟨s, hs, hlen⟩ := Option.map_eq_some_iff.mp hobs
  have hrun : RunWhere pairCfg (HopFinds pairCfg) ⟨0, 0, false, 0⟩ s := by
    refine reach_of_runList (fun s i _ => ?_) hs
    cases i with
    | recv buffer => trivial
    | tick d =>
      intro _ x cs _ hhops
      simp [hops, pairCfg] at hhops
  exact ⟨s, hrun, hlen, run_wellFormed pairCfg _ s (by decide) (by decide) hrun⟩

end VanetTdma.Ns3
