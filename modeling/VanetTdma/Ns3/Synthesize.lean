import VanetTdma.Ns3.MergeFi

/-!
# One round of table maintenance (`synthesize_fi_list`)

With `SlotMemory` the entries of the frame first age by one (`ageSlot`), then the FIs received since are
merged in the order of their arrival, then the slots that were locked in the last frame are unlocked.
`clearOthersSlotStatus` is what takes the place of ageing without `SlotMemory`.

`synthesizeFiList_entry` is the rule for one entry: what ageing, the tags of the received FIs and unlocking
keep, the whole round keeps.  `synthesizeFiList_eq` says that nothing but the table and the frame length
changes.
-/

namespace VanetTdma.Ns3

open VanetTdma.SlotLoop

/-! ### Ageing -/

/-- The entry after its reservation ended. -/
def SlotTag.expire (e : SlotTag) (lock : Bool) : SlotTag :=
  { e with
    busy := .free
    sti := 0
    count2hop := 0
    count3hop := 0
    psf := 0
    c3hopFlag := false
    lifeTime := 0
    locker := lock }

/-- An entry whose life time is over. -/
def endOfLife (cfg : Config) (e : SlotTag) : SlotTag :=
  if e.busy = .twoHop then e.expire false
  else if e.busy = .oneHop ∧ e.existed = true then
    { e with busy := .twoHop, lifeTime := (cfg.slotLife : ℤ) - 1, locker := false }
  else e.expire true

/-- A slot in use by the node itself does not age, nor does one that is not recorded. -/
def ageless (cfg : Config) (slotNum candidate : ℤ) (i : ℕ) (e : SlotTag) : Bool :=
  (e.sti = cfg.globalSti ∧ ((i : ℤ) = slotNum ∨ (i : ℤ) = candidate)) ∨ e.sti = 0

/-- The life time after one frame. -/
def SlotTag.tickLife (e : SlotTag) : SlotTag :=
  if 0 < e.lifeTime then { e with lifeTime := e.lifeTime - 1 } else e

/-- A lock on a recorded slot dates from the last frame and is dropped. -/
def SlotTag.dropLock (e : SlotTag) : SlotTag :=
  if e.locker = true ∧ e.sti ≠ 0 then { e with locker := false } else e

/-- The body of the first loop of `synthesize_fi_list`.  Its last `else if` repeats the test
`life_time == 0` that the branch before it has already taken. -/
def ageSlot (cfg : Config) (slotNum candidate : ℤ) (i : ℕ) (e : SlotTag) : SlotTag :=
  if ageless cfg slotNum candidate i e.dropLock then e.dropLock
  else if e.dropLock.tickLife.lifeTime = 0 then
    { endOfLife cfg e.dropLock.tickLife with existed := false }
  else { e.dropLock.tickLife with existed := false }

/-! ### `synthesize_fi_list` -/

/-- The condition on the first loop. -/
def agesFrame (cfg : Config) (s : Node) : Bool := s.nodeState ≠ .listen ∧ cfg.slotMemory = true

/-- `unlock_flag`: some slot of the frame is locked and not recorded. -/
def unlockFlag (cfg : Config) (s : Node) : Bool :=
  agesFrame cfg s ∧ (List.range s.mFrameLen).any fun i =>
    (s.collectedFi i).locker ∧ (s.collectedFi i).sti = 0

/-- The node after the first loop. -/
def ageFrame (cfg : Config) (s : Node) : Node :=
  if agesFrame cfg s then
    { s with
      collectedFi := forSlots s.mFrameLen (ageSlot cfg s.slotNum s.slotAdjCandidate) s.collectedFi }
  else s

/-- The node after the loop over the received FIs. -/
def mergeList (cfg : Config) (s : Node) : Node := s.receivedFiList.foldl (mergeFi cfg) s

/-- The body of the last loop. -/
def unlockSlot (e : SlotTag) : SlotTag :=
  if e.locker = true ∧ e.sti = 0 then { e with locker := false } else e

/-- `synthesize_fi_list`. -/
def synthesizeFiList (cfg : Config) (s : Node) : Node :=
  let merged := mergeList cfg (ageFrame cfg s)
  if unlockFlag cfg s then
    { merged with collectedFi := forSlots merged.mFrameLen (fun _ => unlockSlot) merged.collectedFi }
  else merged

/-- `clear_others_slot_status`. -/
def clearOthersSlotStatus (cfg : Config) (s : Node) : Node :=
  { s with
    collectedFi := forSlots s.mFrameLen
      (fun _ e =>
        if e.sti ≠ cfg.globalSti then
          { e with
            busy := .free
            sti := 0
            count2hop := 0
            count3hop := 0
            psf := 0
            locker := false }
        else e)
      s.collectedFi }

/-! ### What ageing can do to an entry -/

/-- The effects of ageing on the reservation in an entry. -/
inductive AgeEffect (g : ℕ) (e e' : SlotTag) : Prop
  | keep (hbusy : e'.busy = e.busy) (hsti : e'.sti = e.sti) (hpsf : e'.psf = e.psf)
      (hlocker : e'.locker = true → e.locker = true ∧ e.sti = 0)
  | fade (hone : e.busy = .oneHop) (hbusy : e'.busy = .twoHop) (hsti : e'.sti = e.sti)
      (hpsf : e'.psf = e.psf) (hlocker : e'.locker = false)
  | expired (hzero : e.sti ≠ 0) (hlife : e.lifeTime = 0 ∨ e.lifeTime = 1) (hbusy : e'.busy = .free)
      (hsti : e'.sti = 0) (hpsf : e'.psf = 0)

@[simp] theorem SlotTag.dropLock_busy (e : SlotTag) : e.dropLock.busy = e.busy := by
  unfold SlotTag.dropLock; split <;> rfl

@[simp] theorem SlotTag.dropLock_sti (e : SlotTag) : e.dropLock.sti = e.sti := by
  unfold SlotTag.dropLock; split <;> rfl

@[simp] theorem SlotTag.dropLock_psf (e : SlotTag) : e.dropLock.psf = e.psf := by
  unfold SlotTag.dropLock; split <;> rfl

@[simp] theorem SlotTag.dropLock_lifeTime (e : SlotTag) : e.dropLock.lifeTime = e.lifeTime := by
  unfold SlotTag.dropLock; split <;> rfl

theorem SlotTag.dropLock_locker {e : SlotTag} (h : e.dropLock.locker = true) :
    e.locker = true ∧ e.sti = 0 := by
  unfold SlotTag.dropLock at h
  split at h
  · simp at h
  · rename_i hcond
    exact ⟨h, by by_contra hne; exact hcond ⟨h, hne⟩⟩

@[simp] theorem SlotTag.tickLife_busy (e : SlotTag) : e.tickLife.busy = e.busy := by
  unfold SlotTag.tickLife; split <;> rfl

@[simp] theorem SlotTag.tickLife_sti (e : SlotTag) : e.tickLife.sti = e.sti := by
  unfold SlotTag.tickLife; split <;> rfl

@[simp] theorem SlotTag.tickLife_psf (e : SlotTag) : e.tickLife.psf = e.psf := by
  unfold SlotTag.tickLife; split <;> rfl

@[simp] theorem SlotTag.tickLife_locker (e : SlotTag) : e.tickLife.locker = e.locker := by
  unfold SlotTag.tickLife; split <;> rfl

theorem SlotTag.tickLife_eq_zero {e : SlotTag} (h : e.tickLife.lifeTime = 0) :
    e.lifeTime = 0 ∨ e.lifeTime = 1 := by
  unfold SlotTag.tickLife at h
  split at h
  · exact .inr (by simp only at h; omega)
  · exact .inl h

theorem ageSlot_effect (cfg : Config) (slotNum candidate : ℤ) (i : ℕ) (e : SlotTag) :
    AgeEffect cfg.globalSti e (ageSlot cfg slotNum candidate i e) := by
  unfold ageSlot
  split
  · exact .keep (by simp) (by simp) (by simp) SlotTag.dropLock_locker
  · rename_i hage
    have hzero : e.sti ≠ 0 := by
      intro h
      simp [ageless, h] at hage
    split
    · rename_i hlife
      have hlife' := SlotTag.tickLife_eq_zero hlife
      rw [SlotTag.dropLock_lifeTime] at hlife'
      unfold endOfLife
      split
      · exact .expired hzero hlife' rfl rfl rfl
      · split
        · rename_i hone
          exact .fade (by simpa using hone.1) rfl (by simp) (by simp) rfl
        · exact .expired hzero hlife' rfl rfl rfl
    · exact .keep (by simp) (by simp) (by simp) fun h => SlotTag.dropLock_locker (by simpa using h)

/-! ### What a round can do -/

section synthesize

variable {cfg : Config} {s : Node} {j : ℕ}

theorem ageFrame_eq : ∃ t, ageFrame cfg s = { s with collectedFi := t } := by
  unfold ageFrame
  split
  · exact ⟨_, rfl⟩
  · exact ⟨s.collectedFi, rfl⟩

theorem ageFrame_cases :
    (ageFrame cfg s).collectedFi j = s.collectedFi j ∨
      (cfg.slotMemory = true ∧ s.nodeState ≠ .listen ∧ j < s.mFrameLen ∧
        (ageFrame cfg s).collectedFi j
          = ageSlot cfg s.slotNum s.slotAdjCandidate j (s.collectedFi j)) := by
  unfold ageFrame
  split
  · rename_i hages
    simp only [agesFrame, decide_eq_true_eq] at hages
    rcases Nat.lt_or_ge j s.mFrameLen with hlt | hge
    · exact .inr ⟨hages.2, hages.1, hlt, forSlots_of_lt hlt⟩
    · exact .inl (forSlots_of_ge hge)
  · exact .inl rfl

theorem foldl_mergeFi_eq (l : List FrameInfo) (s : Node) :
    ∃ t m, s.mFrameLen ≤ m ∧
      l.foldl (mergeFi cfg) s = { s with collectedFi := t, mFrameLen := m } := by
  induction l generalizing s with
  | nil => exact ⟨s.collectedFi, s.mFrameLen, Nat.le_refl _, rfl⟩
  | cons fi l ih =>
    obtain ⟨t, m, hm, heq⟩ := ih (mergeFi cfg s fi)
    exact ⟨t, m, Nat.le_trans mergeFi_mFrameLen hm, heq⟩

theorem foldl_mergeFi_entry {P : SlotTag → Prop} (l : List FrameInfo) (s : Node)
    (hmerge : ∀ fi ∈ l, ∀ e e',
      MergeEffect cfg.globalSti fi.sti (fi.slotDescribe j) e e' → P e → P e')
    (h : P (s.collectedFi j)) : P ((l.foldl (mergeFi cfg) s).collectedFi j) := by
  induction l generalizing s with
  | nil => exact h
  | cons fi l ih =>
    refine ih _ (fun fi' hfi' => hmerge fi' (List.mem_cons_of_mem _ hfi')) ?_
    exact mergeFi_invariant (hmerge fi (List.mem_cons_self ..)) h

theorem unlockSlot_cases (e : SlotTag) :
    unlockSlot e = e ∨ (e.sti = 0 ∧ unlockSlot e = { e with locker := false }) := by
  unfold unlockSlot
  split
  · rename_i h
    exact .inr ⟨h.2, rfl⟩
  · exact .inl rfl

theorem synthesizeFiList_cases :
    (synthesizeFiList cfg s).collectedFi j = (mergeList cfg (ageFrame cfg s)).collectedFi j ∨
      (synthesizeFiList cfg s).collectedFi j
        = unlockSlot ((mergeList cfg (ageFrame cfg s)).collectedFi j) := by
  unfold synthesizeFiList
  simp only
  split
  · rcases Nat.lt_or_ge j (mergeList cfg (ageFrame cfg s)).mFrameLen with hlt | hge
    · exact .inr (by simp only [forSlots_of_lt hlt])
    · exact .inl (by simp only [forSlots_of_ge hge])
  · exact .inl rfl

/-- **Nothing but the table and the frame length changes in a round, and the frame does not shrink.** -/
theorem synthesizeFiList_eq :
    ∃ t m, s.mFrameLen ≤ m ∧ synthesizeFiList cfg s = { s with collectedFi := t, mFrameLen := m } := by
  obtain ⟨t₁, h₁⟩ := @ageFrame_eq cfg s
  obtain ⟨t₂, m, hm, h₂⟩ := @foldl_mergeFi_eq cfg s.receivedFiList { s with collectedFi := t₁ }
  have hmerged : mergeList cfg (ageFrame cfg s) = { s with collectedFi := t₂, mFrameLen := m } := by
    rw [mergeList, h₁]
    exact h₂
  unfold synthesizeFiList
  simp only [hmerged]
  split
  · exact ⟨_, m, hm, rfl⟩
  · exact ⟨t₂, m, hm, rfl⟩

/-- **The rule for one entry in a round.** -/
theorem synthesizeFiList_entry {P : SlotTag → Prop}
    (hage : ∀ e', AgeEffect cfg.globalSti (s.collectedFi j) e' → P e')
    (hkeep : P (s.collectedFi j))
    (hmerge : ∀ fi ∈ s.receivedFiList, ∀ e e',
      MergeEffect cfg.globalSti fi.sti (fi.slotDescribe j) e e' → P e → P e')
    (hunlock : ∀ e, P e → P { e with locker := false }) :
    P ((synthesizeFiList cfg s).collectedFi j) := by
  have haged : P ((ageFrame cfg s).collectedFi j) := by
    rcases @ageFrame_cases cfg s j with h | ⟨-, -, -, h⟩
    · rw [h]
      exact hkeep
    · rw [h]
      exact hage _ (ageSlot_effect ..)
  have hmerged : P ((mergeList cfg (ageFrame cfg s)).collectedFi j) := by
    refine foldl_mergeFi_entry _ _ ?_ haged
    obtain ⟨t, ht⟩ := @ageFrame_eq cfg s
    rw [ht]
    exact hmerge
  rcases @synthesizeFiList_cases cfg s j with h | h
  · rw [h]
    exact hmerged
  · rw [h]
    rcases unlockSlot_cases ((mergeList cfg (ageFrame cfg s)).collectedFi j) with h' | ⟨-, h'⟩
    · rw [h']
      exact hmerged
    · rw [h']
      exact hunlock _ hmerged

/-- `clear_others_slot_status` keeps the node's own entries and empties the others of the frame. -/
theorem clearOthersSlotStatus_cases :
    (clearOthersSlotStatus cfg s).collectedFi j = s.collectedFi j ∨
      ((s.collectedFi j).sti ≠ cfg.globalSti ∧
        ((clearOthersSlotStatus cfg s).collectedFi j).busy = .free ∧
        ((clearOthersSlotStatus cfg s).collectedFi j).sti = 0 ∧
        ((clearOthersSlotStatus cfg s).collectedFi j).psf = 0) := by
  simp only [clearOthersSlotStatus]
  rcases Nat.lt_or_ge j s.mFrameLen with hlt | hge
  · rw [forSlots_of_lt hlt]
    split
    · rename_i hne
      exact .inr ⟨hne, rfl, rfl, rfl⟩
    · exact .inl rfl
  · exact .inl (forSlots_of_ge hge)

end synthesize

end VanetTdma.Ns3
