import VanetTdma.Ns3.Node

/-!
# Merging a received FI into the table (`merge_fi`)

`merge_fi` runs over the frame twice: the first loop looks at the slots recorded for the node itself
(`ownSlot`), the second at the others (`otherSlot`), which may also restore a longer frame.  A tag whose
`busy` byte is none of the four constants falls through every `switch`.

What one loop step can do to the reservation in an entry is said once, by `MergeEffect`: keep it, mark it
contested, hear a two-hop occupier directly, hand it to another station, or release it.  Every later
invariant is a case analysis on `MergeEffect`, through `mergeFi_effects`.
-/

namespace VanetTdma.Ns3

open VanetTdma.SlotLoop

/-! ### The loop bodies -/

/-- The entry handed to the station of a tag. -/
def SlotTag.handTo (e : SlotTag) (cfg : Config) (tag : SlotTag) (b : Busy) (count2hop count3hop : ℕ) :
    SlotTag :=
  { e with
    lifeTime := cfg.slotLife
    sti := tag.sti
    count2hop := count2hop
    count3hop := count3hop
    busy := b }

/-- The entry after its occupier reported the slot empty. -/
def SlotTag.vacate (e : SlotTag) : SlotTag :=
  { e with lifeTime := 0, sti := 0, count2hop := 0, count3hop := 0, busy := .free, locker := true }

/-- The code of a slot reported as occupied: one hop if the occupier itself sent the FI. -/
def hopCode (sender : ℕ) (tag : SlotTag) : Busy := if tag.sti = sender then .oneHop else .twoHop

theorem hopCode_cases (sender : ℕ) (tag : SlotTag) :
    hopCode sender tag = .oneHop ∨ hopCode sender tag = .twoHop := by
  unfold hopCode
  split
  · exact .inl rfl
  · exact .inr rfl

/-- The body of the first loop of `merge_fi`, for a tag sent by `sender`. -/
def ownSlot (cfg : Config) (sender : ℕ) (tag : SlotTag) (newNeighbor : Bool) (e : SlotTag) : SlotTag :=
  if e.sti = cfg.globalSti then
    if e.sti ≠ tag.sti ∧ tag.sti ≠ 0 then
      match tag.busy with
      | .oneHop =>
        if e.psf < tag.psf then
          e.handTo cfg tag (hopCode sender tag) (e.count2hop + 1)
            (e.count3hop + tag.count2hop)
        else if tag.psf = e.psf then { e with busy := .collision }
        else e
      | .twoHop => { e with count3hop := e.count3hop + tag.count2hop }
      | .free => { e with busy := .collision } -- a hidden station
      | .collision => e.handTo cfg tag .twoHop 1 1
      | .other _ => e
    else if e.sti = tag.sti then
      match tag.busy with
      | .free => { e with busy := .collision } -- a hidden station
      | _ => e
    else if tag.busy = .free ∧ newNeighbor = false then { e with busy := .collision }
    else e
  else e

/-- Second loop, slot of a direct neighbour. -/
def mergeOneHop (cfg : Config) (sender : ℕ) (tag e : SlotTag) : SlotTag :=
  if e.sti ≠ tag.sti ∧ tag.sti ≠ 0 then
    match tag.busy with
    | .oneHop =>
      if tag.sti = sender then
        if e.psf < tag.psf then
          e.handTo cfg tag .oneHop (e.count2hop + 1) (e.count3hop + tag.count2hop)
        else if tag.psf = e.psf then { e with lifeTime := cfg.slotLife, busy := .collision }
        else e
      else { e with count2hop := e.count2hop + 1, count3hop := e.count3hop + tag.count2hop }
    | .twoHop => { e with count3hop := e.count3hop + tag.count2hop }
    | .collision => e.handTo cfg tag .twoHop 1 1
    | _ => e
  else if e.sti = tag.sti then
    match tag.busy with
    | .oneHop =>
      if tag.sti = sender then
        if e.c3hopFlag = false then
          { e with
            lifeTime := cfg.slotLife
            count2hop := e.count2hop + 1
            count3hop := e.count3hop + tag.count2hop
            c3hopFlag := true }
        else { e with lifeTime := cfg.slotLife }
      else { e with existed := true }
    | _ => e
  else if sender = e.sti then e.vacate
  else e

/-- Second loop, slot of a two-hop neighbour. -/
def mergeTwoHop (cfg : Config) (sender : ℕ) (tag e : SlotTag) : SlotTag :=
  if e.sti ≠ tag.sti ∧ tag.sti ≠ 0 then
    match tag.busy with
    | .oneHop => { e with count2hop := e.count2hop + 1, count3hop := e.count3hop + tag.count2hop }
    | .collision => e.handTo cfg tag .twoHop 1 1
    | _ => e
  else if e.sti = tag.sti then
    match tag.busy with
    | .oneHop =>
      let e := if tag.sti = sender then { e with busy := .oneHop } else e
      let e := { e with lifeTime := cfg.slotLife }
      if e.c3hopFlag = false then
        { e with
          c3hopFlag := true
          count2hop := e.count2hop + 1
          count3hop := e.count3hop + tag.count2hop }
      else e
    | _ => e
  else if sender = e.sti then e.vacate
  else e

/-- Second loop, free slot. -/
def mergeFree (cfg : Config) (sender : ℕ) (tag e : SlotTag) : SlotTag :=
  if e.sti ≠ tag.sti then
    match tag.busy with
    | .oneHop =>
      { e.handTo cfg tag (hopCode sender tag) 1 tag.count2hop with
        c3hopFlag := true }
    | .twoHop => { e with count3hop := e.count3hop + tag.count2hop }
    | .collision => e.handTo cfg tag .twoHop 1 1
    | _ => e
  else e

/-- The `continue` tests of the second loop. -/
def skipped (cfg : Config) (tag e : SlotTag) : Bool :=
  e.locker ∨ e.sti = cfg.globalSti ∨ tag.sti = cfg.globalSti

/-- The body of the second loop of `merge_fi`. -/
def otherSlot (cfg : Config) (sender : ℕ) (tag e : SlotTag) : SlotTag :=
  if skipped cfg tag e then e
  else if e.busy = .oneHop then mergeOneHop cfg sender tag e
  else if e.busy = .twoHop then mergeTwoHop cfg sender tag e
  else if e.busy = .free ∧ e.sti = 0 then mergeFree cfg sender tag e
  else e

/-! ### `merge_fi` -/

/-- The table after the first loop.  `isNewNeighbor` reads the table as the loop has left it so far. -/
def mergeOwn (cfg : Config) (s : Node) (fi : FrameInfo) : Table :=
  sweep (fun i t => ownSlot cfg fi.sti (fi.slotDescribe i) (isNewNeighbor t s.mFrameLen fi.sti) (t i))
    (min s.mFrameLen fi.frameLen) s.collectedFi

/-- The test at the end of the second loop's body: an entry past the frame that is recorded now. -/
def restores (cfg : Config) (sender : ℕ) (tag e : SlotTag) : Bool :=
  skipped cfg tag e = false ∧ (otherSlot cfg sender tag e).sti ≠ 0

/-- The frame length after the second loop has passed slot `i`. -/
def restoreLen (cfg : Config) (s : Node) (fi : FrameInfo) (m i : ℕ) : ℕ :=
  if m ≤ i ∧ restores cfg fi.sti (fi.slotDescribe i) (mergeOwn cfg s fi i) then fi.frameLen else m

/-- `merge_fi`. -/
def mergeFi (cfg : Config) (s : Node) (fi : FrameInfo) : Node :=
  { s with
    collectedFi :=
      forSlots fi.frameLen (fun i e => otherSlot cfg fi.sti (fi.slotDescribe i) e) (mergeOwn cfg s fi)
    mFrameLen := (List.range fi.frameLen).foldl (restoreLen cfg s fi) s.mFrameLen }

/-! ### What a tag can do to an entry -/

/-- Two entries that record the same reservation: only life time, counts and marks may differ. -/
structure SameSlot (e e' : SlotTag) : Prop where
  busy_eq : e'.busy = e.busy
  sti_eq : e'.sti = e.sti
  locker_eq : e'.locker = e.locker
  psf_eq : e'.psf = e.psf

/-- The effects of one loop step of `merge_fi` on the reservation in an entry `e`. -/
inductive MergeEffect (g sender : ℕ) (tag e e' : SlotTag) : Prop
  | keep (h : SameSlot e e')
  | contested (hown : e.sti = g ∨ e.busy = .oneHop) (hbusy : e'.busy = .collision)
      (hsti : e'.sti = e.sti) (hlocker : e'.locker = e.locker) (hpsf : e'.psf = e.psf)
  | heard (htwo : e.busy = .twoHop) (hbusy : e'.busy = .oneHop) (hsti : e'.sti = e.sti)
      (hlocker : e'.locker = e.locker) (hpsf : e'.psf = e.psf)
  | taken (hzero : tag.sti ≠ 0) (hother : tag.sti ≠ g)
      (hhow : tag.busy = .collision ∨ e.psf < tag.psf ∨ (e.busy = .free ∧ e.sti = 0))
      (hbusy : e'.busy = .oneHop ∨ e'.busy = .twoHop) (hsti : e'.sti = tag.sti)
      (hlocker : e'.locker = e.locker) (hpsf : e'.psf = e.psf)
  | released (hsender : e.sti = sender) (hzero : tag.sti = 0) (hother : e.sti ≠ g)
      (hbusy : e'.busy = .free) (hsti : e'.sti = 0) (hlocker : e'.locker = true)
      (hpsf : e'.psf = e.psf)

theorem MergeEffect.refl (g sender : ℕ) (tag e : SlotTag) : MergeEffect g sender tag e e :=
  .keep ⟨rfl, rfl, rfl, rfl⟩

/-- Merging does not make a slot the node's own, unless a station 0 takes a release for a claim. -/
theorem MergeEffect.sti_ne {g sender : ℕ} {tag e e' : SlotTag} (h : MergeEffect g sender tag e e')
    (he : e.sti ≠ g) (hzero : tag.sti = 0 → g ≠ 0) : e'.sti ≠ g := by
  cases h with
  | keep hs => exact hs.sti_eq ▸ he
  | contested _ _ hsti _ _ => exact hsti ▸ he
  | heard _ _ hsti _ _ => exact hsti ▸ he
  | taken _ hother _ _ hsti _ _ => exact hsti ▸ hother
  | released _ h0 _ _ hsti _ _ => exact hsti ▸ (hzero h0).symm

theorem ownSlot_effect (cfg : Config) (sender : ℕ) (tag : SlotTag) (newNeighbor : Bool)
    (e : SlotTag) :
    MergeEffect cfg.globalSti sender tag e (ownSlot cfg sender tag newNeighbor e) := by
  unfold ownSlot
  split
  · rename_i hown
    split
    · rename_i hne
      have hother : tag.sti ≠ cfg.globalSti := fun h => hne.1 (hown.trans h.symm)
      split
      · rename_i hbusy
        split
        · rename_i hpsf
          exact .taken hne.2 hother (.inr (.inl hpsf)) (hopCode_cases sender tag) rfl rfl rfl
        · split
          · exact .contested (.inl hown) rfl rfl rfl rfl
          · exact .refl ..
      · exact .keep ⟨rfl, rfl, rfl, rfl⟩
      · exact .contested (.inl hown) rfl rfl rfl rfl
      · rename_i hbusy
        exact .taken hne.2 hother (.inl hbusy) (.inr rfl) rfl rfl rfl
      · exact .refl ..
    · split
      · split
        · exact .contested (.inl hown) rfl rfl rfl rfl
        · exact .refl ..
      · split
        · exact .contested (.inl hown) rfl rfl rfl rfl
        · exact .refl ..
  · exact .refl ..

section otherSlot

variable {cfg : Config} {sender : ℕ} {tag e : SlotTag}

theorem mergeOneHop_effect (hbusy : e.busy = .oneHop) (he : e.sti ≠ cfg.globalSti)
    (htag : tag.sti ≠ cfg.globalSti) :
    MergeEffect cfg.globalSti sender tag e (mergeOneHop cfg sender tag e) := by
  unfold mergeOneHop
  split
  · rename_i hne
    split
    · split
      · split
        · rename_i hpsf
          exact .taken hne.2 htag (.inr (.inl hpsf)) (.inl rfl) rfl rfl rfl
        · split
          · exact .contested (.inr hbusy) rfl rfl rfl rfl
          · exact .refl ..
      · exact .keep ⟨rfl, rfl, rfl, rfl⟩
    · exact .keep ⟨rfl, rfl, rfl, rfl⟩
    · rename_i hcol
      exact .taken hne.2 htag (.inl hcol) (.inr rfl) rfl rfl rfl
    · exact .refl ..
  · rename_i hzero
    split
    · split
      · split
        · split
          · exact .keep ⟨rfl, rfl, rfl, rfl⟩
          · exact .keep ⟨rfl, rfl, rfl, rfl⟩
        · exact .keep ⟨rfl, rfl, rfl, rfl⟩
      · exact .refl ..
    · rename_i hne
      split
      · rename_i hsender
        exact .released hsender.symm (by by_contra h; exact hzero ⟨hne, h⟩) he rfl rfl rfl rfl
      · exact .refl ..

theorem mergeTwoHop_effect (hbusy : e.busy = .twoHop) (he : e.sti ≠ cfg.globalSti)
    (htag : tag.sti ≠ cfg.globalSti) :
    MergeEffect cfg.globalSti sender tag e (mergeTwoHop cfg sender tag e) := by
  unfold mergeTwoHop
  split
  · rename_i hne
    split
    · exact .keep ⟨rfl, rfl, rfl, rfl⟩
    · rename_i hcol
      exact .taken hne.2 htag (.inl hcol) (.inr rfl) rfl rfl rfl
    · exact .refl ..
  · rename_i hzero
    split
    · split
      · by_cases hsender : tag.sti = sender
        · simp only [hsender, if_true]
          split
          · exact .heard hbusy rfl rfl rfl rfl
          · exact .heard hbusy rfl rfl rfl rfl
        · simp only [hsender, if_false]
          split
          · exact .keep ⟨rfl, rfl, rfl, rfl⟩
          · exact .keep ⟨rfl, rfl, rfl, rfl⟩
      · exact .refl ..
    · rename_i hne
      split
      · rename_i hsender
        exact .released hsender.symm (by by_contra h; exact hzero ⟨hne, h⟩) he rfl rfl rfl rfl
      · exact .refl ..

theorem mergeFree_effect (hbusy : e.busy = .free) (he : e.sti = 0)
    (htag : tag.sti ≠ cfg.globalSti) :
    MergeEffect cfg.globalSti sender tag e (mergeFree cfg sender tag e) := by
  unfold mergeFree
  split
  · rename_i hne
    have hzero : tag.sti ≠ 0 := fun h => hne (he.trans h.symm)
    split
    · exact .taken hzero htag (.inr (.inr ⟨hbusy, he⟩)) (hopCode_cases sender tag) rfl rfl rfl
    · exact .keep ⟨rfl, rfl, rfl, rfl⟩
    · exact .taken hzero htag (.inr (.inr ⟨hbusy, he⟩)) (.inr rfl) rfl rfl rfl
    · exact .refl ..
  · exact .refl ..

theorem otherSlot_of_skipped (h : skipped cfg tag e = true) : otherSlot cfg sender tag e = e :=
  if_pos h

theorem skipped_eq_false : skipped cfg tag e = false ↔
    e.locker = false ∧ e.sti ≠ cfg.globalSti ∧ tag.sti ≠ cfg.globalSti := by
  simp [skipped]

theorem otherSlot_effect : MergeEffect cfg.globalSti sender tag e (otherSlot cfg sender tag e) := by
  unfold otherSlot
  split
  · exact .refl ..
  · rename_i hskip
    obtain ⟨-, he, htag⟩ := skipped_eq_false.mp (Bool.eq_false_iff.mpr hskip)
    split
    · exact mergeOneHop_effect ‹_› he htag
    · split
      · exact mergeTwoHop_effect ‹_› he htag
      · split
        · rename_i hfree
          exact mergeFree_effect hfree.1 hfree.2 htag
        · exact .refl ..

end otherSlot

/-! ### What an FI can do to a table -/

section mergeFi

variable {cfg : Config} {s : Node} {fi : FrameInfo} {j : ℕ}

theorem mergeOwn_effect :
    MergeEffect cfg.globalSti fi.sti (fi.slotDescribe j) (s.collectedFi j) (mergeOwn cfg s fi j) := by
  unfold mergeOwn
  rcases Nat.lt_or_ge j (min s.mFrameLen fi.frameLen) with hlt | hge
  · -- the loop has not touched entry `j` when it comes to it
    rw [sweep_of_lt hlt, sweep_of_ge (Nat.le_refl j)]
    exact ownSlot_effect ..
  · rw [sweep_of_ge hge]
    exact .refl ..

theorem mergeOwn_of_ne (h : (s.collectedFi j).sti ≠ cfg.globalSti) :
    mergeOwn cfg s fi j = s.collectedFi j := by
  unfold mergeOwn
  rcases Nat.lt_or_ge j (min s.mFrameLen fi.frameLen) with hlt | hge
  · rw [sweep_of_lt hlt, sweep_of_ge (Nat.le_refl j), ownSlot, if_neg h]
  · rw [sweep_of_ge hge]

theorem mergeFi_of_lt (h : j < fi.frameLen) :
    (mergeFi cfg s fi).collectedFi j
      = otherSlot cfg fi.sti (fi.slotDescribe j) (mergeOwn cfg s fi j) := by
  simp only [mergeFi, forSlots_of_lt h]

theorem mergeFi_of_ge (h : fi.frameLen ≤ j) :
    (mergeFi cfg s fi).collectedFi j = mergeOwn cfg s fi j := by
  simp only [mergeFi, forSlots_of_ge h]

/-- **What an FI does to an entry**: two effects of its tag for the slot. -/
theorem mergeFi_effects :
    ∃ e, MergeEffect cfg.globalSti fi.sti (fi.slotDescribe j) (s.collectedFi j) e ∧
      MergeEffect cfg.globalSti fi.sti (fi.slotDescribe j) e ((mergeFi cfg s fi).collectedFi j) := by
  refine ⟨mergeOwn cfg s fi j, mergeOwn_effect, ?_⟩
  rcases Nat.lt_or_ge j fi.frameLen with hlt | hge
  · rw [mergeFi_of_lt hlt]
    exact otherSlot_effect
  · rw [mergeFi_of_ge hge]
    exact .refl ..

/-- What the effects of a tag keep, the merge keeps. -/
theorem mergeFi_invariant {P : SlotTag → Prop}
    (hstep : ∀ e e', MergeEffect cfg.globalSti fi.sti (fi.slotDescribe j) e e' → P e → P e')
    (h : P (s.collectedFi j)) : P ((mergeFi cfg s fi).collectedFi j) := by
  obtain ⟨e, h₁, h₂⟩ := @mergeFi_effects cfg s fi j
  exact hstep _ _ h₂ (hstep _ _ h₁ h)

/-- **A slot of another station does not become the node's own.**  A release writes the number 0, but a
node with that number passes over the empty tag that would release. -/
theorem mergeFi_sti_ne (h : (s.collectedFi j).sti ≠ cfg.globalSti) :
    ((mergeFi cfg s fi).collectedFi j).sti ≠ cfg.globalSti := by
  rcases Nat.lt_or_ge j fi.frameLen with hlt | hge
  · rw [mergeFi_of_lt hlt, mergeOwn_of_ne h]
    by_cases hskip : skipped cfg (fi.slotDescribe j) (s.collectedFi j) = true
    · rw [otherSlot_of_skipped hskip]
      exact h
    · obtain ⟨-, -, htag⟩ := skipped_eq_false.mp (Bool.eq_false_iff.mpr hskip)
      exact otherSlot_effect.sti_ne h fun hzero hg => htag (hzero.trans hg.symm)
  · rw [mergeFi_of_ge hge, mergeOwn_of_ne h]
    exact h

/-- A frame is only ever made longer. -/
theorem mergeFi_mFrameLen : s.mFrameLen ≤ (mergeFi cfg s fi).mFrameLen := by
  have hstep : ∀ (l : List ℕ) (m : ℕ), (∀ i ∈ l, i < fi.frameLen) →
      m ≤ l.foldl (restoreLen cfg s fi) m := by
    intro l
    induction l with
    | nil => exact fun m _ => Nat.le_refl m
    | cons i l ih =>
      intro m hl
      have hi : i < fi.frameLen := hl i (List.mem_cons_self ..)
      have hm : m ≤ restoreLen cfg s fi m i := by
        unfold restoreLen
        split
        · rename_i hrestore
          exact Nat.le_trans hrestore.1 (Nat.le_of_lt hi)
        · exact Nat.le_refl m
      exact Nat.le_trans hm (ih _ fun k hk => hl k (List.mem_cons_of_mem _ hk))
  exact hstep _ _ fun i hi => List.mem_range.mp hi

end mergeFi

end VanetTdma.Ns3
