import VanetTdma.Ns3.SlotHandler

/-!
# The verdict of the neighbours on the node's own slot

A node learns from the FIs it merges whether it may keep a slot it has claimed.  `Objects` says which FIs
speak against a slot that the node holds with priority `p`; one kind of objection, an empty tag, only
counts if the sender is known, and whether it is known depends on the table as the merge has left it when
the first loop comes to the slot (`tableAt`).

* `ownSlot_kept_iff` — one tag: the claim survives exactly if the tag does not object;
* `mergeFi_kept_iff` — one FI: the second loop does not disturb the verdict of the first;
* `verdict_iff` — the whole list, and no entry becomes the node's own by a merge.
-/

namespace VanetTdma.Ns3

open VanetTdma.SlotLoop

/-- The entry is the node's own, without a collision. -/
def OwnOneHop (cfg : Config) (e : SlotTag) : Prop := e.sti = cfg.globalSti ∧ e.busy = .oneHop

instance (cfg : Config) (e : SlotTag) : Decidable (OwnOneHop cfg e) :=
  inferInstanceAs (Decidable (_ ∧ _))

/-- `sid` is recorded for some slot of a frame of `m` slots. -/
def Occupies (t : Table) (m sid : ℕ) : Prop := ∃ k < m, (t k).sti = sid

theorem isNewNeighbor_eq_false {t : Table} {m sid : ℕ} :
    isNewNeighbor t m sid = false ↔ Occupies t m sid := by
  simp [isNewNeighbor, Occupies]

/-- The tag speaks against a slot that the node holds with priority `p`; `known` says that the sender
occupies some slot. -/
def TagObjects (cfg : Config) (p : ℕ) (tag : SlotTag) (known : Prop) : Prop :=
  (tag.sti ≠ 0 ∧ tag.sti ≠ cfg.globalSti ∧
      (tag.busy = .free ∨ tag.busy = .collision ∨ (tag.busy = .oneHop ∧ p ≤ tag.psf))) ∨
    (tag.sti = cfg.globalSti ∧ tag.busy = .free) ∨
    (tag.sti = 0 ∧ tag.busy = .free ∧ known)

/-! ### One tag -/

section ownSlot

variable {cfg : Config} {sender : ℕ} {tag e : SlotTag} {newNeighbor : Bool}

/-- **One tag in the first loop**: the claim survives exactly if the tag does not object. -/
theorem ownSlot_kept_iff (hown : OwnOneHop cfg e) :
    OwnOneHop cfg (ownSlot cfg sender tag newNeighbor e) ↔
      ¬ TagObjects cfg e.psf tag (newNeighbor = false) := by
  obtain ⟨hsti, hbusy⟩ := hown
  unfold ownSlot TagObjects
  rw [if_pos hsti]
  by_cases hother : e.sti ≠ tag.sti ∧ tag.sti ≠ 0
  · -- the tag names another station
    have hne : tag.sti ≠ cfg.globalSti := fun h => hother.1 (hsti.trans h.symm)
    rw [if_pos hother]
    cases hb : tag.busy with
    | oneHop =>
      rcases Nat.lt_trichotomy e.psf tag.psf with hlt | heq | hgt
      · simp [OwnOneHop, SlotTag.handTo, hlt, Nat.le_of_lt hlt, hother.2, hne]
      · simp [OwnOneHop, heq, hother.2, hne]
      · simp [OwnOneHop, hsti, hbusy, Nat.lt_asymm hgt, Nat.ne_of_lt hgt, Nat.not_le_of_gt hgt]
    | twoHop => simp [OwnOneHop, hsti, hbusy]
    | free => simp [OwnOneHop, hother.2, hne]
    | collision => simp [OwnOneHop, SlotTag.handTo, hother.2, hne]
    | other n => simp [OwnOneHop, hsti, hbusy]
  · rw [if_neg hother]
    by_cases hsame : e.sti = tag.sti
    · -- the tag names the node itself
      have htag : tag.sti = cfg.globalSti := hsame.symm.trans hsti
      rw [if_pos hsame]
      cases hb : tag.busy with
      | free => simp [OwnOneHop, htag]
      | oneHop | twoHop | collision | other n => simp [OwnOneHop, hsti, hbusy, htag]
    · -- the tag names nobody
      have hzero : tag.sti = 0 := by
        by_contra h
        exact hother ⟨hsame, h⟩
      have hg : (0 : ℕ) ≠ cfg.globalSti := fun h => hsame (hsti.trans (h.symm.trans hzero.symm))
      rw [if_neg hsame]
      by_cases hcond : tag.busy = .free ∧ newNeighbor = false
      · simp [OwnOneHop, hzero, hcond.1, hcond.2]
      · rw [if_neg hcond]
        simpa [OwnOneHop, hsti, hbusy, hzero, hg] using hcond

theorem ownSlot_not_own (h : ¬ OwnOneHop cfg e) :
    ¬ OwnOneHop cfg (ownSlot cfg sender tag newNeighbor e) := by
  rintro ⟨hsti', hbusy'⟩
  have heff := ownSlot_effect cfg sender tag newNeighbor e
  by_cases hsti : e.sti = cfg.globalSti
  · cases heff with
    | keep hs => exact h ⟨hsti, hs.busy_eq ▸ hbusy'⟩
    | contested _ hbusy _ _ _ => simp [hbusy] at hbusy'
    | heard htwo hbusy _ _ _ =>
      -- the first loop does not turn a two-hop entry into a one-hop entry of the same station
      revert hbusy' hsti'
      unfold ownSlot
      rw [if_pos hsti]
      split
      · rename_i hne
        split
        · split
          · intro hsti' _
            exact absurd (hsti.trans hsti'.symm) hne.1
          · split <;> simp [htwo]
        · simp [htwo]
        · simp
        · simp [SlotTag.handTo]
        · simp [htwo]
      · split
        · split <;> simp [htwo]
        · split <;> simp [htwo]
    | taken _ hother _ _ hsti'' _ _ => exact hother (hsti''.symm.trans hsti')
    | released _ _ hother _ _ _ _ => exact hother hsti
  · rw [ownSlot, if_neg hsti] at hsti'
    exact hsti hsti'

theorem otherSlot_own_iff :
    OwnOneHop cfg (otherSlot cfg sender tag e) ↔ OwnOneHop cfg e := by
  by_cases hskip : skipped cfg tag e = true
  · rw [otherSlot_of_skipped hskip]
  · obtain ⟨-, hne, -⟩ := skipped_eq_false.mp (Bool.eq_false_iff.mpr hskip)
    refine ⟨fun ⟨hsti', hbusy'⟩ => ?_, fun h => absurd h.1 hne⟩
    cases (otherSlot_effect : MergeEffect cfg.globalSti sender tag e _) with
    | keep hs => exact absurd (hs.sti_eq.symm.trans hsti') hne
    | contested _ _ hsti _ _ => exact absurd (hsti.symm.trans hsti') hne
    | heard _ _ hsti _ _ => exact absurd (hsti.symm.trans hsti') hne
    | taken _ hother _ _ hsti _ _ => exact absurd (hsti.symm.trans hsti') hother
    | released _ _ _ hbusy _ _ _ => simp [hbusy] at hbusy'

end ownSlot

/-! ### One FI -/

/-- The table when the first loop of `merge_fi` comes to slot `i`. -/
def tableAt (cfg : Config) (s : Node) (fi : FrameInfo) (i : ℕ) : Table :=
  sweep (fun k t => ownSlot cfg fi.sti (fi.slotDescribe k) (isNewNeighbor t s.mFrameLen fi.sti) (t k))
    i s.collectedFi

/-- The FI describes slot `i` of the node's frame. -/
def Covers (s : Node) (fi : FrameInfo) (i : ℕ) : Prop := i < s.mFrameLen ∧ i < fi.frameLen

/-- The FI objects to slot `i`, held with priority `p`, when it is merged into the node `s`. -/
def Objects (cfg : Config) (s : Node) (fi : FrameInfo) (i p : ℕ) : Prop :=
  TagObjects cfg p (fi.slotDescribe i) (Occupies (tableAt cfg s fi i) s.mFrameLen fi.sti)

section mergeFi

variable {cfg : Config} {s : Node} {fi : FrameInfo} {i p : ℕ}

theorem mergeOwn_of_covers (h : Covers s fi i) :
    mergeOwn cfg s fi i
      = ownSlot cfg fi.sti (fi.slotDescribe i)
          (isNewNeighbor (tableAt cfg s fi i) s.mFrameLen fi.sti) (s.collectedFi i) := by
  have hlt : i < min s.mFrameLen fi.frameLen := Nat.lt_min.mpr h
  unfold mergeOwn
  rw [sweep_of_lt hlt, sweep_of_ge (Nat.le_refl i)]
  rfl

theorem mergeOwn_of_not_covers (h : ¬ Covers s fi i) : mergeOwn cfg s fi i = s.collectedFi i :=
  sweep_of_ge (Nat.not_lt.mp fun hlt => h (Nat.lt_min.mp hlt))

theorem mergeFi_own_iff :
    OwnOneHop cfg ((mergeFi cfg s fi).collectedFi i) ↔ OwnOneHop cfg (mergeOwn cfg s fi i) := by
  rcases Nat.lt_or_ge i fi.frameLen with hlt | hge
  · rw [mergeFi_of_lt hlt]
    exact otherSlot_own_iff
  · rw [mergeFi_of_ge hge]

/-- **One FI**: the claim survives exactly if the FI does not cover the slot or does not object. -/
theorem mergeFi_kept_iff (hown : OwnOneHop cfg (s.collectedFi i)) (hpsf : (s.collectedFi i).psf = p) :
    OwnOneHop cfg ((mergeFi cfg s fi).collectedFi i) ↔ (Covers s fi i → ¬ Objects cfg s fi i p) := by
  rw [mergeFi_own_iff]
  by_cases hcov : Covers s fi i
  · have hiff : Objects cfg s fi i p ↔ TagObjects cfg (s.collectedFi i).psf (fi.slotDescribe i)
        (isNewNeighbor (tableAt cfg s fi i) s.mFrameLen fi.sti = false) := by
      rw [isNewNeighbor_eq_false, hpsf, Objects]
    rw [mergeOwn_of_covers hcov, ownSlot_kept_iff hown, hiff]
    exact ⟨fun h _ => h, fun h => h hcov⟩
  · rw [mergeOwn_of_not_covers hcov]
    exact ⟨fun _ h => absurd h hcov, fun _ => hown⟩

theorem mergeFi_not_own (h : ¬ OwnOneHop cfg (s.collectedFi i)) :
    ¬ OwnOneHop cfg ((mergeFi cfg s fi).collectedFi i) := by
  rw [mergeFi_own_iff]
  by_cases hcov : Covers s fi i
  · rw [mergeOwn_of_covers hcov]
    exact ownSlot_not_own h
  · rwa [mergeOwn_of_not_covers hcov]

theorem mergeFi_psf : ((mergeFi cfg s fi).collectedFi i).psf = (s.collectedFi i).psf := by
  refine mergeFi_invariant (P := fun e => e.psf = (s.collectedFi i).psf) ?_ rfl
  intro e e' heff he
  cases heff with
  | keep hs => exact hs.psf_eq.trans he
  | contested _ _ _ _ hpsf => exact hpsf.trans he
  | heard _ _ _ _ hpsf => exact hpsf.trans he
  | taken _ _ _ _ _ _ hpsf => exact hpsf.trans he
  | released _ _ _ _ _ _ hpsf => exact hpsf.trans he

end mergeFi

/-! ### The list -/

section mergeList

variable {cfg : Config} {i p : ℕ}

theorem foldl_mergeFi_not_own (l : List FrameInfo) (s : Node)
    (h : ¬ OwnOneHop cfg (s.collectedFi i)) :
    ¬ OwnOneHop cfg ((l.foldl (mergeFi cfg) s).collectedFi i) := by
  induction l generalizing s with
  | nil => exact h
  | cons fi l ih => exact ih _ (mergeFi_not_own h)

/-- The claim survives a list of FIs exactly if none of them objects when its turn comes. -/
theorem foldl_mergeFi_kept_iff (l : List FrameInfo) (s : Node)
    (hown : OwnOneHop cfg (s.collectedFi i)) (hpsf : (s.collectedFi i).psf = p) :
    OwnOneHop cfg ((l.foldl (mergeFi cfg) s).collectedFi i) ↔
      ∀ before fi after, l = before ++ fi :: after →
        Covers (before.foldl (mergeFi cfg) s) fi i →
          ¬ Objects cfg (before.foldl (mergeFi cfg) s) fi i p := by
  induction l generalizing s with
  | nil =>
    refine ⟨fun _ before fi after h => ?_, fun _ => hown⟩
    simp at h
  | cons fi l ih =>
    rw [List.foldl_cons]
    by_cases hkept : OwnOneHop cfg ((mergeFi cfg s fi).collectedFi i)
    · have hfirst := (mergeFi_kept_iff hown hpsf).mp hkept
      rw [ih _ hkept (mergeFi_psf.trans hpsf)]
      refine ⟨fun h before fi' after heq => ?_, fun h before fi' after heq => ?_⟩
      · cases before with
        | nil =>
          obtain ⟨rfl, -⟩ := List.cons.inj heq
          exact hfirst
        | cons b before =>
          obtain ⟨rfl, htail⟩ := List.cons.inj heq
          exact h before fi' after htail
      · exact h (fi :: before) fi' after (congrArg (fi :: ·) heq)
    · refine ⟨fun h => absurd h (foldl_mergeFi_not_own l _ hkept), fun h => ?_⟩
      exact absurd ((mergeFi_kept_iff hown hpsf).mpr (h [] fi l rfl)) hkept

end mergeList

/-- **The verdict on an own slot.**  A slot the node holds when `synthesize_fi_list` starts merging is
still its own after all merges exactly if no FI that covers it objects when its turn comes; and no merge
gives an entry the node's number. -/
theorem verdict_iff (cfg : Config) (s : Node) (i p : ℕ) (hown : OwnOneHop cfg (s.collectedFi i))
    (hpsf : (s.collectedFi i).psf = p) :
    (OwnOneHop cfg ((mergeList cfg s).collectedFi i) ↔
      ∀ before fi after, s.receivedFiList = before ++ fi :: after →
        Covers (before.foldl (mergeFi cfg) s) fi i →
          ¬ Objects cfg (before.foldl (mergeFi cfg) s) fi i p) ∧
      ∀ (r : Node) (fi : FrameInfo) (j : ℕ), (r.collectedFi j).sti ≠ cfg.globalSti →
        ((mergeFi cfg r fi).collectedFi j).sti ≠ cfg.globalSti :=
  ⟨foldl_mergeFi_kept_iff _ _ hown hpsf, fun _ _ _ => mergeFi_sti_ne⟩

/-- A node that holds slot 0 of a frame of two. -/
def holder (cfg : Config) (l : List FrameInfo) : Node :=
  { start cfg ⟨0, 0, false, 0⟩ with
    nodeState := .workFi
    slotNum := 0
    collectedFi := Table.single 0 .oneHop cfg.globalSti
    receivedFiList := l }

/-- Station 2 announces slot 1 and has not noticed the node in slot 0. -/
def deafFi : FrameInfo := ⟨2, 2, 2, Table.single 1 .oneHop 2⟩

/-- The first FI of station 2 makes it a neighbour; its second FI objects. -/
theorem verdict_iff_deaf :
    ¬ OwnOneHop pairCfg ((mergeList pairCfg (holder pairCfg [deafFi, deafFi])).collectedFi 0) := by
  intro hkept
  have hno := (verdict_iff pairCfg (holder pairCfg [deafFi, deafFi]) 0 0 ⟨rfl, rfl⟩ rfl).1.mp hkept
    [deafFi] deafFi [] rfl (by constructor <;> decide)
  refine hno (.inr (.inr ⟨rfl, rfl, 1, ?_, ?_⟩))
  · decide
  · decide

end VanetTdma.Ns3
