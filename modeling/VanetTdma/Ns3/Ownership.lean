import VanetTdma.Ns3.SlotIndex

/-!
# The slots a node records for itself

`run_owned` says that the slots recorded for the node itself are the one it uses and, during an
adjustment, the candidate.  It holds in every run whose ticks meet `ClaimSafe`, that is, where

* a node in `NODE_WORK_ADJ` does not lose its slot to a collision: both ways out of that branch leave the
  old entry as it is, where every other state gives a lost slot up;
* a node that moves to a better slot at once (`adj_single_slot_ena_`) does not hop in the same tick: the
  hop frees `slot_count_`, which is no longer the slot in use.
-/

namespace VanetTdma.Ns3

open VanetTdma.SlotLoop VanetTdma.GuardedRun

/-- Slot `j` is recorded for the node itself. -/
def OwnedAt (cfg : Config) (s : Node) (j : ℕ) : Prop := (s.collectedFi j).sti = cfg.globalSti

section owned

variable {cfg : Config} {s : Node} {j : ℕ} {i : ℤ}

theorem ownedAt_claim (h : OwnedAt cfg (s.edit i fun e => e.claim cfg) j) :
    i = (j : ℤ) ∨ OwnedAt cfg s j := by
  unfold OwnedAt at h
  rw [Node.edit_collectedFi] at h
  split at h
  · exact .inl ‹_›
  · exact .inr h

theorem ownedAt_release (hg : cfg.globalSti ≠ 0) {lock : Bool}
    (h : OwnedAt cfg (s.edit i fun e => e.release lock) j) : i ≠ (j : ℤ) ∧ OwnedAt cfg s j := by
  unfold OwnedAt at h
  rw [Node.edit_collectedFi] at h
  split at h
  · exact absurd h.symm hg
  · exact ⟨‹_›, h⟩

theorem ownedAt_giveUp (hg : cfg.globalSti ≠ 0)
    (h : OwnedAt cfg (s.edit i fun e => e.giveUp cfg) j) : i ≠ (j : ℤ) ∧ OwnedAt cfg s j := by
  unfold OwnedAt at h
  rw [Node.edit_collectedFi] at h
  split at h
  · unfold SlotTag.giveUp at h
    split at h
    · exact absurd h.symm hg
    · exact absurd h ‹_›
  · exact ⟨‹_›, h⟩

theorem ownedAt_sendFi (h : OwnedAt cfg (sendFi cfg s) j) : OwnedAt cfg s j :=
  (sendFi_sameSlot cfg s j).sti_eq.symm.trans h

theorem ownedAt_synthesizeFiList (hg : cfg.globalSti ≠ 0)
    (h : OwnedAt cfg (synthesizeFiList cfg s) j) : OwnedAt cfg s j := by
  by_contra hne
  refine synthesizeFiList_entry (P := fun e => e.sti ≠ cfg.globalSti) ?_ hne ?_ (fun _ he => he) h
  · intro e' he
    cases he with
    | keep _ hsti _ _ => exact hsti ▸ hne
    | fade _ _ hsti _ _ => exact hsti ▸ hne
    | expired _ _ _ hsti _ => exact hsti ▸ hg.symm
  · exact fun fi _ e e' hm he => hm.sti_ne he fun _ => hg

theorem ownedAt_refresh (hg : cfg.globalSti ≠ 0) (h : OwnedAt cfg (refresh cfg s) j) :
    OwnedAt cfg s j := by
  unfold refresh at h
  have h' := ownedAt_synthesizeFiList hg h
  split at h'
  · exact h'
  · unfold OwnedAt at h'
    rcases @clearOthersSlotStatus_cases cfg s j with hsame | ⟨-, -, hsti, -⟩
    · rw [hsame] at h'
      exact h'
    · rw [hsti] at h'
      exact absurd h'.symm hg

theorem not_ownedAt_listenTable (hg : cfg.globalSti ≠ 0) : ¬ OwnedAt cfg (listenTable cfg s) j :=
  fun h => hg (ownedAt_synthesizeFiList hg h).symm

end owned

/-! ### The invariant -/

/-- The slots recorded for the node itself are the slot in use and the adjustment candidate. -/
def Owns (cfg : Config) (s : Node) : Prop :=
  ∀ j, OwnedAt cfg s j →
    (j : ℤ) = s.slotNum ∨ (s.nodeState = .workAdj ∧ (j : ℤ) = s.slotAdjCandidate)

/-- The steps that clear every claim they leave. -/
def ClaimSafe (cfg : Config) (s : Node) : Event → Prop
  | .recv _ => True
  | .tick d =>
    ((beginSlot s).slotCount : ℤ) = s.slotNum →
      (s.nodeState = .workAdj →
        OwnedAt cfg (refresh cfg (beginSlot s)) (beginSlot s).slotCount →
        ((refresh cfg (beginSlot s)).collectedFi (beginSlot s).slotCount).busy = .oneHop) ∧
      (s.nodeState = .workFi → ∀ x cs, adjust cfg (refresh cfg (beginSlot s)) d = some (x, cs) →
        x.slotNum ≠ s.slotNum → hops cfg (sendFi cfg x) = false)

section ownTick

variable {cfg : Config} {s s' x : Node} {d : Draws} {out : TickOut}

theorem Owns.refresh_eq (h : Owns cfg s) (hg : cfg.globalSti ≠ 0) (hstate : s.nodeState ≠ .workAdj)
    {j : ℕ} (hj : OwnedAt cfg (refresh cfg s) j) : (j : ℤ) = s.slotNum := by
  rcases h j (ownedAt_refresh hg hj) with heq | ⟨hadj, -⟩
  · exact heq
  · exact absurd hadj hstate

/-- In `NODE_WORK_ADJ`, a slot that is no longer usable and not contested is no longer the node's. -/
theorem not_ownedAt_of_unusable {j : ℕ}
    (hsafe : OwnedAt cfg x j → (x.collectedFi j).busy = .oneHop)
    (hbch : usable cfg (x.collectedFi j) = false) : ¬ OwnedAt cfg x j := by
  intro hown
  have husable : usable cfg (x.collectedFi j) = true := by
    simp only [usable, decide_eq_true_eq]
    exact .inl ⟨hown, hsafe hown⟩
  rw [hbch] at husable
  exact absurd husable (by simp)

theorem Losing.not_ownedAt (h : Owns cfg s) (hg : cfg.globalSti ≠ 0)
    (hown : (s.slotCount : ℤ) = s.slotNum)
    (hsafe : s.nodeState = .workAdj → OwnedAt cfg (refresh cfg s) s.slotCount →
      ((refresh cfg s).collectedFi s.slotCount).busy = .oneHop)
    (hx : Losing cfg s x) (j : ℕ) : ¬ OwnedAt cfg x j := by
  intro hj
  cases hx with
  | bch hstate _ =>
    obtain ⟨hne, hj'⟩ := ownedAt_giveUp hg hj
    have hstate' : s.nodeState ≠ .workAdj := by rcases hstate with h | h | h <;> simp [h]
    rw [refresh_slotCount, hown] at hne
    exact hne (h.refresh_eq hg hstate' hj').symm
  | both hstate hbch _ =>
    obtain ⟨hne, hj'⟩ := ownedAt_giveUp hg hj
    rw [refresh_slotAdjCandidate] at hne
    rw [refresh_slotCount] at hbch
    rcases h j (ownedAt_refresh hg hj') with heq | ⟨-, hcand⟩
    · rw [← hown] at heq
      rw [Int.ofNat_inj.mp heq] at hj'
      exact not_ownedAt_of_unusable (hsafe hstate) hbch hj'
    · exact hne hcand.symm

theorem owns_adjust {r : Node} {cs : List ℤ} (hg : cfg.globalSti ≠ 0)
    (h : ∀ j, OwnedAt cfg r j → (j : ℤ) = r.slotNum) (hown : (r.slotCount : ℤ) = r.slotNum)
    (hx : adjust cfg r d = some (x, cs)) : Owns cfg x := by
  rcases adjust_cases hx with ⟨-, c, -, rfl, -⟩ | ⟨-, rfl, -⟩
  · unfold takeCandidate
    split
    · exact fun j hj => .inl (h j hj)
    · split
      · -- the old slot is released, the new one claimed
        intro j hj
        rcases ownedAt_claim hj with heq | hj
        · exact .inl heq.symm
        · obtain ⟨hne, hj⟩ := ownedAt_release hg hj
          exact absurd (hown.trans (h j hj).symm) hne
      · intro j hj
        rcases ownedAt_claim hj with heq | hj
        · exact .inr ⟨rfl, heq.symm⟩
        · exact .inl (h j hj)
  · obtain ⟨m, k, heq⟩ := adjFrameLen_eq cfg r
    rw [heq]
    exact fun j hj => .inl (h j hj)

theorem adjust_slotCount {r : Node} {cs : List ℤ} (hx : adjust cfg r d = some (x, cs)) :
    x.slotCount = r.slotCount := by
  rcases adjust_cases hx with ⟨-, c, -, rfl, -⟩ | ⟨-, rfl, -⟩
  · unfold takeCandidate
    split
    · rfl
    · split <;> rfl
  · obtain ⟨m, k, heq⟩ := adjFrameLen_eq cfg r
    rw [heq]

theorem owns_hop {cs : List ℤ} (hg : cfg.globalSti ≠ 0) (h : Owns cfg x)
    (hsafe : x.slotNum ≠ x.slotCount → hops cfg x = false) (hx : hop cfg x d = some (s', cs)) :
    Owns cfg s' := by
  rcases hop_cases hx with ⟨hhops, c, -, rfl, -⟩ | ⟨-, ⟨k, rfl⟩, -⟩
  · intro j hj
    rcases ownedAt_claim hj with heq | hj
    · exact .inl heq.symm
    · obtain ⟨hne, hj⟩ := ownedAt_release hg hj
      rcases h j hj with heq | hadj
      · have hmoved : x.slotNum ≠ x.slotCount := fun hsame => hne (hsame.symm.trans heq.symm)
        rw [hsafe hmoved] at hhops
        exact absurd hhops (by simp)
      · exact .inr hadj
  · exact h

theorem owns_adjDecide {r : Node} (hg : cfg.globalSti ≠ 0)
    (h : ∀ j, OwnedAt cfg r j → (j : ℤ) = r.slotNum ∨ (j : ℤ) = r.slotAdjCandidate) :
    Owns cfg (adjDecide cfg r) := by
  unfold adjDecide
  split
  · intro j hj
    obtain ⟨hne, hj⟩ := ownedAt_release hg hj
    rcases h j hj with heq | heq
    · exact absurd heq.symm hne
    · exact .inl heq
  · intro j hj
    obtain ⟨hne, hj⟩ := ownedAt_release hg hj
    rcases h j hj with heq | heq
    · exact .inl heq
    · exact absurd heq.symm hne

theorem owns_ownTick (h : Owns cfg s) (hg : cfg.globalSti ≠ 0)
    (hown : (s.slotCount : ℤ) = s.slotNum)
    (hadj : s.nodeState = .workAdj → OwnedAt cfg (refresh cfg s) s.slotCount →
      ((refresh cfg s).collectedFi s.slotCount).busy = .oneHop)
    (hmove : s.nodeState = .workFi → ∀ x cs, adjust cfg (refresh cfg s) d = some (x, cs) →
      x.slotNum ≠ s.slotNum → hops cfg (sendFi cfg x) = false)
    (ht : OwnTick cfg s d s' out) : Owns cfg s' := by
  cases ht with
  | begin hstate =>
    intro j hj
    rcases h j hj with heq | ⟨habs, -⟩
    · exact .inl heq
    · simp [hstate] at habs
  | wait _ _ => exact h
  | listenFull _ _ _ _ => exact fun j hj => absurd hj (not_ownedAt_listenTable hg)
  | listenNow _ _ _ hnow hx =>
    subst hx hnow
    intro j hj
    rcases ownedAt_claim (ownedAt_sendFi hj) with heq | hj
    · exact .inl heq.symm
    · exact absurd hj (not_ownedAt_listenTable hg)
  | listenLater _ _ _ _ => exact fun j hj => absurd hj (not_ownedAt_listenTable hg)
  | request hstate _ hx =>
    subst hx
    intro j hj
    rcases ownedAt_claim (ownedAt_sendFi hj) with heq | hj
    · rw [refresh_slotCount, hown] at heq
      exact .inl (by simpa using heq.symm)
    · exact .inl (by simpa using h.refresh_eq hg (by simp [hstate]) hj)
  | work hstate _ hx =>
    subst hx
    intro j hj
    exact .inl (by simpa using h.refresh_eq hg (by simp [hstate]) (ownedAt_sendFi hj))
  | lostFull hx _ => exact fun j hj => absurd hj (hx.not_ownedAt h hg hown hadj j)
  | lostLater hx _ _ => exact fun j hj => absurd hj (hx.not_ownedAt h hg hown hadj j)
  | worked hstate _ hadjust hhop =>
    have hr : ∀ j, OwnedAt cfg (refresh cfg s) j → (j : ℤ) = (refresh cfg s).slotNum := fun j hj => by
      rw [refresh_slotNum]
      exact h.refresh_eq hg (by simp [hstate]) hj
    have hx := owns_adjust hg hr (by simpa using hown) hadjust
    have hsent : Owns cfg (sendFi cfg _) := fun j hj => hx j (ownedAt_sendFi hj)
    refine owns_hop hg hsent ?_ hhop
    intro hne
    refine hmove hstate _ _ hadjust ?_
    rw [sendFi_slotNum, sendFi_slotCount, adjust_slotCount hadjust, refresh_slotCount, hown] at hne
    exact hne
  | adjDecided _ _ =>
    refine fun j hj => owns_adjDecide hg (fun j hj => ?_) j (ownedAt_sendFi hj)
    rw [refresh_slotNum, refresh_slotAdjCandidate]
    exact (h j (ownedAt_refresh hg hj)).imp_right And.right
  | adjMoved hstate hbch _ =>
    intro j hj
    rw [refresh_slotCount] at hbch
    rcases h j (ownedAt_refresh hg hj) with heq | ⟨-, heq⟩
    · rw [← hown] at heq
      rw [Int.ofNat_inj.mp heq] at hj
      exact absurd hj (not_ownedAt_of_unusable (hadj hstate) hbch)
    · exact .inl (by simpa using heq)

end ownTick

/-- **A node records only the slots it uses for itself**, in every run whose ticks are claim-safe. -/
theorem run_owned (cfg : Config) (u : Uninit) (s : Node) (hg : cfg.globalSti ≠ 0)
    (h : RunWhere cfg (ClaimSafe cfg) u s) :
    ∀ i < s.mFrameLen, (s.collectedFi i).sti = cfg.globalSti →
      (i : ℤ) = s.slotNum ∨ (s.nodeState = .workAdj ∧ (i : ℤ) = s.slotAdjCandidate) := by
  have hinv : Owns cfg s := by
    refine RunWhere.invariant h ?_ (fun _ _ hs => hs) (fun _ hs => hs) ?_
    · exact fun j hj => absurd hj hg.symm
    · intro s d s' out hs hok hown ht
      obtain ⟨hadj, hmove⟩ := hok hown
      exact owns_ownTick hs hg hown hadj hmove ht
  exact fun i _ hsti => hinv i hsti

/-- The ticks until the node in slot 1 has announced slot 0 as its candidate. -/
def adjTicks : List Event := List.replicate 8 (.tick { bch := 1 })

/-- The run up to there is claim-safe, and the node records both slots. -/
theorem run_owned_adjusting :
    ∃ s, RunWhere adjCfg (ClaimSafe adjCfg) ⟨0, 0, false, 0⟩ s ∧ s.nodeState = .workAdj ∧
      ∀ i < s.mFrameLen, (s.collectedFi i).sti = adjCfg.globalSti →
        (i : ℤ) = s.slotNum ∨ (s.nodeState = .workAdj ∧ (i : ℤ) = s.slotAdjCandidate) := by
  have hobs : (runList (step adjCfg)
      (fun s _ => ¬ (((beginSlot s).slotCount : ℤ) = s.slotNum ∧ s.nodeState = .workAdj))
      (start adjCfg ⟨0, 0, false, 0⟩) adjTicks).map Node.nodeState = some .workAdj := by
    decide +kernel
  obtain ⟨s, hs, hstate⟩ := Option.map_eq_some_iff.mp hobs
  have hrun : RunWhere adjCfg (ClaimSafe adjCfg) ⟨0, 0, false, 0⟩ s := by
    refine reach_of_runList (fun s i hi => ?_) hs
    cases i with
    | recv buffer => trivial
    | tick d =>
      intro hown
      refine ⟨fun hadj => absurd ⟨hown, hadj⟩ (of_decide_eq_true hi), fun _ x cs _ _ => ?_⟩
      simp [hops, adjCfg]
  exact ⟨s, hrun, hstate, run_owned adjCfg _ s (by decide) hrun⟩

/-- Station 2 collides with the node in slot 1 while slot 0 is its candidate: the node moves to slot 0 and
keeps slot 1 recorded for itself. -/
theorem run_owned_stale :
    ¬ ∀ (cfg : Config) (u : Uninit) (s : Node), cfg.globalSti ≠ 0 → Run cfg u s →
      ∀ i < s.mFrameLen, (s.collectedFi i).sti = cfg.globalSti →
        (i : ℤ) = s.slotNum ∨ (s.nodeState = .workAdj ∧ (i : ℤ) = s.slotAdjCandidate) := by
  intro h
  have hobs : (runEvents adjCfg ⟨0, 0, false, 0⟩
      (adjTicks ++ [.recv (fiHeader 2 2 (Table.single 1 .oneHop 2)).buffer, .tick {}])).map
      (fun s => (s.nodeState, s.slotNum, s.mFrameLen, (s.collectedFi 1).sti))
      = some (.workFi, 0, 2, 1) := by decide +kernel
  obtain ⟨s, hs, hend⟩ := Option.map_eq_some_iff.mp hobs
  simp only [Prod.mk.injEq] at hend
  obtain ⟨hstate, hnum, hlen, hsti⟩ := hend
  rcases h adjCfg _ s (by decide) (run_of_runEvents hs) 1 (by omega) hsti with heq | ⟨habs, -⟩
  · rw [hnum] at heq
    exact absurd heq (by decide)
  · rw [hstate] at habs
    exact absurd habs (by decide)

end VanetTdma.Ns3
