import VanetTdma.Ns2.FrameTail

/-!
# The FI of an occupier refreshes its slot, except in the first stage of the timeout

An FI in which station `b` claims the slot it is recorded in makes the entry a direct neighbour's with a full life
time, whether `b` was a direct or a two-hop neighbour before, and takes the slot out of the candidates of
`determine_BCH`.  In the first stage of the timeout the entry is free and recorded at once: the loop of `merge_fi`
has a branch for free slots without an occupier and none for this one, so the entry ages on and stays a candidate.

* `mergeFi_refreshed`, `mergeFi_timedOut` — the two sides for a whole FI;
* `candidate_of_determineBch` — what `determine_BCH` takes from the table is a candidate;
* `refresh_law_iff` — the law holds exactly outside the first stage of the timeout.
-/

namespace VanetTdma.Ns2

open VanetTdma.SlotLoop
open VanetTdma.Ns3 (SlotTag Table FrameInfo Busy pick pick_mem)

/-- The entry of a direct neighbour `b` with a full life time. -/
structure FullyHeard (p : Params) (b : ℕ) (e : SlotTag) : Prop where
  sti : e.sti = b
  busy : e.busy = .oneHop
  lifeTime : e.lifeTime = p.slotLifetimeFrameS2

/-- `determine_BCH` returns slot `c` for some random number, and not as the fixed slot of the test mode, which
clears `testmode_init_flag_`. -/
def Offers (p : Params) (s : Node) (c : ℕ) : Prop :=
  ∃ strict draw, determineBch p s strict draw = some ((c : ℤ), s.testmodeInitFlag)

/-- `fi` is sent by `b` and claims slot `c`. -/
structure ClaimedBy (b c : ℕ) (fi : FrameInfo) : Prop where
  sender : fi.sti = b
  reaches : c < fi.frameLen
  sti : (fi.slotDescribe c).sti = b
  busy : (fi.slotDescribe c).busy = .oneHop

/-! ### The merge -/

section merge

variable {p : Params} {s : Node} {fi : FrameInfo} {b c : ℕ} {e tag : SlotTag}

theorem mergeOwn_of_ne (h : (s.collectedFi c).sti ≠ p.globalSti) : mergeOwn p s fi c = s.collectedFi c := by
  unfold mergeOwn
  rcases Nat.lt_or_ge c (min s.maxSlotNum fi.frameLen) with hlt | hge
  · rw [sweep_of_lt hlt, sweep_of_ge (Nat.le_refl c), ownSlot, if_neg h]
  · rw [sweep_of_ge hge]

theorem mergeFi_of_lt (hc : c < fi.frameLen) (h : (s.collectedFi c).sti ≠ p.globalSti) :
    (mergeFi p s fi).collectedFi c = otherSlot p fi.sti (fi.slotDescribe c) (s.collectedFi c) := by
  simp only [mergeFi, forSlots_of_lt hc, mergeOwn_of_ne h]

theorem mergeOneHop_fullyHeard (he : e.sti = b) (hbusy : e.busy = .oneHop) (hsti : tag.sti = b)
    (htag : tag.busy = .oneHop) : FullyHeard p b (mergeOneHop p b tag e) := by
  have hsame : e.sti = tag.sti := he.trans hsti.symm
  unfold mergeOneHop
  rw [if_neg (fun h => h.1 hsame), if_pos hsame, htag]
  simp only [hsti, if_true]
  split
  · exact ⟨he, hbusy, rfl⟩
  · exact ⟨he, hbusy, rfl⟩

theorem mergeTwoHop_fullyHeard (he : e.sti = b) (hsti : tag.sti = b) (htag : tag.busy = .oneHop) :
    FullyHeard p b (mergeTwoHop p b tag e) := by
  have hsame : e.sti = tag.sti := he.trans hsti.symm
  unfold mergeTwoHop
  rw [if_neg (fun h => h.1 hsame), if_pos hsame, htag]
  simp only [hsti, if_true]
  split
  · exact ⟨he, rfl, rfl⟩
  · exact ⟨he, rfl, rfl⟩

theorem mergeFi_refreshed (hg : b ≠ p.globalSti) (he : (s.collectedFi c).sti = b)
    (hlocker : (s.collectedFi c).locker = false)
    (hbusy : (s.collectedFi c).busy = .oneHop ∨ (s.collectedFi c).busy = .twoHop) (hfi : ClaimedBy b c fi) :
    FullyHeard p b ((mergeFi p s fi).collectedFi c) := by
  have hskip : skipped p (fi.slotDescribe c) (s.collectedFi c) ≠ true := by
    simp [skipped, hlocker, he, hfi.sti, hg]
  rw [mergeFi_of_lt hfi.reaches (he ▸ hg), otherSlot, if_neg hskip, hfi.sender]
  rcases hbusy with hone | htwo
  · rw [if_pos hone]
    exact mergeOneHop_fullyHeard he hone hfi.sti hfi.busy
  · rw [if_neg (by simp [htwo]), if_pos htwo]
    exact mergeTwoHop_fullyHeard he hfi.sti hfi.busy

/-- **In the first stage of the timeout** the occupier's FI changes nothing. -/
theorem mergeFi_timedOut (hg : b ≠ p.globalSti) (he : (s.collectedFi c).sti = b)
    (hbusy : (s.collectedFi c).busy = .free) (hfi : ClaimedBy b c fi) :
    (mergeFi p s fi).collectedFi c = s.collectedFi c := by
  have hsame : (s.collectedFi c).sti = (fi.slotDescribe c).sti := he.trans hfi.sti.symm
  rw [mergeFi_of_lt hfi.reaches (he ▸ hg)]
  unfold otherSlot
  rw [if_neg (by simp [hbusy] : ¬ (s.collectedFi c).busy = .oneHop),
    if_neg (by simp [hbusy] : ¬ (s.collectedFi c).busy = .twoHop)]
  -- the branch for free slots asks for an occupier of another number
  unfold mergeFree
  rw [if_neg (not_not.mpr hsame)]
  split
  · rfl
  · split <;> rfl

end merge

/-! ### The candidates -/

section candidates

variable {p : Params} {s : Node} {strict : Bool} {draw : ℕ} {c : ℕ}

theorem candidate_of_mem_s2c (h : c ∈ s2c p s strict) : bchCandidate p strict (s.collectedFi c) = true := by
  simp only [s2c, List.mem_filter] at h
  exact h.2

theorem candidate_of_mem_s0c (h : c ∈ s0c p s strict) : bchCandidate p strict (s.collectedFi c) = true := by
  unfold s0c at h
  split at h
  · exact candidate_of_mem_s2c (List.mem_of_mem_filter h)
  · exact candidate_of_mem_s2c h

theorem candidate_of_mem_s01c (h : c ∈ s01c p s strict) : bchCandidate p strict (s.collectedFi c) = true := by
  unfold s01c at h
  split at h
  · exact candidate_of_mem_s0c (List.mem_of_mem_filter h)
  · simp at h

theorem candidate_of_pick {l : List ℕ} (hl : ∀ i ∈ l, bchCandidate p strict (s.collectedFi i) = true)
    (h : pick l draw = some (c : ℤ)) : bchCandidate p strict (s.collectedFi c) = true := by
  obtain ⟨i, hi, heq⟩ := pick_mem h
  rw [Int.ofNat_inj.mp heq]
  exact hl i hi

theorem candidate_of_chooseBch (h : chooseBch p s strict draw = some (c : ℤ)) :
    bchCandidate p strict (s.collectedFi c) = true := by
  unfold chooseBch at h
  split at h
  · split at h
    · exact candidate_of_pick (fun i hi => candidate_of_mem_s0c hi) h
    · exact absurd (Option.some.inj h) (by omega)
  · split at h
    · exact candidate_of_pick (fun i hi => candidate_of_mem_s0c hi) h
    · split at h
      · exact candidate_of_pick (fun i hi => candidate_of_mem_s2c hi) h
      · exact absurd (Option.some.inj h) (by omega)

/-- **What `determine_BCH` takes from the table is a candidate.** -/
theorem candidate_of_determineBch
    (h : determineBch p s strict draw = some ((c : ℤ), s.testmodeInitFlag)) :
    bchCandidate p strict (s.collectedFi c) = true := by
  unfold determineBch at h
  split at h
  · obtain ⟨k, hk, heq⟩ := Option.map_eq_some_iff.mp h
    obtain ⟨rfl, -⟩ := Prod.mk.inj heq
    exact candidate_of_pick (fun i hi => candidate_of_mem_s01c hi) hk
  · split at h
    · -- the fixed slot is the one result that clears the flag
      rename_i htest
      obtain ⟨-, hflag⟩ := Prod.mk.inj (Option.some.inj h)
      simp [choosesTestSlot, ← hflag] at htest
    · obtain ⟨k, hk, heq⟩ := Option.map_eq_some_iff.mp h
      obtain ⟨rfl, -⟩ := Prod.mk.inj heq
      exact candidate_of_chooseBch hk

theorem FullyHeard.not_offers {b : ℕ} (h : FullyHeard p b (s.collectedFi c)) (hg : b ≠ p.globalSti) :
    ¬ Offers p s c := by
  rintro ⟨strict, draw, hoffer⟩
  have hcand := candidate_of_determineBch hoffer
  simp [bchCandidate, h.busy, h.sti, hg] at hcand

end candidates

/-! ### The law -/

/-- **The refresh law of the ns-2 node**: for every table and every entry of a direct or two-hop neighbour, or in
the first stage of its timeout, the FI in which the occupier claims its slot makes the entry that of a direct
neighbour with a full life time and takes it out of the offers of `determine_BCH`, exactly if the timeout has not
yet cleared `busy`. -/
theorem refresh_law_iff (p : Params) (s : Node) (fi : FrameInfo) (b c : ℕ) (hg : b ≠ p.globalSti)
    (he : (s.collectedFi c).sti = b) (hlocker : (s.collectedFi c).locker = false)
    (hstate : (s.collectedFi c).busy = .oneHop ∨ (s.collectedFi c).busy = .twoHop ∨
      (s.collectedFi c).busy = .free)
    (hfi : ClaimedBy b c fi) :
    (FullyHeard p b ((mergeFi p s fi).collectedFi c) ∧ ¬ Offers p (mergeFi p s fi) c) ↔
      (s.collectedFi c).busy ≠ .free := by
  refine ⟨fun ⟨hheard, _⟩ hfree => ?_, fun hbusy => ?_⟩
  · have hend := hheard.busy
    rw [mergeFi_timedOut hg he hfree hfi, hfree] at hend
    cases hend
  · have hheard : FullyHeard p b ((mergeFi p s fi).collectedFi c) := by
      refine mergeFi_refreshed hg he hlocker ?_ hfi
      rcases hstate with h | h | h
      · exact .inl h
      · exact .inr h
      · exact absurd h hbusy
    exact ⟨hheard, hheard.not_offers hg⟩

/-- A node that has recorded station 2 as a two-hop neighbour in slot 3. -/
def farNode : Node :=
  { construct halvingParams ⟨0, 0, 0, 0⟩ with collectedFi := Table.single 3 .twoHop 2 }

/-- The FI of station 2 that claims slot 3. -/
def slotThreeFi : FrameInfo := ⟨2, 4, 4, Table.single 3 .oneHop 2⟩

/-- Station 2 comes within one hop. -/
theorem refresh_law_two_hop : ((farNode.collectedFi 3).busy = .twoHop ∧ ClaimedBy 2 3 slotThreeFi) ∧
    FullyHeard halvingParams 2 ((mergeFi halvingParams farNode slotThreeFi).collectedFi 3) ∧
      ¬ Offers halvingParams (mergeFi halvingParams farNode slotThreeFi) 3 := by
  have hfi : ClaimedBy 2 3 slotThreeFi := ⟨rfl, by decide, rfl, rfl⟩
  refine ⟨⟨rfl, hfi⟩, ?_⟩
  exact (refresh_law_iff halvingParams farNode slotThreeFi 2 3 (by decide) rfl rfl (.inr (.inl rfl)) hfi).mpr
    (by decide)

/-- A working node that has heard station 2 in slot 3 a frame ago, at the first stage of the timeout. -/
def timedOutNode : Node :=
  ageFrame halvingParams { construct halvingParams ⟨0, 0, 0, 0⟩ with
    nodeState := .workFi
    testmodeInitFlag := false
    collectedFi := (Table.single 3 .oneHop 2).modify 3 fun e => { e with lifeTime := 3 } }

/-- The FI of station 2 comes in the frame in which its entry times out: the entry stays free, and
`determine_BCH` offers the slot of station 2. -/
theorem timed_out_not_refreshed :
    ¬ ∀ (p : Params) (s : Node) (fi : FrameInfo) (b c : ℕ), b ≠ p.globalSti → (s.collectedFi c).sti = b →
      (s.collectedFi c).locker = false →
      ((s.collectedFi c).busy = .oneHop ∨ (s.collectedFi c).busy = .twoHop ∨ (s.collectedFi c).busy = .free) →
      ClaimedBy b c fi →
      FullyHeard p b ((mergeFi p s fi).collectedFi c) ∧ ¬ Offers p (mergeFi p s fi) c := by
  intro h
  have hoffer : determineBch halvingParams (mergeFi halvingParams timedOutNode slotThreeFi) true 3
      = some (3, false) := by decide +kernel
  obtain ⟨-, hnot⟩ := h halvingParams timedOutNode slotThreeFi 2 3 (by decide) (by decide +kernel)
    (by decide +kernel) (.inr (.inr (by decide +kernel))) ⟨rfl, by decide, rfl, rfl⟩
  exact hnot ⟨true, 3, hoffer⟩

end VanetTdma.Ns2
