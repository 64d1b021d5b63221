import VanetTdma.Ns3.Reservation

/-!
# A neighbour that is heard in every frame

With `SlotMemory` a tick ages the table before it merges the received FIs, and an entry whose life time ends is
locked against these very FIs.  The entry of a direct neighbour that is heard in every frame and that nobody
disputes is therefore kept if the life time is at least two frames (`neighbour_kept`); with a life time of one
frame the node drops it (`neighbour_dropped`).

* `mergeOneHop_neighbour` — an undisputed tag leaves the neighbour recorded, and the neighbour's own tag makes the
  life time full again;
* `OwnTick.keepsNeighbour` — nothing that a tick writes after the merge touches the entry.
-/

namespace VanetTdma.Ns3

open VanetTdma.SlotLoop VanetTdma.GuardedRun

/-! ### The entry and the FIs -/

/-- The entry records `b` as a direct neighbour. -/
structure Neighbour (b : ℕ) (e : SlotTag) : Prop where
  sti : e.sti = b
  busy : e.busy = .oneHop
  locker : e.locker = false

/-- `fi` claims slot `c` for `b`. -/
def ClaimsFor (fi : FrameInfo) (c b : ℕ) : Prop :=
  c < fi.frameLen ∧ (fi.slotDescribe c).sti = b ∧ (fi.slotDescribe c).busy = .oneHop

/-- `fi` does not dispute that slot `c` is the one of `b`. -/
structure Undisputed (b c : ℕ) (fi : FrameInfo) : Prop where
  /-- The neighbour itself claims the slot. -/
  claimed : fi.sti = b → ClaimsFor fi c b
  /-- No other sender claims it as its own. -/
  unclaimed : fi.sti ≠ b → ¬ ClaimsFor fi c fi.sti
  /-- Nobody reports a collision. -/
  noCollision : c < fi.frameLen → (fi.slotDescribe c).busy ≠ .collision

/-- The FIs of a frame: the neighbour is heard and nobody disputes its slot. -/
def HeardIn (b c : ℕ) (l : List FrameInfo) : Prop :=
  (∃ fi ∈ l, fi.sti = b) ∧ ∀ fi ∈ l, Undisputed b c fi

/-- The guard on the events of a run: every tick in the node's own slot is outside `NODE_LISTEN` and hears the
neighbour. -/
def HeardEveryFrame (b c : ℕ) (s : Node) : Event → Prop
  | .recv _ => True
  | .tick _ => OwnSlot s → s.nodeState ≠ .listen ∧ HeardIn b c (beginSlot s).receivedFiList

instance (fi : FrameInfo) (c b : ℕ) : Decidable (ClaimsFor fi c b) :=
  inferInstanceAs (Decidable (_ ∧ _ ∧ _))

instance (b c : ℕ) (fi : FrameInfo) : Decidable (Undisputed b c fi) :=
  decidable_of_iff ((fi.sti = b → ClaimsFor fi c b) ∧ (fi.sti ≠ b → ¬ ClaimsFor fi c fi.sti) ∧
      (c < fi.frameLen → (fi.slotDescribe c).busy ≠ .collision))
    ⟨fun h => ⟨h.1, h.2.1, h.2.2⟩, fun h => ⟨h.1, h.2, h.3⟩⟩

instance (b c : ℕ) (l : List FrameInfo) : Decidable (HeardIn b c l) :=
  inferInstanceAs (Decidable ((∃ fi ∈ l, fi.sti = b) ∧ ∀ fi ∈ l, Undisputed b c fi))

instance (b c : ℕ) (s : Node) : (ev : Event) → Decidable (HeardEveryFrame b c s ev)
  | .recv _ => isTrue trivial
  | .tick _ => inferInstanceAs
      (Decidable (OwnSlot s → s.nodeState ≠ .listen ∧ HeardIn b c (beginSlot s).receivedFiList))

/-! ### Ageing and merging -/

section merge

variable {cfg : Config} {b c : ℕ} {s : Node} {e : SlotTag} {fi : FrameInfo}

theorem ageSlot_neighbour {slotNum candidate : ℤ} {i : ℕ} (he : Neighbour b e) (hlife : 2 ≤ e.lifeTime) :
    Neighbour b (ageSlot cfg slotNum candidate i e) := by
  have hdrop : e.dropLock = e := if_neg (by simp [he.locker])
  have htick : e.tickLife.lifeTime ≠ 0 := by
    intro hzero
    have := SlotTag.tickLife_eq_zero hzero
    omega
  unfold ageSlot
  rw [hdrop, if_neg htick]
  split
  · exact he
  · exact ⟨by simpa using he.sti, by simpa using he.busy, by simpa using he.locker⟩

/-- **An undisputed tag** leaves the neighbour recorded.  It makes the life time full or is not the neighbour's
own and leaves it alone. -/
theorem mergeOneHop_neighbour (he : Neighbour b e) (hfi : Undisputed b c fi) (hc : c < fi.frameLen) :
    Neighbour b (mergeOneHop cfg fi.sti (fi.slotDescribe c) e) ∧
      ((mergeOneHop cfg fi.sti (fi.slotDescribe c) e).lifeTime = cfg.slotLife ∨
        fi.sti ≠ b ∧ (mergeOneHop cfg fi.sti (fi.slotDescribe c) e).lifeTime = e.lifeTime) := by
  have hown : fi.sti = b → (fi.slotDescribe c).sti = e.sti := fun hb => (hfi.claimed hb).2.1.trans he.sti.symm
  unfold mergeOneHop
  split
  · -- a tag of another station: not sent by the neighbour, nor by the station it names
    rename_i hne
    have hsender : fi.sti ≠ b := fun hb => hne.1 (hown hb).symm
    split
    · rename_i hone
      have hnot : (fi.slotDescribe c).sti ≠ fi.sti := fun h => hfi.unclaimed hsender ⟨hc, h, hone⟩
      rw [if_neg hnot]
      exact ⟨⟨he.sti, he.busy, he.locker⟩, .inr ⟨hsender, rfl⟩⟩
    · exact ⟨⟨he.sti, he.busy, he.locker⟩, .inr ⟨hsender, rfl⟩⟩
    · rename_i hcol
      exact absurd hcol (hfi.noCollision hc)
    · exact ⟨he, .inr ⟨hsender, rfl⟩⟩
  · split
    · rename_i hsame
      split
      · split
        · split
          · exact ⟨⟨he.sti, he.busy, he.locker⟩, .inl rfl⟩
          · exact ⟨⟨he.sti, he.busy, he.locker⟩, .inl rfl⟩
        · -- the report of a third station
          rename_i hthird
          have hsender : fi.sti ≠ b := fun hb => hthird ((hfi.claimed hb).2.1.trans hb.symm)
          exact ⟨⟨he.sti, he.busy, he.locker⟩, .inr ⟨hsender, rfl⟩⟩
      · rename_i hone
        have hsender : fi.sti ≠ b := fun hb => hone (hfi.claimed hb).2.2
        exact ⟨he, .inr ⟨hsender, rfl⟩⟩
    · rename_i hne
      have hsender : fi.sti ≠ b := fun hb => hne (hown hb).symm
      rw [if_neg (he.sti.symm ▸ hsender)]
      exact ⟨he, .inr ⟨hsender, rfl⟩⟩

theorem mergeFi_neighbour (hg : b ≠ cfg.globalSti) (he : Neighbour b (s.collectedFi c))
    (hfi : Undisputed b c fi) :
    Neighbour b ((mergeFi cfg s fi).collectedFi c) ∧
      (((mergeFi cfg s fi).collectedFi c).lifeTime = cfg.slotLife ∨
        fi.sti ≠ b ∧ ((mergeFi cfg s fi).collectedFi c).lifeTime = (s.collectedFi c).lifeTime) := by
  have hother : (s.collectedFi c).sti ≠ cfg.globalSti := he.sti.symm ▸ hg
  rcases Nat.lt_or_ge c fi.frameLen with hlt | hge
  · rw [mergeFi_of_lt hlt, mergeOwn_of_ne hother]
    by_cases hskip : skipped cfg (fi.slotDescribe c) (s.collectedFi c) = true
    · -- only a tag that names the node itself is passed over
      rw [otherSlot_of_skipped hskip]
      refine ⟨he, .inr ⟨fun hb => ?_, rfl⟩⟩
      simp [skipped, he.locker, he.sti, hg, (hfi.claimed hb).2.1] at hskip
    · rw [otherSlot, if_neg hskip, if_pos he.busy]
      exact mergeOneHop_neighbour he hfi hlt
  · rw [mergeFi_of_ge hge, mergeOwn_of_ne hother]
    refine ⟨he, .inr ⟨fun hb => ?_, rfl⟩⟩
    exact absurd (hfi.claimed hb).1 (Nat.not_lt.mpr hge)

theorem foldl_mergeFi_neighbour (hg : b ≠ cfg.globalSti) {l : List FrameInfo}
    (hl : ∀ fi ∈ l, Undisputed b c fi) (he : Neighbour b (s.collectedFi c)) :
    Neighbour b ((l.foldl (mergeFi cfg) s).collectedFi c) ∧
      ((s.collectedFi c).lifeTime = cfg.slotLife →
        ((l.foldl (mergeFi cfg) s).collectedFi c).lifeTime = cfg.slotLife) := by
  induction l generalizing s with
  | nil => exact ⟨he, id⟩
  | cons fi l ih =>
    obtain ⟨hstep, hlife⟩ := mergeFi_neighbour hg he (hl fi (List.mem_cons_self ..))
    obtain ⟨hend, hfull⟩ := ih (fun f hf => hl f (List.mem_cons_of_mem _ hf)) hstep
    refine ⟨hend, fun hs => hfull ?_⟩
    rcases hlife with h | ⟨-, h⟩
    · exact h
    · exact h.trans hs

/-- **The FIs of a frame** refresh the entry of a neighbour that is heard. -/
theorem foldl_mergeFi_refreshed (hg : b ≠ cfg.globalSti) {l : List FrameInfo} (hl : HeardIn b c l)
    (he : Neighbour b (s.collectedFi c)) :
    Neighbour b ((l.foldl (mergeFi cfg) s).collectedFi c) ∧
      ((l.foldl (mergeFi cfg) s).collectedFi c).lifeTime = cfg.slotLife := by
  obtain ⟨⟨fi, hmem, hb⟩, hall⟩ := hl
  -- the FIs before the neighbour's own, this one, and those after it
  obtain ⟨before, after, rfl⟩ := List.append_of_mem hmem
  rw [List.foldl_append, List.foldl_cons]
  have hbefore := foldl_mergeFi_neighbour hg
    (fun f hf => hall f (List.mem_append_left _ hf)) he
  obtain ⟨hfi, hlife⟩ := mergeFi_neighbour hg hbefore.1 (hall fi hmem)
  have hafter := foldl_mergeFi_neighbour hg
    (fun f hf => hall f (List.mem_append_right _ (List.mem_cons_of_mem _ hf))) hfi
  refine ⟨hafter.1, hafter.2 ?_⟩
  rcases hlife with h | ⟨hne, -⟩
  · exact h
  · exact absurd hb hne

end merge

/-! ### A tick -/

/-- The entry records `b` and has been refreshed. -/
def Refreshed (cfg : Config) (b c : ℕ) (s : Node) : Prop :=
  Neighbour b (s.collectedFi c) ∧ (s.collectedFi c).lifeTime = cfg.slotLife

/-- The entry is refreshed, and the slot is neither the node's own nor the one it is about to move to. -/
structure KeepsNeighbour (cfg : Config) (b c : ℕ) (s : Node) : Prop where
  refreshed : Refreshed cfg b c s
  slotNum_ne : s.slotNum ≠ c
  candidate_ne : s.nodeState = .workAdj → s.slotAdjCandidate ≠ c

section tick

variable {cfg : Config} {b c : ℕ} {s x s' : Node} {d : Draws} {out : TickOut}

theorem Refreshed.refresh (hmem : cfg.slotMemory = true) (hlife : 2 ≤ cfg.slotLife) (hg : b ≠ cfg.globalSti)
    (hl : HeardIn b c s.receivedFiList) (h : Refreshed cfg b c s) : Refreshed cfg b c (refresh cfg s) := by
  have haged : Neighbour b ((ageFrame cfg s).collectedFi c) := by
    rcases @ageFrame_cases cfg s c with hsame | ⟨-, -, -, hage⟩
    · rw [hsame]
      exact h.1
    · rw [hage]
      exact ageSlot_neighbour h.1 (by rw [h.2]; exact_mod_cast hlife)
  have hlist : (ageFrame cfg s).receivedFiList = s.receivedFiList := by
    obtain ⟨t, ht⟩ := @ageFrame_eq cfg s
    rw [ht]
  have hmerged : Refreshed cfg b c (mergeList cfg (ageFrame cfg s)) := by
    unfold mergeList
    rw [hlist]
    exact foldl_mergeFi_refreshed hg hl haged
  unfold VanetTdma.Ns3.refresh
  rw [if_pos hmem]
  unfold Refreshed
  rcases @synthesizeFiList_cases cfg s c with heq | heq
  · rw [heq]
    exact hmerged
  · have hunlock : unlockSlot ((mergeList cfg (ageFrame cfg s)).collectedFi c)
        = (mergeList cfg (ageFrame cfg s)).collectedFi c := if_neg (by simp [hmerged.1.locker])
    rw [heq, hunlock]
    exact hmerged

theorem Refreshed.edit {k : ℤ} {f : SlotTag → SlotTag} (h : Refreshed cfg b c x) (hne : k ≠ c) :
    Refreshed cfg b c (x.edit k f) := by
  unfold Refreshed
  rw [Node.edit_collectedFi, if_neg hne]
  exact h

theorem Refreshed.giveUp {k : ℤ} (h : Refreshed cfg b c x) (hg : b ≠ cfg.globalSti) :
    Refreshed cfg b c (x.edit k fun e => e.giveUp cfg) := by
  unfold Refreshed
  rw [Node.edit_collectedFi]
  split
  · rw [SlotTag.giveUp, if_neg (h.1.sti.symm ▸ hg)]
    exact h
  · exact h

theorem Refreshed.sendFi (h : Refreshed cfg b c x) : Refreshed cfg b c (sendFi cfg x) := by
  have hs := sendFi_sameSlot cfg x c
  refine ⟨⟨hs.sti_eq.trans h.1.sti, hs.busy_eq.trans h.1.busy, hs.locker_eq.trans h.1.locker⟩, ?_⟩
  rcases Nat.lt_or_ge c x.mFrameLen with hlt | hge
  · have heq : (VanetTdma.Ns3.sendFi cfg x).collectedFi c = clearCounts cfg.globalSti (x.collectedFi c) :=
      if_pos hlt
    rw [heq]
    unfold clearCounts
    split <;> exact h.2
  · have heq : (VanetTdma.Ns3.sendFi cfg x).collectedFi c = x.collectedFi c :=
      if_neg (Nat.not_lt.mpr hge)
    rw [heq]
    exact h.2

theorem Refreshed.choice_ne {strict : Bool} {draw : ℕ} {k : ℤ} (h : Refreshed cfg b c x)
    (hg : b ≠ cfg.globalSti) (hk : determineBch cfg x strict draw = some k) : k ≠ c := by
  rintro rfl
  rcases determineBch_cases hk with ⟨j, hj, -, hcand⟩ | ⟨hneg, -⟩
  · rw [← Int.ofNat_inj.mp hj] at hcand
    simp [bchCandidate, h.1.busy, h.1.sti, hg] at hcand
  · omega

theorem KeepsNeighbour.adjust {cs : List ℤ} (h : KeepsNeighbour cfg b c x) (hg : b ≠ cfg.globalSti)
    (hown : (x.slotCount : ℤ) ≠ c) (hs : adjust cfg x d = some (s, cs)) :
    KeepsNeighbour cfg b c s ∧ s.slotCount = x.slotCount := by
  rcases adjust_cases hs with ⟨-, k, hk, rfl, -⟩ | ⟨-, rfl, -⟩
  · have hne := h.refreshed.choice_ne hg hk
    unfold takeCandidate
    split
    · exact ⟨⟨h.refreshed, h.slotNum_ne, fun _ => hne⟩, rfl⟩
    · split
      · exact ⟨⟨(h.refreshed.edit hown).edit hne, hne, fun _ => hne⟩, rfl⟩
      · exact ⟨⟨h.refreshed.edit hne, h.slotNum_ne, fun _ => hne⟩, rfl⟩
  · obtain ⟨m, k, heq⟩ := adjFrameLen_eq cfg x
    rw [heq]
    exact ⟨⟨h.refreshed, h.slotNum_ne, h.candidate_ne⟩, rfl⟩

theorem KeepsNeighbour.hop {cs : List ℤ} (h : KeepsNeighbour cfg b c x) (hg : b ≠ cfg.globalSti)
    (hown : (x.slotCount : ℤ) ≠ c) (hs : hop cfg x d = some (s', cs)) : KeepsNeighbour cfg b c s' := by
  rcases hop_cases hs with ⟨-, k, hk, rfl, -⟩ | ⟨-, ⟨k, rfl⟩, -⟩
  · have hne := h.refreshed.choice_ne hg hk
    exact ⟨(h.refreshed.edit hown).edit hne, hne, h.candidate_ne⟩
  · exact ⟨h.refreshed, h.slotNum_ne, h.candidate_ne⟩

theorem KeepsNeighbour.adjDecide (h : KeepsNeighbour cfg b c x) (hcand : x.slotAdjCandidate ≠ c) :
    KeepsNeighbour cfg b c (adjDecide cfg x) := by
  unfold VanetTdma.Ns3.adjDecide
  split
  · exact ⟨h.refreshed.edit h.slotNum_ne, hcand, fun _ => hcand⟩
  · exact ⟨h.refreshed.edit hcand, h.slotNum_ne, fun _ => hcand⟩

/-- **A tick in the node's own slot keeps the neighbour.** -/
theorem OwnTick.keepsNeighbour (hmem : cfg.slotMemory = true) (hlife : 2 ≤ cfg.slotLife)
    (hg : b ≠ cfg.globalSti) (hown : (s.slotCount : ℤ) = s.slotNum) (hlisten : s.nodeState ≠ .listen)
    (hl : HeardIn b c s.receivedFiList) (h : KeepsNeighbour cfg b c s) (ht : OwnTick cfg s d s' out) :
    KeepsNeighbour cfg b c s' := by
  have hfresh : Refreshed cfg b c (refresh cfg s) := h.refreshed.refresh hmem hlife hg hl
  have hnum : (refresh cfg s).slotNum ≠ c := by
    rw [refresh_slotNum]
    exact h.slotNum_ne
  have hcount : ((refresh cfg s).slotCount : ℤ) ≠ c := by
    rw [refresh_slotCount, hown]
    exact h.slotNum_ne
  have hcand : s.nodeState = .workAdj → (refresh cfg s).slotAdjCandidate ≠ c := by
    rw [refresh_slotAdjCandidate]
    exact h.candidate_ne
  have hkeeps : KeepsNeighbour cfg b c (refresh cfg s) :=
    ⟨hfresh, hnum, by rw [refresh_nodeState]; exact hcand⟩
  have hlosing : ∀ {x}, Losing cfg s x → Refreshed cfg b c x ∧ (x.slotCount : ℤ) ≠ c := by
    intro x hx
    cases hx with
    | bch _ _ => exact ⟨hfresh.giveUp hg, hcount⟩
    | both _ _ _ => exact ⟨hfresh.giveUp hg, hcount⟩
  cases ht with
  | begin _ => exact ⟨h.refreshed, h.slotNum_ne, nofun⟩
  | wait hstate _ => exact absurd hstate hlisten
  | listenFull hstate _ _ _ => exact absurd hstate hlisten
  | listenNow hstate _ _ _ _ => exact absurd hstate hlisten
  | listenLater hstate _ _ _ => exact absurd hstate hlisten
  | request _ _ hx =>
    subst hx
    have hsent := (hfresh.edit (f := fun e => e.claim cfg) hcount).sendFi
    exact ⟨hsent, hnum, nofun⟩
  | work _ _ hx =>
    subst hx
    have hsent : Refreshed cfg b c (sendFi cfg { refresh cfg s with nodeState := .workFi }) :=
      Refreshed.sendFi hfresh
    exact ⟨hsent, hnum, nofun⟩
  | lostFull hx _ =>
    obtain ⟨hlost, hne⟩ := hlosing hx
    exact ⟨hlost, hne, nofun⟩
  | lostLater hx hk _ =>
    obtain ⟨hlost, -⟩ := hlosing hx
    exact ⟨hlost, hlost.choice_ne hg hk, nofun⟩
  | worked _ _ hadjust hhop =>
    obtain ⟨hx, hsame⟩ := hkeeps.adjust hg hcount hadjust
    have hsent : KeepsNeighbour cfg b c (sendFi cfg _) :=
      ⟨hx.refreshed.sendFi, hx.slotNum_ne, hx.candidate_ne⟩
    refine hsent.hop hg ?_ hhop
    rw [sendFi_slotCount, hsame]
    exact hcount
  | adjDecided hstate _ =>
    have hx := hkeeps.adjDecide (hcand hstate)
    exact ⟨hx.refreshed.sendFi, hx.slotNum_ne, hx.candidate_ne⟩
  | adjMoved hstate _ _ => exact ⟨hfresh, hcand hstate, nofun⟩

end tick

/-! ### Runs -/

/-- **A neighbour heard in every frame is never dropped** if the life time is at least two frames: in every run,
from any node that has recorded it in a slot that is neither its own nor the candidate it is about to decide on,
in which every tick of the own slot hears the neighbour and no FI disputes the slot. -/
theorem neighbour_kept (cfg : Config) (b c : ℕ) (s₀ s : Node) (hmem : cfg.slotMemory = true)
    (hlife : 2 ≤ cfg.slotLife) (hother : b ≠ cfg.globalSti) (hnum : s₀.slotNum ≠ c)
    (hentry : Neighbour b (s₀.collectedFi c)) (hfull : (s₀.collectedFi c).lifeTime = cfg.slotLife)
    (hcand : s₀.nodeState = .workAdj → s₀.slotAdjCandidate ≠ c)
    (hrun : Reach (step cfg) (HeardEveryFrame b c) s₀ s) :
    (s.collectedFi c).sti = b ∧ (s.collectedFi c).busy = .oneHop := by
  have hkeeps : KeepsNeighbour cfg b c s := by
    refine Reach.invariant hrun ⟨⟨hentry, hfull⟩, hnum, hcand⟩ fun s ev t h hok hstep => ?_
    cases ev with
    | recv buffer =>
      simp only [step, Option.some.injEq] at hstep
      subst hstep
      exact ⟨h.refreshed, h.slotNum_ne, h.candidate_ne⟩
    | tick d =>
      simp only [step, Option.map_eq_some_iff] at hstep
      obtain ⟨⟨s', out⟩, hs', rfl⟩ := hstep
      have hbegin : KeepsNeighbour cfg b c (beginSlot s) := ⟨h.refreshed, h.slotNum_ne, h.candidate_ne⟩
      rcases slotHandler_cases hs' with ⟨rfl, -, -⟩ | ⟨hown, ht⟩
      · exact hbegin
      · obtain ⟨hlisten, hl⟩ := hok hown
        exact ht.keepsNeighbour hmem hlife hother hown hlisten hl hbegin
  exact ⟨hkeeps.refreshed.1.sti, hkeeps.refreshed.1.busy⟩

/-- A frame in which the node works in slot 1 and hears station 2 claim slot 0 and report slot 1. -/
def heardFrame : List Event :=
  [.recv (fiHeader 2 2 fun i => { busy := .oneHop, sti := if i = 0 then 2 else 1 }).buffer, .tick {}, .tick {}]

/-- Two frames after which station 2 is still recorded. -/
theorem neighbour_kept_two_frames :
    ∃ s₀ s, Run pairCfg ⟨0, 0, false, 0⟩ s₀ ∧ Reach (step pairCfg) (HeardEveryFrame 2 0) s₀ s ∧
      s.totalSlotCount = s₀.totalSlotCount + 4 ∧
      (s.collectedFi 0).sti = 2 ∧ (s.collectedFi 0).busy = .oneHop := by
  have hobs : (runEvents pairCfg ⟨0, 0, false, 0⟩ reservedEvents).bind
      (fun s₀ => (runList (step pairCfg) (fun s ev => decide (HeardEveryFrame 2 0 s ev)) s₀
        (heardFrame ++ heardFrame)).map fun s =>
          (s₀.slotNum, s₀.nodeState, s₀.collectedFi 0, s.totalSlotCount - s₀.totalSlotCount))
      = some (1, .workFi, { busy := .oneHop, sti := 2, lifeTime := 3 }, 4) := by decide +kernel
  obtain ⟨s₀, hs₀, hobs⟩ := Option.bind_eq_some_iff.mp hobs
  obtain ⟨s, hs, hobs⟩ := Option.map_eq_some_iff.mp hobs
  simp only [Prod.mk.injEq] at hobs
  obtain ⟨hnum, hstate, htag, htotal⟩ := hobs
  have hrun : Reach (step pairCfg) (HeardEveryFrame 2 0) s₀ s :=
    reach_of_runList (fun _ _ h => of_decide_eq_true h) hs
  refine ⟨s₀, s, run_of_runEvents hs₀, hrun, by omega, ?_⟩
  refine neighbour_kept pairCfg 2 0 s₀ s rfl (by decide) (by decide) (by rw [hnum]; decide) ?_ ?_ ?_ hrun
  · rw [htag]
    exact ⟨rfl, rfl, rfl⟩
  · rw [htag]
    rfl
  · rw [hstate]
    exact nofun

/-- The same node with a life time of one frame. -/
def briefCfg : Config := { pairCfg with slotLife := 1, slotLife_le := by decide }

/-- With a life time of one frame the entry expires and is locked before the FI of station 2 is merged. -/
theorem neighbour_dropped :
    ¬ ∀ (cfg : Config) (u : Uninit) (b c : ℕ) (s₀ s : Node), cfg.slotMemory = true → 1 ≤ cfg.slotLife →
      Run cfg u s₀ → b ≠ cfg.globalSti → s₀.slotNum ≠ c → Neighbour b (s₀.collectedFi c) →
      (s₀.collectedFi c).lifeTime = cfg.slotLife → Reach (step cfg) (HeardEveryFrame b c) s₀ s →
      (s.collectedFi c).sti = b ∧ (s.collectedFi c).busy = .oneHop := by
  intro h
  have hobs : (runEvents briefCfg ⟨0, 0, false, 0⟩ reservedEvents).bind
      (fun s₀ => (runList (step briefCfg) (fun s ev => decide (HeardEveryFrame 2 0 s ev)) s₀
        heardFrame).map fun s => (s₀.slotNum, s₀.collectedFi 0, (s.collectedFi 0).sti))
      = some (1, { busy := .oneHop, sti := 2, lifeTime := 1 }, 0) := by decide +kernel
  obtain ⟨s₀, hs₀, hobs⟩ := Option.bind_eq_some_iff.mp hobs
  obtain ⟨s, hs, hobs⟩ := Option.map_eq_some_iff.mp hobs
  simp only [Prod.mk.injEq] at hobs
  obtain ⟨hnum, htag, hzero⟩ := hobs
  have hrun : Reach (step briefCfg) (HeardEveryFrame 2 0) s₀ s :=
    reach_of_runList (fun _ _ h => of_decide_eq_true h) hs
  have hend := h briefCfg _ 2 0 s₀ s rfl (by decide) (run_of_runEvents hs₀) (by decide)
    (by rw [hnum]; decide) (by rw [htag]; exact ⟨rfl, rfl, rfl⟩) (by rw [htag]; rfl) hrun
  exact absurd (hzero.symm.trans hend.1) (by decide)

end VanetTdma.Ns3
