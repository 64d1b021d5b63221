import VanetTdma.Ns3.SlotHandler

/-!
# What a tick can do

`OwnTick` lists the outcomes of a tick in the node's own slot, one constructor for each way through the
`switch` of `slotHandler`; `ownTick_cases` proves the list complete.  The invariants of the node are case
analyses on it and never unfold `slotHandler` again.

`slotHandler_cases` and `RunWhere.invariant` lift this to whole ticks and to runs.
-/

namespace VanetTdma.Ns3

open VanetTdma.SlotLoop VanetTdma.GuardedRun

/-! ### Fields that an operation leaves alone -/

/-- The counters of slots and the list of received FIs are the same. -/
structure SameClock (s s' : Node) : Prop where
  total_eq : s'.totalSlotCount = s.totalSlotCount
  slotCount_eq : s'.slotCount = s.slotCount
  received_eq : s'.receivedFiList = s.receivedFiList

section fields

variable (cfg : Config) (s : Node)

theorem Node.edit_collectedFi (i : ℤ) (f : SlotTag → SlotTag) (j : ℕ) :
    (s.edit i f).collectedFi j = if i = (j : ℤ) then f (s.collectedFi j) else s.collectedFi j :=
  Table.modify_apply ..

@[simp] theorem Node.edit_slotNum (i : ℤ) (f : SlotTag → SlotTag) : (s.edit i f).slotNum = s.slotNum :=
  rfl

@[simp] theorem Node.edit_slotCount (i : ℤ) (f : SlotTag → SlotTag) :
    (s.edit i f).slotCount = s.slotCount := rfl

@[simp] theorem Node.edit_slotAdjCandidate (i : ℤ) (f : SlotTag → SlotTag) :
    (s.edit i f).slotAdjCandidate = s.slotAdjCandidate := rfl

@[simp] theorem Node.edit_mFrameLen (i : ℤ) (f : SlotTag → SlotTag) :
    (s.edit i f).mFrameLen = s.mFrameLen := rfl

@[simp] theorem Node.edit_nodeState (i : ℤ) (f : SlotTag → SlotTag) :
    (s.edit i f).nodeState = s.nodeState := rfl

@[simp] theorem Node.edit_receivedFiList (i : ℤ) (f : SlotTag → SlotTag) :
    (s.edit i f).receivedFiList = s.receivedFiList := rfl

@[simp] theorem sendFi_slotNum : (sendFi cfg s).slotNum = s.slotNum := rfl
@[simp] theorem sendFi_slotCount : (sendFi cfg s).slotCount = s.slotCount := rfl
@[simp] theorem sendFi_slotAdjCandidate : (sendFi cfg s).slotAdjCandidate = s.slotAdjCandidate := rfl
@[simp] theorem sendFi_mFrameLen : (sendFi cfg s).mFrameLen = s.mFrameLen := rfl
@[simp] theorem sendFi_nodeState : (sendFi cfg s).nodeState = s.nodeState := rfl
@[simp] theorem sendFi_receivedFiList : (sendFi cfg s).receivedFiList = s.receivedFiList := rfl

theorem clearCounts_sameSlot (g : ℕ) (e : SlotTag) : SameSlot e (clearCounts g e) := by
  unfold clearCounts
  split
  · exact ⟨rfl, rfl, rfl, rfl⟩
  · exact ⟨rfl, rfl, rfl, rfl⟩

theorem sendFi_sameSlot (j : ℕ) : SameSlot (s.collectedFi j) ((sendFi cfg s).collectedFi j) := by
  rcases Nat.lt_or_ge j s.mFrameLen with hlt | hge
  · have h : (sendFi cfg s).collectedFi j = clearCounts cfg.globalSti (s.collectedFi j) :=
      if_pos hlt
    rw [h]
    exact clearCounts_sameSlot _ _
  · have h : (sendFi cfg s).collectedFi j = s.collectedFi j := if_neg (Nat.not_lt.mpr hge)
    rw [h]
    exact ⟨rfl, rfl, rfl, rfl⟩

theorem refresh_eq :
    ∃ t m, s.mFrameLen ≤ m ∧ refresh cfg s = { s with collectedFi := t, mFrameLen := m } := by
  unfold refresh
  split
  · exact synthesizeFiList_eq
  · obtain ⟨t, m, hm, h⟩ := @synthesizeFiList_eq cfg (clearOthersSlotStatus cfg s)
    exact ⟨t, m, hm, h⟩

theorem listenTable_eq :
    ∃ t m, s.mFrameLen ≤ m ∧ listenTable cfg s = { s with collectedFi := t, mFrameLen := m } := by
  obtain ⟨t, m, hm, h⟩ := @synthesizeFiList_eq cfg { s with collectedFi := Table.blank }
  exact ⟨t, m, hm, h⟩

@[simp] theorem refresh_slotNum : (refresh cfg s).slotNum = s.slotNum := by
  obtain ⟨t, m, -, h⟩ := refresh_eq cfg s
  rw [h]

@[simp] theorem refresh_slotCount : (refresh cfg s).slotCount = s.slotCount := by
  obtain ⟨t, m, -, h⟩ := refresh_eq cfg s
  rw [h]

@[simp] theorem refresh_slotAdjCandidate : (refresh cfg s).slotAdjCandidate = s.slotAdjCandidate := by
  obtain ⟨t, m, -, h⟩ := refresh_eq cfg s
  rw [h]

@[simp] theorem refresh_nodeState : (refresh cfg s).nodeState = s.nodeState := by
  obtain ⟨t, m, -, h⟩ := refresh_eq cfg s
  rw [h]

theorem refresh_sameClock : SameClock s (refresh cfg s) := by
  obtain ⟨t, m, -, h⟩ := refresh_eq cfg s
  rw [h]
  exact ⟨rfl, rfl, rfl⟩

theorem le_refresh_mFrameLen : s.mFrameLen ≤ (refresh cfg s).mFrameLen := by
  obtain ⟨t, m, hm, h⟩ := refresh_eq cfg s
  rw [h]
  exact hm

@[simp] theorem listenTable_slotCount : (listenTable cfg s).slotCount = s.slotCount := by
  obtain ⟨t, m, -, h⟩ := listenTable_eq cfg s
  rw [h]

theorem listenTable_sameClock : SameClock s (listenTable cfg s) := by
  obtain ⟨t, m, -, h⟩ := listenTable_eq cfg s
  rw [h]
  exact ⟨rfl, rfl, rfl⟩

theorem le_listenTable_mFrameLen : s.mFrameLen ≤ (listenTable cfg s).mFrameLen := by
  obtain ⟨t, m, hm, h⟩ := listenTable_eq cfg s
  rw [h]
  exact hm

end fields

/-! ### The outcomes -/

/-- The state in which a lost slot makes the node choose again: its own claim given up, or in
`NODE_WORK_ADJ` the one on the candidate. -/
inductive Losing (cfg : Config) (s : Node) : Node → Prop
  | bch (hstate : s.nodeState = .waitRequest ∨ s.nodeState = .request ∨ s.nodeState = .workFi)
      (hbch : usable cfg ((refresh cfg s).collectedFi (refresh cfg s).slotCount) = false) :
      Losing cfg s ((refresh cfg s).edit (refresh cfg s).slotCount fun e => e.giveUp cfg)
  | both (hstate : s.nodeState = .workAdj)
      (hbch : usable cfg ((refresh cfg s).collectedFi (refresh cfg s).slotCount) = false)
      (hadj : usable cfg (candidateTag (refresh cfg s)) = false) :
      Losing cfg s ((refresh cfg s).edit (refresh cfg s).slotAdjCandidate fun e => e.giveUp cfg)

/-- The outcomes of a tick in the node's own slot. -/
inductive OwnTick (cfg : Config) (s : Node) (d : Draws) : Node → TickOut → Prop
  | begin (hstate : s.nodeState = .init) : OwnTick cfg s d (tickInit s).1 {}
  | wait (hstate : s.nodeState = .listen) (hback : s.backoffFrameNum ≠ 0) :
      OwnTick cfg s d { s with backoffFrameNum := s.backoffFrameNum - 1 } {}
  | listenFull {c : ℤ} (hstate : s.nodeState = .listen) (hback : s.backoffFrameNum = 0)
      (hc : determineBch cfg (listenTable cfg s) false d.bch = some c) (hneg : c < 0) :
      OwnTick cfg s d (backOff (listenTable cfg s) d) { chosen := [c] }
  | listenNow {c : ℤ} {x : Node} (hstate : s.nodeState = .listen) (hback : s.backoffFrameNum = 0)
      (hc : determineBch cfg (listenTable cfg s) false d.bch = some c)
      (hnow : c = (listenTable cfg s).slotCount)
      (hx : x = { listenTable cfg s with slotNum := c }.edit (listenTable cfg s).slotCount
        fun e => e.claim cfg) :
      OwnTick cfg s d { sendFi cfg x with nodeState := .request } { sent := some x, chosen := [c] }
  | listenLater {c : ℤ} (hstate : s.nodeState = .listen) (hback : s.backoffFrameNum = 0)
      (hc : determineBch cfg (listenTable cfg s) false d.bch = some c) (hpos : 0 ≤ c) :
      OwnTick cfg s d { listenTable cfg s with slotNum := c, nodeState := .waitRequest }
        { chosen := [c] }
  | request {x : Node} (hstate : s.nodeState = .waitRequest)
      (hbch : usable cfg ((refresh cfg s).collectedFi (refresh cfg s).slotCount) = true)
      (hx : x = (refresh cfg s).edit (refresh cfg s).slotCount fun e => e.claim cfg) :
      OwnTick cfg s d { sendFi cfg x with nodeState := .request } { sent := some x }
  | work {x : Node} (hstate : s.nodeState = .request)
      (hbch : usable cfg ((refresh cfg s).collectedFi (refresh cfg s).slotCount) = true)
      (hx : x = { refresh cfg s with nodeState := .workFi }) :
      OwnTick cfg s d (sendFi cfg x) { sent := some x }
  | lostFull {c : ℤ} {x : Node} (hx : Losing cfg s x)
      (hc : determineBch cfg x false d.bch = some c) :
      OwnTick cfg s d (backOff x d) { chosen := [c] }
  | lostLater {c : ℤ} {x : Node} (hx : Losing cfg s x)
      (hc : determineBch cfg x false d.bch = some c) (hpos : 0 ≤ c) :
      OwnTick cfg s d { x with slotNum := c, nodeState := .waitRequest } { chosen := [c] }
  | worked {x s' : Node} {cs cs' : List ℤ} (hstate : s.nodeState = .workFi)
      (hbch : usable cfg ((refresh cfg s).collectedFi (refresh cfg s).slotCount) = true)
      (hadjust : adjust cfg (refresh cfg s) d = some (x, cs))
      (hhop : hop cfg (sendFi cfg x) d = some (s', cs')) :
      OwnTick cfg s d s' { sent := some x, chosen := cs ++ cs' }
  | adjDecided (hstate : s.nodeState = .workAdj)
      (hbch : usable cfg ((refresh cfg s).collectedFi (refresh cfg s).slotCount) = true) :
      OwnTick cfg s d (sendFi cfg (adjDecide cfg (refresh cfg s)))
        { sent := some (adjDecide cfg (refresh cfg s)) }
  | adjMoved (hstate : s.nodeState = .workAdj)
      (hbch : usable cfg ((refresh cfg s).collectedFi (refresh cfg s).slotCount) = false)
      (hadj : usable cfg (candidateTag (refresh cfg s)) = true) :
      OwnTick cfg s d
        { refresh cfg s with nodeState := .workFi, slotNum := (refresh cfg s).slotAdjCandidate } {}

section cases

variable {cfg : Config} {s s' : Node} {d : Draws} {out : TickOut}

theorem tickListen_cases (hstate : s.nodeState = .listen)
    (h : tickListen cfg s d = some (s', out)) : OwnTick cfg s d s' out := by
  unfold tickListen at h
  split at h
  · obtain ⟨rfl, rfl⟩ := Prod.mk.inj (Option.some.inj h)
    exact .wait hstate ‹_›
  · rename_i hback
    simp only [Option.map_eq_some_iff] at h
    obtain ⟨c, hc, heq⟩ := h
    split at heq
    · obtain ⟨rfl, rfl⟩ := Prod.mk.inj heq
      exact .listenFull hstate (not_not.mp hback) hc ‹_›
    · split at heq
      · obtain ⟨rfl, rfl⟩ := Prod.mk.inj heq
        exact .listenNow hstate (not_not.mp hback) hc ‹_› rfl
      · obtain ⟨rfl, rfl⟩ := Prod.mk.inj heq
        exact .listenLater hstate (not_not.mp hback) hc (not_lt.mp ‹_›)

theorem chooseAgain_cases {x : Node} (hx : Losing cfg s x)
    (h : chooseAgain cfg x d = some (s', out)) : OwnTick cfg s d s' out := by
  unfold chooseAgain at h
  simp only [Option.map_eq_some_iff] at h
  obtain ⟨c, hc, heq⟩ := h
  split at heq
  · obtain ⟨rfl, rfl⟩ := Prod.mk.inj heq
    exact .lostFull hx hc
  · rename_i hne
    obtain ⟨rfl, rfl⟩ := Prod.mk.inj heq
    exact .lostLater hx hc (not_lt.mp fun hlt => hne (.inl hlt))

theorem tickWaitRequest_cases (hstate : s.nodeState = .waitRequest)
    (h : tickWaitRequest cfg s d = some (s', out)) : OwnTick cfg s d s' out := by
  simp only [tickWaitRequest] at h
  split at h
  · obtain ⟨rfl, rfl⟩ := Prod.mk.inj (Option.some.inj h)
    exact .request hstate ‹_› rfl
  · exact chooseAgain_cases (.bch (.inl hstate) (Bool.eq_false_iff.mpr ‹_›)) h

theorem tickRequest_cases (hstate : s.nodeState = .request)
    (h : tickRequest cfg s d = some (s', out)) : OwnTick cfg s d s' out := by
  simp only [tickRequest] at h
  split at h
  · obtain ⟨rfl, rfl⟩ := Prod.mk.inj (Option.some.inj h)
    exact .work hstate ‹_› rfl
  · exact chooseAgain_cases (.bch (.inr (.inl hstate)) (Bool.eq_false_iff.mpr ‹_›)) h

theorem tickWorkFi_cases (hstate : s.nodeState = .workFi)
    (h : tickWorkFi cfg s d = some (s', out)) : OwnTick cfg s d s' out := by
  simp only [tickWorkFi] at h
  split at h
  · simp only [Option.bind_eq_some_iff, Option.map_eq_some_iff] at h
    obtain ⟨⟨x, cs⟩, hadjust, ⟨y, cs'⟩, hhop, heq⟩ := h
    obtain ⟨rfl, rfl⟩ := Prod.mk.inj heq
    exact .worked hstate ‹_› hadjust hhop
  · exact chooseAgain_cases (.bch (.inr (.inr hstate)) (Bool.eq_false_iff.mpr ‹_›)) h

theorem tickWorkAdj_cases (hstate : s.nodeState = .workAdj)
    (h : tickWorkAdj cfg s d = some (s', out)) : OwnTick cfg s d s' out := by
  simp only [tickWorkAdj] at h
  split at h
  · obtain ⟨rfl, rfl⟩ := Prod.mk.inj (Option.some.inj h)
    exact .adjDecided hstate ‹_›
  · rename_i hbch
    split at h
    · obtain ⟨rfl, rfl⟩ := Prod.mk.inj (Option.some.inj h)
      exact .adjMoved hstate (Bool.eq_false_iff.mpr hbch) ‹_›
    · exact chooseAgain_cases
        (.both hstate (Bool.eq_false_iff.mpr hbch) (Bool.eq_false_iff.mpr ‹_›)) h

/-- **The list of outcomes is complete.** -/
theorem ownTick_cases (h : ownTick cfg s d = some (s', out)) : OwnTick cfg s d s' out := by
  unfold ownTick at h
  split at h
  · rename_i hstate
    obtain ⟨rfl, rfl⟩ := Prod.mk.inj (Option.some.inj h)
    exact .begin hstate
  · exact tickListen_cases ‹_› h
  · exact tickWaitRequest_cases ‹_› h
  · exact tickRequest_cases ‹_› h
  · exact tickWorkFi_cases ‹_› h
  · exact tickWorkAdj_cases ‹_› h

theorem Losing.ne_listen {x : Node} (hx : Losing cfg s x) : s.nodeState ≠ .listen := by
  cases hx with
  | bch hstate _ => rcases hstate with h | h | h <;> simp [h]
  | both hstate _ _ => simp [hstate]

theorem Losing.ne_init {x : Node} (hx : Losing cfg s x) : s.nodeState ≠ .init := by
  cases hx with
  | bch hstate _ => rcases hstate with h | h | h <;> simp [h]
  | both hstate _ _ => simp [hstate]

/-- A tick: nothing happens outside the node's own slot. -/
theorem slotHandler_cases (h : slotHandler cfg s d = some (s', out)) :
    (s' = beginSlot s ∧ out = {} ∧ ((beginSlot s).slotCount : ℤ) ≠ s.slotNum) ∨
      (((beginSlot s).slotCount : ℤ) = s.slotNum ∧ OwnTick cfg (beginSlot s) d s' out) := by
  unfold slotHandler at h
  simp only at h
  split at h
  · split at h
    · rename_i hown
      exact .inr ⟨hown, ownTick_cases h⟩
    · rename_i hown
      obtain ⟨rfl, rfl⟩ := Prod.mk.inj (Option.some.inj h)
      exact .inl ⟨rfl, rfl, hown⟩
  · simp at h

theorem adjust_cases {x : Node} {cs : List ℤ} (h : adjust cfg s d = some (x, cs)) :
    (adjustIsNeeded cfg s s.slotNum = true ∧ ∃ c, determineBch cfg s true d.bch = some c ∧
        x = takeCandidate cfg s c ∧ cs = [c]) ∨
      (adjustIsNeeded cfg s s.slotNum = false ∧ x = adjFrameLen cfg s ∧ cs = []) := by
  unfold adjust at h
  split at h
  · rename_i hneeded
    simp only [Option.map_eq_some_iff] at h
    obtain ⟨c, hc, heq⟩ := h
    obtain ⟨rfl, rfl⟩ := Prod.mk.inj heq
    exact .inl ⟨hneeded, c, hc, rfl, rfl⟩
  · rename_i hneeded
    obtain ⟨rfl, rfl⟩ := Prod.mk.inj (Option.some.inj h)
    exact .inr ⟨Bool.eq_false_iff.mpr hneeded, rfl, rfl⟩

/-- The node after a hop to slot `c`. -/
def hopped (cfg : Config) (s : Node) (c : ℤ) : Node :=
  ({ s with slotNum := c, bchSlotLock := 5 }.edit s.slotCount fun e => e.release true).edit c
    fun e => e.claim cfg

theorem hop_cases {cs : List ℤ} (h : hop cfg s d = some (s', cs)) :
    (hops cfg s = true ∧ ∃ c, determineBch cfg s false d.hop = some c ∧
        s' = hopped cfg s c ∧ cs = [c]) ∨
      (hops cfg s = false ∧ (∃ k, s' = { s with bchSlotLock := k }) ∧ cs = []) := by
  unfold hop at h
  split at h
  · rename_i hhops
    simp only [Option.map_eq_some_iff] at h
    obtain ⟨c, hc, heq⟩ := h
    obtain ⟨rfl, rfl⟩ := Prod.mk.inj heq
    exact .inl ⟨hhops, c, hc, rfl, rfl⟩
  · rename_i hhops
    refine .inr ⟨Bool.eq_false_iff.mpr hhops, ?_⟩
    split at h
    · obtain ⟨rfl, rfl⟩ := Prod.mk.inj (Option.some.inj h)
      exact ⟨⟨_, rfl⟩, rfl⟩
    · obtain ⟨rfl, rfl⟩ := Prod.mk.inj (Option.some.inj h)
      exact ⟨⟨_, rfl⟩, rfl⟩

/-- The counters and the received FIs are the same after the `switch`: only `recvFI` and the begin of a
tick change them. -/
theorem OwnTick.sameClock (ht : OwnTick cfg s d s' out) : SameClock s s' := by
  have hrefresh := refresh_sameClock cfg s
  have hlisten := listenTable_sameClock cfg s
  cases ht with
  | begin _ => exact ⟨rfl, rfl, rfl⟩
  | wait _ _ => exact ⟨rfl, rfl, rfl⟩
  | listenFull _ _ _ _ => exact ⟨hlisten.1, hlisten.2, hlisten.3⟩
  | listenNow _ _ _ _ hx =>
    subst hx
    exact ⟨hlisten.1, hlisten.2, hlisten.3⟩
  | listenLater _ _ _ _ => exact ⟨hlisten.1, hlisten.2, hlisten.3⟩
  | request _ _ hx =>
    subst hx
    exact ⟨hrefresh.1, hrefresh.2, hrefresh.3⟩
  | work _ _ hx =>
    subst hx
    exact ⟨hrefresh.1, hrefresh.2, hrefresh.3⟩
  | lostFull hx _ => cases hx <;> exact ⟨hrefresh.1, hrefresh.2, hrefresh.3⟩
  | lostLater hx _ _ => cases hx <;> exact ⟨hrefresh.1, hrefresh.2, hrefresh.3⟩
  | @worked x _ _ _ _ _ hadjust hhop =>
    have hx : SameClock s x := by
      rcases adjust_cases hadjust with ⟨-, c, -, rfl, -⟩ | ⟨-, rfl, -⟩
      · unfold takeCandidate
        split
        · exact ⟨hrefresh.1, hrefresh.2, hrefresh.3⟩
        · split <;> exact ⟨hrefresh.1, hrefresh.2, hrefresh.3⟩
      · obtain ⟨m, k, h⟩ := adjFrameLen_eq cfg (refresh cfg s)
        rw [h]
        exact ⟨hrefresh.1, hrefresh.2, hrefresh.3⟩
    rcases hop_cases hhop with ⟨-, c, -, rfl, -⟩ | ⟨-, ⟨k, rfl⟩, -⟩
    · exact ⟨hx.1, hx.2, hx.3⟩
    · exact ⟨hx.1, hx.2, hx.3⟩
  | adjDecided _ _ =>
    unfold adjDecide
    split <;> exact ⟨hrefresh.1, hrefresh.2, hrefresh.3⟩
  | adjMoved _ _ _ => exact ⟨hrefresh.1, hrefresh.2, hrefresh.3⟩

theorem slotHandler_sameClock (h : slotHandler cfg s d = some (s', out)) :
    SameClock (beginSlot s) s' := by
  rcases slotHandler_cases h with ⟨rfl, -, -⟩ | ⟨-, ht⟩
  · exact ⟨rfl, rfl, rfl⟩
  · exact ht.sameClock

end cases

/-! ### Invariants of runs -/

/-- **The invariant rule for the node**: an invariant holds after `Start`, survives receptions and the
counting of slots, and survives every outcome of a tick in the node's own slot. -/
theorem RunWhere.invariant {cfg : Config} {ok : Node → Event → Prop} {u : Uninit} {Inv : Node → Prop}
    {s : Node} (h : RunWhere cfg ok u s) (hstart : Inv (start cfg u))
    (hrecv : ∀ s buffer, Inv s → Inv (recvFi cfg s buffer))
    (hbegin : ∀ s, Inv s → Inv (beginSlot s))
    (hown : ∀ s d s' out, Inv (beginSlot s) → ok s (.tick d) →
      ((beginSlot s).slotCount : ℤ) = s.slotNum → OwnTick cfg (beginSlot s) d s' out → Inv s') :
    Inv s := by
  refine Reach.invariant h hstart fun s i t hinv hok hstep => ?_
  cases i with
  | recv buffer =>
    simp only [step, Option.some.injEq] at hstep
    subst hstep
    exact hrecv s buffer hinv
  | tick d =>
    simp only [step, Option.map_eq_some_iff] at hstep
    obtain ⟨⟨s', out⟩, hs', rfl⟩ := hstep
    rcases slotHandler_cases hs' with ⟨rfl, -, -⟩ | ⟨heq, htick⟩
    · exact hbegin s hinv
    · exact hown s d s' out (hbegin s hinv) hok heq htick

end VanetTdma.Ns3
