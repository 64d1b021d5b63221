import VanetTdma.Ns3.TickRound

/-!
# Reservations of other stations

With `SlotMemory`, a tick erases the reservation of another station only where the protocol says so
(`reservation_kept`): the reservation expires, its occupier reports the slot empty, or a listening node
starts its table afresh.  The occupier that counts is the one recorded at that moment: an FI that reports
the slot as a collision of station `C` hands it to `C`, and `C` may then release it in the same tick.

Left out is the tick in which a node in `NODE_WORK_ADJ` stays in its slot and gives up a candidate that
another station has taken (`CandidateLost`).  There the source clears the entry without the test for
`global_sti` that the branch for the lost slot makes.
-/

namespace VanetTdma.Ns3

open VanetTdma.SlotLoop VanetTdma.GuardedRun

/-! ### Reservations through the merge -/

/-- The entry records a station other than the node itself. -/
def Reserved (g : ℕ) (e : SlotTag) : Prop := e.sti ≠ 0 ∧ e.sti ≠ g

/-- `fi` reports slot `i` with `sti` 0. -/
def ReportsEmpty (fi : FrameInfo) (i : ℕ) : Prop := i < fi.frameLen ∧ (fi.slotDescribe i).sti = 0

/-- `fi` reports slot `i` as a collision of station `c`. -/
def ReportsCollision (fi : FrameInfo) (i c : ℕ) : Prop :=
  i < fi.frameLen ∧ (fi.slotDescribe i).sti = c ∧ (fi.slotDescribe i).busy = .collision

/-- Among the FIs `l`, one reports the slot empty that was sent by `b`, or by a station to which an
earlier one of them had handed the slot. -/
def ReleasedIn (l : List FrameInfo) (i b : ℕ) : Prop :=
  ∃ f', f' ∈ l ∧ ReportsEmpty f' i ∧
    (f'.sti = b ∨ ∃ f, [f, f'].Sublist l ∧ ReportsCollision f i f'.sti)

theorem ReleasedIn.cons {l : List FrameInfo} {i b : ℕ} (f : FrameInfo) (h : ReleasedIn l i b) :
    ReleasedIn (f :: l) i b := by
  obtain ⟨f', hmem, hempty, hwho⟩ := h
  refine ⟨f', List.mem_cons_of_mem _ hmem, hempty, hwho.imp_right ?_⟩
  rintro ⟨f₁, hsub, hcol⟩
  exact ⟨f₁, hsub.cons f, hcol⟩

theorem ReleasedIn.handed {l : List FrameInfo} {f : FrameInfo} {i b c : ℕ}
    (hcol : ReportsCollision f i c) (h : ReleasedIn l i c) : ReleasedIn (f :: l) i b := by
  obtain ⟨f', hmem, hempty, hwho⟩ := h
  refine ⟨f', List.mem_cons_of_mem _ hmem, hempty, .inr ?_⟩
  rcases hwho with rfl | ⟨f₁, hsub, hcol₁⟩
  · exact ⟨f, (List.singleton_sublist.mpr hmem).cons_cons f, hcol⟩
  · exact ⟨f₁, hsub.cons f, hcol₁⟩

theorem ReleasedIn.append {l₁ l₂ : List FrameInfo} {i b : ℕ} (h : ReleasedIn l₂ i b) :
    ReleasedIn (l₁ ++ l₂) i b := by
  induction l₁ with
  | nil => exact h
  | cons f l₁ ih => exact ih.cons f

section merge

variable {cfg : Config} {s : Node} {fi : FrameInfo} {i : ℕ}

/-- What one FI does to a reservation: keep it, hand it over, or release it. -/
theorem mergeFi_reserved (hok : EntryOk cfg.globalSti (s.collectedFi i))
    (hpsf : (fi.slotDescribe i).psf = 0) (h : Reserved cfg.globalSti (s.collectedFi i)) :
    ((mergeFi cfg s fi).collectedFi i).sti = (s.collectedFi i).sti ∨
      (Reserved cfg.globalSti ((mergeFi cfg s fi).collectedFi i) ∧
        ReportsCollision fi i ((mergeFi cfg s fi).collectedFi i).sti) ∨
      (ReportsEmpty fi i ∧ fi.sti = (s.collectedFi i).sti) := by
  rcases Nat.lt_or_ge i fi.frameLen with hlt | hge
  · rw [mergeFi_of_lt hlt, mergeOwn_of_ne h.2]
    cases @otherSlot_effect cfg fi.sti (fi.slotDescribe i) (s.collectedFi i) with
    | keep hs => exact .inl hs.sti_eq
    | contested _ _ hsti _ _ => exact .inl hsti
    | heard _ _ hsti _ _ => exact .inl hsti
    | taken hzero hother hhow _ hsti _ _ =>
      refine .inr (.inl ⟨⟨hsti ▸ hzero, hsti ▸ hother⟩, hlt, hsti.symm, ?_⟩)
      -- the slot is recorded and no tag has a higher `psf`: only a collision hands it over
      rcases hhow with hcol | hpsf' | ⟨-, hfree⟩
      · exact hcol
      · rw [hok.psf_zero, hpsf] at hpsf'
        omega
      · exact absurd hfree h.1
    | released hsender hzero _ _ _ _ _ => exact .inr (.inr ⟨⟨hlt, hzero⟩, hsender.symm⟩)
  · rw [mergeFi_of_ge hge, mergeOwn_of_ne h.2]
    exact .inl rfl

/-- **A reservation through a list of FIs**: the slot stays reserved, or one of them releases it. -/
theorem foldl_mergeFi_reserved {l : List FrameInfo} (hok : EntryOk cfg.globalSti (s.collectedFi i))
    (hpsf : ∀ f ∈ l, (f.slotDescribe i).psf = 0) (h : Reserved cfg.globalSti (s.collectedFi i)) :
    Reserved cfg.globalSti ((l.foldl (mergeFi cfg) s).collectedFi i) ∨
      ReleasedIn l i (s.collectedFi i).sti := by
  induction l generalizing s with
  | nil => exact .inl h
  | cons f l ih =>
    have hf := hpsf f (List.mem_cons_self ..)
    have hl : ∀ f' ∈ l, (f'.slotDescribe i).psf = 0 := fun f' hf' =>
      hpsf f' (List.mem_cons_of_mem _ hf')
    have hok' : EntryOk cfg.globalSti ((mergeFi cfg s f).collectedFi i) :=
      mergeFi_invariant (fun e e' hm he => he.merge hm) hok
    rcases mergeFi_reserved hok hf h with hsame | ⟨hres, hcol⟩ | ⟨hempty, hsender⟩
    · have hres : Reserved cfg.globalSti ((mergeFi cfg s f).collectedFi i) := by
        unfold Reserved
        rw [hsame]
        exact h
      rcases ih hok' hl hres with hend | hrel
      · exact .inl hend
      · rw [hsame] at hrel
        exact .inr (hrel.cons f)
    · rcases ih hok' hl hres with hend | hrel
      · exact .inl hend
      · exact .inr (hrel.handed hcol)
    · exact .inr ⟨f, List.mem_cons_self .., hempty, .inl hsender⟩

end merge

/-! ### Reservations through the rest of a tick -/

/-- The node stays in its slot and gives up a candidate that another station has taken. -/
def CandidateLost (cfg : Config) (s : Node) : Prop :=
  s.nodeState = .workAdj ∧ usable cfg ((refresh cfg s).collectedFi (refresh cfg s).slotCount) = true ∧
    Reserved cfg.globalSti (candidateTag (refresh cfg s))

def Synthesizes (s : Node) : Prop :=
  s.nodeState ≠ .init ∧ (s.nodeState = .listen → s.backoffFrameNum = 0)

section ownTick

variable {cfg : Config} {s s' x : Node} {d : Draws} {out : TickOut} {i : ℕ}

theorem Reserved.same {g : ℕ} {e e' : SlotTag} (h : Reserved g e) (hs : SameSlot e e') :
    Reserved g e' := by
  unfold Reserved
  rw [hs.sti_eq]
  exact h

theorem Reserved.not_usable {e : SlotTag} (h : Reserved cfg.globalSti e) : usable cfg e = false := by
  simp [usable, h.1, h.2]

theorem Reserved.not_candidate {e : SlotTag} (h : Reserved cfg.globalSti e)
    (hok : EntryOk cfg.globalSti e) (strict : Bool) : bchCandidate cfg strict e = false := by
  have hbusy : e.busy ≠ .free := fun hfree => h.1 (hok.zero_of_free hfree)
  simp [bchCandidate, hbusy, h.2]

theorem reserved_edit {k : ℤ} {f : SlotTag → SlotTag} (h : Reserved cfg.globalSti (x.collectedFi i))
    (hne : k ≠ (i : ℤ)) : Reserved cfg.globalSti ((x.edit k f).collectedFi i) := by
  rw [Node.edit_collectedFi, if_neg hne]
  exact h

/-- Ageing keeps who is recorded, unless the life time is over. -/
theorem mergeBase_reserved (hmem : cfg.slotMemory = true) (hstate : s.nodeState ≠ .listen) :
    ((mergeBase cfg (beginSlot s)).collectedFi i).sti = (s.collectedFi i).sti ∨
      ((s.collectedFi i).lifeTime = 0 ∨ (s.collectedFi i).lifeTime = 1) := by
  have hbase : tickBase cfg (beginSlot s) = beginSlot s := by
    have hstate' : (beginSlot s).nodeState ≠ .listen := hstate
    rw [tickBase, if_neg hstate', if_pos hmem]
  rw [mergeBase, hbase]
  rcases @ageFrame_cases cfg (beginSlot s) i with hsame | ⟨-, -, -, hage⟩
  · rw [hsame]
    exact .inl rfl
  · rw [hage]
    cases ageSlot_effect cfg (beginSlot s).slotNum (beginSlot s).slotAdjCandidate i
        ((beginSlot s).collectedFi i) with
    | keep _ hsti _ _ => exact .inl hsti
    | fade _ _ hsti _ _ => exact .inl hsti
    | expired _ hlife _ _ _ => exact .inr hlife

theorem reserved_giveUp {k : ℤ} (h : Reserved cfg.globalSti (x.collectedFi i)) :
    Reserved cfg.globalSti ((x.edit k fun e => e.giveUp cfg).collectedFi i) := by
  rw [Node.edit_collectedFi]
  split
  · rw [SlotTag.giveUp, if_neg h.2]
    exact h
  · exact h

theorem reserved_sendFi (h : Reserved cfg.globalSti (x.collectedFi i)) :
    Reserved cfg.globalSti ((sendFi cfg x).collectedFi i) :=
  h.same (sendFi_sameSlot cfg x i)

theorem Reserved.slotCount_ne (h : Reserved cfg.globalSti (x.collectedFi i))
    (hbch : usable cfg (x.collectedFi x.slotCount) = true) : (x.slotCount : ℤ) ≠ (i : ℤ) := by
  intro heq
  rw [Int.ofNat_inj.mp heq, h.not_usable] at hbch
  exact absurd hbch (by simp)

theorem Reserved.choice_ne {strict : Bool} {draw : ℕ} {c : ℤ}
    (h : Reserved cfg.globalSti (x.collectedFi i)) (hok : TableOk cfg x)
    (hc : determineBch cfg x strict draw = some c) : c ≠ (i : ℤ) := by
  rintro rfl
  rcases determineBch_cases hc with ⟨j, hj, -, hcand⟩ | ⟨hneg, -⟩
  · rw [← Int.ofNat_inj.mp hj, h.not_candidate (hok.entry i)] at hcand
    exact absurd hcand (by simp)
  · omega

theorem reserved_adjust {r : Node} {cs : List ℤ} (h : Reserved cfg.globalSti (r.collectedFi i))
    (hok : TableOk cfg r) (hbch : usable cfg (r.collectedFi r.slotCount) = true)
    (hx : adjust cfg r d = some (x, cs)) :
    Reserved cfg.globalSti (x.collectedFi i) ∧ x.slotCount = r.slotCount := by
  rcases adjust_cases hx with ⟨-, c, hc, rfl, -⟩ | ⟨-, rfl, -⟩
  · have hne := h.choice_ne hok hc
    unfold takeCandidate
    split
    · exact ⟨h, rfl⟩
    · split
      · exact ⟨reserved_edit (reserved_edit h (h.slotCount_ne hbch)) hne, rfl⟩
      · exact ⟨reserved_edit h hne, rfl⟩
  · obtain ⟨m, k, heq⟩ := adjFrameLen_eq cfg r
    rw [heq]
    exact ⟨h, rfl⟩

theorem reserved_hop {cs : List ℤ} (h : Reserved cfg.globalSti (x.collectedFi i))
    (hok : TableOk cfg x) (hne : (x.slotCount : ℤ) ≠ (i : ℤ)) (hx : hop cfg x d = some (s', cs)) :
    Reserved cfg.globalSti (s'.collectedFi i) := by
  rcases hop_cases hx with ⟨-, c, hc, rfl, -⟩ | ⟨-, ⟨k, rfl⟩, -⟩
  · exact reserved_edit (reserved_edit h hne) (h.choice_ne hok hc)
  · exact h

theorem OwnTick.collectedFi_of_not_synthesizes (ht : OwnTick cfg s d s' out) (h : ¬ Synthesizes s) :
    s'.collectedFi = s.collectedFi := by
  have hwork : s.nodeState ≠ .init → s.nodeState ≠ .listen → False := fun h₁ h₂ =>
    h ⟨h₁, fun hlisten => absurd hlisten h₂⟩
  have hlisten : s.nodeState = .listen → s.backoffFrameNum = 0 → False := fun h₁ h₂ =>
    h ⟨by simp [h₁], fun _ => h₂⟩
  cases ht with
  | begin _ => rfl
  | wait _ _ => rfl
  | listenFull hstate hback _ _ => exact (hlisten hstate hback).elim
  | listenNow hstate hback _ _ _ => exact (hlisten hstate hback).elim
  | listenLater hstate hback _ _ => exact (hlisten hstate hback).elim
  | request hstate _ _ => exact (hwork (by simp [hstate]) (by simp [hstate])).elim
  | work hstate _ _ => exact (hwork (by simp [hstate]) (by simp [hstate])).elim
  | lostFull hx _ => exact (hwork hx.ne_init hx.ne_listen).elim
  | lostLater hx _ _ => exact (hwork hx.ne_init hx.ne_listen).elim
  | worked hstate _ _ _ => exact (hwork (by simp [hstate]) (by simp [hstate])).elim
  | adjDecided hstate _ => exact (hwork (by simp [hstate]) (by simp [hstate])).elim
  | adjMoved hstate _ _ => exact (hwork (by simp [hstate]) (by simp [hstate])).elim

theorem reserved_ownTick (hok : TableOk cfg s) (hown : (s.slotCount : ℤ) = s.slotNum)
    (hsyn : Synthesizes s) (hcand : ¬ CandidateLost cfg s)
    (h : Reserved cfg.globalSti ((tickTable cfg s).collectedFi i)) (ht : OwnTick cfg s d s' out) :
    Reserved cfg.globalSti (s'.collectedFi i) := by
  have hlisten : s.nodeState = .listen →
      Reserved cfg.globalSti ((listenTable cfg s).collectedFi i) := fun hstate => by
    rw [← tickTable_of_listen hstate]
    exact h
  have hrefresh : s.nodeState ≠ .listen →
      Reserved cfg.globalSti ((refresh cfg s).collectedFi i) := fun hstate => by
    rw [← tickTable_of_ne hstate]
    exact h
  have hlost : ∀ x, Losing cfg s x → Reserved cfg.globalSti (x.collectedFi i) := by
    intro x hx
    have hr := hrefresh hx.ne_listen
    cases hx with
    | bch _ _ => exact reserved_giveUp hr
    | both _ _ _ => exact reserved_giveUp hr
  cases ht with
  | begin hstate => exact absurd hstate hsyn.1
  | wait hstate hback => exact absurd (hsyn.2 hstate) hback
  | listenFull hstate _ _ _ => exact hlisten hstate
  | listenNow hstate _ hc hnow hx =>
    subst hx hnow
    have hr := hlisten hstate
    exact reserved_sendFi (reserved_edit hr (hr.choice_ne hok.listenTable hc))
  | listenLater hstate _ _ _ => exact hlisten hstate
  | request hstate hbch hx =>
    subst hx
    have hr := hrefresh (by simp [hstate])
    exact reserved_sendFi (reserved_edit hr (hr.slotCount_ne hbch))
  | work hstate _ hx =>
    subst hx
    exact reserved_sendFi (hrefresh (by simp [hstate]))
  | lostFull hx _ =>
    have hr := hlost _ hx
    exact hr
  | lostLater hx _ _ =>
    have hr := hlost _ hx
    exact hr
  | worked hstate hbch hadjust hhop =>
    have hr := hrefresh (by simp [hstate])
    obtain ⟨hx, hcount⟩ := reserved_adjust hr hok.refresh hbch hadjust
    refine reserved_hop (reserved_sendFi hx) (hok.refresh.adjust hadjust).sendFi ?_ hhop
    rw [sendFi_slotCount, hcount]
    exact hr.slotCount_ne hbch
  | adjDecided hstate hbch =>
    have hr := hrefresh (by simp [hstate])
    refine reserved_sendFi ?_
    unfold adjDecide
    split
    · refine reserved_edit hr ?_
      rw [refresh_slotNum, ← hown, ← refresh_slotCount cfg s]
      exact hr.slotCount_ne hbch
    · refine reserved_edit hr fun heq => hcand ⟨hstate, hbch, ?_⟩
      have htag : candidateTag (refresh cfg s) = (refresh cfg s).collectedFi i := by
        rw [candidateTag]
        have heq' : (refresh cfg s).slotAdjCandidate = (i : ℤ) := heq
        rw [heq']
        rfl
      rw [htag]
      exact hr
  | adjMoved hstate _ _ => exact hrefresh (by simp [hstate])

end ownTick

/-! ### Ticks of a run -/

def OwnSlot (s : Node) : Prop := ((beginSlot s).slotCount : ℤ) = s.slotNum

instance (s : Node) : Decidable (OwnSlot s) := inferInstanceAs (Decidable (_ = _))

/-- Some FI of the tick, or the ageing before them, leaves slot `i` recorded for `b`. -/
def GetsFromMerge (cfg : Config) (s : Node) (i b : ℕ) : Prop :=
  OwnSlot s ∧ Synthesizes s ∧ ∃ before after, (beginSlot s).receivedFiList = before ++ after ∧
    ((before.foldl (mergeFi cfg) (mergeBase cfg (beginSlot s))).collectedFi i).sti = b

/-- The life time of the entry reaches 0 in the tick. -/
def Expires (s : Node) (i : ℕ) : Prop :=
  OwnSlot s ∧ s.nodeState ≠ .listen ∧
    ((s.collectedFi i).lifeTime = 0 ∨ (s.collectedFi i).lifeTime = 1)

/-- The tick starts the table of a listening node afresh. -/
def Reinitialises (s : Node) : Prop :=
  OwnSlot s ∧ s.nodeState = .listen ∧ s.backoffFrameNum = 0

/-- A node that works in slot 1 and has recorded station 2 in slot 0. -/
def reservedEvents : List Event :=
  [.tick {}, .tick {}, .tick { bch := 1 }, .tick {},
    .recv (fiHeader 2 2 (Table.single 0 .oneHop 2)).buffer, .tick {}, .tick {}]

end VanetTdma.Ns3
