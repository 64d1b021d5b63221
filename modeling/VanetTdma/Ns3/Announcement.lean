import VanetTdma.Ns3.SlotIndex

/-!
# The packets of a node announce its slot

A run is logged with the packets it sends (`logStep`).  `log_announcesOwn` says that every packet carries,
at the index of the slot in use, the claim of the node for that slot.  It holds in every run whose ticks
meet `SendSafe`: the test for a usable slot also accepts an entry that records nobody, and only
`NODE_WAIT_REQUEST` claims the slot before it sends.  The condition excludes that the slot about to be used
records nobody after the round (its occupier had taken it over and released it again), and that an
adjustment ends on the slot that is being given up.
-/

namespace VanetTdma.Ns3

open VanetTdma.SlotLoop VanetTdma.GuardedRun

/-! ### Logged runs -/

/-- One event, with the packets sent so far. -/
def logStep (cfg : Config) (p : Node × List Node) : Event → Option (Node × List Node)
  | .recv buffer => some (recvFi cfg p.1 buffer, p.2)
  | .tick d => (slotHandler cfg p.1 d).map fun r => (r.1, p.2 ++ r.2.sent.toList)

/-- The logged runs from `Start` whose steps all meet `ok`. -/
def LogWhere (cfg : Config) (ok : Node → Event → Prop) (u : Uninit) : Node × List Node → Prop :=
  Reach (logStep cfg) (fun p => ok p.1) (start cfg u, [])

/-- The packet built on node `x` claims the slot that `x` uses. -/
def AnnouncesOwn (cfg : Config) (x : Node) : Prop :=
  ∃ i : ℕ, x.slotNum = (i : ℤ) ∧ i < x.mFrameLen ∧
    (x.collectedFi i).sti = cfg.globalSti ∧ (x.collectedFi i).busy = .oneHop

/-- The ticks that send from a slot the node still holds. -/
def SendSafe (cfg : Config) (s : Node) : Event → Prop
  | .recv _ => True
  | .tick _ =>
    ((beginSlot s).slotCount : ℤ) = s.slotNum →
      let r := refresh cfg (beginSlot s)
      (s.nodeState = .request ∨ s.nodeState = .workFi → (r.collectedFi r.slotCount).sti ≠ 0) ∧
      (s.nodeState = .workAdj → usable cfg (r.collectedFi r.slotCount) = true →
        if adjWins cfg r then (candidateTag r).sti ≠ 0 ∧ r.slotNum ≠ r.slotAdjCandidate
        else (r.collectedFi r.slotCount).sti ≠ 0)

/-! ### One tick -/

section ownTick

variable {cfg : Config} {s s' x : Node} {d : Draws} {out : TickOut}

theorem usable_own {e : SlotTag} (h : usable cfg e = true) (hsti : e.sti ≠ 0) :
    e.sti = cfg.globalSti ∧ e.busy = .oneHop := by
  simp only [usable, decide_eq_true_eq] at h
  exact h.resolve_right hsti

theorem announcesOwn_of_slotCount (hown : (x.slotCount : ℤ) = x.slotNum)
    (hlt : x.slotCount < x.mFrameLen)
    (hentry : (x.collectedFi x.slotCount).sti = cfg.globalSti ∧
      (x.collectedFi x.slotCount).busy = .oneHop) : AnnouncesOwn cfg x :=
  ⟨x.slotCount, hown.symm, hlt, hentry.1, hentry.2⟩

theorem announcesOwn_claim (hown : (x.slotCount : ℤ) = x.slotNum) (hlt : x.slotCount < x.mFrameLen) :
    AnnouncesOwn cfg (x.edit x.slotCount fun e => e.claim cfg) := by
  refine ⟨x.slotCount, hown.symm, hlt, ?_⟩
  rw [Node.edit_collectedFi, if_pos rfl]
  exact ⟨rfl, rfl⟩

theorem announcesOwn_adjust {r : Node} {cs : List ℤ} (hown : (r.slotCount : ℤ) = r.slotNum)
    (hlt : r.slotCount < r.mFrameLen)
    (hentry : (r.collectedFi r.slotCount).sti = cfg.globalSti ∧
      (r.collectedFi r.slotCount).busy = .oneHop)
    (hx : adjust cfg r d = some (x, cs)) : AnnouncesOwn cfg x := by
  rcases adjust_cases hx with ⟨-, c, hc, rfl, -⟩ | ⟨-, rfl, -⟩
  · have hclt := determineBch_lt hc
    unfold takeCandidate
    split
    · exact ⟨r.slotCount, hown.symm, hlt, hentry⟩
    · rename_i hneg
      split
      · -- the node moves to `c` at once
        have hcast : c = ((c.toNat : ℕ) : ℤ) := (Int.toNat_of_nonneg (not_lt.mp hneg)).symm
        refine ⟨c.toNat, hcast, by simp; omega, ?_⟩
        rw [Node.edit_collectedFi, if_pos hcast]
        exact ⟨rfl, rfl⟩
      · refine ⟨r.slotCount, hown.symm, hlt, ?_⟩
        rw [Node.edit_collectedFi]
        split
        · exact ⟨rfl, rfl⟩
        · exact hentry
  · have hcut := @slotCount_lt_adjFrameLen cfg r hlt (.inl (by simp [hentry.2]))
    obtain ⟨m, k, heq⟩ := adjFrameLen_eq cfg r
    rw [heq] at hcut ⊢
    exact ⟨r.slotCount, hown.symm, hcut, hentry⟩

theorem announcesOwn_adjDecide {r : Node} (hown : (r.slotCount : ℤ) = r.slotNum)
    (hlt : r.slotCount < r.mFrameLen)
    (hcand : 0 ≤ r.slotAdjCandidate ∧ r.slotAdjCandidate < r.mFrameLen)
    (hbch : usable cfg (r.collectedFi r.slotCount) = true)
    (hsafe : if adjWins cfg r then (candidateTag r).sti ≠ 0 ∧ r.slotNum ≠ r.slotAdjCandidate
      else (r.collectedFi r.slotCount).sti ≠ 0) : AnnouncesOwn cfg (adjDecide cfg r) := by
  have hcast : r.slotAdjCandidate = ((r.slotAdjCandidate.toNat : ℕ) : ℤ) :=
    (Int.toNat_of_nonneg hcand.1).symm
  unfold adjDecide
  by_cases hwins : adjWins cfg r = true
  · rw [if_pos hwins] at hsafe ⊢
    have husable : usable cfg (candidateTag r) = true := by
      simp only [adjWins, decide_eq_true_eq] at hwins
      exact hwins.2
    refine ⟨r.slotAdjCandidate.toNat, hcast, by simp; omega, ?_⟩
    rw [Node.edit_collectedFi, if_neg (by rw [← hcast]; exact hsafe.2)]
    exact usable_own husable hsafe.1
  · rw [if_neg hwins] at hsafe ⊢
    -- a candidate equal to the slot in use would have won
    have hne : r.slotAdjCandidate ≠ (r.slotCount : ℤ) := by
      intro heq
      refine hwins ?_
      have htag : candidateTag r = r.collectedFi r.slotCount := by rw [candidateTag, heq]; rfl
      simp only [adjWins, htag, decide_eq_true_eq]
      exact ⟨Nat.le_refl _, hbch⟩
    refine ⟨r.slotCount, hown.symm, hlt, ?_⟩
    rw [Node.edit_collectedFi, if_neg hne]
    exact usable_own hbch hsafe

theorem announcesOwn_ownTick (hframe : FrameOk s) (hlt : s.slotCount < s.mFrameLen)
    (hown : (s.slotCount : ℤ) = s.slotNum)
    (hheld : s.nodeState = .request ∨ s.nodeState = .workFi →
      ((refresh cfg s).collectedFi (refresh cfg s).slotCount).sti ≠ 0)
    (hadj : s.nodeState = .workAdj →
      usable cfg ((refresh cfg s).collectedFi (refresh cfg s).slotCount) = true →
      if adjWins cfg (refresh cfg s) then (candidateTag (refresh cfg s)).sti ≠ 0 ∧
        (refresh cfg s).slotNum ≠ (refresh cfg s).slotAdjCandidate
      else ((refresh cfg s).collectedFi (refresh cfg s).slotCount).sti ≠ 0)
    (ht : OwnTick cfg s d s' out) : ∀ x, out.sent = some x → AnnouncesOwn cfg x := by
  have hlisten := le_listenTable_mFrameLen cfg s
  have hrefresh := le_refresh_mFrameLen cfg s
  have hcount := refresh_slotCount cfg s
  have hown' : ((refresh cfg s).slotCount : ℤ) = (refresh cfg s).slotNum := by
    rw [hcount, refresh_slotNum]
    exact hown
  intro y hy
  cases ht with
  | begin _ => simp at hy
  | wait _ _ => simp at hy
  | listenFull _ _ _ _ => simp at hy
  | listenNow _ _ _ hnow hx =>
    obtain rfl := Option.some.inj hy
    subst hx hnow
    have hlen : (listenTable cfg s).slotCount < (listenTable cfg s).mFrameLen := by
      rw [listenTable_slotCount]
      omega
    exact announcesOwn_claim rfl hlen
  | listenLater _ _ _ _ => simp at hy
  | request _ _ hx =>
    obtain rfl := Option.some.inj hy
    subst hx
    exact announcesOwn_claim hown' (by omega)
  | work hstate hbch hx =>
    obtain rfl := Option.some.inj hy
    subst hx
    exact announcesOwn_of_slotCount hown' (by simp; omega) (usable_own hbch (hheld (.inl hstate)))
  | lostFull _ _ => simp at hy
  | lostLater _ _ _ => simp at hy
  | worked hstate hbch hadjust _ =>
    obtain rfl := Option.some.inj hy
    exact announcesOwn_adjust hown' (by omega) (usable_own hbch (hheld (.inr hstate))) hadjust
  | adjDecided hstate hbch =>
    obtain rfl := Option.some.inj hy
    obtain ⟨hcand, hcandlt⟩ := hframe.candidate hstate
    refine announcesOwn_adjDecide hown' (by omega) ?_ hbch (hadj hstate hbch)
    rw [refresh_slotAdjCandidate]
    exact ⟨hcand, by omega⟩
  | adjMoved _ _ _ => simp at hy

end ownTick

/-! ### Runs -/

/-- What holds of a logged run: the frame is in order and every packet announces its slot. -/
structure LogOk (cfg : Config) (p : Node × List Node) : Prop where
  frame : FrameOk p.1
  sent : ∀ x ∈ p.2, AnnouncesOwn cfg x

theorem logOk_logStep {cfg : Config} {p q : Node × List Node} {i : Event} (hp : LogOk cfg p)
    (hok : SendSafe cfg p.1 i) (hstep : logStep cfg p i = some q) : LogOk cfg q := by
  cases i with
  | recv buffer =>
    simp only [logStep, Option.some.injEq] at hstep
    subst hstep
    exact ⟨⟨hp.frame.pos, hp.frame.candidate⟩, hp.sent⟩
  | tick d =>
    simp only [logStep, Option.map_eq_some_iff] at hstep
    obtain ⟨⟨s', out⟩, htick, rfl⟩ := hstep
    have hbegin : FrameOk (beginSlot p.1) := ⟨hp.frame.pos, hp.frame.candidate⟩
    rcases slotHandler_cases htick with ⟨rfl, rfl, -⟩ | ⟨hown, ht⟩
    · exact ⟨hbegin, fun x hx => hp.sent x (by simpa using hx)⟩
    · refine ⟨frameOk_ownTick hbegin ht, fun x hx => ?_⟩
      rcases List.mem_append.mp hx with hold | hnew
      · exact hp.sent x hold
      · obtain ⟨hheld, hadj⟩ := hok hown
        exact announcesOwn_ownTick hbegin (Nat.mod_lt _ hp.frame.pos) hown hheld hadj ht x
          (Option.mem_toList.mp hnew)

end VanetTdma.Ns3
