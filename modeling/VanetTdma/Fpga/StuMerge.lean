import VanetTdma.Fpga.StuTermination
import VanetTdma.Ns3.SlotHandler

/-!
# The slot-table updater refines `merge_fi`

The updater and `merge_fi` of the simulators (the text of the function is the same in ns-2 and ns-3, up to
the names of frame length and slot life) do the same two passes over a table.  `SlotEntry.toTag` reads an
entry of the slot-status memory as an entry of the simulators' table, `FiTag.toTag` a received tag.

* `judge_toTag` — both passes over one slot are the two loop bodies of `merge_fi`;
* `stu_refines_mergeFi` — when it is back in `STU_IDLE`, every entry is the one `merge_fi` computes.
-/

namespace VanetTdma.Fpga

open VanetTdma.Clocked VanetTdma.SlotLoop VanetTdma.Ns3

/-! ### Entries and tags as the simulators have them -/

/-- An entry of the slot-status memory as a `slot_tag`. -/
def SlotEntry.toTag (e : SlotEntry) : SlotTag where
  busy := Busy.ofCode e.busy.toNat
  count2hop := e.count2hop.toNat
  count3hop := e.count3hop.toNat
  lifeTime := e.life.toNat
  existed := e.existed
  sti := e.occupierSid.toNat
  psf := e.psf.toNat
  c3hopFlag := e.c3hopN
  locker := e.locker

/-- A received tag as a `slot_tag`. -/
def FiTag.toTag (t : FiTag) : SlotTag where
  busy := Busy.ofCode t.busy.toNat
  count2hop := t.count.toNat
  sti := t.occupierSid.toNat
  psf := t.psf.toNat

/-- The frame information of a packet, as `recvFI` of a simulator would fill it. -/
def RcvPkt.frameInfo (pkt : RcvPkt) : FrameInfo where
  sti := pkt.senderSid.toNat
  frameLen := 2 ^ pkt.frameLenCode.toNat
  remainTime := 0
  slotDescribe i := (pkt.tag i).toTag

section pure

variable {cfg : Config} {g sender : BitVec 8} {t : FiTag} {e : SlotEntry}

theorem FiTag.busy_cases (t : FiTag) :
    (t.busy = 0 ∧ t.toTag.busy = .free) ∨ (t.busy = 1 ∧ t.toTag.busy = .twoHop) ∨
      (t.busy = 2 ∧ t.toTag.busy = .oneHop) ∨ (t.busy = 3 ∧ t.toTag.busy = .collision) := by
  have key : ∀ b : BitVec 2, (b = 0 ∧ Busy.ofCode b.toNat = .free) ∨
      (b = 1 ∧ Busy.ofCode b.toNat = .twoHop) ∨ (b = 2 ∧ Busy.ofCode b.toNat = .oneHop) ∨
        (b = 3 ∧ Busy.ofCode b.toNat = .collision) := by decide
  exact key t.busy

theorem SlotEntry.busy_cases (e : SlotEntry) :
    (e.busy = 0 ∧ e.toTag.busy = .free) ∨ (e.busy = 1 ∧ e.toTag.busy = .twoHop) ∨
      (e.busy = 2 ∧ e.toTag.busy = .oneHop) ∨ (e.busy = 3 ∧ e.toTag.busy = .collision) := by
  have key : ∀ b : BitVec 2, (b = 0 ∧ Busy.ofCode b.toNat = .free) ∨
      (b = 1 ∧ Busy.ofCode b.toNat = .twoHop) ∨ (b = 2 ∧ Busy.ofCode b.toNat = .oneHop) ∨
        (b = 3 ∧ Busy.ofCode b.toNat = .collision) := by decide
  exact key e.busy

theorem sti_eq_sti : e.toTag.sti = t.toTag.sti ↔ e.occupierSid = t.occupierSid := BitVec.toNat_inj

theorem tag_sti_eq_zero : t.toTag.sti = 0 ↔ t.occupierSid = 0 := BitVec.toNat_inj (y := 0)

theorem tag_sti_eq (x : BitVec 8) : t.toTag.sti = x.toNat ↔ t.occupierSid = x := BitVec.toNat_inj

theorem entry_sti_eq (x : BitVec 8) : e.toTag.sti = x.toNat ↔ e.occupierSid = x := BitVec.toNat_inj

theorem eq_entry_sti (x : BitVec 8) : x.toNat = e.toTag.sti ↔ x = e.occupierSid := BitVec.toNat_inj

/-- The settings of the simulators that the updater is built with. -/
structure SameSetting (cfg : Config) (g : BitVec 8) : Prop where
  globalSti : cfg.globalSti = g.toNat
  slotLife : cfg.slotLife = occupierLifeFrame.toNat

/-- Priorities that are not used, and counters that do not wrap. -/
structure Plain (t : FiTag) (e : SlotEntry) : Prop where
  tagPsf : t.psf = 0
  psf : e.psf = 0
  count2hop : e.count2hop.toNat < 2 ^ 8 - 1
  count3hop : e.count3hop.toNat < 2 ^ 9 - 3

theorem addCount_toNat (h : Plain t e) :
    (addCount e.count3hop t).toNat = e.count3hop.toNat + t.count.toNat := by
  have hlt := h.count3hop
  have htag := t.count.isLt
  simp only [addCount, BitVec.toNat_add, BitVec.toNat_setWidth]
  omega

theorem collided_toTag (hs : SameSetting cfg g) (h : Plain t e) :
    (collided t e).toTag = e.toTag.handTo cfg t.toTag .twoHop 1 1 := by
  simp only [collided, SlotEntry.toTag, SlotTag.handTo, FiTag.toTag, hs.slotLife, h.psf, h.tagPsf]
  rfl

theorem counted_toTag (h : Plain t e) : (counted t e e).toTag = { e.toTag with
    count2hop := e.toTag.count2hop + 1, count3hop := e.toTag.count3hop + t.toTag.count2hop } := by
  have hinc : (e.count2hop + 1).toNat = e.count2hop.toNat + 1 := by
    have hlt := h.count2hop
    simp only [BitVec.toNat_add, BitVec.ofNat_eq_ofNat, BitVec.toNat_ofNat]
    omega
  simp only [counted, SlotEntry.toTag, FiTag.toTag, addCount_toNat h, hinc]

theorem released_toTag (h : Plain t e) : (released e).toTag = e.toTag.vacate := by
  simp only [released, SlotEntry.toTag, SlotTag.vacate, h.psf]
  rfl

theorem count3hop_toTag (h : Plain t e) : { e with count3hop := addCount e.count3hop t }.toTag
    = { e.toTag with count3hop := e.toTag.count3hop + t.toTag.count2hop } := by
  simp only [SlotEntry.toTag, FiTag.toTag, addCount_toNat h]

theorem life_toTag (hs : SameSetting cfg g) (e : SlotEntry) :
    { e with life := occupierLifeFrame }.toTag = { e.toTag with lifeTime := cfg.slotLife } := by
  simp only [SlotEntry.toTag, hs.slotLife]

theorem heard_toTag (hs : SameSetting cfg g) (h : Plain t e) :
    { counted t e e with life := occupierLifeFrame, c3hopN := true }.toTag = { e.toTag with
      lifeTime := cfg.slotLife, count2hop := e.toTag.count2hop + 1,
      count3hop := e.toTag.count3hop + t.toTag.count2hop, c3hopFlag := true } := by
  calc { counted t e e with life := occupierLifeFrame, c3hopN := true }.toTag
      = { (counted t e e).toTag with lifeTime := cfg.slotLife, c3hopFlag := true } := by
        simp only [SlotEntry.toTag, hs.slotLife]
    _ = _ := by rw [counted_toTag h]

theorem Plain.psf_eq (h : Plain t e) :
    ¬ t.psf > e.psf ∧ t.psf = e.psf ∧ ¬ e.toTag.psf < t.toTag.psf ∧ t.toTag.psf = e.toTag.psf := by
  simp only [SlotEntry.toTag, FiTag.toTag, h.psf, h.tagPsf]
  decide

/-! ### The loop bodies -/

theorem fiLoop2_toTag (hs : SameSetting cfg g) (h : Plain t e) (hown : e.occupierSid = g)
    (htag : t.occupierSid ≠ 0) (newNeighbor : Bool) :
    (if t.occupierSid ≠ g ∧ t.occupierSid ≠ 0 then (fiLoop2Other sender t e e).getD e
      else if t.occupierSid = g then (fiLoop2Own t e).getD e else e).toTag
      = ownSlot cfg sender.toNat t.toTag newNeighbor e.toTag := by
  obtain ⟨hgt, heq, hgt', heq'⟩ := h.psf_eq
  have hsti : e.toTag.sti = cfg.globalSti := by
    rw [hs.globalSti]
    exact (entry_sti_eq g).mpr hown
  rw [ownSlot, if_pos hsti]
  by_cases hother : t.occupierSid = g
  · have hsame : e.toTag.sti = t.toTag.sti := sti_eq_sti.mpr (hown.trans hother.symm)
    rw [if_neg (fun hc => hc.1 hother), if_pos hother, if_neg (fun hc => hc.1 hsame), if_pos hsame]
    rcases t.busy_cases with ⟨hb, hb'⟩ | ⟨hb, hb'⟩ | ⟨hb, hb'⟩ | ⟨hb, hb'⟩ <;>
      rw [fiLoop2Own, hb, hb'] <;> rfl
  · have hdiff : e.toTag.sti ≠ t.toTag.sti ∧ t.toTag.sti ≠ 0 := by
      refine ⟨fun hc => hother ?_, fun hc => htag (tag_sti_eq_zero.mp hc)⟩
      rw [← sti_eq_sti.mp hc, hown]
    rw [if_pos ⟨hother, htag⟩, if_pos hdiff]
    rcases t.busy_cases with ⟨hb, hb'⟩ | ⟨hb, hb'⟩ | ⟨hb, hb'⟩ | ⟨hb, hb'⟩
    · rw [fiLoop2Other, hb, hb']
      rfl
    · rw [fiLoop2Other, hb, hb']
      exact count3hop_toTag h
    · simp only [fiLoop2Other, hb, hb', if_true, if_neg hgt, if_neg hgt', if_pos heq, if_pos heq']
      rfl
    · rw [fiLoop2Other, hb, hb']
      exact collided_toTag hs h

theorem other_iff : (e.toTag.sti ≠ t.toTag.sti ∧ t.toTag.sti ≠ 0) ↔
    (e.occupierSid ≠ t.occupierSid ∧ t.occupierSid ≠ 0) := by
  rw [ne_eq, ne_eq, sti_eq_sti, tag_sti_eq_zero]

theorem gone_toTag (h : Plain t e) :
    ((if sender = e.occupierSid then some (released e) else none).getD e).toTag
      = if sender.toNat = e.toTag.sti then e.toTag.vacate else e.toTag := by
  by_cases hgone : sender = e.occupierSid
  · rw [if_pos hgone, if_pos ((eq_entry_sti sender).mpr hgone)]
    exact released_toTag h
  · rw [if_neg hgone, if_neg (fun hc => hgone ((eq_entry_sti sender).mp hc))]
    rfl

theorem fiLoop4OneHop_toTag (hs : SameSetting cfg g) (h : Plain t e) :
    ((fiLoop4OneHop sender t e e).getD e).toTag = mergeOneHop cfg sender.toNat t.toTag e.toTag := by
  obtain ⟨hgt, heq, hgt', heq'⟩ := h.psf_eq
  rw [fiLoop4OneHop, mergeOneHop]
  by_cases hother : e.occupierSid ≠ t.occupierSid ∧ t.occupierSid ≠ 0
  · rw [if_pos hother, if_pos (other_iff.mpr hother)]
    rcases t.busy_cases with ⟨hb, hb'⟩ | ⟨hb, hb'⟩ | ⟨hb, hb'⟩ | ⟨hb, hb'⟩
    · rw [hb, hb']
      rfl
    · rw [hb, hb']
      exact count3hop_toTag h
    · simp only [hb, hb', if_true, tag_sti_eq, if_neg hgt, if_neg hgt', if_pos heq, if_pos heq']
      by_cases hsender : t.occupierSid = sender
      · rw [if_pos hsender, if_pos hsender]
        exact congrArg (fun x : SlotTag => { x with busy := .collision }) (life_toTag hs e)
      · rw [if_neg hsender, if_neg hsender]
        exact counted_toTag h
    · rw [hb, hb']
      exact collided_toTag hs h
  rw [if_neg hother, if_neg (fun hc => hother (other_iff.mp hc))]
  by_cases hsame : e.occupierSid = t.occupierSid
  · rw [if_pos hsame, if_pos (sti_eq_sti.mpr hsame)]
    rcases t.busy_cases with ⟨hb, hb'⟩ | ⟨hb, hb'⟩ | ⟨hb, hb'⟩ | ⟨hb, hb'⟩
    · rw [hb, hb']
      rfl
    · rw [hb, hb']
      rfl
    · simp only [hb, hb', if_true, tag_sti_eq]
      by_cases hsender : t.occupierSid = sender
      · rw [if_pos hsender, if_pos hsender]
        by_cases hc : e.c3hopN = false
        · rw [if_pos hc, if_pos (show e.toTag.c3hopFlag = false from hc)]
          exact heard_toTag hs h
        · rw [if_neg hc, if_neg (show ¬ e.toTag.c3hopFlag = false from hc)]
          exact life_toTag hs e
      · rw [if_neg hsender, if_neg hsender]
        rfl
    · rw [hb, hb']
      rfl
  rw [if_neg hsame, if_neg (fun hc => hsame (sti_eq_sti.mp hc))]
  exact gone_toTag h

theorem fiLoop4TwoHop_toTag (hs : SameSetting cfg g) (h : Plain t e) :
    ((fiLoop4TwoHop sender t e e).getD e).toTag = mergeTwoHop cfg sender.toNat t.toTag e.toTag := by
  rw [fiLoop4TwoHop, mergeTwoHop]
  by_cases hother : e.occupierSid ≠ t.occupierSid ∧ t.occupierSid ≠ 0
  · rw [if_pos hother, if_pos (other_iff.mpr hother)]
    rcases t.busy_cases with ⟨hb, hb'⟩ | ⟨hb, hb'⟩ | ⟨hb, hb'⟩ | ⟨hb, hb'⟩
    · rw [hb, hb']
      rfl
    · rw [hb, hb']
      rfl
    · rw [hb, hb']
      exact counted_toTag h
    · rw [hb, hb']
      exact collided_toTag hs h
  rw [if_neg hother, if_neg (fun hc => hother (other_iff.mp hc))]
  by_cases hsame : e.occupierSid = t.occupierSid
  · rw [if_pos hsame, if_pos (sti_eq_sti.mpr hsame)]
    rcases t.busy_cases with ⟨hb, hb'⟩ | ⟨hb, hb'⟩ | ⟨hb, hb'⟩ | ⟨hb, hb'⟩
    · rw [hb, hb']
      rfl
    · rw [hb, hb']
      rfl
    · simp only [hb, hb', if_true, tag_sti_eq]
      have hheard := heard_toTag hs h
      have hlife := life_toTag hs e
      by_cases hc : e.c3hopN = false
      · have hflag : e.toTag.c3hopFlag = false := hc
        by_cases hsender : t.occupierSid = sender
        · simp only [if_pos hsender, if_pos hc, hflag, if_true]
          exact congrArg (fun x : SlotTag => { x with busy := .oneHop }) hheard
        · simp only [if_neg hsender, if_pos hc, hflag, if_true]
          exact hheard
      · have hflag : ¬ e.toTag.c3hopFlag = false := hc
        by_cases hsender : t.occupierSid = sender
        · simp only [if_pos hsender, if_neg hc, if_neg hflag]
          exact congrArg (fun x : SlotTag => { x with busy := .oneHop }) hlife
        · simp only [if_neg hsender, if_neg hc, if_neg hflag]
          exact hlife
    · rw [hb, hb']
      rfl
  rw [if_neg hsame, if_neg (fun hc => hsame (sti_eq_sti.mp hc))]
  exact gone_toTag h

theorem fiLoop4Free_toTag (hs : SameSetting cfg g) (h : Plain t e) (hfree : e.occupierSid = 0) :
    ((fiLoop4Free sender t e e).getD e).toTag = mergeFree cfg sender.toNat t.toTag e.toTag := by
  rw [fiLoop4Free, mergeFree]
  have hiff : e.toTag.sti ≠ t.toTag.sti ↔ t.occupierSid ≠ 0 := by
    rw [ne_eq, sti_eq_sti, hfree]
    exact not_congr eq_comm
  by_cases htag : t.occupierSid ≠ 0
  · rw [if_pos htag, if_pos (hiff.mpr htag)]
    rcases t.busy_cases with ⟨hb, hb'⟩ | ⟨hb, hb'⟩ | ⟨hb, hb'⟩ | ⟨hb, hb'⟩
    · rw [hb, hb']
      rfl
    · rw [hb, hb']
      exact count3hop_toTag h
    · rw [hb, hb']
      have hcode : Busy.ofCode (if t.occupierSid = sender then (2 : BitVec 2) else 1).toNat
          = hopCode sender.toNat t.toTag := by
        rw [hopCode]
        simp only [tag_sti_eq]
        split <;> rfl
      have hcount : (t.count.setWidth 9).toNat = t.count.toNat := by
        have := t.count.isLt
        simp only [BitVec.toNat_setWidth]
        omega
      simp only [if_true, Option.getD_some, SlotTag.handTo, ← hcode]
      simp only [SlotEntry.toTag, FiTag.toTag, hcount, h.psf, h.tagPsf, hs.slotLife]
      rfl
    · rw [hb, hb']
      exact collided_toTag hs h
  · rw [if_neg htag, if_neg (fun hc => htag (hiff.mp hc))]
    rfl

theorem judge_second_toTag (hs : SameSetting cfg g) (hlock : e.locker = false)
    (h : e.occupierSid = g ∨ Plain t e ∧ (e.busy = 0 ↔ e.occupierSid = 0)) :
    (Bench.judge .second g sender t e).toTag = otherSlot cfg sender.toNat t.toTag e.toTag := by
  have hskip : skipped cfg t.toTag e.toTag = true ↔ e.occupierSid = g ∨ t.occupierSid = g := by
    simp only [skipped, decide_eq_true_eq, hs.globalSti, entry_sti_eq, tag_sti_eq]
    simp [SlotEntry.toTag, hlock]
  simp only [Bench.judge, hlock, Bool.false_eq_true, if_false]
  rw [otherSlot]
  by_cases hown : e.occupierSid = g ∨ t.occupierSid = g
  · rw [if_pos hown, if_pos (hskip.mpr hown)]
  obtain ⟨h, hfree⟩ := h.resolve_left fun hc => hown (.inl hc)
  rw [if_neg hown, if_neg (fun hc => hown (hskip.mp hc)), fiLoop4Din]
  rcases e.busy_cases with ⟨hb, hb'⟩ | ⟨hb, hb'⟩ | ⟨hb, hb'⟩ | ⟨hb, hb'⟩
  · have hsid := hfree.mp hb
    rw [if_neg (by rw [hb]; decide), if_neg (by rw [hb]; decide), if_pos hb, hb', if_neg (by decide),
      if_neg (by decide), if_pos ⟨rfl, (entry_sti_eq 0).mpr hsid⟩]
    exact fiLoop4Free_toTag hs h hsid
  · rw [if_neg (by rw [hb]; decide), if_pos hb, hb', if_neg (by decide), if_pos rfl]
    exact fiLoop4TwoHop_toTag hs h
  · rw [if_pos hb, hb', if_pos rfl]
    exact fiLoop4OneHop_toTag hs h
  · rw [if_neg (by rw [hb]; decide), if_neg (by rw [hb]; decide), if_neg (by rw [hb]; decide), hb',
      if_neg (by decide), if_neg (by decide), if_neg (fun hc => absurd hc.1 (by decide))]
    rfl

/-- A slot in the range in which updater and simulators are compared. -/
structure Comparable (g : BitVec 8) (t : FiTag) (e : SlotEntry) : Prop where
  plain : Plain t e
  unlocked : e.locker = false
  free_iff : e.busy = 0 ↔ e.occupierSid = 0
  named : e.occupierSid = g → t.occupierSid ≠ 0

theorem judge_first_toTag (hs : SameSetting cfg g) (h : Comparable g t e) (newNeighbor : Bool) :
    (Bench.judge .first g sender t e).toTag
      = ownSlot cfg sender.toNat t.toTag newNeighbor e.toTag := by
  simp only [Bench.judge, h.unlocked, Bool.false_eq_true, if_false]
  by_cases hown : e.occupierSid = g
  · rw [if_neg (not_not.mpr hown)]
    exact fiLoop2_toTag hs h.plain hown (h.named hown) newNeighbor
  · have hsti : ¬ e.toTag.sti = cfg.globalSti := by
      rw [hs.globalSti]
      exact fun hc => hown ((entry_sti_eq g).mp hc)
    rw [if_pos hown, ownSlot, if_neg hsti]

/-- After the first pass the slot is still this node's own, or in order: it was not touched, or it was
handed to another node. -/
theorem judge_first_cases (h : Comparable g t e) :
    (Bench.judge .first g sender t e).locker = false ∧
      ((Bench.judge .first g sender t e).occupierSid = g ∨
        Plain t (Bench.judge .first g sender t e) ∧
          ((Bench.judge .first g sender t e).busy = 0 ↔
            (Bench.judge .first g sender t e).occupierSid = 0)) := by
  obtain ⟨hgt, heq, -, -⟩ := h.plain.psf_eq
  simp only [Bench.judge, h.unlocked, Bool.false_eq_true, if_false]
  by_cases hown : e.occupierSid = g
  · have htag := h.named hown
    rw [if_neg (not_not.mpr hown)]
    by_cases hother : t.occupierSid = g
    · rw [if_neg (fun hc => hc.1 hother), if_pos hother, fiLoop2Own]
      split <;> exact ⟨h.unlocked, .inl hown⟩
    · rw [if_pos ⟨hother, htag⟩]
      rcases t.busy_cases with ⟨hb, -⟩ | ⟨hb, -⟩ | ⟨hb, -⟩ | ⟨hb, -⟩
      · rw [fiLoop2Other, hb]
        exact ⟨h.unlocked, .inl hown⟩
      · rw [fiLoop2Other, hb]
        exact ⟨h.unlocked, .inl hown⟩
      · simp only [fiLoop2Other, hb, if_true, if_neg hgt, if_pos heq]
        exact ⟨h.unlocked, .inl hown⟩
      · rw [fiLoop2Other, hb]
        refine ⟨h.unlocked, .inr ⟨⟨h.plain.tagPsf, h.plain.tagPsf, ?_, ?_⟩, ?_⟩⟩
        · show (1 : BitVec 8).toNat < 2 ^ 8 - 1
          decide
        · show (1 : BitVec 9).toNat < 2 ^ 9 - 3
          decide
        · exact ⟨fun hc => absurd hc (show ¬ (1 : BitVec 2) = 0 by decide), fun hc => absurd hc htag⟩
  · rw [if_pos hown]
    exact ⟨h.unlocked, .inr ⟨h.plain, h.free_iff⟩⟩

/-- **Both passes over one slot** are the two loop bodies of `merge_fi`. -/
theorem judge_toTag (hs : SameSetting cfg g) (h : Comparable g t e) (newNeighbor : Bool) :
    (Bench.judge .second g sender t (Bench.judge .first g sender t e)).toTag
      = otherSlot cfg sender.toNat t.toTag (ownSlot cfg sender.toNat t.toTag newNeighbor e.toTag) := by
  obtain ⟨hlock, hcases⟩ := @judge_first_cases _ sender _ _ h
  rw [judge_second_toTag hs hlock hcases, judge_first_toTag hs h newNeighbor]

end pure

/-! ### The whole packet -/

namespace Bench

variable {c : StuSetting} {s : Bench}

/-- The updater leaves `STU_IDLE` with the start pulse and is back there for the first time after `n + 1`
cycles, in the state `t`. -/
structure ReturnsTo (c : StuSetting) (start : ℕ → Bool) (s : Bench) (n : ℕ) (t : Bench) : Prop where
  busy : ∀ m, 0 < m → m ≤ n → (trace (Bench.tick c) start s m).unit.stu.state ≠ .idle
  idle : t.unit.stu.state = .idle
  trace_eq : trace (Bench.tick c) start s (n + 1) = t

theorem returnsTo_of_until {start : ℕ → Bool} {mem : BitVec 7 → SlotEntry} (hstart : start 0 = true)
    (h : Until (Bench.next c) (Works c (fiFrameLen c.rcvPkt)) (Ending c mem) (s.tick c true)) :
    ∃ n t, ReturnsTo c start s n t ∧ t.Quiet ∧ t.ram.cell = mem := by
  have hnext : ∀ t i, Works c (fiFrameLen c.rcvPkt) t → Bench.tick c t i = Bench.next c t :=
    fun t i ht => tick_eq_next i ht.busy
  obtain ⟨n, hending, hlt⟩ := h.exists_iterate
  have htrace : ∀ m ≤ n, trace (Bench.tick c) start s (m + 1) = (Bench.next c)^[m] (s.tick c true) := by
    intro m hm
    rw [trace_succ', hstart]
    exact trace_eq_iterate _ hnext fun k hk => hlt k (by omega)
  -- in `STU_END` the start signal is not read either
  have hlast : Bench.tick c ((Bench.next c)^[n] (s.tick c true)) (start (n + 1))
      = Bench.next c ((Bench.next c)^[n] (s.tick c true)) := by
    have hstu := Stu.tick_stuStart (((Bench.next c)^[n] (s.tick c true)).unit.stuIn (c.env false)
      ((Bench.next c)^[n] (s.tick c true)).ram.doutA) ((Bench.next c)^[n] (s.tick c true)).unit.stu
      (start (n + 1)) (by rw [hending.state]; exact nofun)
    simp only [Bench.next, Bench.tick, StuUnit.tick] at hstu ⊢
    rw [← hstu]
    rfl
  refine ⟨n + 1, Bench.next c ((Bench.next c)^[n] (s.tick c true)), ⟨?_, hending.quiet.state, ?_⟩,
    hending.quiet, hending.kept⟩
  · intro m hpos hm
    obtain ⟨k, rfl⟩ : ∃ k, m = k + 1 := ⟨m - 1, by omega⟩
    rw [htrace k (by omega)]
    rcases Nat.lt_or_ge k n with hk | hk
    · exact (hlt k hk).busy.1
    · rw [show k = n from by omega, hending.state]
      exact nofun
  · rw [trace, htrace n (Nat.le_refl n), hlast]

theorem ReturnsTo.unique {start : ℕ → Bool} {n n' : ℕ} {t t' : Bench} (h : ReturnsTo c start s n t)
    (h' : ReturnsTo c start s n' t') : t = t' := by
  have hle : ∀ {n n' t t'}, ReturnsTo c start s n t → ReturnsTo c start s n' t' → n' ≤ n := by
    intro n n' t t' h h'
    by_contra hlt
    refine h'.busy (n + 1) (Nat.succ_pos n) (by omega) ?_
    rw [h.trace_eq]
    exact h.idle
  have hn : n = n' := Nat.le_antisymm (hle h' h) (hle h h')
  rw [← h.trace_eq, ← h'.trace_eq, hn]

/-- The slot-status memory as the table of a simulator. -/
def SameTable (mem : BitVec 7 → SlotEntry) (t : Table) : Prop := ∀ b : BitVec 7, (mem b).toTag = t b.toNat

/-- **The updater computes `merge_fi`.** -/
theorem stu_refines_mergeFi (c : StuSetting) (start : ℕ → Bool) (s : Bench) (cfg : Config)
    (node : Node) (hstart : start 0 = true) (hquiet : Quiet s)
    (hset : SameSetting cfg c.globalSid) (hlen : node.mFrameLen = c.currFrameLen.toNat)
    (htable : SameTable s.ram.cell node.collectedFi) (hcurr : c.currFrameLen.toNat ≤ 64)
    (hfi : c.rcvPkt.frameInfo.frameLen ≤ c.currFrameLen.toNat)
    (hslot : ∀ b : BitVec 7, b.toNat < c.rcvPkt.frameInfo.frameLen →
      Comparable c.globalSid (c.rcvPkt.tag b.toNat) (s.ram.cell b)) :
    ∃ n t, ReturnsTo c start s n t ∧
      SameTable t.ram.cell (mergeFi cfg node c.rcvPkt.frameInfo).collectedFi := by
  have hcode : (fiFrameLen c.rcvPkt).toNat = c.rcvPkt.frameInfo.frameLen := by
    have hle : 2 ^ c.rcvPkt.frameLenCode.toNat ≤ 64 := hfi.trans hcurr
    have key : ∀ x : BitVec 4, 2 ^ x.toNat ≤ 64 → ((1 : BitVec 9) <<< x).toNat = 2 ^ x.toNat := by
      decide
    exact key _ hle
  have hle : c.rcvPkt.frameInfo.frameLen ≤ 64 := hfi.trans hcurr
  -- no own slot meets an empty tag, so none stalls the first pass
  have hstall : ∀ b < (fiFrameLen c.rcvPkt).toNat,
      ¬ Stalls c (s.ram.cell (BitVec.ofNat 7 b)) (c.rcvPkt.tag b) := by
    rintro b hb ⟨-, hown, -, htag, -⟩
    have hnat : (BitVec.ofNat 7 b).toNat = b := by
      rw [BitVec.toNat_ofNat]
      omega
    have hnamed := (hslot (BitVec.ofNat 7 b) (by omega)).named hown
    rw [hnat] at hnamed
    exact hnamed htag
  obtain ⟨n, t, hret, -, hcell⟩ := returnsTo_of_until hstart (hquiet.until_stuEnd (by omega) hstall)
  rw [mergedTable, hcode] at hcell
  refine ⟨n, t, hret, fun b => ?_⟩
  rw [hcell, passTable_apply (by omega), passTable_apply (by omega)]
  by_cases hb : b.toNat < c.rcvPkt.frameInfo.frameLen
  · have hmin : b.toNat < min node.mFrameLen c.rcvPkt.frameInfo.frameLen := by omega
    rw [if_pos hb, if_pos hb, mergeFi_of_lt hb, mergeOwn, sweep_of_lt hmin,
      sweep_of_ge (Nat.le_refl _), ← htable b]
    exact judge_toTag hset (hslot b hb) _
  · have hmin : min node.mFrameLen c.rcvPkt.frameInfo.frameLen ≤ b.toNat := by omega
    rw [if_neg hb, if_neg hb, mergeFi_of_ge (by omega), mergeOwn, sweep_of_ge hmin]
    exact htable b

/-- Node 1, which holds slot 0, hears from node 7 that slot 0 is node 1's and slot 1 its own. -/
def neighbourPacket : StuSetting where
  globalSid := 1
  currFrameLen := 2
  rcvPkt k := if k = rxTypeAddr then 1 + 7 * 2 ^ 4 + 2 * 2 ^ 12 + 1 * 2 ^ 14 + 2 * 2 ^ 26 + 7 * 2 ^ 28 else 0
  rcvpktAddrbIrq := rxTypeAddr

def holdsFirstRam : SlotRam where
  cell k := if k = 0 then { busy := 2, occupierSid := 1, count2hop := 1, count3hop := 1 } else {}
  doutA := {}
  doutB := {}

/-- The node of a simulator with the same table. -/
def holdsFirstNode : Node :=
  { start pairCfg ⟨0, 0, false, 0⟩ with
    collectedFi := fun i => (holdsFirstRam.cell (BitVec.ofNat 7 i)).toTag }

theorem stu_refines_mergeFi_neighbour :
    ∃ n t, ReturnsTo neighbourPacket pulse ⟨{}, holdsFirstRam⟩ n t ∧ (t.ram.cell 1).toTag.sti = 7 := by
  have htable : SameTable holdsFirstRam.cell holdsFirstNode.collectedFi := by
    intro b
    show _ = (holdsFirstRam.cell (BitVec.ofNat 7 b.toNat)).toTag
    rw [BitVec.ofNat_toNat, BitVec.setWidth_eq]
  obtain ⟨n, t, hret, hsame⟩ := stu_refines_mergeFi neighbourPacket pulse ⟨{}, holdsFirstRam⟩ pairCfg
    holdsFirstNode rfl (quiet_reset _) ⟨rfl, rfl⟩ rfl htable (by decide) (by decide +kernel) (by
      intro b hb
      have hlt : b.toNat < 2 := hb
      rcases (show b.toNat = 0 ∨ b.toNat = 1 by omega) with h | h
      · obtain rfl : b = 0 := BitVec.eq_of_toNat_eq h
        exact ⟨⟨by decide +kernel, rfl, by decide, by decide⟩, rfl, by decide, by decide +kernel⟩
      · obtain rfl : b = 1 := BitVec.eq_of_toNat_eq h
        exact ⟨⟨by decide +kernel, rfl, by decide, by decide⟩, rfl, by decide, by decide +kernel⟩)
  refine ⟨n, t, hret, ?_⟩
  rw [hsame 1]
  decide +kernel

end Bench

end VanetTdma.Fpga
