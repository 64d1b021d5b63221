import VanetTdma.Fpga.Candidates
import VanetTdma.Fpga.RequestCheck
import VanetTdma.Fpga.StuEdge

/-!
# The writes of the BCH machine

The BCH machine claims candidates and gives slots up without looking at the entry in the cycle of the write.  The
look was taken earlier: by the search when it scanned the candidate, or by the machine itself when it checked its
slot.

* `Bch.Aims` — the entries that the machine will write without another look, and `Bch.aims_tick`, what an edge
  adds to them;
* `Pending` — these entries and those on the way through the search;
* `Kept.tick` — pending entries stay this node's or free, as long as the updater stores no other occupier there;
* `bch_writes_own_or_free` — so every write of the BCH machine hits such an entry.
-/

namespace VanetTdma.Fpga

open VanetTdma.Clocked VanetTdma.DualPort

/-! ### Where the BCH machine aims -/

/-- The states in which the work slot has passed its check, or is a candidate to be claimed. -/
def BchState.looked : BchState → Bool
  | lisFcb | workFiFcb | workFiAdjFramelen | ifSingle => true
  | _ => false

namespace Bch

/-- An entry that the machine will write without another look. -/
def Aims (b : Bch) (a : BitVec 7) : Prop :=
  b.we = true ∧ b.addr = a
    ∨ b.state.looked = true ∧ b.workPointer.setWidth 7 = a
    ∨ (b.adjFlag = true ∨ b.state = .workAdjWait) ∧ b.decideAdj.setWidth 7 = a

instance (b : Bch) (a : BitVec 7) : Decidable (b.Aims a) := inferInstanceAs (Decidable (_ ∨ _))

def Checks (i : BchIn) (b : Bch) : Prop :=
  b.state = .waitReqFcbPreWait ∨ b.state = .workAdjDecideAdjBchInvalid
    ∨ (b.state = .workFiWait ∨ b.state = .workAdjWait) ∧ i.slotPointer = b.workPointer

instance (i : BchIn) (b : Bch) : Decidable (b.Checks i) := inferInstanceAs (Decidable (_ ∨ _))

section Aims

variable {g : TdmaSetting} {i : BchIn} {b : Bch} {a : BitVec 7}

theorem checks_of_workFi (h : b.nextState g i = .workFiFcb ∨ b.nextState g i = .workFiAdjFramelen) :
    b.Checks i ∧ Usable g.globalSid i.dout := by
  have hst : b.state = .workFiWait := by
    have hnext := nextState_mem g i b
    rcases h with h | h <;>
      (rw [h] at hnext; exact BchState.eq_of_next (by intro st; cases st <;> rfl) hnext)
  have hcond : i.slotPointer = b.workPointer ∧ Usable g.globalSid i.dout := by
    simp only [nextState, hst] at h
    split at h
    · rename_i hslot
      split at h
      · rename_i husable
        exact ⟨hslot, husable⟩
      · rcases h with h | h <;> exact BchState.noConfusion h
    · rcases h with h | h <;> exact BchState.noConfusion h
  exact ⟨Or.inr (Or.inr ⟨Or.inl hst, hcond.1⟩), hcond.2⟩

theorem checks_of_workAdjSetStatus (h : b.nextState g i = .workAdjSetStatus) :
    b.state = .workAdjWait ∧ b.Checks i ∧ Usable g.globalSid i.dout := by
  have hst : b.state = .workAdjWait := by
    have hnext := nextState_mem g i b
    rw [h] at hnext
    exact BchState.eq_of_next (by intro st; cases st <;> rfl) hnext
  have hcond : i.slotPointer = b.workPointer ∧ Usable g.globalSid i.dout := by
    simp only [nextState, hst] at h
    split at h
    · rename_i hslot
      split at h
      · rename_i husable
        exact ⟨hslot, husable⟩
      · exact BchState.noConfusion h
    · exact BchState.noConfusion h
  exact ⟨hst, Or.inr (Or.inr ⟨Or.inr hst, hcond.1⟩), hcond.2⟩

theorem checks_of_workAdjSetBch1 (h : b.nextState g i = .workAdjSetBch1BchInvalid) :
    b.Checks i ∧ Usable g.globalSid i.dout := by
  have hst : b.state = .workAdjDecideAdjBchInvalid := by
    have hnext := nextState_mem g i b
    rw [h] at hnext
    exact BchState.eq_of_next (by intro st; cases st <;> rfl) hnext
  simp only [nextState, hst] at h
  split at h
  · rename_i husable
    exact ⟨Or.inr (Or.inl hst), husable⟩
  · exact BchState.noConfusion h

/-- A check that the machine has just passed. -/
def Passes (g : TdmaSetting) (i : BchIn) (b : Bch) : Prop :=
  b.Checks i ∧ (Usable g.globalSid i.dout ∨ i.dout.occupierSid = g.globalSid)

/-- What the machine writes next was aimed at before, is the candidate, or has just passed its check. -/
theorem we_tick (hr : b.Regular) (hwe : (b.tick g i).we = true) (haddr : (b.tick g i).addr = a) :
    b.Aims a ∨ i.fcbBchCandidate.setWidth 7 = a ∨ b.Passes g i ∧ b.workPointer.setWidth 7 = a := by
  have hnext := nextState_mem g i b
  have hkeep : b.we = true → b.addr = a → b.Aims a := fun h h' => Or.inl ⟨h, h'⟩
  change (b.act g i (b.nextState g i)).we = true at hwe
  change (b.act g i (b.nextState g i)).addr = a at haddr
  generalize hn : b.nextState g i = n at hnext hwe haddr
  cases n
  case waitReqFiInitStart =>
    have hst : b.state = .lisFcb := BchState.eq_of_next (by intro st; cases st <;> rfl) hnext
    exact Or.inl (Or.inr (Or.inl ⟨by rw [hst]; rfl, haddr⟩))
  case waitReqFcbPre =>
    have hst : b.state.onWork = true := by
      revert hnext
      cases b.state <;> simp [BchState.next, BchState.onWork]
    exact Or.inl (hkeep hwe ((hr.addr hst).trans haddr))
  case waitReqFcbStart =>
    have hst : b.state = .waitReqFcbPreWait := BchState.eq_of_next (by intro st; cases st <;> rfl) hnext
    have hold : b.addr = b.workPointer.setWidth 7 := hr.addr (by rw [hst]; rfl)
    simp only [act] at hwe haddr
    split at hwe
    · rename_i hown
      rw [if_pos hown] at haddr
      exact Or.inr (Or.inr ⟨⟨Or.inl hst, Or.inr hown.symm⟩, hold.symm.trans haddr⟩)
    · rename_i hown
      rw [if_neg hown] at haddr
      exact Or.inl (hkeep hwe haddr)
  case waitReqFcbDone =>
    simp only [act] at hwe haddr
    split at hwe
    · exact absurd hwe Bool.false_ne_true
    · rename_i hfail
      rw [if_neg hfail] at haddr
      exact Or.inr (Or.inl haddr)
  case workFiWait =>
    have hquiet : b.state.quiet = true := by
      revert hnext
      cases b.state <;> simp [BchState.next, BchState.quiet]
    exact absurd ((hr.quiet hquiet).symm.trans hwe) Bool.false_ne_true
  case workAdjWait =>
    have hquiet : b.state.quiet = true := by
      revert hnext
      cases b.state <;> simp [BchState.next, BchState.quiet]
    exact absurd ((hr.quiet hquiet).symm.trans hwe) Bool.false_ne_true
  case workFiFcb => exact Or.inr (Or.inl haddr)
  case ifSingleSet1 =>
    have hst : b.state = .ifSingle := BchState.eq_of_next (by intro st; cases st <;> rfl) hnext
    exact Or.inl (Or.inr (Or.inl ⟨by rw [hst]; rfl, haddr⟩))
  case ifSingleSet2 => exact Or.inr (Or.inl haddr)
  case workAdjSetStatus =>
    obtain ⟨hst, hchecks, husable⟩ := checks_of_workAdjSetStatus hn
    simp only [act] at haddr
    split at haddr
    · exact Or.inr (Or.inr ⟨⟨hchecks, Or.inl husable⟩, haddr⟩)
    · exact Or.inl (Or.inr (Or.inr ⟨Or.inr hst, haddr⟩))
  case workAdjBchInvalid =>
    revert hnext
    cases b.state <;> simp [BchState.next]
  case workAdjSetBch1BchInvalid =>
    obtain ⟨hchecks, husable⟩ := checks_of_workAdjSetBch1 hn
    exact Or.inr (Or.inr ⟨⟨hchecks, Or.inl husable⟩, haddr⟩)
  case waitReqFiInitWait => exact absurd hwe Bool.false_ne_true
  case reqWait => exact absurd hwe Bool.false_ne_true
  case workFiSendFiStart => exact absurd hwe Bool.false_ne_true
  case workAdjSendFiStart => exact absurd hwe Bool.false_ne_true
  case workAdjSetBch2BchInvalid => exact absurd hwe Bool.false_ne_true
  all_goals exact Or.inl (hkeep hwe haddr)

theorem looked_tick (hst : (b.tick g i).state.looked = true) (ha : (b.tick g i).workPointer.setWidth 7 = a) :
    b.Aims a ∨ i.fcbBchCandidate.setWidth 7 = a ∨ b.Passes g i ∧ b.workPointer.setWidth 7 = a := by
  have hnext := nextState_mem g i b
  change (b.nextState g i).looked = true at hst
  change (b.act g i (b.nextState g i)).workPointer.setWidth 7 = a at ha
  generalize hn : b.nextState g i = n at hnext hst ha
  cases n
  case lisFcb => exact Or.inr (Or.inl ha)
  case workFiFcb =>
    obtain ⟨hchecks, husable⟩ := checks_of_workFi (Or.inl hn)
    exact Or.inr (Or.inr ⟨⟨hchecks, Or.inl husable⟩, ha⟩)
  case workFiAdjFramelen =>
    obtain ⟨hchecks, husable⟩ := checks_of_workFi (Or.inr hn)
    exact Or.inr (Or.inr ⟨⟨hchecks, Or.inl husable⟩, ha⟩)
  case ifSingle =>
    have hlooked : b.state.looked = true := by
      revert hnext
      cases b.state <;> simp [BchState.next, BchState.looked]
    exact Or.inl (Or.inr (Or.inl ⟨hlooked, ha⟩))
  all_goals exact absurd hst Bool.false_ne_true

theorem adj_tick (hadj : (b.tick g i).adjFlag = true ∨ (b.tick g i).state = .workAdjWait)
    (ha : (b.tick g i).decideAdj.setWidth 7 = a) :
    b.Aims a ∨ i.fcbBchCandidate.setWidth 7 = a := by
  have hnext := nextState_mem g i b
  have hkeep : b.adjFlag = true ∨ b.state = .workAdjWait → b.decideAdj.setWidth 7 = a → b.Aims a :=
    fun h h' => Or.inr (Or.inr ⟨h, h'⟩)
  change (b.act g i (b.nextState g i)).adjFlag = true ∨ b.nextState g i = .workAdjWait at hadj
  change (b.act g i (b.nextState g i)).decideAdj.setWidth 7 = a at ha
  generalize hn : b.nextState g i = n at hnext hadj ha
  cases n
  case workFiFcb => exact Or.inr ha
  case workAdjWait =>
    refine Or.inl (hkeep ?_ ha)
    have hst : b.state = .workDisaTx ∨ b.state = .workAdjWait := by
      revert hnext
      cases b.state <;> simp [BchState.next]
    rcases hst with hst | hst
    · left
      simp only [nextState, hst] at hn
      split at hn
      · assumption
      · exact BchState.noConfusion hn
    · exact Or.inr hst
  all_goals
    refine Or.inl (hkeep (Or.inl ?_) ?_)
    · first
      | exact hadj.resolve_right BchState.noConfusion
      | (have hflag := hadj.resolve_right BchState.noConfusion
         simp only [act] at hflag
         split at hflag <;> exact hflag)
    · first
      | exact ha
      | (simp only [act] at ha
         split at ha <;> exact ha)

/-- **Where the machine aims** after an edge. -/
theorem aims_tick (hr : b.Regular) (h : (b.tick g i).Aims a) :
    b.Aims a ∨ i.fcbBchCandidate.setWidth 7 = a ∨ b.Passes g i ∧ b.workPointer.setWidth 7 = a := by
  rcases h with ⟨hwe, haddr⟩ | ⟨hst, ha⟩ | ⟨hadj, ha⟩
  · exact we_tick hr hwe haddr
  · exact looked_tick hst ha
  · exact (adj_tick hadj ha).imp_right Or.inl

end Aims

end Bch

/-! ### Free entries have no occupier -/

/-- A free entry has no occupier. -/
def SlotEntry.Plain (e : SlotEntry) : Prop := e.busy = 0 → e.occupierSid = 0

section Plain

variable {sid sender : BitVec 8} {t : FiTag} {e din dout : SlotEntry}

theorem SlotEntry.plain_of_busy (b : BitVec 2) (hne : b ≠ 0) (hb : e.busy = b) : e.Plain :=
  fun h => absurd (hb.symm.trans h) hne

theorem Verdict.plain (h : Verdict sender t dout din e) (hdin : din.Plain) : e.Plain := by
  cases h with
  | keeps hsid hbusy _ =>
    rw [SlotEntry.Plain, hsid, hbusy]
    exact hdin
  | marks _ hbusy =>
    rcases hbusy with hbusy | hbusy
    · exact SlotEntry.plain_of_busy 2 (by decide) hbusy
    · exact SlotEntry.plain_of_busy 3 (by decide) hbusy
  | hands _ hbusy _ =>
    rcases hbusy with hbusy | hbusy
    · exact SlotEntry.plain_of_busy 1 (by decide) hbusy
    · exact SlotEntry.plain_of_busy 2 (by decide) hbusy
  | frees => exact fun _ => rfl

theorem refreshed_plain (h : din.Plain) : (refreshed sid dout (unlocked din)).Plain := by
  unfold refreshed
  repeat' split
  all_goals first
    | exact h
    | exact fun _ => rfl
    | exact SlotEntry.plain_of_busy 1 (by decide) rfl

theorem countsCleared_plain (h : e.Plain) : (countsCleared sid e).Plain := by
  unfold countsCleared
  split <;> exact h

end Plain

namespace Stu

/-- The word in hand is plain, and it is written in a `_CLR` state. -/
structure Neat (u : Stu) : Prop where
  we : u.we = true → u.state = .fiClr .first ∨ u.state = .fiClr .second
  din : u.Judges ∨ u.we = true → u.din.Plain

section Neat

variable {i : StuIn} {u : Stu}

theorem Neat.writesInClr (h : u.Neat) : u.WritesInClr :=
  fun hup => (h.we hup).elim (fun hst => ⟨_, hst⟩) fun hst => ⟨_, hst⟩

/-- **The word in hand stays plain.** -/
theorem Neat.tick (h : u.Neat) (hlatch : u.Latches → i.dout.Plain) : (u.tick i).Neat := by
  have hedge : Edge i u (u.tick i) := edge h.writesInClr
  refine ⟨fun hup => ?_, ?_⟩
  · obtain ⟨p, hp⟩ := hedge.writesInClr hup
    cases p
    · exact Or.inl hp
    · exact Or.inr hp
  rintro (hj | hup)
  · rcases (hedge.word hj).2 with ⟨⟨-, hl⟩, hdin⟩ | ⟨hold, hdin⟩
    · rw [hdin]
      exact hlatch hl
    · rw [hdin]
      exact h.din (Or.inl hold)
  · obtain ⟨-, p, hword⟩ := hedge.judgement hup
    exact (hword.verdict rfl).plain (h.din (Or.inl hword.judges))

end Neat

end Stu

/-! ### Entries of this node, or of nobody -/

/-- This node's entry, or a free one. -/
def OwnOrFree (globalSid : BitVec 8) (e : SlotEntry) : Prop :=
  e.occupierSid = 0 ∨ e.occupierSid = globalSid

instance (globalSid : BitVec 8) (e : SlotEntry) : Decidable (OwnOrFree globalSid e) :=
  inferInstanceAs (Decidable (_ ∨ _))

section OwnOrFree

variable {sid : BitVec 8} {e dout : SlotEntry}

theorem Usable.ownOrFree (h : Usable sid e) : OwnOrFree sid e :=
  h.elim (fun hown => Or.inr hown.1.symm) Or.inl

theorem Eligible.ownOrFree {g : TdmaSetting} {strict : Bool} (h : Eligible g strict e) (hp : e.Plain) :
    OwnOrFree g.globalSid e :=
  h.1.elim (fun hfree => Or.inl (hp hfree)) fun hown => Or.inr hown.2

theorem OwnOrFree.refreshed (h : OwnOrFree sid e) : OwnOrFree sid (refreshed sid dout e) := by
  unfold Fpga.refreshed
  repeat' split
  all_goals first | exact h | exact Or.inl rfl

theorem OwnOrFree.countsCleared (h : OwnOrFree sid e) : OwnOrFree sid (countsCleared sid e) := by
  unfold Fpga.countsCleared
  split <;> exact h

end OwnOrFree

/-- The words that the BCH machine writes. -/
structure Bch.Sane (globalSid : BitVec 8) (b : Bch) : Prop where
  own : b.we = true → OwnOrFree globalSid b.din
  plain : b.we = true → b.din.Plain

theorem Bch.Sane.tick {g : TdmaSetting} {i : BchIn} {b : Bch} (h : b.Sane g.globalSid) :
    (b.tick g i).Sane g.globalSid := by
  have hclaim : ∀ din, OwnOrFree g.globalSid (g.claim din) ∧ (g.claim din).Plain :=
    fun din => ⟨Or.inr rfl, SlotEntry.plain_of_busy 2 (by decide) rfl⟩
  have hgiveUp : ∀ din, OwnOrFree g.globalSid (giveUp din) ∧ (giveUp din).Plain :=
    fun din => ⟨Or.inl rfl, fun _ => rfl⟩
  have hall : ∀ n, (b.act g i n).we = true →
      OwnOrFree g.globalSid (b.act g i n).din ∧ (b.act g i n).din.Plain := by
    intro n
    cases n
    case waitReqFcbStart =>
      simp only [act]
      split
      · exact fun _ => hgiveUp _
      · exact fun hw => ⟨h.own hw, h.plain hw⟩
    case waitReqFcbDone =>
      simp only [act]
      split
      · exact fun hw => absurd hw Bool.false_ne_true
      · exact fun _ => hclaim _
    case workAdjSetStatus =>
      simp only [act]
      split <;> exact fun _ => hgiveUp _
    all_goals first
      | exact fun hw => ⟨h.own hw, h.plain hw⟩
      | exact fun hw => absurd hw Bool.false_ne_true
      | exact fun _ => hclaim _
      | exact fun _ => hgiveUp _
  exact ⟨fun hw => (hall _ hw).1, fun hw => (hall _ hw).2⟩

/-! ### The system -/

namespace System

def BchWrites (a : BitVec 7) (s : System) : Prop :=
  s.fcb.inprogress = false ∧ s.fi.slotStatusEn = false ∧ s.bch.portB.Writes a

instance (a : BitVec 7) (s : System) : Decidable (s.BchWrites a) := inferInstanceAs (Decidable (_ ∧ _))

/-- An entry that the BCH machine may write without another look: a slot on its way through the search, or where
the machine aims.  The mark `0xffff` of a search without a candidate stands for the entry 127. -/
def Pending (a : BitVec 7) (s : System) : Prop :=
  a = 127 ∨ s.fcb.Writing ∧ s.fcb.dwrite.setWidth 7 = a ∨ s.fcb.candidate.setWidth 7 = a
    ∨ (∃ q ∈ s.s1 ++ s.s2 ++ s.half, q.setWidth 7 = a) ∨ s.bch.Aims a

instance (a : BitVec 7) (s : System) : Decidable (s.Pending a) := inferInstanceAs (Decidable (_ ∨ _))

theorem pending_iff {a : BitVec 7} {s : System} :
    s.Pending a ↔ a = 127 ∨ (∃ q, s.InHand q ∧ q.setWidth 7 = a) ∨ s.bch.Aims a := by
  unfold Pending InHand
  constructor
  · rintro (h | ⟨hw, h⟩ | h | ⟨q, hq, h⟩ | h)
    · exact Or.inl h
    · exact Or.inr (Or.inl ⟨_, Or.inr (Or.inr (Or.inr (Or.inl ⟨hw, rfl⟩))), h⟩)
    · exact Or.inr (Or.inl ⟨_, Or.inr (Or.inr (Or.inr (Or.inr rfl))), h⟩)
    · refine Or.inr (Or.inl ⟨q, ?_, h⟩)
      simp only [List.mem_append] at hq
      rcases hq with (hq | hq) | hq
      · exact Or.inl hq
      · exact Or.inr (Or.inl hq)
      · exact Or.inr (Or.inr (Or.inl hq))
    · exact Or.inr (Or.inr h)
  · rintro (h | ⟨q, hq | hq | hq | ⟨hw, rfl⟩ | rfl, h⟩ | h)
    · exact Or.inl h
    · exact Or.inr (Or.inr (Or.inr (Or.inl ⟨q, by simp [hq], h⟩)))
    · exact Or.inr (Or.inr (Or.inr (Or.inl ⟨q, by simp [hq], h⟩)))
    · exact Or.inr (Or.inr (Or.inr (Or.inl ⟨q, by simp [hq], h⟩)))
    · exact Or.inr (Or.inl ⟨hw, h⟩)
    · exact Or.inr (Or.inr (Or.inl h))
    · exact Or.inr (Or.inr (Or.inr (Or.inr h)))

/-- A cycle in which the looks are true, and stay true until the write. -/
structure Careful (g : TdmaSetting) (s : System) (i : Cycle) : Prop where
  /-- The updater does not write the entry on port B. -/
  separate : ¬ s.portA.Writes s.portB.addr
  /-- A read of the updater that meets a write shows a plain word, as the old and the new content are. -/
  clash : s.portB.Writes s.portA.addr → i.clash.readA.Plain
  /-- The BCH machine makes its checks on its own entry, while it has the port. -/
  check : s.bch.Checks (s.bchIn i) → s.fi.slotStatusEn = false ∧ s.ram.doutB = s.ram.cell s.workSlot
  /-- The search does not read an empty FIFO. -/
  choice : s.fcb.ReadsFull g (s.fcbIn i)
  /-- The updater stores no other occupier in a pending entry. -/
  calm : ∀ a, s.portA.Writes a → s.Pending a → OwnOrFree g.globalSid s.portA.din

/-- What careful cycles keep. -/
structure Kept (g : TdmaSetting) (s : System) : Prop where
  shared : s.Shared
  regular : s.bch.Regular
  inTime : s.fcb.WritesInTime
  fresh : ∀ a, s.Fresh g a
  scan : s.fcb.state = .rdLoop → s.ram.doutB = s.ram.cell s.fcb.addr
  neat : s.unit.stu.Neat
  sane : s.bch.Sane g.globalSid
  doutA : s.ram.doutA.Plain
  plain : ∀ a, (s.ram.cell a).Plain
  pending : ∀ a, s.Pending a → OwnOrFree g.globalSid (s.ram.cell a)

section Step

variable {g : TdmaSetting} {s : System} {i : Cycle} {a : BitVec 7}

theorem Shared.portB_of_held (h : s.Shared) (hheld : s.Held a) : s.portB.addr = a := by
  rcases hheld with ⟨haddr, hst⟩ | ⟨haddr, hst⟩
  · have hb : s.fi.state.building = true ∧ s.fi.state ≠ .waitFcb := by
      rcases hst with hst | hst | hst | hst | hwe
      · rw [hst]; exact ⟨rfl, nofun⟩
      · rw [hst]; exact ⟨rfl, nofun⟩
      · rw [hst]; exact ⟨rfl, nofun⟩
      · rw [hst]; exact ⟨rfl, nofun⟩
      · rw [h.fiWe hwe]; exact ⟨rfl, nofun⟩
    rw [h.portB_fi hb.1 hb.2]
    exact haddr
  · have hb : s.fcb.state ≠ .idle := by
      rcases hst with hst | hst | hwe
      · rw [hst]; exact nofun
      · rw [hst]; exact nofun
      · rw [h.fcbWe hwe]; exact nofun
    rw [h.portB_fcb hb]
    exact haddr

theorem held_of_fcbWrites (h : s.fcb.portB.Writes a) : s.Held a := Or.inr ⟨h.2, Or.inr (Or.inr h.1)⟩

theorem held_of_fiWrites (h : s.fi.portB.Writes a) : s.Held a :=
  Or.inl ⟨h.2, Or.inr (Or.inr (Or.inr (Or.inr h.1)))⟩

theorem of_portB_writes (hB : s.portB.Writes a) :
    s.fcb.portB.Writes a ∧ s.portB.din = s.fcb.portB.din ∨ s.fi.portB.Writes a ∧ s.portB.din = s.fi.portB.din
      ∨ s.BchWrites a ∧ s.portB.din = s.bch.din := by
  unfold portB at hB ⊢
  split at hB
  · rename_i hp
    rw [if_pos hp]
    exact Or.inl ⟨hB, rfl⟩
  rename_i hp
  rw [if_neg hp]
  split at hB
  · rename_i he
    rw [if_pos he]
    exact Or.inr (Or.inl ⟨hB, rfl⟩)
  · rename_i he
    rw [if_neg he]
    rw [Bool.not_eq_true] at hp he
    exact Or.inr (Or.inr ⟨⟨hp, he, hB⟩, rfl⟩)

theorem Fresh.portB_din (h : s.Fresh g a) (hB : s.portB.Writes a) :
    s.fcb.portB.Writes a ∧ s.portB.din = countsCleared g.globalSid (s.ram.cell a)
      ∨ s.fi.portB.Writes a ∧ s.portB.din = refreshed g.globalSid (s.ram.cell a) (unlocked (s.ram.cell a))
      ∨ s.BchWrites a ∧ s.portB.din = s.bch.din := by
  rcases of_portB_writes hB with ⟨hw, hdin⟩ | ⟨hw, hdin⟩ | hbch
  · exact Or.inl ⟨hw, hdin.trans (h.fcbWrite hw)⟩
  · exact Or.inr (Or.inl ⟨hw, hdin.trans (h.fiWrite hw)⟩)
  · exact Or.inr (Or.inr hbch)

theorem Kept.portB_plain (h : s.Kept g) (hB : s.portB.Writes a) : s.portB.din.Plain := by
  rcases (h.fresh a).portB_din hB with ⟨-, hd⟩ | ⟨-, hd⟩ | ⟨hw, hd⟩
  · rw [hd]
    exact countsCleared_plain (h.plain a)
  · rw [hd]
    exact refreshed_plain (h.plain a)
  · rw [hd]
    exact h.sane.plain hw.2.2.1

theorem Kept.portB_ownOrFree (h : s.Kept g) (hB : s.portB.Writes a)
    (hcell : OwnOrFree g.globalSid (s.ram.cell a)) : OwnOrFree g.globalSid s.portB.din := by
  rcases (h.fresh a).portB_din hB with ⟨-, hd⟩ | ⟨-, hd⟩ | ⟨hw, hd⟩
  · rw [hd]
    exact hcell.countsCleared
  · rw [hd]
    exact OwnOrFree.refreshed (show OwnOrFree g.globalSid (unlocked (s.ram.cell a)) from hcell)
  · rw [hd]
    exact h.sane.own hw.2.2.1

theorem Careful.tick_cell (hok : s.Careful g i) (a : BitVec 7) :
    s.portA.Writes a ∧ (s.tick g i).ram.cell a = s.portA.din
      ∨ s.portB.Writes a ∧ (s.tick g i).ram.cell a = s.portB.din
      ∨ (s.tick g i).ram.cell a = s.ram.cell a := by
  by_cases hA : s.portA.Writes a
  · refine Or.inl ⟨hA, tick_cell_write_a hA ?_⟩
    intro hB
    refine hok.separate ?_
    rw [hB.2]
    exact hA
  by_cases hB : s.portB.Writes a
  · exact Or.inr (Or.inl ⟨hB, tick_cell_write_b hA hB⟩)
  · exact Or.inr (Or.inr (tick_cell_of_quiet hA hB))

theorem Kept.tick_plain (h : s.Kept g) (hok : s.Careful g i) (a : BitVec 7) :
    ((s.tick g i).ram.cell a).Plain := by
  rcases hok.tick_cell a with ⟨hA, hc⟩ | ⟨hB, hc⟩ | hc
  · rw [hc]
    exact h.neat.din (Or.inr hA.1)
  · rw [hc]
    exact h.portB_plain hB
  · rw [hc]
    exact h.plain a

theorem Kept.tick_doutA (h : s.Kept g) (hok : s.Careful g i) : (s.tick g i).ram.doutA.Plain := by
  change (if s.portB.Writes s.portA.addr then i.clash.readA
    else if s.portA.we then s.portA.din else s.ram.cell s.portA.addr).Plain
  split
  · rename_i hmeet
    exact hok.clash hmeet
  split
  · rename_i hwe
    exact h.neat.din (Or.inr hwe)
  · exact h.plain _

theorem Kept.tick_ownOrFree (h : s.Kept g) (hok : s.Careful g i) (hcell : OwnOrFree g.globalSid (s.ram.cell a))
    (hcalm : s.portA.Writes a → OwnOrFree g.globalSid s.portA.din) :
    OwnOrFree g.globalSid ((s.tick g i).ram.cell a) := by
  rcases hok.tick_cell a with ⟨hA, hc⟩ | ⟨hB, hc⟩ | hc
  · rw [hc]
    exact hcalm hA
  · rw [hc]
    exact h.portB_ownOrFree hB hcell
  · rw [hc]
    exact hcell

theorem Kept.ownOrFree_of_picks (h : s.Kept g) (hpick : s.fcb.Picks g (s.fcbIn i)) :
    OwnOrFree g.globalSid (s.ram.cell s.fcb.addr) ∧ s.portB.addr = s.fcb.addr := by
  have helig : Eligible g s.fi.fcbStrict s.ram.doutB := hpick.2.2
  rw [h.scan hpick.1] at helig
  refine ⟨helig.ownOrFree (h.plain _), ?_⟩
  rw [h.shared.portB_fcb (by rw [hpick.1]; exact nofun)]
  rfl

theorem Kept.ownOrFree_of_passes (h : s.Kept g) (hok : s.Careful g i)
    (hpass : s.bch.Passes g (s.bchIn i)) :
    OwnOrFree g.globalSid (s.ram.cell s.workSlot) ∧ s.portB.addr = s.workSlot := by
  obtain ⟨hchecks, hlook⟩ := hpass
  obtain ⟨hen, hdout⟩ := hok.check hchecks
  have hown : OwnOrFree g.globalSid s.ram.doutB := hlook.elim Usable.ownOrFree Or.inr
  rw [hdout] at hown
  refine ⟨hown, ?_⟩
  have hfi : s.fi.state ≠ .waitFcb := by
    intro hc
    have hup := h.shared.enabled (by rw [hc]; rfl)
    rw [hen] at hup
    exact Bool.false_ne_true hup
  rw [portB_bch (h.shared.inprogress_false (h.shared.search.fcb_idle hfi)) hen]
  refine h.regular.addr ?_
  rcases hchecks with hst | hst | ⟨hst | hst, -⟩ <;> (rw [hst]; rfl)

/-- **What becomes pending** is this node's or free. -/
theorem Kept.tick_pending (h : s.Kept g) (hok : s.Careful g i) (hp : (s.tick g i).Pending a) :
    OwnOrFree g.globalSid ((s.tick g i).ram.cell a) := by
  have hold : s.Pending a → OwnOrFree g.globalSid ((s.tick g i).ram.cell a) :=
    fun hpend => h.tick_ownOrFree hok (h.pending a hpend) fun hA => hok.calm a hA hpend
  have hseen : OwnOrFree g.globalSid (s.ram.cell a) → s.portB.addr = a →
      OwnOrFree g.globalSid ((s.tick g i).ram.cell a) := by
    intro hcell haddr
    refine h.tick_ownOrFree hok hcell fun hA => absurd ?_ hok.separate
    rw [haddr]
    exact hA
  rcases pending_iff.mp hp with h127 | ⟨q, hq, ha⟩ | haims
  · exact hold (Or.inl h127)
  · rcases inHand_tick h.inTime hok.choice hq with hq | rfl | ⟨hpick, rfl⟩
    · exact hold (pending_iff.mpr (Or.inr (Or.inl ⟨q, hq, ha⟩)))
    · exact hold (Or.inl ha.symm)
    · have haddr : s.fcb.addr = a := by
        rw [← ha, BitVec.setWidth_setWidth_of_le s.fcb.addr (show 7 ≤ 16 from by decide), BitVec.setWidth_eq]
      obtain ⟨hcell, hport⟩ := h.ownOrFree_of_picks hpick
      rw [haddr] at hcell hport
      exact hseen hcell hport
  · rcases Bch.aims_tick h.regular haims with hb | hcand | ⟨hpass, hslot⟩
    · exact hold (pending_iff.mpr (Or.inr (Or.inr hb)))
    · exact hold (Or.inr (Or.inr (Or.inl hcand)))
    · obtain ⟨hcell, hport⟩ := h.ownOrFree_of_passes hok hpass
      have hw : s.workSlot = a := hslot
      rw [hw] at hcell hport
      exact hseen hcell hport

theorem Shared.tick_scan (h : s.Shared) (hst : (s.tick g i).fcb.state = .rdLoop) :
    (s.fcb.state = .start ∨ s.fcb.state = .clrSetaddrWait) ∧ (s.tick g i).fcb.addr = s.fcb.addr
      ∧ s.portB.addr = s.fcb.addr
      ∧ (¬ s.portA.Writes s.fcb.addr → (s.tick g i).ram.doutB = (s.tick g i).ram.cell s.fcb.addr) := by
  have hpre : s.fcb.state = .start ∨ s.fcb.state = .clrSetaddrWait := by
    have hnext := (@fcb_controls g s i).state
    rw [hst] at hnext
    revert hnext
    cases s.fcb.state <;> simp [FcbState.next]
  have hne : s.fcb.state ≠ .idle ∧ s.fcb.state ≠ .clrSetaddr := by
    rcases hpre with hpre | hpre <;>
      (rw [hpre]; exact ⟨FcbState.noConfusion, FcbState.noConfusion⟩)
  refine ⟨hpre, ?_, by rw [h.portB_fcb hne.1]; rfl, fun hA => ?_⟩
  · change (s.fcb.tick g (s.fcbIn i)).addr = _
    rcases hpre with hpre | hpre <;> rw [Fcb.tick, hpre]
  · obtain ⟨hdout, hcell⟩ := @Shared.tick_ram_of_fcb g _ i _ h hA _ rfl hne.1 hne.2 rfl
    rw [hdout, hcell]

theorem Kept.tick_scan (h : s.Kept g) (hok : s.Careful g i) (hst : (s.tick g i).fcb.state = .rdLoop) :
    (s.tick g i).ram.doutB = (s.tick g i).ram.cell (s.tick g i).fcb.addr := by
  obtain ⟨-, hsame, hport, hlook⟩ := h.shared.tick_scan hst
  rw [hsame]
  refine hlook ?_
  rw [← hport]
  exact hok.separate

/-- **A careful cycle.** -/
theorem Kept.tick (h : s.Kept g) (hok : s.Careful g i) : (s.tick g i).Kept g where
  shared := h.shared.tick
  regular := h.regular.tick
  inTime := h.inTime.tick
  fresh a := by
    refine Fresh.tick h.shared (h.fresh a) fun hA hheld => hok.separate ?_
    rw [h.shared.portB_of_held hheld]
    exact hA
  scan := h.tick_scan hok
  neat := h.neat.tick fun _ => h.doutA
  sane := h.sane.tick
  doutA := h.tick_doutA hok
  plain := h.tick_plain hok
  pending _ := h.tick_pending hok

theorem kept_reset (g : TdmaSetting) (len : BitVec 10) : (reset len).Kept g where
  shared := shared_reset len
  regular := regular_trace g (fun _ => {}) len 0
  inTime := writesInTime_trace g (fun _ => {}) len 0
  fresh _ := ⟨fun h => FiState.noConfusion h, fun h => FiState.noConfusion h, fun h => FiState.noConfusion h,
    fun h => absurd h.1 Bool.false_ne_true, fun h => FcbState.noConfusion h,
    fun h => absurd h.1 Bool.false_ne_true⟩
  scan h := FcbState.noConfusion h
  neat := ⟨fun h => absurd h Bool.false_ne_true, fun _ _ => rfl⟩
  sane := ⟨fun h => absurd h Bool.false_ne_true, fun h => absurd h Bool.false_ne_true⟩
  doutA _ := rfl
  plain _ _ := rfl
  pending _ _ := Or.inl rfl

end Step

/-- As in the run of the write-backs, but the node takes slot 0. -/
def claimingInp (t n : ℕ) : Cycle := { racingInp t n with inputRandom := 0 }

abbrev claiming (t : ℕ) : ℕ → System := trace (tick racingSetting) (claimingInp t) (reset 4)

end System

end VanetTdma.Fpga
