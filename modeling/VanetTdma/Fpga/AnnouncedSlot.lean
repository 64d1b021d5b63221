import VanetTdma.Fpga.OwnOrFree
import VanetTdma.Fpga.TableScan

/-!
# A slot announced by its occupier is not offered

A neighbour announces its slot; the slot-table updater records it; the next build of the FI builder unlocks and
ages the entry, and the FCB search at its end scans the table for candidates.

* `Blocked`, `Taken` — an entry that the search will not find eligible after the aging, and after it;
* `OwnTag.blocked` — the updater's judgement of an announcement in an unlocked entry blocks it;
* `Barred.tick` — the entry stays blocked until it is aged, and taken from then on;
* `announced_slot_not_offered` — the search does not push the slot.

A locked entry is passed over by the updater and unlocked by the build (`locked_slot_offered`).
-/

namespace VanetTdma.Fpga

open VanetTdma.Clocked VanetTdma.DualPort

/-! ### Entries -/

/-- Held by another node, and not by a two-hop neighbour in its last frame. -/
structure Blocked (globalSid : BitVec 8) (e : SlotEntry) : Prop where
  other : e.occupierSid ≠ globalSid
  busy : e.busy ≠ 0
  lasts : e.busy = 1 → e.life ≠ 1

/-- Held by another node, or locked. -/
def Taken (globalSid : BitVec 8) (e : SlotEntry) : Prop :=
  e.occupierSid ≠ globalSid ∧ e.busy ≠ 0 ∨ e.locker = true

section Entry

variable {g : TdmaSetting} {sid sender : BitVec 8} {e w : SlotEntry} {t : FiTag}

theorem Blocked.taken (h : Blocked sid e) : Taken sid e := Or.inl ⟨h.other, h.busy⟩

theorem Taken.not_eligible (h : Taken g.globalSid e) (strict : Bool) : ¬ Eligible g strict e := by
  rintro ⟨hfree | ⟨-, hown⟩, hlock⟩
  · rcases h with ⟨-, hbusy⟩ | hlocked
    · exact hbusy hfree
    · exact Bool.false_ne_true (hlock.symm.trans hlocked)
  · rcases h with ⟨hother, -⟩ | hlocked
    · exact hother hown
    · exact Bool.false_ne_true (hlock.symm.trans hlocked)

theorem Taken.countsCleared (h : Taken sid e) : Taken sid (countsCleared sid e) := by
  unfold Fpga.countsCleared
  split <;> exact h

theorem Blocked.refreshed (h : Blocked sid e) : Taken sid (refreshed sid e (unlocked e)) := by
  unfold Fpga.refreshed
  split
  · split
    · exact Or.inl ⟨h.other, h.busy⟩
    split
    · rename_i hlife
      split
      · rename_i hbusy
        exact absurd hlife (h.lasts hbusy)
      split
      · exact Or.inl ⟨h.other, show (1 : BitVec 2) ≠ 0 from by decide⟩
      · exact Or.inr rfl
    · exact Or.inl ⟨h.other, h.busy⟩
  · exact Or.inl ⟨h.other, h.busy⟩

/-- What a judgement of the second pass makes of an entry of another node, unless the node gives it up. -/
structure Judged (globalSid : BitVec 8) (e w : SlotEntry) : Prop where
  other : w.occupierSid ≠ globalSid
  busy : w.busy ≠ 0
  lasts : (e.busy = 1 → e.life ≠ 1) → w.busy = 1 → w.life ≠ 1

theorem Judged.blocked (h : Judged sid e w) (he : Blocked sid e) : Blocked sid w :=
  ⟨h.other, h.busy, h.lasts he.lasts⟩

/-- **A judgement keeps a slot with its node**, or hands it to another, unless its node gives it up. -/
theorem Verdict.judged (h : Verdict sender t e e w) (hother : e.occupierSid ≠ sid) (hbusy : e.busy ≠ 0)
    (ht : t.occupierSid ≠ sid) (hkeep : ¬ (t.occupierSid = 0 ∧ sender = e.occupierSid)) : Judged sid e w := by
  have hframe : occupierLifeFrame ≠ 1 := by decide
  cases h with
  | keeps hsid hsame hlife =>
    refine ⟨hsid.trans_ne hother, hsame.trans_ne hbusy, fun hlasts hone => ?_⟩
    rcases hlife with hlife | hlife
    · rw [hlife]
      exact hlasts (hsame.symm.trans hone)
    · rw [hlife]
      exact hframe
  | marks hsid hmark =>
    rcases hmark with hmark | hmark
    · exact ⟨hsid.trans_ne hother, hmark.trans_ne (by decide), fun _ hone => absurd (hmark.symm.trans hone) (by decide)⟩
    · exact ⟨hsid.trans_ne hother, hmark.trans_ne (by decide), fun _ hone => absurd (hmark.symm.trans hone) (by decide)⟩
  | hands hsid hmark hlife =>
    refine ⟨hsid.trans_ne ht, ?_, fun _ _ => hlife.trans_ne hframe⟩
    rcases hmark with hmark | hmark <;> exact hmark.trans_ne (by decide)
  | frees hzero hsender => exact absurd ⟨hzero, hsender⟩ hkeep

/-- The tag with which a node announces its own slot. -/
def OwnTag (sender : BitVec 8) (t : FiTag) : Prop := t.occupierSid = sender ∧ t.busy = 2

instance (sender : BitVec 8) (t : FiTag) : Decidable (OwnTag sender t) := inferInstanceAs (Decidable (_ ∧ _))

/-- The entry can take an announcement of the node up: it is unlocked, not this node's, and not that of another
two-hop neighbour in its last frame. -/
structure Open (globalSid sender : BitVec 8) (e : SlotEntry) : Prop where
  unlocked : e.locker = false
  other : e.occupierSid ≠ globalSid
  lasts : e.busy = 1 → e.occupierSid = sender ∨ e.life ≠ 1

/-- **An announcement blocks an open entry**, written or not. -/
theorem OwnTag.blocked (h : OwnTag sender t) (hne : sender ≠ sid) (hzero : sender ≠ 0)
    (he : Open sid sender e) : Blocked sid ((fiLoop4Din sender t e e).getD e) := by
  have htne : t.occupierSid ≠ sid := h.1.trans_ne hne
  have htzero : t.occupierSid ≠ 0 := h.1.trans_ne hzero
  by_cases hfree : e.busy = 0
  · have hw : fiLoop4Din sender t e e = fiLoop4Free sender t e e := by
      unfold fiLoop4Din
      rw [if_neg (by rw [hfree]; decide), if_neg (by rw [hfree]; decide), if_pos hfree]
    rw [hw, fiLoop4Free, if_pos htzero, if_pos h.2]
    have htwo : (if t.occupierSid = sender then (2 : BitVec 2) else 1) = 2 := if_pos h.1
    refine ⟨htne, ?_, fun hc => ?_⟩
    · exact htwo.trans_ne (by decide)
    · exact absurd (htwo.symm.trans hc) (by decide)
  by_cases hlast : e.busy = 1 ∧ e.occupierSid = sender
  · -- the two-hop neighbour has come near
    have hw : fiLoop4Din sender t e e = fiLoop4TwoHop sender t e e := by
      unfold fiLoop4Din
      rw [if_neg (by rw [hlast.1]; decide), if_pos hlast.1]
    have hsame : e.occupierSid = t.occupierSid := hlast.2.trans h.1.symm
    rw [hw, fiLoop4TwoHop, if_neg (fun hc => hc.1 hsame), if_pos hsame, if_pos h.2]
    simp only [Option.getD_some, if_pos h.1]
    split <;> exact ⟨he.other, show (2 : BitVec 2) ≠ 0 from by decide,
      fun hc => absurd hc (show ¬ (2 : BitVec 2) = 1 from by decide)⟩
  · have hblocked : Blocked sid e := by
      refine ⟨he.other, hfree, fun hone => ?_⟩
      exact (he.lasts hone).resolve_left fun hc => hlast ⟨hone, hc⟩
    cases hw : fiLoop4Din sender t e e with
    | none => exact hblocked
    | some w =>
      have hkeep : ¬ (t.occupierSid = 0 ∧ sender = e.occupierSid) := fun hc => htzero hc.1
      exact ((fiLoop4Din_verdict hw).judged he.other hfree htne hkeep).blocked hblocked

end Entry

/-! ### The updater at a slot -/

namespace Stu

/-- The tag of slot `c` has been read as a whole in the second pass. -/
def HoldsTag (c : BitVec 7) (u : Stu) : Prop :=
  u.state = .fiLoop .second ∧ u.addr = c ∧ u.addr.toNat ≠ u.fiFrameLen.toNat
    ∧ u.fiPerSlotIndex.toNat = fiPerSlotBitsnum

instance (c : BitVec 7) (u : Stu) : Decidable (u.HoldsTag c) := inferInstanceAs (Decidable (_ ∧ _))

/-- What the updater writes was judged in the second pass; in the first pass it writes to slots of this node
only. -/
def Composes (i : StuIn) (u : Stu) (w : SlotEntry) : Prop :=
  u.state = .fiJudge .first ∧ i.dout.occupierSid = i.globalSid
    ∨ u.state = .fiInbWait
    ∨ u.state = .fiJudge .second ∧ u.fiPerSlot.occupierSid ≠ i.globalSid
      ∧ fiLoop4Din u.senderSid u.fiPerSlot i.dout u.din = some w

section Slot

variable {i : StuIn} {u v : Stu} {p : Pass} {o : Option SlotEntry} {w : SlotEntry}

theorem Judgement.composes (h : u.Judgement i p o) (ho : o = some w) : u.Composes i w := by
  cases h with
  | other hst hown _ | own hst hown => exact Or.inl ⟨hst, hown⟩
  | neighbour hst => exact Or.inr (Or.inl hst)
  | second hst htag => exact Or.inr (Or.inr ⟨hst, htag, ho⟩)

/-- A slot is judged when its tag has been read and the entry is unlocked; the first pass can be caught there on
a slot of this node. -/
theorem Edge.of_fiJudge (h : Edge i u v) (hst : v.state = .fiJudge p) :
    u.state = .fiLoop p ∧ v.din = i.dout ∧ i.dout.locker = false
      ∨ u.state = .fiJudge .first ∧ i.dout.occupierSid = i.globalSid := by
  cases h with
  | leaves hno _ _ =>
    rw [hst] at hno
    cases hno
  | scans _ hno _ _ _ _ =>
    refine absurd ?_ hno
    cases p
    · exact Or.inl hst
    · exact Or.inr (Or.inl hst)
  | takes q hold _ hst' _ hdin _ =>
    rw [hst] at hst'
    split at hst'
    · cases hst'
    · rename_i hlock
      obtain rfl := StuState.fiJudge.inj hst'
      exact Or.inl ⟨hold, hdin, Bool.not_eq_true _ ▸ hlock⟩
  | waits hwait _ _ _ =>
    rcases hwait with ⟨-, hinb⟩ | ⟨hfirst, -⟩
    · cases hst.symm.trans hinb
    · exact Or.inr hfirst
  | judges q o _ hclr _ _ _ => cases hst.symm.trans hclr

theorem Edge.of_fiInbWait (h : Edge i u v) (hst : v.state = .fiInbWait) :
    u.state = .fiInbWait ∨ u.state = .fiJudge .first ∧ i.dout.occupierSid = i.globalSid := by
  cases h with
  | leaves hno _ _ =>
    rw [hst] at hno
    cases hno
  | scans _ hno _ _ _ _ => exact absurd (Or.inr (Or.inr hst)) hno
  | takes q _ _ hst' _ _ _ =>
    rw [hst] at hst'
    split at hst' <;> cases hst'
  | waits hwait _ _ _ => exact hwait.imp And.left And.left
  | judges q o _ hclr _ _ _ => cases hst.symm.trans hclr

end Slot

end Stu

/-! ### A build ages an entry once -/

/-- The states of a build before its scan. -/
def FiState.before : FiState → Bool
  | idle | startRstBuf | startRstBufLoop | startPre | start => true
  | _ => false

/-- The states of the scan at a slot. -/
def FiState.inSlot : FiState → Bool
  | loop1Pre | loop1 | loop1Unlock | loop1Refresh | loop2 | loop2Wr => true
  | _ => false

theorem FiState.before_of_next {st n : FiState} (hnext : n ∈ st.next) (hn : n.before = true)
    (hidle : n = .idle → st = .idle) : st.before = true := by
  have hall : ∀ st : FiState,
      (st.next.all fun n => !n.before || st.before || decide (n = .idle ∧ st = .fiEnd)) = true := by
    intro st
    cases st <;> rfl
  have hcases := List.all_eq_true.mp (hall st) n hnext
  simp only [hn, Bool.not_true, Bool.false_or, Bool.or_eq_true, decide_eq_true_eq] at hcases
  rcases hcases with hbefore | ⟨hn, hend⟩
  · exact hbefore
  · exact FiState.noConfusion (hend.symm.trans (hidle hn))

namespace Fi

/-- The build has not aged the entry yet. -/
def Ahead (c : BitVec 7) (f : Fi) : Prop :=
  f.state.before = true
    ∨ f.state.inSlot = true ∧ (f.addr.toNat < c.toNat
      ∨ f.addr = c ∧ f.state ≠ .loop2Wr ∧ (f.state = .loop2 → f.we = true))

/-- The scan has not passed the end of the frame. -/
structure Bounded (len : ℕ) (f : Fi) : Prop where
  start : f.state = .start → f.addr = 0
  le : f.state.inSlot = true → f.addr.toNat ≤ len
  lt : f.state.inSlot = true → f.state ≠ .loop1Pre → f.addr.toNat < len

section Scan

variable {g : TdmaSetting} {i : FiIn} {f : Fi} {c : BitVec 7} {len : ℕ}

theorem of_tick_inSlot (h : (f.tick g i).state.inSlot = true) :
    f.state = .start ∧ (f.tick g i).state = .loop1Pre ∧ (f.tick g i).addr = f.addr
      ∨ f.state = .loop1Pre ∧ (f.tick g i).state = .loop1 ∧ (f.tick g i).addr = f.addr
        ∧ f.addr.toNat ≠ i.currFrameLen.toNat
      ∨ f.state.inSlot = true ∧ f.state ≠ .loop1Pre ∧ (f.tick g i).state ≠ .loop1Pre
        ∧ (f.tick g i).addr = f.addr
      ∨ (f.state = .loop2 ∨ f.state = .loop2Wr) ∧ (f.tick g i).state = .loop1Pre
        ∧ (f.tick g i).addr = f.addr + 1 := by
  revert h
  unfold tick
  split
  case h_1 hst =>
    have hnext := (idle_controls i hst).state
    rw [hst] at hnext
    simp only [FiState.next, List.mem_cons, List.not_mem_nil, or_false] at hnext
    intro h
    rcases hnext with hn | hn | hn <;> (rw [hn] at h; exact absurd h Bool.false_ne_true)
  case h_3 =>
    simp only
    split <;> exact fun h => absurd h Bool.false_ne_true
  case h_5 hst => exact fun _ => Or.inl ⟨hst, rfl, rfl⟩
  case h_6 hst =>
    split
    · simp only
      split <;> exact fun h => absurd h Bool.false_ne_true
    · rename_i hne
      exact fun _ => Or.inr (Or.inl ⟨hst, rfl, rfl, hne⟩)
  case h_7 hst =>
    exact fun _ => Or.inr (Or.inr (Or.inl ⟨by rw [hst]; rfl, by rw [hst]; exact FiState.noConfusion,
      FiState.noConfusion, rfl⟩))
  case h_8 hst =>
    exact fun _ => Or.inr (Or.inr (Or.inl ⟨by rw [hst]; rfl, by rw [hst]; exact FiState.noConfusion,
      FiState.noConfusion, rfl⟩))
  case h_9 hst =>
    exact fun _ => Or.inr (Or.inr (Or.inl ⟨by rw [hst]; rfl, by rw [hst]; exact FiState.noConfusion,
      FiState.noConfusion, rfl⟩))
  case h_10 hst =>
    intro _
    unfold loop2
    simp only
    split
    · exact Or.inr (Or.inr (Or.inl ⟨by rw [hst]; rfl, by rw [hst]; exact FiState.noConfusion,
        FiState.noConfusion, rfl⟩))
    split
    · exact Or.inr (Or.inr (Or.inr ⟨Or.inl hst, rfl, rfl⟩))
    · refine Or.inr (Or.inr (Or.inl ⟨by rw [hst]; rfl, by rw [hst]; exact FiState.noConfusion, ?_, rfl⟩))
      exact fun hc => FiState.noConfusion (hst.symm.trans hc)
  case h_11 hst =>
    intro _
    unfold loop2Wr
    simp only
    split
    · exact Or.inr (Or.inr (Or.inr ⟨Or.inr hst, rfl, rfl⟩))
    · exact Or.inr (Or.inr (Or.inl ⟨by rw [hst]; rfl, by rw [hst]; exact FiState.noConfusion,
        FiState.noConfusion, rfl⟩))
  case h_13 hst =>
    have hnext := (adjIsNeeded_controls g i hst).state
    rw [hst] at hnext
    simp only [FiState.next, List.mem_cons, List.not_mem_nil, or_false] at hnext
    intro h
    rcases hnext with hn | hn <;> (rw [hn] at h; exact absurd h Bool.false_ne_true)
  case h_15 =>
    simp only [adjWinner]
    split <;> exact fun h => absurd h Bool.false_ne_true
  all_goals
    rename_i hst
    first
    | exact fun h => absurd h Bool.false_ne_true
    | (split <;> intro h <;> simp_all [FiState.inSlot])

theorem toNat_succ_of_bounded (hb : f.Bounded len) (hlen : len < 128) (hslot : f.state.inSlot = true)
    (hne : f.state ≠ .loop1Pre) : (f.addr + 1).toNat = f.addr.toNat + 1 := by
  have hlt := hb.lt hslot hne
  rw [BitVec.toNat_add]
  exact Nat.mod_eq_of_lt (by simpa using (by omega : f.addr.toNat + 1 < 128))

theorem Bounded.tick (h : f.Bounded len) (hlen : len < 128)
    (hi : f.state.inSlot = true → i.currFrameLen.toNat = len) : (f.tick g i).Bounded len := by
  have hin : (f.tick g i).state.inSlot = true → (f.tick g i).addr.toNat ≤ len
      ∧ ((f.tick g i).state ≠ .loop1Pre → (f.tick g i).addr.toNat < len) := by
    intro hslot
    rcases of_tick_inSlot hslot with ⟨hst, hpre, haddr⟩ | ⟨hst, -, haddr, hne⟩ | ⟨hin, hpre, -, haddr⟩
      | ⟨hst, hpre, haddr⟩
    · rw [haddr, h.start hst]
      exact ⟨Nat.zero_le _, fun hc => absurd hpre hc⟩
    · have hin : f.state.inSlot = true := by
        rw [hst]
        rfl
      have hle := h.le hin
      rw [hi hin] at hne
      rw [haddr]
      exact ⟨hle, fun _ => by omega⟩
    · rw [haddr]
      exact ⟨h.le hin, fun _ => h.lt hin hpre⟩
    · have hin : f.state.inSlot = true ∧ f.state ≠ .loop1Pre := by
        rcases hst with hst | hst <;> (rw [hst]; exact ⟨rfl, nofun⟩)
      have hlt := h.lt hin.1 hin.2
      rw [haddr, toNat_succ_of_bounded h hlen hin.1 hin.2]
      exact ⟨by omega, fun hc => absurd hpre hc⟩
  refine ⟨?_, fun hslot => (hin hslot).1, fun hslot => (hin hslot).2⟩
  intro hst
  have hpre : f.state = .startPre := by
    have hnext := (tick_controls g i f).state
    rw [hst] at hnext
    revert hnext
    cases f.state <;> simp [FiState.next]
  rw [Fi.tick, hpre]

/-- **A build ages an entry once**: what is ahead of it was so before, and is not being written. -/
theorem ahead_of_tick (hb : f.Bounded len) (hlen : len < 128) (hwe : f.we = true → f.state = .loop2)
    (hidle : (f.tick g i).state = .idle → f.state = .idle) (h : (f.tick g i).Ahead c) :
    f.Ahead c ∧ ¬ f.portB.Writes c := by
  have hquiet : f.state ≠ .loop2 → ¬ f.portB.Writes c := fun hne hw => hne (hwe hw.1)
  rcases h with hbefore | ⟨hslot, hplace⟩
  · have hold := FiState.before_of_next (tick_controls g i f).state hbefore hidle
    refine ⟨Or.inl hold, hquiet ?_⟩
    intro hc
    rw [hc] at hold
    exact Bool.false_ne_true hold
  rcases of_tick_inSlot hslot with ⟨hst, -, -⟩ | ⟨hst, -, haddr, -⟩ | ⟨hin, hpre, hnot, haddr⟩
    | ⟨hst, -, haddr⟩
  · exact ⟨Or.inl (by rw [hst]; rfl), hquiet (by rw [hst]; exact FiState.noConfusion)⟩
  · rw [haddr] at hplace
    refine ⟨Or.inr ⟨by rw [hst]; rfl, ?_⟩, hquiet (by rw [hst]; exact FiState.noConfusion)⟩
    refine hplace.imp_right fun heq => ⟨heq.1, ?_⟩
    rw [hst]
    exact ⟨FiState.noConfusion, fun hc => FiState.noConfusion hc⟩
  · rw [haddr] at hplace
    rcases hplace with hlt | ⟨heq, hwr, hup⟩
    · refine ⟨Or.inr ⟨hin, Or.inl hlt⟩, fun hw => ?_⟩
      have haddr : f.addr = c := hw.2
      rw [haddr] at hlt
      exact Nat.lt_irrefl _ hlt
    · -- the entry itself: the write enable says that its word is still to come
      have hnext := (tick_controls g i f).state
      have hafter := (tick_controls g i f).we
      have hold : f.state ≠ .loop2 ∧ f.state ≠ .loop2Wr := by
        constructor
        · intro hc
          rw [hc] at hnext hafter
          simp only [FiState.next, List.mem_cons, List.not_mem_nil, or_false] at hnext
          rcases hnext with hn | hn | hn
          · exact Bool.false_ne_true (hafter.symm.trans (hup hn))
          · exact hwr hn
          · exact hnot hn
        · intro hc
          rw [hc] at hnext hafter
          simp only [FiState.next, List.mem_cons, List.not_mem_nil, or_false] at hnext
          rcases hnext with hn | hn
          · have hhigh : f.we = true := hafter.symm.trans (hup hn)
            exact FiState.noConfusion (hc.symm.trans (hwe hhigh))
          · exact hnot hn
      exact ⟨Or.inr ⟨hin, Or.inr ⟨heq, hold.2, fun hc => absurd hc hold.1⟩⟩, hquiet hold.1⟩
  · have hin : f.state.inSlot = true ∧ f.state ≠ .loop1Pre := by
      rcases hst with hst | hst <;> (rw [hst]; exact ⟨rfl, FiState.noConfusion⟩)
    have hsucc := toNat_succ_of_bounded hb hlen hin.1 hin.2
    have hlt : f.addr.toNat < c.toNat := by
      rcases hplace with hlt | ⟨heq, -⟩
      · rw [haddr, hsucc] at hlt
        omega
      · rw [← heq, haddr, hsucc]
        exact Nat.lt_succ_self _
    refine ⟨Or.inr ⟨hin.1, Or.inl hlt⟩, fun hw => ?_⟩
    have haddr : f.addr = c := hw.2
    rw [haddr] at hlt
    exact Nat.lt_irrefl _ hlt

end Scan

end Fi

/-! ### The system -/

namespace System

/-- The updater works on a packet and is at slot `c`. -/
def StuAt (c : BitVec 7) (s : System) : Prop := s.unit.stu.state ≠ .idle ∧ s.unit.stu.addr = c

instance (c : BitVec 7) (s : System) : Decidable (s.StuAt c) := inferInstanceAs (Decidable (_ ∧ _))

/-- The FI builder or the FCB search has the entry in hand or reads it. -/
def Touches (c : BitVec 7) (s : System) : Prop :=
  s.Held c ∨ s.fcb.addr = c ∧ (s.fcb.state = .start ∨ s.fcb.state = .clrSetaddrWait)

instance (c : BitVec 7) (s : System) : Decidable (s.Touches c) := inferInstanceAs (Decidable (_ ∨ _))

/-- The node that is recorded in the entry gives it up. -/
def Withdraws (c : BitVec 7) (s : System) : Prop :=
  s.unit.stu.state = .fiJudge .second ∧ s.unit.stu.addr = c ∧ s.unit.stu.fiPerSlot.occupierSid = 0
    ∧ s.unit.stu.senderSid = s.ram.doutA.occupierSid

instance (c : BitVec 7) (s : System) : Decidable (s.Withdraws c) := inferInstanceAs (Decidable (_ ∧ _))

/-- A cycle that leaves a recorded slot alone: the BCH machine does not write it, the updater is not at it together
with the builder or the search, and the recorded node does not give it up. -/
structure Leaves (c : BitVec 7) (s : System) : Prop where
  bch : ¬ s.BchWrites c
  apart : s.StuAt c → ¬ s.Touches c
  stays : ¬ s.Withdraws c

def Pushes (c : BitVec 7) (s : System) : Prop := s.fcb.Writing ∧ s.fcb.dwrite = c.setWidth 16

instance (c : BitVec 7) (s : System) : Decidable (s.Pushes c) := inferInstanceAs (Decidable (_ ∧ _))

/-- The updater has read the tag with which the sender announces slot `c`. -/
def Hears (sender : BitVec 8) (c : BitVec 7) (s : System) : Prop :=
  s.unit.stu.HoldsTag c ∧ s.unit.stu.senderSid = sender ∧ OwnTag sender s.unit.stu.fiPerSlot

instance (sender : BitVec 8) (c : BitVec 7) (s : System) : Decidable (s.Hears sender c) :=
  inferInstanceAs (Decidable (_ ∧ _))

/-- What the entry, or a word on its way to it, has to be: taken, and blocked until the build has aged it. -/
def Bars (g : TdmaSetting) (c : BitVec 7) (s : System) (e : SlotEntry) : Prop :=
  Taken g.globalSid e ∧ (s.fi.Ahead c → Blocked g.globalSid e)

/-- The slot is barred. -/
structure Barred (g : TdmaSetting) (c : BitVec 7) (len : ℕ) (s : System) : Prop where
  shared : s.Shared
  fresh : s.Fresh g c
  inClr : s.unit.stu.WritesInClr
  bounded : s.fi.Bounded len
  scan : s.fcb.state = .rdLoop → s.fcb.addr = c → s.ram.doutB = s.ram.cell c
  cell : s.Bars g c (s.ram.cell c)
  entry : s.unit.stu.state.reading = true → s.unit.stu.addr = c → s.ram.doutA = s.ram.cell c
  judge : ∀ p, s.unit.stu.state = .fiJudge p → s.unit.stu.addr = c →
    s.unit.stu.din = s.ram.cell c ∧ (s.ram.cell c).locker = false
  inb : s.unit.stu.state = .fiInbWait → s.unit.stu.addr ≠ c
  word : s.unit.stu.we = true → s.unit.stu.addr = c → s.Bars g c s.unit.stu.din

section Step

variable {g : TdmaSetting} {s : System} {i : Cycle} {c : BitVec 7} {len : ℕ}

theorem Leaves.not_portB_writes (h : s.Leaves c) (hat : s.StuAt c) : ¬ s.portB.Writes c := by
  intro hB
  have hno := h.apart hat
  rcases of_portB_writes hB with ⟨hw, -⟩ | ⟨hw, -⟩ | ⟨hw, -⟩
  · exact hno (Or.inl (held_of_fcbWrites hw))
  · exact hno (Or.inl (held_of_fiWrites hw))
  · exact h.bch hw

theorem stuAt_of_writes (h : s.unit.stu.WritesInClr) (hA : s.portA.Writes c) : s.StuAt c := by
  obtain ⟨p, hp⟩ := h hA.1
  refine ⟨?_, hA.2⟩
  rw [hp]
  exact nofun

theorem Leaves.tick_ram_of_stu (h : s.Leaves c) (hat : s.StuAt c) (hwe : s.unit.stu.we = false) :
    (s.tick g i).ram.doutA = s.ram.cell c ∧ (s.tick g i).ram.cell c = s.ram.cell c := by
  have hB := h.not_portB_writes hat
  have hA : ¬ s.portA.Writes c := Port.not_writes_of_we hwe c
  refine ⟨?_, tick_cell_of_quiet hA hB⟩
  have haddr : s.portA.addr = c := hat.2
  have hdout : (s.tick g i).ram.doutA = s.ram.cell s.portA.addr := tick_doutA hwe (by rwa [haddr])
  rw [hdout, haddr]

theorem Bars.tick {e : SlotEntry} (h : s.Bars g c e) (hs : s.Shared) (hb : s.fi.Bounded len) (hlen : len < 128)
    (hidle : (s.tick g i).fi.state = .idle → s.fi.state = .idle) : (s.tick g i).Bars g c e := by
  refine ⟨h.1, fun hahead => h.2 ?_⟩
  exact (Fi.ahead_of_tick hb hlen hs.fiWe hidle hahead).1

theorem Barred.composes (h : s.Barred g c len) (hl : s.Leaves c) (haddr : s.unit.stu.addr = c)
    {w : SlotEntry} (hw : s.unit.stu.Composes (s.unit.stuIn (s.stuEnv g i) s.ram.doutA) w) : s.Bars g c w := by
  have hentry : s.unit.stu.state.reading = true → s.ram.doutA = s.ram.cell c := fun hr => h.entry hr haddr
  have hoccupied : (s.ram.cell c).locker = false →
      (s.ram.cell c).occupierSid ≠ g.globalSid ∧ (s.ram.cell c).busy ≠ 0 := by
    intro hlock
    exact h.cell.1.resolve_right fun hc => Bool.false_ne_true (hlock.symm.trans hc)
  rcases hw with ⟨hst, hown⟩ | hst | ⟨hst, htag, hdin⟩
  · have hdout := hentry (by rw [hst]; rfl)
    have hother := (hoccupied (h.judge _ hst haddr).2).1
    rw [← hdout] at hother
    exact absurd hown hother
  · exact absurd haddr (h.inb hst)
  · have hdout : s.ram.doutA = s.ram.cell c := hentry (by rw [hst]; rfl)
    obtain ⟨hhand, hlock⟩ := h.judge _ hst haddr
    obtain ⟨hother, hbusy⟩ := hoccupied hlock
    have hkeep : ¬ (s.unit.stu.fiPerSlot.occupierSid = 0
        ∧ s.unit.stu.senderSid = (s.ram.cell c).occupierSid) := by
      rintro ⟨hzero, hsender⟩
      rw [← hdout] at hsender
      exact hl.stays ⟨hst, haddr, hzero, hsender⟩
    have hword : fiLoop4Din s.unit.stu.senderSid s.unit.stu.fiPerSlot (s.ram.cell c) (s.ram.cell c)
        = some w := by
      rw [hhand] at hdin
      rw [← hdin]
      exact congrArg (fun d => fiLoop4Din _ _ d _) hdout.symm
    have hjudged := (fiLoop4Din_verdict hword).judged hother hbusy htag hkeep
    exact ⟨Or.inl ⟨hjudged.other, hjudged.busy⟩, fun hahead => hjudged.blocked (h.cell.2 hahead)⟩

/-- **The entry after an edge.** -/
theorem Barred.tick_cell (h : s.Barred g c len) (hl : s.Leaves c) (hlen : len < 128)
    (hidle : (s.tick g i).fi.state = .idle → s.fi.state = .idle) :
    (s.tick g i).Bars g c ((s.tick g i).ram.cell c) := by
  by_cases hA : s.portA.Writes c
  · have hB := hl.not_portB_writes (stuAt_of_writes h.inClr hA)
    have hcell : (s.tick g i).ram.cell c = s.unit.stu.din := tick_cell_write_a hA hB
    rw [hcell]
    exact (h.word hA.1 hA.2).tick h.shared h.bounded hlen hidle
  by_cases hfi : s.fi.portB.Writes c
  · have hahead : s.fi.Ahead c := by
      refine Or.inr ⟨?_, Or.inr ⟨hfi.2, ?_⟩⟩
      · rw [h.shared.fiWe hfi.1]
        rfl
      · rw [h.shared.fiWe hfi.1]
        exact ⟨nofun, fun _ => hfi.1⟩
    rw [h.shared.tick_cell_of_fiWrites hA hfi, h.fresh.fiWrite hfi]
    refine ⟨(h.cell.2 hahead).refreshed, fun hnext => ?_⟩
    exact absurd hfi (Fi.ahead_of_tick h.bounded hlen h.shared.fiWe hidle hnext).2
  by_cases hfcb : s.fcb.portB.Writes c
  · rw [h.shared.tick_cell_of_fcbWrites hA hfcb, h.fresh.fcbWrite hfcb]
    refine ⟨h.cell.1.countsCleared, fun hnext => ?_⟩
    -- the search runs after the scan of the build
    have hwait := h.shared.search.waitFcb (by rw [h.shared.fcbWe hfcb.1]; exact nofun)
    have hahead := (Fi.ahead_of_tick h.bounded hlen h.shared.fiWe hidle hnext).1
    rw [Fi.Ahead, hwait] at hahead
    rcases hahead with hc | ⟨hc, -⟩ <;> exact nomatch hc
  · have hB : ¬ s.portB.Writes c := by
      intro hB
      rcases of_portB_writes hB with ⟨hw, -⟩ | ⟨hw, -⟩ | ⟨hw, -⟩
      · exact hfcb hw
      · exact hfi hw
      · exact hl.bch hw
    have hcell : (s.tick g i).ram.cell c = s.ram.cell c := tick_cell_of_quiet hA hB
    rw [hcell]
    exact h.cell.tick h.shared h.bounded hlen hidle

theorem tick_scan_at (hs : s.Shared) (hin : s.unit.stu.WritesInClr) (hl : s.Leaves c)
    (hst : (s.tick g i).fcb.state = .rdLoop) (haddr : (s.tick g i).fcb.addr = c) :
    (s.tick g i).ram.doutB = (s.tick g i).ram.cell c := by
  obtain ⟨hpre, hsame, -, hlook⟩ := hs.tick_scan hst
  have hat : s.fcb.addr = c := hsame.symm.trans haddr
  rw [hat] at hlook
  exact hlook fun hA => hl.apart (stuAt_of_writes hin hA) (Or.inr ⟨hat, hpre⟩)

/-- **A cycle that leaves the slot alone.** -/
theorem Barred.tick (h : s.Barred g c len) (hl : s.Leaves c) (hlen : len < 128)
    (hidle : (s.tick g i).fi.state = .idle → s.fi.state = .idle)
    (hi : s.fi.state.inSlot = true → s.currFrameLen.toNat = len) : (s.tick g i).Barred g c len := by
  have hedge := Stu.edge (i := s.unit.stuIn (s.stuEnv g i) s.ram.doutA) h.inClr
  -- the updater stays at the slot
  have hstay : (s.tick g i).unit.stu.state.reading = true → (s.tick g i).unit.stu.addr = c →
      s.unit.stu.addr = c ∧ (s.tick g i).ram.doutA = s.ram.cell c
        ∧ (s.tick g i).ram.cell c = s.ram.cell c := by
    intro hr haddr
    have hst := hedge.stays hr
    have hold : s.unit.stu.addr = c := hst.addr.symm.trans haddr
    have hwe : s.unit.stu.we = false := h.inClr.we_false rfl hst.clr
    exact ⟨hold, hl.tick_ram_of_stu ⟨hst.busy, hold⟩ hwe⟩
  have hown : s.unit.stu.state = .fiJudge .first → s.unit.stu.addr = c →
      s.ram.doutA.occupierSid ≠ g.globalSid := by
    intro hst haddr
    rw [h.entry (by rw [hst]; rfl) haddr]
    have hlock := (h.judge _ hst haddr).2
    exact (h.cell.1.resolve_right fun hc => Bool.false_ne_true (hlock.symm.trans hc)).1
  refine ⟨h.shared.tick, ?_, hedge.writesInClr, h.bounded.tick hlen hi, tick_scan_at h.shared h.inClr hl,
    h.tick_cell hl hlen hidle, ?_, ?_, ?_, ?_⟩
  · exact Fresh.tick h.shared h.fresh fun hA hheld => hl.apart (stuAt_of_writes h.inClr hA) (Or.inl hheld)
  · intro hr haddr
    obtain ⟨-, hdout, hcell⟩ := hstay hr haddr
    rw [hdout, hcell]
  · intro p hst haddr
    obtain ⟨hold, -, hcell⟩ := hstay (by rw [hst]; rfl) haddr
    rcases hedge.of_fiJudge hst with ⟨hloop, hdin, hlock⟩ | ⟨hfirst, hc⟩
    · have hdout : s.ram.doutA = s.ram.cell c := h.entry (by rw [hloop]; rfl) hold
      rw [hcell]
      exact ⟨hdin.trans hdout, by rw [← hdout]; exact hlock⟩
    · exact absurd hc (hown hfirst hold)
  · intro hst haddr
    obtain ⟨hold, -, -⟩ := hstay (by rw [hst]; rfl) haddr
    rcases hedge.of_fiInbWait hst with hinb | ⟨hfirst, hc⟩
    · exact h.inb hinb hold
    · exact absurd hc (hown hfirst hold)
  · intro hwe haddr
    obtain ⟨hsame, p, hword⟩ := hedge.judgement hwe
    have hold : s.unit.stu.addr = c := hsame.symm.trans haddr
    exact (h.composes hl hold (hword.composes rfl)).tick h.shared h.bounded hlen hidle

end Step

/-! ### Runs -/

theorem writesInClr_trace (g : TdmaSetting) (inp : ℕ → Cycle) (len : BitVec 10) (n : ℕ) :
    (run g inp len n).unit.stu.WritesInClr := by
  induction n with
  | zero => exact fun h => nomatch h
  | succ n ih => exact (Stu.edge ih).writesInClr

section Run

variable {g : TdmaSetting} {s : System} {sender : BitVec 8} {c : BitVec 7}

theorem Hears.tick (h : s.Hears sender c) (hin : s.unit.stu.WritesInClr) (hlook : s.ram.doutA = s.ram.cell c)
    (hlock : (s.ram.cell c).locker = false) (hl : s.Leaves c) (i : Cycle) :
    (s.tick g i).unit.stu = { s.unit.stu with
        we := false, fiPerSlotIndex := 0, din := s.ram.cell c, state := .fiJudge .second }
      ∧ (s.tick g i).ram.doutA = s.ram.cell c ∧ (s.tick g i).ram.cell c = s.ram.cell c := by
  obtain ⟨⟨hst, haddr, hne, hfull⟩, -, -⟩ := h
  have hwe : s.unit.stu.we = false := hin.we_false hst fun _ => nofun
  refine ⟨?_, hl.tick_ram_of_stu ⟨by rw [hst]; exact nofun, haddr⟩ hwe⟩
  change s.unit.stu.tick _ = _
  rw [Stu.tick, hst]
  simp only
  rw [Stu.fiLoop_full hne hfull]
  simp only [StuUnit.stuIn, hlook, hlock, Bool.false_eq_true, if_false]

/-- **An announcement is recorded**: three cycles after its tag has been read the entry is blocked, and the
updater is at the next slot. -/
theorem Hears.recorded (h : s.Hears sender c) (hin : s.unit.stu.WritesInClr) (hne : sender ≠ g.globalSid)
    (hzero : sender ≠ 0) (hlook : s.ram.doutA = s.ram.cell c) (hopen : Open g.globalSid sender (s.ram.cell c))
    {i j k : Cycle} (hl : s.Leaves c) (hl' : (s.tick g i).Leaves c) (hl'' : ((s.tick g i).tick g j).Leaves c) :
    Blocked g.globalSid ((((s.tick g i).tick g j).tick g k).ram.cell c)
      ∧ (((s.tick g i).tick g j).tick g k).unit.stu.state = .fiLoopPre .second
      ∧ (((s.tick g i).tick g j).tick g k).unit.stu.we = false := by
  obtain ⟨⟨-, haddr, -⟩, hsender, htag⟩ := id h
  obtain ⟨hstu, hdout, hcell⟩ := h.tick (g := g) hin hlook hopen.unlocked hl i
  generalize s.tick g i = t at hl' hl'' hstu hdout hcell ⊢
  -- the tag is judged
  have hstu' : (t.tick g j).unit.stu = t.unit.stu.judged .second
      (fiLoop4Din sender s.unit.stu.fiPerSlot (s.ram.cell c) (s.ram.cell c)) := by
    change t.unit.stu.tick _ = _
    have hst : t.unit.stu.state = .fiJudge .second := by rw [hstu]
    rw [Stu.tick, hst]
    simp only [Stu.fiJudge, Stu.fiLoop4]
    have hfps : t.unit.stu.fiPerSlot = s.unit.stu.fiPerSlot := by rw [hstu]
    have hsid : t.unit.stu.senderSid = sender := by rw [hstu]; exact hsender
    have hdin : t.unit.stu.din = s.ram.cell c := by rw [hstu]
    rw [if_neg, hfps, hsid, hdin]
    · exact congrArg (fun d => t.unit.stu.judged .second
        (fiLoop4Din sender s.unit.stu.fiPerSlot d (s.ram.cell c))) hdout
    · rintro (hown | hown)
      · have hown : t.ram.doutA.occupierSid = g.globalSid := hown
        rw [hdout] at hown
        exact hopen.other hown
      · rw [hfps] at hown
        exact hne (htag.1.symm.trans hown)
  have hat : t.StuAt c := by
    rw [StuAt, hstu]
    exact ⟨StuState.noConfusion, haddr⟩
  have hwe : t.unit.stu.we = false := by rw [hstu]
  obtain ⟨-, hcell'⟩ := hl'.tick_ram_of_stu (g := g) (i := j) hat hwe
  rw [hcell] at hcell'
  have haddr' : (t.tick g j).unit.stu.addr = c := by
    rw [hstu', (Stu.judged_addr _ _).1]
    exact hat.2
  have hst' : (t.tick g j).unit.stu.state = .fiClr .second := by rw [hstu', (Stu.judged_addr _ _).2]
  have hblocked := htag.blocked hne hzero hopen
  generalize t.tick g j = u at hl'' hstu' hcell' haddr' hst' ⊢
  -- and the word is stored
  have hB : ¬ u.portB.Writes c := by
    refine hl''.not_portB_writes ⟨?_, haddr'⟩
    rw [hst']
    exact StuState.noConfusion
  refine ⟨?_, ?_, ?_⟩
  · cases hword : fiLoop4Din sender s.unit.stu.fiPerSlot (s.ram.cell c) (s.ram.cell c) with
    | none =>
      rw [hword] at hstu' hblocked
      have hA : ¬ u.portA.Writes c := by
        refine Port.not_writes_of_we ?_ c
        change u.unit.stu.we = false
        rw [hstu']
        exact hwe
      have hstore : (u.tick g k).ram.cell c = u.ram.cell c := tick_cell_of_quiet hA hB
      rw [hstore, hcell']
      exact hblocked
    | some w =>
      rw [hword] at hstu' hblocked
      have hA : u.portA.Writes c := by
        refine ⟨?_, haddr'⟩
        change u.unit.stu.we = true
        rw [hstu']
        rfl
      have hstore : (u.tick g k).ram.cell c = u.unit.stu.din := tick_cell_write_a hA hB
      rw [hstore, hstu']
      exact hblocked
  · change (u.unit.stu.tick _).state = _
    rw [Stu.tick, hst']
    rfl
  · change (u.unit.stu.tick _).we = _
    rw [Stu.tick, hst']
    rfl

variable {len : BitVec 10} {inp : ℕ → Cycle} {m d n L : ℕ}

theorem bounded_trace (hidle : ∀ k, m ≤ k → k ≤ d → (run g inp len k).fi.state = .idle)
    (hmd : m ≤ d) (hL : L < 128)
    (hsteady : ∀ k, d < k → k ≤ n → (run g inp len k).fi.state.inSlot = true →
      (run g inp len k).currFrameLen.toNat = L) {k : ℕ} (hmk : m ≤ k) (hkn : k ≤ n) :
    (run g inp len k).fi.Bounded L := by
  induction k, hmk using Nat.le_induction with
  | base =>
    have hst := hidle m (Nat.le_refl m) hmd
    refine ⟨?_, ?_, ?_⟩ <;> rw [hst]
    · exact fun h => FiState.noConfusion h
    · exact fun h => nomatch h
    · exact fun h => nomatch h
  | succ k hmk ih =>
    refine (ih (Nat.le_of_succ_le hkn)).tick hL ?_
    intro hslot
    rcases Nat.lt_or_ge d k with hdk | hkd
    · exact hsteady k hdk (Nat.le_of_succ_le hkn) hslot
    · rw [hidle k hmk hkd] at hslot
      exact nomatch hslot

theorem ne_waitFcb_of_idle (h : s.fi.state = .idle) (i j : Cycle) :
    (s.tick g i).fi.state ≠ .waitFcb ∧ ((s.tick g i).tick g j).fi.state ≠ .waitFcb := by
  have hnext := (@fi_controls g s i).state
  have hnext' := (@fi_controls g (s.tick g i) j).state
  rw [h] at hnext
  generalize (s.tick g i).fi.state = st at hnext hnext'
  generalize ((s.tick g i).tick g j).fi.state = st' at hnext'
  simp only [FiState.next, List.mem_cons, List.not_mem_nil, or_false] at hnext
  rcases hnext with rfl | rfl | rfl <;> (refine ⟨FiState.noConfusion, ?_⟩; rintro rfl; revert hnext') <;>
    simp [FiState.next]

/-- **An announced slot is not offered.**  In cycle `m`, between two builds, the updater has read the tag with
which another node announces slot `c`, and the entry of the slot can take the announcement up.  The next build
begins after cycle `d`, and the frame length does not change during its scan.  If the cycles from `m` on leave the
slot alone, the search at the end of that build does not push it. -/
theorem announced_slot_not_offered (hne : sender ≠ g.globalSid) (hzero : sender ≠ 0)
    (hhears : (trace (tick g) inp (reset len) m).Hears sender c)
    (hlook : (trace (tick g) inp (reset len) m).ram.doutA = (trace (tick g) inp (reset len) m).ram.cell c)
    (hopen : Open g.globalSid sender ((trace (tick g) inp (reset len) m).ram.cell c))
    (hmd : m ≤ d) (hidle : ∀ k, m ≤ k → k ≤ d → (trace (tick g) inp (reset len) k).fi.state = .idle)
    (hdn : d < n) (hbuild : ∀ k, d < k → k ≤ n → (trace (tick g) inp (reset len) k).fi.state ≠ .idle)
    (hL : L < 128)
    (hsteady : ∀ k, d < k → k ≤ n → (trace (tick g) inp (reset len) k).fi.state.inSlot = true →
      (trace (tick g) inp (reset len) k).currFrameLen.toNat = L)
    (hleaves : ∀ k, m ≤ k → k < n → (trace (tick g) inp (reset len) k).Leaves c) :
    ¬ (trace (tick g) inp (reset len) n).Pushes c := by
  intro hpush
  obtain ⟨n, rfl⟩ : ∃ k, n = k + 1 := ⟨n - 1, by omega⟩
  obtain ⟨hpicks, hdwrite, -⟩ := Fcb.of_tick_writing (writesInTime_trace g inp len n) hpush.1
  have hshared := shared_trace g inp len
  have hwait : (trace (tick g) inp (reset len) n).fi.state = .waitFcb := by
    refine (hshared n).search.waitFcb ?_
    rw [hpicks.1]
    exact FcbState.noConfusion
  -- the search runs three cycles after the announcement at the earliest
  have hm := hidle m (Nat.le_refl m) hmd
  have hlate : m + 3 ≤ n := by
    obtain ⟨h1, h2⟩ := @ne_waitFcb_of_idle g _ hm (inp m) (inp (m + 1))
    by_contra hlt
    have hcases : n = m ∨ n = m + 1 ∨ n = m + 2 := by omega
    rcases hcases with rfl | rfl | rfl
    · exact FiState.noConfusion (hwait.symm.trans hm)
    · exact h1 hwait
    · exact h2 hwait
  have hin := writesInClr_trace g inp len
  have hbounded : ∀ {k}, m ≤ k → k ≤ n + 1 → (trace (tick g) inp (reset len) k).fi.Bounded L :=
    fun hmk hkn => bounded_trace hidle hmd hL hsteady hmk hkn
  have hfresh : ∀ k, m ≤ k → k ≤ n → (trace (tick g) inp (reset len) k).Fresh g c := by
    intro k hmk hkn
    refine fresh_trace hmk ?_ ?_
    · rintro (⟨-, hst⟩ | ⟨-, hst⟩)
      · rw [hm] at hst
        rcases hst with hst | hst | hst | hst | hwe
        · exact FiState.noConfusion hst
        · exact FiState.noConfusion hst
        · exact FiState.noConfusion hst
        · exact FiState.noConfusion hst
        · exact FiState.noConfusion (hm.symm.trans ((hshared m).fiWe hwe))
      · have hfcb := (hshared m).search.fcb_idle (by rw [hm]; exact FiState.noConfusion)
        rw [hfcb] at hst
        rcases hst with hst | hst | hwe
        · exact FcbState.noConfusion hst
        · exact FcbState.noConfusion hst
        · exact FcbState.noConfusion (hfcb.symm.trans ((hshared m).fcbWe hwe))
    · intro j hmj hjk hA hheld
      exact (hleaves j hmj (by omega)).apart (stuAt_of_writes (hin j) hA) (Or.inl hheld)
  have hbarred : ∀ k, m + 3 ≤ k → k ≤ n → (trace (tick g) inp (reset len) k).Barred g c L := by
    intro k hmk
    induction k, hmk using Nat.le_induction with
    | base =>
      intro hkn
      obtain ⟨hblocked, hst, hwe⟩ := @Hears.recorded g _ sender c hhears (hin m) hne hzero hlook hopen (inp m)
        (inp (m + 1)) (inp (m + 2)) (hleaves m (Nat.le_refl m) (by omega))
        (hleaves (m + 1) (by omega) (by omega)) (hleaves (m + 2) (by omega) (by omega))
      refine ⟨hshared _, hfresh _ (by omega) hkn, hin _, hbounded (by omega) (by omega),
        tick_scan_at (hshared (m + 2)) (hin (m + 2)) (hleaves (m + 2) (by omega) (by omega)),
        ⟨hblocked.taken, fun _ => hblocked⟩, ?_, ?_, ?_, ?_⟩
      · intro hr
        change StuState.reading _ = true at hr
        rw [show (trace (tick g) inp (reset len) (m + 3)).unit.stu.state = _ from hst] at hr
        exact absurd hr Bool.false_ne_true
      · exact fun p hp => StuState.noConfusion (hst.symm.trans hp)
      · exact fun hp => StuState.noConfusion (hst.symm.trans hp)
      · exact fun hc => absurd (hwe.symm.trans hc) Bool.false_ne_true
    | succ k hmk ih =>
      intro hkn
      refine (ih (by omega)).tick (hleaves k (by omega) (by omega)) hL ?_ ?_
      · intro hnext
        rcases Nat.lt_or_ge d (k + 1) with hdk | hkd
        · exact absurd hnext (hbuild (k + 1) hdk (by omega))
        · exact hidle k (by omega) (by omega)
      · intro hslot
        rcases Nat.lt_or_ge d k with hdk | hkd
        · exact hsteady k hdk (by omega) hslot
        · rw [hidle k (by omega) hkd] at hslot
          exact absurd hslot Bool.false_ne_true
  have hlast := hbarred n hlate (Nat.le_refl n)
  have haddr : (trace (tick g) inp (reset len) n).fcb.addr = c := by
    have hsame : (trace (tick g) inp (reset len) n).fcb.addr.setWidth 16 = c.setWidth 16 :=
      hdwrite.symm.trans hpush.2
    have hcut := congrArg (BitVec.setWidth 7) hsame
    rwa [BitVec.setWidth_setWidth_of_le _ (show 7 ≤ 16 from by decide),
      BitVec.setWidth_setWidth_of_le _ (show 7 ≤ 16 from by decide), BitVec.setWidth_eq,
      BitVec.setWidth_eq] at hcut
  have helig : Eligible g (trace (tick g) inp (reset len) n).fi.fcbStrict
      (trace (tick g) inp (reset len) n).ram.doutB := hpicks.2.2
  rw [hlast.scan hpicks.1 haddr] at helig
  exact hlast.cell.1.not_eligible _ helig

end Run

/-! ### A slot that is offered in spite of its announcement -/

/-- The announcement of node 7 that comes in at 114 is recorded before the build that begins after cycle 152; the
search passes over slot 0 in cycle 251. -/
theorem announced_slot_not_offered_racing : (racing 114 151).Hears 7 0 ∧ ¬ (racing 114 251).Pushes 0 := by
  have hrun : (∀ k < 251, 151 ≤ k → (¬ (racing 114 k).BchWrites 0
        ∧ ((racing 114 k).StuAt 0 → ¬ (racing 114 k).Touches 0) ∧ ¬ (racing 114 k).Withdraws 0)
        ∧ (k ≤ 152 → (racing 114 k).fi.state = .idle))
      ∧ (∀ k < 252, 152 < k → (racing 114 k).fi.state ≠ .idle ∧ (racing 114 k).currFrameLen = 4)
      ∧ (racing 114 151).Hears 7 0 ∧ (racing 114 151).ram.doutA = {} ∧ (racing 114 151).ram.cell 0 = {} := by
    decide +kernel
  obtain ⟨hall, hbuild, hhears, hdout, hcell⟩ := hrun
  refine ⟨hhears, @announced_slot_not_offered racingSetting 7 0 4 (racingInp 114) 151 152 251 4 (by decide)
    (by decide) hhears (hdout.trans hcell.symm) ?_ (by decide) ?_ (by decide) ?_ (by decide) ?_ ?_⟩
  · change Open 5 7 ((racing 114 151).ram.cell 0)
    rw [hcell]
    exact ⟨rfl, by decide, fun h => absurd h (by decide)⟩
  · exact fun k hk hk' => (hall k (by omega) hk).2 hk'
  · exact fun k hk hk' => (hbuild k (by omega) hk).1
  · intro k hk hk' _
    exact congrArg BitVec.toNat (hbuild k (by omega) hk).2
  · intro k hk hk'
    obtain ⟨⟨hbch, hapart, hstays⟩, -⟩ := hall k hk' hk
    exact ⟨hbch, hapart, hstays⟩

/-- Node 7 announces slot 0 and gives it up again; then node 9 announces it. -/
def offeringPkt (n : ℕ) : RcvPkt := fun k =>
  if k = 20 then
    if n < 180 then 7 * 2 ^ 4 + 2 * 2 ^ 12 + 7 * 2 ^ 14
    else if n < 230 then 7 * 2 ^ 4
    else 9 * 2 ^ 4 + 2 * 2 ^ 12 + 9 * 2 ^ 14
  else 0

/-- Slots of 60 cycles; the three packets come in between the first two builds. -/
def offeringInp (n : ℕ) : Cycle where
  slotPointer := BitVec.ofNat 16 (n / 60 % 4)
  stuStart := n == 130 || n == 180 || n == 230
  rcvPkt := offeringPkt n
  ipicAck := true
  ipicDone := true
  inputRandom := 3

abbrev offering : ℕ → System := trace (tick racingSetting) offeringInp (reset 4)

/-- The slot that node 7 has given up is locked, so the announcement of node 9 is passed over; the build unlocks
it, and the search pushes it in cycle 401. -/
theorem locked_slot_offered :
    ¬ ∀ (g : TdmaSetting) (len : BitVec 10) (inp : ℕ → Cycle) (sender : BitVec 8) (c : BitVec 7) (m d n : ℕ),
      sender ≠ g.globalSid → sender ≠ 0 → (trace (tick g) inp (reset len) m).Hears sender c →
      c.toNat < (trace (tick g) inp (reset len) m).currFrameLen.toNat → m ≤ d →
      (∀ k, m ≤ k → k ≤ d → (trace (tick g) inp (reset len) k).fi.state = .idle) → d < n →
      (∀ k, d < k → k ≤ n → (trace (tick g) inp (reset len) k).fi.state ≠ .idle) →
      (∀ k, m < k → k ≤ n → ¬ ((trace (tick g) inp (reset len) k).unit.stu.HoldsTag c
        ∧ (trace (tick g) inp (reset len) k).unit.stu.senderSid = sender
        ∧ (trace (tick g) inp (reset len) k).unit.stu.fiPerSlot.occupierSid = 0)) →
      ¬ (trace (tick g) inp (reset len) n).Pushes c := by
  intro h
  have hrun : (∀ k < 402, 267 ≤ k → (k ≤ 302 → (offering k).fi.state = .idle)
        ∧ (302 < k → (offering k).fi.state ≠ .idle)
        ∧ (267 < k → ¬ ((offering k).unit.stu.HoldsTag 0 ∧ (offering k).unit.stu.senderSid = 9
          ∧ (offering k).unit.stu.fiPerSlot.occupierSid = 0)))
      ∧ (offering 267).Hears 9 0 ∧ (offering 267).currFrameLen = 4 ∧ (offering 401).Pushes 0 := by
    decide +kernel
  obtain ⟨hall, hhears, hlen, hpush⟩ := hrun
  refine h racingSetting 4 offeringInp 9 0 267 302 401 (by decide) (by decide) hhears ?_ (by decide) ?_
    (by decide) ?_ ?_ hpush
  · change _ < (offering 267).currFrameLen.toNat
    rw [hlen]
    decide
  · exact fun k hk hk' => (hall k (by omega) hk).1 hk'
  · exact fun k hk hk' => (hall k (by omega) (by omega)).2.1 hk
  · exact fun k hk hk' => (hall k (by omega) (by omega)).2.2 hk

end System

end VanetTdma.Fpga
