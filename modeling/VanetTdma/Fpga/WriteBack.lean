import VanetTdma.Fpga.PortB

/-!
# Write-backs through port B

The FI builder and the FCB search read an entry of the slot table, compute its successor and write it back some
cycles later, while the slot-table updater may write the same entry through port A.  No lock stands between
the ports.

* `Held a` — one of the two is between its look at the entry `a` and the end of its write;
* `Fresh a` — what it has in hand was made from the present content of the entry;
* `Fresh.tick` — a cycle in which the updater does not write a held entry keeps this;
* `writeBack_of_apart` — if no write of the updater falls into such a time, every write-back is computed from
  the present content.
-/

namespace VanetTdma.Fpga

open VanetTdma.Clocked VanetTdma.DualPort

/-! ### From the look to the write -/

namespace Fi

section Path

variable {g : TdmaSetting} {i : FiIn} {f : Fi}

theorem of_tick_loop1 (h : (f.tick g i).state = .loop1) :
    f.state = .loop1Pre ∧ (f.tick g i).addr = f.addr := by
  have hst : f.state = .loop1Pre := by
    have hnext := (tick_controls g i f).state
    rw [h] at hnext
    revert hnext
    cases f.state <;> simp [FiState.next]
  refine ⟨hst, ?_⟩
  revert h
  rw [tick, hst]
  simp only
  split
  · split <;> exact fun h => FiState.noConfusion h
  · exact fun _ => rfl

theorem of_tick_loop1Unlock (h : (f.tick g i).state = .loop1Unlock) :
    f.state = .loop1 ∧ (f.tick g i).addr = f.addr ∧ (f.tick g i).din = i.dout := by
  have hst : f.state = .loop1 := by
    have hnext := (tick_controls g i f).state
    rw [h] at hnext
    revert hnext
    cases f.state <;> simp [FiState.next]
  rw [tick, hst]
  exact ⟨rfl, rfl, rfl⟩

theorem of_tick_loop1Refresh (h : (f.tick g i).state = .loop1Refresh) :
    f.state = .loop1Unlock ∧ (f.tick g i).addr = f.addr ∧ (f.tick g i).din = unlocked f.din := by
  have hst : f.state = .loop1Unlock := by
    have hnext := (tick_controls g i f).state
    rw [h] at hnext
    revert hnext
    cases f.state <;> simp [FiState.next]
  rw [tick, hst]
  exact ⟨rfl, rfl, rfl⟩

theorem of_tick_we (hold : f.we = true → f.state = .loop2) (h : (f.tick g i).we = true) :
    f.state = .loop1Refresh ∧ (f.tick g i).addr = f.addr
      ∧ (f.tick g i).din = refreshed g.globalSid i.dout f.din := by
  have hst : f.state = .loop1Refresh :=
    FiState.eq_loop1Refresh_of_weAfter ((tick_controls g i f).we.symm.trans h) hold
  rw [tick, hst]
  exact ⟨rfl, rfl, rfl⟩

end Path

end Fi

namespace Fcb

section Path

variable {g : TdmaSetting} {i : FcbIn} {f : Fcb}

theorem of_tick_clrC3h (h : (f.tick g i).state = .clrC3h) :
    f.state = .rdLoop ∧ (f.tick g i).addr = f.addr := by
  have hst : f.state = .rdLoop := by
    have hnext := (tick_controls g i f).state
    rw [h] at hnext
    revert hnext
    cases f.state <;> simp [FcbState.next]
  refine ⟨hst, ?_⟩
  rw [tick, hst]
  simp only
  split
  · rfl
  · exact rdLoop_keeps.1.addr

theorem of_tick_we (hold : f.we = true → f.state = .clrSetaddr) (h : (f.tick g i).we = true) :
    f.state = .clrC3h ∧ (f.tick g i).addr = f.addr
      ∧ (f.tick g i).din = countsCleared g.globalSid i.dout := by
  have hst : f.state = .clrC3h :=
    FcbState.eq_clrC3h_of_weAfter ((tick_controls g i f).we.symm.trans h) hold
  have hlow : f.we = false := by
    rw [← Bool.not_eq_true]
    exact fun hc => FcbState.noConfusion (hst.symm.trans (hold hc))
  refine ⟨hst, ?_⟩
  revert h
  rw [tick, hst]
  simp only
  split
  · exact fun _ => ⟨rfl, rfl⟩
  · intro h
    exact absurd (hlow.symm.trans h) Bool.false_ne_true

end Path

end Fcb

namespace System

/-- The FI builder is between its look at the entry and the end of its write. -/
def FiHolds (a : BitVec 7) (s : System) : Prop :=
  s.fi.addr = a ∧ (s.fi.state = .loop1Pre ∨ s.fi.state = .loop1 ∨ s.fi.state = .loop1Unlock
    ∨ s.fi.state = .loop1Refresh ∨ s.fi.we = true)

/-- The FCB search is between its look at the entry and the end of its write. -/
def FcbHolds (a : BitVec 7) (s : System) : Prop :=
  s.fcb.addr = a ∧ (s.fcb.state = .rdLoop ∨ s.fcb.state = .clrC3h ∨ s.fcb.we = true)

def Held (a : BitVec 7) (s : System) : Prop := s.FiHolds a ∨ s.FcbHolds a

instance (a : BitVec 7) (s : System) : Decidable (s.Held a) :=
  inferInstanceAs (Decidable ((_ ∧ _) ∨ _ ∧ _))

/-- What the FI builder and the FCB search have in hand is the present content of the entry, or was made from
it. -/
structure Fresh (g : TdmaSetting) (a : BitVec 7) (s : System) : Prop where
  loop1 : s.fi.state = .loop1 → s.fi.addr = a → s.ram.doutB = s.ram.cell a
  unlock : s.fi.state = .loop1Unlock → s.fi.addr = a → s.fi.din = s.ram.cell a
  refresh : s.fi.state = .loop1Refresh → s.fi.addr = a →
    s.fi.din = unlocked (s.ram.cell a) ∧ s.ram.doutB = s.ram.cell a
  fiWrite : s.fi.portB.Writes a →
    s.fi.din = refreshed g.globalSid (s.ram.cell a) (unlocked (s.ram.cell a))
  clrC3h : s.fcb.state = .clrC3h → s.fcb.addr = a → s.ram.doutB = s.ram.cell a
  fcbWrite : s.fcb.portB.Writes a → s.fcb.din = countsCleared g.globalSid (s.ram.cell a)

section Step

variable {g : TdmaSetting} {s : System} {i : Cycle} {a : BitVec 7}

theorem Fresh.of_not_held (h : ¬ s.Held a) : s.Fresh g a where
  loop1 hst haddr := absurd (Or.inl ⟨haddr, Or.inr (Or.inl hst)⟩) h
  unlock hst haddr := absurd (Or.inl ⟨haddr, Or.inr (Or.inr (Or.inl hst))⟩) h
  refresh hst haddr := absurd (Or.inl ⟨haddr, Or.inr (Or.inr (Or.inr (Or.inl hst)))⟩) h
  fiWrite hw := absurd (Or.inl ⟨hw.2, Or.inr (Or.inr (Or.inr (Or.inr hw.1)))⟩) h
  clrC3h hst haddr := absurd (Or.inr ⟨haddr, Or.inr (Or.inl hst)⟩) h
  fcbWrite hw := absurd (Or.inr ⟨hw.2, Or.inr (Or.inr hw.1)⟩) h

theorem tick_ram_of_look (hA : ¬ s.portA.Writes a) (haddr : s.portB.addr = a) (hwe : s.portB.we = false) :
    (s.tick g i).ram.doutB = s.ram.cell a ∧ (s.tick g i).ram.cell a = s.ram.cell a := by
  subst haddr
  exact ⟨tick_doutB hA hwe, tick_cell_of_quiet hA (Port.not_writes_of_we hwe _)⟩

theorem Shared.tick_ram_of_fi (h : s.Shared) (hA : ¬ s.portA.Writes a) {st : FiState}
    (hst : s.fi.state = st) (hb : st.building = true) (hw : st ≠ .waitFcb) (hl : st ≠ .loop2)
    (haddr : s.fi.addr = a) :
    (s.tick g i).ram.doutB = s.ram.cell a ∧ (s.tick g i).ram.cell a = s.ram.cell a := by
  subst hst
  have hport := h.portB_fi hb hw
  refine tick_ram_of_look hA (by rw [hport]; exact haddr) ?_
  rw [hport, ← Bool.not_eq_true]
  exact fun hc => hl (h.fiWe hc)

theorem Shared.tick_ram_of_fcb (h : s.Shared) (hA : ¬ s.portA.Writes a) {st : FcbState}
    (hst : s.fcb.state = st) (hb : st ≠ .idle) (hc : st ≠ .clrSetaddr) (haddr : s.fcb.addr = a) :
    (s.tick g i).ram.doutB = s.ram.cell a ∧ (s.tick g i).ram.cell a = s.ram.cell a := by
  subst hst
  have hport := h.portB_fcb hb
  refine tick_ram_of_look hA (by rw [hport]; exact haddr) ?_
  rw [hport, ← Bool.not_eq_true]
  exact fun hwe => hc (h.fcbWe hwe)

/-- **A cycle in which the updater does not write a held entry.** -/
theorem Fresh.tick (hs : s.Shared) (h : s.Fresh g a) (hapart : s.portA.Writes a → ¬ s.Held a) :
    (s.tick g i).Fresh g a := by
  have hquiet : s.Held a → ¬ s.portA.Writes a := fun hheld hA => hapart hA hheld
  constructor
  · intro hst haddr
    obtain ⟨hpre, hsame⟩ := Fi.of_tick_loop1 hst
    have ha : s.fi.addr = a := hsame.symm.trans haddr
    have hA := hquiet (Or.inl ⟨ha, Or.inl hpre⟩)
    obtain ⟨hdout, hcell⟩ := @Shared.tick_ram_of_fi g _ i _ hs hA _ hpre rfl nofun
      FiState.noConfusion ha
    rw [hdout, hcell]
  · intro hst haddr
    obtain ⟨hpre, hsame, hdin⟩ := Fi.of_tick_loop1Unlock hst
    have ha : s.fi.addr = a := hsame.symm.trans haddr
    have hA := hquiet (Or.inl ⟨ha, Or.inr (Or.inl hpre)⟩)
    obtain ⟨-, hcell⟩ := @Shared.tick_ram_of_fi g _ i _ hs hA _ hpre rfl nofun
      FiState.noConfusion ha
    rw [hcell]
    exact hdin.trans (h.loop1 hpre ha)
  · intro hst haddr
    obtain ⟨hpre, hsame, hdin⟩ := Fi.of_tick_loop1Refresh hst
    have ha : s.fi.addr = a := hsame.symm.trans haddr
    have hA := hquiet (Or.inl ⟨ha, Or.inr (Or.inr (Or.inl hpre))⟩)
    obtain ⟨hdout, hcell⟩ := @Shared.tick_ram_of_fi g _ i _ hs hA _ hpre rfl nofun
      FiState.noConfusion ha
    rw [hdout, hcell]
    exact ⟨hdin.trans (congrArg unlocked (h.unlock hpre ha)), rfl⟩
  · rintro ⟨hwe, haddr⟩
    obtain ⟨hpre, hsame, hdin⟩ := Fi.of_tick_we hs.fiWe hwe
    have ha : s.fi.addr = a := hsame.symm.trans haddr
    have hA := hquiet (Or.inl ⟨ha, Or.inr (Or.inr (Or.inr (Or.inl hpre)))⟩)
    obtain ⟨-, hcell⟩ := @Shared.tick_ram_of_fi g _ i _ hs hA _ hpre rfl nofun
      FiState.noConfusion ha
    obtain ⟨hold, hdout⟩ := h.refresh hpre ha
    rw [hcell]
    refine hdin.trans ?_
    rw [hold]
    exact congrArg (fun e => refreshed g.globalSid e (unlocked (s.ram.cell a))) hdout
  · intro hst haddr
    obtain ⟨hpre, hsame⟩ := Fcb.of_tick_clrC3h hst
    have ha : s.fcb.addr = a := hsame.symm.trans haddr
    have hA := hquiet (Or.inr ⟨ha, Or.inl hpre⟩)
    obtain ⟨hdout, hcell⟩ := @Shared.tick_ram_of_fcb g _ i _ hs hA _ hpre nofun
      FcbState.noConfusion ha
    rw [hdout, hcell]
  · rintro ⟨hwe, haddr⟩
    obtain ⟨hpre, hsame, hdin⟩ := Fcb.of_tick_we hs.fcbWe hwe
    have ha : s.fcb.addr = a := hsame.symm.trans haddr
    have hA := hquiet (Or.inr ⟨ha, Or.inr (Or.inl hpre)⟩)
    obtain ⟨-, hcell⟩ := @Shared.tick_ram_of_fcb g _ i _ hs hA _ hpre nofun
      FcbState.noConfusion ha
    rw [hcell]
    exact hdin.trans (congrArg (countsCleared g.globalSid) (h.clrC3h hpre ha))

theorem Shared.tick_cell_of_fiWrites (h : s.Shared) (hA : ¬ s.portA.Writes a) (hw : s.fi.portB.Writes a) :
    (s.tick g i).ram.cell a = s.fi.din := by
  have hst := h.fiWe hw.1
  have hport := h.portB_fi (by rw [hst]; rfl) (by rw [hst]; exact nofun)
  have hB : s.portB.Writes a := by rwa [hport]
  have hcell : (s.tick g i).ram.cell a = s.portB.din := tick_cell_write_b hA hB
  rw [hcell, hport]
  rfl

theorem Shared.tick_cell_of_fcbWrites (h : s.Shared) (hA : ¬ s.portA.Writes a) (hw : s.fcb.portB.Writes a) :
    (s.tick g i).ram.cell a = s.fcb.din := by
  have hst := h.fcbWe hw.1
  have hport := h.portB_fcb (by rw [hst]; exact nofun)
  have hB : s.portB.Writes a := by rwa [hport]
  have hcell : (s.tick g i).ram.cell a = s.portB.din := tick_cell_write_b hA hB
  rw [hcell, hport]
  rfl

end Step

/-! ### Runs -/

section Run

variable {g : TdmaSetting} {len : BitVec 10} {inp : ℕ → Cycle} {a : BitVec 7}

theorem fresh_trace {m n : ℕ} (hmn : m ≤ n) (hm : ¬ (run g inp len m).Held a)
    (hapart : ∀ k, m ≤ k → k < n → (run g inp len k).portA.Writes a →
      ¬ (run g inp len k).Held a) :
    (run g inp len n).Fresh g a := by
  induction n, hmn using Nat.le_induction with
  | base => exact Fresh.of_not_held hm
  | succ n hmn ih =>
    refine Fresh.tick (shared_trace g inp len n) (ih ?_) (hapart n hmn (Nat.lt_succ_self n))
    exact fun k hk hkn => hapart k hk (Nat.lt_succ_of_lt hkn)

/-- **Write-backs lose nothing that is written outside their time.**  Let the entry be held neither by the FI
builder nor by the FCB search in cycle `m`, and let every write of the updater to it from then on fall into such
a cycle.  Then a write of the builder or of the search in cycle `n` leaves the successor of the content of that
cycle, in which all writes of the updater are. -/
theorem writeBack_of_apart {m n : ℕ} (hmn : m ≤ n) (hm : ¬ (trace (tick g) inp (reset len) m).Held a)
    (hapart : ∀ k, m ≤ k → k ≤ n → (trace (tick g) inp (reset len) k).portA.Writes a →
      ¬ (trace (tick g) inp (reset len) k).Held a) :
    ((trace (tick g) inp (reset len) n).fi.portB.Writes a →
      (trace (tick g) inp (reset len) (n + 1)).ram.cell a =
        refreshed g.globalSid ((trace (tick g) inp (reset len) n).ram.cell a)
          (unlocked ((trace (tick g) inp (reset len) n).ram.cell a)))
    ∧ ((trace (tick g) inp (reset len) n).fcb.portB.Writes a →
      (trace (tick g) inp (reset len) (n + 1)).ram.cell a =
        countsCleared g.globalSid ((trace (tick g) inp (reset len) n).ram.cell a)) := by
  have hshared := shared_trace g inp len n
  have hfresh : (trace (tick g) inp (reset len) n).Fresh g a :=
    fresh_trace hmn hm fun k hk hkn => hapart k hk (Nat.le_of_lt hkn)
  constructor
  · intro hw
    have hheld : (trace (tick g) inp (reset len) n).Held a :=
      Or.inl ⟨hw.2, Or.inr (Or.inr (Or.inr (Or.inr hw.1)))⟩
    have hA := fun hA => hapart n hmn (Nat.le_refl n) hA hheld
    exact (hshared.tick_cell_of_fiWrites hA hw).trans (hfresh.fiWrite hw)
  · intro hw
    have hheld : (trace (tick g) inp (reset len) n).Held a := Or.inr ⟨hw.2, Or.inr (Or.inr hw.1)⟩
    have hA := fun hA => hapart n hmn (Nat.le_refl n) hA hheld
    exact (hshared.tick_cell_of_fcbWrites hA hw).trans (hfresh.fcbWrite hw)

end Run

/-! ### A write that is lost -/

def racingSetting : TdmaSetting where
  globalSid := 5
  bchCandidateC3hopThresS1 := 3
  adjFrameLowerBound := 4
  adjFrameUpperBound := 8

/-- Node 7 announces that it holds slot 0. -/
def racingPkt : RcvPkt := fun k => if k = 20 then 7 * 2 ^ 4 + 2 * 2 ^ 12 + 7 * 2 ^ 14 else 0

/-- Slots of 30 cycles; the announcement comes in at `t`.  The node takes slot 3 and builds its frame information
from cycle 153 on. -/
def racingInp (t n : ℕ) : Cycle where
  slotPointer := BitVec.ofNat 16 (n / 30 % 4)
  stuStart := n == t
  rcvPkt := racingPkt
  ipicAck := true
  ipicDone := true
  inputRandom := 3

/-- The run of the node that gets the announcement at `t`. -/
abbrev racing (t : ℕ) : ℕ → System := trace (tick racingSetting) (racingInp t) (reset 4)

/-- The updater's write of cycle 139 is in what the builder writes in cycle 159. -/
theorem writeBack_of_apart_racing :
    (racing 100 159).fi.portB.Writes 0 ∧ ((racing 100 159).ram.cell 0).occupierSid = 7
      ∧ (racing 100 160).ram.cell 0 =
        refreshed 5 ((racing 100 159).ram.cell 0) (unlocked ((racing 100 159).ram.cell 0)) := by
  have hrun : (∀ k < 160, (racing 100 k).portA.Writes 0 → ¬ (racing 100 k).Held 0)
      ∧ (racing 100 159).fi.portB.Writes 0 ∧ ((racing 100 159).ram.cell 0).occupierSid = 7 := by
    decide +kernel
  obtain ⟨hapart, hw, hsid⟩ := hrun
  refine ⟨hw, hsid, (writeBack_of_apart (Nat.zero_le 159) ?_ ?_).1 hw⟩
  · decide
  · exact fun k _ hk => hapart k (Nat.lt_succ_of_le hk)

/-- The updater writes slot 0 in cycle 157; the builder, which has looked at it in cycle 155, writes the old
content back in cycle 159. -/
theorem stu_write_lost :
    ¬ ∀ (g : TdmaSetting) (len : BitVec 10) (inp : ℕ → Cycle) (a : BitVec 7) (m n : ℕ), m < n →
      (trace (tick g) inp (reset len) m).portA.Writes a →
      (∀ k, m < k → k < n → ¬ (trace (tick g) inp (reset len) k).portB.Writes a) →
      (trace (tick g) inp (reset len) n).fi.portB.Writes a →
      (trace (tick g) inp (reset len) (n + 1)).ram.cell a =
        refreshed g.globalSid ((trace (tick g) inp (reset len) n).ram.cell a)
          (unlocked ((trace (tick g) inp (reset len) n).ram.cell a)) := by
  intro h
  have hrun : (racing 118 157).portA.Writes 0 ∧ ¬ (racing 118 158).portB.Writes 0
      ∧ (racing 118 159).fi.portB.Writes 0
      ∧ (racing 118 160).ram.cell 0 ≠
        refreshed 5 ((racing 118 159).ram.cell 0) (unlocked ((racing 118 159).ram.cell 0)) := by
    decide +kernel
  obtain ⟨hA, hquiet, hw, hlost⟩ := hrun
  refine hlost (h racingSetting 4 (racingInp 118) 0 157 159 (by decide) hA ?_ hw)
  intro k hk hkn
  rw [show k = 158 from by omega]
  exact hquiet

end System

end VanetTdma.Fpga
