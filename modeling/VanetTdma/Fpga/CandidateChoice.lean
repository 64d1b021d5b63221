import VanetTdma.Fpga.CandidateList

/-!
# The choice of a candidate slot (`tdma_control.v`, FCB)

One run of the FCB search on a slot table that nobody else writes, with a divider that divides.

* `SearchUnit` — the search with its FIFOs, its port of the slot-status memory and the divider; `System.search_tick`
  says that this is what the system does while a search is in progress;
* `Scan` — how the scan fills the FIFOs;
* `Reading` — how the choice reads them: the first FIFO is popped, whichever one is read;
* `ends_right_iff` — the run ends with the element that is to be taken exactly under `SearchEnv.Fair`.
-/

namespace VanetTdma.Fpga

open VanetTdma.Clocked

/-! ### The unit -/

theorem Fifo.tick_still (d : BitVec 16) (q : Fifo) : q.tick false false false d = q := by
  simp [Fifo.tick]

theorem Fifo.tick_slots {p : ℕ → Bool} {a : ℕ} {d : BitVec 16} (ha : a < 128)
    (hd : p a = true → d = BitVec.ofNat 16 a) : (slots p a).tick false (p a) false d = slots p (a + 1) := by
  have hroom : (slots p a).length < 128 := Nat.lt_of_le_of_lt length_slots_le ha
  rw [slots_succ, Fifo.tick, if_neg Bool.false_ne_true, if_neg Bool.false_ne_true]
  cases hp : p a with
  | true => rw [if_pos ⟨rfl, hroom⟩, hd hp, if_pos rfl]
  | false => rw [if_neg (fun h => Bool.false_ne_true h.1), if_neg Bool.false_ne_true]

/-- The choice reads on: the read enable is a register, so the first pop comes one cycle late. -/
theorem Fifo.tick_drop (q : Fifo) (t : ℕ) (d : BitVec 16) :
    Fifo.tick false false (decide (t ≠ 0)) d (q.drop (t - 1)) = q.drop t := by
  cases t with
  | zero => simp [Fifo.tick]
  | succ t => simp [Fifo.tick, List.tail_drop]

/-- What comes from outside in one cycle: the start, the state of the BCH machine, the end of a division, the answer of
the divider for a zero divisor and what an empty FIFO shows. -/
structure SearchCycle where
  fcbStart : Bool := false
  bchState : BchState := .idle
  dividerDone : Bool := false
  byZero : BitVec 32 := 0
  emptyRead : BitVec 16 := 0

/-- The search, port B of the slot-status memory and the FIFOs. -/
structure SearchUnit where
  fcb : Fcb := {}
  cell : BitVec 7 → SlotEntry
  dout : SlotEntry := {}
  s1 : Fifo := []
  s2 : Fifo := []
  half : Fifo := []

namespace SearchUnit

def remainder (u : SearchUnit) (c : SearchCycle) : BitVec 32 :=
  if u.fcb.divisor = 0 then c.byZero else u.fcb.dividend % u.fcb.divisor

def input (e : SearchEnv) (u : SearchUnit) (c : SearchCycle) : FcbIn where
  fcbStart := c.fcbStart
  currFrameLen := e.len
  dout := u.dout
  bchState := c.bchState
  fcbStrict := e.strict
  frameHalfEmpty := e.halfEmpty
  inputRandom := e.random
  dividerDone := c.dividerDone
  dividerRemainder := u.remainder c
  emptyRead := c.emptyRead
  s1 := u.s1
  s2 := u.s2
  half := u.half

def tick (g : TdmaSetting) (e : SearchEnv) (u : SearchUnit) (c : SearchCycle) : SearchUnit where
  fcb := u.fcb.tick g (u.input e c)
  cell k := if u.fcb.portB.Writes k then u.fcb.din else u.cell k
  dout := if u.fcb.we then u.fcb.din else u.cell u.fcb.addr
  s1 := u.s1.tick u.fcb.srst u.fcb.wrEnS1 u.fcb.rdEnS1 u.fcb.dwrite
  s2 := u.s2.tick u.fcb.srst u.fcb.wrEnS2 u.fcb.rdEnS2 u.fcb.dwrite
  half := u.half.tick u.fcb.srst u.fcb.wrEnHalf u.fcb.rdEnHalf u.fcb.dwrite

end SearchUnit

def System.search (s : System) : SearchUnit where
  fcb := s.fcb
  cell := s.ram.cell
  dout := s.ram.doutB
  s1 := s.s1
  s2 := s.s2
  half := s.half

/-- The answer of the divider is read when a division is over, and only then. -/
theorem Fcb.tick_remainder {g : TdmaSetting} {f : Fcb} {i : FcbIn} {r : BitVec 32}
    (h : f.state = .selRanWait1 → i.dividerDone = true → i.dividerRemainder = r) :
    f.tick g { i with dividerRemainder := r } = f.tick g i := by
  unfold Fcb.tick
  cases hst : f.state with
  | selRanWait1 =>
    by_cases hdone : i.dividerDone = true
    · simp only [hdone, h hst hdone]
    · simp only [hdone]
      rfl
  | _ => rfl

/-- **The unit is what the system does** while a search is in progress and the updater does not write. -/
theorem System.search_tick {g : TdmaSetting} {e : SearchEnv} {s : System} {i : Cycle}
    (hprogress : s.fcb.inprogress = true) (hA : s.portA.we = false) (hlen : s.currFrameLen = e.len)
    (hstrict : s.fi.fcbStrict = e.strict) (hhalf : s.fi.frameHalfEmpty = e.halfEmpty)
    (hrandom : i.inputRandom = e.random)
    (hdivide : s.fcb.state = .selRanWait1 → i.dividerDone = true → i.dividerRemainder = s.fcb.dividend % s.fcb.divisor) :
    (s.tick g i).search
      = s.search.tick g e ⟨s.fi.fcbStart, s.bch.state, i.dividerDone, i.dividerRemainder, i.emptyRead⟩ := by
  have hport : s.portB = s.fcb.portB := if_pos hprogress
  have hno : ∀ k, ¬ s.portA.Writes k := DualPort.Port.not_writes_of_we hA
  generalize hc : (⟨s.fi.fcbStart, s.bch.state, i.dividerDone, i.dividerRemainder, i.emptyRead⟩ : SearchCycle) = c
  have hfcb : s.fcb.tick g (s.fcbIn i) = s.fcb.tick g (s.search.input e c) := by
    have hinput : s.search.input e c = { s.fcbIn i with dividerRemainder := s.search.remainder c } := by
      subst hc
      simp only [SearchUnit.input, System.fcbIn, System.search, hlen, hstrict, hhalf, hrandom]
    rw [hinput]
    refine (Fcb.tick_remainder fun hst hdone => ?_).symm
    unfold SearchUnit.remainder
    split
    · rw [← hc]
      rfl
    · exact hdivide hst hdone
  unfold System.search SearchUnit.tick
  congr 1
  · funext k
    change (if s.portA.Writes k then _ else if s.portB.Writes k then s.portB.din else s.ram.cell k) = _
    rw [if_neg (hno k), hport]
    rfl
  · change (if s.portA.Writes s.portB.addr then _ else if s.portB.we then s.portB.din else _) = _
    rw [if_neg (hno _), hport]
    rfl

namespace Fcb

/-- No read and no reset of the FIFOs, and no failure. -/
structure Low (f : Fcb) : Prop where
  rdEnS1 : f.rdEnS1 = false
  rdEnS2 : f.rdEnS2 = false
  rdEnHalf : f.rdEnHalf = false
  srst : f.srst = false
  fail : f.fail = false

/-- No write into the FIFOs. -/
structure NoWrites (f : Fcb) : Prop where
  wrEnS1 : f.wrEnS1 = false
  wrEnS2 : f.wrEnS2 = false
  wrEnHalf : f.wrEnHalf = false

/-- The registers at the FIFOs keep their values. -/
structure Same (f v : Fcb) : Prop where
  rdEnS1 : v.rdEnS1 = f.rdEnS1
  rdEnS2 : v.rdEnS2 = f.rdEnS2
  rdEnHalf : v.rdEnHalf = f.rdEnHalf
  srst : v.srst = f.srst
  fail : v.fail = f.fail
  wrEnS1 : v.wrEnS1 = f.wrEnS1
  wrEnS2 : v.wrEnS2 = f.wrEnS2
  wrEnHalf : v.wrEnHalf = f.wrEnHalf
  count : v.dataCountS1Tmp = f.dataCountS1Tmp

theorem Same.low {f v : Fcb} (h : Same f v) (hf : f.Low) : v.Low :=
  ⟨h.rdEnS1.trans hf.rdEnS1, h.rdEnS2.trans hf.rdEnS2, h.rdEnHalf.trans hf.rdEnHalf, h.srst.trans hf.srst,
    h.fail.trans hf.fail⟩

theorem Same.noWrites {f v : Fcb} (h : Same f v) (hf : f.NoWrites) : v.NoWrites :=
  ⟨h.wrEnS1.trans hf.wrEnS1, h.wrEnS2.trans hf.wrEnS2, h.wrEnHalf.trans hf.wrEnHalf⟩

theorem rdLoop_writes {g : TdmaSetting} {e : SearchEnv} {table : BitVec 7 → SlotEntry} {f : Fcb} {i : FcbIn} {a : ℕ}
    (hwrites : f.NoWrites) (haddr : f.addr.toNat = a) (hdout : i.dout = table (BitVec.ofNat 7 a))
    (hstrict : i.fcbStrict = e.strict) (hhalf : i.frameHalfEmpty = e.halfEmpty) (hlen : i.currFrameLen = e.len) :
    (f.rdLoop g i).wrEnS1 = e.inS1 g table a ∧ (f.rdLoop g i).wrEnS2 = e.inS2 g table a
      ∧ (f.rdLoop g i).wrEnHalf = e.inHalf g table a
      ∧ (e.eligibleAt g table a = true → (f.rdLoop g i).dwrite = BitVec.ofNat 16 a) := by
  have hword : f.addr.setWidth 16 = BitVec.ofNat 16 a := by
    rw [← haddr, BitVec.ofNat_toNat]
  unfold rdLoop SearchEnv.inS1 SearchEnv.inS2 SearchEnv.inHalf SearchEnv.lowerAt SearchEnv.unusedAt
    SearchEnv.eligibleAt
  rw [hdout, hstrict, hhalf, hlen]
  by_cases hslot : g.slotAdjEna = true
  · by_cases helig : Eligible g e.strict (table (BitVec.ofNat 7 a))
    · simp [hslot, helig, haddr, hword]
    · simp [hslot, helig, noWrite]
  · by_cases helig : Eligible g e.strict (table (BitVec.ofNat 7 a))
    · simp [hslot, helig, hword, hwrites.wrEnS2, hwrites.wrEnHalf]
    · simp [hslot, helig, hwrites.wrEnS2, hwrites.wrEnHalf]

theorem rdLoop_low {g : TdmaSetting} {i : FcbIn} {f : Fcb} (h : f.Low) : (f.rdLoop g i).Low := by
  unfold rdLoop
  simp only
  split
  · split <;> exact ⟨h.rdEnS1, h.rdEnS2, h.rdEnHalf, h.srst, h.fail⟩
  · split <;> exact ⟨h.rdEnS1, h.rdEnS2, h.rdEnHalf, h.srst, h.fail⟩

end Fcb

/-! ### The scan -/

namespace SearchUnit

section Scan

variable {g : TdmaSetting} {e : SearchEnv} {table : BitVec 7 → SlotEntry} {u : SearchUnit} {c : SearchCycle} {a n : ℕ}

/-- The FIFOs hold what the scan of the slots below `n` has found. -/
structure Filled (g : TdmaSetting) (e : SearchEnv) (table : BitVec 7 → SlotEntry) (n : ℕ) (u : SearchUnit) : Prop where
  s1 : u.s1 = slots (e.inS1 g table) n
  s2 : u.s2 = slots (e.inS2 g table) n
  half : u.half = slots (e.inHalf g table) n

theorem Filled.still (h : Filled g e table n u) (hlow : u.fcb.Low) (hno : u.fcb.NoWrites) :
    Filled g e table n (u.tick g e c) := by
  refine ⟨?_, ?_, ?_⟩
  · change u.s1.tick _ _ _ _ = _
    rw [hlow.srst, hno.wrEnS1, hlow.rdEnS1, Fifo.tick_still, h.s1]
  · change u.s2.tick _ _ _ _ = _
    rw [hlow.srst, hno.wrEnS2, hlow.rdEnS2, Fifo.tick_still, h.s2]
  · change u.half.tick _ _ _ _ = _
    rw [hlow.srst, hno.wrEnHalf, hlow.rdEnHalf, Fifo.tick_still, h.half]

/-- Slot `a` is under the scan: the port is at its entry, and from it on the table is as it was. -/
structure Under (table : BitVec 7 → SlotEntry) (st : FcbState) (a : ℕ) (u : SearchUnit) : Prop where
  state : u.fcb.state = st
  addr : u.fcb.addr = BitVec.ofNat 7 a
  untouched : ∀ k : BitVec 7, a ≤ k.toNat → u.cell k = table k
  low : u.fcb.Low

/-- The scan is about to look at slot `a`. -/
structure Scan (g : TdmaSetting) (e : SearchEnv) (table : BitVec 7 → SlotEntry) (a : ℕ) (u : SearchUnit) : Prop
    extends Under table .rdLoop a u where
  dout : u.dout = table (BitVec.ofNat 7 a)
  noWrites : u.fcb.NoWrites
  we : u.fcb.we = false
  filled : Filled g e table a u

/-- The slot is being written into the FIFOs. -/
structure Listing (g : TdmaSetting) (e : SearchEnv) (table : BitVec 7 → SlotEntry) (a : ℕ) (u : SearchUnit) : Prop
    extends Under table .clrC3h a u where
  wrEnS1 : u.fcb.wrEnS1 = e.inS1 g table a
  wrEnS2 : u.fcb.wrEnS2 = e.inS2 g table a
  wrEnHalf : u.fcb.wrEnHalf = e.inHalf g table a
  dwrite : e.eligibleAt g table a = true → u.fcb.dwrite = BitVec.ofNat 16 a
  we : u.fcb.we = false
  filled : Filled g e table a u

/-- The counts of the slot are being cleared. -/
structure Clearing (g : TdmaSetting) (e : SearchEnv) (table : BitVec 7 → SlotEntry) (a : ℕ) (u : SearchUnit) : Prop
    extends Under table .clrSetaddr a u where
  noWrites : u.fcb.NoWrites
  filled : Filled g e table (a + 1) u

/-- The port goes to the next slot, or to the first. -/
structure Advancing (g : TdmaSetting) (e : SearchEnv) (table : BitVec 7 → SlotEntry) (st : FcbState) (a : ℕ)
    (u : SearchUnit) : Prop extends Under table st a u where
  waits : st = .start ∨ st = .clrSetaddrWait
  noWrites : u.fcb.NoWrites
  we : u.fcb.we = false
  filled : Filled g e table a u

theorem toNat_ofNat_seven (ha : a < 128) : (BitVec.ofNat 7 a).toNat = a := by
  rw [BitVec.toNat_ofNat]
  exact Nat.mod_eq_of_lt ha

theorem tick_cell_of_we (hwe : u.fcb.we = false) (k : BitVec 7) : (u.tick g e c).cell k = u.cell k :=
  if_neg (DualPort.Port.not_writes_of_we hwe k)

theorem tick_dout_of_we (hwe : u.fcb.we = false) : (u.tick g e c).dout = u.cell u.fcb.addr :=
  if_neg (by rw [hwe]; exact Bool.false_ne_true)

theorem Scan.listing (h : Scan g e table a u) (ha : a < e.len.toNat) (hlen : e.len.toNat ≤ 64) :
    Listing g e table a (u.tick g e c) := by
  have haddr : u.fcb.addr.toNat = a := by
    rw [h.addr]
    exact toNat_ofNat_seven (by omega)
  have htick : (u.tick g e c).fcb = u.fcb.rdLoop g (u.input e c) := by
    change u.fcb.tick g _ = _
    rw [Fcb.tick, h.state]
    exact if_neg (by rw [haddr]; exact Nat.ne_of_lt ha)
  obtain ⟨hs1, hs2, hhalf, hdwrite⟩ :=
    @Fcb.rdLoop_writes g e table u.fcb (u.input e c) a h.noWrites haddr h.dout rfl rfl rfl
  refine ⟨⟨?_, ?_, ?_, ?_⟩, ?_, ?_, ?_, ?_, ?_, h.filled.still h.low h.noWrites⟩
  · rw [htick]
    exact Fcb.rdLoop_keeps.2
  · rw [htick]
    exact Fcb.rdLoop_keeps.1.addr.trans h.addr
  · intro k hk
    rw [tick_cell_of_we h.we]
    exact h.untouched k hk
  · rw [htick]
    exact Fcb.rdLoop_low h.low
  · rw [htick]
    exact hs1
  · rw [htick]
    exact hs2
  · rw [htick]
    exact hhalf
  · rw [htick]
    exact hdwrite
  · rw [htick]
    exact Fcb.rdLoop_keeps.1.we.trans h.we

theorem Listing.filled_tick (h : Listing g e table a u) (ha : a < 128) : Filled g e table (a + 1) (u.tick g e c) := by
  refine ⟨?_, ?_, ?_⟩
  · change u.s1.tick _ _ _ _ = _
    rw [h.low.srst, h.wrEnS1, h.low.rdEnS1, h.filled.s1]
    exact Fifo.tick_slots ha fun hin => h.dwrite (SearchEnv.eligibleAt_of_inS1 hin)
  · change u.s2.tick _ _ _ _ = _
    rw [h.low.srst, h.wrEnS2, h.low.rdEnS2, h.filled.s2]
    exact Fifo.tick_slots ha fun hin => h.dwrite (SearchEnv.eligibleAt_of_inS2 hin)
  · change u.half.tick _ _ _ _ = _
    rw [h.low.srst, h.wrEnHalf, h.low.rdEnHalf, h.filled.half]
    exact Fifo.tick_slots ha fun hin => h.dwrite (SearchEnv.eligibleAt_of_inHalf hin)

theorem Listing.clearing (h : Listing g e table a u) (ha : a < 128) : Clearing g e table a (u.tick g e c) := by
  have htick : (u.tick g e c).fcb = if c.bchState.pastInit = true then
      { u.fcb.noWrite with state := .clrSetaddr, we := true, din := countsCleared g.globalSid u.dout }
      else { u.fcb.noWrite with state := .clrSetaddr } := by
    change u.fcb.tick g _ = _
    rw [Fcb.tick, h.state]
    rfl
  have huntouched : ∀ k : BitVec 7, a ≤ k.toNat → (u.tick g e c).cell k = table k := by
    intro k hk
    rw [tick_cell_of_we h.we]
    exact h.untouched k hk
  have hlow := h.low
  refine ⟨⟨?_, ?_, huntouched, ?_⟩, ?_, h.filled_tick ha⟩
  · rw [htick]
    split <;> rfl
  · rw [htick]
    split <;> exact h.addr
  · rw [htick]
    split <;> exact ⟨hlow.rdEnS1, hlow.rdEnS2, hlow.rdEnHalf, hlow.srst, hlow.fail⟩
  · rw [htick]
    split <;> exact ⟨rfl, rfl, rfl⟩

theorem Clearing.advancing (h : Clearing g e table a u) (ha : a < 127) :
    Advancing g e table .clrSetaddrWait (a + 1) (u.tick g e c) := by
  have htick : (u.tick g e c).fcb
      = { u.fcb with we := false, addr := u.fcb.addr + 1, state := .clrSetaddrWait } := by
    change u.fcb.tick g _ = _
    rw [Fcb.tick, h.state]
  have hlow := h.low
  have hno := h.noWrites
  refine ⟨⟨?_, ?_, ?_, ?_⟩, Or.inr rfl, ?_, ?_, h.filled.still hlow hno⟩
  · rw [htick]
  · rw [htick, h.addr]
    exact (BitVec.ofNat_add a 1).symm
  · -- the entry that is written is the one the scan leaves
    intro k hk
    have hne : ¬ u.fcb.portB.Writes k := by
      rintro ⟨-, haddr⟩
      have hk' : u.fcb.addr = k := haddr
      rw [← hk', h.addr, toNat_ofNat_seven (by omega)] at hk
      omega
    exact (if_neg hne).trans (h.untouched k (Nat.le_of_succ_le hk))
  · rw [htick]
    exact ⟨hlow.rdEnS1, hlow.rdEnS2, hlow.rdEnHalf, hlow.srst, hlow.fail⟩
  · rw [htick]
    exact ⟨hno.wrEnS1, hno.wrEnS2, hno.wrEnHalf⟩
  · rw [htick]

theorem Under.dout_tick {st : FcbState} (h : Under table st a u) (hwe : u.fcb.we = false) (ha : a < 128) :
    (u.tick g e c).dout = table (BitVec.ofNat 7 a) := by
  rw [tick_dout_of_we hwe, h.addr]
  exact h.untouched _ (Nat.le_of_eq (toNat_ofNat_seven ha).symm)

theorem Advancing.scan {st : FcbState} (h : Advancing g e table st a u) (ha : a < 128) :
    Scan g e table a (u.tick g e c) := by
  have htick : (u.tick g e c).fcb = { u.fcb with state := .rdLoop } := by
    change u.fcb.tick g _ = _
    rcases h.waits with hst | hst
    · rw [Fcb.tick, h.state, hst]
    · rw [Fcb.tick, h.state, hst]
  have hlow := h.low
  have hno := h.noWrites
  refine ⟨⟨?_, ?_, ?_, ?_⟩, h.dout_tick h.we ha, ?_, ?_, h.filled.still hlow hno⟩
  · rw [htick]
  · rw [htick]
    exact h.addr
  · intro k hk
    rw [tick_cell_of_we h.we]
    exact h.untouched k hk
  · rw [htick]
    exact ⟨hlow.rdEnS1, hlow.rdEnS2, hlow.rdEnHalf, hlow.srst, hlow.fail⟩
  · rw [htick]
    exact ⟨hno.wrEnS1, hno.wrEnS2, hno.wrEnHalf⟩
  · rw [htick]
    exact h.we

end Scan

/-! ### The choice -/

def Busy (u : SearchUnit) : Prop := u.fcb.state ≠ .idle

section Choice

variable {g : TdmaSetting} {e : SearchEnv} {table : BitVec 7 → SlotEntry} {u : SearchUnit} {c : SearchCycle}

/-- The FIFOs are filled and not yet read. -/
structure Choosing (g : TdmaSetting) (e : SearchEnv) (table : BitVec 7 → SlotEntry) (st : FcbState) (u : SearchUnit) :
    Prop where
  state : u.fcb.state = st
  low : u.fcb.Low
  noWrites : u.fcb.NoWrites
  count : u.fcb.dataCountS1Tmp.toNat = (e.fifo1 g table).length
  filled : Filled g e table e.len.toNat u

theorem length_fifo1_le : (e.fifo1 g table).length ≤ e.len.toNat := length_slots_le

theorem Scan.choosing (h : Scan g e table e.len.toNat u) (hlen : e.len.toNat ≤ 64) :
    Choosing g e table .selRanStart (u.tick g e c) ∧ (u.tick g e c).fcb.ranIdx = e.random := by
  have haddr : u.fcb.addr.toNat = e.len.toNat := by
    rw [h.addr]
    exact toNat_ofNat_seven (by omega)
  have htick : (u.tick g e c).fcb = { u.fcb.noWrite with
      ranIdx := e.random, dataCountS1Tmp := BitVec.ofNat 8 u.s1.length, state := .selRanStart } := by
    change u.fcb.tick g _ = _
    rw [Fcb.tick, h.state]
    exact if_pos haddr
  have hlow := h.low
  refine ⟨⟨?_, ?_, ?_, ?_, h.filled.still hlow h.noWrites⟩, ?_⟩
  · rw [htick]
  · rw [htick]
    exact ⟨hlow.rdEnS1, hlow.rdEnS2, hlow.rdEnHalf, hlow.srst, hlow.fail⟩
  · rw [htick]
    exact ⟨rfl, rfl, rfl⟩
  · rw [htick]
    change (BitVec.ofNat 8 u.s1.length).toNat = _
    have hle := @length_fifo1_le g e table
    rw [h.filled.s1, BitVec.toNat_ofNat]
    exact Nat.mod_eq_of_lt (by unfold SearchEnv.fifo1 at hle; omega)
  · rw [htick]

theorem Choosing.selRanStart_eq {st : FcbState} (h : Choosing g e table st u) :
    u.fcb.selRanStart g (u.input e c)
      = if e.Halved g table then u.fcb.pick (e.fifoHalf g table).length
        else if g.slotAdjEna = true then
          if e.thres ≤ (e.fifo1 g table).length then u.fcb.pick (e.fifo1 g table).length
          else if (e.fifo2 g table).length ≠ 0 then u.fcb.pick (e.fifo2 g table).length
          else { u.fcb with fail := true, state := .done }
        else if (e.fifo1 g table).length ≠ 0 then u.fcb.pick (e.fifo1 g table).length
        else { u.fcb with fail := true, state := .done } := by
  have hs1 : (u.input e c).s1 = e.fifo1 g table := h.filled.s1
  have hs2 : (u.input e c).s2 = e.fifo2 g table := h.filled.s2
  have hhalf : (u.input e c).half = e.fifoHalf g table := h.filled.half
  unfold Fcb.selRanStart
  rw [hs1, hs2, hhalf, h.count]
  rfl

theorem Choosing.selRanStart_of_fails {st : FcbState} (h : Choosing g e table st u) (hfails : e.Fails g table) :
    u.fcb.selRanStart g (u.input e c) = { u.fcb with fail := true, state := .done } := by
  rw [h.selRanStart_eq, if_neg hfails.halved]
  by_cases hslot : g.slotAdjEna = true
  · obtain ⟨hthres, hempty⟩ := hfails.split hslot
    rw [if_pos hslot, if_neg hthres, hempty]
    rfl
  · rw [if_neg hslot, hfails.plain hslot]
    rfl

theorem Choosing.selRanStart_of_not_fails {st : FcbState} (h : Choosing g e table st u) (hno : ¬ e.Fails g table) :
    u.fcb.selRanStart g (u.input e c) = u.fcb.pick (e.size g table) := by
  rw [h.selRanStart_eq]
  unfold SearchEnv.size
  by_cases hhalved : e.Halved g table
  · rw [if_pos hhalved, if_pos hhalved]
  rw [if_neg hhalved, if_neg hhalved]
  by_cases hslot : g.slotAdjEna = true
  · rw [if_pos hslot, if_pos hslot]
    by_cases hthres : e.thres ≤ (e.fifo1 g table).length
    · rw [if_pos hthres, if_pos hthres]
    · rw [if_neg hthres, if_neg hthres]
      refine if_pos fun hlength => hno ⟨hhalved, fun _ => ⟨hthres, ?_⟩, fun hc => absurd hslot hc⟩
      exact List.length_eq_zero_iff.mp hlength
  · rw [if_neg hslot, if_neg hslot]
    refine if_pos fun hlength => hno ⟨hhalved, fun hc => absurd hc hslot, fun _ => ?_⟩
    exact List.length_eq_zero_iff.mp hlength

theorem size_le : e.size g table ≤ e.len.toNat := by
  unfold SearchEnv.size
  split
  · exact length_slots_le
  split
  · split <;> exact length_slots_le
  · exact length_slots_le

theorem Choosing.still {st st' : FcbState} (h : Choosing g e table st u) (hst : (u.tick g e c).fcb.state = st')
    (hsame : u.fcb.Same (u.tick g e c).fcb) : Choosing g e table st' (u.tick g e c) :=
  ⟨hst, hsame.low h.low, hsame.noWrites h.noWrites, by rw [hsame.count]; exact h.count,
    h.filled.still h.low h.noWrites⟩

/-- A division by the number of elements. -/
structure Dividing (g : TdmaSetting) (e : SearchEnv) (table : BitVec 7 → SlotEntry) (u : SearchUnit) : Prop
    extends Choosing g e table .selRanWait1 u where
  dividend : u.fcb.dividend.toNat % e.size g table = e.random.toNat % e.size g table
  divisor : u.fcb.divisor.toNat = e.size g table

/-- A choice among `size` elements, of the random number or of its remainder. -/
structure Drawing (g : TdmaSetting) (e : SearchEnv) (table : BitVec 7 → SlotEntry) (u : SearchUnit) : Prop
    extends Choosing g e table .selRanStart u where
  index : u.fcb.ranIdx.toNat % e.size g table = e.random.toNat % e.size g table

/-- The choice is made. -/
structure Drawn (g : TdmaSetting) (e : SearchEnv) (table : BitVec 7 → SlotEntry) (u : SearchUnit) : Prop
    extends Choosing g e table .selRanWait2 u where
  index : u.fcb.ranIdx.toNat = e.random.toNat % e.size g table + 1

theorem Drawing.drawn (h : Drawing g e table u) (hlen : e.len.toNat ≤ 64) (hno : ¬ e.Fails g table)
    (hlt : u.fcb.ranIdx.toNat < e.size g table) : Drawn g e table (u.tick g e c) := by
  have htick : (u.tick g e c).fcb = { u.fcb with ranIdx := u.fcb.ranIdx + 1, state := .selRanWait2 } := by
    change u.fcb.tick g _ = _
    rw [Fcb.tick, h.state]
    change u.fcb.selRanStart g (u.input e c) = _
    rw [h.selRanStart_of_not_fails hno]
    exact if_pos hlt
  refine ⟨h.still ?_ ?_, ?_⟩
  · rw [htick]
  · rw [htick]
    exact ⟨rfl, rfl, rfl, rfl, rfl, rfl, rfl, rfl, rfl⟩
  · rw [htick]
    have hsize := @size_le g e table
    have hindex := h.index
    rw [Nat.mod_eq_of_lt hlt] at hindex
    change (u.fcb.ranIdx + 1).toNat = _
    rw [BitVec.toNat_add, hindex]
    have hone : (1 : BitVec 9).toNat = 1 := rfl
    rw [hone]
    exact Nat.mod_eq_of_lt (by omega)

theorem Choosing.divides (h : Choosing g e table .selRanStart u) (hno : ¬ e.Fails g table)
    (hge : ¬ u.fcb.ranIdx.toNat < e.size g table) :
    Choosing g e table .selRanWait1 (u.tick g e c) ∧ (u.tick g e c).fcb.dividend = u.fcb.ranIdx.setWidth 32
      ∧ (u.tick g e c).fcb.divisor = BitVec.ofNat 32 (e.size g table) := by
  have htick : (u.tick g e c).fcb = { u.fcb with
      dividend := u.fcb.ranIdx.setWidth 32, divisor := BitVec.ofNat 32 (e.size g table), dividerEnable := true
      state := .selRanWait1 } := by
    change u.fcb.tick g _ = _
    rw [Fcb.tick, h.state]
    change u.fcb.selRanStart g (u.input e c) = _
    rw [h.selRanStart_of_not_fails hno]
    exact if_neg hge
  refine ⟨h.still ?_ ?_, ?_, ?_⟩
  · rw [htick]
  · rw [htick]
    exact ⟨rfl, rfl, rfl, rfl, rfl, rfl, rfl, rfl, rfl⟩
  · rw [htick]
  · rw [htick]

theorem Drawing.dividing (h : Drawing g e table u) (hlen : e.len.toNat ≤ 64) (hno : ¬ e.Fails g table)
    (hge : ¬ u.fcb.ranIdx.toNat < e.size g table) : Dividing g e table (u.tick g e c) := by
  obtain ⟨hchoosing, hdividend, hdivisor⟩ := h.divides (c := c) hno hge
  refine ⟨hchoosing, ?_, ?_⟩
  · rw [hdividend, BitVec.toNat_setWidth, Nat.mod_eq_of_lt (Nat.lt_trans u.fcb.ranIdx.isLt (by decide))]
    exact h.index
  · have hsize := @size_le g e table
    rw [hdivisor, BitVec.toNat_ofNat]
    exact Nat.mod_eq_of_lt (by omega)

theorem Choosing.waits (h : Choosing g e table .selRanWait1 u) (hwait : ¬ c.dividerDone = true) :
    Choosing g e table .selRanWait1 (u.tick g e c) ∧ (u.tick g e c).fcb.dividend = u.fcb.dividend
      ∧ (u.tick g e c).fcb.divisor = u.fcb.divisor := by
  have htick : (u.tick g e c).fcb = { u.fcb with dividerEnable := false } := by
    change u.fcb.tick g _ = _
    unfold Fcb.tick
    split
    case h_8 => exact if_neg hwait
    all_goals
      rename_i hst
      exact FcbState.noConfusion (h.state.symm.trans hst)
  refine ⟨h.still ?_ ?_, ?_, ?_⟩
  · rw [htick]
    exact h.state
  · rw [htick]
    exact ⟨rfl, rfl, rfl, rfl, rfl, rfl, rfl, rfl, rfl⟩
  · rw [htick]
  · rw [htick]

theorem Dividing.waits (h : Dividing g e table u) (hwait : ¬ c.dividerDone = true) :
    Dividing g e table (u.tick g e c) := by
  obtain ⟨hchoosing, hdividend, hdivisor⟩ := h.toChoosing.waits hwait
  refine ⟨hchoosing, ?_, ?_⟩
  · rw [hdividend]
    exact h.dividend
  · rw [hdivisor]
    exact h.divisor

theorem Choosing.divided (h : Choosing g e table .selRanWait1 u) (hdone : c.dividerDone = true) :
    Choosing g e table .selRanStart (u.tick g e c)
      ∧ (u.tick g e c).fcb.ranIdx = (u.remainder c).setWidth 9 := by
  have htick : (u.tick g e c).fcb
      = { u.fcb with dividerEnable := false, ranIdx := (u.remainder c).setWidth 9, state := .selRanStart } := by
    change u.fcb.tick g _ = _
    rw [Fcb.tick, h.state]
    exact if_pos hdone
  refine ⟨h.still ?_ ?_, ?_⟩
  · rw [htick]
  · rw [htick]
    exact ⟨rfl, rfl, rfl, rfl, rfl, rfl, rfl, rfl, rfl⟩
  · rw [htick]

theorem Dividing.drawing (h : Dividing g e table u) (hlen : e.len.toNat ≤ 64) (hpos : 0 < e.size g table)
    (hdone : c.dividerDone = true) :
    Drawing g e table (u.tick g e c) ∧ (u.tick g e c).fcb.ranIdx.toNat < e.size g table := by
  obtain ⟨hchoosing, hindex⟩ := h.divided (c := c) hdone
  have hne : ¬ u.fcb.divisor = 0 := by
    intro hzero
    have hdivisor := h.divisor
    rw [hzero] at hdivisor
    exact Nat.ne_of_lt hpos hdivisor
  have hlt := Nat.mod_lt u.fcb.dividend.toNat hpos
  have hsize := @size_le g e table
  have htoNat : (u.tick g e c).fcb.ranIdx.toNat = u.fcb.dividend.toNat % e.size g table := by
    rw [hindex, remainder, if_neg hne, BitVec.toNat_setWidth, BitVec.toNat_umod, h.divisor]
    exact Nat.mod_eq_of_lt (by omega)
  refine ⟨⟨hchoosing, ?_⟩, ?_⟩
  · rw [htoNat, Nat.mod_mod]
    exact h.dividend
  · rw [htoNat]
    exact hlt

end Choice

/-! ### Reading the FIFOs -/

theorem getElem?_dread {i : FcbIn} {l : Fifo} {k : ℕ} (h : k < l.length) : l[k]? = some (i.dread (l.drop k)) := by
  rw [FcbIn.dread, List.headD_eq_head?_getD, List.head?_drop, List.getElem?_eq_getElem h]
  rfl

section Reading

variable {g : TdmaSetting} {e : SearchEnv} {table : BitVec 7 → SlotEntry} {u : SearchUnit} {c : SearchCycle} {k t : ℕ}

/-- Cycle `t` of the reading for the choice `k`. -/
structure Reading (k t : ℕ) (u : SearchUnit) : Prop where
  state : u.fcb.state = .selRanWait2
  index : u.fcb.ranIdx.toNat = k + 1 - t
  noWrites : u.fcb.NoWrites
  srst : u.fcb.srst = false
  fail : u.fcb.fail = false

/-- The end of the choice. -/
structure Finished (fail : Bool) (q : Option (BitVec 16)) (st : FcbState) (u : SearchUnit) : Prop where
  state : u.fcb.state = st
  fail : u.fcb.fail = fail
  candidate : ∀ a, q = some a → u.fcb.candidate = a

theorem Reading.not_zero (h : Reading k t u) (ht : t ≤ k) : ¬ u.fcb.ranIdx = 0 := by
  intro hzero
  have hindex := h.index
  rw [hzero] at hindex
  change 0 = k + 1 - t at hindex
  omega

theorem Reading.zero (h : Reading k (k + 1) u) : u.fcb.ranIdx = 0 := by
  have hindex := h.index
  rw [Nat.sub_self] at hindex
  exact BitVec.eq_of_toNat_eq hindex

theorem Reading.index_sub_one (h : Reading k t u) (ht : t ≤ k) : (u.fcb.ranIdx - 1).toNat = k + 1 - (t + 1) := by
  have hindex := h.index
  have hlt := u.fcb.ranIdx.isLt
  have hone : (1 : BitVec 9).toNat = 1 := rfl
  rw [BitVec.toNat_sub, hone, hindex]
  rw [hindex] at hlt
  omega

/-- The third FIFO is read. -/
structure ReadingHalf (g : TdmaSetting) (e : SearchEnv) (table : BitVec 7 → SlotEntry) (k t : ℕ) (u : SearchUnit) : Prop
    extends Reading k t u where
  half : u.half = (e.fifoHalf g table).drop (t - 1)
  rdEnHalf : u.fcb.rdEnHalf = decide (t ≠ 0)

theorem ReadingHalf.half_ne_nil (h : ReadingHalf g e table k t u) (hk : k < (e.fifoHalf g table).length)
    (ht : t ≤ k + 1) : u.half ≠ [] := by
  rw [h.half]
  intro hnil
  have := List.drop_eq_nil_iff.mp hnil
  omega

theorem ReadingHalf.half_tick (h : ReadingHalf g e table k t u) :
    (u.tick g e c).half = (e.fifoHalf g table).drop (t + 1 - 1) := by
  change u.half.tick _ _ _ _ = _
  rw [h.srst, h.noWrites.wrEnHalf, h.rdEnHalf, h.half, Fifo.tick_drop]
  rfl

theorem ReadingHalf.tick (h : ReadingHalf g e table k t u) (hena : g.frameAdjEna = true)
    (hk : k < (e.fifoHalf g table).length) (ht : t ≤ k) : ReadingHalf g e table k (t + 1) (u.tick g e c) := by
  have htick : (u.tick g e c).fcb = { u.fcb with
      rdEnHalf := true, candidate := (u.input e c).dread u.half, ranIdx := u.fcb.ranIdx - 1 } := by
    change u.fcb.tick g _ = _
    unfold Fcb.tick
    split
    case h_9 =>
      unfold Fcb.selRanWait2
      rw [if_pos ⟨hena, h.half_ne_nil hk (Nat.le_succ_of_le ht)⟩]
      exact if_neg (h.not_zero ht)
    all_goals
      rename_i hst
      exact FcbState.noConfusion (h.state.symm.trans hst)
  have hno := h.noWrites
  refine ⟨⟨?_, ?_, ?_, ?_, ?_⟩, h.half_tick, ?_⟩
  · rw [htick]
    exact h.state
  · rw [htick]
    exact h.index_sub_one ht
  · rw [htick]
    exact ⟨hno.wrEnS1, hno.wrEnS2, hno.wrEnHalf⟩
  · rw [htick]
    exact h.srst
  · rw [htick]
    exact h.fail
  · rw [htick]
    rfl

theorem ReadingHalf.finished (h : ReadingHalf g e table k (k + 1) u) (hena : g.frameAdjEna = true)
    (hk : k < (e.fifoHalf g table).length) :
    Finished false (e.fifoHalf g table)[k]? .done (u.tick g e c) := by
  have htick : (u.tick g e c).fcb = { u.fcb with
      rdEnHalf := true, candidate := (u.input e c).dread u.half, srst := true, state := .done } := by
    change u.fcb.tick g _ = _
    rw [Fcb.tick, h.state]
    change u.fcb.selRanWait2 g (u.input e c) = _
    unfold Fcb.selRanWait2
    rw [if_pos ⟨hena, h.half_ne_nil hk (Nat.le_refl _)⟩]
    exact if_pos h.zero
  refine ⟨?_, ?_, ?_⟩
  · rw [htick]
  · rw [htick]
    exact h.fail
  · intro a ha
    rw [htick]
    change (u.input e c).dread u.half = a
    rw [h.half, Nat.add_sub_cancel]
    rw [@getElem?_dread (u.input e c) _ k hk] at ha
    exact Option.some.inj ha

/-- The first FIFO is popped, and the first or the second is read. -/
structure ReadingFirst (g : TdmaSetting) (e : SearchEnv) (table : BitVec 7 → SlotEntry) (k t : ℕ) (u : SearchUnit) : Prop
    extends Reading k t u where
  half : u.half = e.fifoHalf g table
  rdEnHalf : u.fcb.rdEnHalf = false
  s1 : u.s1 = (e.fifo1 g table).drop (t - 1)
  rdEnS1 : u.fcb.rdEnS1 = decide (t ≠ 0)
  s2 : u.s2 = e.fifo2 g table
  rdEnS2 : u.fcb.rdEnS2 = false
  last : t ≠ 0 → ¬ g.slotAdjEna = true → (e.fifo1 g table)[t - 2]? = some u.fcb.candidate

theorem ReadingFirst.not_halved (h : ReadingFirst g e table k t u) (hno : ¬ e.Halved g table) :
    ¬ (g.frameAdjEna = true ∧ (u.input e c).half ≠ []) := by
  change ¬ (g.frameAdjEna = true ∧ u.half ≠ [])
  rw [h.half]
  exact hno

theorem ReadingFirst.length_s1 (h : ReadingFirst g e table k t u) :
    u.s1.length = (e.fifo1 g table).length - (t - 1) := by
  rw [h.s1, List.length_drop]

theorem ReadingFirst.of_tick (h : ReadingFirst g e table k t u) (ht : t ≤ k) {q : BitVec 16}
    (htick : (u.tick g e c).fcb = { u.fcb with rdEnS1 := true, candidate := q, ranIdx := u.fcb.ranIdx - 1 })
    (hlast : ¬ g.slotAdjEna = true → (e.fifo1 g table)[t - 1]? = some q) :
    ReadingFirst g e table k (t + 1) (u.tick g e c) := by
  have hno := h.noWrites
  refine ⟨⟨?_, ?_, ?_, ?_, ?_⟩, ?_, ?_, ?_, ?_, ?_, ?_, ?_⟩
  · rw [htick]
    exact h.state
  · rw [htick]
    exact h.index_sub_one ht
  · rw [htick]
    exact ⟨hno.wrEnS1, hno.wrEnS2, hno.wrEnHalf⟩
  · rw [htick]
    exact h.srst
  · rw [htick]
    exact h.fail
  · change u.half.tick _ _ _ _ = _
    rw [h.srst, hno.wrEnHalf, h.rdEnHalf, Fifo.tick_still, h.half]
  · rw [htick]
    exact h.rdEnHalf
  · change u.s1.tick _ _ _ _ = _
    rw [h.srst, hno.wrEnS1, h.rdEnS1, h.s1, Fifo.tick_drop]
    rfl
  · rw [htick]
    rfl
  · change u.s2.tick _ _ _ _ = _
    rw [h.srst, hno.wrEnS2, h.rdEnS2, Fifo.tick_still, h.s2]
  · rw [htick]
    exact h.rdEnS2
  · intro _ hslot
    rw [htick]
    exact hlast hslot

/-- With two FIFOs the first is popped, although it may be the second that is read. -/
theorem ReadingFirst.tick_split (h : ReadingFirst g e table k t u) (hhalved : ¬ e.Halved g table)
    (hslot : g.slotAdjEna = true) (hne : e.fifo2 g table ≠ []) (ht : t ≤ k) :
    ReadingFirst g e table k (t + 1) (u.tick g e c) := by
  have htick : ∃ q, (u.tick g e c).fcb
      = { u.fcb with rdEnS1 := true, candidate := q, ranIdx := u.fcb.ranIdx - 1 } := by
    change ∃ q, u.fcb.tick g (u.input e c) = _
    unfold Fcb.tick
    split
    case h_9 =>
      unfold Fcb.selRanWait2
      rw [if_neg (h.not_halved hhalved), if_pos hslot]
      split
      · exact ⟨_, if_neg (h.not_zero ht)⟩
      · have hs2 : (u.input e c).s2.length ≠ 0 := by
          change u.s2.length ≠ 0
          rw [h.s2]
          exact fun hc => hne (List.length_eq_zero_iff.mp hc)
        rw [if_pos hs2, if_neg (h.not_zero ht)]
        exact ⟨_, if_neg (h.not_zero ht)⟩
    all_goals
      rename_i hst
      exact FcbState.noConfusion (h.state.symm.trans hst)
  obtain ⟨q, htick⟩ := htick
  exact h.of_tick ht htick fun hc => absurd hslot hc

theorem ReadingFirst.finished_split (h : ReadingFirst g e table k (k + 1) u) (hhalved : ¬ e.Halved g table)
    (hslot : g.slotAdjEna = true) (hne : e.fifo2 g table ≠ [])
    (hk : e.thres ≤ (e.fifo1 g table).length - k → k < (e.fifo1 g table).length) :
    Finished false (e.taken g table k) .done (u.tick g e c) := by
  have hlength : (u.input e c).s1.length = (e.fifo1 g table).length - k := h.length_s1
  have hst : (u.tick g e c).fcb = u.fcb.selRanWait2 g (u.input e c) := by
    change u.fcb.tick g _ = _
    rw [Fcb.tick, h.state]
  unfold SearchEnv.taken
  rw [if_neg hhalved, if_pos hslot]
  by_cases hthres : e.thres ≤ (e.fifo1 g table).length - k
  · have htick : (u.tick g e c).fcb = { u.fcb with
        rdEnS1 := true, candidate := (u.input e c).dread u.s1, srst := true, state := .done } := by
      rw [hst]
      unfold Fcb.selRanWait2
      rw [if_neg (h.not_halved hhalved), if_pos hslot, if_pos (by rw [hlength]; exact hthres)]
      exact if_pos h.zero
    rw [if_pos hthres]
    refine ⟨?_, ?_, ?_⟩
    · rw [htick]
    · rw [htick]
      exact h.fail
    · intro a ha
      rw [htick]
      change (u.input e c).dread u.s1 = a
      rw [h.s1, Nat.add_sub_cancel]
      rw [@getElem?_dread (u.input e c) _ k (hk hthres)] at ha
      exact Option.some.inj ha
  · have hs2 : (u.input e c).s2.length ≠ 0 := by
      change u.s2.length ≠ 0
      rw [h.s2]
      exact fun hc => hne (List.length_eq_zero_iff.mp hc)
    have htick : (u.tick g e c).fcb = { u.fcb with
        rdEnS2 := true, candidate := (u.input e c).dread u.s2, srst := true, state := .done } := by
      rw [hst]
      unfold Fcb.selRanWait2
      rw [if_neg (h.not_halved hhalved), if_pos hslot, if_neg (by rw [hlength]; exact hthres), if_pos hs2,
        if_pos h.zero]
      exact if_pos h.zero
    rw [if_neg hthres]
    refine ⟨?_, ?_, ?_⟩
    · rw [htick]
    · rw [htick]
      exact h.fail
    · intro a ha
      rw [htick]
      change (u.input e c).dread u.s2 = a
      rw [h.s2, FcbIn.dread, List.headD_eq_head?_getD, ha]
      rfl

/-- With one FIFO the candidate is latched one pop behind. -/
theorem ReadingFirst.tick_plain (h : ReadingFirst g e table k t u) (hhalved : ¬ e.Halved g table)
    (hslot : ¬ g.slotAdjEna = true) (hk : k < (e.fifo1 g table).length) (ht : t ≤ k) :
    ReadingFirst g e table k (t + 1) (u.tick g e c) := by
  have hne : u.s1 ≠ [] := by
    rw [h.s1]
    intro hnil
    have := List.drop_eq_nil_iff.mp hnil
    omega
  have htick : (u.tick g e c).fcb = { u.fcb with
      rdEnS1 := true, candidate := (u.input e c).dread u.s1, ranIdx := u.fcb.ranIdx - 1 } := by
    change u.fcb.tick g _ = _
    unfold Fcb.tick
    split
    case h_9 =>
      unfold Fcb.selRanWait2
      rw [if_neg (h.not_halved hhalved), if_neg hslot]
      exact if_pos ⟨hne, h.not_zero ht⟩
    all_goals
      rename_i hst
      exact FcbState.noConfusion (h.state.symm.trans hst)
  refine h.of_tick ht htick fun _ => ?_
  rw [h.s1]
  exact getElem?_dread (by omega)

theorem ReadingFirst.finished_plain (h : ReadingFirst g e table k (k + 1) u) (hhalved : ¬ e.Halved g table)
    (hslot : ¬ g.slotAdjEna = true) : Finished false (e.taken g table k) .done (u.tick g e c) := by
  have htick : (u.tick g e c).fcb = { u.fcb with rdEnS1 := false, srst := true, state := .done } := by
    change u.fcb.tick g _ = _
    rw [Fcb.tick, h.state]
    change u.fcb.selRanWait2 g (u.input e c) = _
    unfold Fcb.selRanWait2
    rw [if_neg (h.not_halved hhalved), if_neg hslot]
    exact if_neg fun hc => hc.2 h.zero
  unfold SearchEnv.taken
  rw [if_neg hhalved, if_neg hslot]
  refine ⟨?_, ?_, ?_⟩
  · rw [htick]
  · rw [htick]
    exact h.fail
  · intro a ha
    rw [htick]
    have hlast := h.last (Nat.succ_ne_zero k) hslot
    rw [show k + 1 - 2 = k - 1 by omega, ha] at hlast
    exact (Option.some.inj hlast).symm

end Reading

/-! ### A run -/

/-- A search at rest, with empty FIFOs. -/
structure Rests (u : SearchUnit) : Prop where
  state : u.fcb.state = .idle
  we : u.fcb.we = false
  rdEnS1 : u.fcb.rdEnS1 = false
  rdEnS2 : u.fcb.rdEnS2 = false
  rdEnHalf : u.fcb.rdEnHalf = false
  srst : u.fcb.srst = false
  noWrites : u.fcb.NoWrites
  s1 : u.s1 = []
  s2 : u.s2 = []
  half : u.half = []

theorem busy_of_state {u : SearchUnit} {st : FcbState} (h : u.fcb.state = st) (hne : st ≠ .idle) : Busy u := by
  intro hidle
  exact hne (h.symm.trans hidle)

section Run

variable {g : TdmaSetting} {e : SearchEnv} {table : BitVec 7 → SlotEntry} {u : SearchUnit} {inp : ℕ → SearchCycle}
variable {a n : ℕ}

theorem Rests.advancing (h : u.Rests) {c : SearchCycle} (hstart : c.fcbStart = true) :
    Advancing g e u.cell .start 0 (u.tick g e c) := by
  have htick : (u.tick g e c).fcb = { u.fcb with
      done := false, inprogress := true, we := false, addr := 0, fail := false, candidate := 0xffff
      state := .start } := by
    change u.fcb.tick g _ = _
    rw [Fcb.tick, h.state]
    exact if_pos hstart
  have hno := h.noWrites
  refine ⟨⟨?_, ?_, fun k _ => tick_cell_of_we h.we k, ?_⟩, Or.inl rfl, ?_, ?_, ⟨?_, ?_, ?_⟩⟩
  · rw [htick]
  · rw [htick]
    rfl
  · rw [htick]
    exact ⟨h.rdEnS1, h.rdEnS2, h.rdEnHalf, h.srst, rfl⟩
  · rw [htick]
    exact ⟨hno.wrEnS1, hno.wrEnS2, hno.wrEnHalf⟩
  · rw [htick]
  · change u.s1.tick _ _ _ _ = _
    rw [h.srst, hno.wrEnS1, h.rdEnS1, Fifo.tick_still, h.s1]
    rfl
  · change u.s2.tick _ _ _ _ = _
    rw [h.srst, hno.wrEnS2, h.rdEnS2, Fifo.tick_still, h.s2]
    rfl
  · change u.half.tick _ _ _ _ = _
    rw [h.srst, hno.wrEnHalf, h.rdEnHalf, Fifo.tick_still, h.half]
    rfl

theorem Scan.comes_succ (h : Scan g e table a (trace (tick g e) inp u n)) (ha : a < e.len.toNat)
    (hlen : e.len.toNat ≤ 64) : Comes (trace (tick g e) inp u) Busy (Scan g e table (a + 1)) n := by
  have h1 : Listing g e table a (trace (tick g e) inp u (n + 1)) := h.listing ha hlen
  have h2 : Clearing g e table a (trace (tick g e) inp u (n + 2)) := h1.clearing (by omega)
  have h3 : Advancing g e table .clrSetaddrWait (a + 1) (trace (tick g e) inp u (n + 3)) := h2.advancing (by omega)
  have h4 : Scan g e table (a + 1) (trace (tick g e) inp u (n + 4)) := h3.scan (by omega)
  refine Comes.step (busy_of_state h.state nofun) ?_
  refine Comes.step (busy_of_state h1.state nofun) ?_
  refine Comes.step (busy_of_state h2.state nofun) ?_
  exact Comes.step (busy_of_state h3.state nofun) (Comes.here h4)

theorem Scan.comes_end {d : ℕ} (h : Scan g e table a (trace (tick g e) inp u n)) (hd : a + d = e.len.toNat)
    (hlen : e.len.toNat ≤ 64) : Comes (trace (tick g e) inp u) Busy (Scan g e table e.len.toNat) n := by
  induction d generalizing a n with
  | zero =>
    rw [← hd]
    exact Comes.here h
  | succ d ih => exact (h.comes_succ (by omega) hlen).trans fun m hm => ih hm (by omega)

/-- **The scan fills the FIFOs.** -/
theorem Rests.comes_choosing (h : u.Rests) (hstart : (inp 0).fcbStart = true) (hlen : e.len.toNat ≤ 64) :
    Comes (trace (tick g e) inp u) Busy
      (fun v => Choosing g e u.cell .selRanStart v ∧ v.fcb.ranIdx = e.random) 1 := by
  have h1 : Advancing g e u.cell .start 0 (trace (tick g e) inp u 1) := h.advancing hstart
  have h2 : Scan g e u.cell 0 (trace (tick g e) inp u 2) := h1.scan (by decide)
  refine Comes.step (busy_of_state h1.state nofun) ?_
  refine (h2.comes_end (Nat.zero_add _) hlen).trans fun m hm => ?_
  exact Comes.step (busy_of_state hm.state nofun) (Comes.here (hm.choosing hlen))

/-- **The choice is made**, after a division if the random number is too large. -/
theorem Drawing.comes_drawn (h : Drawing g e table (trace (tick g e) inp u n)) (hlen : e.len.toNat ≤ 64)
    (hno : ¬ e.Fails g table) (hpos : 0 < e.size g table) (hdivides : ∀ n, ∃ m, n ≤ m ∧ (inp m).dividerDone = true) :
    Comes (trace (tick g e) inp u) Busy (Drawn g e table) n := by
  have hsmall : ∀ m, Drawing g e table (trace (tick g e) inp u m) →
      (trace (tick g e) inp u m).fcb.ranIdx.toNat < e.size g table →
      Comes (trace (tick g e) inp u) Busy (Drawn g e table) m := by
    intro m hm hlt
    exact Comes.step (busy_of_state hm.state nofun) (Comes.here (hm.drawn hlen hno hlt))
  by_cases hlt : (trace (tick g e) inp u n).fcb.ranIdx.toNat < e.size g table
  · exact hsmall n h hlt
  · have h1 : Dividing g e table (trace (tick g e) inp u (n + 1)) := h.dividing hlen hno hlt
    refine Comes.step (busy_of_state h.state nofun) ?_
    refine Comes.of_signal (fun k hk hwait => hk.waits hwait)
      (fun v hv => busy_of_state hv.state FcbState.noConfusion) (fun k hk hdone => ?_) h1 (hdivides (n + 1))
    obtain ⟨hdrawing, hlt⟩ := hk.drawing hlen hpos hdone
    exact hsmall (k + 1) hdrawing hlt

theorem Choosing.busy_of_size_eq_zero (h : Choosing g e table .selRanStart (trace (tick g e) inp u n))
    (hno : ¬ e.Fails g table) (hzero : e.size g table = 0) {m : ℕ} (hnm : n ≤ m) :
    Busy (trace (tick g e) inp u m) := by
  have hall : Choosing g e table .selRanStart (trace (tick g e) inp u m)
      ∨ Choosing g e table .selRanWait1 (trace (tick g e) inp u m) := by
    induction hnm with
    | refl => exact Or.inl h
    | @step m _ ih =>
      rcases ih with hstart | hwait
      · exact Or.inr (hstart.divides hno (by rw [hzero]; exact Nat.not_lt_zero _)).1
      · by_cases hdone : (inp m).dividerDone = true
        · exact Or.inl (hwait.divided hdone).1
        · exact Or.inr (hwait.waits hdone).1
  rcases hall with hstart | hwait
  · exact busy_of_state hstart.state nofun
  · exact busy_of_state hwait.state nofun

theorem comes_of_loop {P : ℕ → SearchUnit → Prop} {k : ℕ} (hbusy : ∀ t v, P t v → Busy v)
    (hstep : ∀ t v c, t ≤ k → P t v → P (t + 1) (v.tick g e c)) (h : P 0 (trace (tick g e) inp u n)) :
    Comes (trace (tick g e) inp u) Busy (P (k + 1)) n := by
  have hall : ∀ t, t ≤ k + 1 → P t (trace (tick g e) inp u (n + t)) := by
    intro t
    induction t with
    | zero => exact fun _ => h
    | succ t ih => exact fun ht => hstep t _ _ (by omega) (ih (by omega))
  refine ⟨n + (k + 1), by omega, hall (k + 1) (Nat.le_refl _), fun j hnj hj => ?_⟩
  obtain ⟨d, rfl⟩ := Nat.exists_eq_add_of_le hnj
  exact hbusy d _ (hall d (by omega))

theorem Drawn.comes_finished_half {k : ℕ} (h : Drawn g e table (trace (tick g e) inp u n))
    (hk : k = e.random.toNat % e.size g table) (hhalved : e.Halved g table)
    (hlt : k < (e.fifoHalf g table).length) :
    Comes (trace (tick g e) inp u) Busy (Finished false (e.taken g table k) .done) n := by
  have h0 : ReadingHalf g e table k 0 (trace (tick g e) inp u n) :=
    ⟨⟨h.state, by rw [h.index, hk]; rfl, h.noWrites, h.low.srst, h.low.fail⟩, h.filled.half, h.low.rdEnHalf⟩
  have hloop := comes_of_loop (fun _ v hv => busy_of_state hv.state FcbState.noConfusion)
    (fun t v c ht hv => hv.tick hhalved.1 hlt ht) h0
  refine hloop.trans fun m hm => ?_
  refine Comes.step (busy_of_state hm.state nofun) (Comes.here ?_)
  rw [SearchEnv.taken, if_pos hhalved]
  exact hm.finished hhalved.1 hlt

theorem Drawn.readingFirst {k : ℕ} (h : Drawn g e table u) (hk : k = e.random.toNat % e.size g table) :
    ReadingFirst g e table k 0 u :=
  ⟨⟨h.state, by rw [h.index, hk]; rfl, h.noWrites, h.low.srst, h.low.fail⟩, h.filled.half, h.low.rdEnHalf, h.filled.s1,
    h.low.rdEnS1, h.filled.s2, h.low.rdEnS2, fun hc => absurd rfl hc⟩

theorem Drawn.comes_finished_split {k : ℕ} (h : Drawn g e table (trace (tick g e) inp u n))
    (hk : k = e.random.toNat % e.size g table) (hhalved : ¬ e.Halved g table) (hslot : g.slotAdjEna = true)
    (hne : e.fifo2 g table ≠ []) (hlt : e.thres ≤ (e.fifo1 g table).length - k → k < (e.fifo1 g table).length) :
    Comes (trace (tick g e) inp u) Busy (Finished false (e.taken g table k) .done) n := by
  have hloop := comes_of_loop (fun _ v hv => busy_of_state hv.state FcbState.noConfusion)
    (fun t v c ht hv => hv.tick_split hhalved hslot hne ht) (h.readingFirst hk)
  refine hloop.trans fun m hm => ?_
  exact Comes.step (busy_of_state hm.state nofun) (Comes.here (hm.finished_split hhalved hslot hne hlt))

theorem Drawn.comes_finished_plain {k : ℕ} (h : Drawn g e table (trace (tick g e) inp u n))
    (hk : k = e.random.toNat % e.size g table) (hhalved : ¬ e.Halved g table) (hslot : ¬ g.slotAdjEna = true)
    (hlt : k < (e.fifo1 g table).length) :
    Comes (trace (tick g e) inp u) Busy (Finished false (e.taken g table k) .done) n := by
  have hloop := comes_of_loop (fun _ v hv => busy_of_state hv.state FcbState.noConfusion)
    (fun t v c ht hv => hv.tick_plain hhalved hslot hlt ht) (h.readingFirst hk)
  refine hloop.trans fun m hm => ?_
  exact Comes.step (busy_of_state hm.state nofun) (Comes.here (hm.finished_plain hhalved hslot))

theorem Finished.comes_idle {fail : Bool} {q : Option (BitVec 16)} (h : Finished fail q .done (trace (tick g e) inp u n)) :
    Comes (trace (tick g e) inp u) Busy (Finished fail q .idle) n := by
  have h1 : Finished fail q .done2 (trace (tick g e) inp u (n + 1)) := by
    have htick : (trace (tick g e) inp u (n + 1)).fcb = { (trace (tick g e) inp u n).fcb with
        addr := 0, rdEnS1 := false, rdEnS2 := false, rdEnHalf := false, srst := false, state := .done2 } := by
      change (trace (tick g e) inp u n).fcb.tick g _ = _
      rw [Fcb.tick, h.state]
    refine ⟨?_, ?_, ?_⟩
    · rw [htick]
    · rw [htick]
      exact h.fail
    · rw [htick]
      exact h.candidate
  have h2 : Finished fail q .idle (trace (tick g e) inp u (n + 2)) := by
    have htick : (trace (tick g e) inp u (n + 2)).fcb = { (trace (tick g e) inp u (n + 1)).fcb with
        done := true, inprogress := false, state := .idle } := by
      change (trace (tick g e) inp u (n + 1)).fcb.tick g _ = _
      rw [Fcb.tick, h1.state]
    refine ⟨?_, ?_, ?_⟩
    · rw [htick]
    · rw [htick]
      exact h1.fail
    · rw [htick]
      exact h1.candidate
  refine Comes.step (busy_of_state h.state nofun) ?_
  exact Comes.step (busy_of_state h1.state nofun) (Comes.here h2)

theorem Rests.comes_fail (h : u.Rests) (hstart : (inp 0).fcbStart = true) (hlen : e.len.toNat ≤ 64)
    (hfails : e.Fails g u.cell) : Comes (trace (tick g e) inp u) Busy (Finished true none .idle) 1 := by
  refine (h.comes_choosing hstart hlen).trans fun m hm => ?_
  obtain ⟨hchoosing, -⟩ := hm
  refine Comes.step (busy_of_state hchoosing.state nofun) (Finished.comes_idle ?_)
  have htick : (trace (tick g e) inp u (m + 1)).fcb
      = { (trace (tick g e) inp u m).fcb with fail := true, state := .done } := by
    change (trace (tick g e) inp u m).fcb.tick g _ = _
    rw [Fcb.tick, hchoosing.state]
    exact hchoosing.selRanStart_of_fails hfails
  refine ⟨?_, ?_, fun a hc => absurd hc.symm (Option.some_ne_none a)⟩
  · rw [htick]
  · rw [htick]

/-- **A search that has something to choose from takes it.** -/
theorem Rests.comes_taken (h : u.Rests) (hstart : (inp 0).fcbStart = true) (hlen : e.len.toNat ≤ 64)
    (hno : ¬ e.Fails g u.cell) (hpos : 0 < e.size g u.cell)
    (hdivides : ∀ n, ∃ m, n ≤ m ∧ (inp m).dividerDone = true) :
    Comes (trace (tick g e) inp u) Busy
      (Finished false (e.taken g u.cell (e.random.toNat % e.size g u.cell)) .idle) 1 := by
  refine (h.comes_choosing hstart hlen).trans fun m hm => ?_
  have hdrawing : Drawing g e u.cell (trace (tick g e) inp u m) := ⟨hm.1, by rw [hm.2]⟩
  refine (hdrawing.comes_drawn hlen hno hpos hdivides).trans fun l hl => ?_
  have hlt := Nat.mod_lt e.random.toNat hpos
  have hfinished : Comes (trace (tick g e) inp u) Busy
      (Finished false (e.taken g u.cell (e.random.toNat % e.size g u.cell)) .done) l := by
    by_cases hhalved : e.Halved g u.cell
    · refine hl.comes_finished_half rfl hhalved ?_
      rwa [SearchEnv.size, if_pos hhalved] at hlt ⊢
    by_cases hslot : g.slotAdjEna = true
    · refine hl.comes_finished_split rfl hhalved hslot ?_ ?_
      · rw [SearchEnv.fifo2_of_split hslot]
        exact SearchEnv.eligible_ne_nil hslot hhalved hpos
      · rw [SearchEnv.fifo1_of_split hslot]
        exact SearchEnv.choice_lt_of_thres hslot hhalved hpos
    · refine hl.comes_finished_plain rfl hhalved hslot ?_
      rwa [SearchEnv.size, if_neg hhalved, if_neg hslot] at hlt ⊢
  exact hfinished.trans fun j hj => hj.comes_idle

/-- The answer of the search is right: it fails if there is nothing to take, and takes the element of the random number
else. -/
def Right (g : TdmaSetting) (e : SearchEnv) (table : BitVec 7 → SlotEntry) (f : Fcb) : Prop :=
  (f.fail = true ↔ e.candidates g table = [])
    ∧ (e.candidates g table ≠ [] →
      (e.candidates g table)[e.random.toNat % (e.candidates g table).length]? = some f.candidate)

/-- A search that is started ends, and its answer is right. -/
def EndsRight (g : TdmaSetting) (e : SearchEnv) (inp : ℕ → SearchCycle) (u : SearchUnit) : Prop :=
  Comes (trace (tick g e) inp u) Busy (fun v => v.fcb.state = .idle ∧ Right g e u.cell v.fcb) 1

theorem EndsRight.right_of_comes {fail : Bool} {q : Option (BitVec 16)} (h : EndsRight g e inp u)
    (hcomes : Comes (trace (tick g e) inp u) Busy (Finished fail q .idle) 1) :
    ∃ f : Fcb, Right g e u.cell f ∧ f.fail = fail ∧ ∀ a, q = some a → f.candidate = a := by
  obtain ⟨m, h1m, hend, hway⟩ := h
  have hfinished := hcomes.of_first (fun v hv => not_not_intro hv.state) h1m (not_not_intro hend.1) hway
  exact ⟨_, hend.2, hfinished.fail, hfinished.candidate⟩

/-- **When the search answers right.**  For every table of at most 64 slots, every random number and every setting, a
search with a divider that divides ends with the right answer exactly under `SearchEnv.Fair`. -/
theorem ends_right_iff (h : u.Rests) (hstart : (inp 0).fcbStart = true) (hlen : e.len.toNat ≤ 64)
    (hdivides : ∀ n, ∃ m, n ≤ m ∧ (inp m).dividerDone = true) : EndsRight g e inp u ↔ e.Fair g u.cell := by
  by_cases hfails : e.Fails g u.cell
  · obtain ⟨hnil, hfair⟩ := SearchEnv.candidates_of_fails hfails
    refine iff_of_true ?_ hfair
    refine (h.comes_fail hstart hlen hfails).trans fun m hm => Comes.here ?_
    exact ⟨hm.state, iff_of_true hm.fail hnil, fun hc => absurd hnil hc⟩
  by_cases hzero : e.size g u.cell = 0
  · refine iff_of_false ?_ (SearchEnv.not_fair_of_size_eq_zero hfails hzero)
    rintro ⟨m, h1m, hend, hway⟩
    obtain ⟨l, h1l, ⟨hchoosing, -⟩, hbusy⟩ := h.comes_choosing (g := g) hstart hlen
    by_cases hlm : l ≤ m
    · exact hchoosing.busy_of_size_eq_zero hfails hzero hlm hend.1
    · exact hbusy m h1m (Nat.lt_of_not_le hlm) hend.1
  have hpos := Nat.pos_of_ne_zero hzero
  have hcomes := h.comes_taken hstart hlen hfails hpos hdivides
  obtain ⟨q, htaken⟩ := SearchEnv.exists_taken hpos e.random.toNat
  rw [← SearchEnv.taken_iff hlen hpos, htaken]
  constructor
  · intro hright
    obtain ⟨f, ⟨hfail, hcand⟩, hlow, hq⟩ := hright.right_of_comes hcomes
    have hne : e.candidates g u.cell ≠ [] := by
      intro hnil
      exact Bool.false_ne_true (hlow.symm.trans (hfail.mpr hnil))
    refine ⟨hne, ?_⟩
    rw [hcand hne, hq q htaken]
  · rintro ⟨hne, hcand⟩
    refine hcomes.trans fun m hm => Comes.here ⟨hm.state, ?_, fun _ => ?_⟩
    · rw [hm.fail]
      exact iff_of_false Bool.false_ne_true hne
    · rw [hcand, hm.candidate q htaken]

end Run

/-- A setting in which slots are adjusted. -/
def choosingSetting : TdmaSetting where
  globalSid := 5
  bchCandidateC3hopThresS1 := 3
  adjFrameLowerBound := 4
  adjFrameUpperBound := 16

def choosingEnv (random : BitVec 9) : SearchEnv where
  len := 16
  strict := false
  halfEmpty := false
  random := random

def choosingInp (n : ℕ) : SearchCycle where
  fcbStart := n == 0
  dividerDone := true

def emptyTable : SearchUnit where
  cell _ := {}

theorem emptyTable_rests : emptyTable.Rests := ⟨rfl, rfl, rfl, rfl, rfl, rfl, ⟨rfl, rfl, rfl⟩, rfl, rfl, rfl⟩

/-- The random number 37 takes slot 5. -/
theorem ends_right_iff_empty : EndsRight choosingSetting (choosingEnv 37) choosingInp emptyTable :=
  (ends_right_iff emptyTable_rests rfl (by decide) fun n => ⟨n, Nat.le_refl n, rfl⟩).mpr (by decide +kernel)

/-- With an empty table and the random number 15, slot 15 is to be taken.  On the way to it the first FIFO falls below
`thres_slot_adj`, and the head of the second one is taken. -/
theorem last_slot_not_taken :
    ¬ ∀ (g : TdmaSetting) (e : SearchEnv) (inp : ℕ → SearchCycle) (u : SearchUnit), u.Rests →
      (inp 0).fcbStart = true → e.len.toNat ≤ 64 → (∀ n, ∃ m, n ≤ m ∧ (inp m).dividerDone = true) →
      EndsRight g e inp u := by
  intro h
  obtain ⟨m, h1m, ⟨hidle, -, hright⟩, hway⟩ := h choosingSetting (choosingEnv 15) choosingInp emptyTable
    emptyTable_rests rfl (by decide) fun n => ⟨n, Nat.le_refl n, rfl⟩
  have hrun : (∀ k < 87, 1 ≤ k →
        (trace (tick choosingSetting (choosingEnv 15)) choosingInp emptyTable k).fcb.state ≠ .idle)
      ∧ (trace (tick choosingSetting (choosingEnv 15)) choosingInp emptyTable 87).fcb.state = .idle
      ∧ (trace (tick choosingSetting (choosingEnv 15)) choosingInp emptyTable 87).fcb.candidate = 0 := by
    decide +kernel
  have hlist : (choosingEnv 15).candidates choosingSetting emptyTable.cell ≠ []
      ∧ ((choosingEnv 15).candidates choosingSetting emptyTable.cell)[(choosingEnv 15).random.toNat
        % ((choosingEnv 15).candidates choosingSetting emptyTable.cell).length]? = some 15 := by
    decide +kernel
  obtain ⟨hbusy, hend, hcandidate⟩ := hrun
  have heq : m = 87 := by
    refine Nat.le_antisymm (Nat.le_of_not_lt fun hlt => ?_) (Nat.le_of_not_lt fun hlt => ?_)
    · exact hway 87 (by decide) hlt hend
    · exact hbusy m hlt h1m hidle
  have htaken := hright hlist.1
  rw [hlist.2, heq, hcandidate] at htaken
  exact absurd htaken (by decide)

end SearchUnit

end VanetTdma.Fpga
