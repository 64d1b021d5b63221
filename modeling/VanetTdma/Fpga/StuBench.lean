import VanetTdma.Lib.Clocked
import VanetTdma.Fpga.Stu

/-!
# The slot-table updater on its memories

`Bench` is the updater with the slot-status memory, of which only port A writes, and a packet memory that
does not change.  A slot `a` of a pass is worked through in three parts: the fourteen bits of its tag are
shifted in, the tag is judged, and the address moves on.

* `Scan c mem L p a k` — the updater is in pass `p` at slot `a`, has read `k` bits of its tag, and the
  slot-status memory is `mem`;
* `Scan.until_full` — the rest of the tag is read;
* `Scan.until_judging`, `Judging.until_scan_second` — a slot is judged, and in the second pass always
  left for the next one, with the entry that `judge` makes of it.
-/

namespace VanetTdma.Fpga

open VanetTdma.Clocked VanetTdma.DualPort

/-- What stays fixed while a packet is worked through. -/
structure StuSetting where
  globalSid : BitVec 8
  currFrameLen : BitVec 10
  rcvPkt : RcvPkt
  rcvpktAddrbIrq : BitVec 9

def StuSetting.env (c : StuSetting) (start : Bool) : StuEnv where
  stuStart := start
  globalSid := c.globalSid
  currFrameLen := c.currFrameLen
  rcvPkt := c.rcvPkt
  rcvpktAddrbIrq := c.rcvpktAddrbIrq

structure Bench where
  unit : StuUnit
  ram : SlotRam

namespace Bench

/-- Port B at rest. -/
def restB : SlotPort where
  addr := 0
  we := false
  din := {}

/-- One edge, with the level of `stu_start` as input. -/
def tick (c : StuSetting) (s : Bench) (start : Bool) : Bench where
  unit := s.unit.tick (c.env start) s.ram.doutA
  ram := s.ram.tick s.unit.portA restB ⟨{}, {}, {}⟩

/-- One edge with `stu_start` low. -/
def next (c : StuSetting) (s : Bench) : Bench := s.tick c false

/-- Neither idle nor about to be. -/
def Busy (s : Bench) : Prop := s.unit.stu.state ≠ .idle ∧ s.unit.stu.state ≠ .stuEnd

/-- The updater is busy, and whenever it judges a slot its registers hold what the packet says: the length
`L`, the sender and the slot's tag. -/
structure Works (c : StuSetting) (L : BitVec 9) (s : Bench) : Prop where
  busy : s.Busy
  reads : ∀ p, s.unit.stu.state = .fiJudge p → s.unit.stu.fiFrameLen = L
    ∧ s.unit.stu.senderSid = c.rcvPkt.senderSid
    ∧ s.unit.stu.fiPerSlot = c.rcvPkt.tag s.unit.stu.addr.toNat

/-- `STU_IDLE` with nothing left over: the write enable and the INB machine are at rest. -/
structure Quiet (s : Bench) : Prop where
  state : s.unit.stu.state = .idle
  we : s.unit.stu.we = false
  inbStart : s.unit.stu.inbStart = false
  inb : s.unit.inb.state = .idle
  inbEn : s.unit.inb.rcvpktEn = false

theorem quiet_reset (r : SlotRam) : Quiet ⟨{}, r⟩ := ⟨rfl, rfl, rfl, rfl, rfl⟩

variable {c : StuSetting} {s : Bench}

theorem tick_eq_next (start : Bool) (h : s.Busy) : s.tick c start = s.next c := by
  have hstu := Stu.tick_stuStart (s.unit.stuIn (c.env false) s.ram.doutA) s.unit.stu start h.1
  simp only [next, tick, StuUnit.tick]
  rw [← hstu]
  rfl

theorem next_stu (s : Bench) :
    (s.next c).unit.stu = s.unit.stu.tick (s.unit.stuIn (c.env false) s.ram.doutA) := rfl

/-! ### The memories over one edge -/

theorem next_cell_of_ne (b : BitVec 7) (h : b ≠ s.unit.stu.addr) :
    (s.next c).ram.cell b = s.ram.cell b := by
  apply tick_cell_of_quiet
  · intro hw
    exact h hw.2.symm
  · exact Port.not_writes_of_we rfl b

theorem next_cell (h : s.unit.stu.we = false) (b : BitVec 7) :
    (s.next c).ram.cell b = s.ram.cell b := by
  apply tick_cell_of_quiet
  · exact Port.not_writes_of_we h b
  · exact Port.not_writes_of_we rfl b

theorem next_doutA (h : s.unit.stu.we = false) :
    (s.next c).ram.doutA = s.ram.cell s.unit.stu.addr := by
  apply tick_doutA h
  exact Port.not_writes_of_we rfl _

/-- The INB machine rests: it does not take the packet memory and reports nothing. -/
structure InbRests (n : Inb) : Prop where
  state : n.state = .idle
  done : n.done = false
  en : n.rcvpktEn = false

theorem next_inb (hn : s.unit.inb.state = .idle) (hen : s.unit.inb.rcvpktEn = false)
    (hs : s.unit.stu.inbStart = false) : InbRests (s.next c).unit.inb := by
  have h : (s.next c).unit.inb = { s.unit.inb with done := false } := by
    simp only [next, tick, StuUnit.tick, Inb.tick, hn, hs, Bool.false_eq_true, if_false]
  rw [h]
  exact ⟨hn, rfl, hen⟩

theorem next_rcvpktDoutb (hen : s.unit.stu.rcvpktEn = true) (hinb : s.unit.inb.rcvpktEn = false) :
    (s.next c).unit.rcvpktDoutb = c.rcvPkt s.unit.stu.rcvpktAddrb := by
  simp only [next, tick, StuUnit.tick, StuUnit.rcvpktAddrb, hen, hinb, Bool.false_eq_true,
    if_true, if_false]
  rfl

/-! ### One slot -/

/-- The updater is at slot `a` and has not judged it: the memory is `mem`, and the output of port A shows
the slot's entry. -/
structure Slot (c : StuSetting) (mem : BitVec 7 → SlotEntry) (L : BitVec 9) (a : ℕ) (s : Bench) :
    Prop where
  we : s.unit.stu.we = false
  inbStart : s.unit.stu.inbStart = false
  inb : InbRests s.unit.inb
  en : s.unit.stu.rcvpktEn = true
  frameLen : s.unit.stu.fiFrameLen = L
  sender : s.unit.stu.senderSid = c.rcvPkt.senderSid
  addr : s.unit.stu.addr.toNat = a
  entry : s.ram.doutA = s.ram.cell s.unit.stu.addr
  table : s.ram.cell = mem

variable {mem : BitVec 7 → SlotEntry} {L : BitVec 9} {p : Pass} {a k : ℕ}

theorem addr_eq {u : Stu} (h : u.addr.toNat = a) : u.addr = BitVec.ofNat 7 a := by
  rw [← h, BitVec.ofNat_toNat, BitVec.setWidth_eq]

theorem Slot.doutA (h : Slot c mem L a s) : s.ram.doutA = mem (BitVec.ofNat 7 a) := by
  rw [h.entry, addr_eq h.addr, h.table]

theorem Slot.next (h : Slot c mem L a s) (hwe : (s.next c).unit.stu.we = false)
    (hinb : (s.next c).unit.stu.inbStart = false) (hen : (s.next c).unit.stu.rcvpktEn = true)
    (hlen : (s.next c).unit.stu.fiFrameLen = L)
    (hsender : (s.next c).unit.stu.senderSid = c.rcvPkt.senderSid)
    (haddr : (s.next c).unit.stu.addr = s.unit.stu.addr) : Slot c mem L a (s.next c) where
  we := hwe
  inbStart := hinb
  inb := next_inb h.inb.state h.inb.en h.inbStart
  en := hen
  frameLen := hlen
  sender := hsender
  addr := by rw [haddr]; exact h.addr
  entry := by rw [haddr, next_doutA h.we, next_cell h.we]
  table := (funext (next_cell h.we)).trans h.table

/-- The bit cursor stands at bit `k` of the tag of slot `a`.  The packet address is that of the bit
before: it moves on only when the first bit of a word is due. -/
structure Cursor (a k : ℕ) (u : Stu) : Prop where
  bits : u.fiPerSlotIndex.toNat = k
  index : u.index.toNat = 12 + fiPerSlotBitsnum * a + k
  word : u.rcvpktAddrb = rxTypeAddr + BitVec.ofNat 9 ((11 + fiPerSlotBitsnum * a + k) / 32)

/-- The updater reads the tag of slot `a` and has `k` bits of it. -/
structure Scan (c : StuSetting) (mem : BitVec 7 → SlotEntry) (L : BitVec 9) (p : Pass) (a k : ℕ)
    (s : Bench) : Prop extends Slot c mem L a s where
  state : s.unit.stu.state = .fiLoop p
  cursor : Cursor a k s.unit.stu
  dout : s.unit.rcvpktDoutb = c.rcvPkt s.unit.stu.rcvpktAddrb
  tag : ∀ j < k, s.unit.stu.fiPerSlot.getLsbD j = c.rcvPkt.bit (12 + fiPerSlotBitsnum * a + j)

/-! ### Reading a tag -/

theorem works_of_state {st : StuState} (h : s.unit.stu.state = st) (hidle : st ≠ .idle)
    (hend : st ≠ .stuEnd) (hjudge : ∀ p, st ≠ .fiJudge p) : Works c L s := by
  subst h
  exact ⟨⟨hidle, hend⟩, fun p hp => absurd hp (hjudge p)⟩

theorem Scan.works (h : Scan c mem L p a k s) : Works c L s :=
  works_of_state h.state nofun nofun fun _ => nofun

/-- What one shifted-in bit does to the cursor and to the tag, once the packet address is that of the
bit. -/
theorem shiftIn_spec {u : Stu} {w : BitVec 32} (hk : k < 14) (haL : a < 64)
    (hbits : u.fiPerSlotIndex.toNat = k) (hindex : u.index.toNat = 12 + fiPerSlotBitsnum * a + k)
    (hword : u.rcvpktAddrb = rxTypeAddr + BitVec.ofNat 9 ((12 + fiPerSlotBitsnum * a + k) / 32))
    (htag : ∀ j < k, u.fiPerSlot.getLsbD j = c.rcvPkt.bit (12 + fiPerSlotBitsnum * a + j))
    (hbit : w.getLsbD u.bitIndex.toNat = c.rcvPkt.bit (12 + fiPerSlotBitsnum * a + k)) :
    Cursor a (k + 1) (u.shiftIn w) ∧ ∀ j < k + 1,
      (u.shiftIn w).fiPerSlot.getLsbD j = c.rcvPkt.bit (12 + fiPerSlotBitsnum * a + j) := by
  simp only [fiPerSlotBitsnum] at *
  refine ⟨⟨?_, ?_, ?_⟩, ?_⟩
  · simp only [Stu.shiftIn, BitVec.toNat_add, hbits]
    simp only [BitVec.ofNat_eq_ofNat, BitVec.toNat_ofNat]
    omega
  · simp only [Stu.shiftIn, BitVec.toNat_add, hindex, fiPerSlotBitsnum]
    simp only [BitVec.ofNat_eq_ofNat, BitVec.toNat_ofNat]
    omega
  · rw [show 11 + fiPerSlotBitsnum * a + (k + 1) = 12 + 14 * a + k from by
      simp only [fiPerSlotBitsnum]; omega]
    exact hword
  · intro j hj
    simp only [Stu.shiftIn, hbits]
    rw [getLsbD_writeBit _ _ _ (by omega)]
    split
    · rename_i hjk
      rw [hbit, hjk]
    · exact htag j (by omega)

theorem Scan.bit (h : Scan c mem L p a k s) (ha : a ≠ L.toNat) (haL : a < 64) (hk : k < 14)
    (hb : (12 + fiPerSlotBitsnum * a + k) % 32 ≠ 0) : Scan c mem L p a (k + 1) (s.next c) := by
  have hstu : (s.next c).unit.stu = { s.unit.stu with
      we := false, bitIndex := BitVec.ofNat 7 (s.unit.stu.index.toNat % 32) }.shiftIn
        s.unit.rcvpktDoutb := by
    rw [next_stu, Stu.tick, h.state]
    apply Stu.fiLoop_bit
    · rw [h.addr, h.frameLen]
      exact ha
    · rw [h.cursor.bits]
      exact Nat.ne_of_lt hk
    · rw [h.cursor.index]
      exact hb
  -- the word of the bit read last is also the word of this bit
  have hword : (11 + fiPerSlotBitsnum * a + k) / 32 = (12 + fiPerSlotBitsnum * a + k) / 32 := by
    omega
  obtain ⟨hcursor, htag⟩ := shiftIn_spec (c := c) (w := s.unit.rcvpktDoutb)
    (u := { s.unit.stu with
      we := false, bitIndex := BitVec.ofNat 7 (s.unit.stu.index.toNat % 32) })
    hk haL h.cursor.bits h.cursor.index (hword ▸ h.cursor.word) h.tag (by
      rw [h.dout, h.cursor.word, hword, h.cursor.index, RcvPkt.bit]
      congr 1
      simp only [BitVec.toNat_ofNat]
      omega)
  refine ⟨?_, ?_, ?_, ?_, ?_⟩
  · apply h.toSlot.next <;> rw [hstu]
    · rfl
    · exact h.inbStart
    · exact h.en
    · exact h.frameLen
    · exact h.sender
    · rfl
  · rw [hstu]
    exact h.state
  · rw [hstu]
    exact hcursor
  · rw [next_rcvpktDoutb h.en h.inb.en, hstu]
    rfl
  · rw [hstu]
    exact htag

/-- The first bit of a word takes three cycles: the address moves on and the memory is waited for. -/
theorem Scan.until_bit_word (h : Scan c mem L p a k s) (ha : a ≠ L.toNat) (haL : a < 64) (hk : k < 14)
    (hb : (12 + fiPerSlotBitsnum * a + k) % 32 = 0) :
    Until (Bench.next c) (Works c L) (Scan c mem L p a (k + 1)) s := by
  have hstu : (s.next c).unit.stu = { s.unit.stu with
      we := false, bitIndex := 0, rcvpktAddrb := s.unit.stu.rcvpktAddrb + 1
      state := .fiLoopSetaddrPre p } := by
    rw [next_stu, Stu.tick, h.state]
    apply Stu.fiLoop_word
    · rw [h.addr, h.frameLen]
      exact ha
    · rw [h.cursor.bits]
      exact Nat.ne_of_lt hk
    · rw [h.cursor.index]
      exact hb
  have hslot : Slot c mem L a (s.next c) := by
    apply h.toSlot.next <;> rw [hstu]
    · exact h.inbStart
    · exact h.en
    · exact h.frameLen
    · exact h.sender
  refine Until.step h.works ?_
  generalize s.next c = s₁ at hstu hslot
  have hstu₁ : (s₁.next c).unit.stu = { s₁.unit.stu with state := .fiLoopSetaddr p } := by
    rw [next_stu, Stu.tick, hstu]
  have hslot₁ : Slot c mem L a (s₁.next c) := by
    apply hslot.next <;> rw [hstu₁]
    · exact hslot.we
    · exact hslot.inbStart
    · exact hslot.en
    · exact hslot.frameLen
    · exact hslot.sender
  have hdout₁ := next_rcvpktDoutb (c := c) hslot.en hslot.inb.en
  refine Until.step (works_of_state (congrArg Stu.state hstu) StuState.noConfusion
    StuState.noConfusion fun _ => StuState.noConfusion) ?_
  generalize s₁.next c = s₂ at hstu₁ hslot₁ hdout₁
  have hstu₂ : (s₂.next c).unit.stu = { s₂.unit.stu.shiftIn s₂.unit.rcvpktDoutb with
      state := .fiLoop p } := by
    rw [next_stu, Stu.tick, hstu₁]
    rfl
  have hword : (12 + fiPerSlotBitsnum * a + k) / 32 = (11 + fiPerSlotBitsnum * a + k) / 32 + 1 := by
    omega
  have haddrb : s₁.unit.stu.rcvpktAddrb
      = rxTypeAddr + BitVec.ofNat 9 ((12 + fiPerSlotBitsnum * a + k) / 32) := by
    rw [hstu, hword, BitVec.ofNat_add, ← BitVec.add_assoc, ← h.cursor.word]
    rfl
  obtain ⟨hcursor, htag⟩ := shiftIn_spec (c := c) (w := s₂.unit.rcvpktDoutb)
    (u := s₂.unit.stu) (k := k) (a := a) hk haL
    (by rw [hstu₁, hstu]; exact h.cursor.bits) (by rw [hstu₁, hstu]; exact h.cursor.index)
    (by rw [hstu₁]; exact haddrb) (by rw [hstu₁, hstu]; exact h.tag) (by
      rw [hdout₁, haddrb, hstu₁, hstu, RcvPkt.bit, hb]
      rfl)
  refine Until.one (works_of_state (congrArg Stu.state hstu₁) StuState.noConfusion
    StuState.noConfusion fun _ => StuState.noConfusion) ?_
  refine ⟨?_, ?_, ?_, ?_, ?_⟩
  · apply hslot₁.next <;> rw [hstu₂]
    · exact hslot₁.we
    · exact hslot₁.inbStart
    · exact hslot₁.en
    · exact hslot₁.frameLen
    · exact hslot₁.sender
    · rfl
  · rw [hstu₂]
  · rw [hstu₂]
    exact ⟨hcursor.bits, hcursor.index, hcursor.word⟩
  · rw [next_rcvpktDoutb hslot₁.en hslot₁.inb.en, hstu₂]
    rfl
  · rw [hstu₂]
    exact htag

/-- **Reading a tag**: the rest of the fourteen bits is shifted in. -/
theorem Scan.until_full (h : Scan c mem L p a k s) (ha : a ≠ L.toNat) (haL : a < 64) (hk : k ≤ 14) :
    Until (Bench.next c) (Works c L) (Scan c mem L p a 14) s := by
  induction hm : 14 - k generalizing k s with
  | zero =>
    have : k = 14 := by omega
    exact Until.here (this ▸ h)
  | succ m ih =>
    by_cases hb : (12 + fiPerSlotBitsnum * a + k) % 32 = 0
    · refine (h.until_bit_word ha haL (by omega) hb).trans ?_
      intro t ht
      exact ih ht (by omega) (by omega)
    · exact Until.step h.works (ih (h.bit ha haL (by omega) hb) (by omega) (by omega))

theorem Scan.fiPerSlot_eq (h : Scan c mem L p a 14 s) : s.unit.stu.fiPerSlot = c.rcvPkt.tag a := by
  apply BitVec.eq_of_getLsbD_eq
  intro j hj
  rw [h.tag j hj, RcvPkt.getLsbD_tag _ _ hj]

/-! ### Leaving a slot -/

/-- Slot `a` has been judged: the cursor stands before the next tag.  The write of this slot may still be
under way; with it the memory is `mem`. -/
structure Past (c : StuSetting) (mem : BitVec 7 → SlotEntry) (L : BitVec 9) (a : ℕ) (s : Bench) :
    Prop where
  inbStart : s.unit.stu.inbStart = false
  inb : s.unit.inb.state = .idle
  inbEn : s.unit.inb.rcvpktEn = false
  en : s.unit.stu.rcvpktEn = true
  frameLen : s.unit.stu.fiFrameLen = L
  sender : s.unit.stu.senderSid = c.rcvPkt.senderSid
  addr : s.unit.stu.addr.toNat = a
  cursor : Cursor (a + 1) 0 s.unit.stu
  table : (s.next c).ram.cell = mem

theorem Slot.past (h : Slot c mem L a s) (hcursor : Cursor (a + 1) 0 s.unit.stu) :
    Past c mem L a s where
  inbStart := h.inbStart
  inb := h.inb.state
  inbEn := h.inb.en
  en := h.en
  frameLen := h.frameLen
  sender := h.sender
  addr := h.addr
  cursor := hcursor
  table := (funext (next_cell h.we)).trans h.table

theorem next_cell_judged {o : Option SlotEntry} {u : Stu} (hwe : u.we = false)
    (haddr : u.addr.toNat = a) (hstu : s.unit.stu = u.judged p o) :
    (s.next c).ram.cell
      = Function.update s.ram.cell (BitVec.ofNat 7 a) (o.getD (s.ram.cell (BitVec.ofNat 7 a))) := by
  cases o with
  | none =>
    rw [Option.getD_none, Function.update_eq_self]
    refine funext (next_cell ?_)
    rw [hstu]
    exact hwe
  | some e =>
    have haddr' : s.unit.stu.addr = BitVec.ofNat 7 a := by
      rw [hstu]
      exact addr_eq haddr
    funext b
    by_cases hb : b = BitVec.ofNat 7 a
    · subst hb
      rw [Function.update_self]
      refine (tick_cell_write_a ⟨?_, haddr'⟩ (Port.not_writes_of_we rfl _)).trans ?_
      · rw [StuUnit.portA, hstu]
        rfl
      · rw [StuUnit.portA, hstu]
        rfl
    · rw [Function.update_of_ne hb, next_cell_of_ne]
      rwa [haddr']

theorem Past.judged (h : Past c mem L a s) (hwe : s.unit.stu.we = false) {o : Option SlotEntry} {u : Stu}
    (hu : u = { s.unit.stu with inbStart := false })
    (hstu : (s.next c).unit.stu = u.judged p o) :
    Past c (Function.update mem (BitVec.ofNat 7 a) (o.getD (mem (BitVec.ofNat 7 a)))) L a (s.next c) := by
  have hinb := next_inb (c := c) h.inb h.inbEn h.inbStart
  have hcell := next_cell_judged (c := c) (a := a) (by rw [hu]; exact hwe) (by rw [hu]; exact h.addr) hstu
  rw [h.table] at hcell
  subst hu
  refine ⟨?_, hinb.state, hinb.en, ?_, ?_, ?_, ?_, ?_, hcell⟩
  all_goals rw [hstu]; cases o
  · rfl
  · rfl
  · exact h.en
  · exact h.en
  · exact h.frameLen
  · exact h.frameLen
  · exact h.sender
  · exact h.sender
  · exact h.addr
  · exact h.addr
  · exact ⟨h.cursor.bits, h.cursor.index, h.cursor.word⟩
  · exact ⟨h.cursor.bits, h.cursor.index, h.cursor.word⟩

/-- **Coming to a tag**: the `_PRE` state of a pass, with the cursor before the tag of slot `a`. -/
theorem until_scan_of_pre (hst : s.unit.stu.state = .fiLoopPre p) (hwe : s.unit.stu.we = false)
    (hinbStart : s.unit.stu.inbStart = false) (hinb : InbRests s.unit.inb)
    (hen : s.unit.stu.rcvpktEn = true) (hlen : s.unit.stu.fiFrameLen = L)
    (hsender : s.unit.stu.senderSid = c.rcvPkt.senderSid) (haddr : s.unit.stu.addr.toNat = a)
    (hcursor : Cursor a 0 s.unit.stu) (htable : s.ram.cell = mem) :
    Until (Bench.next c) (Works c L) (Scan c mem L p a 0) s := by
  have hstu : (s.next c).unit.stu = { s.unit.stu with state := .fiLoop p } := by
    rw [next_stu, Stu.tick, hst]
  refine Until.one (works_of_state hst StuState.noConfusion StuState.noConfusion
    fun _ => StuState.noConfusion) ?_
  refine ⟨⟨?_, ?_, next_inb hinb.state hinb.en hinbStart, ?_, ?_, ?_, ?_, ?_, ?_⟩, ?_, ?_, ?_, ?_⟩
  · rw [hstu]
    exact hwe
  · rw [hstu]
    exact hinbStart
  · rw [hstu]
    exact hen
  · rw [hstu]
    exact hlen
  · rw [hstu]
    exact hsender
  · rw [hstu]
    exact haddr
  · rw [next_doutA hwe, next_cell hwe, hstu]
  · exact (funext (next_cell hwe)).trans htable
  · rw [hstu]
  · rw [hstu]
    exact ⟨hcursor.bits, hcursor.index, hcursor.word⟩
  · rw [next_rcvpktDoutb hen hinb.en, hstu]
  · intro j hj
    exact absurd hj (Nat.not_lt_zero j)

/-- **Leaving a slot**: from `nextSlot` the updater comes to the tag of the next slot. -/
theorem Past.until_scan (h : Past c mem L a s) (ha : a < 127) (hworks : Works c L s)
    (hstu : (s.next c).unit.stu = s.unit.stu.nextSlot p) :
    Until (Bench.next c) (Works c L) (Scan c mem L p (a + 1) 0) s := by
  have hinb := next_inb (c := c) h.inb h.inbEn h.inbStart
  refine Until.step hworks (until_scan_of_pre ?_ ?_ ?_ hinb ?_ ?_ ?_ ?_ ?_ h.table)
  all_goals rw [hstu]
  · rfl
  · rfl
  · exact h.inbStart
  · exact h.en
  · exact h.frameLen
  · exact h.sender
  · simp only [Stu.nextSlot, BitVec.toNat_add, h.addr, BitVec.ofNat_eq_ofNat, BitVec.toNat_ofNat]
    omega
  · exact ⟨h.cursor.bits, h.cursor.index, h.cursor.word⟩

theorem Past.until_scan_of_clr (h : Past c mem L a s) (ha : a < 127)
    (hst : s.unit.stu.state = .fiClr p) :
    Until (Bench.next c) (Works c L) (Scan c mem L p (a + 1) 0) s := by
  refine h.until_scan ha (works_of_state hst nofun nofun
    fun _ => nofun) ?_
  rw [next_stu, Stu.tick, hst]

theorem Past.until_scan_of_judged (h : Past c mem L a s) (hwe : s.unit.stu.we = false) (ha : a < 127)
    (hworks : Works c L s) {o : Option SlotEntry} {u : Stu} (hu : u = { s.unit.stu with inbStart := false })
    (hstu : (s.next c).unit.stu = u.judged p o) :
    Until (Bench.next c) (Works c L) (Scan c (Function.update mem (BitVec.ofNat 7 a)
      (o.getD (mem (BitVec.ofNat 7 a)))) L p (a + 1) 0) s := by
  refine Until.step hworks ((h.judged hwe hu hstu).until_scan_of_clr ha ?_)
  rw [hstu]
  cases o <;> rfl

/-! ### Judging a slot -/

/-- What pass `p` makes of the entry `e` of a slot with tag `t`, where it does not ask the INB machine. -/
def judge (p : Pass) (g sender : BitVec 8) (t : FiTag) (e : SlotEntry) : SlotEntry :=
  if e.locker then e
  else match p with
    | .first =>
      if e.occupierSid ≠ g then e
      else if t.occupierSid ≠ g ∧ t.occupierSid ≠ 0 then (fiLoop2Other sender t e e).getD e
      else if t.occupierSid = g then (fiLoop2Own t e).getD e
      else e
    | .second =>
      if e.occupierSid = g ∨ t.occupierSid = g then e else (fiLoop4Din sender t e e).getD e

/-- The memory after slot `a` of pass `p`. -/
def judgeAt (c : StuSetting) (p : Pass) (a : ℕ) (mem : BitVec 7 → SlotEntry) : BitVec 7 → SlotEntry :=
  Function.update mem (BitVec.ofNat 7 a)
    (judge p c.globalSid c.rcvPkt.senderSid (c.rcvPkt.tag a) (mem (BitVec.ofNat 7 a)))

theorem judgeAt_of_eq (h : judge p c.globalSid c.rcvPkt.senderSid (c.rcvPkt.tag a)
    (mem (BitVec.ofNat 7 a)) = mem (BitVec.ofNat 7 a)) : judgeAt c p a mem = mem := by
  rw [judgeAt, h, Function.update_eq_self]

/-- The tag of slot `a` is complete, its entry is latched, and the slot is about to be judged. -/
structure Judging (c : StuSetting) (mem : BitVec 7 → SlotEntry) (L : BitVec 9) (p : Pass) (a : ℕ)
    (s : Bench) : Prop extends Slot c mem L a s where
  state : s.unit.stu.state = .fiJudge p
  cursor : Cursor (a + 1) 0 s.unit.stu
  tag : s.unit.stu.fiPerSlot = c.rcvPkt.tag a
  latched : s.unit.stu.din = mem (BitVec.ofNat 7 a)
  unlocked : (mem (BitVec.ofNat 7 a)).locker = false

theorem Judging.works (h : Judging c mem L p a s) : Works c L s where
  busy := by
    constructor <;> rw [h.state] <;> exact nofun
  reads _ _ := ⟨h.frameLen, h.sender, by rw [h.tag, h.addr]⟩

theorem Scan.until_judging (h : Scan c mem L p a 14 s) (haL : a ≠ L.toNat) (ha : a < 64) :
    ((mem (BitVec.ofNat 7 a)).locker = true
        ∧ Until (Bench.next c) (Works c L) (Scan c mem L p (a + 1) 0) s)
      ∨ Judging c mem L p a (s.next c) := by
  have hstu : (s.next c).unit.stu = { s.unit.stu with
      we := false, fiPerSlotIndex := 0, din := s.ram.doutA
      state := if s.ram.doutA.locker then .fiClr p else .fiJudge p } := by
    rw [next_stu, Stu.tick, h.state]
    apply Stu.fiLoop_full
    · rw [h.addr, h.frameLen]
      exact haL
    · exact h.cursor.bits
  have hslot : Slot c mem L a (s.next c) := by
    apply h.toSlot.next <;> rw [hstu]
    · exact h.inbStart
    · exact h.en
    · exact h.frameLen
    · exact h.sender
  have hcursor : Cursor (a + 1) 0 (s.next c).unit.stu := by
    rw [hstu]
    refine ⟨rfl, ?_, ?_⟩
    · show s.unit.stu.index.toNat = _
      rw [h.cursor.index, fiPerSlotBitsnum]
      omega
    · show s.unit.stu.rcvpktAddrb = _
      rw [h.cursor.word, show 11 + fiPerSlotBitsnum * a + 14 = 11 + fiPerSlotBitsnum * (a + 1) + 0 from by
        simp only [fiPerSlotBitsnum]; omega]
  rw [h.doutA] at hstu
  cases hlock : (mem (BitVec.ofNat 7 a)).locker with
  | true =>
    refine Or.inl ⟨rfl, Until.step h.works ((hslot.past hcursor).until_scan_of_clr (by omega) ?_)⟩
    rw [hstu]
    exact if_pos hlock
  | false =>
    refine Or.inr ⟨hslot, ?_, hcursor, ?_, ?_, hlock⟩
    · rw [hstu]
      simp only [hlock, Bool.false_eq_true, if_false]
    · rw [hstu]
      exact h.fiPerSlot_eq
    · rw [hstu]

theorem Judging.until_scan_second (h : Judging c mem L .second a s) (ha : a < 127) :
    Until (Bench.next c) (Works c L) (Scan c (judgeAt c .second a mem) L .second (a + 1) 0) s := by
  have hpast := h.toSlot.past h.cursor
  have hstu : (s.next c).unit.stu
      = s.unit.stu.fiLoop4 (s.unit.stuIn (c.env false) s.ram.doutA) := by
    rw [next_stu, Stu.tick, h.state]
    rfl
  simp only [Stu.fiLoop4, StuUnit.stuIn, StuSetting.env, h.doutA, h.tag, h.sender, h.latched] at hstu
  by_cases hskip : (mem (BitVec.ofNat 7 a)).occupierSid = c.globalSid
      ∨ (c.rcvPkt.tag a).occupierSid = c.globalSid
  · rw [if_pos hskip] at hstu
    rw [judgeAt_of_eq]
    · exact hpast.until_scan ha h.works hstu
    · simp only [judge, h.unlocked, Bool.false_eq_true, if_false, if_pos hskip]
  · rw [if_neg hskip] at hstu
    have hnext := hpast.until_scan_of_judged h.we ha h.works (by rw [← h.inbStart]) hstu
    simp only [judgeAt, judge, h.unlocked, Bool.false_eq_true, if_false, if_neg hskip]
    exact hnext

/-- **One slot of the second pass.** -/
theorem Scan.until_succ_second (h : Scan c mem L .second a 0 s) (haL : a ≠ L.toNat) (ha : a < 64) :
    Until (Bench.next c) (Works c L) (Scan c (judgeAt c .second a mem) L .second (a + 1) 0) s := by
  refine (h.until_full haL ha (Nat.zero_le 14)).trans ?_
  intro t ht
  rcases ht.until_judging haL ha with ⟨hlock, hnext⟩ | hjudge
  · rw [judgeAt_of_eq]
    · exact hnext
    · simp only [judge, hlock, if_true]
  · exact Until.step ht.works (hjudge.until_scan_second (by omega))

end Bench

end VanetTdma.Fpga
