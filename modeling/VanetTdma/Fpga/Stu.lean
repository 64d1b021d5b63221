import VanetTdma.Fpga.SlotEntry

/-!
# The slot-table updater (`desc_processor.v`, STU and INB)

The STU machine reads a received frame information twice.  The first pass (`STU_FI_LOOP_1`,
`STU_FI_LOOP_2`) looks at the slots this node holds, the second (`STU_FI_LOOP_3`, `STU_FI_LOOP_4`) at
the others.  Both passes shift the fourteen bits of a tag out of the packet memory in the same way, so
their states carry the pass as an argument.  A tag `(0, 00)` on an own slot is handed to the INB machine.

`StuUnit` puts both machines and the output register of the packet memory together; `StuUnit.tick` is one
clock edge, given what port A of the slot-status memory shows.
-/

namespace VanetTdma.Fpga

/-! ### INB: is the sender a new neighbour? -/

inductive InbState where
  | idle
  | pre
  | loop
  | loopSetaddr
  | loopSetaddrWait
  | inbEnd
deriving DecidableEq

/-- The registers of the INB machine. -/
structure Inb where
  state : InbState := .idle
  done : Bool := false
  notNewneighborFlag : Bool := false
  rcvpktEn : Bool := false
  rcvpktAddrb : BitVec 9 := 0
deriving DecidableEq

/-- One edge of the INB machine.  `dout` is the output of port A, whose address the STU drives. -/
def Inb.tick (inbStart : Bool) (inbInputSti : BitVec 8) (currFrameLen : BitVec 10) (dout : SlotEntry)
    (n : Inb) : Inb :=
  match n.state with
  | .idle =>
    if inbStart then
      { n with
        done := false, notNewneighborFlag := false, rcvpktEn := true, rcvpktAddrb := 0, state := .pre }
    else { n with done := false }
  | .pre => { n with state := .loop }
  | .loop =>
    if n.rcvpktAddrb.toNat = currFrameLen.toNat then { n with state := .inbEnd }
    else if dout.occupierSid = inbInputSti then
      { n with notNewneighborFlag := true, state := .inbEnd }
    else { n with state := .loopSetaddr }
  | .loopSetaddr => { n with rcvpktAddrb := n.rcvpktAddrb + 1, state := .loopSetaddrWait }
  | .loopSetaddrWait => { n with state := .loop }
  | .inbEnd => { n with rcvpktEn := false, done := true, state := .idle }

/-! ### STU -/

/-- The two passes over the tags. -/
inductive Pass where
  | first
  | second
deriving DecidableEq

/-- `stu_state`.  `fiLoop .first` is `STU_FI_LOOP_1` and `fiLoop .second` is `STU_FI_LOOP_3`, with their
`_PRE`, `_SETADDR_PRE` and `_SETADDR` states; `fiJudge` is `STU_FI_LOOP_2` and `STU_FI_LOOP_4`, `fiClr`
their `_CLR` states. -/
inductive StuState where
  | idle
  | dispatchWait
  | dispatch
  | fiLoopPre (p : Pass)
  | fiLoop (p : Pass)
  | fiLoopSetaddrPre (p : Pass)
  | fiLoopSetaddr (p : Pass)
  | fiJudge (p : Pass)
  | fiClr (p : Pass)
  | fiInbWait
  | loopBchEnd
  | stuEnd
deriving DecidableEq

/-- The registers of the STU machine. -/
structure Stu where
  state : StuState := .idle
  done : Bool := false
  we : Bool := false
  addr : BitVec 7 := 0
  din : SlotEntry := {}
  rcvpktEn : Bool := false
  rcvpktAddrb : BitVec 9 := 0
  bitIndex : BitVec 7 := 0
  index : BitVec 11 := 0
  fiPerSlot : FiTag := 0
  fiPerSlotIndex : BitVec 5 := 0
  senderSid : BitVec 8 := 0
  fiFrameLen : BitVec 9 := 0
  inbStart : Bool := false
  inbInputSti : BitVec 8 := 0
  frameLenExpDp : Bool := false
deriving DecidableEq

/-- `count + tag.count`, at the width of `count_3hop`. -/
def addCount (c : BitVec 9) (t : FiTag) : BitVec 9 := c + t.count.setWidth 9

/-- The word both passes make from a tag that reports a collision. -/
def collided (t : FiTag) (din : SlotEntry) : SlotEntry :=
  { din with
    occupierSid := t.occupierSid, psf := t.psf, count2hop := 1, count3hop := 1,
    life := occupierLifeFrame, busy := 1 }

/-- `STU_FI_LOOP_2` for an own slot that the sender gives to another node: the word to write back, made
from the latched word `din` and the present output `dout`. -/
def fiLoop2Other (sender : BitVec 8) (t : FiTag) (dout din : SlotEntry) : Option SlotEntry :=
  if t.busy = 2 then
    if t.psf > dout.psf then
      let e := { din with
        occupierSid := t.occupierSid, count2hop := dout.count2hop + 1,
        count3hop := addCount dout.count3hop t, life := occupierLifeFrame }
      if t.occupierSid = sender then some { e with busy := 2, psf := t.psf }
      else some { e with busy := 1, c3hopN := true }
    else if t.psf = dout.psf then some { din with busy := 3 }
    else none
  else if t.busy = 1 then some { din with count3hop := addCount dout.count3hop t }
  else if t.busy = 0 then some { din with busy := 3 }
  else some (collided t din)

/-- `STU_FI_LOOP_2` for an own slot that the sender gives to this node. -/
def fiLoop2Own (t : FiTag) (din : SlotEntry) : Option SlotEntry :=
  if t.busy = 0 then some { din with busy := 3 } else none

/-- The word a sender's `(0, ..)` tag leaves for its own slot in `STU_FI_LOOP_4`. -/
def released (din : SlotEntry) : SlotEntry :=
  { din with
    occupierSid := 0, psf := 0, count2hop := 0, count3hop := 0, life := 0, busy := 0, locker := true }

/-- Both counters, as `STU_FI_LOOP_4` adds a tag to them. -/
def counted (t : FiTag) (dout din : SlotEntry) : SlotEntry :=
  { din with count2hop := dout.count2hop + 1, count3hop := addCount dout.count3hop t }

/-- `STU_FI_LOOP_4` for a slot held by a direct neighbour. -/
def fiLoop4OneHop (sender : BitVec 8) (t : FiTag) (dout din : SlotEntry) : Option SlotEntry :=
  if dout.occupierSid ≠ t.occupierSid ∧ t.occupierSid ≠ 0 then
    if t.busy = 2 then
      if t.occupierSid = sender then
        if t.psf > dout.psf then
          some { counted t dout din with
            occupierSid := t.occupierSid, life := occupierLifeFrame, busy := 2, psf := t.psf }
        else if t.psf = dout.psf then some { din with life := occupierLifeFrame, busy := 3 }
        else some din
      else some (counted t dout din)
    else if t.busy = 1 then some { din with count3hop := addCount dout.count3hop t }
    else if t.busy = 0 then none
    else some (collided t din)
  else if dout.occupierSid = t.occupierSid then
    if t.busy = 2 then
      if t.occupierSid = sender then
        if dout.c3hopN = false then
          some { counted t dout din with life := occupierLifeFrame, c3hopN := true }
        else some { din with life := occupierLifeFrame }
      else some { din with existed := true }
    else none
  else if sender = dout.occupierSid then some (released din)
  else none

/-- `STU_FI_LOOP_4` for a slot held by a two-hop neighbour. -/
def fiLoop4TwoHop (sender : BitVec 8) (t : FiTag) (dout din : SlotEntry) : Option SlotEntry :=
  if dout.occupierSid ≠ t.occupierSid ∧ t.occupierSid ≠ 0 then
    if t.busy = 2 then some (counted t dout din)
    else if t.busy = 3 then some (collided t din)
    else none
  else if dout.occupierSid = t.occupierSid then
    if t.busy = 2 then
      let e := { din with life := occupierLifeFrame }
      let e := if dout.c3hopN = false then { counted t dout e with c3hopN := true } else e
      some (if t.occupierSid = sender then { e with busy := 2 } else e)
    else none
  else if sender = dout.occupierSid then some (released din)
  else none

/-- `STU_FI_LOOP_4` for a free slot. -/
def fiLoop4Free (sender : BitVec 8) (t : FiTag) (dout din : SlotEntry) : Option SlotEntry :=
  if t.occupierSid ≠ 0 then
    if t.busy = 2 then
      some { din with
        life := occupierLifeFrame, occupierSid := t.occupierSid, c3hopN := true, count2hop := 1,
        psf := t.psf, count3hop := t.count.setWidth 9,
        busy := if t.occupierSid = sender then 2 else 1 }
    else if t.busy = 1 then some { din with count3hop := addCount dout.count3hop t }
    else if t.busy = 0 then none
    else some (collided t din)
  else none

/-- `STU_FI_LOOP_4`, by the old status of the slot. -/
def fiLoop4Din (sender : BitVec 8) (t : FiTag) (dout din : SlotEntry) : Option SlotEntry :=
  if dout.busy = 2 then fiLoop4OneHop sender t dout din
  else if dout.busy = 1 then fiLoop4TwoHop sender t dout din
  else if dout.busy = 0 then fiLoop4Free sender t dout din
  else none

/-- The signals the STU reads. -/
structure StuIn where
  stuStart : Bool
  globalSid : BitVec 8
  currFrameLen : BitVec 10
  dout : SlotEntry
  rcvpktDoutb : BitVec 32
  inbDone : Bool
  inbNotNewneighborFlag : Bool

namespace Stu

/-- The step to the next slot, also what the `_CLR` states do. -/
def nextSlot (p : Pass) (u : Stu) : Stu :=
  { u with we := false, addr := u.addr + 1, fiPerSlot := 0, state := .fiLoopPre p }

/-- A judgement: the write it asks for, if any, is made in the `_CLR` state. -/
def judged (p : Pass) (o : Option SlotEntry) (u : Stu) : Stu :=
  match o with
  | some e => { u with we := true, din := e, state := .fiClr p }
  | none => { u with state := .fiClr p }

def shiftIn (doutb : BitVec 32) (u : Stu) : Stu :=
  { u with
    fiPerSlot := writeBit u.fiPerSlot u.fiPerSlotIndex.toNat (doutb.getLsbD u.bitIndex.toNat)
    fiPerSlotIndex := u.fiPerSlotIndex + 1
    index := u.index + 1 }

/-- The end of a pass. -/
def endPass (currFrameLen : BitVec 10) (u : Stu) : Pass → Stu
  | .first => { u with state := .loopBchEnd }
  | .second =>
    { u with
      frameLenExpDp := if u.fiFrameLen.toNat > currFrameLen.toNat then true else u.frameLenExpDp
      state := .stuEnd }

/-- `STU_FI_LOOP_1` and `STU_FI_LOOP_3`. -/
def fiLoop (p : Pass) (i : StuIn) (v : Stu) : Stu :=
  let u := { v with we := false }
  if u.addr.toNat = u.fiFrameLen.toNat then u.endPass i.currFrameLen p
  else if u.fiPerSlotIndex.toNat = fiPerSlotBitsnum then
    -- a locked slot is passed over
    { u with
      fiPerSlotIndex := 0, din := i.dout
      state := if i.dout.locker then .fiClr p else .fiJudge p }
  else
    let u := { u with bitIndex := BitVec.ofNat 7 (u.index.toNat % 32) }
    if u.bitIndex = 0 then
      { u with rcvpktAddrb := u.rcvpktAddrb + 1, state := .fiLoopSetaddrPre p }
    else u.shiftIn i.rcvpktDoutb

/-- `STU_FI_LOOP_2`.  The last branch is the source's error branch: it assigns no next state. -/
def fiLoop2 (i : StuIn) (u : Stu) : Stu :=
  if i.dout.occupierSid ≠ i.globalSid then u.nextSlot .first
  else if u.fiPerSlot.occupierSid ≠ i.globalSid ∧ u.fiPerSlot.occupierSid ≠ 0 then
    u.judged .first (fiLoop2Other u.senderSid u.fiPerSlot i.dout u.din)
  else if u.fiPerSlot.occupierSid = i.globalSid then
    u.judged .first (fiLoop2Own u.fiPerSlot u.din)
  else if u.fiPerSlot.busy = 0 then
    { u with state := .fiInbWait, inbInputSti := u.fiPerSlot.occupierSid, inbStart := true }
  else u

/-- `STU_FI_INB_WAIT`. -/
def fiInbWait (i : StuIn) (u : Stu) : Stu :=
  let u := { u with inbStart := false }
  if i.inbDone then
    u.judged .first (if i.inbNotNewneighborFlag then some { u.din with busy := 3 } else none)
  else u

/-- `STU_FI_LOOP_4`. -/
def fiLoop4 (i : StuIn) (u : Stu) : Stu :=
  if i.dout.occupierSid = i.globalSid ∨ u.fiPerSlot.occupierSid = i.globalSid then u.nextSlot .second
  else u.judged .second (fiLoop4Din u.senderSid u.fiPerSlot i.dout u.din)

def fiJudge : Pass → StuIn → Stu → Stu
  | .first => fiLoop2
  | .second => fiLoop4

def tick (i : StuIn) (u : Stu) : Stu :=
  match u.state with
  | .idle =>
    if i.stuStart then
      { u with
        done := false, rcvpktEn := true, rcvpktAddrb := rxTypeAddr, addr := 0
        state := .dispatchWait }
    else { u with done := false }
  | .dispatchWait => { u with state := .dispatch }
  | .dispatch =>
    { u with
      index := 12, fiPerSlotIndex := 0
      fiFrameLen := (1 : BitVec 9) <<< (i.rcvpktDoutb.extractLsb' 0 4)
      senderSid := i.rcvpktDoutb.extractLsb' 4 8
      state := .fiLoop .first }
  | .fiLoopPre p => { u with state := .fiLoop p }
  | .fiLoop p => u.fiLoop p i
  | .fiLoopSetaddrPre p => { u with state := .fiLoopSetaddr p }
  | .fiLoopSetaddr p => { u.shiftIn i.rcvpktDoutb with state := .fiLoop p }
  | .fiJudge p => u.fiJudge p i
  | .fiClr p => u.nextSlot p
  | .fiInbWait => u.fiInbWait i
  | .loopBchEnd =>
    { u with
      index := 12, addr := 0, fiPerSlotIndex := 0, rcvpktAddrb := rxTypeAddr
      state := .fiLoopPre .second }
  | .stuEnd => { u with frameLenExpDp := false, rcvpktEn := false, done := true, state := .idle }

section Scanning

variable {p : Pass} {i : StuIn} {u : Stu}

theorem fiLoop_endPass (ha : u.addr.toNat = u.fiFrameLen.toNat) :
    u.fiLoop p i = { u with we := false }.endPass i.currFrameLen p := by
  simp only [fiLoop, if_pos ha]

theorem fiLoop_full (ha : u.addr.toNat ≠ u.fiFrameLen.toNat)
    (hk : u.fiPerSlotIndex.toNat = fiPerSlotBitsnum) :
    u.fiLoop p i = { u with
      we := false, fiPerSlotIndex := 0, din := i.dout
      state := if i.dout.locker then .fiClr p else .fiJudge p } := by
  simp only [fiLoop, if_neg ha, if_pos hk]

theorem fiLoop_bit (ha : u.addr.toNat ≠ u.fiFrameLen.toNat)
    (hk : u.fiPerSlotIndex.toNat ≠ fiPerSlotBitsnum) (hb : u.index.toNat % 32 ≠ 0) :
    u.fiLoop p i = { u with
      we := false, bitIndex := BitVec.ofNat 7 (u.index.toNat % 32) }.shiftIn i.rcvpktDoutb := by
  have hne : BitVec.ofNat 7 (u.index.toNat % 32) ≠ 0 := by
    intro h
    have := congrArg BitVec.toNat h
    simp only [BitVec.toNat_ofNat, BitVec.ofNat_eq_ofNat] at this
    omega
  simp only [fiLoop, if_neg ha, if_neg hk, if_neg hne]

theorem fiLoop_word (ha : u.addr.toNat ≠ u.fiFrameLen.toNat)
    (hk : u.fiPerSlotIndex.toNat ≠ fiPerSlotBitsnum) (hb : u.index.toNat % 32 = 0) :
    u.fiLoop p i = { u with
      we := false, bitIndex := 0, rcvpktAddrb := u.rcvpktAddrb + 1
      state := .fiLoopSetaddrPre p } := by
  simp only [fiLoop, if_neg ha, if_neg hk, hb]
  rfl

end Scanning

/-! ### What a cycle leaves alone -/

/-- The registers that a judgement leaves alone. -/
structure Keeps (u v : Stu) : Prop where
  fiFrameLen : v.fiFrameLen = u.fiFrameLen
  frameLenExpDp : v.frameLenExpDp = u.frameLenExpDp

section Frame

variable (p : Pass) (i : StuIn) (u : Stu)

theorem judged_keeps (o : Option SlotEntry) : Keeps u (u.judged p o) := by
  cases o <;> exact ⟨rfl, rfl⟩

theorem fiJudge_keeps : Keeps u (u.fiJudge p i) := by
  cases p with
  | first =>
    simp only [fiJudge, fiLoop2]
    split
    · exact ⟨rfl, rfl⟩
    split
    · exact judged_keeps _ _ _
    split
    · exact judged_keeps _ _ _
    split <;> exact ⟨rfl, rfl⟩
  | second =>
    simp only [fiJudge, fiLoop4]
    split
    · exact ⟨rfl, rfl⟩
    · exact judged_keeps _ _ _

theorem fiInbWait_keeps : Keeps u (u.fiInbWait i) := by
  unfold fiInbWait
  simp only
  split
  · obtain ⟨hlen, hexp⟩ := judged_keeps .first { u with inbStart := false }
      (if i.inbNotNewneighborFlag then some { u.din with busy := 3 } else none)
    exact ⟨hlen, hexp⟩
  · exact ⟨rfl, rfl⟩

theorem fiLoop_fiFrameLen : (u.fiLoop p i).fiFrameLen = u.fiFrameLen := by
  unfold fiLoop
  simp only
  split
  · cases p <;> rfl
  split
  · rfl
  split <;> rfl

variable {u}

theorem tick_fiFrameLen (h : u.state ≠ .dispatch) : (u.tick i).fiFrameLen = u.fiFrameLen := by
  unfold tick
  split
  case h_1 => split <;> rfl
  case h_3 hst => exact absurd hst h
  case h_5 p _ => exact fiLoop_fiFrameLen p i u
  case h_8 p _ => exact (fiJudge_keeps p i u).fiFrameLen
  case h_10 => exact (fiInbWait_keeps i u).fiFrameLen
  all_goals rfl

end Frame

/-! ### The pulse for the frame length -/

/-- The end of the second pass over a packet that is longer than the frame. -/
def Expands (currFrameLen : BitVec 10) (u : Stu) : Prop :=
  u.state = .fiLoop .second ∧ u.addr.toNat = u.fiFrameLen.toNat ∧ u.fiFrameLen.toNat > currFrameLen.toNat

theorem fiLoop_frameLenExpDp {p : Pass} {i : StuIn} {u : Stu} (hst : u.state = .fiLoop p)
    (hdown : u.frameLenExpDp = false) (h : (u.fiLoop p i).frameLenExpDp = true) :
    u.Expands i.currFrameLen ∧ (u.fiLoop p i).state = .stuEnd := by
  revert h
  unfold fiLoop
  simp only
  split
  · rename_i haddr
    cases p with
    | first =>
      intro h
      simp only [endPass, hdown] at h
      exact nomatch h
    | second =>
      simp only [endPass, hdown]
      intro h
      split at h
      · rename_i hgt
        exact ⟨⟨hst, haddr, hgt⟩, trivial⟩
      · exact nomatch h
  · intro h
    refine absurd (hdown.symm.trans ?_) Bool.false_ne_true
    split at h
    · exact h
    · split at h <;> exact h

/-- The pulse is up in `STU_END` only. -/
def PulseDown (u : Stu) : Prop := u.frameLenExpDp = true → u.state = .stuEnd

theorem tick_frameLenExpDp {i : StuIn} {u : Stu} (hdown : u.PulseDown)
    (h : (u.tick i).frameLenExpDp = true) :
    u.Expands i.currFrameLen ∧ (u.tick i).state = .stuEnd := by
  have hlow : ∀ {st : StuState}, u.state = st → st ≠ .stuEnd → u.frameLenExpDp = false := by
    intro st hst hne
    rw [← Bool.not_eq_true]
    exact fun hc => hne (hst.symm.trans (hdown hc))
  have hno : ∀ {v : Stu}, v.frameLenExpDp = u.frameLenExpDp → u.frameLenExpDp = false →
      ¬ v.frameLenExpDp = true := by
    intro v hv hu hc
    rw [hv, hu] at hc
    exact Bool.false_ne_true hc
  revert h
  unfold tick
  split
  case h_1 hst =>
    split <;> exact fun h => absurd h (hno rfl (hlow hst nofun))
  case h_5 p hst => exact fun h => fiLoop_frameLenExpDp hst (hlow hst nofun) h
  case h_8 p hst =>
    exact fun h => absurd h (hno (fiJudge_keeps p i u).frameLenExpDp (hlow hst nofun))
  case h_10 hst =>
    exact fun h => absurd h (hno (fiInbWait_keeps i u).frameLenExpDp (hlow hst nofun))
  case h_12 => exact fun h => nomatch h
  all_goals
    rename_i hst
    exact fun h => absurd h (hno rfl (hlow hst nofun))

theorem tick_expands {i : StuIn} {u : Stu} (h : u.Expands i.currFrameLen) :
    (u.tick i).frameLenExpDp = true := by
  obtain ⟨hst, haddr, hgt⟩ := h
  rw [tick, hst]
  simp only [fiLoop_endPass haddr, endPass, if_pos hgt]

theorem tick_stuStart (i : StuIn) (u : Stu) (b : Bool) (h : u.state ≠ .idle) :
    u.tick { i with stuStart := b } = u.tick i := by
  unfold tick
  split
  · rename_i hidle
    exact absurd hidle h
  all_goals first | rfl | (rename_i p _; cases p <;> rfl)

end Stu

/-! ### The two machines and the packet memory -/

/-- The STU, the INB and the output register of `blk_mem_rcvpkt`. -/
structure StuUnit where
  stu : Stu := {}
  inb : Inb := {}
  rcvpktDoutb : BitVec 32 := 0
deriving DecidableEq

/-- What the unit takes from outside: the start pulse and the read address of the IRQ machine, the
packet memory, and the settings. -/
structure StuEnv where
  stuStart : Bool
  globalSid : BitVec 8
  currFrameLen : BitVec 10
  rcvPkt : RcvPkt
  rcvpktAddrbIrq : BitVec 9

namespace StuUnit

/-- The address multiplexer of `blk_mem_rcvpkt`. -/
def rcvpktAddrb (d : StuUnit) (irq : BitVec 9) : BitVec 9 :=
  if d.stu.rcvpktEn then
    if d.inb.rcvpktEn then d.inb.rcvpktAddrb else d.stu.rcvpktAddrb
  else irq

def portA (d : StuUnit) : SlotPort where
  addr := d.stu.addr
  we := d.stu.we
  din := d.stu.din

/-- The signals of the STU in this cycle. -/
def stuIn (v : StuEnv) (dout : SlotEntry) (d : StuUnit) : StuIn where
  stuStart := v.stuStart
  globalSid := v.globalSid
  currFrameLen := v.currFrameLen
  dout := dout
  rcvpktDoutb := d.rcvpktDoutb
  inbDone := d.inb.done
  inbNotNewneighborFlag := d.inb.notNewneighborFlag

/-- One edge of the unit, where port A shows `dout`. -/
def tick (v : StuEnv) (dout : SlotEntry) (d : StuUnit) : StuUnit where
  stu := d.stu.tick (d.stuIn v dout)
  inb := d.inb.tick d.stu.inbStart d.stu.inbInputSti v.currFrameLen dout
  rcvpktDoutb := v.rcvPkt (d.rcvpktAddrb v.rcvpktAddrbIrq)

end StuUnit

end VanetTdma.Fpga
