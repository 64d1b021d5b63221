import VanetTdma.Lib.Clocked
import VanetTdma.Fpga.FiBuilder

/-!
# The words the FI builder writes

`FiBench` is the FI builder with the send-packet memory and the frame length.  The bits of a frame
information are the twelve header bits and then fourteen bits for each slot (`fiBit`).  While the builder
works, the bits before its cursor are in the memory and in the word under construction:

* `Written hdr cleared P s` — the bits before position `P` are in place; where the buffer was cleared, the
  bits after `P` are zero;
* `Looping.leads_succ` — a slot adds its fourteen bits;
* `Starting.leads_handed` — a build as a whole.
-/

namespace VanetTdma.Fpga

open VanetTdma.Clocked

/-- What the builder takes from outside in one cycle. -/
structure FiCycle where
  slotPointer : BitVec 16 := 0
  slotPulse2Counter : BitVec 10 := 0
  bchState : BchState := .idle
  initFiStart : Bool := false
  bchWorkPointer : BitVec 16 := 0
  bchDecideAdj : BitVec 16 := 0
  dout : SlotEntry := {}
  ipicAck : Bool := false
  ipicDone : Bool := false
  fcbDone : Bool := false
  frameLenExpDp : Bool := false

/-- The builder, the send-packet memory, and the registers of the frame length.  `read` records what
`FI_LOOP_1` last read of each slot. -/
structure FiBench where
  fi : Fi
  sendpkt : BitVec 9 → BitVec 32
  currFrameLen : BitVec 10
  fiPktLenByte : BitVec 11
  read : BitVec 7 → SlotEntry

namespace FiBench

def fiIn (s : FiBench) (i : FiCycle) : FiIn where
  slotPointer := i.slotPointer
  slotPulse2Counter := i.slotPulse2Counter
  currFrameLen := s.currFrameLen
  fiPktLenByte := s.fiPktLenByte
  bchState := i.bchState
  initFiStart := i.initFiStart
  bchWorkPointer := i.bchWorkPointer
  bchDecideAdj := i.bchDecideAdj
  dout := i.dout
  ipicAck := i.ipicAck
  ipicDone := i.ipicDone
  fcbDone := i.fcbDone

def tick (g : TdmaSetting) (s : FiBench) (i : FiCycle) : FiBench where
  fi := s.fi.tick g (s.fiIn i)
  sendpkt :=
    if s.fi.sendpktWe then Function.update s.sendpkt s.fi.sendpktAddr s.fi.sendpktDin else s.sendpkt
  currFrameLen :=
    g.nextFrameLen s.fi.frameLenExpBch i.frameLenExpDp s.fi.frameLenCutBch s.currFrameLen
  fiPktLenByte := Fpga.fiPktLenByte s.currFrameLen
  read := if s.fi.state = .loop1 then Function.update s.read s.fi.addr i.dout else s.read

def Alone (i : FiCycle) : Prop := i.frameLenExpDp = false

/-- The build is under way: its words have not been handed to the bus. -/
def Building (s : FiBench) : Prop := s.fi.state ≠ .idle ∧ s.fi.state ≠ .setPktContentMid

variable {g : TdmaSetting} {s : FiBench} {i : FiCycle}

theorem building_of_state {st : FiState} (h : s.fi.state = st) (hidle : st ≠ .idle)
    (hmid : st ≠ .setPktContentMid) : s.Building := by
  subst h
  exact ⟨hidle, hmid⟩

theorem tick_fi (s : FiBench) (i : FiCycle) : (s.tick g i).fi = s.fi.tick g (s.fiIn i) := rfl

theorem tick_sendpkt (h : s.fi.sendpktWe = false) : (s.tick g i).sendpkt = s.sendpkt := by
  simp only [tick, h, Bool.false_eq_true, if_false]

theorem tick_sendpkt_write (h : s.fi.sendpktWe = true) :
    (s.tick g i).sendpkt = Function.update s.sendpkt s.fi.sendpktAddr s.fi.sendpktDin := by
  simp only [tick, h, if_true]

theorem tick_read (h : s.fi.state ≠ .loop1) : (s.tick g i).read = s.read := if_neg h

/-! ### The frame length -/

/-- The user's frame length, where it is in force, is the present one. -/
def Settled (g : TdmaSetting) (len : BitVec 10) : Prop :=
  (g.tdmaFunctionEnable = true ∧ g.frameAdjEna = true)
    ∨ g.defaultFrameLenUser = 0 ∨ g.defaultFrameLenUser.setWidth 10 = len

/-- The frame length is `len` and no pulse is under way. -/
structure Steady (len : BitVec 10) (s : FiBench) : Prop where
  len : s.currFrameLen = len
  exp : s.fi.frameLenExpBch = false
  cut : s.fi.frameLenCutBch = false

theorem nextFrameLen_rest {len : BitVec 10} (h : Settled g len) :
    g.nextFrameLen false false false len = len := by
  simp only [TdmaSetting.nextFrameLen, Bool.false_eq_true, or_self, if_false]
  split
  · rfl
  · rename_i hoff
    rcases h with hon | hzero | hsame
    · exact absurd hon hoff
    · rw [if_neg (not_not.mpr hzero)]
    · split
      · exact hsame
      · rfl

theorem Steady.tick {len : BitVec 10} (h : Steady len s) (hset : Settled g len) (hi : Alone i)
    (hexp : (s.tick g i).fi.frameLenExpBch = s.fi.frameLenExpBch)
    (hcut : (s.tick g i).fi.frameLenCutBch = s.fi.frameLenCutBch) : Steady len (s.tick g i) where
  len := by
    show g.nextFrameLen _ _ _ _ = _
    rw [h.exp, h.cut, h.len, hi]
    exact nextFrameLen_rest hset
  exp := hexp.trans h.exp
  cut := hcut.trans h.cut

/-! ### The bits of a frame information -/

/-- The header: the sid and the length code. -/
def header (g : TdmaSetting) (len : BitVec 10) : BitVec 12 :=
  g.globalSid ++ (lenTable len).currFrameLenLog2.setWidth 4

/-- Bit `i` of the frame information with the entries `read`. -/
def fiBit (hdr : BitVec 12) (read : BitVec 7 → SlotEntry) (i : ℕ) : Bool :=
  if i < 12 then hdr.getLsbD i
  else (read (BitVec.ofNat 7 ((i - 12) / 14))).fiTag.getLsbD ((i - 12) % 14)

theorem fiBit_tag {hdr : BitVec 12} {read : BitVec 7 → SlotEntry} {a k : ℕ} (hk : k < 14) :
    fiBit hdr read (12 + 14 * a + k) = (read (BitVec.ofNat 7 a)).fiTag.getLsbD k := by
  rw [fiBit, if_neg (by omega), show (12 + 14 * a + k - 12) / 14 = a from by omega,
    show (12 + 14 * a + k - 12) % 14 = k from by omega]

theorem fiBit_update {hdr : BitVec 12} {read : BitVec 7 → SlotEntry} {a j : ℕ} {e : SlotEntry}
    (ha : a < 128) (hj : j < 12 + 14 * a) :
    fiBit hdr (Function.update read (BitVec.ofNat 7 a) e) j = fiBit hdr read j := by
  unfold fiBit
  split
  · rfl
  · rw [Function.update_of_ne]
    intro h
    have := congrArg BitVec.toNat h
    simp only [BitVec.toNat_ofNat] at this
    omega

/-- Bit `j` of the send-packet memory. -/
def sentBit (mem : BitVec 9 → BitVec 32) (j : ℕ) : Bool :=
  (mem (BitVec.ofNat 9 (j / 32))).getLsbD (j % 32)

theorem sentBit_update_same {mem : BitVec 9 → BitVec 32} {w j : ℕ} {v : BitVec 32} (h : j / 32 = w) :
    sentBit (Function.update mem (BitVec.ofNat 9 w) v) j = v.getLsbD (j % 32) := by
  rw [sentBit, h, Function.update_self]

theorem sentBit_update_ne {mem : BitVec 9 → BitVec 32} {w j : ℕ} {v : BitVec 32} (h : j / 32 ≠ w)
    (hw : w < 512) (hj : j / 32 < 512) :
    sentBit (Function.update mem (BitVec.ofNat 9 w) v) j = sentBit mem j := by
  rw [sentBit, Function.update_of_ne]
  · rfl
  · intro hc
    have := congrArg BitVec.toNat hc
    simp only [BitVec.toNat_ofNat] at this
    omega

/-- The bits before position `P` are in place: full words in the memory, the rest in the word under
construction.  The word under construction is zero from its cursor on, and where the buffer was cleared
so are the words after it.  A full first word has been saved. -/
structure Written (hdr : BitVec 12) (cleared : Prop) (P : ℕ) (s : FiBench) : Prop where
  bit : s.fi.bitFiIndex.toNat = P % 32
  word : s.fi.sendpktAddr = BitVec.ofNat 9 (P / 32)
  full : ∀ j < 32 * (P / 32), sentBit s.sendpkt j = fiBit hdr s.read j
  part : ∀ j < P % 32, s.fi.sendpktDin.getLsbD j = fiBit hdr s.read (32 * (P / 32) + j)
  tail : 0 < P / 32 ∨ cleared → ∀ j < 32, P % 32 ≤ j → s.fi.sendpktDin.getLsbD j = false
  blank : cleared → ∀ j < 32 * 58, 32 * (P / 32) ≤ j → sentBit s.sendpkt j = false
  saved : 0 < P / 32 → s.fi.sendpktTmpBuf = s.sendpkt 0

variable {hdr : BitVec 12} {cleared : Prop} {P a b k : ℕ} {len : BitVec 10}

theorem Written.of_eq {t : FiBench} (h : Written hdr cleared P s)
    (hbit : t.fi.bitFiIndex = s.fi.bitFiIndex) (hword : t.fi.sendpktAddr = s.fi.sendpktAddr)
    (hdin : t.fi.sendpktDin = s.fi.sendpktDin) (htmp : t.fi.sendpktTmpBuf = s.fi.sendpktTmpBuf)
    (hmem : t.sendpkt = s.sendpkt) (hread : ∀ j < P, fiBit hdr t.read j = fiBit hdr s.read j) :
    Written hdr cleared P t where
  bit := by rw [hbit]; exact h.bit
  word := by rw [hword]; exact h.word
  full j hj := by rw [hmem, hread j (by omega)]; exact h.full j hj
  part j hj := by rw [hdin, hread _ (by omega)]; exact h.part j hj
  tail hc j hj hp := by rw [hdin]; exact h.tail hc j hj hp
  blank hc j hj hp := by rw [hmem]; exact h.blank hc j hj hp
  saved hp := by rw [htmp, hmem]; exact h.saved hp

/-! ### One bit -/

theorem Written.snoc {t : FiBench} {v : Bool} (h : Written hdr cleared P s) (hin : (P + 1) % 32 ≠ 0)
    (hv : v = fiBit hdr s.read P) (hbit : t.fi.bitFiIndex.toNat = (P + 1) % 32)
    (hword : t.fi.sendpktAddr = s.fi.sendpktAddr)
    (hdin : t.fi.sendpktDin = writeBit s.fi.sendpktDin (P % 32) v)
    (htmp : t.fi.sendpktTmpBuf = s.fi.sendpktTmpBuf) (hmem : t.sendpkt = s.sendpkt)
    (hread : t.read = s.read) : Written hdr cleared (P + 1) t := by
  have hdiv : (P + 1) / 32 = P / 32 := by omega
  have hmod : (P + 1) % 32 = P % 32 + 1 := by omega
  refine ⟨hbit, ?_, ?_, ?_, ?_, ?_, ?_⟩
  all_goals simp only [hdiv, hmod, hmem, hread, htmp, hword]
  · exact h.word
  · exact h.full
  · intro j hj
    rw [hdin, getLsbD_writeBit _ _ _ (by omega)]
    by_cases hlast : j = P % 32
    · rw [if_pos hlast, hv, hlast, show 32 * (P / 32) + P % 32 = P from by omega]
    · rw [if_neg hlast]
      exact h.part j (by omega)
  · intro hc j hj hp
    rw [hdin, getLsbD_writeBit _ _ _ hj, if_neg (by omega)]
    exact h.tail hc j hj (by omega)
  · exact h.blank
  · exact h.saved

/-- The last bit of a word: the word goes to the memory. -/
theorem Written.snoc_word {t : FiBench} {x : Bool} {v : BitVec 32} (h : Written hdr cleared P s)
    (hout : (P + 1) % 32 = 0) (hP : P < 32 * 57) (hx : x = fiBit hdr s.read P)
    (hv : v = writeBit s.fi.sendpktDin (P % 32) x) (hbit : t.fi.bitFiIndex = 0)
    (hword : t.fi.sendpktAddr = s.fi.sendpktAddr + 1) (hdin : t.fi.sendpktDin = 0)
    (htmp : t.fi.sendpktTmpBuf = if s.fi.sendpktAddr = 0 then v else s.fi.sendpktTmpBuf)
    (hmem : t.sendpkt = Function.update s.sendpkt s.fi.sendpktAddr v) (hread : t.read = s.read) :
    Written hdr cleared (P + 1) t := by
  have hdiv : (P + 1) / 32 = P / 32 + 1 := by omega
  have hlast : P % 32 = 31 := by omega
  rw [h.word] at hword htmp hmem
  refine ⟨?_, ?_, ?_, ?_, ?_, ?_, ?_⟩
  all_goals simp only [hdiv, hout, hread, hmem]
  · rw [hbit]
    rfl
  · rw [hword, BitVec.ofNat_add]
    rfl
  · intro j hj
    by_cases hsame : j / 32 = P / 32
    · rw [sentBit_update_same hsame, hv, getLsbD_writeBit _ _ _ (by omega)]
      by_cases hj31 : j % 32 = P % 32
      · rw [if_pos hj31, hx, show P = j from by omega]
      · rw [if_neg hj31, h.part _ (by omega), show 32 * (P / 32) + j % 32 = j from by omega]
    · rw [sentBit_update_ne hsame (by omega) (by omega)]
      exact h.full j (by omega)
  · intro j hj
    exact absurd hj (Nat.not_lt_zero j)
  · intro _ j _ _
    rw [hdin]
    exact BitVec.getLsbD_zero
  · intro hc j hj hp
    rw [sentBit_update_ne (by omega) (by omega) (by omega)]
    exact h.blank hc j hj (by omega)
  · intro _
    rw [htmp]
    by_cases hzero : P / 32 = 0
    · rw [hzero, if_pos (show BitVec.ofNat 9 0 = 0 from rfl)]
      exact (Function.update_self (0 : BitVec 9) v s.sendpkt).symm
    · have hne : BitVec.ofNat 9 (P / 32) ≠ 0 := by
        intro hc
        have := congrArg BitVec.toNat hc
        simp only [BitVec.ofNat_eq_ofNat, BitVec.toNat_ofNat] at this
        omega
      rw [if_neg hne, Function.update_of_ne (Ne.symm hne)]
      exact h.saved (by omega)

/-! ### One slot -/

/-- The scan is at slot `a` with the bits before `P` in place; the frame length is steady and no word is
under way to the memory. -/
structure Holding (hdr : BitVec 12) (cleared : Prop) (len : BitVec 10) (a P : ℕ) (s : FiBench) : Prop
    extends Steady len s where
  we : s.fi.sendpktWe = false
  addr : s.fi.addr.toNat = a
  written : Written hdr cleared P s

/-- The registers that hold the buffer and the place of the scan are left alone. -/
structure Keeps (f f' : Fi) : Prop where
  exp : f'.frameLenExpBch = f.frameLenExpBch
  cut : f'.frameLenCutBch = f.frameLenCutBch
  we : f'.sendpktWe = f.sendpktWe
  addr : f'.addr = f.addr
  bit : f'.bitFiIndex = f.bitFiIndex
  word : f'.sendpktAddr = f.sendpktAddr
  din : f'.sendpktDin = f.sendpktDin
  tmp : f'.sendpktTmpBuf = f.sendpktTmpBuf

theorem Holding.tick_of_read (h : Holding hdr cleared len a P s) (hset : Settled g len) (hi : Alone i)
    (hk : Keeps s.fi (s.tick g i).fi)
    (hread : ∀ j < P, fiBit hdr (s.tick g i).read j = fiBit hdr s.read j) :
    Holding hdr cleared len a P (s.tick g i) where
  toSteady := h.toSteady.tick hset hi hk.exp hk.cut
  we := hk.we.trans h.we
  addr := by rw [hk.addr]; exact h.addr
  written := h.written.of_eq hk.bit hk.word hk.din hk.tmp (tick_sendpkt h.we) hread

theorem Holding.tick (h : Holding hdr cleared len a P s) (hset : Settled g len) (hi : Alone i)
    (hst : s.fi.state ≠ .loop1) (hk : Keeps s.fi (s.tick g i).fi) :
    Holding hdr cleared len a P (s.tick g i) := by
  apply h.tick_of_read hset hi hk
  intro j _
  rw [tick_read hst]

/-- Slot `a` comes next. -/
structure AtSlot (hdr : BitVec 12) (cleared : Prop) (len : BitVec 10) (a : ℕ) (s : FiBench) : Prop
    extends Holding hdr cleared len a (12 + 14 * a) s where
  state : s.fi.state = .loop1Pre

/-- `k` bits of the tag of slot `a` have been appended. -/
structure Looping (hdr : BitVec 12) (cleared : Prop) (len : BitVec 10) (a k : ℕ) (s : FiBench) : Prop
    extends Holding hdr cleared len a (12 + 14 * a + k) s where
  state : s.fi.state = .loop2
  index : s.fi.fiPerSlotIndex.toNat = k
  tag : s.fi.fiPerSlot = (s.read (BitVec.ofNat 7 a)).fiTag

/-- From `FI_LOOP_1_PRE` the builder reads the entry, refreshes it and comes to its tag. -/
theorem AtSlot.leads_looping (h : AtSlot hdr cleared len a s) (hset : Settled g len)
    (ha : a < len.toNat) (ha64 : a < 64) :
    Leads (FiBench.tick g) Alone Building (Looping hdr cleared len a 0) s := by
  refine Leads.step (building_of_state h.state FiState.noConfusion FiState.noConfusion) fun i hi => ?_
  have hfi : (s.tick g i).fi = { s.fi with state := .loop1 } := by
    have hne : s.fi.addr.toNat ≠ (s.fiIn i).currFrameLen.toNat := by
      show _ ≠ s.currFrameLen.toNat
      rw [h.addr, h.len]
      exact Nat.ne_of_lt ha
    rw [tick_fi, Fi.tick, h.state]
    simp only [if_neg hne]
  have hold := h.toHolding.tick hset hi (by rw [h.state]; exact FiState.noConfusion)
    (by rw [hfi]; exact ⟨rfl, rfl, rfl, rfl, rfl, rfl, rfl, rfl⟩)
  generalize s.tick g i = s₁ at hfi hold
  have hst₁ : s₁.fi.state = .loop1 := by rw [hfi]
  refine Leads.step (building_of_state hst₁ FiState.noConfusion FiState.noConfusion) fun i₁ hi₁ => ?_
  have hfi₁ : (s₁.tick g i₁).fi = s₁.fi.loop1 g (s₁.fiIn i₁) := by
    rw [tick_fi, Fi.tick, hst₁]
  have hread₁ : (s₁.tick g i₁).read = Function.update s₁.read (BitVec.ofNat 7 a) i₁.dout := by
    rw [← hold.addr, BitVec.ofNat_toNat, BitVec.setWidth_eq]
    exact if_pos hst₁
  have hold₁ : Holding hdr cleared len a (12 + 14 * a) (s₁.tick g i₁) := by
    apply hold.tick_of_read hset hi₁
    · rw [hfi₁]
      exact ⟨rfl, rfl, rfl, rfl, rfl, rfl, rfl, rfl⟩
    · intro j hj
      rw [hread₁]
      exact fiBit_update (by omega) hj
  have htag₁ : (s₁.tick g i₁).fi.fiPerSlot = ((s₁.tick g i₁).read (BitVec.ofNat 7 a)).fiTag := by
    rw [hfi₁, hread₁, Function.update_self]
    rfl
  generalize s₁.tick g i₁ = s₂ at hfi₁ hold₁ htag₁
  have hst₂ : s₂.fi.state = .loop1Unlock := by rw [hfi₁]; rfl
  have hidx₂ : s₂.fi.fiPerSlotIndex = 0 := by rw [hfi₁]; rfl
  refine Leads.step (building_of_state hst₂ FiState.noConfusion FiState.noConfusion) fun i₂ hi₂ => ?_
  have hfi₂ : (s₂.tick g i₂).fi = { s₂.fi with din := unlocked s₂.fi.din, state := .loop1Refresh } := by
    rw [tick_fi, Fi.tick, hst₂]
  have hread₂ : (s₂.tick g i₂).read = s₂.read := tick_read (by rw [hst₂]; exact FiState.noConfusion)
  have hold₂ := hold₁.tick hset hi₂ (by rw [hst₂]; exact FiState.noConfusion)
    (by rw [hfi₂]; exact ⟨rfl, rfl, rfl, rfl, rfl, rfl, rfl, rfl⟩)
  generalize s₂.tick g i₂ = s₃ at hfi₂ hold₂ hread₂
  have hst₃ : s₃.fi.state = .loop1Refresh := by rw [hfi₂]
  refine Leads.one (building_of_state hst₃ FiState.noConfusion FiState.noConfusion) fun i₃ hi₃ => ?_
  have hfi₃ : (s₃.tick g i₃).fi = { s₃.fi with
      we := true, din := refreshed g.globalSid i₃.dout s₃.fi.din, state := .loop2 } := by
    rw [tick_fi, Fi.tick, hst₃]
    rfl
  have hread₃ : (s₃.tick g i₃).read = s₃.read := tick_read (by rw [hst₃]; exact FiState.noConfusion)
  refine ⟨hold₂.tick hset hi₃ (by rw [hst₃]; exact FiState.noConfusion)
    (by rw [hfi₃]; exact ⟨rfl, rfl, rfl, rfl, rfl, rfl, rfl, rfl⟩), ?_, ?_, ?_⟩
  · rw [hfi₃]
  · rw [hfi₃, hfi₂, hidx₂]
    rfl
  · rw [hread₃, hread₂, hfi₃, hfi₂]
    exact htag₁

/-- The registers with one more bit in the word under construction. -/
def shifted (f : Fi) : Fi :=
  { f with
    we := false
    sendpktDin := writeBit f.sendpktDin f.bitFiIndex.toNat (f.fiPerSlot.getLsbD f.fiPerSlotIndex.toNat)
    bitFiIndex := BitVec.ofNat 7 ((f.bitFiIndex.toNat + 1) % 32)
    fiPerSlotIndex := f.fiPerSlotIndex + 1 }

/-- On to the next bit of the tag, or to the next slot. -/
def onward (f : Fi) : Fi :=
  if f.fiPerSlotIndex.toNat = fiPerSlotBitsnum then { f with addr := f.addr + 1, state := .loop1Pre }
  else { f with state := .loop2 }

theorem shifted_bit_eq_zero_iff {f : Fi} :
    (shifted f).bitFiIndex = 0 ↔ (f.bitFiIndex.toNat + 1) % 32 = 0 := by
  constructor
  · intro h
    have := congrArg BitVec.toNat h
    simp only [shifted, BitVec.ofNat_eq_ofNat, BitVec.toNat_ofNat] at this
    omega
  · intro h
    simp only [shifted, h]
    rfl

theorem loop2_inWord {f : Fi} (hst : f.state = .loop2) (hb : (f.bitFiIndex.toNat + 1) % 32 ≠ 0) :
    f.loop2 = onward (shifted f) := by
  show (if (shifted f).bitFiIndex = 0 then _ else _) = _
  rw [if_neg fun hc => hb (shifted_bit_eq_zero_iff.mp hc), onward]
  have hself : { shifted f with state := .loop2 } = shifted f := by
    rw [← hst]
    rfl
  rw [hself]
  rfl

theorem loop2_word {f : Fi} (hb : (f.bitFiIndex.toNat + 1) % 32 = 0) :
    f.loop2 = { shifted f with
      sendpktTmpBuf := if f.sendpktAddr = 0 then (shifted f).sendpktDin else f.sendpktTmpBuf
      sendpktWe := true
      state := .loop2Wr } := by
  show (if (shifted f).bitFiIndex = 0 then _ else _) = _
  rw [if_pos (shifted_bit_eq_zero_iff.mpr hb)]
  rfl

theorem loop2Wr_eq (f : Fi) :
    f.loop2Wr = onward { f with
      sendpktWe := false, sendpktAddr := f.sendpktAddr + 1, sendpktDin := 0 } := rfl

theorem onward_keeps (f : Fi) : Keeps f { onward f with addr := f.addr } := by
  unfold onward
  split <;> exact ⟨rfl, rfl, rfl, rfl, rfl, rfl, rfl, rfl⟩

/-- What comes after bit `k` of a tag: the next bit, or the next slot. -/
def Onward (hdr : BitVec 12) (cleared : Prop) (len : BitVec 10) (a k : ℕ) (s : FiBench) : Prop :=
  if k + 1 = 14 then AtSlot hdr cleared len (a + 1) s else Looping hdr cleared len a (k + 1) s

theorem onward_spec {f : Fi} {t : FiBench} (hf : t.fi = onward f) (ha : a < 64)
    (hindex : f.fiPerSlotIndex.toNat = k + 1) (haddr : f.addr.toNat = a) (hwe : f.sendpktWe = false)
    (htag : f.fiPerSlot = (t.read (BitVec.ofNat 7 a)).fiTag)
    (hw : Written hdr cleared (12 + 14 * a + k + 1) t) (hsteady : Steady len t) :
    Onward hdr cleared len a k t := by
  unfold Onward
  rw [onward, hindex, fiPerSlotBitsnum] at hf
  split
  · rename_i hlast
    rw [if_pos hlast] at hf
    refine ⟨⟨hsteady, ?_, ?_, ?_⟩, ?_⟩
    · rw [hf]
      exact hwe
    · rw [hf]
      simp only [BitVec.toNat_add, haddr, BitVec.ofNat_eq_ofNat, BitVec.toNat_ofNat]
      omega
    · rw [show 12 + 14 * (a + 1) = 12 + 14 * a + k + 1 from by omega]
      exact hw
    · rw [hf]
  · rename_i hmore
    rw [if_neg hmore] at hf
    refine ⟨⟨hsteady, ?_, ?_, hw⟩, ?_, ?_, ?_⟩
    all_goals rw [hf]
    · exact hwe
    · exact haddr
    · exact hindex
    · exact htag

theorem Looping.leads_onward (h : Looping hdr cleared len a k s) (hset : Settled g len) (hk : k < 14)
    (ha : a < 64) : Leads (FiBench.tick g) Alone Building (Onward hdr cleared len a k) s := by
  have hread : ∀ i, (s.tick g i).read = s.read := fun i =>
    tick_read (by rw [h.state]; exact FiState.noConfusion)
  have hfi : ∀ i, (s.tick g i).fi = s.fi.loop2 := fun i => by rw [tick_fi, Fi.tick, h.state]
  have hindex : (shifted s.fi).fiPerSlotIndex.toNat = k + 1 := by
    simp only [shifted, BitVec.toNat_add, h.index, BitVec.ofNat_eq_ofNat, BitVec.toNat_ofNat]
    omega
  have hbit : s.fi.fiPerSlot.getLsbD s.fi.fiPerSlotIndex.toNat = fiBit hdr s.read (12 + 14 * a + k) := by
    rw [fiBit_tag hk, h.index, h.tag]
  have hcursor := h.written.bit
  by_cases hb : (12 + 14 * a + k + 1) % 32 = 0
  · have hb' : (s.fi.bitFiIndex.toNat + 1) % 32 = 0 := by omega
    simp only [loop2_word hb'] at hfi
    refine Leads.step (building_of_state h.state FiState.noConfusion FiState.noConfusion) fun i hi => ?_
    have hsteady : Steady len (s.tick g i) := by
      apply h.toSteady.tick hset hi <;> rw [hfi] <;> rfl
    have hmem : (s.tick g i).sendpkt = s.sendpkt := tick_sendpkt h.we
    have hfi₁ := hfi i
    have hread₁ := hread i
    generalize s.tick g i = s₁ at hfi₁ hread₁ hsteady hmem
    have hst₁ : s₁.fi.state = .loop2Wr := by rw [hfi₁]
    refine Leads.one (building_of_state hst₁ FiState.noConfusion FiState.noConfusion) fun i₁ hi₁ => ?_
    have hfi₂ : (s₁.tick g i₁).fi = onward { s₁.fi with
        sendpktWe := false, sendpktAddr := s₁.fi.sendpktAddr + 1, sendpktDin := 0 } := by
      rw [tick_fi, Fi.tick, hst₁]
      exact loop2Wr_eq _
    have hread₂ : (s₁.tick g i₁).read = s₁.read := tick_read (by rw [hst₁]; exact FiState.noConfusion)
    have hkeep := onward_keeps { s₁.fi with
        sendpktWe := false, sendpktAddr := s₁.fi.sendpktAddr + 1, sendpktDin := 0 }
    rw [← hfi₂] at hkeep
    refine onward_spec hfi₂ ha ?_ ?_ rfl ?_ ?_ (hsteady.tick hset hi₁ hkeep.exp hkeep.cut)
    · rw [hfi₁]
      exact hindex
    · rw [hfi₁]
      exact h.addr
    · rw [hread₂, hread₁, hfi₁]
      exact h.tag
    · refine h.written.snoc_word hb (by omega) hbit rfl ?_ ?_ hkeep.din ?_ ?_ (hread₂.trans hread₁)
      · refine hkeep.bit.trans ?_
        rw [hfi₁]
        exact shifted_bit_eq_zero_iff.mpr hb'
      · refine hkeep.word.trans ?_
        rw [hfi₁]
        rfl
      · refine hkeep.tmp.trans ?_
        rw [hfi₁, ← hcursor]
        rfl
      · rw [tick_sendpkt_write (by rw [hfi₁]), hmem, hfi₁, ← hcursor]
        rfl
  · have hb' : (s.fi.bitFiIndex.toNat + 1) % 32 ≠ 0 := by omega
    simp only [loop2_inWord h.state hb'] at hfi
    refine Leads.one (building_of_state h.state FiState.noConfusion FiState.noConfusion) fun i hi => ?_
    have hkeep := onward_keeps (shifted s.fi)
    rw [← hfi i] at hkeep
    refine onward_spec (hfi i) ha hindex h.addr h.we ?_ ?_ (h.toSteady.tick hset hi hkeep.exp hkeep.cut)
    · rw [hread]
      exact h.tag
    · refine h.written.snoc hb hbit ?_ hkeep.word ?_ hkeep.tmp (tick_sendpkt h.we) (hread i)
      · rw [hkeep.bit]
        simp only [shifted, BitVec.toNat_ofNat]
        omega
      · rw [hkeep.din, ← hcursor]
        rfl

theorem Looping.leads_succ (h : Looping hdr cleared len a k s) (hset : Settled g len) (hk : k < 14)
    (ha : a < 64) : Leads (FiBench.tick g) Alone Building (AtSlot hdr cleared len (a + 1)) s := by
  induction hm : 13 - k generalizing k s with
  | zero =>
    refine (h.leads_onward hset hk ha).trans fun t ht => Leads.here ?_
    rwa [Onward, if_pos (by omega)] at ht
  | succ m ih =>
    refine (h.leads_onward hset hk ha).trans fun t ht => ?_
    rw [Onward, if_neg (by omega)] at ht
    exact ih ht (by omega) (by omega)

/-- **The scan**: from slot `a` to the end of the frame. -/
theorem AtSlot.leads_last (h : AtSlot hdr cleared len a s) (hset : Settled g len)
    (ha : a ≤ len.toNat) (hlen : len.toNat ≤ 64) :
    Leads (FiBench.tick g) Alone Building (AtSlot hdr cleared len len.toNat) s := by
  induction hm : len.toNat - a generalizing a s with
  | zero =>
    have : a = len.toNat := by omega
    exact Leads.here (this ▸ h)
  | succ m ih =>
    refine (h.leads_looping hset (by omega) (by omega)).trans fun t ht => ?_
    refine (ht.leads_succ hset (by omega) (by omega)).trans fun r hr => ?_
    exact ih hr (by omega) (by omega)

/-! ### The start -/

/-- `FI_START`: where the buffer was cleared, it is zero. -/
structure Starting (cleared : Prop) (len : BitVec 10) (s : FiBench) : Prop extends Steady len s where
  state : s.fi.state = .start
  we : s.fi.sendpktWe = false
  addr : s.fi.addr = 0
  din : cleared → s.fi.sendpktDin = 0
  blank : cleared → ∀ j < 32 * 58, sentBit s.sendpkt j = false

theorem Starting.leads_atSlot (h : Starting cleared len s) (hset : Settled g len) :
    Leads (FiBench.tick g) Alone Building (AtSlot (header g len) cleared len 0) s := by
  refine Leads.one (building_of_state h.state nofun nofun) fun i hi => ?_
  have hfi : (s.tick g i).fi = { s.fi with
      isSingleFlag := true, sendpktAddr := 0
      sendpktDin := s.fi.sendpktDin.extractLsb' 12 20 ++ header g len
      bitFiIndex := 12, state := .loop1Pre } := by
    rw [tick_fi, Fi.tick, h.state]
    simp only [fiIn, h.len]
    congr 1
    exact BitVec.append_assoc
  have hmem : (s.tick g i).sendpkt = s.sendpkt := tick_sendpkt h.we
  refine ⟨⟨h.toSteady.tick hset hi (by rw [hfi]) (by rw [hfi]), by rw [hfi]; exact h.we, ?_,
    ⟨?_, ?_, ?_, ?_, ?_, ?_, ?_⟩⟩, by rw [hfi]⟩
  · rw [hfi]
    exact congrArg BitVec.toNat h.addr
  · rw [hfi]
    rfl
  · rw [hfi]
    rfl
  · intro j hj
    exact absurd hj (Nat.not_lt_zero j)
  · intro j hj
    have hj12 : j < 12 := hj
    rw [hfi, fiBit]
    simp only [BitVec.getLsbD_append, hj12, if_true]
    rw [if_pos (by omega), show 32 * ((12 + 14 * 0) / 32) + j = j from by omega]
  · rintro (hc | hc) j hj hp
    · exact absurd hc (Nat.not_lt_zero 0)
    · have hj12 : ¬ j < 12 := Nat.not_lt.mpr hp
      rw [hfi]
      simp only [BitVec.getLsbD_append, hj12, if_false, BitVec.getLsbD_extractLsb', h.din hc]
      simp
  · intro hc j hj _
    rw [hmem]
    exact h.blank hc j hj
  · intro hc
    exact absurd hc (Nat.not_lt_zero 0)

theorem Steady.leads_starting_of_init (h : Steady len s) (hset : Settled g len)
    (hst : s.fi.state = .startPre) :
    Leads (FiBench.tick g) Alone Building (Starting False len) s := by
  refine Leads.one (building_of_state hst nofun nofun) fun i hi => ?_
  have hfi : (s.tick g i).fi = { s.fi with
      sendpktWe := false, slotStatusEn := true, addr := 0, state := .start } := by
    rw [tick_fi, Fi.tick, hst]
  exact ⟨h.tick hset hi (by rw [hfi]) (by rw [hfi]), by rw [hfi], by rw [hfi], by rw [hfi], False.elim,
    False.elim⟩

/-- The buffer is being cleared: a zero is under way to word `b`, the words before it are zero. -/
structure Clearing (len : BitVec 10) (b : ℕ) (s : FiBench) : Prop extends Steady len s where
  we : s.fi.sendpktWe = true
  din : s.fi.sendpktDin = 0
  word : s.fi.sendpktAddr = BitVec.ofNat 9 b
  blank : ∀ j < 32 * b, sentBit s.sendpkt j = false

theorem Clearing.blank_tick (h : Clearing len b s) (hb : b < 58) (j : ℕ) (hj : j < 32 * (b + 1)) :
    sentBit (s.tick g i).sendpkt j = false := by
  rw [tick_sendpkt_write h.we, h.word, h.din]
  by_cases hsame : j / 32 = b
  · rw [sentBit_update_same hsame]
    exact BitVec.getLsbD_zero
  · rw [sentBit_update_ne hsame (by omega) (by omega)]
    exact h.blank j (by omega)

theorem Clearing.leads_startPre (h : Clearing len b s) (hset : Settled g len) (hb : b < 57)
    (hst : s.fi.state = .startRstBufLoop) (hidx : s.fi.rstBeatIdx.toNat = b + 1) :
    Leads (FiBench.tick g) Alone Building (fun t => Clearing len 57 t ∧ t.fi.state = .startPre) s := by
  induction hm : 56 - b generalizing b s with
  | zero =>
    have hlast : s.fi.rstBeatIdx = 57 := by
      apply BitVec.eq_of_toNat_eq
      rw [hidx]
      show b + 1 = 57
      omega
    refine Leads.one (building_of_state hst nofun nofun) fun i hi => ?_
    have hfi : (s.tick g i).fi = { s.fi with
        sendpktAddr := 57, sendpktDin := 0, rstBeatIdx := 58, state := .startPre } := by
      rw [tick_fi, Fi.tick, hst]
      simp only [hlast]
      rfl
    refine ⟨⟨h.toSteady.tick hset hi (by rw [hfi]) (by rw [hfi]), by rw [hfi]; exact h.we, by rw [hfi],
      by rw [hfi]; rfl, ?_⟩, by rw [hfi]⟩
    intro j hj
    exact h.blank_tick (by omega) j (by omega)
  | succ m ih =>
    have hmore : s.fi.rstBeatIdx ≠ 57 := by
      intro hc
      have := congrArg BitVec.toNat hc
      rw [hidx] at this
      have h57 : (57 : BitVec 6).toNat = 57 := rfl
      omega
    refine Leads.step (building_of_state hst nofun nofun) fun i hi => ?_
    have hfi : (s.tick g i).fi = { s.fi with
        sendpktAddr := s.fi.rstBeatIdx.setWidth 9, sendpktDin := 0, rstBeatIdx := s.fi.rstBeatIdx + 1
        state := .startRstBufLoop } := by
      rw [tick_fi, Fi.tick, hst]
      simp only [if_neg hmore]
    have hnext : Clearing len (b + 1) (s.tick g i) := by
      refine ⟨h.toSteady.tick hset hi (by rw [hfi]) (by rw [hfi]), by rw [hfi]; exact h.we, by rw [hfi],
        ?_, fun j hj => h.blank_tick (by omega) j hj⟩
      rw [hfi, ← hidx, BitVec.ofNat_toNat]
    refine ih hnext (by omega) (by rw [hfi]) ?_ (by omega)
    rw [hfi]
    simp only [BitVec.toNat_add, hidx, BitVec.ofNat_eq_ofNat, BitVec.toNat_ofNat]
    omega

theorem Steady.leads_starting (h : Steady len s) (hset : Settled g len)
    (hst : s.fi.state = .startRstBuf) :
    Leads (FiBench.tick g) Alone Building (Starting True len) s := by
  refine Leads.step (building_of_state hst FiState.noConfusion FiState.noConfusion) fun i hi => ?_
  have hfi : (s.tick g i).fi = { s.fi with
      slotStatusEn := true, rstBeatIdx := 1, sendpktAddr := 0, sendpktWe := true, sendpktDin := 0
      state := .startRstBufLoop } := by
    rw [tick_fi, Fi.tick, hst]
  have hclear : Clearing len 0 (s.tick g i) :=
    ⟨h.tick hset hi (by rw [hfi]) (by rw [hfi]), by rw [hfi], by rw [hfi], by rw [hfi]; rfl,
      fun j hj => absurd hj (Nat.not_lt_zero j)⟩
  refine (hclear.leads_startPre hset (by omega) (by rw [hfi]) (by rw [hfi]; rfl)).trans ?_
  rintro t ⟨ht, htst⟩
  refine Leads.one (building_of_state htst FiState.noConfusion FiState.noConfusion) fun i₁ hi₁ => ?_
  have hfi₁ : (t.tick g i₁).fi = { t.fi with
      sendpktWe := false, slotStatusEn := true, addr := 0, state := .start } := by
    rw [tick_fi, Fi.tick, htst]
  exact ⟨ht.toSteady.tick hset hi₁ (by rw [hfi₁]) (by rw [hfi₁]), by rw [hfi₁], by rw [hfi₁], by rw [hfi₁],
    fun _ => by rw [hfi₁]; exact ht.din, fun _ j hj => ht.blank_tick (by omega) j hj⟩

/-! ### The end -/

/-- The frame information with header `hdr` and `n` slots is in the memory. -/
structure Packed (hdr : BitVec 12) (cleared : Prop) (n : ℕ) (s : FiBench) : Prop where
  bits : ∀ j < 12 + 14 * n, sentBit s.sendpkt j = fiBit hdr s.read j
  rest : cleared → ∀ j < 32 * 58, 12 + 14 * n ≤ j → sentBit s.sendpkt j = false

theorem Packed.of_eq {t : FiBench} {n : ℕ} (h : Packed hdr cleared n s) (hmem : t.sendpkt = s.sendpkt)
    (hread : t.read = s.read) : Packed hdr cleared n t := by
  refine ⟨?_, ?_⟩
  · rw [hmem, hread]
    exact h.bits
  · rw [hmem]
    exact h.rest

theorem Written.packed {t : FiBench} {n : ℕ} (h : Written hdr cleared (12 + 14 * n) s) (hn : 2 ≤ n)
    (hn64 : n ≤ 64) (hread : t.read = s.read)
    (hmem : t.sendpkt = Function.update s.sendpkt s.fi.sendpktAddr s.fi.sendpktDin) :
    Packed hdr cleared n t ∧ s.fi.sendpktTmpBuf = t.sendpkt 0 := by
  rw [h.word] at hmem
  refine ⟨⟨?_, ?_⟩, ?_⟩
  · intro j hj
    rw [hmem, hread]
    by_cases hsame : j / 32 = (12 + 14 * n) / 32
    · rw [sentBit_update_same hsame, h.part _ (by omega), ← hsame,
        show 32 * (j / 32) + j % 32 = j from by omega]
    · rw [sentBit_update_ne hsame (by omega) (by omega)]
      exact h.full j (by omega)
  · intro hc j hj hp
    rw [hmem]
    by_cases hsame : j / 32 = (12 + 14 * n) / 32
    · rw [sentBit_update_same hsame]
      exact h.tail (.inr hc) _ (by omega) (by omega)
    · rw [sentBit_update_ne hsame (by omega) (by omega)]
      exact h.blank hc j hj (by omega)
  · have hne : (0 : BitVec 9) ≠ BitVec.ofNat 9 ((12 + 14 * n) / 32) := by
      intro hc
      have := congrArg BitVec.toNat hc
      simp only [BitVec.ofNat_eq_ofNat, BitVec.toNat_ofNat] at this
      rw [Nat.mod_eq_of_lt (show (12 + 14 * n) / 32 < 2 ^ 9 by omega)] at this
      omega
    rw [hmem, Function.update_of_ne hne]
    exact h.saved (by omega)

/-- The frame information is in the memory, and its first word is saved. -/
structure Stored (hdr : BitVec 12) (cleared : Prop) (n : ℕ) (s : FiBench) : Prop
    extends Packed hdr cleared n s where
  we : s.fi.sendpktWe = false
  saved : s.fi.sendpktTmpBuf = s.sendpkt 0

theorem Stored.tick {n : ℕ} (h : Stored hdr cleared n s) (hst : s.fi.state ≠ .loop1)
    (hwe : (s.tick g i).fi.sendpktWe = false)
    (htmp : (s.tick g i).fi.sendpktTmpBuf = s.fi.sendpktTmpBuf) :
    Stored hdr cleared n (s.tick g i) where
  toPacked := h.toPacked.of_eq (tick_sendpkt h.we) (tick_read hst)
  we := hwe
  saved := by rw [htmp, tick_sendpkt h.we]; exact h.saved

/-- The same length, or half or twice of it. -/
def Near (len len' : BitVec 10) : Prop := len' = len ∨ len' = len <<< 1 ∨ len' = len >>> 1

theorem nextFrameLen_near (h : Settled g len) (x y : Bool) :
    Near len (g.nextFrameLen x false y len) := by
  by_cases hon : g.tdmaFunctionEnable = true ∧ g.frameAdjEna = true
  · rw [TdmaSetting.nextFrameLen, if_pos hon]
    split
    · exact Or.inr (Or.inl rfl)
    split
    · exact Or.inr (Or.inr rfl)
    · exact Or.inl rfl
  · refine Or.inl (Eq.trans ?_ (nextFrameLen_rest h))
    rw [TdmaSetting.nextFrameLen, TdmaSetting.nextFrameLen, if_neg hon, if_neg hon]

/-- The words of a build that began with length `len` are handed to the bus: `FI_SET_PKT_CONTENT_MID`. -/
structure Handed (g : TdmaSetting) (cleared : Prop) (len : BitVec 10) (s : FiBench) : Prop
    extends Packed (header g s.currFrameLen) cleared len.toNat s where
  state : s.fi.state = .setPktContentMid
  near : Near len s.currFrameLen
  length : s.fi.writeLength = ((Fpga.fiPktLenByte s.currFrameLen).setWidth 12 + 4) &&& 0xFFC

/-- The last cycle, in which a word may still be under way to the memory. -/
theorem Steady.leads_handed {len₀ : BitVec 10} (h : Steady len s) (hset : Settled g len)
    (hst : s.fi.state = .setPktContentStart) (hbytes : s.fiPktLenByte = Fpga.fiPktLenByte len)
    (hnear : Near len₀ len) (hpacked : ∀ i, Packed (header g len) cleared len₀.toNat (s.tick g i)) :
    Leads (FiBench.tick g) Alone Building (Handed g cleared len₀) s := by
  refine Leads.one (building_of_state hst nofun nofun) fun i hi => ?_
  have hfi : (s.tick g i).fi = { s.fi with
      sendpktWe := false, writeLength := ((Fpga.fiPktLenByte len).setWidth 12 + 4) &&& 0xFFC
      state := .setPktContentMid } := by
    rw [tick_fi, Fi.tick, hst, ← hbytes]
    rfl
  have hsteady := h.tick hset hi (by rw [hfi]) (by rw [hfi])
  refine ⟨?_, by rw [hfi], ?_, ?_⟩
  · rw [hsteady.len]
    exact hpacked i
  · rw [hsteady.len]
    exact hnear
  · rw [hsteady.len, hfi]

/-- A decision that leaves the buffer alone and raises a pulse only with its flag. -/
structure Decides (f f' : Fi) : Prop where
  exp : f'.frameLenExpBch = true → f.frameLenExpBch = true ∨ f'.frmaeLenNeedExpand = true
  cut : f'.frameLenCutBch = true → f.frameLenCutBch = true ∨ f'.frmaeLenNeedHalve = true
  we : f'.sendpktWe = f.sendpktWe
  tmp : f'.sendpktTmpBuf = f.sendpktTmpBuf

theorem decideSlotAdj_decides (f : Fi) (x : FiIn) : Decides f (f.decideSlotAdj g x) := by
  unfold Fi.decideSlotAdj
  split
  · exact ⟨Or.inl, Or.inl, rfl, rfl⟩
  split
  · simp only
    split
    · exact ⟨Or.inl, Or.inl, rfl, rfl⟩
    split
    · exact ⟨fun _ => Or.inr rfl, Or.inl, rfl, rfl⟩
    · exact ⟨Or.inl, Or.inl, rfl, rfl⟩
  · exact ⟨Or.inl, Or.inl, rfl, rfl⟩

theorem decideSlotAdj_cut (f : Fi) (x : FiIn) :
    (f.decideSlotAdj g x).frameLenCutBch = f.frameLenCutBch := by
  unfold Fi.decideSlotAdj
  split
  · rfl
  split
  · simp only
    split
    · rfl
    split <;> rfl
  · rfl

theorem adjIsNeeded_decides {f : Fi} {x : FiIn} (hpast : x.bchState.pastInit = true) :
    Decides f (f.adjIsNeeded g x) ∧ (f.adjIsNeeded g x).state = .adjWinnerPre := by
  have hslot := decideSlotAdj_decides (g := g)
    { f with frameHalfEmpty := decide (f.CanCut g x) } x
  have hcut := decideSlotAdj_cut (g := g) { f with frameHalfEmpty := decide (f.CanCut g x) } x
  simp only [Fi.adjIsNeeded, hpast, if_true, Fi.decideHalve]
  split
  · exact ⟨⟨hslot.exp, fun _ => Or.inr rfl, hslot.we, hslot.tmp⟩, trivial⟩
  · exact ⟨⟨hslot.exp, fun hc => Or.inl (hcut.symm.trans hc), hslot.we, hslot.tmp⟩, trivial⟩

/-- After the decision a pulse is up only with its flag. -/
structure Decided (hdr : BitVec 12) (cleared : Prop) (len : BitVec 10) (n : ℕ) (s : FiBench) : Prop
    extends Stored hdr cleared n s where
  state : s.fi.state = .adjWinnerPre
  len : s.currFrameLen = len
  exp : s.fi.frameLenExpBch = true → s.fi.frmaeLenNeedExpand = true
  cut : s.fi.frameLenCutBch = true → s.fi.frmaeLenNeedHalve = true

theorem Stored.decided {n : ℕ} (h : Stored hdr cleared n s) (hsteady : Steady len s)
    (hset : Settled g len) (hst : s.fi.state = .adjIsNeeded) (hi : Alone i)
    (hpast : i.bchState.pastInit = true) : Decided hdr cleared len n (s.tick g i) := by
  have hfi : (s.tick g i).fi = s.fi.adjIsNeeded g (s.fiIn i) := by rw [tick_fi, Fi.tick, hst]
  obtain ⟨hdec, hstate⟩ := adjIsNeeded_decides (g := g) (f := s.fi) (x := s.fiIn i) hpast
  rw [← hfi] at hdec hstate
  refine ⟨h.tick (by rw [hst]; exact FiState.noConfusion) (hdec.we.trans h.we) hdec.tmp, hstate, ?_, ?_, ?_⟩
  · show g.nextFrameLen _ _ _ _ = _
    rw [hsteady.exp, hsteady.cut, hsteady.len, hi]
    exact nextFrameLen_rest hset
  · intro hc
    refine (hdec.exp hc).resolve_left ?_
    rw [hsteady.exp]
    exact Bool.false_ne_true
  · intro hc
    refine (hdec.cut hc).resolve_left ?_
    rw [hsteady.cut]
    exact Bool.false_ne_true

theorem Settled.next (h : Settled g len) (x y : Bool) :
    Settled g (g.nextFrameLen x false y len) := by
  rcases h with hon | hzero | hsame
  · exact Or.inl hon
  · exact Or.inr (Or.inl hzero)
  · by_cases hon : g.tdmaFunctionEnable = true ∧ g.frameAdjEna = true
    · exact Or.inl hon
    · refine Or.inr ?_
      rw [TdmaSetting.nextFrameLen, if_neg hon]
      by_cases hzero : g.defaultFrameLenUser = 0
      · exact Or.inl hzero
      · rw [if_pos hzero]
        exact Or.inr rfl

theorem Stored.rehead {t : FiBench} {n : ℕ} {len' : BitVec 10} (h : Stored (header g len) cleared n s)
    (hn : n ≤ 64) (hread : t.read = s.read)
    (hmem : t.sendpkt = Function.update s.sendpkt 0 (s.fi.sendpktTmpBuf.extractLsb' 4 28
      ++ (lenTable len').currFrameLenLog2.setWidth 4)) :
    Packed (header g len') cleared n t := by
  have hbit : ∀ j < 32 * 58, 4 ≤ j → sentBit t.sendpkt j = sentBit s.sendpkt j := by
    intro j hj h4
    rw [hmem]
    by_cases hzero : j / 32 = 0
    · refine (sentBit_update_same hzero).trans ?_
      have hj4 : ¬ j % 32 < 4 := by omega
      simp only [BitVec.getLsbD_append, hj4, if_false, BitVec.getLsbD_extractLsb', h.saved]
      rw [sentBit, hzero, show 4 + (j % 32 - 4) = j % 32 from by omega,
        decide_eq_true (show j % 32 - 4 < 28 by omega), Bool.true_and]
      rfl
    · exact sentBit_update_ne (w := 0) hzero (by omega) (by omega)
  have hhead : ∀ j, 4 ≤ j → fiBit (header g len') s.read j = fiBit (header g len) s.read j := by
    intro j h4
    simp only [fiBit, header, BitVec.getLsbD_append, Nat.not_lt.mpr h4, if_false]
  refine ⟨?_, ?_⟩
  · intro j hj
    rw [hread]
    by_cases h4 : 4 ≤ j
    · rw [hbit j (by omega) h4, hhead j h4]
      exact h.bits j hj
    · rw [hmem, fiBit, if_pos (by omega)]
      refine (sentBit_update_same (w := 0) (by omega)).trans ?_
      have hmod : j % 32 = j := by omega
      simp only [header, BitVec.getLsbD_append, hmod, Nat.lt_of_not_le h4, if_true]
  · intro hc j hj hp
    rw [hbit j hj (by omega)]
    exact h.rest hc j hj hp

/-- **The frame length and its header**: from the decision to the hand-over. -/
theorem Decided.leads_handed (h : Decided (header g len) cleared len len.toNat s) (hset : Settled g len)
    (hlen64 : len.toNat ≤ 64) :
    Leads (FiBench.tick g) Alone Building (Handed g cleared len) s := by
  refine Leads.step (building_of_state h.state FiState.noConfusion FiState.noConfusion) fun i hi => ?_
  have hfi : (s.tick g i).fi = { s.fi with
      frameLenExpBch := false, frameLenCutBch := false, state := .adjWinner } := by
    rw [tick_fi, Fi.tick, h.state]
  have hstored := h.toStored.tick (g := g) (i := i) (by rw [h.state]; exact FiState.noConfusion)
    (by rw [hfi]; exact h.we) (by rw [hfi])
  -- the length from here on; it differs from the old one only with a flag
  obtain ⟨len', hlen'⟩ : ∃ len', len' = g.nextFrameLen s.fi.frameLenExpBch false s.fi.frameLenCutBch len :=
    ⟨_, rfl⟩
  have hset' : Settled g len' := by
    rw [hlen']
    exact hset.next _ _
  have hnear : Near len len' := by
    rw [hlen']
    exact nextFrameLen_near hset _ _
  have hsame : s.fi.frmaeLenNeedExpand = false → s.fi.frmaeLenNeedHalve = false → len' = len := by
    intro hexp hcut
    have hexp' : s.fi.frameLenExpBch = false := by
      rw [← Bool.not_eq_true]
      intro hc
      rw [h.exp hc] at hexp
      exact absurd hexp Bool.noConfusion
    have hcut' : s.fi.frameLenCutBch = false := by
      rw [← Bool.not_eq_true]
      intro hc
      rw [h.cut hc] at hcut
      exact absurd hcut Bool.noConfusion
    rw [hlen', hexp', hcut']
    exact nextFrameLen_rest hset
  have hsteady : Steady len' (s.tick g i) := by
    refine ⟨?_, by rw [hfi], by rw [hfi]⟩
    show g.nextFrameLen _ _ _ _ = _
    rw [hi, h.len, hlen']
  generalize s.tick g i = s₁ at hfi hstored hsteady
  have hst₁ : s₁.fi.state = .adjWinner := by rw [hfi]
  refine Leads.step (building_of_state hst₁ FiState.noConfusion FiState.noConfusion) fun i₁ hi₁ => ?_
  have hfi₁ : (s₁.tick g i₁).fi = s₁.fi.adjWinner g (s₁.fiIn i₁) := by rw [tick_fi, Fi.tick, hst₁]
  have hstored₁ := hstored.tick (g := g) (i := i₁) (by rw [hst₁]; exact FiState.noConfusion)
    (by rw [hfi₁]; exact hstored.we) (by rw [hfi₁]; rfl)
  have hsteady₁ := hsteady.tick hset' hi₁ (by rw [hfi₁]; rfl) (by rw [hfi₁]; rfl)
  have hbytes₁ : (s₁.tick g i₁).fiPktLenByte = Fpga.fiPktLenByte len' := by
    rw [← hsteady.len]
    rfl
  have hst₂ : (s₁.tick g i₁).fi.state = if s.fi.frmaeLenNeedExpand ∨ s.fi.frmaeLenNeedHalve then
      FiState.adjFrameLen else .setPktContentStart := by
    rw [hfi₁, hfi]
    rfl
  generalize s₁.tick g i₁ = s₂ at hst₂ hstored₁ hsteady₁ hbytes₁
  by_cases hflag : s.fi.frmaeLenNeedExpand = true ∨ s.fi.frmaeLenNeedHalve = true
  · rw [if_pos hflag] at hst₂
    refine Leads.step (building_of_state hst₂ FiState.noConfusion FiState.noConfusion) fun i₂ hi₂ => ?_
    have hfi₂ : (s₂.tick g i₂).fi = { s₂.fi with
        sendpktAddr := 0, sendpktWe := true
        sendpktDin := s₂.fi.sendpktTmpBuf.extractLsb' 4 28 ++ (lenTable len').currFrameLenLog2.setWidth 4
        state := .setPktContentStart } := by
      rw [tick_fi, Fi.tick, hst₂, ← hsteady₁.len]
      rfl
    have hsteady₂ := hsteady₁.tick hset' hi₂ (by rw [hfi₂]) (by rw [hfi₂])
    have hread₂ : (s₂.tick g i₂).read = s₂.read := tick_read (by rw [hst₂]; exact FiState.noConfusion)
    have hmem₂ : (s₂.tick g i₂).sendpkt = s₂.sendpkt := tick_sendpkt hstored₁.we
    have hbytes₂ : (s₂.tick g i₂).fiPktLenByte = Fpga.fiPktLenByte len' := by
      rw [← hsteady₁.len]
      rfl
    generalize s₂.tick g i₂ = s₃ at hfi₂ hsteady₂ hread₂ hmem₂ hbytes₂
    have hst₃ : s₃.fi.state = .setPktContentStart := by rw [hfi₂]
    refine hsteady₂.leads_handed hset' hst₃ hbytes₂ hnear fun i₃ => ?_
    refine hstored₁.rehead hlen64 ?_ ?_
    · rw [tick_read (by rw [hst₃]; exact FiState.noConfusion), hread₂]
    · rw [tick_sendpkt_write (by rw [hfi₂]), hmem₂, hfi₂]
  · rw [if_neg hflag] at hst₂
    obtain ⟨hexp, hcut⟩ := not_or.mp hflag
    have hlen := hsame (Bool.eq_false_of_not_eq_true hexp) (Bool.eq_false_of_not_eq_true hcut)
    rw [hlen] at hset' hsteady₁ hbytes₁
    refine hsteady₁.leads_handed hset' hst₂ hbytes₁ (Or.inl rfl) fun i₂ => ?_
    exact hstored₁.toPacked.of_eq (tick_sendpkt hstored₁.we)
      (tick_read (by rw [hst₂]; exact FiState.noConfusion))

theorem AtSlot.leads_handed (h : AtSlot (header g len) cleared len len.toNat s) (hset : Settled g len)
    (hlen : 2 ≤ len.toNat) (hlen64 : len.toNat ≤ 64) :
    Leads (FiBench.tick g) Alone Building (Handed g cleared len) s := by
  refine Leads.step (building_of_state h.state FiState.noConfusion FiState.noConfusion) fun i hi => ?_
  have hfi : (s.tick g i).fi = { s.fi with
      addr := i.bchWorkPointer.setWidth 7, sendpktWe := true
      state := if g.slotAdjEna then .adjIsNeededPre else .setPktContentStart } := by
    have heq : s.fi.addr.toNat = (s.fiIn i).currFrameLen.toNat := by
      show _ = s.currFrameLen.toNat
      rw [h.addr, h.len]
    rw [tick_fi, Fi.tick, h.state]
    simp only [if_pos heq]
    rfl
  have hsteady := h.toSteady.tick hset hi (by rw [hfi]) (by rw [hfi])
  have hread : (s.tick g i).read = s.read := tick_read (by rw [h.state]; exact FiState.noConfusion)
  have hbytes : (s.tick g i).fiPktLenByte = Fpga.fiPktLenByte len := by
    rw [← h.len]
    rfl
  have hw : Written (header g len) cleared (12 + 14 * len.toNat) (s.tick g i) := by
    apply h.written.of_eq
    any_goals rw [hfi]
    · exact tick_sendpkt h.we
    · intro j _
      rw [hread]
  generalize s.tick g i = s₁ at hfi hsteady hbytes hw
  have hwe : s₁.fi.sendpktWe = true := by rw [hfi]
  -- the last word goes to the memory in the next cycle
  have hpacked : s₁.fi.state ≠ .loop1 → ∀ i₁, Packed (header g len) cleared len.toNat (s₁.tick g i₁)
      ∧ s₁.fi.sendpktTmpBuf = (s₁.tick g i₁).sendpkt 0 := fun hne i₁ =>
    hw.packed hlen hlen64 (tick_read hne) (tick_sendpkt_write hwe)
  have hst₁ : s₁.fi.state = if g.slotAdjEna then .adjIsNeededPre else .setPktContentStart := by rw [hfi]
  by_cases hadj : g.slotAdjEna = true
  · rw [if_pos hadj] at hst₁
    refine Leads.step (building_of_state hst₁ FiState.noConfusion FiState.noConfusion) fun i₁ hi₁ => ?_
    have hfi₁ : (s₁.tick g i₁).fi = { s₁.fi with sendpktWe := false, state := .adjIsNeeded } := by
      rw [tick_fi, Fi.tick, hst₁]
    obtain ⟨hpk, hsaved⟩ := hpacked (by rw [hst₁]; exact FiState.noConfusion) i₁
    have hstored : Stored (header g len) cleared len.toNat (s₁.tick g i₁) :=
      ⟨hpk, by rw [hfi₁], by rw [hfi₁]; exact hsaved⟩
    have hsteady₁ := hsteady.tick hset hi₁ (by rw [hfi₁]) (by rw [hfi₁])
    have hst₂ : (s₁.tick g i₁).fi.state = .adjIsNeeded := by rw [hfi₁]
    generalize s₁.tick g i₁ = s₂ at hstored hsteady₁ hst₂
    refine Leads.step (building_of_state hst₂ FiState.noConfusion FiState.noConfusion) fun i₂ hi₂ => ?_
    by_cases hpast : i₂.bchState.pastInit = true
    · exact (hstored.decided hsteady₁ hset hst₂ hi₂ hpast).leads_handed hset hlen64
    · have hfi₂ : (s₂.tick g i₂).fi = { s₂.fi with
          frameHalfEmpty := decide (s₂.fi.CanCut g (s₂.fiIn i₂)), state := .setPktContentStart } := by
        rw [tick_fi, Fi.tick, hst₂]
        exact if_neg hpast
      have hstored₂ := hstored.tick (g := g) (i := i₂) (by rw [hst₂]; exact FiState.noConfusion)
        (by rw [hfi₂]; exact hstored.we) (by rw [hfi₂])
      have hsteady₂ := hsteady₁.tick hset hi₂ (by rw [hfi₂]) (by rw [hfi₂])
      have hbytes₂ : (s₂.tick g i₂).fiPktLenByte = Fpga.fiPktLenByte len := by
        rw [← hsteady₁.len]
        rfl
      have hst₃ : (s₂.tick g i₂).fi.state = .setPktContentStart := by rw [hfi₂]
      refine hsteady₂.leads_handed hset hst₃ hbytes₂ (Or.inl rfl) fun i₃ => ?_
      exact hstored₂.toPacked.of_eq (tick_sendpkt hstored₂.we)
        (tick_read (by rw [hst₃]; exact FiState.noConfusion))
  · rw [if_neg hadj] at hst₁
    refine hsteady.leads_handed hset hst₁ hbytes (Or.inl rfl) fun i₁ => ?_
    exact (hpacked (by rw [hst₁]; exact FiState.noConfusion) i₁).1

/-- **A build**, from its first cycle to the hand-over, for every content of the slot table. -/
theorem Starting.leads_handed (h : Starting cleared len s) (hset : Settled g len) (hlen : 2 ≤ len.toNat)
    (hlen64 : len.toNat ≤ 64) :
    Leads (FiBench.tick g) Alone Building (Handed g cleared len) s := by
  refine (h.leads_atSlot hset).trans fun t ht => ?_
  refine (ht.leads_last hset (Nat.zero_le _) hlen64).trans fun r hr => ?_
  exact hr.leads_handed hset hlen hlen64

end FiBench

end VanetTdma.Fpga
