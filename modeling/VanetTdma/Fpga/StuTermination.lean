import VanetTdma.Fpga.StuBench

/-!
# When the slot-table updater returns to idle

A received frame information is worked through to `STU_END` exactly when three things do not happen:

* its length code is 7 or 8: the seven-bit address never equals 128 or 256;
* an unlocked own slot meets a tag with sid 0 and a busy field other than `00`: the error branch of
  `STU_FI_LOOP_2` assigns no next state;
* such a slot meets `(0, 00)` while `curr_frame_len` is 512 or more: the nine-bit address of the INB
  machine never equals it.

`stu_returns_iff` states this for every packet, table and setting and every further course of
`stu_start`.
-/

namespace VanetTdma.Fpga

open VanetTdma.Clocked VanetTdma.DualPort

namespace Bench

variable {c : StuSetting} {s : Bench} {mem : BitVec 7 → SlotEntry} {L : BitVec 9} {a m : ℕ}

/-! ### The INB machine -/

/-- The updater waits for the INB machine about slot `a`.  Port A shows an entry whose occupier is not the
sid asked for. -/
structure Asking (c : StuSetting) (mem : BitVec 7 → SlotEntry) (L : BitVec 9) (a : ℕ) (s : Bench) :
    Prop where
  state : s.unit.stu.state = .fiInbWait
  we : s.unit.stu.we = false
  en : s.unit.stu.rcvpktEn = true
  frameLen : s.unit.stu.fiFrameLen = L
  sender : s.unit.stu.senderSid = c.rcvPkt.senderSid
  addr : s.unit.stu.addr.toNat = a
  cursor : Cursor (a + 1) 0 s.unit.stu
  entry : s.ram.doutA = s.ram.cell s.unit.stu.addr
  table : s.ram.cell = mem
  asked : s.ram.doutA.occupierSid ≠ s.unit.stu.inbInputSti

theorem Asking.works (h : Asking c mem L a s) : Works c L s :=
  works_of_state h.state nofun nofun fun _ => nofun

theorem Asking.next_stu (h : Asking c mem L a s) (hdone : s.unit.inb.done = false) :
    (s.next c).unit.stu = { s.unit.stu with inbStart := false } := by
  rw [Bench.next_stu, Stu.tick, h.state]
  simp only [Stu.fiInbWait, StuUnit.stuIn, hdone, Bool.false_eq_true, if_false]

theorem Asking.next (h : Asking c mem L a s) (hdone : s.unit.inb.done = false) :
    Asking c mem L a (s.next c) := by
  have hstu := h.next_stu hdone
  have hdout : (s.next c).ram.doutA = s.ram.doutA := by
    rw [next_doutA h.we, ← h.entry]
  refine ⟨?_, ?_, ?_, ?_, ?_, ?_, ?_, ?_, (funext (next_cell h.we)).trans h.table, ?_⟩
  · rw [hstu]
    exact h.state
  · rw [hstu]
    exact h.we
  · rw [hstu]
    exact h.en
  · rw [hstu]
    exact h.frameLen
  · rw [hstu]
    exact h.sender
  · rw [hstu]
    exact h.addr
  · rw [hstu]
    exact ⟨h.cursor.bits, h.cursor.index, h.cursor.word⟩
  · rw [hdout, hstu, next_cell h.we]
    exact h.entry
  · rw [hdout, hstu]
    exact h.asked

theorem next_inb_eq (s : Bench) : (s.next c).unit.inb
    = s.unit.inb.tick s.unit.stu.inbStart s.unit.stu.inbInputSti c.currFrameLen s.ram.doutA := rfl

/-- The INB machine compares slot numbers and has come to number `m`. -/
structure Comparing (c : StuSetting) (mem : BitVec 7 → SlotEntry) (L : BitVec 9) (a m : ℕ) (s : Bench) :
    Prop extends Asking c mem L a s where
  inb : s.unit.inb.state = .loop
  done : s.unit.inb.done = false
  number : s.unit.inb.rcvpktAddrb.toNat = m

/-- A number other than `curr_frame_len` leads to the next one, modulo the nine bits of the counter, and finds
nothing. -/
theorem Comparing.until_succ (h : Comparing c mem L a m s) (hm : m ≠ c.currFrameLen.toNat)
    (hflag : s.unit.inb.notNewneighborFlag = false) :
    Until (Bench.next c) (Works c L)
      (fun t => Comparing c mem L a ((m + 1) % 512) t ∧ t.unit.inb.notNewneighborFlag = false) s := by
  have hask := h.toAsking.next h.done
  have hinb : (s.next c).unit.inb = { s.unit.inb with state := .loopSetaddr } := by
    rw [next_inb_eq, Inb.tick, h.inb]
    simp only [h.number, if_neg hm, if_neg h.asked]
  refine Until.step h.works ?_
  generalize s.next c = s₁ at hask hinb
  have hask₁ := hask.next (by rw [hinb]; exact h.done)
  have hinb₁ : (s₁.next c).unit.inb = { s₁.unit.inb with
      rcvpktAddrb := s₁.unit.inb.rcvpktAddrb + 1, state := .loopSetaddrWait } := by
    rw [next_inb_eq, Inb.tick, hinb]
  refine Until.step hask.works ?_
  generalize s₁.next c = s₂ at hask₁ hinb₁
  have hdone₂ : s₂.unit.inb.done = false := by
    rw [hinb₁, hinb]
    exact h.done
  have hinb₂ : (s₂.next c).unit.inb = { s₂.unit.inb with state := .loop } := by
    rw [next_inb_eq, Inb.tick, hinb₁]
  refine Until.one hask₁.works ⟨⟨hask₁.next hdone₂, ?_, ?_, ?_⟩, ?_⟩
  · rw [hinb₂]
  · rw [hinb₂]
    exact hdone₂
  · rw [hinb₂, hinb₁, hinb]
    simp only [BitVec.toNat_add, h.number, BitVec.ofNat_eq_ofNat, BitVec.toNat_ofNat]
  · rw [hinb₂, hinb₁, hinb]
    exact hflag

theorem Comparing.until_left (h : Comparing c mem L a m s) (hm : m = c.currFrameLen.toNat)
    (hflag : s.unit.inb.notNewneighborFlag = false) (ha : a < 127) :
    Until (Bench.next c) (Works c L) (Scan c mem L .first (a + 1) 0) s := by
  have hask := h.toAsking.next h.done
  have hinb : (s.next c).unit.inb = { s.unit.inb with state := .inbEnd } := by
    rw [next_inb_eq, Inb.tick, h.inb]
    simp only [h.number, if_pos hm]
  refine Until.step h.works ?_
  generalize s.next c = s₁ at hask hinb
  have hdone₁ : s₁.unit.inb.done = false := by
    rw [hinb]
    exact h.done
  have hask₁ := hask.next hdone₁
  have hstu₁ := hask.next_stu hdone₁
  have hinb₁ : (s₁.next c).unit.inb = { s₁.unit.inb with
      rcvpktEn := false, done := true, state := .idle } := by
    rw [next_inb_eq, Inb.tick, hinb]
  refine Until.step hask.works ?_
  generalize s₁.next c = s₂ at hask₁ hstu₁ hinb₁
  have hflag₂ : s₂.unit.inb.notNewneighborFlag = false := by
    rw [hinb₁, hinb]
    exact hflag
  have hpast : Past c mem L a s₂ := by
    refine ⟨?_, ?_, ?_, hask₁.en, hask₁.frameLen, hask₁.sender, hask₁.addr, hask₁.cursor,
      (funext (next_cell hask₁.we)).trans hask₁.table⟩
    · rw [hstu₁]
    · rw [hinb₁]
    · rw [hinb₁]
  have hstu₂ : (s₂.next c).unit.stu = { s₂.unit.stu with inbStart := false }.judged .first none := by
    rw [Bench.next_stu, Stu.tick, hask₁.state]
    have hdone₂ : s₂.unit.inb.done = true := by rw [hinb₁]
    simp only [Stu.fiInbWait, StuUnit.stuIn, hdone₂, hflag₂, if_true, Bool.false_eq_true, if_false]
  have hleft := hpast.until_scan_of_judged hask₁.we ha hask₁.works rfl hstu₂
  rwa [Option.getD_none, Function.update_eq_self] at hleft

theorem Comparing.until_left_of_le (h : Comparing c mem L a m s) (hm : m ≤ c.currFrameLen.toNat)
    (hlen : c.currFrameLen.toNat < 512) (hflag : s.unit.inb.notNewneighborFlag = false) (ha : a < 127) :
    Until (Bench.next c) (Works c L) (Scan c mem L .first (a + 1) 0) s := by
  induction hd : c.currFrameLen.toNat - m generalizing m s with
  | zero => exact h.until_left (by omega) hflag ha
  | succ d ih =>
    refine (h.until_succ (by omega) hflag).trans ?_
    rintro t ⟨ht, hflag'⟩
    rw [Nat.mod_eq_of_lt (by omega)] at ht
    exact ih ht (by omega) hflag' (by omega)

/-- The updater has just raised `inb_start`. -/
structure Raised (c : StuSetting) (mem : BitVec 7 → SlotEntry) (L : BitVec 9) (a : ℕ) (s : Bench) :
    Prop extends Asking c mem L a s where
  inb : InbRests s.unit.inb
  inbStart : s.unit.stu.inbStart = true

theorem Raised.until_comparing (h : Raised c mem L a s) :
    Until (Bench.next c) (Works c L)
      (fun t => Comparing c mem L a 0 t ∧ t.unit.inb.notNewneighborFlag = false) s := by
  have hask := h.toAsking.next h.inb.done
  have hinb : (s.next c).unit.inb = { s.unit.inb with
      done := false, notNewneighborFlag := false, rcvpktEn := true, rcvpktAddrb := 0
      state := .pre } := by
    rw [next_inb_eq, Inb.tick, h.inb.state]
    simp only [h.inbStart, if_true]
  refine Until.step h.works ?_
  generalize s.next c = s₁ at hask hinb
  have hinb₁ : (s₁.next c).unit.inb = { s₁.unit.inb with state := .loop } := by
    rw [next_inb_eq, Inb.tick, hinb]
  refine Until.one hask.works ⟨⟨hask.next (by rw [hinb]), ?_, ?_, ?_⟩, ?_⟩
  · rw [hinb₁]
  · rw [hinb₁, hinb]
  · rw [hinb₁, hinb]
    rfl
  · rw [hinb₁, hinb]

/-! ### Judging in the first pass -/

/-- An entry and a tag on which the first pass does not get on. -/
def Stalls (c : StuSetting) (e : SlotEntry) (t : FiTag) : Prop :=
  e.locker = false ∧ e.occupierSid = c.globalSid ∧ c.globalSid ≠ 0 ∧ t.occupierSid = 0
    ∧ (t.busy ≠ 0 ∨ 512 ≤ c.currFrameLen.toNat)

instance (e : SlotEntry) (t : FiTag) : Decidable (Stalls c e t) :=
  inferInstanceAs (Decidable (_ ∧ _))

theorem Judging.next_stu_first (h : Judging c mem L .first a s) :
    (s.next c).unit.stu = s.unit.stu.fiLoop2 (s.unit.stuIn (c.env false) s.ram.doutA) := by
  rw [Bench.next_stu, Stu.tick, h.state]
  rfl

/-- An entry and a tag about which the first pass does not ask the INB machine. -/
def Decided (c : StuSetting) (e : SlotEntry) (t : FiTag) : Prop :=
  e.occupierSid ≠ c.globalSid ∨ t.occupierSid ≠ 0 ∨ c.globalSid = 0

theorem Judging.until_scan_first (h : Judging c mem L .first a s) (ha : a < 127)
    (hdec : Decided c (mem (BitVec.ofNat 7 a)) (c.rcvPkt.tag a)) :
    Until (Bench.next c) (Works c L) (Scan c (judgeAt c .first a mem) L .first (a + 1) 0) s := by
  have hpast := h.toSlot.past h.cursor
  have hu : s.unit.stu = { s.unit.stu with inbStart := false } := by rw [← h.inbStart]
  have hstu := h.next_stu_first
  simp only [Stu.fiLoop2, StuUnit.stuIn, StuSetting.env, h.doutA, h.tag, h.sender, h.latched] at hstu
  by_cases hne : (mem (BitVec.ofNat 7 a)).occupierSid ≠ c.globalSid
  · rw [if_pos hne] at hstu
    rw [judgeAt_of_eq]
    · exact hpast.until_scan ha h.works hstu
    · simp only [judge, h.unlocked, Bool.false_eq_true, if_false, if_pos hne]
  by_cases hother : (c.rcvPkt.tag a).occupierSid ≠ c.globalSid ∧ (c.rcvPkt.tag a).occupierSid ≠ 0
  · rw [if_neg hne, if_pos hother] at hstu
    have hnext := hpast.until_scan_of_judged h.we ha h.works hu hstu
    simp only [judgeAt, judge, h.unlocked, Bool.false_eq_true, if_false, if_neg hne, if_pos hother]
    exact hnext
  by_cases hown : (c.rcvPkt.tag a).occupierSid = c.globalSid
  · rw [if_neg hne, if_neg hother, if_pos hown] at hstu
    have hnext := hpast.until_scan_of_judged h.we ha h.works hu hstu
    simp only [judgeAt, judge, h.unlocked, Bool.false_eq_true, if_false, if_neg hne, if_neg hother,
      if_pos hown]
    exact hnext
  -- neither another node nor this one: the tag is 0 and the sid is not, against `hdec`
  have hzero : (c.rcvPkt.tag a).occupierSid = 0 := by
    by_contra hnz
    exact hother ⟨hown, hnz⟩
  rcases hdec with h' | h' | hg
  · exact absurd h' hne
  · exact absurd hzero h'
  · exact absurd (hzero.trans hg.symm) hown

section OwnFree

variable (h : Judging c mem L .first a s)
  (hown : (mem (BitVec.ofNat 7 a)).occupierSid = c.globalSid) (hsid : c.globalSid ≠ 0)
  (htag : (c.rcvPkt.tag a).occupierSid = 0)

include h hown hsid htag

/-- An own slot that the sender reports as nobody's: the INB machine is asked about `(0, 00)`, and any
other busy field leaves every register as it is. -/
theorem Judging.next_stu_free : (s.next c).unit.stu =
    if (c.rcvPkt.tag a).busy = 0 then
      { s.unit.stu with state := .fiInbWait, inbInputSti := 0, inbStart := true }
    else s.unit.stu := by
  rw [h.next_stu_first, ← h.tag]
  rw [← h.tag] at htag
  simp only [Stu.fiLoop2, StuUnit.stuIn, StuSetting.env, h.doutA, hown, htag, ne_eq, not_true, if_false,
    and_false, Ne.symm hsid]

theorem Judging.raised (hbusy : (c.rcvPkt.tag a).busy = 0) : Raised c mem L a (s.next c) := by
  have hstu := h.next_stu_free hown hsid htag
  rw [if_pos hbusy] at hstu
  have hdout : (s.next c).ram.doutA = s.ram.doutA := by
    rw [next_doutA h.we, ← h.entry]
  refine ⟨⟨?_, ?_, ?_, ?_, ?_, ?_, ?_, ?_, (funext (next_cell h.we)).trans h.table, ?_⟩,
    next_inb h.inb.state h.inb.en h.inbStart, ?_⟩
  · rw [hstu]
  · rw [hstu]
    exact h.we
  · rw [hstu]
    exact h.en
  · rw [hstu]
    exact h.frameLen
  · rw [hstu]
    exact h.sender
  · rw [hstu]
    exact h.addr
  · rw [hstu]
    exact ⟨h.cursor.bits, h.cursor.index, h.cursor.word⟩
  · rw [hdout, hstu, next_cell h.we]
    exact h.entry
  · rw [hdout, hstu, h.doutA, hown]
    exact hsid
  · rw [hstu]

theorem Judging.again (hbusy : (c.rcvPkt.tag a).busy ≠ 0) : Judging c mem L .first a (s.next c) := by
  have hstu := h.next_stu_free hown hsid htag
  rw [if_neg hbusy] at hstu
  have hslot : Slot c mem L a (s.next c) := by
    apply h.toSlot.next <;> rw [hstu]
    · exact h.we
    · exact h.inbStart
    · exact h.en
    · exact h.frameLen
    · exact h.sender
  refine ⟨hslot, ?_, ?_, ?_, ?_, h.unlocked⟩
  · rw [hstu]
    exact h.state
  · rw [hstu]
    exact h.cursor
  · rw [hstu]
    exact h.tag
  · rw [hstu]
    exact h.latched

end OwnFree

/-- **One slot of the first pass** about which the INB machine is not asked. -/
theorem Scan.until_succ_decided (h : Scan c mem L .first a 0 s) (haL : a ≠ L.toNat) (ha : a < 64)
    (hdec : Decided c (mem (BitVec.ofNat 7 a)) (c.rcvPkt.tag a)) :
    Until (Bench.next c) (Works c L) (Scan c (judgeAt c .first a mem) L .first (a + 1) 0) s := by
  refine (h.until_full haL ha (Nat.zero_le 14)).trans ?_
  intro t ht
  rcases ht.until_judging haL ha with ⟨hlock, hnext⟩ | hjudge
  · rw [judgeAt_of_eq]
    · exact hnext
    · simp only [judge, hlock, if_true]
  · exact Until.step ht.works (hjudge.until_scan_first (by omega) hdec)

/-- **One slot of the first pass** that does not stall: the entry becomes the one `judge` makes of it.  About an
own slot that the sender reports as nobody's the INB machine is asked for the sid 0, which it does not find. -/
theorem Scan.until_succ_first (h : Scan c mem L .first a 0 s) (haL : a ≠ L.toNat) (ha : a < 64)
    (hstall : ¬ Stalls c (mem (BitVec.ofNat 7 a)) (c.rcvPkt.tag a)) :
    Until (Bench.next c) (Works c L) (Scan c (judgeAt c .first a mem) L .first (a + 1) 0) s := by
  by_cases hdec : Decided c (mem (BitVec.ofNat 7 a)) (c.rcvPkt.tag a)
  · exact h.until_succ_decided haL ha hdec
  simp only [Decided, ne_eq, not_or, not_not] at hdec
  obtain ⟨hown, htag, hsid⟩ := hdec
  have hkept : judgeAt c .first a mem = mem := by
    apply judgeAt_of_eq
    have hne : ¬ (c.rcvPkt.tag a).occupierSid = c.globalSid := fun heq => hsid (heq.symm.trans htag)
    simp only [judge, hown, ne_eq, not_true, if_false, htag, and_false]
    rw [htag] at hne
    rw [if_neg hne, ite_self]
  rw [hkept]
  refine (h.until_full haL ha (Nat.zero_le 14)).trans ?_
  intro t ht
  rcases ht.until_judging haL ha with ⟨-, hnext⟩ | hjudge
  · exact hnext
  refine Until.step ht.works (Until.step hjudge.works ?_)
  have hbusy : (c.rcvPkt.tag a).busy = 0 := by
    by_contra hne
    exact hstall ⟨hjudge.unlocked, hown, hsid, htag, Or.inl hne⟩
  have hlen : c.currFrameLen.toNat < 512 := by
    by_contra hge
    exact hstall ⟨hjudge.unlocked, hown, hsid, htag, Or.inr (Nat.le_of_not_lt hge)⟩
  refine (hjudge.raised hown hsid htag hbusy).until_comparing.trans ?_
  rintro r ⟨hr, hflag⟩
  exact hr.until_left_of_le (Nat.zero_le _) hlen hflag (by omega)

/-! ### A whole pass -/

/-- The memory after `n` slots of pass `p`. -/
def passTable (c : StuSetting) (p : Pass) (n : ℕ) (mem : BitVec 7 → SlotEntry) : BitVec 7 → SlotEntry :=
  (List.range n).foldl (fun mem a => judgeAt c p a mem) mem

theorem passTable_succ (p : Pass) (n : ℕ) (mem : BitVec 7 → SlotEntry) :
    passTable c p (n + 1) mem = judgeAt c p n (passTable c p n mem) := by
  simp only [passTable, List.range_succ, List.foldl_append, List.foldl_cons, List.foldl_nil]

theorem passTable_apply {p : Pass} {n : ℕ} (hn : n ≤ 128) (b : BitVec 7) :
    passTable c p n mem b = if b.toNat < n
      then judge p c.globalSid c.rcvPkt.senderSid (c.rcvPkt.tag b.toNat) (mem b) else mem b := by
  induction n with
  | zero => rfl
  | succ n ih =>
    have hih := ih (by omega)
    have hb := b.isLt
    rw [passTable_succ, judgeAt]
    by_cases heq : b = BitVec.ofNat 7 n
    · have hnat : b.toNat = n := by
        rw [heq, BitVec.toNat_ofNat]
        omega
      rw [← heq, Function.update_self, hih, if_neg (by omega), if_pos (by omega), hnat]
    · have hnat : b.toNat ≠ n := by
        rintro rfl
        exact heq (by rw [BitVec.ofNat_toNat, BitVec.setWidth_eq])
      rw [Function.update_of_ne heq, hih]
      by_cases hlt : b.toNat < n
      · rw [if_pos hlt, if_pos (by omega)]
      · rw [if_neg hlt, if_neg (by omega)]

theorem passTable_of_le {p : Pass} {n : ℕ} (hn : n < 128) :
    passTable c p n mem (BitVec.ofNat 7 n) = mem (BitVec.ofNat 7 n) := by
  rw [passTable_apply (by omega), if_neg]
  rw [BitVec.toNat_ofNat]
  omega

theorem Scan.until_first (h : Scan c mem L .first 0 0 s) (hL : L.toNat ≤ 64) {n : ℕ}
    (hn : n ≤ L.toNat)
    (hstall : ∀ b < n, ¬ Stalls c (mem (BitVec.ofNat 7 b)) (c.rcvPkt.tag b)) :
    Until (Bench.next c) (Works c L) (Scan c (passTable c .first n mem) L .first n 0) s := by
  induction n with
  | zero => exact Until.here h
  | succ n ih =>
    refine (ih (by omega) fun b hb => hstall b (by omega)).trans ?_
    intro t ht
    rw [passTable_succ]
    refine ht.until_succ_first (by omega) (by omega) ?_
    rw [passTable_of_le (by omega)]
    exact hstall n (Nat.lt_succ_self n)

theorem Scan.until_second (h : Scan c mem L .second 0 0 s) (hL : L.toNat ≤ 64) {n : ℕ}
    (hn : n ≤ L.toNat) :
    Until (Bench.next c) (Works c L) (Scan c (passTable c .second n mem) L .second n 0) s := by
  induction n with
  | zero => exact Until.here h
  | succ n ih =>
    refine (ih (by omega)).trans ?_
    intro t ht
    rw [passTable_succ]
    exact ht.until_succ_second (by omega) (by omega)

/-! ### From the start pulse to `STU_END` -/

/-- `stu_fi_frame_len` of a packet. -/
def fiFrameLen (pkt : RcvPkt) : BitVec 9 := (1 : BitVec 9) <<< pkt.frameLenCode

theorem fiFrameLen_le {pkt : RcvPkt} (h7 : pkt.frameLenCode ≠ 7) (h8 : pkt.frameLenCode ≠ 8) :
    (fiFrameLen pkt).toNat ≤ 64 := by
  have key : ∀ x : BitVec 4, x ≠ 7 → x ≠ 8 → ((1 : BitVec 9) <<< x).toNat ≤ 64 := by decide
  exact key _ h7 h8

theorem le_fiFrameLen {pkt : RcvPkt} (h : pkt.frameLenCode = 7 ∨ pkt.frameLenCode = 8) :
    128 ≤ (fiFrameLen pkt).toNat := by
  unfold fiFrameLen
  rcases h with h | h <;> rw [h] <;> decide

theorem Quiet.until_scan (h : Quiet s) :
    Until (Bench.next c) (Works c (fiFrameLen c.rcvPkt))
      (Scan c s.ram.cell (fiFrameLen c.rcvPkt) .first 0 0) (s.tick c true) := by
  have hstu : (s.tick c true).unit.stu = { s.unit.stu with
      done := false, rcvpktEn := true, rcvpktAddrb := rxTypeAddr, addr := 0
      state := .dispatchWait } := by
    show s.unit.stu.tick _ = _
    rw [Stu.tick, h.state]
    rfl
  have hinb : InbRests (s.tick c true).unit.inb := next_inb (c := c) h.inb h.inbEn h.inbStart
  have hcell : (s.tick c true).ram.cell = s.ram.cell := funext (next_cell (c := c) h.we)
  generalize s.tick c true = s₁ at hstu hinb hcell
  have hstu₁ : (s₁.next c).unit.stu = { s₁.unit.stu with state := .dispatch } := by
    rw [next_stu, Stu.tick, hstu]
  have hwe₁ : s₁.unit.stu.we = false := by rw [hstu]; exact h.we
  have hstart₁ : s₁.unit.stu.inbStart = false := by rw [hstu]; exact h.inbStart
  have hen₁ : s₁.unit.stu.rcvpktEn = true := by rw [hstu]
  have hinb₁ := next_inb (c := c) hinb.state hinb.en hstart₁
  have hcell₁ : (s₁.next c).ram.cell = s.ram.cell := (funext (next_cell hwe₁)).trans hcell
  have hdout₁ := next_rcvpktDoutb (c := c) hen₁ hinb.en
  refine Until.step (works_of_state (congrArg Stu.state hstu) StuState.noConfusion
    StuState.noConfusion fun _ => StuState.noConfusion) ?_
  generalize s₁.next c = s₂ at hstu₁ hinb₁ hcell₁ hdout₁
  have hstu₂ : (s₂.next c).unit.stu = { s₂.unit.stu with
      index := 12, fiPerSlotIndex := 0
      fiFrameLen := (1 : BitVec 9) <<< (s₂.unit.rcvpktDoutb.extractLsb' 0 4)
      senderSid := s₂.unit.rcvpktDoutb.extractLsb' 4 8
      state := .fiLoop .first } := by
    rw [next_stu, Stu.tick, hstu₁]
    rfl
  have hwe₂ : s₂.unit.stu.we = false := by rw [hstu₁]; exact hwe₁
  have hstart₂ : s₂.unit.stu.inbStart = false := by rw [hstu₁]; exact hstart₁
  have hen₂ : s₂.unit.stu.rcvpktEn = true := by rw [hstu₁]; exact hen₁
  have hword₂ : s₂.unit.stu.rcvpktAddrb = rxTypeAddr := by rw [hstu₁, hstu]
  refine Until.one (works_of_state (congrArg Stu.state hstu₁) StuState.noConfusion
    StuState.noConfusion fun _ => StuState.noConfusion) ?_
  refine ⟨⟨?_, ?_, next_inb hinb₁.state hinb₁.en hstart₂, ?_, ?_, ?_, ?_, ?_,
    (funext (next_cell hwe₂)).trans hcell₁⟩, ?_, ⟨?_, ?_, ?_⟩, ?_, ?_⟩
  · rw [hstu₂]
    exact hwe₂
  · rw [hstu₂]
    exact hstart₂
  · rw [hstu₂]
    exact hen₂
  · rw [hstu₂, hdout₁, hstu]
    rfl
  · rw [hstu₂, hdout₁, hstu]
    rfl
  · rw [hstu₂, hstu₁, hstu]
    rfl
  · rw [next_doutA hwe₂, next_cell hwe₂, hstu₂]
  · rw [hstu₂]
  · rw [hstu₂]
    rfl
  · rw [hstu₂]
    rfl
  · rw [hstu₂]
    exact hword₂
  · rw [next_rcvpktDoutb hen₂ hinb₁.en, hstu₂]
  · intro j hj
    exact absurd hj (Nat.not_lt_zero j)

theorem Scan.until_second_start (h : Scan c mem L .first a 0 s) (ha : a = L.toNat) :
    Until (Bench.next c) (Works c L) (Scan c mem L .second 0 0) s := by
  have hstu : (s.next c).unit.stu = { s.unit.stu with we := false, state := .loopBchEnd } := by
    rw [next_stu, Stu.tick, h.state]
    refine (Stu.fiLoop_endPass ?_).trans rfl
    rw [h.addr, h.frameLen]
    exact ha
  have hslot : Slot c mem L a (s.next c) := by
    apply h.toSlot.next <;> rw [hstu]
    · exact h.inbStart
    · exact h.en
    · exact h.frameLen
    · exact h.sender
  refine Until.step h.works ?_
  generalize s.next c = s₁ at hstu hslot
  have hstu₁ : (s₁.next c).unit.stu = { s₁.unit.stu with
      index := 12, addr := 0, fiPerSlotIndex := 0, rcvpktAddrb := rxTypeAddr
      state := .fiLoopPre .second } := by
    rw [next_stu, Stu.tick, hstu]
  have hinb₁ := next_inb (c := c) hslot.inb.state hslot.inb.en hslot.inbStart
  refine Until.step (works_of_state (congrArg Stu.state hstu) StuState.noConfusion
    StuState.noConfusion fun _ => StuState.noConfusion) ?_
  refine until_scan_of_pre ?_ ?_ ?_ hinb₁ ?_ ?_ ?_ ?_ ?_
    ((funext (next_cell hslot.we)).trans hslot.table)
  all_goals rw [hstu₁]
  · exact hslot.we
  · exact hslot.inbStart
  · exact hslot.en
  · exact hslot.frameLen
  · exact hslot.sender
  · rfl
  · exact ⟨rfl, rfl, rfl⟩

/-- The updater is in `STU_END` over the table `mem`, and quiet after the next edge. -/
structure Ending (c : StuSetting) (mem : BitVec 7 → SlotEntry) (s : Bench) : Prop where
  state : s.unit.stu.state = .stuEnd
  table : s.ram.cell = mem
  quiet : Quiet (s.next c)
  kept : (s.next c).ram.cell = mem

theorem Scan.until_stuEnd (h : Scan c mem L .second a 0 s) (ha : a = L.toNat) :
    Until (Bench.next c) (Works c L) (Ending c mem) s := by
  have hstu : (s.next c).unit.stu = { s.unit.stu with we := false }.endPass c.currFrameLen .second := by
    rw [next_stu, Stu.tick, h.state]
    apply Stu.fiLoop_endPass
    rw [h.addr, h.frameLen]
    exact ha
  have hinb := next_inb (c := c) h.inb.state h.inb.en h.inbStart
  have htable : (s.next c).ram.cell = mem := (funext (next_cell h.we)).trans h.table
  refine Until.one h.works ?_
  generalize s.next c = s₁ at hstu hinb htable
  have hend : s₁.unit.stu.state = .stuEnd := by rw [hstu]; rfl
  have hstart : s₁.unit.stu.inbStart = false := by rw [hstu]; exact h.inbStart
  have hwe : s₁.unit.stu.we = false := by rw [hstu]; rfl
  have hstu₁ : (s₁.next c).unit.stu = { s₁.unit.stu with
      frameLenExpDp := false, rcvpktEn := false, done := true, state := .idle } := by
    rw [next_stu, Stu.tick, hend]
  have hinb₁ := next_inb (c := c) hinb.state hinb.en hstart
  refine ⟨hend, htable, ⟨?_, ?_, ?_, hinb₁.state, hinb₁.en⟩, (funext (next_cell hwe)).trans htable⟩
  · rw [hstu₁]
  · rw [hstu₁]
    exact hwe
  · rw [hstu₁]
    exact hstart

/-- The memory after both passes over a packet. -/
def mergedTable (c : StuSetting) (mem : BitVec 7 → SlotEntry) : BitVec 7 → SlotEntry :=
  passTable c .second (fiFrameLen c.rcvPkt).toNat (passTable c .first (fiFrameLen c.rcvPkt).toNat mem)

/-- **The updater gets through** a packet that neither is too long nor stalls it, and leaves the table that the
two passes make. -/
theorem Quiet.until_stuEnd (h : Quiet s) (hL : (fiFrameLen c.rcvPkt).toNat ≤ 64)
    (hstall : ∀ b < (fiFrameLen c.rcvPkt).toNat,
      ¬ Stalls c (s.ram.cell (BitVec.ofNat 7 b)) (c.rcvPkt.tag b)) :
    Until (Bench.next c) (Works c (fiFrameLen c.rcvPkt)) (Ending c (mergedTable c s.ram.cell))
      (s.tick c true) := by
  refine h.until_scan.trans fun t ht => ?_
  refine (ht.until_first hL (Nat.le_refl _) hstall).trans fun t ht => ?_
  refine (ht.until_second_start rfl).trans fun t ht => ?_
  refine (ht.until_second hL (Nat.le_refl _)).trans fun t ht => ?_
  exact ht.until_stuEnd rfl

/-! ### Where the updater is caught -/

/-- The states of the first pass. -/
def FirstPass : StuState → Prop
  | .fiLoopPre p | .fiLoop p | .fiLoopSetaddrPre p | .fiLoopSetaddr p | .fiJudge p | .fiClr p =>
    p = .first
  | .fiInbWait => True
  | _ => False

/-- The first pass over 128 slots or more. -/
structure Endless (u : Stu) : Prop where
  pass : FirstPass u.state
  len : 128 ≤ u.fiFrameLen.toNat

section Endless

variable {i : StuIn} {u : Stu}

theorem endless_judged (hlen : 128 ≤ u.fiFrameLen.toNat) (o : Option SlotEntry) :
    Endless (u.judged .first o) := by
  cases o with
  | none => exact ⟨rfl, hlen⟩
  | some e => exact ⟨rfl, hlen⟩

/-- The pass has no end: the address has seven bits. -/
theorem Endless.fiLoop (h : Endless u) : Endless (u.fiLoop .first i) := by
  have haddr : u.addr.toNat ≠ u.fiFrameLen.toNat := by
    have := u.addr.isLt
    have := h.len
    omega
  by_cases hfull : u.fiPerSlotIndex.toNat = fiPerSlotBitsnum
  · rw [Stu.fiLoop_full haddr hfull]
    refine ⟨?_, h.len⟩
    cases i.dout.locker <;> exact rfl
  by_cases hb : u.index.toNat % 32 = 0
  · rw [Stu.fiLoop_word haddr hfull hb]
    exact ⟨rfl, h.len⟩
  · rw [Stu.fiLoop_bit haddr hfull hb]
    exact ⟨h.pass, h.len⟩

theorem Endless.fiLoop2 (h : Endless u) : Endless (u.fiLoop2 i) := by
  unfold Stu.fiLoop2
  split
  · exact ⟨rfl, h.len⟩
  split
  · exact endless_judged h.len _
  split
  · exact endless_judged h.len _
  split
  · exact ⟨trivial, h.len⟩
  · exact h

theorem Endless.fiInbWait (h : Endless u) : Endless (u.fiInbWait i) := by
  unfold Stu.fiInbWait
  split
  · exact endless_judged (u := { u with inbStart := false }) h.len _
  · exact ⟨h.pass, h.len⟩

theorem Endless.tick (h : Endless u) : Endless (u.tick i) := by
  have hpass := h.pass
  unfold Stu.tick
  cases hst : u.state <;> rw [hst] at hpass
  case fiLoop p =>
    subst hpass
    exact h.fiLoop
  case fiJudge p =>
    subst hpass
    exact h.fiLoop2
  case fiInbWait => exact h.fiInbWait
  all_goals first | exact hpass.elim | exact ⟨hpass, h.len⟩

theorem Endless.busy (h : Endless s.unit.stu) : s.Busy := by
  have hpass := h.pass
  constructor <;> intro hst <;> rw [hst] at hpass <;> exact hpass

end Endless

/-- The INB machine is asked, has not answered, and cannot reach `curr_frame_len`. -/
structure Unanswered (c : StuSetting) (mem : BitVec 7 → SlotEntry) (L : BitVec 9) (a : ℕ) (s : Bench) :
    Prop extends Asking c mem L a s where
  done : s.unit.inb.done = false
  inb : s.unit.inb.state = .pre ∨ s.unit.inb.state = .loop ∨ s.unit.inb.state = .loopSetaddr
    ∨ s.unit.inb.state = .loopSetaddrWait

theorem Unanswered.next (h : Unanswered c mem L a s) (hlen : 512 ≤ c.currFrameLen.toNat) :
    Unanswered c mem L a (s.next c) := by
  have hask := h.toAsking.next h.done
  have hne : s.unit.inb.rcvpktAddrb.toNat ≠ c.currFrameLen.toNat := by
    have := s.unit.inb.rcvpktAddrb.isLt
    omega
  rcases h.inb with hst | hst | hst | hst
  all_goals
    refine ⟨hask, ?_, ?_⟩ <;> rw [next_inb_eq, Inb.tick, hst]
  · exact h.done
  · exact Or.inr (Or.inl rfl)
  · simp only [if_neg hne, if_neg h.asked]
    exact h.done
  · simp only [if_neg hne, if_neg h.asked]
    exact Or.inr (Or.inr (Or.inl trivial))
  · exact h.done
  · exact Or.inr (Or.inr (Or.inr rfl))
  · exact h.done
  · exact Or.inr (Or.inl rfl)

theorem Quiet.busy_of_long (h : Quiet s)
    (hcode : c.rcvPkt.frameLenCode = 7 ∨ c.rcvPkt.frameLenCode = 8) (n : ℕ) :
    Busy ((Bench.next c)^[n] (s.tick c true)) := by
  have hcaught : Until (Bench.next c) Busy (fun t => Endless t.unit.stu) (s.tick c true) := by
    refine (h.until_scan.mono fun t ht => ht.busy).trans fun t ht => Until.here ⟨?_, ?_⟩
    · rw [ht.state]
      exact rfl
    · rw [ht.frameLen]
      exact le_fiFrameLen hcode
  exact hcaught.stuck (fun t ht => ht.tick) (fun t ht => ht.busy) n

theorem Scan.works_of_stalls (h : Scan c mem L .first a 0 s) (haL : a ≠ L.toNat) (ha : a < 64)
    (hstall : Stalls c (mem (BitVec.ofNat 7 a)) (c.rcvPkt.tag a)) (n : ℕ) :
    Works c L ((Bench.next c)^[n] s) := by
  obtain ⟨hlock, hown, hsid, htag, hwhy⟩ := hstall
  have hjudging : Until (Bench.next c) (Works c L) (Judging c mem L .first a) s := by
    refine (h.until_full haL ha (Nat.zero_le 14)).trans fun t ht => ?_
    rcases ht.until_judging haL ha with ⟨hlocked, -⟩ | hjudge
    · rw [hlock] at hlocked
      exact nomatch hlocked
    · exact Until.one ht.works hjudge
  by_cases hbusy : (c.rcvPkt.tag a).busy = 0
  · -- the INB machine is asked and never answers
    have hlen : 512 ≤ c.currFrameLen.toNat := hwhy.resolve_left fun hne => hne hbusy
    have hcaught : Until (Bench.next c) (Works c L) (Unanswered c mem L a) s := by
      refine hjudging.trans fun t ht => Until.step ht.works ?_
      refine (ht.raised hown hsid htag hbusy).until_comparing.trans fun r hr => Until.here ?_
      exact ⟨hr.1.toAsking, hr.1.done, Or.inr (Or.inl hr.1.inb)⟩
    exact hcaught.stuck (fun t ht => ht.next hlen) (fun t ht => ht.works) n
  · exact hjudging.stuck (fun t ht => ht.again hown hsid htag hbusy) (fun t ht => ht.works) n

theorem Quiet.works_of_stalls (h : Quiet s) (h7 : c.rcvPkt.frameLenCode ≠ 7)
    (h8 : c.rcvPkt.frameLenCode ≠ 8)
    (hstall : ∃ b < (fiFrameLen c.rcvPkt).toNat,
      Stalls c (s.ram.cell (BitVec.ofNat 7 b)) (c.rcvPkt.tag b)) (n : ℕ) :
    Works c (fiFrameLen c.rcvPkt) ((Bench.next c)^[n] (s.tick c true)) := by
  have hL := fiFrameLen_le h7 h8
  -- the first slot that stalls is the one the first pass comes to
  obtain ⟨hb, hb_stall⟩ := Nat.find_spec hstall
  have hreach := h.until_scan.trans fun t (ht : Scan c s.ram.cell _ .first 0 0 t) =>
    ht.until_first hL (Nat.le_of_lt hb) fun k hk hks =>
      Nat.find_min hstall hk ⟨Nat.lt_trans hk hb, hks⟩
  obtain ⟨m, hm, hlt⟩ := hreach.exists_iterate
  by_cases hn : n < m
  · exact hlt n hn
  · have hslot : passTable c .first (Nat.find hstall) s.ram.cell (BitVec.ofNat 7 (Nat.find hstall))
        = s.ram.cell (BitVec.ofNat 7 (Nat.find hstall)) := passTable_of_le (by omega)
    rw [← hslot] at hb_stall
    have hcaught := hm.works_of_stalls (Nat.ne_of_lt hb) (by omega) hb_stall (n - m)
    rwa [← Function.iterate_add_apply, Nat.sub_add_cancel (Nat.le_of_not_lt hn)] at hcaught

/-! ### The result -/

/-- The updater, started in `s` on the stream `start` of `stu_start`, reaches `STU_END` and goes back to
`STU_IDLE`. -/
def Returns (c : StuSetting) (start : ℕ → Bool) (s : Bench) : Prop :=
  ∃ n, (trace (Bench.tick c) start s n).unit.stu.state = .stuEnd
    ∧ (trace (Bench.tick c) start s (n + 1)).unit.stu.state = .idle

variable {start : ℕ → Bool}

theorem not_returns_of_busy (hidle : s.unit.stu.state = .idle) (hstart : start 0 = true)
    (hbusy : ∀ n, Busy ((Bench.next c)^[n] (s.tick c true))) : ¬ Returns c start s := by
  rintro ⟨n, hend, -⟩
  cases n with
  | zero =>
    rw [trace, hidle] at hend
    exact StuState.noConfusion hend
  | succ n =>
    have hnext : ∀ t i, Busy t → Bench.tick c t i = Bench.next c t := fun t i ht => tick_eq_next i ht
    rw [trace_succ', hstart] at hend
    exact (trace_of_always hnext hbusy n).2 hend

theorem returns_of_until (hstart : start 0 = true)
    (h : Until (Bench.next c) (Works c (fiFrameLen c.rcvPkt)) (Ending c mem) (s.tick c true)) :
    Returns c start s := by
  have hnext : ∀ t i, Works c (fiFrameLen c.rcvPkt) t → Bench.tick c t i = Bench.next c t :=
    fun t i ht => tick_eq_next i ht.busy
  obtain ⟨n, hending, hlt⟩ := h.exists_iterate
  have hend := hending.state
  rw [← trace_eq_iterate (fun k => start (k + 1)) hnext hlt] at hend
  have hn : (trace (Bench.tick c) start s (n + 1)).unit.stu.state = .stuEnd := by
    rw [trace_succ', hstart]
    exact hend
  refine ⟨n + 1, hn, ?_⟩
  rw [trace]
  show (Stu.tick _ _).state = _
  rw [Stu.tick, hn]

/-- **The slot-table updater returns to `STU_IDLE`** after a start pulse if and only if the packet's
length code is neither 7 nor 8 and no slot below its length stalls the first pass. -/
theorem stu_returns_iff (c : StuSetting) (start : ℕ → Bool) (s : Bench) (hstart : start 0 = true)
    (hquiet : Quiet s) :
    Returns c start s ↔
      (c.rcvPkt.frameLenCode ≠ 7 ∧ c.rcvPkt.frameLenCode ≠ 8
        ∧ ∀ b < (fiFrameLen c.rcvPkt).toNat,
            ¬ Stalls c (s.ram.cell (BitVec.ofNat 7 b)) (c.rcvPkt.tag b)) := by
  constructor
  · intro hret
    by_contra hcond
    apply not_returns_of_busy hquiet.state hstart ?_ hret
    by_cases hcode : c.rcvPkt.frameLenCode = 7 ∨ c.rcvPkt.frameLenCode = 8
    · exact hquiet.busy_of_long hcode
    · obtain ⟨h7, h8⟩ := not_or.mp hcode
      refine fun n => (hquiet.works_of_stalls h7 h8 ?_ n).busy
      by_contra hnone
      refine hcond ⟨h7, h8, fun b hb hs => hnone ⟨b, hb, hs⟩⟩
  · rintro ⟨h7, h8, hstall⟩
    exact returns_of_until hstart (hquiet.until_stuEnd (fiFrameLen_le h7 h8) hstall)

/-- `stu_start` as the IRQ machine raises it: for one cycle. -/
def pulse (n : ℕ) : Bool := n == 0

/-- Node 5 receives an FI of two slots from node 7, which gives slot 0 to node 5 and slot 1 to itself. -/
def twoSlotPacket : StuSetting where
  globalSid := 5
  currFrameLen := 4
  rcvPkt k := if k = rxTypeAddr then 1 + 7 * 2 ^ 4 + 2 * 2 ^ 12 + 5 * 2 ^ 14 + 2 * 2 ^ 26 + 7 * 2 ^ 28 else 0
  rcvpktAddrbIrq := rxTypeAddr

/-- Node 5 holds slot 0. -/
def ownFirstRam : SlotRam where
  cell k := if k = 0 then { busy := 2, occupierSid := 5, count2hop := 1, count3hop := 1 } else {}
  doutA := {}
  doutB := {}

theorem stu_returns_twoSlotPacket : Returns twoSlotPacket pulse ⟨{}, ownFirstRam⟩ :=
  (stu_returns_iff _ _ _ rfl (quiet_reset _)).mpr ⟨by decide, by decide, by decide +kernel⟩

/-- Node 5 receives an FI of 128 slots, code 7, from node 9. -/
def longPacket : StuSetting where
  globalSid := 5
  currFrameLen := 128
  rcvPkt k := if k = rxTypeAddr then 7 + 9 * 2 ^ 4 else 0
  rcvpktAddrbIrq := rxTypeAddr

/-- The updater does not return from an FI of 128 slots. -/
theorem stu_not_returns_longPacket :
    Quiet ⟨{}, ownFirstRam⟩ ∧ pulse 0 = true ∧ ¬ Returns longPacket pulse ⟨{}, ownFirstRam⟩ := by
  refine ⟨quiet_reset _, rfl, not_returns_of_busy rfl rfl ?_⟩
  exact (quiet_reset _).busy_of_long (Or.inl (by decide))

end Bench

end VanetTdma.Fpga
