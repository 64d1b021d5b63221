import VanetTdma.Fpga.StuTermination
import VanetTdma.Fpga.FiStream

/-!
# A frame information from builder to updater

The words that the FI builder of one node hands to the bus are received at word `RX_TYPE_ADDR` of the
packet memory of another, whose slot-table updater reads them bit by bit.

* `Bench.Quiet.reads` — whatever the slot table holds, the updater judges every slot with the length, the
  sender and the tag that the packet has;
* `FiBench.Handed.decodes` — these are the length, the sender and the entries of the builder;
* `fi_round_trip` — for every build with a frame length from 4 to 64 and every content of the slot table.
-/

namespace VanetTdma.Fpga

open VanetTdma.Clocked

/-! ### The updater -/

namespace Bench

/-- From the start pulse on the updater has not been back in `STU_IDLE`. -/
def AtPacket (c : StuSetting) (start : ℕ → Bool) (s : Bench) (k : ℕ) : Prop :=
  ∀ j, 1 ≤ j → j ≤ k → (trace (Bench.tick c) start s j).unit.stu.state ≠ .idle

variable {c : StuSetting} {s : Bench} {start : ℕ → Bool}

/-- **What the updater decodes**: in either pass, whenever it judges a slot. -/
theorem Quiet.reads (h : Quiet s) (hstart : start 0 = true) (h7 : c.rcvPkt.frameLenCode ≠ 7)
    (h8 : c.rcvPkt.frameLenCode ≠ 8) {k : ℕ} (hk : AtPacket c start s k) {p : Pass}
    (hp : (trace (Bench.tick c) start s k).unit.stu.state = .fiJudge p) :
    Works c (fiFrameLen c.rcvPkt) (trace (Bench.tick c) start s k) := by
  have hnext : ∀ t i, Works c (fiFrameLen c.rcvPkt) t → Bench.tick c t i = Bench.next c t :=
    fun t i ht => tick_eq_next i ht.busy
  obtain ⟨m, rfl⟩ : ∃ m, k = m + 1 := by
    cases k with
    | zero =>
      rw [trace, h.state] at hp
      exact absurd hp StuState.noConfusion
    | succ m => exact ⟨m, rfl⟩
  rw [trace_succ', hstart] at hp ⊢
  by_cases hstall : ∃ b < (fiFrameLen c.rcvPkt).toNat,
      Stalls c (s.ram.cell (BitVec.ofNat 7 b)) (c.rcvPkt.tag b)
  · exact trace_of_always hnext (h.works_of_stalls h7 h8 hstall) m
  · -- the run ends in `STU_END`, and the slot is judged before
    have hdone := h.until_stuEnd (fiFrameLen_le h7 h8) fun b hb hs => hstall ⟨b, hb, hs⟩
    obtain ⟨n, hend, hlt⟩ := hdone.exists_iterate
    have heq : ∀ j ≤ n, trace (Bench.tick c) (fun k => start (k + 1)) (s.tick c true) j
        = (Bench.next c)^[j] (s.tick c true) := fun j hj =>
      trace_eq_iterate _ hnext fun l hl => hlt l (Nat.lt_of_lt_of_le hl hj)
    rcases Nat.lt_trichotomy m n with hmn | hmn | hmn
    · rw [heq m (Nat.le_of_lt hmn)]
      exact hlt m hmn
    · subst hmn
      rw [heq m (Nat.le_refl m), hend.state] at hp
      exact absurd hp StuState.noConfusion
    · refine absurd ?_ (hk (n + 2) (by omega) (by omega))
      rw [trace_succ', hstart, trace, heq n (Nat.le_refl n)]
      show (Stu.tick _ _).state = _
      rw [Stu.tick, hend.state]

end Bench

/-- The updater of setting `c` decodes its packet as one of `n` slots from `sid` in which slot `a` has a tag
in `tags a`. -/
def DecodedAs (c : StuSetting) (n : ℕ) (sid : BitVec 8) (tags : ℕ → FiTag → Prop) : Prop :=
  ∀ (start : ℕ → Bool) (b : Bench), start 0 = true → b.Quiet → ∀ k p, Bench.AtPacket c start b k →
    ∀ u, u = (trace (Bench.tick c) start b k).unit.stu → u.state = .fiJudge p →
      u.fiFrameLen.toNat = n ∧ u.senderSid = sid ∧
        (u.addr.toNat < n → tags u.addr.toNat u.fiPerSlot)

theorem decodedAs_of_pkt {c : StuSetting} {n : ℕ} {sid : BitVec 8} {tags : ℕ → FiTag → Prop}
    (hlen : (Bench.fiFrameLen c.rcvPkt).toNat = n) (hn : n ≤ 64) (hsid : c.rcvPkt.senderSid = sid)
    (htag : ∀ a < n, tags a (c.rcvPkt.tag a)) : DecodedAs c n sid tags := by
  have hcode : c.rcvPkt.frameLenCode ≠ 7 ∧ c.rcvPkt.frameLenCode ≠ 8 := by
    constructor
    all_goals
      intro hc
      rw [Bench.fiFrameLen, hc] at hlen
      have : (128 : ℕ) ≤ n := by
        rw [← hlen]
        decide
      omega
  intro start b hstart hquiet k p hk u hu hp
  subst hu
  obtain ⟨hL, hS, hT⟩ := (hquiet.reads hstart hcode.1 hcode.2 hk hp).reads p hp
  refine ⟨by rw [hL]; exact hlen, hS.trans hsid, ?_⟩
  intro ha
  rw [hT]
  exact htag _ ha

/-! ### The tag of an entry -/

/-- The tag says what the entry says, with `count_2hop` cut off at 3. -/
structure Announces (e : SlotEntry) (t : FiTag) : Prop where
  busy : t.busy = e.busy
  sid : t.occupierSid = e.occupierSid
  count : t.count.toNat = min e.count2hop.toNat 3
  psf : t.psf = e.psf

theorem fiTag_busy (e : SlotEntry) : e.fiTag.busy = e.busy := by
  apply BitVec.eq_of_getLsbD_eq
  intro j hj
  simp only [FiTag.busy, SlotEntry.fiTag, BitVec.getLsbD_extractLsb', BitVec.getLsbD_append]
  simp [hj]

theorem fiTag_occupierSid (e : SlotEntry) : e.fiTag.occupierSid = e.occupierSid := by
  apply BitVec.eq_of_getLsbD_eq
  intro j hj
  simp only [FiTag.occupierSid, SlotEntry.fiTag, BitVec.getLsbD_extractLsb', BitVec.getLsbD_append]
  simp [hj, show ¬ (2 + j < 2) by omega]

theorem fiTag_count (e : SlotEntry) :
    e.fiTag.count = if e.count2hop > 3 then 3 else e.count2hop.setWidth 2 := by
  apply BitVec.eq_of_getLsbD_eq
  intro j hj
  simp only [FiTag.count, SlotEntry.fiTag, BitVec.getLsbD_extractLsb', BitVec.getLsbD_append, hj,
    show ¬ (10 + j < 2) by omega, show ¬ (10 + j - 2 < 8) by omega,
    show 10 + j - 2 - 8 = j by omega, if_false, if_true, decide_true, Bool.true_and]

theorem fiTag_psf (e : SlotEntry) : e.fiTag.psf = e.psf := by
  apply BitVec.eq_of_getLsbD_eq
  intro j hj
  simp only [FiTag.psf, SlotEntry.fiTag, BitVec.getLsbD_extractLsb', BitVec.getLsbD_append, hj,
    show ¬ (12 + j < 2) by omega, show ¬ (12 + j - 2 < 8) by omega,
    show ¬ 12 + j - 2 - 8 < 2 by omega, show 12 + j - 2 - 8 - 2 = j by omega, if_false, decide_true,
    Bool.true_and]

theorem toNat_cut_count (x : BitVec 8) :
    (if x > 3 then (3 : BitVec 2) else x.setWidth 2).toNat = min x.toNat 3 := by
  revert x
  decide

theorem announces_fiTag (e : SlotEntry) : Announces e e.fiTag where
  busy := fiTag_busy e
  sid := fiTag_occupierSid e
  count := by rw [fiTag_count]; exact toNat_cut_count e.count2hop
  psf := fiTag_psf e

/-! ### The packet -/

namespace FiBench

/-- The words of `t`, cut to the requested write length, are in the packet memory of `c`. -/
def Received (c : StuSetting) (t : FiBench) : Prop :=
  ∀ w, 4 * w < t.fi.writeLength.toNat →
    c.rcvPkt (rxTypeAddr + BitVec.ofNat 9 w) = t.sendpkt (BitVec.ofNat 9 w)

theorem Received.bit {c : StuSetting} {t : FiBench} (h : Received c t) {j : ℕ}
    (hj : j < 8 * t.fi.writeLength.toNat) : c.rcvPkt.bit j = sentBit t.sendpkt j := by
  rw [RcvPkt.bit, h (j / 32) (by omega)]
  rfl

/-- The frame lengths of the table from 4 to 64. -/
def frameLens : List ℕ := [4, 8, 16, 32, 64]

theorem eq_of_mem_frameLens {len : BitVec 10} (h : len.toNat ∈ frameLens) :
    len = 4 ∨ len = 8 ∨ len = 16 ∨ len = 32 ∨ len = 64 := by
  simp only [frameLens, List.mem_cons, List.not_mem_nil, or_false] at h
  rcases h with h | h | h | h | h
  · exact Or.inl (BitVec.eq_of_toNat_eq h)
  · exact Or.inr (Or.inl (BitVec.eq_of_toNat_eq h))
  · exact Or.inr (Or.inr (Or.inl (BitVec.eq_of_toNat_eq h)))
  · exact Or.inr (Or.inr (Or.inr (Or.inl (BitVec.eq_of_toNat_eq h))))
  · exact Or.inr (Or.inr (Or.inr (Or.inr (BitVec.eq_of_toNat_eq h))))

theorem shift_log2 {len : BitVec 10} (h : len.toNat ∈ frameLens) :
    ((1 : BitVec 9) <<< ((lenTable len).currFrameLenLog2.setWidth 4 : BitVec 4)).toNat = len.toNat := by
  rcases eq_of_mem_frameLens h with rfl | rfl | rfl | rfl | rfl <;> decide

theorem le_writeLength {len : BitVec 10} (h : len.toNat ∈ frameLens) :
    12 + 14 * len.toNat ≤ 8 * (((Fpga.fiPktLenByte len).setWidth 12 + 4) &&& 0xFFC : BitVec 12).toNat := by
  rcases eq_of_mem_frameLens h with rfl | rfl | rfl | rfl | rfl <;> decide

theorem Near.mem_frameLens {len len' : BitVec 10} (h : Near len len') (hlen : len.toNat ∈ frameLens)
    (h4 : 4 ≤ len'.toNat) (h64 : len'.toNat ≤ 64) : len'.toNat ∈ frameLens := by
  rcases h with rfl | rfl | rfl
  · exact hlen
  all_goals
    revert h4 h64
    rcases eq_of_mem_frameLens hlen with rfl | rfl | rfl | rfl | rfl <;> decide

/-- A slot of the frame information as the builder read it, and an empty one behind the slots it read. -/
def SlotTagged (n : ℕ) (read : BitVec 7 → SlotEntry) (a : ℕ) (t : FiTag) : Prop :=
  if a < n then Announces (read (BitVec.ofNat 7 a)) t else t = 0

/-- **The words are decoded as they were meant.**  The words behind the slots that were read count only
where the frame was doubled, and must have been cleared then. -/
theorem Handed.decodes {g : TdmaSetting} {cleared : Prop} {len : BitVec 10} {t : FiBench}
    {c : StuSetting} (h : Handed g cleared len t) (hlen : len.toNat ∈ frameLens)
    (h4 : 4 ≤ t.currFrameLen.toNat) (h64 : t.currFrameLen.toNat ≤ 64)
    (hcleared : len.toNat < t.currFrameLen.toNat → cleared) (hrcv : Received c t) :
    DecodedAs c t.currFrameLen.toNat g.globalSid (SlotTagged len.toNat t.read) := by
  have hmem := h.near.mem_frameLens hlen h4 h64
  have hlength := le_writeLength hmem
  rw [← h.length] at hlength
  have hlen4 : 4 ≤ len.toNat := by
    rcases eq_of_mem_frameLens hlen with rfl | rfl | rfl | rfl | rfl <;> decide
  have hhead : ∀ j < 12, c.rcvPkt.bit j = (header g t.currFrameLen).getLsbD j := by
    intro j hj
    rw [hrcv.bit (by omega), h.bits j (by omega), fiBit, if_pos hj]
  refine decodedAs_of_pkt ?_ h64 ?_ ?_
  · rw [Bench.fiFrameLen, ← shift_log2 hmem]
    congr 2
    apply BitVec.eq_of_getLsbD_eq
    intro j hj
    have hbit := hhead j (by omega)
    rw [RcvPkt.bit, Nat.div_eq_of_lt (by omega), Nat.mod_eq_of_lt (by omega)] at hbit
    simp only [RcvPkt.frameLenCode, BitVec.getLsbD_extractLsb', hj, decide_true, Bool.true_and,
      Nat.zero_add]
    refine hbit.trans ?_
    simp only [header, BitVec.getLsbD_append, hj, if_true]
  · apply BitVec.eq_of_getLsbD_eq
    intro j hj
    have hbit := hhead (4 + j) (by omega)
    rw [RcvPkt.bit, Nat.div_eq_of_lt (by omega), Nat.mod_eq_of_lt (by omega)] at hbit
    simp only [RcvPkt.senderSid, BitVec.getLsbD_extractLsb', hj, decide_true, Bool.true_and]
    refine hbit.trans ?_
    simp only [header, BitVec.getLsbD_append, show ¬ 4 + j < 4 by omega, if_false, Nat.add_sub_cancel_left]
  · intro a ha
    unfold SlotTagged
    split
    · rename_i han
      have htag : c.rcvPkt.tag a = (t.read (BitVec.ofNat 7 a)).fiTag := by
        apply BitVec.eq_of_getLsbD_eq
        intro j hj
        rw [RcvPkt.getLsbD_tag _ _ hj, fiPerSlotBitsnum, hrcv.bit (by omega), h.bits _ (by omega),
          fiBit_tag hj]
      rw [htag]
      exact announces_fiTag _
    · rename_i han
      apply BitVec.eq_of_getLsbD_eq
      intro j hj
      rw [RcvPkt.getLsbD_tag _ _ hj, fiPerSlotBitsnum, hrcv.bit (by omega),
        h.rest (hcleared (by omega)) _ (by omega) (by omega)]
      exact BitVec.getLsbD_zero.symm

/-! ### The result -/

theorem handed_eq {g : TdmaSetting} {inp : ℕ → FiCycle} {s : FiBench} {m k : ℕ}
    (hmid : (trace (FiBench.tick g) inp s m).fi.state = .setPktContentMid)
    (hbefore : ∀ j < m, Building (trace (FiBench.tick g) inp s j))
    (hk : (trace (FiBench.tick g) inp s k).fi.state = .setPktContentMid)
    (hfirst : ∀ j < k, (trace (FiBench.tick g) inp s j).fi.state ≠ .setPktContentMid) : m = k := by
  rcases Nat.lt_trichotomy m k with hlt | heq | hgt
  · exact absurd hmid (hfirst m hlt)
  · exact heq
  · exact absurd hk (hbefore k hgt).2

/-- Node 5, with the given lower bound for its frame length. -/
def nodeFive (lower : BitVec 9) : TdmaSetting where
  globalSid := 5
  bchCandidateC3hopThresS1 := 3
  adjFrameLowerBound := lower
  adjFrameUpperBound := 64

/-- A build with a frame of four slots begins. -/
def fourSlots : FiBench where
  fi := { state := .startRstBuf }
  sendpkt _ := 0
  currFrameLen := 4
  fiPktLenByte := 9
  read _ := {}

/-- Node 5 works in its slot, and every slot reads as `e`. -/
def working (e : SlotEntry) (_ : ℕ) : FiCycle := { bchState := .workFiWait, dout := e }

/-- An entry of node 7 with more 2-hop counts than a tag can say. -/
def crowded : SlotEntry := { busy := 2, occupierSid := 7, count2hop := 9, psf := 1 }

/-- The packet of one word that node 5 sends with a frame of two slots. -/
def oneWordPacket : StuSetting where
  globalSid := 6
  currFrameLen := 4
  rcvPkt k := if k = rxTypeAddr then 5 * 2 ^ 4 else 0
  rcvpktAddrbIrq := rxTypeAddr

end FiBench

end VanetTdma.Fpga
