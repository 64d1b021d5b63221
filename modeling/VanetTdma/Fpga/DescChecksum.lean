import VanetTdma.Fpga.TdmaRequests

/-!
# The checksum of a patched descriptor (`FI_SET_BUF_LEN` to `FI_SET_CKS` in `tdma_control.v`)

The driver has laid out a transmit descriptor with a checksum over its first ten words in `ctl10`
(`ar9003_calc_ptr_chksum` in `ar9003_mac.c`).  The FI builder patches the descriptor on its own: it writes the length of
the buffer into `ctl3` and that of the frame into `ctl11`, lets the bus take the checksum of the first ten words
(`CAL_DESC_CKS` in `ipic_state_machine.v`), and writes it into `ctl10`.

* `Txc.calcPtrChksum` — the checksum as the driver takes it, in a signed `int`;
* `BurstBus.Adding.tick` — the checksum transaction adds up the words that the AXI master delivers, whatever the stalls;
* `Patch.CarriesOut` — what it means that the bus carries out the requests of the builder on the descriptor;
* `PatchStage.tick` — the four requests of the builder, one after the other;
* `patched_checksum_valid` — what the builder leaves in `ctl10` is the checksum that the driver would take.
-/

namespace VanetTdma.Fpga

open Clocked

/-! ### The descriptor -/

/-- The words of `ar9003_txc` up to the last one that is patched. -/
structure Txc where
  info : BitVec 32
  link : BitVec 32
  data0 : BitVec 32
  ctl3 : BitVec 32
  data1 : BitVec 32
  ctl5 : BitVec 32
  data2 : BitVec 32
  ctl7 : BitVec 32
  data3 : BitVec 32
  ctl9 : BitVec 32
  ctl10 : BitVec 32
  ctl11 : BitVec 32

/-- `AR_TxPtrChkSum`. -/
def arTxPtrChkSum : BitVec 32 := 0x0000ffff

namespace Txc

/-- The descriptor that is made of the words `w`. -/
def ofWords (w : ℕ → BitVec 32) : Txc where
  info := w 0
  link := w 1
  data0 := w 2
  ctl3 := w 3
  data1 := w 4
  ctl5 := w 5
  data2 := w 6
  ctl7 := w 7
  data3 := w 8
  ctl9 := w 9
  ctl10 := w 10
  ctl11 := w 11

/-- `ar9003_calc_ptr_chksum`.  The sum of the unsigned words is kept in an `int`, so that the shift is an arithmetic
one. -/
def calcPtrChksum (ads : Txc) : BitVec 16 :=
  let checksum := ads.info + ads.link + ads.data0 + ads.ctl3 + ads.data1 + ads.ctl5 + ads.data2 + ads.ctl7 + ads.data3
    + ads.ctl9
  (((checksum &&& 0xffff#32) + checksum.sshiftRight 16) &&& arTxPtrChkSum).setWidth 16

end Txc

/-- The sum of the first `k` words. -/
def descSum (w : ℕ → BitVec 32) : ℕ → BitVec 32
  | 0 => 0
  | k + 1 => descSum w k + w k

/-- The fold of `ptr_checksum`. -/
def foldSum (c : BitVec 32) : BitVec 16 := (((c &&& 0xffff#32) + (c >>> 16)) &&& 0xffff#32).setWidth 16

/-- The checksum that the bus takes of the words `w`. -/
def descCks (w : ℕ → BitVec 32) : BitVec 16 := foldSum (descSum w 10)

theorem descSum_congr {w w' : ℕ → BitVec 32} {n : ℕ} (h : ∀ k < n, w k = w' k) : descSum w n = descSum w' n := by
  induction n with
  | zero => rfl
  | succ n ih =>
    rw [descSum, descSum, ih fun k hk => h k (by omega), h n (Nat.lt_succ_self n)]

theorem descCks_congr {w w' : ℕ → BitVec 32} (h : ∀ k < 10, w k = w' k) : descCks w = descCks w' :=
  congrArg foldSum (descSum_congr h)

/-- Of the shifted sum only the lower half counts, where the two shifts agree. -/
theorem setWidth_sshiftRight (c : BitVec 32) : (c.sshiftRight 16).setWidth 16 = (c >>> 16).setWidth 16 := by
  apply BitVec.eq_of_getLsbD_eq
  intro i hi
  have hlt : 16 + i < 32 := by omega
  have hge : ¬ 32 ≤ i := by omega
  simp [BitVec.getLsbD_sshiftRight, hi, hlt, hge]

/-- **The two folds agree**: `desc_checksum` of the bus is unsigned, `checksum` of the driver is not. -/
theorem calcPtrChksum_ofWords (w : ℕ → BitVec 32) : (Txc.ofWords w).calcPtrChksum = descCks w := by
  have hzero : (0 : BitVec 32) + w 0 = w 0 := BitVec.zero_add (w 0)
  have hsum : w 0 + w 1 + w 2 + w 3 + w 4 + w 5 + w 6 + w 7 + w 8 + w 9 = descSum w 10 := by
    simp only [descSum, hzero]
  show (((_ &&& 0xffff#32) + BitVec.sshiftRight _ 16) &&& 0xffff#32).setWidth 16 = _
  simp only [Txc.ofWords]
  rw [hsum, descCks, foldSum, BitVec.setWidth_and, BitVec.setWidth_and,
    BitVec.setWidth_add _ _ (by decide), BitVec.setWidth_add _ _ (by decide), setWidth_sshiftRight]

/-! ### The checksum transaction -/

def BurstState.sums : BurstState → Bool
  | .calCksWait | .calCksRdRcv | .calCksRdRcvEnd => true
  | _ => false

theorem BurstState.sums_of_isEnd {st : BurstState} (h : st.isEnd = true) : st.sums = false := by
  cases st <;> first | rfl | exact Bool.noConfusion h

namespace BurstBus

/-- Words that the AXI master has delivered in the checksum transaction under way, after this edge; `n` before it. -/
def sentAfter (i : BurstBusIn) (b : BurstBus) (n : ℕ) : ℕ :=
  match b.state with
  | .calCksWait | .calCksRdRcv => if i.mstrdSrcRdyN then n else n + 1
  | _ => 0

/-- What the bus has made of the words `w`, of which the AXI master has delivered `n`. -/
inductive Adding (w : ℕ → BitVec 32) (b : BurstBus) (n : ℕ) : Prop
  | away (hst : b.state.sums = false)
  | wait (hst : b.state = .calCksWait) (hlen : b.readBeatLength = 10) (hidx : b.readBeatIdx = 0)
      (hsum : b.descChecksum = 0) (hn : n = 0)
  | receiving (hst : b.state = .calCksRdRcv) (hlen : b.readBeatLength = 10) (hidx : b.readBeatIdx.toNat = n)
      (hle : n ≤ 10) (hsum : b.descChecksum = descSum w n)
  | closing (hst : b.state = .calCksRdRcvEnd) (hsum : b.descChecksum = descSum w 10)
      (hptr : b.ptrChecksum = descCks w)

/-- The AXI master delivers the words of `w` in order, and none before its acknowledge. -/
structure Delivers (w : ℕ → BitVec 32) (i : BurstBusIn) (b : BurstBus) (n : ℕ) : Prop where
  early : b.state = .calCksWait → i.cmdack = false → i.mstrdSrcRdyN = true
  data : b.state = .calCksWait ∨ b.state = .calCksRdRcv → i.mstrdSrcRdyN = false → n < 10 → i.mstrdD = w n

section Adding

variable {w w' : ℕ → BitVec 32} {b b' : BurstBus} {i : BurstBusIn} {n : ℕ} {st : BurstState}

theorem dispatch_sum (i : BurstBusIn) (b : BurstBus) :
    (b.dispatch i).readBeatLength = b.readBeatLength ∧ (b.dispatch i).readBeatIdx = b.readBeatIdx
      ∧ (b.dispatch i).descChecksum = b.descChecksum ∧ (b.dispatch i).ptrChecksum = b.ptrChecksum := by
  unfold dispatch
  (repeat' split) <;> exact ⟨rfl, rfl, rfl, rfl⟩

theorem enter_ptrChecksum (h : st ≠ .calCksRdRcvEnd) : (enter i b b' st).ptrChecksum = b'.ptrChecksum := by
  cases st <;> first | rfl | exact absurd rfl h

theorem tick_ptrChecksum (h : b.nextIpicState i ≠ .calCksRdRcvEnd) : (b.tick i).ptrChecksum = b.ptrChecksum := by
  rw [tick, enter_ptrChecksum h]
  exact (b.dispatch_sum i).2.2.2

theorem tick_state (i : BurstBusIn) (b : BurstBus) : (b.tick i).state = b.nextIpicState i := enter_state _ _ _

theorem nextIpicState_of_not_sums (h : b.state.sums = false) (hnext : (b.nextIpicState i).sums = true) :
    b.nextIpicState i = .calCksWait := by
  unfold nextIpicState at hnext ⊢
  cases hst : b.state <;> rw [hst] at h hnext <;> dsimp only at hnext ⊢
  all_goals first
    | exact Bool.noConfusion h
    | exact Bool.noConfusion hnext
    | (revert hnext; (repeat' split) <;> intro hnext <;> first | rfl | exact Bool.noConfusion hnext)

theorem Adding.congr (h : Adding w b n) (hw : ∀ k < 10, w k = w' k) : Adding w' b n := by
  cases h with
  | away hst => exact .away hst
  | wait hst hlen hidx hsum hn => exact .wait hst hlen hidx hsum hn
  | receiving hst hlen hidx hle hsum =>
    exact .receiving hst hlen hidx hle (hsum.trans (descSum_congr fun k hk => hw k (by omega)))
  | closing hst hsum hptr => exact .closing hst (hsum.trans (descSum_congr hw)) (hptr.trans (descCks_congr hw))

theorem adding_receive (hnext : b.nextIpicState i = .calCksRdRcv) (hlen : b.readBeatLength = 10)
    (hidx : b.readBeatIdx.toNat = n) (hlt : n < 10) (hsum : b.descChecksum = descSum w n)
    (hdata : i.mstrdSrcRdyN = false → i.mstrdD = w n) :
    Adding w (b.tick i) (if i.mstrdSrcRdyN then n else n + 1) := by
  have hlen' : (b.tick i).readBeatLength = 10 := by
    rw [tick, hnext]
    exact (b.dispatch_sum i).1.trans hlen
  have hidx' : (b.tick i).readBeatIdx = if i.mstrdSrcRdyN then b.readBeatIdx else b.readBeatIdx + 1 := by
    rw [tick, hnext]
    rfl
  have hsum' : (b.tick i).descChecksum
      = if i.mstrdSrcRdyN then b.descChecksum else b.descChecksum + i.mstrdD := by
    rw [tick, hnext]
    rfl
  have hst' : (b.tick i).state = .calCksRdRcv := (b.tick_state i).trans hnext
  cases hrdy : i.mstrdSrcRdyN with
  | true =>
    rw [hrdy, if_pos rfl] at hidx' hsum'
    rw [if_pos rfl]
    exact .receiving hst' hlen' ((congrArg BitVec.toNat hidx').trans hidx) (by omega) (hsum'.trans hsum)
  | false =>
    rw [hrdy, if_neg Bool.false_ne_true] at hidx' hsum'
    rw [if_neg Bool.false_ne_true]
    refine .receiving hst' hlen' ?_ (by omega) ?_
    · rw [hidx']
      bv_omega
    · rw [hsum', hsum, hdata hrdy, descSum]

/-- **One edge of the checksum transaction**, whatever the stalls. -/
theorem Adding.tick (h : Adding w b n) (hm : Delivers w i b n) : Adding w (b.tick i) (b.sentAfter i n) := by
  have hstate := b.tick_state i
  cases h with
  | away hst =>
    cases hnext : (b.nextIpicState i).sums with
    | false => exact .away (by rw [hstate, hnext])
    | true =>
      have hwait := nextIpicState_of_not_sums hst hnext
      have hsent : b.sentAfter i n = 0 := by
        unfold sentAfter
        split <;> rename_i heq <;> first | rfl | (rw [heq] at hst; exact Bool.noConfusion hst)
      refine .wait (hstate.trans hwait) ?_ ?_ ?_ hsent <;> rw [BurstBus.tick, hwait] <;> rfl
  | wait hst hlen hidx hsum hn =>
    subst hn
    have hsent : b.sentAfter i 0 = if i.mstrdSrcRdyN then 0 else 0 + 1 := by simp only [sentAfter, hst]
    cases hack : i.cmdack with
    | false =>
      have hnext : b.nextIpicState i = .calCksWait := by simp [nextIpicState, hst, hack]
      rw [hsent, hm.early hst hack, if_pos rfl]
      refine .wait (hstate.trans hnext) ?_ ?_ ?_ rfl <;> rw [BurstBus.tick, hnext] <;> rfl
    | true =>
      have hnext : b.nextIpicState i = .calCksRdRcv := by simp [nextIpicState, hst, hack]
      rw [hsent]
      exact adding_receive hnext hlen (congrArg BitVec.toNat hidx) (by omega) hsum
        fun hrdy => hm.data (Or.inl hst) hrdy (by omega)
  | receiving hst hlen hidx hle hsum =>
    have hsent : b.sentAfter i n = if i.mstrdSrcRdyN then n else n + 1 := by simp only [sentAfter, hst]
    have hmore : b.readBeatIdx < b.readBeatLength ↔ n < 10 := by
      rw [hlen, BitVec.lt_def, hidx]
      rfl
    by_cases hlt : n < 10
    · have hnext : b.nextIpicState i = .calCksRdRcv := by
        simp only [nextIpicState, hst]
        exact if_pos (hmore.mpr hlt)
      rw [hsent]
      exact adding_receive hnext hlen hidx hlt hsum fun hrdy => hm.data (Or.inr hst) hrdy hlt
    · have hten : n = 10 := by omega
      have hnext : b.nextIpicState i = .calCksRdRcvEnd := by
        simp only [nextIpicState, hst]
        exact if_neg fun hless => hlt (hmore.mp hless)
      rw [hten] at hsum
      refine .closing (hstate.trans hnext) ?_ ?_ <;> rw [BurstBus.tick, hnext]
      · exact (b.dispatch_sum i).2.2.1.trans hsum
      · rw [descCks, ← hsum]
        rfl
  | closing hst hsum hptr =>
    cases hcmplt : i.cmplt with
    | false =>
      have hnext : b.nextIpicState i = .calCksRdRcvEnd := by simp [nextIpicState, hst, hcmplt]
      refine .closing (hstate.trans hnext) ?_ ?_ <;> rw [BurstBus.tick, hnext]
      · exact (b.dispatch_sum i).2.2.1.trans hsum
      · rw [descCks, ← hsum]
        rfl
    | true =>
      have hnext : b.nextIpicState i = .calCksRdEnd := by simp [nextIpicState, hst, hcmplt]
      exact .away (by rw [hstate, hnext]; rfl)

theorem Adding.ptrChecksum (h : Adding w (b.tick i) n) :
    (b.tick i).ptrChecksum = b.ptrChecksum ∨ (b.tick i).ptrChecksum = descCks w := by
  cases h with
  | closing _ _ hptr => exact Or.inr hptr
  | away hst =>
    refine Or.inl (tick_ptrChecksum fun hnext => ?_)
    rw [b.tick_state i, hnext] at hst
    cases hst
  | wait hst | receiving hst =>
    refine Or.inl (tick_ptrChecksum fun hnext => ?_)
    rw [b.tick_state i, hnext] at hst
    cases hst

theorem state_of_completes {a : BitVec 32} (h : b.completes i = some (.calDescCks a)) :
    b.state = .calCksRdRcvEnd := by
  unfold completes closing at h
  cases hst : b.state <;> rw [hst] at h <;> first | rfl | (split at h <;> cases h)

end Adding

def working (b : BurstBus) : Bool := b.state ≠ .idle && !b.state.isEnd

theorem working_of_completes {b : BurstBus} {i : BurstBusIn} {j : BurstJob} (h : b.completes i = some j) :
    b.working = true := by
  unfold working
  rw [Bool.and_eq_true, decide_eq_true_eq, Bool.not_eq_true']
  constructor
  · intro hidle
    rw [completes_of_idle hidle] at h
    cases h
  · by_contra hend
    rw [Bool.not_eq_false] at hend
    rw [completes_of_isEnd hend] at h
    cases h

theorem Drives.job_of_sums {b : BurstBus} (h : b.Drives) (hsums : b.state.sums = true) :
    b.req.job = .calDescCks b.mstAddr := by
  unfold Drives at h
  cases hst : b.state <;> rw [hst] at h hsums <;> first | exact Bool.noConfusion hsums | skip
  all_goals simp [BurstReq.job, req, h, burstRd, burstWr, setZero, singleRd, singleWr, calDescCks]

theorem working_of_sums {b : BurstBus} (h : b.state.sums = true) : b.working = true := by
  unfold working
  cases hst : b.state <;> rw [hst] at h <;> first | rfl | exact Bool.noConfusion h

end BurstBus

/-! ### The four requests -/

/-- The address of word `k` of a descriptor. -/
def wordAddr (base : BitVec 32) (k : ℕ) : BitVec 32 := base + BitVec.ofNat 32 (4 * k)

theorem wordAddr_inj {base : BitVec 32} {k k' : ℕ} (hk : k < 12) (hk' : k' < 12)
    (h : wordAddr base k = wordAddr base k') : k = k' := by
  unfold wordAddr at h
  bv_omega

/-- The transaction writes into the descriptor, or into the register of the checksum. -/
def BurstJob.touches (base : BitVec 32) : BurstJob → Bool
  | .singleWr a _ => (List.range 12).any fun k => a = wordAddr base k
  | .burstWr a l | .setZero a l => (List.range 12).any fun k => (wordAddr base k - a).toNat < l.toNat
  | .calDescCks _ => true
  | .burstRd _ _ | .singleRd _ | .unknown _ => false

theorem BurstReq.job_singleWr {r : BurstReq} (h : r.ipicType = singleWr) :
    r.job = .singleWr r.writeAddr r.writeData := by
  simp [job, h, burstRd, burstWr, setZero, singleRd, singleWr]

theorem BurstReq.job_calDescCks {r : BurstReq} (h : r.ipicType = calDescCks) : r.job = .calDescCks r.readAddr := by
  simp [job, h, burstRd, burstWr, setZero, singleRd, singleWr, calDescCks]

/-- The requests with which the builder patches a descriptor. -/
inductive Piece where
  | bufLen
  | frameLen
  | calCks
  | setCks

namespace Piece

def start : Piece → FiState
  | .bufLen => .setBufLenStart
  | .frameLen => .setFrameLenStart
  | .calCks => .calCksStart
  | .setCks => .setCksStart

def mid : Piece → FiState
  | .bufLen => .setBufLenMid
  | .frameLen => .setFrameLenMid
  | .calCks => .calCksMid
  | .setCks => .setCksMid

def wait : Piece → FiState
  | .bufLen => .setBufLenWait
  | .frameLen => .setFrameLenWait
  | .calCks => .calCksWait
  | .setCks => .setCksWait

def next : Piece → FiState
  | .bufLen => .setFrameLenStart
  | .frameLen => .calCksStart
  | .calCks => .setCksStart
  | .setCks => .startFcb

def word : Piece → Option ℕ
  | .bufLen => some 3
  | .frameLen => some 11
  | .calCks => none
  | .setCks => some 10

/-- What the builder waits for before it waits for the done line. -/
def signal (c : Piece) (s : TdmaControl) : Bool :=
  match c with
  | .bufLen | .frameLen => s.burst.doneTc
  | .calCks | .setCks => s.arb.ack .fi

def Asks (c : Piece) (base : BitVec 32) (r : BurstReq) : Prop :=
  match c.word with
  | some k => r.ipicType = singleWr ∧ r.writeAddr = wordAddr base k
  | none => r.ipicType = calDescCks ∧ r.readAddr = base

end Piece

def FiState.places : FiState → Bool
  | .setBufLenStart | .setFrameLenStart | .calCksStart | .setCksStart => true
  | _ => false

/-- The builder waits for the done line at the end of one of the requests. -/
def FiState.leaves : FiState → Bool
  | .setBufLenWait | .setFrameLenWait | .calCksWait | .setCksWait => true
  | _ => false

def FiState.stands (st : FiState) : Bool :=
  match st with
  | .setBufLenMid | .setFrameLenMid | .calCksMid | .setCksMid => true
  | st => st.leaves

section Pieces

variable {s : TdmaControl} {c : Piece} {base : BitVec 32} {r : BurstReq} {g : TdmaSetting} {i : TcCycle}

theorem TdmaControl.fi_state_tick {st : FiState}
    (h : s.fi.state.answered (s.arb.ack .fi) s.burst.doneTc = some st) : (s.tick g i).fi.state = st := by
  obtain ⟨fi, hack, hdone, htick⟩ := s.fi_tick g i
  rw [← hack, ← hdone] at h
  rw [htick]
  exact Fi.state_of_answered h

theorem Piece.tick_start (h : s.fi.state = c.start) : (s.tick g i).fi.state = c.mid := by
  apply TdmaControl.fi_state_tick
  rw [h]
  cases c <;> rfl

theorem Piece.tick_mid (h : s.fi.state = c.mid) :
    (s.tick g i).fi.state = if c.signal s then c.wait else c.mid := by
  apply TdmaControl.fi_state_tick
  rw [h]
  cases c <;> rfl

theorem Piece.tick_wait (h : s.fi.state = c.wait) :
    (s.tick g i).fi.state = if s.burst.doneTc then c.next else c.wait := by
  apply TdmaControl.fi_state_tick
  rw [h]
  cases c <;> rfl

theorem Piece.stands_of (h : s.fi.state = c.mid ∨ s.fi.state = c.wait) :
    s.fi.state.stands = true ∧ s.fi.state.places = false := by
  rcases h with h | h <;> rw [h] <;> cases c <;> exact ⟨rfl, rfl⟩

theorem Piece.asks_tick_start (h : s.fi.state = c.start) (hdread : i.txfifoDread = base) :
    c.Asks base (s.tick g i).fiReq := by
  show c.Asks base (s.fi.request (s.fiReqIn i) s.fiReq)
  subst hdread
  unfold Fi.request
  rw [h]
  cases c <;> exact ⟨rfl, rfl⟩

theorem Piece.fiReq_tick (h : s.fi.state = c.mid ∨ s.fi.state = c.wait) :
    ∃ start, (s.tick g i).fiReq = { s.fiReq with start := start } := by
  show ∃ start, s.fi.request (s.fiReqIn i) s.fiReq = { s.fiReq with start := start }
  unfold Fi.request
  rcases h with h | h <;> rw [h] <;> cases c <;> dsimp only [Piece.mid, Piece.wait]
  all_goals first
    | exact ⟨_, rfl⟩
    | (split <;> exact ⟨_, rfl⟩)

theorem Piece.Asks.job_of_word {k : ℕ} (h : c.Asks base s.fiReq) (hword : c.word = some k) :
    (s.req .fi).job = .singleWr (wordAddr base k) s.fiReq.writeData := by
  unfold Piece.Asks at h
  rw [hword] at h
  have hjob : (s.req .fi).job = .singleWr s.fiReq.writeAddr s.fiReq.writeData := BurstReq.job_singleWr h.1
  rw [hjob, h.2]

theorem Piece.Asks.job_of_none (h : c.Asks base s.fiReq) (hword : c.word = none) :
    (s.req .fi).job = .calDescCks base := by
  unfold Piece.Asks at h
  rw [hword] at h
  have hjob : (s.req .fi).job = .calDescCks s.fiReq.readAddr := BurstReq.job_calDescCks h.1
  rw [hjob, h.2]

end Pieces

/-! ### The descriptor under the requests -/

/-- The machines, the words of the descriptor at `base`, whether the last request of the builder has been carried out, and
how many words the AXI master has delivered in the checksum transaction under way. -/
structure Patch where
  s : TdmaControl
  desc : ℕ → BitVec 32
  served : Bool := false
  sent : ℕ := 0

namespace Patch

/-- One edge.  A single write takes effect when it completes. -/
def tick (g : TdmaSetting) (base : BitVec 32) (p : Patch) (i : TcCycle) : Patch where
  s := p.s.tick g i
  desc k :=
    match p.s.burst.completes (p.s.burstIn i) with
    | some (.singleWr a d) => if a = wordAddr base k then d else p.desc k
    | _ => p.desc k
  served := !p.s.fi.state.places
    && (p.served || p.s.burst.completes (p.s.burstIn i) = some (p.s.req .fi).job)
  sent := p.s.burst.sentAfter (p.s.burstIn i) p.sent

/-- **The bus carries out the requests of the builder on the descriptor.**

* The builder makes its requests with the address of the descriptor.
* Nobody else has the bus write into the descriptor or take a checksum.
* In the read burst the AXI master delivers the words at the address it was given, in order, and none before its
  acknowledge.
* The builder is let go from a request only when it has been carried out. -/
structure CarriesOut (base : BitVec 32) (p : Patch) (i : TcCycle) : Prop where
  dread : p.s.fi.state.places = true → i.txfifoDread = base
  own : p.s.burst.working = true → p.s.burst.req.job.touches base = true →
    p.s.fi.state.stands = true ∧ p.s.burst.req.job = (p.s.req .fi).job
  early : p.s.burst.state = .calCksWait → i.cmdack = false → i.mstrdSrcRdyN = true
  data : p.s.burst.state = .calCksWait ∨ p.s.burst.state = .calCksRdRcv → i.mstrdSrcRdyN = false →
    ∀ k < 12, wordAddr p.s.burst.mstAddr p.sent = wordAddr base k → i.mstrdD = p.desc k
  done : p.s.fi.state.leaves = true → p.s.burst.doneTc = true → p.served = true

instance (base : BitVec 32) (p : Patch) (i : TcCycle) : Decidable (p.CarriesOut base i) :=
  decidable_of_iff
    ((p.s.fi.state.places = true → i.txfifoDread = base)
      ∧ (p.s.burst.working = true → p.s.burst.req.job.touches base = true →
        p.s.fi.state.stands = true ∧ p.s.burst.req.job = (p.s.req .fi).job)
      ∧ (p.s.burst.state = .calCksWait → i.cmdack = false → i.mstrdSrcRdyN = true)
      ∧ (p.s.burst.state = .calCksWait ∨ p.s.burst.state = .calCksRdRcv → i.mstrdSrcRdyN = false →
        ∀ k < 12, wordAddr p.s.burst.mstAddr p.sent = wordAddr base k → i.mstrdD = p.desc k)
      ∧ (p.s.fi.state.leaves = true → p.s.burst.doneTc = true → p.served = true))
    ⟨fun h => ⟨h.1, h.2.1, h.2.2.1, h.2.2.2.1, h.2.2.2.2⟩, fun h => ⟨h.dread, h.own, h.early, h.data, h.done⟩⟩

end Patch

def Piece.Ready (c : Piece) (p : Patch) : Prop := c = .setCks → p.s.burst.ptrChecksum = descCks p.desc

def Piece.Brings (c : Piece) (p : Patch) : Prop :=
  c = .setCks → p.s.fiReq.writeData = (descCks p.desc).setWidth 32

def Piece.Did (c : Piece) (p : Patch) : Prop :=
  match c with
  | .bufLen | .frameLen => True
  | .calCks => p.s.burst.ptrChecksum = descCks p.desc
  | .setCks => p.desc 10 = (descCks p.desc).setWidth 32

/-- How far the builder is with the descriptor. -/
inductive PatchStage (base : BitVec 32) (p : Patch) : Prop
  | places (c : Piece) (hst : p.s.fi.state = c.start) (hready : c.Ready p)
  | stands (c : Piece) (hst : p.s.fi.state = c.mid ∨ p.s.fi.state = c.wait) (hasks : c.Asks base p.s.fiReq)
      (hbrings : c.Brings p) (hdid : p.served = true → c.Did p)
  | through (hst : p.s.fi.state = .startFcb) (hcks : p.desc 10 = (descCks p.desc).setWidth 32)

namespace Patch

section Step

variable {g : TdmaSetting} {base : BitVec 32} {p : Patch} {i : TcCycle} {c : Piece} {k : ℕ}

theorem CarriesOut.of_completes {j : BurstJob} (hc : p.CarriesOut base i) (hp : p.s.burst.Ported)
    (hj : p.s.burst.completes (p.s.burstIn i) = some j) (htouch : j.touches base = true) :
    p.s.fi.state.stands = true ∧ (p.s.req .fi).job = j := by
  have hjob := hp.drives.job_of_completes hj
  subst hjob
  obtain ⟨hstands, hown⟩ := hc.own (BurstBus.working_of_completes hj) htouch
  exact ⟨hstands, hown.symm⟩

theorem desc_tick_of_singleWr (g : TdmaSetting) (base : BitVec 32) {a d : BitVec 32}
    (hj : p.s.burst.completes (p.s.burstIn i) = some (.singleWr a d)) (k : ℕ) :
    (p.tick g base i).desc k = if a = wordAddr base k then d else p.desc k := by
  unfold tick
  simp only [hj]

/-- **A word of the descriptor changes only by a request of the builder.** -/
theorem CarriesOut.word_tick (hc : p.CarriesOut base i) (hp : p.s.burst.Ported) (hk : k < 12) :
    (p.tick g base i).desc k = p.desc k ∨
      (p.s.fi.state.stands = true
        ∧ (p.s.req .fi).job = .singleWr (wordAddr base k) ((p.tick g base i).desc k)) := by
  by_cases hwr : ∃ a d, p.s.burst.completes (p.s.burstIn i) = some (.singleWr a d)
  · obtain ⟨a, d, hj⟩ := hwr
    have hword := desc_tick_of_singleWr g base hj k
    by_cases ha : a = wordAddr base k
    · rw [if_pos ha] at hword
      have htouch : (BurstJob.singleWr a d).touches base = true :=
        List.any_eq_true.mpr ⟨k, List.mem_range.mpr hk, decide_eq_true ha⟩
      obtain ⟨hstands, hjob⟩ := hc.of_completes hp hj htouch
      exact Or.inr ⟨hstands, by rw [hjob, hword, ha]⟩
    · rw [if_neg ha] at hword
      exact Or.inl hword
  · left
    unfold tick
    dsimp only
    split
    · rename_i a d hj
      exact absurd ⟨a, d, hj⟩ hwr
    · rfl

theorem CarriesOut.desc_tick_of_places (hc : p.CarriesOut base i) (hp : p.s.burst.Ported)
    (h : p.s.fi.state.stands = false) (hk : k < 12) : (p.tick g base i).desc k = p.desc k := by
  rcases hc.word_tick (g := g) hp hk with hword | ⟨hstands, -⟩
  · exact hword
  · rw [h] at hstands
    cases hstands

theorem CarriesOut.desc_tick_of_asks (hc : p.CarriesOut base i) (hp : p.s.burst.Ported)
    (hasks : c.Asks base p.s.fiReq) (hk : k < 12) (hword : c.word ≠ some k) :
    (p.tick g base i).desc k = p.desc k := by
  rcases hc.word_tick (g := g) hp hk with hkeep | ⟨-, hjob⟩
  · exact hkeep
  · cases hw : c.word with
    | none =>
      rw [hasks.job_of_none hw] at hjob
      cases hjob
    | some k' =>
      rw [hasks.job_of_word hw] at hjob
      have haddr : wordAddr base k' = wordAddr base k := (BurstJob.singleWr.inj hjob).1
      have hlt : k' < 12 := by
        cases c <;> cases hw <;> decide
      rw [hw, wordAddr_inj hlt hk haddr] at hword
      exact absurd rfl hword

theorem CarriesOut.descCks_tick (hc : p.CarriesOut base i) (hp : p.s.burst.Ported) (hasks : c.Asks base p.s.fiReq)
    (hword : ∀ k < 10, c.word ≠ some k) : descCks (p.tick g base i).desc = descCks p.desc :=
  descCks_congr fun k hk => hc.desc_tick_of_asks hp hasks (by omega) (hword k hk)

theorem CarriesOut.asks_tick (hc : p.CarriesOut base i) (hp : p.s.burst.Ported)
    (hst : p.s.fi.state = c.mid ∨ p.s.fi.state = c.wait) (hasks : c.Asks base p.s.fiReq) (hbrings : c.Brings p) :
    c.Asks base (p.tick g base i).s.fiReq ∧ c.Brings (p.tick g base i) := by
  obtain ⟨start, hreq⟩ := Piece.fiReq_tick (g := g) (i := i) hst
  have hreq' : (p.tick g base i).s.fiReq = { p.s.fiReq with start := start } := hreq
  refine ⟨?_, fun hset => ?_⟩
  · rw [hreq']
    exact hasks
  · subst hset
    rw [hreq', hc.descCks_tick hp hasks fun k hk heq => by cases heq; omega]
    exact hbrings rfl

/-- **The effect of a request that has been carried out lasts while the builder stands by it.** -/
theorem CarriesOut.did_tick (hc : p.CarriesOut base i) (hp : p.s.burst.Ported)
    (hadd : p.s.burst.Adding p.desc p.sent)
    (hadd' : (p.tick g base i).s.burst.Adding p.desc (p.tick g base i).sent)
    (hasks : c.Asks base p.s.fiReq) (hbrings : c.Brings p) (hdid : p.served = true → c.Did p)
    (hserved : (p.tick g base i).served = true) : c.Did (p.tick g base i) := by
  have hor : p.served = true ∨ p.s.burst.completes (p.s.burstIn i) = some (p.s.req .fi).job := by
    have hand := (Bool.and_eq_true _ _ ▸ hserved).2
    rwa [Bool.or_eq_true, decide_eq_true_eq] at hand
  cases c with
  | bufLen | frameLen => trivial
  | calCks =>
    show (p.tick g base i).s.burst.ptrChecksum = descCks (p.tick g base i).desc
    rw [hc.descCks_tick hp hasks fun k _ heq => by cases heq]
    have hptr : p.s.burst.ptrChecksum = descCks p.desc := by
      rcases hor with hbefore | hnow
      · exact hdid hbefore
      · rw [hasks.job_of_none rfl] at hnow
        have hst := BurstBus.state_of_completes hnow
        cases hadd with
        | closing _ _ hptr => exact hptr
        | away hst' | wait hst' | receiving hst' =>
          rw [hst] at hst'
          cases hst'
    rcases hadd'.ptrChecksum with hkeep | hnew
    · exact hkeep.trans hptr
    · exact hnew
  | setCks =>
    show (p.tick g base i).desc 10 = (descCks (p.tick g base i).desc).setWidth 32
    rw [hc.descCks_tick hp hasks fun k hk heq => by cases heq; omega]
    have hjob := hasks.job_of_word rfl
    rw [hbrings rfl] at hjob
    rcases hor with hbefore | hnow
    · rcases hc.word_tick (g := g) hp (show 10 < 12 by decide) with hkeep | ⟨-, hwrite⟩
      · exact hkeep.trans (hdid hbefore)
      · rw [hjob] at hwrite
        exact ((BurstJob.singleWr.inj hwrite).2).symm
    · rw [hjob] at hnow
      exact (desc_tick_of_singleWr g base hnow 10).trans (if_pos rfl)

theorem CarriesOut.of_sums (hc : p.CarriesOut base i) (hp : p.s.burst.Ported) (hsums : p.s.burst.state.sums = true) :
    p.s.fi.state.stands = true ∧ (p.s.req .fi).job = .calDescCks p.s.burst.mstAddr := by
  have hjob := hp.drives.job_of_sums hsums
  have htouch : p.s.burst.req.job.touches base = true := by
    rw [hjob]
    rfl
  obtain ⟨hstands, hown⟩ := hc.own (BurstBus.working_of_sums hsums) htouch
  exact ⟨hstands, hown.symm.trans hjob⟩

theorem CarriesOut.mstAddr_of_sums (hc : p.CarriesOut base i) (hp : p.s.burst.Ported) (h : PatchStage base p)
    (hsums : p.s.burst.state.sums = true) : p.s.burst.mstAddr = base := by
  obtain ⟨hstands, hjob⟩ := hc.of_sums hp hsums
  cases h with
  | places c hst =>
    rw [hst] at hstands
    cases c <;> cases hstands
  | through hst =>
    rw [hst] at hstands
    cases hstands
  | stands c _ hasks =>
    cases hw : c.word with
    | none =>
      rw [hasks.job_of_none hw] at hjob
      exact (BurstJob.calDescCks.inj hjob).symm
    | some k =>
      rw [hasks.job_of_word hw] at hjob
      cases hjob

theorem CarriesOut.delivers (hc : p.CarriesOut base i) (hp : p.s.burst.Ported) (h : PatchStage base p) :
    BurstBus.Delivers p.desc (p.s.burstIn i) p.s.burst p.sent where
  early := hc.early
  data := by
    intro hst hrdy hlt
    have hsums : p.s.burst.state.sums = true := by
      rcases hst with hst | hst <;> rw [hst] <;> rfl
    have haddr := hc.mstAddr_of_sums hp h hsums
    exact hc.data hst hrdy p.sent (by omega) (by rw [haddr])

end Step

end Patch

section Run

variable {g : TdmaSetting} {base : BitVec 32} {p : Patch} {i : TcCycle} {len : BitVec 10} {inp : ℕ → TcCycle} {n : ℕ}
  {desc : ℕ → BitVec 32}

/-- **One edge of the patching.** -/
theorem PatchStage.tick (h : PatchStage base p) (hc : p.CarriesOut base i)
    (hp : p.s.burst.Ported) (hadd : p.s.burst.Adding p.desc p.sent) (hne : p.s.fi.state ≠ .startFcb) :
    PatchStage base (p.tick g base i) := by
  have hadd' := hadd.tick (hc.delivers hp h)
  cases h with
  | through hst => exact absurd hst hne
  | places c hst hready =>
    have hplaces : p.s.fi.state.places = true ∧ p.s.fi.state.stands = false := by
      rw [hst]
      cases c <;> exact ⟨rfl, rfl⟩
    refine .stands c (Or.inl (Piece.tick_start hst)) (Piece.asks_tick_start hst (hc.dread hplaces.1)) ?_ ?_
    · intro hset
      have hdesc : descCks (p.tick g base i).desc = descCks p.desc :=
        descCks_congr fun k hk => hc.desc_tick_of_places hp hplaces.2 (by omega)
      rw [hdesc, ← hready hset]
      subst hset
      show (p.s.fi.request (p.s.fiReqIn i) p.s.fiReq).writeData = _
      simp only [Fi.request, hst, Piece.start]
      rfl
    · intro hserved
      have hfalse : (p.tick g base i).served = false := by
        show (!p.s.fi.state.places && _) = false
        rw [hplaces.1]
        rfl
      rw [hfalse] at hserved
      cases hserved
  | stands c hst hasks hbrings hdid =>
    obtain ⟨hasks', hbrings'⟩ := hc.asks_tick (g := g) hp hst hasks hbrings
    have hdid' := hc.did_tick (g := g) hp hadd hadd' hasks hbrings hdid
    rcases hst with hmid | hwait
    · have hnext := Piece.tick_mid (g := g) (i := i) hmid
      refine .stands c ?_ hasks' hbrings' hdid'
      split at hnext
      · exact Or.inr hnext
      · exact Or.inl hnext
    · have hnext := Piece.tick_wait (g := g) (i := i) hwait
      cases hdone : p.s.burst.doneTc with
      | false =>
        rw [hdone, if_neg Bool.false_ne_true] at hnext
        exact .stands c (Or.inr hnext) hasks' hbrings' hdid'
      | true =>
        rw [hdone, if_pos rfl] at hnext
        have hleaves : p.s.fi.state.leaves = true := by
          rw [hwait]
          cases c <;> rfl
        have hserved : (p.tick g base i).served = true := by
          show (!p.s.fi.state.places && (p.served || _)) = true
          rw [hc.done hleaves hdone, (Piece.stands_of (Or.inr hwait)).2]
          rfl
        have hend := hdid' hserved
        cases c with
        | bufLen => exact .places .frameLen hnext fun hset => Piece.noConfusion hset
        | frameLen => exact .places .calCks hnext fun hset => Piece.noConfusion hset
        | calCks => exact .places .setCks hnext fun _ => hend
        | setCks => exact .through hnext hend

/-- What holds while the builder patches the descriptor. -/
structure Patch.Inv (base : BitVec 32) (p : Patch) : Prop where
  ported : p.s.burst.Ported
  adding : p.s.burst.Adding p.desc p.sent
  stage : PatchStage base p

/-- A write ends its transaction, so that the words stay while they are added up. -/
theorem Patch.desc_tick_of_sums (hsums : (p.tick g base i).s.burst.state.sums = true) (k : ℕ) :
    (p.tick g base i).desc k = p.desc k := by
  show (match p.s.burst.completes (p.s.burstIn i) with
    | some (.singleWr a d) => if a = wordAddr base k then d else p.desc k
    | _ => p.desc k) = p.desc k
  split
  · rename_i a d hj
    have hwork := BurstBus.working_of_completes hj
    rw [BurstBus.working, Bool.and_eq_true, decide_eq_true_eq, Bool.not_eq_true'] at hwork
    have hend := BurstBus.isEnd_nextIpicState (i := p.s.burstIn i) hwork.1 hwork.2
    rw [hj, ← BurstBus.tick_state] at hend
    exact absurd hsums (Bool.eq_false_iff.mp (BurstState.sums_of_isEnd hend))
  · rfl

/-- **The step lemma.** -/
theorem Patch.Inv.tick (h : p.Inv base) (hc : p.CarriesOut base i) (hne : p.s.fi.state ≠ .startFcb) :
    (p.tick g base i).Inv base where
  ported := h.ported.tick
  stage := h.stage.tick hc h.ported h.adding hne
  adding := by
    have hadd : (p.tick g base i).s.burst.Adding p.desc (p.tick g base i).sent :=
      h.adding.tick (hc.delivers h.ported h.stage)
    cases hsums : (p.tick g base i).s.burst.state.sums with
    | false => exact .away hsums
    | true => exact hadd.congr fun k _ => (Patch.desc_tick_of_sums hsums k).symm

/-- The run from cycle `n` on, where the words of the descriptor are `desc`. -/
def Patch.run (g : TdmaSetting) (len : BitVec 10) (inp : ℕ → TcCycle) (base : BitVec 32) (n : ℕ)
    (desc : ℕ → BitVec 32) : ℕ → Patch :=
  trace (Patch.tick g base) (fun k => inp (n + k)) { s := (TcRun.run g len inp n).s, desc := desc }

theorem Patch.run_s (k : ℕ) : (Patch.run g len inp base n desc k).s = (TcRun.run g len inp (n + k)).s := by
  induction k with
  | zero => rfl
  | succ k ih =>
    show (Patch.run g len inp base n desc k).s.tick g (inp (n + k)) = (TcRun.run g len inp (n + k)).s.tick g (inp (n + k))
    rw [ih]

/-- **The run lemma**: up to the end of the patching. -/
theorem Patch.inv_run (hst : (TcRun.run g len inp n).s.fi.state = .setBufLenStart)
    (hcarries : ∀ k, (∀ j ≤ k, (Patch.run g len inp base n desc j).s.fi.state ≠ .startFcb) →
      (Patch.run g len inp base n desc k).CarriesOut base (inp (n + k))) (k : ℕ)
    (hne : ∀ j < k, (Patch.run g len inp base n desc j).s.fi.state ≠ .startFcb) :
    (Patch.run g len inp base n desc k).Inv base := by
  induction k with
  | zero =>
    have hported := (TcRun.inv_run g len inp n).inv.burst
    refine ⟨hported, .away ?_, .places .bufLen hst fun hset => Piece.noConfusion hset⟩
    have hc : (Patch.run g len inp base n desc 0).CarriesOut base (inp (n + 0)) := by
      refine hcarries 0 fun j hj => ?_
      rw [Nat.le_zero.mp hj]
      show (TcRun.run g len inp n).s.fi.state ≠ .startFcb
      rw [hst]
      exact nofun
    -- a checksum under way would be the builder's
    by_contra hsums
    rw [Bool.not_eq_false] at hsums
    have hstands : (TcRun.run g len inp n).s.fi.state.stands = true := (hc.of_sums hported hsums).1
    rw [hst] at hstands
    cases hstands
  | succ k ih =>
    have hbefore : ∀ j ≤ k, (Patch.run g len inp base n desc j).s.fi.state ≠ .startFcb :=
      fun j hj => hne j (Nat.lt_succ_of_le hj)
    exact (ih fun j hj => hne j (Nat.lt_succ_of_lt hj)).tick (hcarries k hbefore) (hbefore k (Nat.le_refl k))

/-- The bus answers the builder: a request that is held is acknowledged, and a done pulse comes to the builder that waits
for one. -/
structure TcRun.Answers (g : TdmaSetting) (len : BitVec 10) (inp : ℕ → TcCycle) : Prop where
  ack : ∀ n, (TcRun.run g len inp n).s.fi.state.stage = .calling →
    ∃ m, n ≤ m ∧ (TcRun.run g len inp m).s.arb.ack .fi = true
  done : ∀ n, (TcRun.run g len inp n).s.fi.state.stage = .waiting ∨ (TcRun.run g len inp n).s.fi.state.hasty = true →
    ∃ m, n ≤ m ∧ (TcRun.run g len inp m).s.burst.doneTc = true

theorem TcRun.Answers.comes_next (h : TcRun.Answers g len inp) (c : Piece) (hst : (TcRun.run g len inp n).s.fi.state = c.start) :
    Comes (TcRun.run g len inp) (fun r => r.s.fi.state ≠ .startFcb) (fun r => r.s.fi.state = c.next) n := by
  have hend : ∀ m, (TcRun.run g len inp m).s.fi.state = c.wait →
      Comes (TcRun.run g len inp) (fun r => r.s.fi.state ≠ .startFcb) (fun r => r.s.fi.state = c.next) m := by
    intro m hwait
    refine Comes.of_signal (W := fun r => r.s.fi.state = c.wait)
      (c := fun k => (TcRun.run g len inp k).s.burst.doneTc = true) ?_ ?_ ?_ hwait ?_
    · intro k hk hno
      exact (Piece.tick_wait hk).trans (if_neg hno)
    · intro r hr
      rw [hr]
      cases c <;> exact nofun
    · intro k hk hyes
      exact Comes.here ((Piece.tick_wait hk).trans (if_pos hyes))
    · refine h.done m ?_
      rw [hwait]
      cases c <;> decide
  have hmid : (TcRun.run g len inp (n + 1)).s.fi.state = c.mid := Piece.tick_start hst
  refine Comes.step (by rw [hst]; cases c <;> exact nofun) ?_
  refine Comes.of_signal (W := fun r => r.s.fi.state = c.mid)
    (c := fun k => c.signal (TcRun.run g len inp k).s = true) ?_ ?_ ?_ hmid ?_
  · intro k hk hno
    exact (Piece.tick_mid hk).trans (if_neg hno)
  · intro r hr
    rw [hr]
    cases c <;> exact nofun
  · intro k hk hyes
    exact hend (k + 1) ((Piece.tick_mid hk).trans (if_pos hyes))
  · cases c with
    | bufLen | frameLen => exact h.done (n + 1) (Or.inr (by rw [hmid]; rfl))
    | calCks | setCks => exact h.ack (n + 1) (by rw [hmid]; rfl)

/-- **What the builder leaves in a descriptor.**  In every run, whatever the words of the descriptor and the length of the
frame, if the bus carries out the requests of the builder on the descriptor from `FI_SET_BUF_LEN` on, with any stalls in
the read burst, then the word `ctl10` is the checksum of the descriptor as the driver takes it when the builder is through
with `FI_SET_CKS`; and it comes through if the bus answers. -/
theorem patched_checksum_valid (g : TdmaSetting) (len : BitVec 10) (inp : ℕ → TcCycle) (base : BitVec 32) (n : ℕ)
    (desc : ℕ → BitVec 32) (hst : (TcRun.run g len inp n).s.fi.state = .setBufLenStart)
    (hcarries : ∀ k, (∀ j ≤ k, (Patch.run g len inp base n desc j).s.fi.state ≠ .startFcb) →
      (Patch.run g len inp base n desc k).CarriesOut base (inp (n + k))) :
    (∀ m, (∀ k < m, (Patch.run g len inp base n desc k).s.fi.state ≠ .startFcb) →
      (Patch.run g len inp base n desc m).s.fi.state = .startFcb →
        (Txc.ofWords (Patch.run g len inp base n desc m).desc).ctl10
          = (Txc.ofWords (Patch.run g len inp base n desc m).desc).calcPtrChksum.setWidth 32)
      ∧ (TcRun.Answers g len inp → ∃ m, (∀ k < m, (Patch.run g len inp base n desc k).s.fi.state ≠ .startFcb)
        ∧ (Patch.run g len inp base n desc m).s.fi.state = .startFcb) := by
  constructor
  · intro m hne hend
    rw [calcPtrChksum_ofWords]
    cases (Patch.inv_run hst hcarries m hne).stage with
    | through _ hcks => exact hcks
    | places c hst' =>
      rw [hend] at hst'
      cases c <;> cases hst'
    | stands c hst' =>
      rw [hend] at hst'
      rcases hst' with hst' | hst' <;> cases c <;> cases hst'
  · intro hanswers
    have hcomes := (((hanswers.comes_next .bufLen hst).trans fun _ h => hanswers.comes_next .frameLen h).trans
      fun _ h => hanswers.comes_next .calCks h).trans fun _ h => hanswers.comes_next .setCks h
    obtain ⟨m, hle, hend, hway⟩ := hcomes
    obtain ⟨d, rfl⟩ := Nat.exists_eq_add_of_le hle
    refine ⟨d, fun k hk => ?_, ?_⟩
    · rw [Patch.run_s]
      exact hway (n + k) (by omega) (by omega)
    · rw [Patch.run_s]
      exact hend

def cksDesc (k : ℕ) : BitVec 32 := 0xfff00000 + BitVec.ofNat 32 k

/-- In the read burst the AXI master stalls in every other cycle; word 3 has been patched. -/
def cksInp : ℕ → TcCycle := fun n =>
  { txfifoValid := true, txfifoDread := 0x1000, cmdack := true, cmplt := true
    mstrdSrcRdyN := 100 ≤ n && n % 2 = 1, mstwrDstRdyN := false
    mstrdD := if n < 142 then 0x2000 else if n = 148 then 0x2d0000 else cksDesc ((n - 142) / 2) }

/-- The checksum of the patched descriptor, whose sum has its highest bit set. -/
theorem patched_checksum_valid_stalled :
    (Patch.run TcRun.promptSetting 4 cksInp 0x1000 100 cksDesc 75).s.fi.state = .startFcb ∧
      (Txc.ofWords (Patch.run TcRun.promptSetting 4 cksInp 0x1000 100 cksDesc 75).desc).ctl10
        = (Txc.ofWords (Patch.run TcRun.promptSetting 4 cksInp 0x1000 100 cksDesc 75).desc).calcPtrChksum.setWidth 32 := by
  have hall : ∀ k < 75, (Patch.run TcRun.promptSetting 4 cksInp 0x1000 100 cksDesc k).s.fi.state ≠ .startFcb
      ∧ (Patch.run TcRun.promptSetting 4 cksInp 0x1000 100 cksDesc k).CarriesOut 0x1000 (cksInp (100 + k)) := by
    decide +kernel
  have hend : (Patch.run TcRun.promptSetting 4 cksInp 0x1000 100 cksDesc 75).s.fi.state = .startFcb := by decide +kernel
  refine ⟨hend, (patched_checksum_valid TcRun.promptSetting 4 cksInp 0x1000 100 cksDesc (by decide +kernel) ?_).1 75
    (fun k hk => (hall k hk).1) hend⟩
  intro k hne
  by_cases hk : k < 75
  · exact (hall k hk).2
  · exact absurd hend (hne 75 (Nat.le_of_not_lt hk))

end Run

end VanetTdma.Fpga
