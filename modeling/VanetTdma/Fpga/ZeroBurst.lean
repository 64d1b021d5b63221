import VanetTdma.Fpga.BurstWrite

/-!
# The words of a zeroing burst (`IPIC_SETZERO` in `ipic_state_machine.v`)

A `SET_ZERO` transaction writes zeros to a receive buffer.  The machine counts the words it has handed over and turns
from `IPIC_SETZERO_START` to `IPIC_SETZERO_LAST` when two words are left: the one on the channel is to be accepted at
that very edge, and the last one is shown with EOF after it.  The turn does not look at
`bus2ip_mstwr_dst_rdy_n`, so if the AXI master stalls in that cycle the word on the channel becomes the last one, and
the burst is a word short.

* `TakesNext` — the AXI master does not stall in the cycle of the turn;
* `ZeroStage.tick` — how the transaction proceeds, and what a stall in that cycle does to its length;
* `set_zero_exact_iff` — the burst has the words it should have exactly if there is no such stall.
-/

namespace VanetTdma.Fpga

open Clocked

namespace BurstData

/-- The memory a zeroing burst seems to send. -/
def zeros : BitVec 9 → BitVec 32 := fun _ => 0

/-- A burst of `n` zero words, the first with SOF and the last with EOF. -/
def zeroBurst (n : ℕ) : List Beat := (List.range n).map fun k => { word := 0, sof := k = 0, eof := k + 1 = n }

/-- The AXI master is ready for a word of a zeroing burst, too, only in the cycle of its acknowledge and after. -/
structure ObeysZero (s : BurstData) (i : BurstBusIn) : Prop extends s.Obeys i where
  zeroWait : s.bus.state = .setzeroWait → i.cmdack = false → i.mstwrDstRdyN = true

instance (s : BurstData) (i : BurstBusIn) : Decidable (s.ObeysZero i) :=
  decidable_of_iff (s.Obeys i ∧ (s.bus.state = .setzeroWait → i.cmdack = false → i.mstwrDstRdyN = true))
    ⟨fun h => ⟨h.1, h.2⟩, fun h => ⟨h.toObeys, h.zeroWait⟩⟩

/-- In the cycle in which the machine turns to the last word, the AXI master takes the word before it. -/
def TakesNext (s : BurstData) (i : BurstBusIn) : Prop :=
  s.bus.state = .setzeroStart → s.bus.wrBeatIdx = s.bus.writeBeatLength - 2 → i.mstwrDstRdyN = false

instance (s : BurstData) (i : BurstBusIn) : Decidable (s.TakesNext i) :=
  inferInstanceAs (Decidable (_ → _ → _))

/-- The length of a burst that should have `L` words. -/
def zeroLength (L : ℕ) (full : Bool) : ℕ := if full then L else L - 1

/-- Where a zeroing burst of `L` words stands, and whether it is still going to have all of them. -/
inductive ZeroStage (L : ℕ) (A : List Beat) (s : BurstData) : Bool → Prop
  | dispatched (hst : s.bus.state = .dispatch) (htype : s.bus.ipicType = setZero) (hs : Silent s A) :
      ZeroStage L A s true
  | wait (hst : s.bus.state = .setzeroWait) (hidx : s.bus.wrBeatIdx.toNat = 0)
      (hlen : s.bus.writeBeatLength.toNat = L) (hs : Shows zeros L A s 0) : ZeroStage L A s true
  | start (k : ℕ) (hk : k + 2 ≤ L) (hst : s.bus.state = .setzeroStart) (hidx : s.bus.wrBeatIdx.toNat = k)
      (hlen : s.bus.writeBeatLength.toNat = L) (hs : Shows zeros L A s k) : ZeroStage L A s true
  | last (full : Bool) (hst : s.bus.state = .setzeroLast)
      (hs : Shows zeros (zeroLength L full) A s (zeroLength L full - 1)) : ZeroStage L A s full
  | closed (full : Bool) (hst : s.bus.state = .serzeroEnd)
      (hs : Silent s (A ++ beats zeros (zeroLength L full) (zeroLength L full))) : ZeroStage L A s full
  | ended (full : Bool) (hst : s.bus.state = .serzeroEnd2)
      (hs : Silent s (A ++ beats zeros (zeroLength L full) (zeroLength L full))) : ZeroStage L A s full

section Stages

variable {mem : BitVec 9 → BitVec 32} {L k : ℕ} {A : List Beat} {s : BurstData} {i : BurstBusIn} {full : Bool}

theorem zeroBurst_eq (n : ℕ) : zeroBurst n = beats zeros n n := rfl

theorem beats_congr {n n' : ℕ} (h : k < n) (h' : k < n') : beats mem n k = beats mem n' k := by
  refine List.map_congr_left fun j hj => ?_
  have hlt := List.mem_range.mp hj
  have hne : ¬ (j + 1 = n) := by omega
  have hne' : ¬ (j + 1 = n') := by omega
  simp only [beatAt, hne, hne', decide_false]

theorem Shows.sofN (h : Shows mem L A s k) (hk : 0 < k) : s.sofN = true := by
  have hsof : (!s.sofN) = decide (k = 0) := congrArg Beat.sof h.offer
  rw [decide_eq_false (by omega), Bool.not_eq_false'] at hsof
  exact hsof

theorem Shows.mstwrD (h : Shows zeros L A s k) : s.mstwrD = 0 := congrArg Beat.word h.offer

theorem Shows.tick_setzeroStart (h : Shows zeros L A s k) (hd : s.bus.dispatchState = .serving)
    (hdone : s.bus.ipicDone = false) (hnext : s.bus.nextIpicState i = .setzeroStart)
    (hidx : s.bus.wrBeatIdx.toNat = k) (hlen : s.bus.writeBeatLength.toNat = L) (hk : k + 2 < L) :
    ZeroStage L A (s.tick mem i) true := by
  rw [tick_serving hd hdone hnext]
  cases hrdy : i.mstwrDstRdyN with
  | true =>
    rw [show s.enter i .setzeroStart = s from if_pos hrdy]
    refine .start k (by omega) rfl ?_ hlen ⟨h.src, h.offer, h.accepts_of_stalled hrdy⟩
    simp only [BurstBus.enter, hrdy, if_true, hidx]
  | false =>
    rw [show s.enter i .setzeroStart = _ from if_neg (by rw [hrdy]; exact Bool.false_ne_true)]
    refine .start (k + 1) (by omega) rfl ?_ hlen ⟨h.src, ?_, h.accepts_of_ready hrdy⟩
    · simp only [BurstBus.enter, hrdy, Bool.false_eq_true, if_false]
      bv_omega
    · have hend : ¬ (k + 1 + 1 = L) := by omega
      simp [BurstData.offer, h.mstwrD, h.eofN (by omega), beatAt, zeros, hend]

/-- **The turn to the last word**: with a stall the word on the channel becomes the last one. -/
theorem Shows.tick_turn (h : Shows zeros L A s (L - 2)) (hd : s.bus.dispatchState = .serving)
    (hdone : s.bus.ipicDone = false) (hnext : s.bus.nextIpicState i = .setzeroLast) (h3 : 3 ≤ L) :
    ZeroStage L A (s.tick mem i) (!i.mstwrDstRdyN) := by
  have hsof := h.sofN (by omega)
  rw [tick_serving hd hdone hnext]
  cases hrdy : i.mstwrDstRdyN with
  | true =>
    refine .last false rfl ⟨h.src, ?_, ?_⟩
    · have hone : ¬ (L - 1 - 1 = 0) := by omega
      have hend : L - 1 - 1 + 1 = L - 1 := by omega
      simp [BurstData.offer, BurstData.enter, h.mstwrD, hsof, beatAt, zeros, zeroLength, hone, hend]
    · show s.accepted ++ s.accepts i = A ++ beats zeros (L - 1) (L - 1 - 1)
      rw [h.accepts_of_stalled hrdy, show L - 1 - 1 = L - 2 by omega,
        beats_congr (show L - 2 < L by omega) (show L - 2 < L - 1 by omega)]
  | false =>
    refine .last true rfl ⟨h.src, ?_, ?_⟩
    · have hone : ¬ (L - 1 = 0) := by omega
      have hend : L - 1 + 1 = L := by omega
      simp [BurstData.offer, BurstData.enter, h.mstwrD, hsof, beatAt, zeros, zeroLength, hone, hend]
    · show s.accepted ++ s.accepts i = A ++ beats zeros L (L - 1)
      rw [h.accepts_of_ready hrdy, show L - 2 + 1 = L - 1 by omega]

/-- **One edge of a zeroing burst**, whatever the stalls. -/
theorem ZeroStage.tick (h : ZeroStage L A s full) (hob : s.ObeysZero i) (hd : s.bus.dispatchState = .serving)
    (hdone : s.bus.ipicDone = false) (hne : s.bus.state ≠ .serzeroEnd2) (hlen : s.bus.writeLength.toNat / 4 = L)
    (h3 : 3 ≤ L) : ZeroStage L A (s.tick mem i) (full && decide (s.TakesNext i)) := by
  have hshift : ((s.bus.writeLength >>> 2).setWidth 13).toNat = L := by
    rw [BitVec.toNat_setWidth, BitVec.toNat_ushiftRight, Nat.shiftRight_eq_div_pow]
    omega
  have helse : s.bus.state ≠ .setzeroStart → (full && decide (s.TakesNext i)) = full := by
    intro hst
    have htakes : s.TakesNext i := fun h => absurd h hst
    rw [decide_eq_true htakes, Bool.and_true]
  cases h with
  | dispatched hst htype hs =>
    have hnext : s.bus.nextIpicState i = .setzeroWait := by
      simp [BurstBus.nextIpicState, hst, htype, burstRd, burstWr, setZero]
    rw [helse (by rw [hst]; exact BurstState.noConfusion), tick_serving hd hdone hnext]
    refine .wait rfl rfl hshift ⟨rfl, ?_, ?_⟩
    · have hend : ¬ (0 + 1 = L) := by omega
      simp [BurstData.offer, BurstData.enter, beatAt, zeros, hend]
    · rw [beats, List.range_zero, List.map_nil, List.append_nil]
      exact hs.accepts i
  | wait hst hidx hlen' hs =>
    rw [helse (by rw [hst]; exact BurstState.noConfusion)]
    cases hack : i.cmdack with
    | false =>
      have hnext : s.bus.nextIpicState i = .setzeroWait := by simp [BurstBus.nextIpicState, hst, hack]
      rw [tick_serving hd hdone hnext]
      refine .wait rfl rfl hshift ⟨rfl, ?_, hs.accepts_of_stalled (hob.zeroWait hst hack)⟩
      have hend : ¬ (0 + 1 = L) := by omega
      simp [BurstData.offer, BurstData.enter, beatAt, zeros, hend]
    | true =>
      have hnext : s.bus.nextIpicState i = .setzeroStart := by simp [BurstBus.nextIpicState, hst, hack]
      exact hs.tick_setzeroStart hd hdone hnext hidx hlen' (by omega)
  | start k hk hst hidx hlen' hs =>
    have hturn : s.bus.wrBeatIdx = s.bus.writeBeatLength - 2 ↔ k + 2 = L := by bv_omega
    by_cases hlast : k + 2 = L
    · have hnext : s.bus.nextIpicState i = .setzeroLast := by
        simp [BurstBus.nextIpicState, hst, hturn.mpr hlast]
      have htakes : decide (s.TakesNext i) = !i.mstwrDstRdyN := by
        cases hrdy : i.mstwrDstRdyN with
        | true =>
          refine decide_eq_false fun htakes => ?_
          rw [htakes hst (hturn.mpr hlast)] at hrdy
          cases hrdy
        | false => exact decide_eq_true fun _ _ => hrdy
      rw [show k = L - 2 by omega] at hs
      rw [Bool.true_and, htakes]
      exact hs.tick_turn hd hdone hnext h3
    · have hmore : s.bus.wrBeatIdx ≠ s.bus.writeBeatLength - 2 := fun heq => hlast (hturn.mp heq)
      have hnext : s.bus.nextIpicState i = .setzeroStart := by
        simp only [BurstBus.nextIpicState, hst]
        exact if_neg hmore
      have htakes : s.TakesNext i := fun _ heq => absurd heq hmore
      rw [Bool.true_and, decide_eq_true htakes]
      exact hs.tick_setzeroStart hd hdone hnext hidx hlen' (by omega)
  | last full hst hs =>
    have hpos : 0 < zeroLength L full := by
      unfold zeroLength
      split <;> omega
    rw [helse (by rw [hst]; exact BurstState.noConfusion)]
    cases hrdy : i.mstwrDstRdyN with
    | true =>
      have hnext : s.bus.nextIpicState i = .setzeroLast := by simp [BurstBus.nextIpicState, hst, hrdy]
      have heof : s.eofN = false := by
        have heof : (!s.eofN) = decide (zeroLength L full - 1 + 1 = zeroLength L full) :=
          congrArg Beat.eof hs.offer
        rw [Nat.sub_add_cancel hpos, decide_eq_true rfl, Bool.not_eq_true'] at heof
        exact heof
      have henter : s.enter i .setzeroLast = s := by
        show { s with eofN := false } = s
        rw [← heof]
      rw [tick_serving hd hdone hnext, henter]
      exact .last full rfl ⟨hs.src, hs.offer, hs.accepts_of_stalled hrdy⟩
    | false =>
      have hnext : s.bus.nextIpicState i = .serzeroEnd := by simp [BurstBus.nextIpicState, hst, hrdy]
      have hall := hs.accepts_of_ready hrdy
      rw [Nat.sub_add_cancel hpos] at hall
      rw [tick_serving hd hdone hnext]
      exact .closed full rfl ⟨rfl, hall⟩
  | closed full hst hs =>
    rw [helse (by rw [hst]; exact BurstState.noConfusion)]
    cases hcmplt : i.cmplt with
    | false =>
      have hnext : s.bus.nextIpicState i = .serzeroEnd := by simp [BurstBus.nextIpicState, hst, hcmplt]
      rw [tick_serving hd hdone hnext]
      exact .closed full rfl ⟨rfl, hs.accepts i⟩
    | true =>
      have hnext : s.bus.nextIpicState i = .serzeroEnd2 := by simp [BurstBus.nextIpicState, hst, hcmplt]
      rw [tick_serving hd hdone hnext]
      exact .ended full rfl ⟨hs.src, hs.accepts i⟩
  | ended full hst hs => exact absurd hst hne

theorem ZeroStage.midst (h : ZeroStage L A s full) (hp : s.bus.Ported) (htype : s.bus.ipicType = setZero)
    (hne : s.bus.state ≠ .serzeroEnd2) : s.bus.Midst := by
  have hmid : s.bus.state ≠ .idle ∧ s.bus.state.isEnd = false ∧ s.bus.state ≠ .error := by
    cases h with
    | ended _ hst => exact absurd hst hne
    | dispatched hst | wait hst | start _ _ hst | last _ hst | closed _ hst =>
      rw [hst]
      decide
  exact hp.midst hmid.1 hmid.2.1 hmid.2.2 (Or.inr (Or.inr (Or.inl htype)))

end Stages

/-! ### Whole runs -/

section Run

variable {mem : BitVec 9 → BitVec 32} {inp : ℕ → BurstBusIn} {n L : ℕ} {A : List Beat} {full : Bool}

/-- A zeroing burst of `L` words is under way, and `A` had been accepted before it. -/
structure ZeroUnder (L : ℕ) (A : List Beat) (full : Bool) (s : BurstData) : Prop where
  stage : ZeroStage L A s full
  type : s.bus.ipicType = setZero
  length : s.bus.writeLength.toNat / 4 = L

theorem ZeroUnder.succ (hob : ∀ n, (run mem inp n).ObeysZero (inp n)) (h3 : 3 ≤ L)
    (h : ZeroUnder L A full (run mem inp n)) (hne : (run mem inp n).bus.state ≠ .serzeroEnd2) :
    ZeroUnder L A (full && decide ((run mem inp n).TakesNext (inp n))) (run mem inp (n + 1)) := by
  have hported := (inv_run (fun n => (hob n).toObeys) n).ported
  obtain ⟨hd, hdone, -⟩ := h.stage.midst hported h.type hne
  obtain ⟨-, -, -, hreq, -⟩ := BurstBus.tick_serving_keeps (i := inp n) hd hdone
  refine ⟨h.stage.tick (hob n) hd hdone hne h.length h3, (congrArg BurstReq.ipicType hreq).trans h.type, ?_⟩
  have hlen : (run mem inp (n + 1)).bus.writeLength = (run mem inp n).bus.writeLength :=
    congrArg BurstReq.writeLength hreq
  rw [hlen, h.length]

theorem ZeroUnder.run (hob : ∀ n, (run mem inp n).ObeysZero (inp n)) (h3 : 3 ≤ L)
    (h : ZeroUnder L A true (run mem inp n)) (m : ℕ)
    (hne : ∀ k < m, (BurstData.run mem inp (n + k)).bus.state ≠ .serzeroEnd2) :
    ZeroUnder L A (decide (∀ k < m, (BurstData.run mem inp (n + k)).TakesNext (inp (n + k))))
      (BurstData.run mem inp (n + m)) := by
  induction m with
  | zero =>
    rw [decide_eq_true (fun k hk => absurd hk (Nat.not_lt_zero k))]
    exact h
  | succ m ih =>
    have hnext := (ih fun k hk => hne k (by omega)).succ hob h3 (hne m (Nat.lt_succ_self m))
    have hsplit : (∀ k < m + 1, (BurstData.run mem inp (n + k)).TakesNext (inp (n + k))) ↔
        (∀ k < m, (BurstData.run mem inp (n + k)).TakesNext (inp (n + k))) ∧
          (BurstData.run mem inp (n + m)).TakesNext (inp (n + m)) := Nat.forall_lt_succ_right
    rw [← Bool.decide_and, ← decide_eq_decide.mpr hsplit] at hnext
    exact hnext

theorem ZeroStage.accepted {s : BurstData} (h : ZeroStage L A s full) (hend : s.bus.state = .serzeroEnd2) :
    s.accepted = A ++ zeroBurst (zeroLength L full) := by
  cases h with
  | ended _ _ hs =>
    rw [zeroBurst_eq]
    exact hs.accepted
  | dispatched hst | wait hst | start _ _ hst | last _ hst | closed _ hst =>
    rw [hst] at hend
    cases hend

theorem append_zeroBurst_eq_iff (hL : 0 < L) :
    A ++ zeroBurst (zeroLength L full) = A ++ zeroBurst L ↔ full = true := by
  cases full with
  | true => exact iff_of_true rfl rfl
  | false =>
    refine iff_of_false (fun heq => ?_) Bool.false_ne_true
    have hlen := congrArg List.length (List.append_cancel_left heq)
    rw [zeroBurst, zeroBurst, List.length_map, List.length_map, List.length_range, List.length_range] at hlen
    have hshort : zeroLength L false = L - 1 := rfl
    omega

/-- **A zeroing burst comes to its end** if the AXI master goes on answering. -/
theorem ZeroUnder.exists_end (hob : ∀ n, (BurstData.run mem inp n).ObeysZero (inp n)) (h3 : 3 ≤ L)
    (hanswer : ∀ st n, ∃ m, n ≤ m ∧ BurstState.waits (inp m) st = true)
    (h : ZeroUnder L A full (BurstData.run mem inp n)) :
    ∃ m, n ≤ m ∧ (BurstData.run mem inp m).bus.state = .serzeroEnd2 := by
  refine BurstBus.exists_state (fun _ => rfl) hanswer (U := fun s => ∃ full, ZeroUnder L A full s ∧ s.bus.Ported)
    ?_ ⟨full, h, (inv_run (fun n => (hob n).toObeys) n).ported⟩
  rintro n ⟨full, h, hp⟩ hne
  exact ⟨h.stage.midst hp h.type hne, _, h.succ hob h3 hne, (inv_run (fun n => (hob n).toObeys) (n + 1)).ported⟩

/-- **The words of a zeroing burst.**  In every run and for every zeroing burst of at least three words, what the AXI
master has accepted by the end of the transaction is the burst of `write_length / 4` zero words, with SOF on the first
and EOF on the last only, exactly if it did not stall in the cycle in which the machine turned to the last word; and
the end comes if the AXI master goes on answering. -/
theorem set_zero_exact_iff (mem : BitVec 9 → BitVec 32) (inp : ℕ → BurstBusIn)
    (hob : ∀ n, (run mem inp n).ObeysZero (inp n)) (n : ℕ) (hst : (run mem inp n).bus.state = .dispatch)
    (htype : (run mem inp n).bus.ipicType = setZero) (h3 : 3 ≤ (run mem inp n).bus.writeLength.toNat / 4) :
    (∀ m, (∀ k < m, (run mem inp (n + k)).bus.state ≠ .serzeroEnd2) →
      (run mem inp (n + m)).bus.state = .serzeroEnd2 →
        ((run mem inp (n + m)).accepted
            = (run mem inp n).accepted ++ zeroBurst ((run mem inp n).bus.writeLength.toNat / 4) ↔
          ∀ k < m, (run mem inp (n + k)).TakesNext (inp (n + k))))
      ∧ ((∀ st n, ∃ m, n ≤ m ∧ BurstState.waits (inp m) st = true) →
        ∃ m, (∀ k < m, (run mem inp (n + k)).bus.state ≠ .serzeroEnd2)
          ∧ (run mem inp (n + m)).bus.state = .serzeroEnd2) := by
  have hinv := inv_run (fun n => (hob n).toObeys) n
  have hsilent : (run mem inp n).srcRdyN = true := hinv.silent (by rw [hst]; rfl)
  have hunder : ZeroUnder ((run mem inp n).bus.writeLength.toNat / 4) (run mem inp n).accepted true
      (run mem inp n) := ⟨.dispatched hst htype ⟨hsilent, rfl⟩, htype, rfl⟩
  refine ⟨fun m hne hend => ?_, fun hanswer => ?_⟩
  · rw [((hunder.run hob h3 m hne).stage).accepted hend, append_zeroBurst_eq_iff (by omega), decide_eq_true_eq]
  · obtain ⟨m, hle, hend⟩ := hunder.exists_end hob h3 hanswer
    have hex : ∃ d, (run mem inp (n + d)).bus.state = .serzeroEnd2 := ⟨m - n, by rwa [Nat.add_sub_cancel' hle]⟩
    exact ⟨Nat.find hex, fun k hk => Nat.find_min hex hk, Nat.find_spec hex⟩

/-- A request for three words, acknowledged in cycle 3; the AXI master stalls in the cycles of `stalls`. -/
def zeroInp (stalls : List ℕ) : ℕ → BurstBusIn := fun n =>
  { tc := { start := n = 0, ipicType := setZero, writeLength := 12 }, dp := {}, cmdack := 3 ≤ n, cmplt := 6 ≤ n
    mstrdSrcRdyN := false, mstwrDstRdyN := n < 3 || stalls.contains n, mstrdD := 0 }

theorem zeroInp_obeys {stalls : List ℕ}
    (hall : ∀ n < 12, (run zeros (zeroInp stalls) n).ObeysZero (zeroInp stalls n))
    (hrest : (run zeros (zeroInp stalls) 12).Rests) (n : ℕ) :
    (run zeros (zeroInp stalls) n).ObeysZero (zeroInp stalls n) := by
  by_cases hn : n < 12
  · exact hall n hn
  · obtain ⟨d, rfl⟩ := Nat.exists_eq_add_of_le (Nat.le_of_not_lt hn)
    have hquiet : ∀ n, 12 ≤ n → (zeroInp stalls n).tc.start = false ∧ (zeroInp stalls n).dp.start = false :=
      fun n hn => ⟨decide_eq_false (by omega), rfl⟩
    have hst := (hrest.run hquiet d).state
    constructor
    · constructor <;> intro hother <;> exact BurstState.noConfusion (hst.symm.trans hother)
    · intro hother
      exact BurstState.noConfusion (hst.symm.trans hother)

/-- Without a stall in the cycle of the turn, cycle 4, three words are written. -/
theorem set_zero_exact_iff_unstalled :
    (run zeros (zeroInp [5]) 8).bus.state = .serzeroEnd2 ∧
      (run zeros (zeroInp [5]) 8).accepted = zeroBurst 3 := by
  have hob := @zeroInp_obeys [5] (by decide +kernel) (by decide +kernel)
  have hend : (run zeros (zeroInp [5]) (2 + 6)).bus.state = .serzeroEnd2 := by decide +kernel
  refine ⟨hend, ?_⟩
  exact ((set_zero_exact_iff zeros (zeroInp [5]) hob 2 (by decide +kernel) (by decide +kernel)
    (by decide +kernel)).1 6 (by decide +kernel) hend).mpr (by decide +kernel)

/-- With a stall in that cycle only two are. -/
theorem set_zero_one_word_short :
    (∀ n, (run zeros (zeroInp [4]) n).ObeysZero (zeroInp [4] n)) ∧
      (run zeros (zeroInp [4]) 2).bus.state = .dispatch ∧ (run zeros (zeroInp [4]) 2).bus.ipicType = setZero ∧
      (run zeros (zeroInp [4]) 2).bus.writeLength.toNat / 4 = 3 ∧
      (run zeros (zeroInp [4]) 2).accepted = [] ∧
      (run zeros (zeroInp [4]) 7).bus.state = .serzeroEnd2 ∧
      (run zeros (zeroInp [4]) 7).accepted = [⟨0, true, false⟩, ⟨0, false, true⟩] := by
  refine ⟨zeroInp_obeys (by decide +kernel) (by decide +kernel), ?_⟩
  decide +kernel

end Run

end BurstData

end VanetTdma.Fpga
