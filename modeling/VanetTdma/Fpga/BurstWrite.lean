import Mathlib.Data.Nat.Find
import VanetTdma.Lib.Clocked
import VanetTdma.Fpga.BurstProgress

/-!
# The words of a burst write (`ipic_state_machine.v`)

A burst write first copies the words from the send-packet memory into `bunch_data`, three cycles a word, and then
shows them on the write channel one by one.  A word is accepted at an edge at which both `ip2bus_mstwr_src_rdy_n` and
`bus2ip_mstwr_dst_rdy_n` are low.  The FIFO that is filled and read beside `bunch_data` drives nothing and is left
out.

`BurstData` is the bus with the registers of the write channel, the port of the memory and the list of all beats that
the AXI master has accepted.

* `Obeys` — the AXI master is not ready before it has acknowledged, and completes only what it has got;
* `Stage.tick` — how a burst write proceeds, whatever the stalls;
* `burst_write_exact` — the beats accepted are the words of the memory, in order and once each.
-/

namespace VanetTdma.Fpga

open Clocked SharedBus

/-- A beat of the write channel. -/
structure Beat where
  word : BitVec 32
  sof : Bool
  eof : Bool
deriving DecidableEq

/-- The states in which a word may be on the write channel. -/
def BurstState.offers : BurstState → Bool
  | .burstWrStart | .burstWrWait | .burstWr | .burstWrEnd | .setzeroWait | .setzeroStart | .setzeroLast
  | .singleWrWait | .singleWrWr => true
  | _ => false

/-- The bus, the write channel and the port of the send-packet memory; `accepted` is the history. -/
structure BurstData where
  bus : BurstBus := {}
  mstwrD : BitVec 32 := 0
  sofN : Bool := true
  eofN : Bool := true
  srcRdyN : Bool := true
  sendpktAddrb : BitVec 9 := 0
  sendpktDoutb : BitVec 32 := 0
  bunchData : Fin 64 → BitVec 32 := fun _ => 0
  accepted : List Beat := []

namespace BurstData

/-- Word `k` of `bunch_data`; there is nothing beyond the last. -/
def wordAt (s : BurstData) (k : ℕ) : BitVec 32 := if h : k < 64 then s.bunchData ⟨k, h⟩ else 0

/-- Word `k` of `bunch_data` is written; a part select beyond the register writes nothing. -/
def store (s : BurstData) (k : ℕ) (x : BitVec 32) : BurstData :=
  { s with bunchData := fun j => if j.val = k then x else s.bunchData j }

/-- The registers of the write channel and of the memory port on entering a state. -/
def enter (i : BurstBusIn) (s : BurstData) (st : BurstState) : BurstData :=
  match st with
  | .idle => { s with sendpktAddrb := 0 }
  | .burstWrPreStart => s.store 0 s.sendpktDoutb
  | .burstWrPreSetaddr => { s with sendpktAddrb := s.bus.wrBeatIdx.setWidth 9 }
  | .burstWrPreRd2fifo => s.store (s.bus.wrBeatIdx - 1).toNat s.sendpktDoutb
  | .burstWrStart => { s with sofN := false, eofN := true, srcRdyN := false, mstwrD := s.wordAt 0 }
  | .burstWr =>
    if i.mstwrDstRdyN then s
    else
      -- the part select is computed on the 13 bits of the counter
      { s with
        sofN := true
        mstwrD := s.wordAt ((s.bus.wrBeatIdx <<< 5).toNat / 32)
        eofN := if s.bus.wrBeatIdx + 1 = s.bus.writeBeatLength then false else s.eofN }
  | .burstWrEnd => if i.mstwrDstRdyN then s else { s with eofN := true, srcRdyN := true }
  | .setzeroWait => { s with mstwrD := 0, sofN := false, eofN := true, srcRdyN := false }
  | .setzeroStart => if i.mstwrDstRdyN then s else { s with sofN := true }
  | .setzeroLast => { s with eofN := false }
  | .serzeroEnd => { s with eofN := true, srcRdyN := true }
  | .singleWrWait => { s with mstwrD := s.bus.writeData, sofN := false, eofN := false, srcRdyN := false }
  | .singleWrWr1 => { s with sofN := true, eofN := true, srcRdyN := true }
  | _ => s

def offer (s : BurstData) : Beat where
  word := s.mstwrD
  sof := !s.sofN
  eof := !s.eofN

def accepts (s : BurstData) (i : BurstBusIn) : List Beat :=
  if s.srcRdyN = false ∧ i.mstwrDstRdyN = false then [s.offer] else []

/-- One edge; the memory has a registered output. -/
def tick (mem : BitVec 9 → BitVec 32) (s : BurstData) (i : BurstBusIn) : BurstData :=
  { s.enter i (s.bus.nextIpicState i) with
    bus := s.bus.tick i, sendpktDoutb := mem s.sendpktAddrb, accepted := s.accepted ++ s.accepts i }

/-- The AXI master is ready for a word of a burst only in the cycle of its acknowledge and after, and it completes a
burst only when it has accepted the last word. -/
structure Obeys (s : BurstData) (i : BurstBusIn) : Prop where
  start : s.bus.state = .burstWrStart → i.mstwrDstRdyN = true
  wait : s.bus.state = .burstWrWait → i.cmdack = false → i.mstwrDstRdyN = true
  completes : s.bus.state = .burstWrEnd → s.srcRdyN = false → i.cmplt = false

instance (s : BurstData) (i : BurstBusIn) : Decidable (s.Obeys i) :=
  decidable_of_iff ((s.bus.state = .burstWrStart → i.mstwrDstRdyN = true)
      ∧ (s.bus.state = .burstWrWait → i.cmdack = false → i.mstwrDstRdyN = true)
      ∧ (s.bus.state = .burstWrEnd → s.srcRdyN = false → i.cmplt = false))
    ⟨fun h => ⟨h.1, h.2.1, h.2.2⟩, fun h => ⟨h.start, h.wait, h.completes⟩⟩

/-- Beat `k` of a burst of `L` words. -/
def beatAt (mem : BitVec 9 → BitVec 32) (L k : ℕ) : Beat where
  word := mem (BitVec.ofNat 9 k)
  sof := k = 0
  eof := k + 1 = L

/-- The first `k` beats of a burst of `L` words. -/
def beats (mem : BitVec 9 → BitVec 32) (L k : ℕ) : List Beat := (List.range k).map (beatAt mem L)

section Stages

variable {mem : BitVec 9 → BitVec 32} {L k : ℕ} {A : List Beat} {s : BurstData} {i : BurstBusIn}

theorem beats_succ (mem : BitVec 9 → BitVec 32) (L k : ℕ) :
    beats mem L (k + 1) = beats mem L k ++ [beatAt mem L k] := by
  rw [beats, List.range_succ, List.map_append]
  rfl

/-- The first `k` words have been copied. -/
def Copied (mem : BitVec 9 → BitVec 32) (s : BurstData) (k : ℕ) : Prop :=
  ∀ j : Fin 64, j.val < k → s.bunchData j = mem (BitVec.ofNat 9 j.val)

/-- The machine shows beat `k`, and the beats before it have been accepted after `A`. -/
structure Shows (mem : BitVec 9 → BitVec 32) (L : ℕ) (A : List Beat) (s : BurstData) (k : ℕ) : Prop where
  src : s.srcRdyN = false
  offer : s.offer = beatAt mem L k
  accepted : s.accepted = A ++ beats mem L k

/-- The machine shows nothing, and `l` is what has been accepted. -/
structure Silent (s : BurstData) (l : List Beat) : Prop where
  src : s.srcRdyN = true
  accepted : s.accepted = l

/-- Where a burst write of `L` words stands. -/
inductive Stage (mem : BitVec 9 → BitVec 32) (L : ℕ) (A : List Beat) (s : BurstData) : Prop
  | dispatched (hst : s.bus.state = .dispatch) (htype : s.bus.ipicType = burstWr) (hdout : s.sendpktDoutb = mem 0)
      (hs : Silent s A)
  | preStart (hst : s.bus.state = .burstWrPreStart) (hidx : s.bus.wrBeatIdx.toNat = 1)
      (hlen : s.bus.writeBeatLength.toNat = L) (hc : Copied mem s 1) (hs : Silent s A)
  | preSetaddr (k : ℕ) (hk : k < L) (hst : s.bus.state = .burstWrPreSetaddr) (hidx : s.bus.wrBeatIdx.toNat = k)
      (haddr : s.sendpktAddrb = BitVec.ofNat 9 k) (hlen : s.bus.writeBeatLength.toNat = L) (hc : Copied mem s k)
      (hs : Silent s A)
  | preWait (k : ℕ) (hk : k < L) (hst : s.bus.state = .burstWrPreWait) (hidx : s.bus.wrBeatIdx.toNat = k + 1)
      (hdout : s.sendpktDoutb = mem (BitVec.ofNat 9 k)) (hlen : s.bus.writeBeatLength.toNat = L) (hc : Copied mem s k)
      (hs : Silent s A)
  | preRd2fifo (k : ℕ) (hk : k ≤ L) (hst : s.bus.state = .burstWrPreRd2fifo) (hidx : s.bus.wrBeatIdx.toNat = k)
      (hlen : s.bus.writeBeatLength.toNat = L) (hc : Copied mem s k) (hs : Silent s A)
  | start (hst : s.bus.state = .burstWrStart) (hidx : s.bus.wrBeatIdx.toNat = 1)
      (hlen : s.bus.writeBeatLength.toNat = L) (hc : Copied mem s L) (hs : Shows mem L A s 0)
  | wait (hst : s.bus.state = .burstWrWait) (hidx : s.bus.wrBeatIdx.toNat = 1)
      (hlen : s.bus.writeBeatLength.toNat = L) (hc : Copied mem s L) (hs : Shows mem L A s 0)
  | beat (k : ℕ) (hk : k < L) (hst : s.bus.state = .burstWr) (hidx : s.bus.wrBeatIdx.toNat = k + 1)
      (hlen : s.bus.writeBeatLength.toNat = L) (hc : Copied mem s L) (hs : Shows mem L A s k)
  | last (hst : s.bus.state = .burstWrEnd) (hs : Shows mem L A s (L - 1))
  | closed (hst : s.bus.state = .burstWrEnd) (hs : Silent s (A ++ beats mem L L))
  | ended (hst : s.bus.state = .burstWrEnd2) (hs : Silent s (A ++ beats mem L L))

theorem tick_serving {st : BurstState} (hd : s.bus.dispatchState = .serving) (hdone : s.bus.ipicDone = false)
    (hnext : s.bus.nextIpicState i = st) :
    s.tick mem i = { s.enter i st with
      bus := BurstBus.enter i s.bus { s.bus with ipicStart := false, ackDp := false, ackTc := false } st
      sendpktDoutb := mem s.sendpktAddrb, accepted := s.accepted ++ s.accepts i } := by
  rw [tick, BurstBus.tick_serving hd hdone, hnext]

theorem Silent.accepts {l : List Beat} (h : Silent s l) (i : BurstBusIn) : s.accepted ++ s.accepts i = l := by
  have hnone : s.accepts i = [] := if_neg fun hc => Bool.false_ne_true (hc.1.symm.trans h.src)
  rw [hnone, List.append_nil, h.accepted]

theorem Shows.accepts_of_ready (h : Shows mem L A s k) (hrdy : i.mstwrDstRdyN = false) :
    s.accepted ++ s.accepts i = A ++ beats mem L (k + 1) := by
  have hone : s.accepts i = [s.offer] := if_pos ⟨h.src, hrdy⟩
  rw [hone, h.accepted, h.offer, List.append_assoc, ← beats_succ]

theorem Shows.accepts_of_stalled (h : Shows mem L A s k) (hrdy : i.mstwrDstRdyN = true) :
    s.accepted ++ s.accepts i = A ++ beats mem L k := by
  have hnone : s.accepts i = [] := if_neg fun hc => Bool.false_ne_true (hc.2.symm.trans hrdy)
  rw [hnone, List.append_nil, h.accepted]

theorem Copied.store {x : BitVec 32} (h : Copied mem s k) (hx : x = mem (BitVec.ofNat 9 k)) :
    Copied mem (s.store k x) (k + 1) := by
  intro j hj
  change (if j.val = k then x else s.bunchData j) = _
  by_cases heq : j.val = k
  · rw [if_pos heq, heq, hx]
  · rw [if_neg heq]
    exact h j (by omega)

theorem Copied.wordAt (h : Copied mem s L) (hk : k < L) (hL : L ≤ 64) : s.wordAt k = mem (BitVec.ofNat 9 k) := by
  have hlt : k < 64 := by omega
  rw [BurstData.wordAt, dif_pos hlt]
  exact h ⟨k, hlt⟩ hk

theorem Shows.eofN (h : Shows mem L A s k) (hk : k + 1 < L) : s.eofN = true := by
  have heof : (!s.eofN) = decide (k + 1 = L) := congrArg Beat.eof h.offer
  rw [decide_eq_false (by omega), Bool.not_eq_false'] at heof
  exact heof

theorem Shows.tick_burstWr (h : Shows mem L A s k) (hd : s.bus.dispatchState = .serving)
    (hdone : s.bus.ipicDone = false) (hnext : s.bus.nextIpicState i = .burstWr)
    (hidx : s.bus.wrBeatIdx.toNat = k + 1) (hlen : s.bus.writeBeatLength.toNat = L) (hc : Copied mem s L)
    (hk : k + 1 < L) (hL : L ≤ 64) : Stage mem L A (s.tick mem i) := by
  rw [tick_serving hd hdone hnext]
  cases hrdy : i.mstwrDstRdyN with
  | true =>
    rw [show s.enter i .burstWr = s from if_pos hrdy]
    refine .beat k (by omega) rfl ?_ hlen hc ⟨h.src, h.offer, h.accepts_of_stalled hrdy⟩
    simp only [BurstBus.enter, hrdy, if_true, hidx]
  | false =>
    have hword : s.wordAt ((s.bus.wrBeatIdx <<< 5).toNat / 32) = mem (BitVec.ofNat 9 (k + 1)) := by
      have hpos : (s.bus.wrBeatIdx <<< 5).toNat / 32 = k + 1 := by
        rw [BitVec.toNat_shiftLeft, hidx, Nat.shiftLeft_eq]
        omega
      rw [hpos]
      exact hc.wordAt hk hL
    have hlast : s.bus.wrBeatIdx + 1 = s.bus.writeBeatLength ↔ k + 2 = L := by bv_omega
    rw [show s.enter i .burstWr = _ from if_neg (by rw [hrdy]; exact Bool.false_ne_true)]
    refine .beat (k + 1) hk rfl ?_ hlen hc ⟨h.src, ?_, h.accepts_of_ready hrdy⟩
    · simp only [BurstBus.enter, hrdy, Bool.false_eq_true, if_false]
      bv_omega
    · simp only [BurstData.offer, hword, h.eofN hk, hlast, beatAt]
      by_cases hend : k + 2 = L <;> simp [hend]

theorem Shows.tick_burstWrEnd (h : Shows mem L A s (L - 1)) (hd : s.bus.dispatchState = .serving)
    (hdone : s.bus.ipicDone = false) (hnext : s.bus.nextIpicState i = .burstWrEnd) (hL : 0 < L) :
    Stage mem L A (s.tick mem i) := by
  rw [tick_serving hd hdone hnext]
  cases hrdy : i.mstwrDstRdyN with
  | true =>
    rw [show s.enter i .burstWrEnd = s from if_pos hrdy]
    exact .last rfl ⟨h.src, h.offer, h.accepts_of_stalled hrdy⟩
  | false =>
    rw [show s.enter i .burstWrEnd = _ from if_neg (by rw [hrdy]; exact Bool.false_ne_true)]
    have hall := h.accepts_of_ready hrdy
    rw [Nat.sub_add_cancel hL] at hall
    exact .closed rfl ⟨rfl, hall⟩

/-- **One edge of a burst write**, whatever the stalls. -/
theorem Stage.tick (h : Stage mem L A s) (hob : s.Obeys i) (hd : s.bus.dispatchState = .serving)
    (hdone : s.bus.ipicDone = false) (hne : s.bus.state ≠ .burstWrEnd2) (hlen : s.bus.writeLength.toNat / 4 = L)
    (h2 : 2 ≤ L) (hL : L ≤ 64) : Stage mem L A (s.tick mem i) := by
  have hshift : ((s.bus.writeLength >>> 2).setWidth 13).toNat = L := by
    rw [BitVec.toNat_setWidth, BitVec.toNat_ushiftRight, Nat.shiftRight_eq_div_pow]
    omega
  cases h with
  | dispatched hst htype hdout hs =>
    have hnext : s.bus.nextIpicState i = .burstWrPreStart := by
      simp [BurstBus.nextIpicState, hst, htype, burstRd, burstWr]
    rw [tick_serving hd hdone hnext]
    refine .preStart rfl rfl hshift ?_ ⟨hs.src, hs.accepts i⟩
    have hnone : Copied mem s 0 := fun j hj => absurd hj (Nat.not_lt_zero _)
    exact hnone.store hdout
  | preStart hst hidx hlen' hc hs =>
    have hnext : s.bus.nextIpicState i = .burstWrPreSetaddr := by simp [BurstBus.nextIpicState, hst]
    rw [tick_serving hd hdone hnext]
    refine .preSetaddr 1 (by omega) rfl hidx ?_ hlen' hc ⟨hs.src, hs.accepts i⟩
    apply BitVec.eq_of_toNat_eq
    change (s.bus.wrBeatIdx.setWidth 9).toNat = _
    rw [BitVec.toNat_setWidth, hidx]
    rfl
  | preSetaddr k hk hst hidx haddr hlen' hc hs =>
    have hnext : s.bus.nextIpicState i = .burstWrPreWait := by simp [BurstBus.nextIpicState, hst]
    rw [tick_serving hd hdone hnext]
    refine .preWait k hk rfl ?_ (congrArg mem haddr) hlen' hc ⟨hs.src, hs.accepts i⟩
    change (s.bus.wrBeatIdx + 1).toNat = k + 1
    bv_omega
  | preWait k hk hst hidx hdout hlen' hc hs =>
    have hnext : s.bus.nextIpicState i = .burstWrPreRd2fifo := by simp [BurstBus.nextIpicState, hst]
    rw [tick_serving hd hdone hnext]
    refine .preRd2fifo (k + 1) hk rfl hidx hlen' ?_ ⟨hs.src, hs.accepts i⟩
    have hpos : (s.bus.wrBeatIdx - 1).toNat = k := by bv_omega
    change Copied mem (s.store (s.bus.wrBeatIdx - 1).toNat s.sendpktDoutb) (k + 1)
    rw [hpos]
    exact hc.store hdout
  | preRd2fifo k hk hst hidx hlen' hc hs =>
    by_cases hlast : k = L
    · have hnext : s.bus.nextIpicState i = .burstWrStart := by
        have heq : s.bus.wrBeatIdx = s.bus.writeBeatLength := BitVec.eq_of_toNat_eq (by omega)
        simp [BurstBus.nextIpicState, hst, heq]
      subst hlast
      rw [tick_serving hd hdone hnext]
      refine .start rfl rfl hshift hc ⟨rfl, ?_, ?_⟩
      · have hword : s.wordAt 0 = mem (BitVec.ofNat 9 0) := hc.wordAt (by omega) hL
        have hone : ¬ (0 + 1 = k) := by omega
        simp [BurstData.offer, BurstData.enter, hword, beatAt, hone]
      · rw [beats, List.range_zero, List.map_nil, List.append_nil]
        exact hs.accepts i
    · have hnext : s.bus.nextIpicState i = .burstWrPreSetaddr := by
        have hne : s.bus.wrBeatIdx ≠ s.bus.writeBeatLength := fun heq => hlast (by rw [← hidx, heq, hlen'])
        simp [BurstBus.nextIpicState, hst, hne]
      rw [tick_serving hd hdone hnext]
      refine .preSetaddr k (by omega) rfl hidx ?_ hlen' hc ⟨hs.src, hs.accepts i⟩
      apply BitVec.eq_of_toNat_eq
      change (s.bus.wrBeatIdx.setWidth 9).toNat = _
      rw [BitVec.toNat_setWidth, hidx, BitVec.toNat_ofNat]
  | start hst hidx hlen' hc hs =>
    have hnext : s.bus.nextIpicState i = .burstWrWait := by simp [BurstBus.nextIpicState, hst]
    rw [tick_serving hd hdone hnext]
    exact .wait rfl hidx hlen' hc ⟨hs.src, hs.offer, hs.accepts_of_stalled (hob.start hst)⟩
  | wait hst hidx hlen' hc hs =>
    cases hack : i.cmdack with
    | false =>
      have hnext : s.bus.nextIpicState i = .burstWrWait := by simp [BurstBus.nextIpicState, hst, hack]
      rw [tick_serving hd hdone hnext]
      exact .wait rfl hidx hlen' hc ⟨hs.src, hs.offer, hs.accepts_of_stalled (hob.wait hst hack)⟩
    | true =>
      have hnext : s.bus.nextIpicState i = .burstWr := by simp [BurstBus.nextIpicState, hst, hack]
      exact hs.tick_burstWr hd hdone hnext hidx hlen' hc (by omega) hL
  | beat k hk hst hidx hlen' hc hs =>
    by_cases hlast : k + 1 = L
    · have hnext : s.bus.nextIpicState i = .burstWrEnd := by
        have heq : s.bus.wrBeatIdx = s.bus.writeBeatLength := BitVec.eq_of_toNat_eq (by omega)
        simp [BurstBus.nextIpicState, hst, heq]
      rw [show k = L - 1 by omega] at hs
      exact hs.tick_burstWrEnd hd hdone hnext (by omega)
    · have hnext : s.bus.nextIpicState i = .burstWr := by
        have hne : s.bus.wrBeatIdx ≠ s.bus.writeBeatLength := fun heq => hlast (by rw [← hidx, heq, hlen'])
        simp [BurstBus.nextIpicState, hst, hne]
      exact hs.tick_burstWr hd hdone hnext hidx hlen' hc (by omega) hL
  | last hst hs =>
    have hnext : s.bus.nextIpicState i = .burstWrEnd := by
      simp [BurstBus.nextIpicState, hst, hob.completes hst hs.src]
    exact hs.tick_burstWrEnd hd hdone hnext (by omega)
  | closed hst hs =>
    cases hcmplt : i.cmplt with
    | false =>
      have hnext : s.bus.nextIpicState i = .burstWrEnd := by simp [BurstBus.nextIpicState, hst, hcmplt]
      rw [tick_serving hd hdone hnext]
      refine .closed rfl ⟨?_, hs.accepts i⟩
      simp only [BurstData.enter]
      split
      · exact hs.src
      · rfl
    | true =>
      have hnext : s.bus.nextIpicState i = .burstWrEnd2 := by simp [BurstBus.nextIpicState, hst, hcmplt]
      rw [tick_serving hd hdone hnext]
      exact .ended rfl ⟨hs.src, hs.accepts i⟩
  | ended hst hs => exact absurd hst hne

theorem Stage.accepted (h : Stage mem L A s) :
    ∃ k ≤ L, s.accepted = A ++ beats mem L k ∧ (s.bus.state = .burstWrEnd2 → k = L) := by
  cases h with
  | dispatched hst _ _ hs | preStart hst _ _ _ hs | preSetaddr _ _ hst _ _ _ _ hs | preWait _ _ hst _ _ _ _ hs
  | preRd2fifo _ _ hst _ _ _ hs =>
    exact ⟨0, Nat.zero_le L, hs.accepted.trans (List.append_nil A).symm, fun hend => by rw [hst] at hend; cases hend⟩
  | start hst _ _ _ hs | wait hst _ _ _ hs =>
    exact ⟨0, Nat.zero_le L, hs.accepted, fun hend => by rw [hst] at hend; cases hend⟩
  | beat k hk hst _ _ _ hs =>
    exact ⟨k, Nat.le_of_lt hk, hs.accepted, fun hend => by rw [hst] at hend; cases hend⟩
  | last hst hs => exact ⟨L - 1, Nat.sub_le L 1, hs.accepted, fun hend => by rw [hst] at hend; cases hend⟩
  | closed _ hs | ended _ hs => exact ⟨L, Nat.le_refl L, hs.accepted, fun _ => rfl⟩

theorem Stage.working (h : Stage mem L A s) (hp : s.bus.Ported) (hne : s.bus.state ≠ .burstWrEnd2) :
    s.bus.dispatchState = .serving ∧ s.bus.ipicDone = false
      ∧ s.bus.state ≠ .idle ∧ s.bus.state.isEnd = false ∧ s.bus.state ≠ .error := by
  have hmid : s.bus.state ≠ .idle ∧ s.bus.state.isEnd = false ∧ s.bus.state ≠ .error := by
    cases h with
    | ended hst => exact absurd hst hne
    | dispatched hst | preStart hst | preSetaddr _ _ hst | preWait _ _ hst | preRd2fifo _ _ hst | start hst | wait hst
    | beat _ _ hst | last hst | closed hst =>
      rw [hst]
      decide
  cases hp.phase with
  | rest _ _ hst | started _ _ hst | reported _ _ hst => exact absurd hst hmid.1
  | working hd _ _ _ hdone => exact ⟨hd, hdone, hmid⟩
  | ended _ _ hend =>
    rw [hmid.2.1] at hend
    cases hend

end Stages

/-! ### Whole runs -/

section Run

variable {mem : BitVec 9 → BitVec 32} {s : BurstData} {i : BurstBusIn} {inp : ℕ → BurstBusIn} {n : ℕ}

/-- The bus in cycle `n`. -/
def run (mem : BitVec 9 → BitVec 32) (inp : ℕ → BurstBusIn) : ℕ → BurstData := trace (tick mem) inp {}

/-- What a transaction finds: the channel is silent, and the first word has been fetched. -/
structure Inv (mem : BitVec 9 → BitVec 32) (s : BurstData) : Prop where
  ported : s.bus.Ported
  silent : s.bus.state.offers = false → s.srcRdyN = true
  addr : s.bus.state = .idle → s.sendpktAddrb = 0
  dout : s.bus.state = .dispatch → s.sendpktDoutb = mem 0

theorem tick_state : (s.tick mem i).bus.state = s.bus.nextIpicState i := BurstBus.enter_state _ _ _

theorem Inv.silent_tick (h : Inv mem s) (hob : s.Obeys i) (hoff : (s.bus.nextIpicState i).offers = false) :
    (s.enter i (s.bus.nextIpicState i)).srcRdyN = true := by
  have hsrc := h.silent
  have hcmplt := hob.completes
  revert hoff
  unfold BurstBus.nextIpicState
  cases hst : s.bus.state with
  | burstWrEnd =>
    cases hc : i.cmplt with
    | false => exact fun hoff => Bool.noConfusion hoff
    | true =>
      intro _
      change s.srcRdyN = true
      by_contra hlow
      exact Bool.noConfusion (hc.symm.trans (hcmplt hst (Bool.eq_false_iff.mpr hlow)))
  | _ =>
    rw [hst] at hsrc
    dsimp only
    repeat' split
    all_goals first
    | exact fun hoff => Bool.noConfusion hoff
    | exact fun _ => rfl
    | exact fun _ => hsrc rfl

theorem Inv.tick (h : Inv mem s) (hob : s.Obeys i) : Inv mem (s.tick mem i) where
  ported := h.ported.tick
  silent hoff := by
    rw [tick_state] at hoff
    exact h.silent_tick hob hoff
  addr hst := by
    rw [tick_state] at hst
    rw [BurstData.tick, hst]
    rfl
  dout hst := by
    rw [tick_state] at hst
    have hidle : s.bus.state = .idle := by
      revert hst
      unfold BurstBus.nextIpicState
      cases hst : s.bus.state with
      | idle => exact fun _ => rfl
      | _ =>
        dsimp only
        repeat' split
        all_goals exact fun hd => BurstState.noConfusion hd
    exact congrArg mem (h.addr hidle)

theorem inv_run (hob : ∀ n, (run mem inp n).Obeys (inp n)) (n : ℕ) : Inv mem (run mem inp n) := by
  have hreset : Inv mem {} := ⟨BurstBus.ported_init, fun _ => rfl, fun _ => rfl, nofun⟩
  have hstep : ∀ t i, Inv mem t → Obeys t i → Inv mem (tick mem t i) := fun _ _ h hok => h.tick hok
  exact trace_invariant hreset hstep fun m _ => hob m

/-- A burst write of `L` words is under way, and `A` had been accepted before it. -/
structure Under (mem : BitVec 9 → BitVec 32) (L : ℕ) (A : List Beat) (s : BurstData) : Prop where
  stage : Stage mem L A s
  type : s.bus.ipicType = burstWr
  length : s.bus.writeLength.toNat / 4 = L

variable {L : ℕ} {A : List Beat}

theorem Under.succ (hob : ∀ n, (run mem inp n).Obeys (inp n)) (h2 : 2 ≤ L) (hL : L ≤ 64)
    (h : Under mem L A (run mem inp n)) (hne : (run mem inp n).bus.state ≠ .burstWrEnd2) :
    Under mem L A (run mem inp (n + 1)) := by
  obtain ⟨hd, hdone, -⟩ := h.stage.working (inv_run hob n).ported hne
  obtain ⟨-, -, -, hreq, -⟩ := BurstBus.tick_serving_keeps (i := inp n) hd hdone
  refine ⟨h.stage.tick (hob n) hd hdone hne h.length h2 hL, (congrArg BurstReq.ipicType hreq).trans h.type, ?_⟩
  have hlen : (run mem inp (n + 1)).bus.writeLength = (run mem inp n).bus.writeLength :=
    congrArg BurstReq.writeLength hreq
  rw [hlen, h.length]

theorem Under.run (hob : ∀ n, (run mem inp n).Obeys (inp n)) (h2 : 2 ≤ L) (hL : L ≤ 64)
    (h : Under mem L A (run mem inp n)) (m : ℕ)
    (hne : ∀ k < m, (BurstData.run mem inp (n + k)).bus.state ≠ .burstWrEnd2) :
    Under mem L A (BurstData.run mem inp (n + m)) := by
  induction m with
  | zero => exact h
  | succ m ih => exact (ih fun k hk => hne k (by omega)).succ hob h2 hL (hne m (Nat.lt_succ_self m))

/-- **A burst write comes to its end** if the AXI master goes on answering. -/
theorem Under.exists_end (hob : ∀ n, (BurstData.run mem inp n).Obeys (inp n)) (h2 : 2 ≤ L) (hL : L ≤ 64)
    (hanswer : ∀ st n, ∃ m, n ≤ m ∧ BurstState.waits (inp m) st = true)
    (h : Under mem L A (BurstData.run mem inp n)) :
    ∃ m, n ≤ m ∧ (BurstData.run mem inp m).bus.state = .burstWrEnd2 := by
  refine BurstBus.exists_state (fun _ => rfl) hanswer (U := fun s => Under mem L A s ∧ s.bus.Ported) ?_
    ⟨h, (inv_run hob n).ported⟩
  rintro n ⟨h, hp⟩ hne
  obtain ⟨-, -, hidle, hmid, herr⟩ := h.stage.working hp hne
  have htype : BurstReq.TypeOk (BurstData.run mem inp n).bus.ipicType := Or.inr (Or.inl h.type)
  exact ⟨hp.midst hidle hmid herr htype, h.succ hob h2 hL hne, (inv_run hob (n + 1)).ported⟩

/-- **The words of a burst write.**  In every run, whatever the memory holds and however the AXI master stalls, what has
been accepted since a burst write of two to 64 words was dispatched is the beginning of the words of the memory, each
once, the first with SOF and the last with EOF; at the end of the transaction it is all of them; and the end comes if
the AXI master goes on answering. -/
theorem burst_write_exact (mem : BitVec 9 → BitVec 32) (inp : ℕ → BurstBusIn)
    (hob : ∀ n, (run mem inp n).Obeys (inp n)) (n : ℕ) (hst : (run mem inp n).bus.state = .dispatch)
    (htype : (run mem inp n).bus.ipicType = burstWr) (h2 : 2 ≤ (run mem inp n).bus.writeLength.toNat / 4)
    (h64 : (run mem inp n).bus.writeLength.toNat / 4 ≤ 64) :
    (∀ m, (∀ k < m, (run mem inp (n + k)).bus.state ≠ .burstWrEnd2) →
      ∃ k ≤ (run mem inp n).bus.writeLength.toNat / 4,
        (run mem inp (n + m)).accepted
            = (run mem inp n).accepted ++ beats mem ((run mem inp n).bus.writeLength.toNat / 4) k
          ∧ ((run mem inp (n + m)).bus.state = .burstWrEnd2 → k = (run mem inp n).bus.writeLength.toNat / 4))
      ∧ ((∀ st n, ∃ m, n ≤ m ∧ BurstState.waits (inp m) st = true) →
        ∃ m, (∀ k < m, (run mem inp (n + k)).bus.state ≠ .burstWrEnd2)
          ∧ (run mem inp (n + m)).bus.state = .burstWrEnd2) := by
  have hinv := inv_run hob n
  have hsilent : (run mem inp n).srcRdyN = true := hinv.silent (by rw [hst]; rfl)
  have hunder : Under mem ((run mem inp n).bus.writeLength.toNat / 4) (run mem inp n).accepted (run mem inp n) :=
    ⟨.dispatched hst htype (hinv.dout hst) ⟨hsilent, rfl⟩, htype, rfl⟩
  refine ⟨fun m hne => (hunder.run hob h2 h64 m hne).stage.accepted, fun hanswer => ?_⟩
  obtain ⟨m, hle, hend⟩ := hunder.exists_end hob h2 h64 hanswer
  have hex : ∃ d, (run mem inp (n + d)).bus.state = .burstWrEnd2 := ⟨m - n, by rwa [Nat.add_sub_cancel' hle]⟩
  exact ⟨Nat.find hex, fun k hk => Nat.find_min hex hk, Nat.find_spec hex⟩

/-- The bus has nothing to do. -/
structure Rests (s : BurstData) : Prop where
  state : s.bus.state = .idle
  start : s.bus.ipicStart = false
  dispatch : s.bus.dispatchState = .idle

instance (s : BurstData) : Decidable s.Rests :=
  decidable_of_iff (s.bus.state = .idle ∧ s.bus.ipicStart = false ∧ s.bus.dispatchState = .idle)
    ⟨fun h => ⟨h.1, h.2.1, h.2.2⟩, fun h => ⟨h.state, h.start, h.dispatch⟩⟩

theorem Rests.run (h : (run mem inp n).Rests)
    (hquiet : ∀ m, n ≤ m → (inp m).tc.start = false ∧ (inp m).dp.start = false) (d : ℕ) :
    (BurstData.run mem inp (n + d)).Rests := by
  induction d with
  | zero => exact h
  | succ d ih =>
    obtain ⟨htc, hdp⟩ := hquiet (n + d) (Nat.le_add_right n d)
    have hsame : (BurstData.run mem inp (n + d)).bus.dispatch (inp (n + d))
        = (BurstData.run mem inp (n + d)).bus := by
      simp only [BurstBus.dispatch, ih.dispatch, htc, hdp, Bool.false_eq_true, if_false]
    have hnext : (BurstData.run mem inp (n + (d + 1))).bus
        = { (BurstData.run mem inp (n + d)).bus with state := .idle, ipicDone := false } := by
      show (BurstData.run mem inp (n + d)).bus.tick (inp (n + d)) = _
      rw [BurstBus.tick_rest ih.start ih.state, hsame]
    refine ⟨?_, ?_, ?_⟩
    · rw [hnext]
    · rw [hnext]
      exact ih.start
    · rw [hnext]
      exact ih.dispatch

/-- A request for three words; the AXI master takes a word every third cycle. -/
def stallInp : ℕ → BurstBusIn := fun n =>
  { tc := { start := n = 0, ipicType := burstWr, writeLength := 12 }, dp := {}, cmdack := 12 ≤ n, cmplt := 20 ≤ n
    mstrdSrcRdyN := false, mstwrDstRdyN := !(12 ≤ n ∧ n % 3 = 0), mstrdD := 0 }

def countMem : BitVec 9 → BitVec 32 := fun a => a.setWidth 32

theorem stallInp_obeys (n : ℕ) : (run countMem stallInp n).Obeys (stallInp n) := by
  by_cases hn : n < 23
  · have hall : ∀ n < 23, (run countMem stallInp n).Obeys (stallInp n) := by decide +kernel
    exact hall n hn
  · obtain ⟨d, rfl⟩ := Nat.exists_eq_add_of_le (Nat.le_of_not_lt hn)
    have hquiet : ∀ n, 23 ≤ n → (stallInp n).tc.start = false ∧ (stallInp n).dp.start = false :=
      fun n hn => ⟨decide_eq_false (by omega), rfl⟩
    have hrest : (run countMem stallInp 23).Rests := by decide +kernel
    have hst := (hrest.run hquiet d).state
    constructor <;> intro hother <;> exact BurstState.noConfusion (hst.symm.trans hother)

theorem stallInp_answers (st : BurstState) (n : ℕ) : ∃ m, n ≤ m ∧ BurstState.waits (stallInp m) st = true := by
  refine ⟨3 * (n + 20), by omega, ?_⟩
  have hack : (stallInp (3 * (n + 20))).cmdack = true := decide_eq_true (by omega : 12 ≤ 3 * (n + 20))
  have hcmplt : (stallInp (3 * (n + 20))).cmplt = true := decide_eq_true (by omega : 20 ≤ 3 * (n + 20))
  have hrdy : (stallInp (3 * (n + 20))).mstwrDstRdyN = false :=
    congrArg not (decide_eq_true (by omega : 12 ≤ 3 * (n + 20) ∧ 3 * (n + 20) % 3 = 0))
  cases st <;> simp only [BurstState.waits, hack, hcmplt, hrdy] <;> rfl

theorem burst_write_exact_stalled :
    ∃ m, (run countMem stallInp (2 + m)).bus.state = .burstWrEnd2
      ∧ (run countMem stallInp (2 + m)).accepted = [⟨0, true, false⟩, ⟨1, false, false⟩, ⟨2, false, true⟩] := by
  obtain ⟨hwords, hends⟩ := burst_write_exact countMem stallInp stallInp_obeys 2 (by decide +kernel) (by decide +kernel)
    (by decide +kernel) (by decide +kernel)
  obtain ⟨m, hbefore, hend⟩ := hends stallInp_answers
  obtain ⟨k, -, hacc, hall⟩ := hwords m hbefore
  refine ⟨m, hend, ?_⟩
  rw [hacc, hall hend]
  decide +kernel

end Run

end BurstData

end VanetTdma.Fpga
