import VanetTdma.Fpga.FrameLen

/-!
# The slot clock (`tdma_control.v`)

Slots are counted by the edges of `gps_timepulse_2`, one a microsecond, and the count starts anew with
every pulse of `gps_timepulse_1`, one a second.  `SlotClock` has the registers of the two blocks;
`edge` is one edge of `gps_timepulse_2` with the second pulses since the edge before and the value of
`curr_frame_len` at the edge, which another clock domain changes.

Two nodes that hear the same pulses count the same slots, whatever they did before and whatever their
frame lengths are; a frame length only says how much of the count becomes the slot pointer.

* `SlotClock.SameCount.edge` — equal counts stay equal;
* `sameCount_run` — the counts are equal after a second pulse that both nodes have heard;
* `toNat_slotPointer` — the pointer is the count modulo the frame length;
* `slot_pointers_agree` — the pointers of two nodes.
-/

namespace VanetTdma.Fpga

/-- The registers of the slot clock. -/
structure SlotClock where
  pulse1Counter : BitVec 32 := 0
  currPulse1Counter2 : BitVec 32 := 0
  slotPulse2Counter : BitVec 10 := 0
  slotCounter1sec : BitVec 11 := 0
  slotPointer : BitVec 16 := 0
deriving DecidableEq, Repr

/-- An edge of `gps_timepulse_2`.  Fewer than `2 ^ 32` second pulses fall between two of them. -/
structure SubPulse where
  /-- The number of edges of `gps_timepulse_1` since the last edge of `gps_timepulse_2`. -/
  seconds : BitVec 32 := 0
  currFrameLen : BitVec 10

namespace SlotClock

/-- `slot_counter_1sec & ((1 << curr_frame_len_log2) - 1)`. -/
def pointerOf (count : BitVec 11) (len : BitVec 10) : BitVec 16 :=
  (count.setWidth 32 &&& ((1#32 <<< (lenTable len).currFrameLenLog2) - 1)).setWidth 16

/-- The edges of `gps_timepulse_1` before the edge of `gps_timepulse_2`. -/
def count (r : SlotClock) (e : SubPulse) : SlotClock :=
  { r with pulse1Counter := r.pulse1Counter + e.seconds }

/-- The first edge after a second pulse. -/
def newSecond (r : SlotClock) (e : SubPulse) : Bool :=
  (r.count e).pulse1Counter ≠ r.currPulse1Counter2

/-- The edge that ends a slot. -/
def slotTick (slotUs : BitVec 32) (r : SlotClock) (e : SubPulse) : Bool :=
  r.newSecond e = false ∧ r.slotPulse2Counter.setWidth 32 = slotUs - 1

/-- The registers after an edge of `gps_timepulse_2`. -/
def edge (slotUs : BitVec 32) (r : SlotClock) (e : SubPulse) : SlotClock :=
  if r.newSecond e then
    { r.count e with
      currPulse1Counter2 := (r.count e).pulse1Counter
      slotPointer := 0
      slotPulse2Counter := 0
      slotCounter1sec := 0 }
  else if r.slotPulse2Counter.setWidth 32 = slotUs - 1 then
    { r.count e with
      slotPulse2Counter := 0
      slotCounter1sec := r.slotCounter1sec + 1
      slotPointer := pointerOf (r.slotCounter1sec + 1) e.currFrameLen }
  else { r.count e with slotPulse2Counter := r.slotPulse2Counter + 1 }

/-- The registers after reset and a list of edges. -/
def run (slotUs : BitVec 32) (es : List SubPulse) : SlotClock := es.foldl (edge slotUs) {}

/-! ### The count -/

theorem edge_accounted (slotUs : BitVec 32) (r : SlotClock) (e : SubPulse) :
    (r.edge slotUs e).currPulse1Counter2 = (r.edge slotUs e).pulse1Counter := by
  unfold edge
  split
  · rfl
  · rename_i h
    have hsame : (r.count e).pulse1Counter = r.currPulse1Counter2 := by simpa [newSecond] using h
    split
    · exact hsame.symm
    · exact hsame.symm

theorem run_accounted (slotUs : BitVec 32) (es : List SubPulse) :
    (run slotUs es).currPulse1Counter2 = (run slotUs es).pulse1Counter := by
  induction es using List.reverseRecOn with
  | nil => rfl
  | append_singleton es e _ =>
    rw [run, List.foldl_append]
    exact edge_accounted slotUs _ e

theorem newSecond_iff {r : SlotClock} (h : r.currPulse1Counter2 = r.pulse1Counter) (e : SubPulse) :
    r.newSecond e = true ↔ e.seconds ≠ 0 := by
  simp [newSecond, count, h]

/-- Two clocks that have accounted for their second pulses and have counted the same slots. -/
structure SameCount (a b : SlotClock) : Prop where
  accounted_a : a.currPulse1Counter2 = a.pulse1Counter
  accounted_b : b.currPulse1Counter2 = b.pulse1Counter
  pulse2 : a.slotPulse2Counter = b.slotPulse2Counter
  slots : a.slotCounter1sec = b.slotCounter1sec

theorem edge_of_newSecond (slotUs : BitVec 32) {r : SlotClock} {e : SubPulse}
    (h : r.newSecond e = true) :
    (r.edge slotUs e).slotPulse2Counter = 0 ∧ (r.edge slotUs e).slotCounter1sec = 0 ∧
      (r.edge slotUs e).slotPointer = 0 := by
  rw [edge, if_pos h]
  exact ⟨rfl, rfl, rfl⟩

theorem edge_of_slotTick {slotUs : BitVec 32} {r : SlotClock} {e : SubPulse}
    (h : r.slotTick slotUs e = true) :
    (r.edge slotUs e).slotPulse2Counter = 0 ∧
      (r.edge slotUs e).slotCounter1sec = r.slotCounter1sec + 1 ∧
      (r.edge slotUs e).slotPointer = pointerOf (r.slotCounter1sec + 1) e.currFrameLen := by
  simp only [slotTick, decide_eq_true_eq] at h
  rw [edge, if_neg (Bool.eq_false_iff.mp h.1), if_pos h.2]
  exact ⟨rfl, rfl, rfl⟩

theorem sameCount_of_newSecond (slotUs : BitVec 32) {a b : SlotClock} {e e' : SubPulse}
    (ha : a.newSecond e = true) (hb : b.newSecond e' = true) :
    SameCount (a.edge slotUs e) (b.edge slotUs e') := by
  obtain ⟨hpulse, hslots, -⟩ := edge_of_newSecond slotUs ha
  obtain ⟨hpulse', hslots', -⟩ := edge_of_newSecond slotUs hb
  exact ⟨edge_accounted .., edge_accounted .., hpulse.trans hpulse'.symm, hslots.trans hslots'.symm⟩

theorem SameCount.newSecond_eq {a b : SlotClock} (h : SameCount a b) (e e' : SubPulse)
    (hsec : e.seconds = e'.seconds) : a.newSecond e = b.newSecond e' := by
  rw [Bool.eq_iff_iff, newSecond_iff h.accounted_a, newSecond_iff h.accounted_b, hsec]

/-- **Equal counts stay equal** at an edge with the same second pulses, whatever the frame lengths. -/
theorem SameCount.edge (slotUs : BitVec 32) {a b : SlotClock} (h : SameCount a b) (e e' : SubPulse)
    (hsec : e.seconds = e'.seconds) : SameCount (a.edge slotUs e) (b.edge slotUs e') := by
  by_cases hnew : a.newSecond e = true
  · exact sameCount_of_newSecond slotUs hnew (h.newSecond_eq e e' hsec ▸ hnew)
  · have hnew' : ¬ b.newSecond e' = true := h.newSecond_eq e e' hsec ▸ hnew
    refine ⟨edge_accounted .., edge_accounted .., ?_, ?_⟩
    · rw [SlotClock.edge, SlotClock.edge, if_neg hnew, if_neg hnew', h.pulse2]
      split
      · rfl
      · rfl
    · rw [SlotClock.edge, SlotClock.edge, if_neg hnew, if_neg hnew', h.pulse2, h.slots]
      split
      · rfl
      · exact h.slots

end SlotClock

/-! ### The pointer -/

/-- The frame lengths of the case table. -/
def supportedLens : List (BitVec 10) := [4, 8, 16, 32, 64, 128]

/-- The lengths of the case table are powers of two, and `1 << curr_frame_len_log2` is the length. -/
theorem mask_of_supported {len : BitVec 10} (hlen : len ∈ supportedLens) :
    ∃ k ≤ 7, len.toNat = 2 ^ k ∧ ((1#32 <<< (lenTable len).currFrameLenLog2) - 1).toNat = 2 ^ k - 1 := by
  simp only [supportedLens, List.mem_cons, List.not_mem_nil, or_false] at hlen
  rcases hlen with rfl | rfl | rfl | rfl | rfl | rfl
  · exact ⟨2, by decide⟩
  · exact ⟨3, by decide⟩
  · exact ⟨4, by decide⟩
  · exact ⟨5, by decide⟩
  · exact ⟨6, by decide⟩
  · exact ⟨7, by decide⟩

/-- **The pointer is the count modulo the frame length.** -/
theorem toNat_pointerOf {len : BitVec 10} (hlen : len ∈ supportedLens) (count : BitVec 11) :
    (SlotClock.pointerOf count len).toNat = count.toNat % len.toNat := by
  obtain ⟨k, hk, hpow, hmask⟩ := mask_of_supported hlen
  have hwide : (count.setWidth 32).toNat = count.toNat :=
    BitVec.toNat_setWidth_of_le (by decide)
  have hsmall : count.toNat % 2 ^ k < 2 ^ 16 :=
    calc count.toNat % 2 ^ k < 2 ^ k := Nat.mod_lt _ (Nat.two_pow_pos k)
      _ ≤ 2 ^ 16 := Nat.pow_le_pow_right (by decide) (by omega)
  rw [SlotClock.pointerOf, BitVec.toNat_setWidth, BitVec.toNat_and, hwide, hmask,
    Nat.and_two_pow_sub_one_eq_mod, Nat.mod_eq_of_lt hsmall, hpow]

/-! ### Two nodes -/

/-- An edge of `gps_timepulse_2` that two nodes hear, with their frame lengths. -/
structure CommonPulse where
  seconds : BitVec 32 := 0
  lenA : BitVec 10
  lenB : BitVec 10

/-- The edge as each of the nodes sees it. -/
def CommonPulse.a (e : CommonPulse) : SubPulse := ⟨e.seconds, e.lenA⟩

@[inherit_doc CommonPulse.a]
def CommonPulse.b (e : CommonPulse) : SubPulse := ⟨e.seconds, e.lenB⟩

open SlotClock

theorem sameCount_run (slotUs : BitVec 32) (histA histB : List SubPulse) {eA eB : SubPulse}
    (hA : eA.seconds ≠ 0) (hB : eB.seconds ≠ 0) (es : List CommonPulse) :
    SameCount (run slotUs (histA ++ eA :: es.map CommonPulse.a))
      (run slotUs (histB ++ eB :: es.map CommonPulse.b)) := by
  induction es using List.reverseRecOn with
  | nil =>
    have hnew : (run slotUs histA).newSecond eA = true :=
      (newSecond_iff (run_accounted slotUs histA) eA).mpr hA
    have hnew' : (run slotUs histB).newSecond eB = true :=
      (newSecond_iff (run_accounted slotUs histB) eB).mpr hB
    simpa [run] using sameCount_of_newSecond slotUs hnew hnew'
  | append_singleton es e ih =>
    have hstep := ih.edge slotUs e.a e.b rfl
    simpa [run] using hstep

/-- **Two nodes agree on the slots.**  The nodes come with histories of their own, `histA` and `histB`;
after the first edge at which both have heard a second pulse they hear the same pulses.  At a slot tick of
the one with supported frame lengths `lenB` dividing `lenA` the other has a slot tick too, and its slot
pointer is that of the one modulo `lenB`. -/
theorem slot_pointers_agree (slotUs : BitVec 32) (histA histB : List SubPulse) (eA eB : SubPulse)
    (hA : eA.seconds ≠ 0) (hB : eB.seconds ≠ 0) (es : List CommonPulse) (e : CommonPulse)
    (hlenA : e.lenA ∈ supportedLens) (hlenB : e.lenB ∈ supportedLens)
    (hdvd : e.lenB.toNat ∣ e.lenA.toNat)
    (htick : (run slotUs (histA ++ eA :: es.map CommonPulse.a)).slotTick slotUs e.a = true) :
    (run slotUs (histB ++ eB :: es.map CommonPulse.b)).slotTick slotUs e.b = true ∧
      ((run slotUs (histB ++ eB :: es.map CommonPulse.b)).edge slotUs e.b).slotPointer.toNat
        = ((run slotUs (histA ++ eA :: es.map CommonPulse.a)).edge slotUs e.a).slotPointer.toNat
            % e.lenB.toNat := by
  have hsame := sameCount_run slotUs histA histB hA hB es
  have htick' : (run slotUs (histB ++ eB :: es.map CommonPulse.b)).slotTick slotUs e.b = true := by
    rw [slotTick, ← hsame.newSecond_eq e.a e.b rfl, ← hsame.pulse2]
    exact htick
  refine ⟨htick', ?_⟩
  rw [(edge_of_slotTick htick).2.2, (edge_of_slotTick htick').2.2, hsame.slots]
  show (pointerOf _ e.lenB).toNat = (pointerOf _ e.lenA).toNat % e.lenB.toNat
  rw [toNat_pointerOf hlenB, toNat_pointerOf hlenA]
  exact (Nat.mod_mod_of_dvd _ hdvd).symm

/-- Four edges that a node with a frame of 8 slots and one with 4 hear. -/
def fourPulses : List CommonPulse := List.replicate 4 ⟨0, 8, 4⟩

/-- The node with 8 slots has been up for some time when they hear the same second pulse. -/
def earlyClock : SlotClock := run 1 ([⟨0, 8⟩, ⟨0, 8⟩, ⟨0, 8⟩] ++ ⟨1, 8⟩ :: fourPulses.map CommonPulse.a)

/-- The node with 4 slots comes up just before. -/
def lateClock : SlotClock := run 1 ([] ++ ⟨1, 4⟩ :: fourPulses.map CommonPulse.b)

/-- Slot 5 of the one is slot 1 of the other, in slots of one microsecond. -/
theorem slot_pointers_agree_late :
    (earlyClock.edge 1 ⟨0, 8⟩).slotPointer = 5 ∧ lateClock.slotTick 1 ⟨0, 4⟩ = true ∧
      (lateClock.edge 1 ⟨0, 4⟩).slotPointer.toNat
        = (earlyClock.edge 1 ⟨0, 8⟩).slotPointer.toNat % 4 :=
  ⟨by decide, slot_pointers_agree 1 [⟨0, 8⟩, ⟨0, 8⟩, ⟨0, 8⟩] [] ⟨1, 8⟩ ⟨1, 4⟩ (by decide) (by decide)
    fourPulses ⟨0, 8, 4⟩ (by decide) (by decide) (by decide) (by decide)⟩

end VanetTdma.Fpga
