import Mathlib.Algebra.Order.Ring.Nat
import VanetTdma.Fpga.System

/-!
# The bounds of the frame length

The FI builder doubles the frame while it is below its upper bound and halves it while it is above its lower
one; the slot-table updater doubles it when a longer frame information was received.  Each takes its decision
one cycle before its pulse and two cycles before the new length.

* `Within` — a power of two between the bounds;
* `Overlaps` — one machine decides to double while the pulse of the other is up, and two doublings are too many;
* `Sound.tick` — what a cycle without an overlap preserves;
* `within_iff_not_overlaps` — the length stays within its bounds exactly in the runs without an overlap.
-/

namespace VanetTdma.Fpga

open VanetTdma.Clocked

/-! ### The INB machine works for a waiting STU only -/

namespace Stu

/-- From `u` to `v` the STU has not turned to the INB machine, or it has just done so. -/
def Asks (u v : Stu) : Prop :=
  v.state ≠ .fiInbWait ∧ v.inbStart = u.inbStart ∨ v.state = .fiInbWait ∧ v.inbStart = true

section Asks

variable (p : Pass) (i : StuIn) {u : Stu}

theorem judged_asks (o : Option SlotEntry) : Asks u (u.judged p o) := by
  cases o <;> exact Or.inl ⟨nofun, rfl⟩

theorem fiJudge_asks (h : u.state ≠ .fiInbWait) : Asks u (u.fiJudge p i) := by
  cases p with
  | first =>
    simp only [fiJudge, fiLoop2]
    split
    · exact Or.inl ⟨StuState.noConfusion, rfl⟩
    split
    · exact judged_asks _ _
    split
    · exact judged_asks _ _
    split
    · exact Or.inr ⟨rfl, rfl⟩
    · exact Or.inl ⟨h, rfl⟩
  | second =>
    simp only [fiJudge, fiLoop4]
    split
    · exact Or.inl ⟨StuState.noConfusion, rfl⟩
    · exact judged_asks _ _

theorem fiLoop_asks (h : u.state ≠ .fiInbWait) : Asks u (u.fiLoop p i) := by
  unfold fiLoop
  simp only
  split
  · cases p <;> exact Or.inl ⟨nofun, rfl⟩
  split
  · refine Or.inl ⟨?_, rfl⟩
    simp only
    split <;> exact nofun
  split
  · exact Or.inl ⟨nofun, rfl⟩
  · exact Or.inl ⟨h, rfl⟩

theorem tick_asks (h : u.state ≠ .fiInbWait) : Asks u (u.tick i) := by
  unfold tick
  split
  case h_1 hst =>
    split
    · exact Or.inl ⟨nofun, rfl⟩
    · exact Or.inl ⟨h, rfl⟩
  case h_5 p _ => exact fiLoop_asks p i h
  case h_8 p _ => exact fiJudge_asks p i h
  case h_10 hst => exact absurd hst h
  all_goals exact Or.inl ⟨nofun, rfl⟩

end Asks

theorem fiInbWait_inbStart (i : StuIn) (u : Stu) : (u.fiInbWait i).inbStart = false
    ∧ ((u.fiInbWait i).state = if i.inbDone then .fiClr .first else u.state) := by
  unfold fiInbWait
  simp only
  split
  · split <;> exact ⟨rfl, rfl⟩
  · exact ⟨rfl, rfl⟩

/-- The states in which the length of the packet is fetched. -/
def Fetches (u : Stu) : Prop := u.state = .dispatchWait ∨ u.state = .dispatch

section Fetch

variable {i : StuIn} {u : Stu}

theorem not_fetches_of_eq {st : StuState} (hst : u.state = st) (hw : st ≠ .dispatchWait)
    (hd : st ≠ .dispatch) : ¬ u.Fetches := by
  rintro (h | h)
  · exact hw (hst.symm.trans h)
  · exact hd (hst.symm.trans h)

theorem judged_not_fetches (p : Pass) (o : Option SlotEntry) : ¬ (u.judged p o).Fetches := by
  cases o <;> exact not_fetches_of_eq rfl nofun nofun

theorem fiJudge_not_fetches (p : Pass) (h : ¬ u.Fetches) : ¬ (u.fiJudge p i).Fetches := by
  cases p with
  | first =>
    simp only [fiJudge, fiLoop2]
    split
    · exact not_fetches_of_eq rfl StuState.noConfusion StuState.noConfusion
    split
    · exact judged_not_fetches _ _
    split
    · exact judged_not_fetches _ _
    split
    · exact not_fetches_of_eq rfl StuState.noConfusion StuState.noConfusion
    · exact h
  | second =>
    simp only [fiJudge, fiLoop4]
    split
    · exact not_fetches_of_eq rfl StuState.noConfusion StuState.noConfusion
    · exact judged_not_fetches _ _

theorem fiLoop_not_fetches (p : Pass) (h : ¬ u.Fetches) : ¬ (u.fiLoop p i).Fetches := by
  unfold fiLoop
  simp only
  split
  · cases p <;> exact not_fetches_of_eq rfl nofun nofun
  split
  · refine not_fetches_of_eq rfl ?_ ?_ <;> (split <;> exact nofun)
  split
  · exact not_fetches_of_eq rfl nofun nofun
  · exact h

/-- **The fetch of the length**: the address is set with the start, and the word is there two cycles
later. -/
theorem tick_fetches (h : (u.tick i).Fetches) :
    (u.tick i).state = .dispatchWait ∧ (u.tick i).rcvpktEn = true ∧ (u.tick i).rcvpktAddrb = rxTypeAddr
      ∨ (u.tick i).state = .dispatch ∧ u.state = .dispatchWait := by
  revert h
  unfold tick
  split
  case h_1 hst =>
    split
    · exact fun _ => Or.inl ⟨rfl, rfl, rfl⟩
    · exact fun h => absurd h (not_fetches_of_eq hst nofun nofun)
  case h_2 hst => exact fun _ => Or.inr ⟨rfl, hst⟩
  case h_5 p hst =>
    have hno := not_fetches_of_eq hst nofun nofun
    exact fun h => absurd h (fiLoop_not_fetches p hno)
  case h_8 p hst =>
    have hno := not_fetches_of_eq hst nofun nofun
    exact fun h => absurd h (fiJudge_not_fetches p hno)
  case h_10 hst =>
    have hnext := (fiInbWait_inbStart i u).2
    intro h
    refine absurd h (not_fetches_of_eq hnext ?_ ?_) <;>
      (split
       · exact nofun
       · rw [hst]; exact nofun)
  all_goals
    exact fun h => absurd h (not_fetches_of_eq rfl nofun nofun)

end Fetch

end Stu

/-- An INB search goes on, or it ends with its answer and lets the packet memory go. -/
theorem Inb.tick_of_busy {inbStart : Bool} {sti : BitVec 8} {len : BitVec 10} {dout : SlotEntry} {n : Inb}
    (h : n.state ≠ .idle) (hdone : n.done = false) :
    (n.tick inbStart sti len dout).state ≠ .idle ∧ (n.tick inbStart sti len dout).done = false
      ∨ (n.tick inbStart sti len dout).state = .idle ∧ (n.tick inbStart sti len dout).done = true
        ∧ (n.tick inbStart sti len dout).rcvpktEn = false := by
  unfold tick
  split
  case h_1 hst => exact absurd hst h
  case h_3 =>
    split
    · exact Or.inl ⟨nofun, hdone⟩
    split <;> exact Or.inl ⟨nofun, hdone⟩
  case h_6 => exact Or.inr ⟨rfl, rfl, rfl⟩
  all_goals exact Or.inl ⟨nofun, hdone⟩

namespace StuUnit

/-- The phases of an inquiry of the STU with the INB machine. -/
inductive Inquiry (d : StuUnit) : Prop
  | none (hstu : d.stu.state ≠ .fiInbWait) (hstart : d.stu.inbStart = false) (hinb : d.inb.state = .idle)
      (hdone : d.inb.done = false) (hen : d.inb.rcvpktEn = false)
  | asked (hstu : d.stu.state = .fiInbWait) (hstart : d.stu.inbStart = true) (hinb : d.inb.state = .idle)
      (hdone : d.inb.done = false)
  | searching (hstu : d.stu.state = .fiInbWait) (hstart : d.stu.inbStart = false)
      (hinb : d.inb.state ≠ .idle) (hdone : d.inb.done = false)
  | answered (hstu : d.stu.state = .fiInbWait) (hstart : d.stu.inbStart = false)
      (hinb : d.inb.state = .idle) (hdone : d.inb.done = true) (hen : d.inb.rcvpktEn = false)

section Inquiry

variable {v : StuEnv} {dout : SlotEntry} {d : StuUnit}

theorem tick_stu_of_fiInbWait (h : d.stu.state = .fiInbWait) :
    (d.tick v dout).stu.inbStart = false
      ∧ (d.tick v dout).stu.state = if d.inb.done then .fiClr .first else .fiInbWait := by
  have hwait := Stu.fiInbWait_inbStart (d.stuIn v dout) d.stu
  simp only [tick, Stu.tick, h] at hwait ⊢
  exact hwait

theorem tick_inb_of_idle (h : d.inb.state = .idle) :
    (d.tick v dout).inb.done = false
      ∧ (d.stu.inbStart = false → (d.tick v dout).inb.state = .idle
        ∧ (d.tick v dout).inb.rcvpktEn = d.inb.rcvpktEn)
      ∧ (d.stu.inbStart = true → (d.tick v dout).inb.state ≠ .idle) := by
  simp only [tick, Inb.tick, h]
  cases d.stu.inbStart with
  | false => exact ⟨rfl, fun _ => ⟨rfl, rfl⟩, fun hc => absurd hc Bool.false_ne_true⟩
  | true => exact ⟨rfl, fun hc => absurd hc.symm Bool.false_ne_true, fun _ => nofun⟩

theorem Inquiry.tick (h : d.Inquiry) : (d.tick v dout).Inquiry := by
  cases h with
  | none hstu hstart hinb hdone hen =>
    obtain ⟨hdone', hrest, -⟩ := @tick_inb_of_idle v dout _ hinb
    obtain ⟨hinb', hen'⟩ := hrest hstart
    rcases Stu.tick_asks (d.stuIn v dout) hstu with ⟨hst, hs⟩ | ⟨hst, hs⟩
    · exact Inquiry.none hst (hs.trans hstart) hinb' hdone' (hen'.trans hen)
    · exact Inquiry.asked hst hs hinb' hdone'
  | asked hstu hstart hinb hdone =>
    obtain ⟨hs, hst⟩ := @tick_stu_of_fiInbWait v dout _ hstu
    obtain ⟨hdone', -, hgo⟩ := @tick_inb_of_idle v dout _ hinb
    rw [hdone] at hst
    exact Inquiry.searching hst hs (hgo hstart) hdone'
  | searching hstu hstart hinb hdone =>
    obtain ⟨hs, hst⟩ := @tick_stu_of_fiInbWait v dout _ hstu
    rw [hdone] at hst
    rcases Inb.tick_of_busy hinb hdone with ⟨hinb', hdone'⟩ | ⟨hinb', hdone', hen'⟩
    · exact Inquiry.searching hst hs hinb' hdone'
    · exact Inquiry.answered hst hs hinb' hdone' hen'
  | answered hstu hstart hinb hdone hen =>
    obtain ⟨hs, hst⟩ := @tick_stu_of_fiInbWait v dout _ hstu
    obtain ⟨hdone', hrest, -⟩ := @tick_inb_of_idle v dout _ hinb
    obtain ⟨hinb', hen'⟩ := hrest hstart
    rw [hdone] at hst
    refine Inquiry.none ?_ hs hinb' hdone' (hen'.trans hen)
    rw [hst]
    exact nofun

theorem Inquiry.rcvpktEn (h : d.Inquiry) (hst : d.stu.state ≠ .fiInbWait) : d.inb.rcvpktEn = false := by
  cases h with
  | none _ _ _ _ hen => exact hen
  | asked hstu => exact absurd hstu hst
  | searching hstu => exact absurd hstu hst
  | answered hstu => exact absurd hstu hst

end Inquiry

end StuUnit

/-! ### Powers of two between two bounds -/

/-- The bounds that the user sets. -/
structure TdmaSetting.PowerBounds (g : TdmaSetting) : Prop where
  lower : ∃ k, g.adjFrameLowerBound.toNat = 2 ^ k
  upper : ∃ k, g.adjFrameUpperBound.toNat = 2 ^ k
  lower_le_upper : g.adjFrameLowerBound.toNat ≤ g.adjFrameUpperBound.toNat
  upper_le : g.adjFrameUpperBound.toNat ≤ 64

/-- A power of two between the bounds. -/
structure TdmaSetting.Within (g : TdmaSetting) (len : ℕ) : Prop where
  pow : ∃ k, len = 2 ^ k
  lower : g.adjFrameLowerBound.toNat ≤ len
  upper : len ≤ g.adjFrameUpperBound.toNat

theorem two_mul_le_of_pow {m n : ℕ} (hm : ∃ k, m = 2 ^ k) (hn : ∃ k, n = 2 ^ k) (h : m < n) :
    2 * m ≤ n := by
  obtain ⟨j, rfl⟩ := hm
  obtain ⟨k, rfl⟩ := hn
  have hjk : j < k := (Nat.pow_lt_pow_iff_right (by decide)).mp h
  calc 2 * 2 ^ j = 2 ^ (j + 1) := by rw [Nat.pow_succ, Nat.mul_comm]
    _ ≤ 2 ^ k := Nat.pow_le_pow_right (by decide) hjk

section Length

variable {g : TdmaSetting} {len : ℕ}

theorem TdmaSetting.Within.double (h : g.Within len) (hup : 2 * len ≤ g.adjFrameUpperBound.toNat) :
    g.Within (2 * len) := by
  obtain ⟨k, hk⟩ := h.pow
  refine ⟨⟨k + 1, by rw [hk, Nat.pow_succ, Nat.mul_comm]⟩, ?_, hup⟩
  have := h.lower
  omega

theorem TdmaSetting.Within.halve (h : g.Within len) (hpos : 0 < g.adjFrameLowerBound.toNat)
    (hlow : 2 * g.adjFrameLowerBound.toNat ≤ len) : g.Within (len / 2) := by
  obtain ⟨k, hk⟩ := h.pow
  have hup := h.upper
  cases k with
  | zero => omega
  | succ k =>
    have hlen : len / 2 = 2 ^ k := by rw [hk, Nat.pow_succ, Nat.mul_div_cancel _ (by decide)]
    exact ⟨⟨k, hlen⟩, by omega, by omega⟩

/-- The next length, as a number; ten bits hold the double of a length below 512. -/
theorem nextFrameLen_toNat {expBch expDp cutBch : Bool} {l : BitVec 10}
    (hena : g.tdmaFunctionEnable = true) (hadj : g.frameAdjEna = true)
    (hl : expBch = true ∨ expDp = true → l.toNat < 512) :
    (g.nextFrameLen expBch expDp cutBch l).toNat =
      if expBch = true ∨ expDp = true then 2 * l.toNat
      else if cutBch = true then l.toNat / 2 else l.toNat := by
  rw [TdmaSetting.nextFrameLen, if_pos ⟨hena, hadj⟩]
  split
  · rename_i hexp
    have hlt := hl hexp
    rw [BitVec.toNat_shiftLeft, Nat.shiftLeft_eq, Nat.mod_eq_of_lt (by omega), Nat.mul_comm]
  split
  · rw [BitVec.toNat_ushiftRight, Nat.shiftRight_eq_div_pow]
  · rfl

end Length

/-! ### Two doublings that overlap -/

namespace System

/-- One machine decides to double the frame while the pulse of the other is up, and the frame is too long to
be doubled twice. -/
def Overlaps (g : TdmaSetting) (s : System) (i : Cycle) : Prop :=
  g.tdmaFunctionEnable = true ∧ g.adjFrameUpperBound.toNat < 4 * s.currFrameLen.toNat
    ∧ (s.fi.Expands g (s.fiIn i) ∧ s.unit.stu.frameLenExpDp = true
      ∨ s.unit.stu.Expands s.currFrameLen ∧ s.fi.frameLenExpBch = true)

/-- What holds between the cycles of a run without an overlap. -/
structure Sound (g : TdmaSetting) (s : System) : Prop where
  within : g.Within s.currFrameLen.toNat
  inquiry : s.unit.Inquiry
  pulsesDown : s.fi.PulsesDown
  pulseDown : s.unit.stu.PulseDown
  expBch : s.fi.frameLenExpBch = true → 2 * s.currFrameLen.toNat ≤ g.adjFrameUpperBound.toNat
  expDp : s.unit.stu.frameLenExpDp = true → 2 * s.currFrameLen.toNat ≤ g.adjFrameUpperBound.toNat
  cutBch : s.fi.frameLenCutBch = true → 2 * g.adjFrameLowerBound.toNat ≤ s.currFrameLen.toNat
  asked : s.unit.stu.state = .dispatchWait →
    s.unit.stu.rcvpktEn = true ∧ s.unit.stu.rcvpktAddrb = rxTypeAddr
  fetched : s.unit.stu.state = .dispatch →
    ((1 : BitVec 9) <<< (s.unit.rcvpktDoutb.extractLsb' 0 4)).toNat ≤ g.adjFrameUpperBound.toNat
  fiFrameLen : s.unit.stu.fiFrameLen.toNat ≤ g.adjFrameUpperBound.toNat

section Step

variable {g : TdmaSetting} {s : System} {i : Cycle}

theorem tick_stu :
    (s.tick g i).unit.stu = s.unit.stu.tick (s.unit.stuIn (s.stuEnv g i) s.ram.doutA) := rfl

theorem tick_fi : (s.tick g i).fi = s.fi.tick g (s.fiIn i) := rfl

theorem tick_currFrameLen (hena : g.tdmaFunctionEnable = true) (hadj : g.frameAdjEna = true)
    (hl : s.fi.frameLenExpBch = true ∨ s.unit.stu.frameLenExpDp = true → s.currFrameLen.toNat < 512) :
    (s.tick g i).currFrameLen.toNat =
      if s.fi.frameLenExpBch = true ∨ s.unit.stu.frameLenExpDp = true then 2 * s.currFrameLen.toNat
      else if s.fi.frameLenCutBch = true then s.currFrameLen.toNat / 2 else s.currFrameLen.toNat :=
  nextFrameLen_toNat hena hadj hl

theorem Sound.pulses_of_adjIsNeeded (h : s.Sound g) (hst : s.fi.state = .adjIsNeeded) :
    s.fi.frameLenExpBch = false ∧ s.fi.frameLenCutBch = false :=
  h.pulsesDown (by rw [hst]; exact nofun)

theorem Sound.pulse_of_expands (h : s.Sound g) (hexp : s.unit.stu.Expands s.currFrameLen) :
    s.unit.stu.frameLenExpDp = false := by
  rw [← Bool.not_eq_true]
  intro hc
  exact StuState.noConfusion (hexp.1.symm.trans (h.pulseDown hc))

variable (hena : g.tdmaFunctionEnable = true) (hadj : g.frameAdjEna = true) (hb : g.PowerBounds)

include hb in
theorem Sound.len_lt (h : s.Sound g) : s.currFrameLen.toNat < 512 :=
  (h.within.upper.trans hb.upper_le).trans_lt (by decide)

include hena hadj hb

theorem Sound.within_tick (h : s.Sound g) : g.Within (s.tick g i).currFrameLen.toNat := by
  rw [tick_currFrameLen hena hadj fun _ => h.len_lt hb]
  split
  · rename_i hexp
    exact h.within.double (hexp.elim h.expBch h.expDp)
  split
  · rename_i hcut
    obtain ⟨k, hk⟩ := hb.lower
    exact h.within.halve (hk ▸ Nat.two_pow_pos k) (h.cutBch hcut)
  · exact h.within

theorem Sound.expBch_tick (h : s.Sound g) (hno : ¬ s.Overlaps g i)
    (hup : (s.tick g i).fi.frameLenExpBch = true) :
    2 * (s.tick g i).currFrameLen.toNat ≤ g.adjFrameUpperBound.toNat := by
  have hexp := Fi.expands_of_tick h.pulsesDown hup
  have hlt : s.currFrameLen.toNat < g.adjFrameUpperBound.toNat := hexp.2.2.2.2.2.2
  have htwo := two_mul_le_of_pow h.within.pow hb.upper hlt
  obtain ⟨hlowExp, hlowCut⟩ := h.pulses_of_adjIsNeeded hexp.1
  rw [tick_currFrameLen hena hadj fun _ => h.len_lt hb, hlowExp, hlowCut]
  split
  · rename_i hor
    have hdp := hor.resolve_left Bool.false_ne_true
    by_contra hfour
    exact hno ⟨hena, by omega, Or.inl ⟨hexp, hdp⟩⟩
  · rw [if_neg Bool.false_ne_true]
    exact htwo

theorem Sound.expDp_tick (h : s.Sound g) (hno : ¬ s.Overlaps g i)
    (hup : (s.tick g i).unit.stu.frameLenExpDp = true) :
    2 * (s.tick g i).currFrameLen.toNat ≤ g.adjFrameUpperBound.toNat := by
  have hexp := (Stu.tick_frameLenExpDp h.pulseDown hup).1
  have hlt : s.currFrameLen.toNat < g.adjFrameUpperBound.toNat :=
    Nat.lt_of_lt_of_le hexp.2.2 h.fiFrameLen
  have htwo := two_mul_le_of_pow h.within.pow hb.upper hlt
  rw [tick_currFrameLen hena hadj fun _ => h.len_lt hb, h.pulse_of_expands hexp]
  split
  · rename_i hor
    have hbch := hor.resolve_right Bool.false_ne_true
    by_contra hfour
    exact hno ⟨hena, by omega, Or.inr ⟨hexp, hbch⟩⟩
  split
  · omega
  · exact htwo

theorem Sound.cutBch_tick (h : s.Sound g) (hup : (s.tick g i).fi.frameLenCutBch = true) :
    2 * g.adjFrameLowerBound.toNat ≤ (s.tick g i).currFrameLen.toNat := by
  obtain ⟨hst, -, -, hlt⟩ := Fi.canCut_of_tick h.pulsesDown hup
  have htwo := two_mul_le_of_pow hb.lower h.within.pow hlt
  obtain ⟨hlowExp, hlowCut⟩ := h.pulses_of_adjIsNeeded hst
  rw [tick_currFrameLen hena hadj fun _ => h.len_lt hb, hlowExp, hlowCut]
  split
  · omega
  · rw [if_neg Bool.false_ne_true]
    exact htwo

omit hena hadj hb in
theorem Sound.fetched_tick (h : s.Sound g)
    (hrcv : s.unit.stu.state = .dispatchWait → g.Within (2 ^ i.rcvPkt.frameLenCode.toNat))
    (hst : (s.tick g i).unit.stu.state = .dispatch) :
    ((1 : BitVec 9) <<< ((s.tick g i).unit.rcvpktDoutb.extractLsb' 0 4)).toNat
      ≤ g.adjFrameUpperBound.toNat := by
  rcases Stu.tick_fetches (Or.inr hst) with ⟨hwait, -⟩ | ⟨-, hwait⟩
  · exact absurd (hst.symm.trans hwait) nofun
  obtain ⟨hen, haddr⟩ := h.asked hwait
  have hinb : s.unit.inb.rcvpktEn = false := h.inquiry.rcvpktEn (by rw [hwait]; exact nofun)
  have hword : (s.tick g i).unit.rcvpktDoutb = i.rcvPkt rxTypeAddr := by
    change i.rcvPkt (s.unit.rcvpktAddrb i.rcvpktAddrbIrq) = _
    rw [StuUnit.rcvpktAddrb, if_pos hen, hinb, if_neg Bool.false_ne_true, haddr]
  rw [hword]
  change ((1 : BitVec 9) <<< i.rcvPkt.frameLenCode).toNat ≤ _
  have hle := (hrcv hwait).upper
  rw [BitVec.shiftLeft_eq', BitVec.toNat_shiftLeft, Nat.shiftLeft_eq]
  refine (Nat.mod_le _ _).trans ?_
  exact (Nat.one_mul _).trans_le hle

omit hena hadj hb in
theorem Sound.fiFrameLen_tick (h : s.Sound g) :
    (s.tick g i).unit.stu.fiFrameLen.toNat ≤ g.adjFrameUpperBound.toNat := by
  rw [tick_stu]
  by_cases hst : s.unit.stu.state = .dispatch
  · rw [Stu.tick, hst]
    exact h.fetched hst
  · rw [Stu.tick_fiFrameLen _ hst]
    exact h.fiFrameLen

/-- **A cycle without an overlap.** -/
theorem Sound.tick (h : s.Sound g) (hno : ¬ s.Overlaps g i)
    (hrcv : s.unit.stu.state = .dispatchWait → g.Within (2 ^ i.rcvPkt.frameLenCode.toNat)) :
    (s.tick g i).Sound g where
  within := h.within_tick hena hadj hb
  inquiry := h.inquiry.tick
  pulsesDown := h.pulsesDown.tick g _
  pulseDown := fun hup => (Stu.tick_frameLenExpDp h.pulseDown hup).2
  expBch := h.expBch_tick hena hadj hb hno
  expDp := h.expDp_tick hena hadj hb hno
  cutBch := h.cutBch_tick hena hadj hb
  asked := by
    intro hst
    rcases Stu.tick_fetches (Or.inl hst) with ⟨-, hread⟩ | ⟨hd, -⟩
    · exact hread
    · exact absurd (hst.symm.trans hd) nofun
  fetched := h.fetched_tick hrcv
  fiFrameLen := h.fiFrameLen_tick

end Step

/-! ### Runs -/

section Run

variable {g : TdmaSetting} {len : BitVec 10} {inp : ℕ → Cycle}

theorem sound_reset (hlen : g.Within len.toNat) : (reset len).Sound g where
  within := hlen
  inquiry := StuUnit.Inquiry.none nofun rfl rfl rfl rfl
  pulsesDown := fun _ => ⟨rfl, rfl⟩
  pulseDown := fun h => nomatch h
  expBch := fun h => nomatch h
  expDp := fun h => nomatch h
  cutBch := fun h => nomatch h
  asked := nofun
  fetched := nofun
  fiFrameLen := Nat.zero_le _

theorem within_of_disabled (hoff : g.tdmaFunctionEnable = false) (hlen : g.Within len.toNat)
    (huser : g.defaultFrameLenUser ≠ 0 → g.Within g.defaultFrameLenUser.toNat) (n : ℕ) :
    g.Within (run g inp len n).currFrameLen.toNat := by
  induction n with
  | zero => exact hlen
  | succ n ih =>
    have hnext : ∀ (s : System) (i : Cycle), (s.tick g i).currFrameLen =
        if g.defaultFrameLenUser ≠ 0 then g.defaultFrameLenUser.setWidth 10 else s.currFrameLen := by
      intro s i
      change g.nextFrameLen _ _ _ _ = _
      rw [TdmaSetting.nextFrameLen, hoff, if_neg (by simp)]
    change g.Within ((run g inp len n).tick g (inp n)).currFrameLen.toNat
    rw [hnext]
    split
    · rename_i hne
      rw [BitVec.toNat_setWidth, Nat.mod_eq_of_lt (by omega)]
      exact huser hne
    · exact ih

theorem not_within_of_overlaps {s : System} {i j : Cycle} (hadj : g.frameAdjEna = true) (hb : g.PowerBounds)
    (h : s.Overlaps g i) (hs : g.Within s.currFrameLen.toNat)
    (hnext : g.Within (s.tick g i).currFrameLen.toNat) :
    ¬ g.Within ((s.tick g i).tick g j).currFrameLen.toNat := by
  obtain ⟨hena, hfour, hor⟩ := h
  have hlt : ∀ {l : ℕ}, g.Within l → l < 512 := fun hl => (hl.upper.trans hb.upper_le).trans_lt (by decide)
  have hfirst : s.fi.frameLenExpBch = true ∨ s.unit.stu.frameLenExpDp = true :=
    hor.elim (fun hfi => Or.inr hfi.2) fun hstu => Or.inl hstu.2
  have hsecond : (s.tick g i).fi.frameLenExpBch = true ∨ (s.tick g i).unit.stu.frameLenExpDp = true :=
    hor.elim (fun hfi => Or.inl (Fi.tick_expands hfi.1)) fun hstu => Or.inr (Stu.tick_expands hstu.1)
  intro hw
  have hup := hw.upper
  rw [tick_currFrameLen hena hadj fun _ => hlt hnext, if_pos hsecond,
    tick_currFrameLen hena hadj fun _ => hlt hs, if_pos hfirst] at hup
  omega

/-- **The bounds of the frame length.**  In a run from reset in which the user's lengths and those of the
received frame informations are within the bounds, the frame length is always within them exactly if no two
doublings overlap. -/
theorem within_iff_not_overlaps (hadj : g.frameAdjEna = true) (hb : g.PowerBounds)
    (hlen : g.Within len.toNat)
    (huser : g.tdmaFunctionEnable = false → g.defaultFrameLenUser ≠ 0 →
      g.Within g.defaultFrameLenUser.toNat)
    (hrcv : ∀ n, (trace (tick g) inp (reset len) n).unit.stu.state = .dispatchWait →
      g.Within (2 ^ (inp n).rcvPkt.frameLenCode.toNat)) :
    (∀ n, g.Within (trace (tick g) inp (reset len) n).currFrameLen.toNat) ↔
      ∀ n, ¬ (trace (tick g) inp (reset len) n).Overlaps g (inp n) := by
  constructor
  · intro h n hover
    exact not_within_of_overlaps hadj hb hover (h n) (h (n + 1)) (h (n + 2))
  · intro h n
    cases hena : g.tdmaFunctionEnable with
    | false => exact within_of_disabled hena hlen (huser hena) n
    | true =>
      have hsound : (trace (tick g) inp (reset len) n).Sound g := by
        induction n with
        | zero => exact sound_reset hlen
        | succ n ih => exact ih.tick hena hadj hb (h n) (hrcv n)
      exact hsound.within

end Run

/-! ### A frame that is doubled twice -/

/-- A node whose frame may grow from four slots to eight. -/
def growingSetting : TdmaSetting where
  globalSid := 5
  bchCandidateC3hopThresS1 := 3
  adjFrameLowerBound := 4
  adjFrameUpperBound := 8

/-- Node 7 has a frame of eight slots; it holds slot 0, and nodes 8 and 9 hold the slots 1 and 2. -/
def growingPkt : RcvPkt := fun k =>
  if k = 20 then 3 + 7 * 2 ^ 4 + 2 * 2 ^ 12 + 7 * 2 ^ 14 + 2 * 2 ^ 26 + 8 * 2 ^ 28
  else if k = 21 then 2 * 2 ^ 8 + 9 * 2 ^ 10
  else 0

/-- Slots of 140 cycles.  The frame information comes in so late that the STU is done with it in the cycle
before the FI builder decides on the frame length for the first time. -/
def growingInp (n : ℕ) : Cycle where
  slotPointer := BitVec.ofNat 16 (n / 140 % 4)
  slotPulse2Counter := if 840 ≤ n then 990 else 0
  stuStart := n == 661
  rcvPkt := growingPkt
  ipicAck := true
  ipicDone := true
  inputRandom := 3
  dividerDone := true

theorem growingSetting_powerBounds : growingSetting.PowerBounds where
  lower := ⟨2, rfl⟩
  upper := ⟨3, rfl⟩
  lower_le_upper := by decide
  upper_le := by decide

theorem growingSetting_within : growingSetting.Within 4 where
  pow := ⟨2, rfl⟩
  lower := by decide
  upper := by decide

theorem growingPkt_within : growingSetting.Within (2 ^ growingPkt.frameLenCode.toNat) where
  pow := ⟨_, rfl⟩
  lower := by decide
  upper := by decide

theorem within_iff_not_overlaps_growing :
    (∀ n, growingSetting.Within (trace (tick growingSetting) growingInp (reset 4) n).currFrameLen.toNat) ↔
      ∀ n, ¬ (trace (tick growingSetting) growingInp (reset 4) n).Overlaps growingSetting (growingInp n) :=
  within_iff_not_overlaps rfl growingSetting_powerBounds growingSetting_within
    (fun h => absurd h.symm Bool.false_ne_true) fun _ _ => growingPkt_within

/-- From four slots the frame goes to sixteen. -/
theorem frame_len_doubled_twice :
    ¬ ∀ (g : TdmaSetting) (len : BitVec 10) (inp : ℕ → Cycle), g.frameAdjEna = true → g.PowerBounds →
      g.Within len.toNat →
      (g.tdmaFunctionEnable = false → g.defaultFrameLenUser ≠ 0 → g.Within g.defaultFrameLenUser.toNat) →
      (∀ n, g.Within (2 ^ (inp n).rcvPkt.frameLenCode.toNat)) →
      ∀ n, g.Within (trace (tick g) inp (reset len) n).currFrameLen.toNat := by
  intro h
  have hwithin := h growingSetting 4 growingInp rfl growingSetting_powerBounds growingSetting_within
    (fun h => absurd h.symm Bool.false_ne_true) (fun _ => growingPkt_within) 979
  have hlen : (trace (tick growingSetting) growingInp (reset 4) 979).currFrameLen = 16 := by decide +kernel
  rw [hlen] at hwithin
  exact absurd hwithin.upper (by decide)

end System

end VanetTdma.Fpga
