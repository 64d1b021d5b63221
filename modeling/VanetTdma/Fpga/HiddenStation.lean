import VanetTdma.Fpga.StuMerge

/-!
# The check for a hidden station

A neighbour whose FI has an empty tag at a slot this node holds does not hear the node there.  The simulators then
mark the slot as contested if the sender is known already, that is if it holds some slot of the frame.  The updater
hands this question to the INB machine, with two slips: the sid it asks for is that of the tag, which is 0, and the
addresses the INB machine counts through are those of the packet memory, while the slot-status memory goes on
showing the entry of the slot itself.  So the answer does not depend on the sender at all: it is yes exactly if the
node's own sid is 0.

* `mergedTable_hidden` — what both passes make of the slot;
* `hidden_station_iff` — when the verdict is the one of the simulators.
-/

namespace VanetTdma.Fpga

open VanetTdma.Clocked

namespace Bench

/-- The sender of the packet holds a slot of the frame. -/
def SenderHolds (c : StuSetting) (mem : BitVec 7 → SlotEntry) : Prop :=
  ∃ b : BitVec 7, b.toNat < c.currFrameLen.toNat ∧ (mem b).occupierSid = c.rcvPkt.senderSid

/-- The updater examines the tag of slot `a` in the first pass. -/
def Examines (a : BitVec 7) (s : Bench) : Prop := s.unit.stu.state = .fiJudge .first ∧ s.unit.stu.addr = a

/-! ### What the first pass makes of the occupiers -/

/-- The first pass hands the slot to the station of the tag. -/
def HandedOver (g : BitVec 8) (t : FiTag) (e : SlotEntry) : Prop :=
  e.locker = false ∧ e.occupierSid = g ∧ t.occupierSid ≠ g ∧ t.occupierSid ≠ 0 ∧
    (t.busy = 3 ∨ t.busy = 2 ∧ e.psf < t.psf)

instance (g : BitVec 8) (t : FiTag) (e : SlotEntry) : Decidable (HandedOver g t e) :=
  inferInstanceAs (Decidable (_ ∧ _))

theorem fiLoop2Other_occupierSid {sender : BitVec 8} {t : FiTag} {e : SlotEntry} :
    ((fiLoop2Other sender t e e).getD e).occupierSid
      = if t.busy = 3 ∨ t.busy = 2 ∧ e.psf < t.psf then t.occupierSid else e.occupierSid := by
  rcases t.busy_cases with ⟨hb, -⟩ | ⟨hb, -⟩ | ⟨hb, -⟩ | ⟨hb, -⟩
  · simp [fiLoop2Other, hb]
  · simp [fiLoop2Other, hb]
  · by_cases hpsf : e.psf < t.psf
    · simp only [fiLoop2Other, hb, gt_iff_lt, hpsf, if_true, true_and, or_true]
      split <;> rfl
    · have hcond : ¬ (t.busy = 3 ∨ t.busy = 2 ∧ e.psf < t.psf) := by simp [hb, hpsf]
      rw [if_neg hcond]
      simp only [fiLoop2Other, hb, gt_iff_lt, hpsf, if_true, if_false]
      split <;> rfl
  · simp [fiLoop2Other, hb, collided]

theorem fiLoop2Own_occupierSid {t : FiTag} {e : SlotEntry} :
    ((fiLoop2Own t e).getD e).occupierSid = e.occupierSid := by
  unfold fiLoop2Own
  split <;> rfl

theorem judge_first_occupierSid {g sender : BitVec 8} {t : FiTag} {e : SlotEntry} :
    (judge .first g sender t e).occupierSid = if HandedOver g t e then t.occupierSid else e.occupierSid := by
  unfold judge
  by_cases hlock : e.locker = true
  · simp [hlock, HandedOver]
  by_cases hown : e.occupierSid = g
  · by_cases hother : t.occupierSid ≠ g ∧ t.occupierSid ≠ 0
    · simp only [hlock, hown, ne_eq, not_true, if_false, if_pos hother, Bool.false_eq_true]
      rw [fiLoop2Other_occupierSid, hown]
      simp only [HandedOver, hlock, hown, hother, ne_eq, not_false_eq_true, true_and]
    · have hnot : ¬ HandedOver g t e := fun h => hother ⟨h.2.2.1, h.2.2.2.1⟩
      simp only [hlock, hown, ne_eq, not_true, if_false, if_neg hother, if_neg hnot, Bool.false_eq_true]
      split
      · rw [fiLoop2Own_occupierSid, hown]
      · exact hown
  · have hnot : ¬ HandedOver g t e := fun h => hown h.2.1
    simp [hown, hnot]

/-- The sender holds a slot of the frame when the first pass comes to slot `a`, read off the table before the pass
and the tags. -/
def SenderKnown (c : StuSetting) (mem : BitVec 7 → SlotEntry) (a : ℕ) : Prop :=
  ∃ b : BitVec 7, b.toNat < c.currFrameLen.toNat ∧
    (if b.toNat < a ∧ HandedOver c.globalSid (c.rcvPkt.tag b.toNat) (mem b) then
      (c.rcvPkt.tag b.toNat).occupierSid else (mem b).occupierSid) = c.rcvPkt.senderSid

instance (c : StuSetting) (mem : BitVec 7 → SlotEntry) (a : ℕ) : Decidable (SenderKnown c mem a) :=
  inferInstanceAs (Decidable (∃ _ : BitVec 7, _ ∧ _))

theorem senderHolds_passTable_iff {c : StuSetting} {mem : BitVec 7 → SlotEntry} {a : ℕ} (ha : a ≤ 128) :
    SenderHolds c (passTable c .first a mem) ↔ SenderKnown c mem a := by
  have hslot : ∀ b : BitVec 7, (passTable c .first a mem b).occupierSid
      = if b.toNat < a ∧ HandedOver c.globalSid (c.rcvPkt.tag b.toNat) (mem b) then
        (c.rcvPkt.tag b.toNat).occupierSid else (mem b).occupierSid := by
    intro b
    rw [passTable_apply ha]
    by_cases hb : b.toNat < a
    · rw [if_pos hb, judge_first_occupierSid]
      simp only [hb, true_and]
    · simp only [hb, false_and, if_false]
  simp only [SenderHolds, SenderKnown, hslot]

/-! ### The slot in question -/

/-- **What both passes make of an own slot with an empty tag**: the entry is marked as contested exactly if the
node's own sid is 0. -/
theorem judge_hidden {g sender : BitVec 8} {t : FiTag} {e : SlotEntry} (hlock : e.locker = false)
    (hown : e.occupierSid = g) (hsid : t.occupierSid = 0) (hbusy : t.busy = 0) :
    (judge .second g sender t (judge .first g sender t e)).busy = 3 ↔ e.busy = 3 ∨ g = 0 := by
  have hsecond : ∀ e' : SlotEntry, e'.occupierSid = g → judge .second g sender t e' = e' := by
    intro e' hown'
    simp only [judge, hown', true_or, if_true, ite_self]
  by_cases hzero : g = 0
  · -- the tag names the node itself, which the updater takes for the report of a free slot
    subst hzero
    have hfirst : judge .first 0 sender t e = { e with busy := 3 } := by
      simp [judge, hlock, hown, hsid, fiLoop2Own, hbusy]
    rw [hfirst, hsecond { e with busy := 3 } hown]
    simp
  · have hne : ¬ (0 : BitVec 8) = g := fun h => hzero h.symm
    have hfirst : judge .first g sender t e = e := by
      simp only [judge, hown, hsid, ne_eq, not_true, and_false, if_false, if_neg hne, ite_self]
    rw [hfirst, hsecond e hown]
    simp only [hzero, or_false]

/-! ### The run -/

section run

variable {c : StuSetting} {s : Bench} {start : ℕ → Bool} {L : BitVec 9} {P : Bench → Prop}

theorem trace_of_until (hstart : start 0 = true) (h : Until (Bench.next c) (Works c L) P (s.tick c true)) :
    ∃ m, P (trace (Bench.tick c) start s (m + 1)) ∧
      ∀ k < m, Works c L (trace (Bench.tick c) start s (k + 1)) := by
  have hnext : ∀ t i, Works c L t → Bench.tick c t i = Bench.next c t := fun t i ht => tick_eq_next i ht.busy
  obtain ⟨m, hm, hlt⟩ := h.exists_iterate
  have htrace : ∀ k ≤ m, trace (Bench.tick c) start s (k + 1) = (Bench.next c)^[k] (s.tick c true) := by
    intro k hk
    rw [trace_succ', hstart]
    exact trace_eq_iterate _ hnext fun j hj => hlt j (by omega)
  refine ⟨m, by rw [htrace m (Nat.le_refl m)]; exact hm, fun k hk => ?_⟩
  rw [htrace k (Nat.le_of_lt hk)]
  exact hlt k hk

theorem Quiet.until_judging (h : Quiet s) (hlen : (fiFrameLen c.rcvPkt).toNat ≤ 64)
    (hstall : ∀ b < (fiFrameLen c.rcvPkt).toNat,
      ¬ Stalls c (s.ram.cell (BitVec.ofNat 7 b)) (c.rcvPkt.tag b))
    {a : ℕ} (ha : a < (fiFrameLen c.rcvPkt).toNat) (hlock : (s.ram.cell (BitVec.ofNat 7 a)).locker = false) :
    Until (Bench.next c) (Works c (fiFrameLen c.rcvPkt))
      (Judging c (passTable c .first a s.ram.cell) (fiFrameLen c.rcvPkt) .first a) (s.tick c true) := by
  refine h.until_scan.trans fun t ht => ?_
  refine (ht.until_first hlen (Nat.le_of_lt ha) fun b hb => hstall b (by omega)).trans fun t ht => ?_
  refine (ht.until_full (by omega) (by omega) (Nat.zero_le 14)).trans fun t ht => ?_
  rcases ht.until_judging (by omega) (by omega) with ⟨hlocked, -⟩ | hjudging
  · rw [passTable_of_le (by omega), hlock] at hlocked
    exact nomatch hlocked
  · exact Until.one ht.works hjudging

/-- The pass over a packet with an empty tag at an own slot: it ends, the tag is examined on the way, and the
entry comes out as `judge_hidden` says. -/
theorem hidden_run (hstart : start 0 = true) (hquiet : Quiet s) (hlen : (fiFrameLen c.rcvPkt).toNat ≤ 64)
    (hstall : ∀ b < (fiFrameLen c.rcvPkt).toNat,
      ¬ Stalls c (s.ram.cell (BitVec.ofNat 7 b)) (c.rcvPkt.tag b))
    {a : BitVec 7} (ha : a.toNat < (fiFrameLen c.rcvPkt).toNat) (hlock : (s.ram.cell a).locker = false)
    (hown : (s.ram.cell a).occupierSid = c.globalSid) (hsid : (c.rcvPkt.tag a.toNat).occupierSid = 0)
    (hbusy : (c.rcvPkt.tag a.toNat).busy = 0) :
    ∃ m n t, ReturnsTo c start s n t ∧ m ≤ n ∧ Examines a (trace (Bench.tick c) start s m) ∧
      (SenderHolds c (trace (Bench.tick c) start s m).ram.cell ↔ SenderKnown c s.ram.cell a.toNat) ∧
      ((t.ram.cell a).busy = 3 ↔ (s.ram.cell a).busy = 3 ∨ c.globalSid = 0) := by
  have hself : BitVec.ofNat 7 a.toNat = a := by rw [BitVec.ofNat_toNat, BitVec.setWidth_eq]
  obtain ⟨n, t, hret, -, hcell⟩ := returnsTo_of_until hstart (hquiet.until_stuEnd hlen hstall)
  obtain ⟨m, hjudging, hworks⟩ := trace_of_until hstart
    (hquiet.until_judging hlen hstall ha (by rw [hself]; exact hlock))
  have hm : m + 1 ≤ n := by
    -- the updater is idle after `n + 1` cycles, and busy up to the examination
    by_contra hlt
    rcases Nat.lt_or_ge n m with hnm | hmn
    · have hbusy := (hworks n hnm).busy.1
      rw [hret.trace_eq] at hbusy
      exact hbusy hret.idle
    · have hstate := hjudging.state
      rw [show m = n from by omega, hret.trace_eq, hret.idle] at hstate
      exact StuState.noConfusion hstate
  refine ⟨m + 1, n, t, hret, hm, ⟨hjudging.state, ?_⟩, ?_, ?_⟩
  · exact BitVec.eq_of_toNat_eq hjudging.addr
  · rw [hjudging.table]
    exact senderHolds_passTable_iff (by omega)
  · rw [hcell, mergedTable, passTable_apply (by omega), passTable_apply (by omega), if_pos ha, if_pos ha]
    exact judge_hidden hlock hown hsid hbusy

end run

/-! ### The result -/

/-- **The verdict on a hidden station**: for every table and every FI of at most 64 slots that the updater gets
through, and every unlocked own slot that the FI reports as `(0, 00)`, the entry is contested after the pass
exactly if the sender held a slot of the frame when the tag was examined or it was contested before — if and only
if it was contested before, or the sender is known at that point exactly if the node's own sid is 0. -/
theorem hidden_station_iff (c : StuSetting) (start : ℕ → Bool) (s : Bench) (a : BitVec 7)
    (hstart : start 0 = true) (hquiet : Quiet s) (hlen : (fiFrameLen c.rcvPkt).toNat ≤ 64)
    (hends : ∀ b < (fiFrameLen c.rcvPkt).toNat, ¬ Stalls c (s.ram.cell (BitVec.ofNat 7 b)) (c.rcvPkt.tag b))
    (ha : a.toNat < (fiFrameLen c.rcvPkt).toNat) (hlock : (s.ram.cell a).locker = false)
    (hown : (s.ram.cell a).occupierSid = c.globalSid) (hsid : (c.rcvPkt.tag a.toNat).occupierSid = 0)
    (hbusy : (c.rcvPkt.tag a.toNat).busy = 0) :
    ∃ m n t, ReturnsTo c start s n t ∧ m ≤ n ∧ Examines a (trace (Bench.tick c) start s m) ∧
      (((t.ram.cell a).busy = 3 ↔
          SenderHolds c (trace (Bench.tick c) start s m).ram.cell ∨ (s.ram.cell a).busy = 3) ↔
        (s.ram.cell a).busy = 3 ∨ (c.globalSid = 0 ↔ SenderKnown c s.ram.cell a.toNat)) := by
  obtain ⟨m, n, t, hret, hm, hexam, hknown, hend⟩ :=
    hidden_run hstart hquiet hlen hends ha hlock hown hsid hbusy
  refine ⟨m, n, t, hret, hm, hexam, ?_⟩
  rw [hend, hknown]
  tauto

/-- Node 5 holds slot 0 and has recorded node 7 in slot 1. -/
def knownRam : SlotRam where
  cell k := if k = 0 then { busy := 2, occupierSid := 5 } else if k = 1 then { busy := 2, occupierSid := 7 } else {}
  doutA := {}
  doutB := {}

/-- An FI of node `sender` with the tags `(0, 00)` and `(sender, 10)`. -/
def deafPacket (sender : BitVec 8) : StuSetting where
  globalSid := 5
  currFrameLen := 2
  rcvPkt k := if k = rxTypeAddr then
    1 + sender.setWidth 32 * 2 ^ 4 + 2 * 2 ^ 26 + sender.setWidth 32 * 2 ^ 28 else 0
  rcvpktAddrbIrq := rxTypeAddr

/-- Node 3 is new: its empty tag means nothing, and the entry is left alone. -/
theorem hidden_station_new_neighbour :
    ∃ m n t, ReturnsTo (deafPacket 3) pulse ⟨{}, knownRam⟩ n t ∧ m ≤ n ∧
      Examines 0 (trace (Bench.tick (deafPacket 3)) pulse ⟨{}, knownRam⟩ m) ∧
      ((t.ram.cell 0).busy = 3 ↔
        SenderHolds (deafPacket 3) (trace (Bench.tick (deafPacket 3)) pulse ⟨{}, knownRam⟩ m).ram.cell ∨
          (knownRam.cell 0).busy = 3) := by
  obtain ⟨m, n, t, hret, hm, hexam, hiff⟩ := hidden_station_iff (deafPacket 3) pulse ⟨{}, knownRam⟩ 0 rfl
    (quiet_reset _) (by decide +kernel) (by decide +kernel) (by decide +kernel) rfl rfl (by decide +kernel)
    (by decide +kernel)
  refine ⟨m, n, t, hret, hm, hexam, hiff.mpr (.inr ?_)⟩
  have hunknown : ¬ SenderKnown (deafPacket 3) knownRam.cell 0 := by decide +kernel
  exact ⟨fun h => absurd h (by decide), fun h => absurd h hunknown⟩

/-- Node 7 is known and does not hear node 5 in slot 0: the entry stays uncontested. -/
theorem hidden_station_missed :
    ¬ ∀ (c : StuSetting) (start : ℕ → Bool) (s : Bench) (a : BitVec 7) (m n : ℕ) (t : Bench),
      start 0 = true → Quiet s → (fiFrameLen c.rcvPkt).toNat ≤ 64 → a.toNat < (fiFrameLen c.rcvPkt).toNat →
      (s.ram.cell a).locker = false → (s.ram.cell a).occupierSid = c.globalSid →
      (c.rcvPkt.tag a.toNat).occupierSid = 0 → (c.rcvPkt.tag a.toNat).busy = 0 →
      ReturnsTo c start s n t → m ≤ n → Examines a (trace (Bench.tick c) start s m) →
      ((t.ram.cell a).busy = 3 ↔
        SenderHolds c (trace (Bench.tick c) start s m).ram.cell ∨ (s.ram.cell a).busy = 3) := by
  intro h
  have hlen : (fiFrameLen (deafPacket 7).rcvPkt).toNat ≤ 64 := by decide +kernel
  have ha : (0 : BitVec 7).toNat < (fiFrameLen (deafPacket 7).rcvPkt).toNat := by decide +kernel
  have hsid : ((deafPacket 7).rcvPkt.tag (0 : BitVec 7).toNat).occupierSid = 0 := by decide +kernel
  have hbusy : ((deafPacket 7).rcvPkt.tag (0 : BitVec 7).toNat).busy = 0 := by decide +kernel
  obtain ⟨m, n, t, hret, hm, hexam, hknown, hend⟩ := @hidden_run (deafPacket 7) ⟨{}, knownRam⟩ pulse rfl
    (quiet_reset _) hlen (by decide +kernel) 0 ha rfl rfl hsid hbusy
  have hiff := h (deafPacket 7) pulse ⟨{}, knownRam⟩ 0 m n t rfl (quiet_reset _) hlen ha rfl rfl hsid hbusy hret hm
    hexam
  have hfound : SenderKnown (deafPacket 7) knownRam.cell 0 := ⟨1, by decide +kernel⟩
  exact absurd (hend.mp (hiff.mpr (.inl (hknown.mpr hfound)))) (by decide)

end Bench

end VanetTdma.Fpga
