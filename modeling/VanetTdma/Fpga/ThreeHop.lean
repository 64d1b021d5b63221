import VanetTdma.Fpga.Fcb
import VanetTdma.Fpga.FiBuilder
import VanetTdma.Fpga.StuEdge
import VanetTdma.Fpga.StuMerge

/-!
# The count of third-hop reports

A neighbour that knows a slot as taken two hops away from it reports the slot with busy code `01`, and the updater
adds the count of that report to `count_3hop` of the free entry.  The FI builder and the FCB machine take a free slot
with `count_3hop = 0` for one that is free within three hops.  The field has nine bits and is cleared only by a
search past the first request, so in a long time of listening the reports may add up to a multiple of 512.

* `judge_free` — what the tags of a packet do to a free entry that stays free;
* `History` — the packets that an entry has met since its counters were cleared;
* `History.count3hop_eq` — the field is the sum of the reports modulo 512;
* `third_hop_seen_iff` — it is not 0 exactly if 512 does not divide that sum.
-/

namespace VanetTdma.Fpga

open VanetTdma.Clocked

namespace Bench

/-! ### What a tag does to a busy entry and to a free one -/

section entry

variable {g sender : BitVec 8} {t : FiTag} {e : SlotEntry}

/-- The tag reports the slot as taken two hops away from the sender, by another station. -/
def Distant (g : BitVec 8) (t : FiTag) : Prop := t.busy = 1 ∧ t.occupierSid ≠ 0 ∧ t.occupierSid ≠ g

instance (g : BitVec 8) (t : FiTag) : Decidable (Distant g t) := inferInstanceAs (Decidable (_ ∧ _))

/-- `count_3hop` with the count of a report added. -/
def addReport (g : BitVec 8) (t : FiTag) (c : BitVec 9) : BitVec 9 := if Distant g t then addCount c t else c

theorem addReport_of_distant {c : BitVec 9} (h : Distant g t) : addReport g t c = addCount c t := if_pos h

theorem addReport_of_busy {c : BitVec 9} (h : t.busy ≠ 1) : addReport g t c = c := if_neg fun hd => h hd.1

theorem judge_second_own (h : e.occupierSid = g) : judge .second g sender t e = e := by
  simp only [judge, h, true_or, if_true, ite_self]

/-- A slot is freed by one tag only: its holder's own, with the sid 0. -/
theorem busy_of_verdict {o : Option SlotEntry} (h : ∀ w, o = some w → Verdict sender t e e w) (hb : e.busy ≠ 0) :
    (o.getD e).busy ≠ 0 ∨ t.occupierSid = 0 ∧ o.getD e = released e := by
  cases o with
  | none => exact .inl hb
  | some w =>
    cases h w rfl with
    | keeps _ hbusy _ => exact .inl (hbusy.trans_ne hb)
    | marks _ hbusy => exact .inl (by rcases hbusy with hbusy | hbusy <;> exact hbusy.trans_ne (by decide))
    | hands _ hbusy _ => exact .inl (by rcases hbusy with hbusy | hbusy <;> exact hbusy.trans_ne (by decide))
    | frees hzero _ => exact .inr ⟨hzero, rfl⟩

/-- **A busy entry through the second pass** stays busy or is released. -/
theorem judge_second_busy (hb : e.busy ≠ 0) :
    (judge .second g sender t e).busy ≠ 0 ∨
      t.occupierSid = 0 ∧ judge .second g sender t e = released e := by
  simp only [judge]
  split
  · exact .inl hb
  split
  · exact .inl hb
  · exact busy_of_verdict (fun _ => fiLoop4Din_verdict) hb

/-- What both passes make of the entry of a slot with tag `t`. -/
def judgeBoth (g sender : BitVec 8) (t : FiTag) (e : SlotEntry) : SlotEntry :=
  judge .second g sender t (judge .first g sender t e)

theorem fiLoop4Free_count3hop (hother : t.occupierSid ≠ g)
    (hstays : ((fiLoop4Free sender t e e).getD e).busy = 0) :
    ((fiLoop4Free sender t e e).getD e).count3hop = addReport g t e.count3hop := by
  unfold fiLoop4Free at hstays ⊢
  by_cases hzero : t.occupierSid = 0
  · rw [if_neg (not_not.mpr hzero)]
    exact (if_neg fun hd => hd.2.1 hzero).symm
  · rw [if_pos hzero] at hstays ⊢
    rcases t.busy_cases with ⟨hb, -⟩ | ⟨hb, -⟩ | ⟨hb, -⟩ | ⟨hb, -⟩
    · rw [addReport_of_busy (by rw [hb]; decide), hb]
      rfl
    · rw [addReport_of_distant ⟨hb, hzero, hother⟩, hb]
      rfl
    · -- a direct claim makes the entry busy
      rw [if_pos hb, Option.getD_some] at hstays
      simp only at hstays
      split at hstays
      · exact absurd hstays (by decide)
      · exact absurd hstays (by decide)
    · rw [hb] at hstays
      exact absurd hstays (by decide : ¬ (1 : BitVec 2) = 0)

/-- A free entry of the node itself through the first pass: it stays the node's own, or becomes busy with somebody
else in it. -/
theorem judge_first_free (hlock : e.locker = false) (hown : e.occupierSid = g) :
    (judge .first g sender t e).occupierSid = g ∧ ((judge .first g sender t e).busy = 0 →
        (judge .first g sender t e).count3hop = addReport g t e.count3hop) ∨
      (judge .first g sender t e).busy ≠ 0 ∧ t.occupierSid ≠ 0 := by
  by_cases hother : t.occupierSid ≠ g ∧ t.occupierSid ≠ 0
  · have hfirst : judge .first g sender t e = (fiLoop2Other sender t e e).getD e := by
      simp only [judge, hlock, Bool.false_eq_true, if_false, hown, ne_eq, not_true, if_pos hother]
    rw [hfirst]
    rcases t.busy_cases with ⟨hb, -⟩ | ⟨hb, -⟩ | ⟨hb, -⟩ | ⟨hb, -⟩
    · refine .inr ⟨?_, hother.2⟩
      rw [fiLoop2Other, hb]
      exact (by decide : (3 : BitVec 2) ≠ 0)
    · rw [addReport_of_distant ⟨hb, hother.2, hother.1⟩, fiLoop2Other, hb]
      exact .inl ⟨hown, fun _ => rfl⟩
    · rw [addReport_of_busy (by rw [hb]; decide), fiLoop2Other, if_pos hb]
      split
      · refine .inr ⟨?_, hother.2⟩
        simp only
        split
        · exact (by decide : (2 : BitVec 2) ≠ 0)
        · exact (by decide : (1 : BitVec 2) ≠ 0)
      · split
        · exact .inr ⟨(by decide : (3 : BitVec 2) ≠ 0), hother.2⟩
        · exact .inl ⟨hown, fun _ => rfl⟩
    · refine .inr ⟨?_, hother.2⟩
      rw [fiLoop2Other, hb]
      exact (by decide : (1 : BitVec 2) ≠ 0)
  · have hnone : addReport g t e.count3hop = e.count3hop := if_neg fun hd => hother ⟨hd.2.2, hd.2.1⟩
    have hfirst : judge .first g sender t e
        = if t.occupierSid = g then (fiLoop2Own t e).getD e else e := by
      simp only [judge, hlock, Bool.false_eq_true, if_false, hown, ne_eq, not_true, if_neg hother]
    rw [hnone, hfirst, fiLoop2Own]
    left
    repeat' split
    all_goals exact ⟨hown, fun _ => rfl⟩

/-- **A free entry that stays free**: the report of a third station is added to `count_3hop`, and nothing else
is. -/
theorem judge_free (hlock : e.locker = false) (hfree : e.busy = 0)
    (hstays : (judgeBoth g sender t e).busy = 0) :
    (judgeBoth g sender t e).count3hop = addReport g t e.count3hop := by
  by_cases hown : e.occupierSid = g
  · rcases @judge_first_free g sender t e hlock hown with ⟨hstill, hcount⟩ | ⟨hbusy, hnz⟩
    · rw [judgeBoth, judge_second_own hstill] at hstays ⊢
      exact hcount hstays
    · rcases judge_second_busy hbusy with hbusy' | ⟨hzero, -⟩
      · exact absurd hstays hbusy'
      · exact absurd hzero hnz
  · have hfirst : judge .first g sender t e = e := by
      simp only [judge, ne_eq, hown, not_false_eq_true, if_true, ite_self]
    rw [judgeBoth, hfirst] at hstays ⊢
    by_cases hskip : t.occupierSid = g
    · simp [judge, hskip, addReport, Distant]
    · have hsecond : judge .second g sender t e = (fiLoop4Free sender t e e).getD e := by
        simp [judge, hlock, hown, hskip, fiLoop4Din, hfree]
      rw [hsecond] at hstays ⊢
      exact fiLoop4Free_count3hop hskip hstays

end entry

/-! ### The packets since the last clearing -/

section history

variable {c : StuSetting} {s t u : Bench} {start : ℕ → Bool} {n : ℕ} {a : BitVec 7}

theorem mergedTable_apply (hlen : (fiFrameLen c.rcvPkt).toNat ≤ 64) (mem : BitVec 7 → SlotEntry) (a : BitVec 7) :
    mergedTable c mem a = if a.toNat < (fiFrameLen c.rcvPkt).toNat then
      judgeBoth c.globalSid c.rcvPkt.senderSid (c.rcvPkt.tag a.toNat) (mem a) else mem a := by
  rw [mergedTable, passTable_apply (by omega), passTable_apply (by omega)]
  split <;> rfl

/-- **A pass that ends** leaves the updater quiet over the table of both passes, and its packet has at most 64
slots. -/
theorem ReturnsTo.merged (h : ReturnsTo c start s n t) (hstart : start 0 = true) (hquiet : Quiet s) :
    (fiFrameLen c.rcvPkt).toNat ≤ 64 ∧ t.Quiet ∧ t.ram.cell = mergedTable c s.ram.cell := by
  have hnot : ¬ ∀ m, Busy ((Bench.next c)^[m] (s.tick c true)) := by
    intro hbusy
    have hnext : ∀ t i, Busy t → Bench.tick c t i = Bench.next c t := fun t i ht => tick_eq_next i ht
    have hidle : (trace (Bench.tick c) start s (n + 1)).unit.stu.state = .idle := by
      rw [h.trace_eq]
      exact h.idle
    rw [trace_succ', hstart] at hidle
    exact (trace_of_always hnext hbusy n).1 hidle
  by_cases hcode : c.rcvPkt.frameLenCode = 7 ∨ c.rcvPkt.frameLenCode = 8
  · exact absurd (hquiet.busy_of_long hcode) hnot
  obtain ⟨h7, h8⟩ := not_or.mp hcode
  by_cases hstall : ∃ b < (fiFrameLen c.rcvPkt).toNat,
      Stalls c (s.ram.cell (BitVec.ofNat 7 b)) (c.rcvPkt.tag b)
  · exact absurd (fun m => (hquiet.works_of_stalls h7 h8 hstall m).busy) hnot
  have hlen := fiFrameLen_le h7 h8
  obtain ⟨n', t', hret, hquiet', hcell⟩ := returnsTo_of_until hstart
    (hquiet.until_stuEnd hlen fun b hb hs => hstall ⟨b, hb, hs⟩)
  rw [h.unique hret]
  exact ⟨hlen, hquiet', hcell⟩

/-- What happens to slot `a` from one clearing of its counters to the next, with the packets that the updater works
through and the entry that each of them meets.  A pass that frees the entry clears its counters
(`cleared_of_freed`).  In between, the other machines may write to the memory as long as they neither free the
entry nor change `count_3hop`. -/
inductive History (a : BitVec 7) (s : Bench) : List (StuSetting × SlotEntry) → Bench → Prop
  | refl : History a s [] s
  | pass {c : StuSetting} {start : ℕ → Bool} {l : List (StuSetting × SlotEntry)} {n : ℕ} {t u : Bench}
      (h : History a s l t) (hstart : start 0 = true) (hret : ReturnsTo c start t n u)
      (hkept : (u.ram.cell a).busy = 0 → (t.ram.cell a).busy = 0) : History a s ((c, t.ram.cell a) :: l) u
  | meanwhile {l : List (StuSetting × SlotEntry)} {t u : Bench} (h : History a s l t) (hquiet : Quiet u)
      (hcount : (u.ram.cell a).count3hop = (t.ram.cell a).count3hop)
      (hkept : (u.ram.cell a).busy = 0 → (t.ram.cell a).busy = 0) : History a s l u

/-- The count that a packet reports for the entry it meets, if that is free and unlocked. -/
def reportCount (a : BitVec 7) (p : StuSetting × SlotEntry) : ℕ :=
  if a.toNat < (fiFrameLen p.1.rcvPkt).toNat ∧ p.2.busy = 0 ∧ p.2.locker = false
      ∧ Distant p.1.globalSid (p.1.rcvPkt.tag a.toNat) then (p.1.rcvPkt.tag a.toNat).count.toNat
  else 0

/-- All counts of a history. -/
def reportSum (a : BitVec 7) (l : List (StuSetting × SlotEntry)) : ℕ := (l.map (reportCount a)).sum

theorem reportSum_cons (p : StuSetting × SlotEntry) (l : List (StuSetting × SlotEntry)) :
    reportSum a (p :: l) = reportCount a p + reportSum a l := by
  rw [reportSum, List.map_cons, List.sum_cons, reportSum]

theorem exists_reportCount_iff {l : List (StuSetting × SlotEntry)} :
    (∃ p ∈ l, 1 ≤ reportCount a p) ↔ reportSum a l ≠ 0 := by
  induction l with
  | nil => simp [reportSum]
  | cons p l ih =>
    rw [reportSum_cons, List.exists_mem_cons_iff, ih]
    omega

theorem ReturnsTo.count3hop (h : ReturnsTo c start s n t) (hstart : start 0 = true) (hquiet : Quiet s)
    (hfree : (s.ram.cell a).busy = 0) (hstays : (t.ram.cell a).busy = 0) :
    (t.ram.cell a).count3hop.toNat
      = ((s.ram.cell a).count3hop.toNat + reportCount a (c, s.ram.cell a)) % 512 := by
  obtain ⟨hlen, -, hcell⟩ := h.merged hstart hquiet
  have hlt := (s.ram.cell a).count3hop.isLt
  rw [hcell, mergedTable_apply hlen] at hstays ⊢
  by_cases hin : a.toNat < (fiFrameLen c.rcvPkt).toNat
  · rw [if_pos hin] at hstays ⊢
    cases hlock : (s.ram.cell a).locker with
    | true =>
      have hskip : ∀ p g sender t, judge p g sender t (s.ram.cell a) = s.ram.cell a := by
        intro p g sender t
        simp only [judge, hlock, if_true]
      rw [judgeBoth, hskip, hskip]
      simp only [reportCount, hlock, Bool.true_eq_false, false_and, and_false, if_false]
      omega
    | false =>
      rw [judge_free hlock hfree hstays]
      by_cases hd : Distant c.globalSid (c.rcvPkt.tag a.toNat)
      · rw [addReport_of_distant hd, reportCount, if_pos ⟨hin, hfree, hlock, hd⟩, addCount, BitVec.toNat_add,
          BitVec.toNat_setWidth]
        exact Nat.add_mod_mod ..
      · rw [addReport, if_neg hd, reportCount, if_neg fun hc => hd hc.2.2.2]
        omega
  · rw [if_neg hin, reportCount, if_neg fun hc => hin hc.1]
    omega

/-- **The field is the sum of the reports modulo 512**, as long as the entry is free. -/
theorem History.count3hop {l : List (StuSetting × SlotEntry)} (h : History a s l u) (hquiet : Quiet s) :
    Quiet u ∧ ((u.ram.cell a).busy = 0 →
      (u.ram.cell a).count3hop.toNat = ((s.ram.cell a).count3hop.toNat + reportSum a l) % 512) := by
  induction h with
  | refl =>
    refine ⟨hquiet, fun _ => ?_⟩
    have := (s.ram.cell a).count3hop.isLt
    simp only [reportSum, List.map_nil, List.sum_nil]
    omega
  | pass _ hstart hret hkept ih =>
    obtain ⟨hq, hcount⟩ := ih
    refine ⟨(hret.merged hstart hq).2.1, fun hfree => ?_⟩
    rw [hret.count3hop hstart hq (hkept hfree) hfree, hcount (hkept hfree), reportSum_cons]
    omega
  | meanwhile _ hq hsame hkept ih =>
    refine ⟨hq, fun hfree => ?_⟩
    rw [hsame]
    exact ih.2 (hkept hfree)

end history

/-! ### The result -/

/-- The entry shows that somebody three hops away has the slot: neither the FI builder nor, with `slot_adj_ena`, the
FCB machine counts it as free within three hops. -/
structure ShowsThirdHop (e : SlotEntry) : Prop where
  count3hop : e.count3hop ≠ 0
  fi : ∀ (g : TdmaSetting) (i : FiIn) (f : Fi), i.dout = e → (f.loop1 g i).freeEhsCount = f.freeEhsCount
  fcb : ∀ (g : TdmaSetting) (i : FcbIn) (f : Fcb), g.slotAdjEna = true → i.dout = e →
    (f.rdLoop g i).wrEnS1 = false

theorem showsThirdHop_iff (e : SlotEntry) : ShowsThirdHop e ↔ e.count3hop ≠ 0 := by
  refine ⟨fun h => h.count3hop, fun h => ⟨h, ?_, ?_⟩⟩
  · rintro g i f rfl
    exact if_neg fun hc => h hc.2
  · rintro g i f hadj rfl
    simp only [Fcb.rdLoop, hadj, if_true]
    split
    · exact decide_eq_false h
    · rfl

/-- **Three-hop freedom**: for every sequence of packets that the updater works through from a clearing of the
counters on, if the entry is still free and one of them reported the slot as taken two hops away while the entry was
free and unlocked, then the entry shows it, if and only if the reported counts do not add up to a positive multiple
of 512. -/
theorem third_hop_seen_iff (a : BitVec 7) (s u : Bench) (l : List (StuSetting × SlotEntry)) (hquiet : Quiet s)
    (hclear : (s.ram.cell a).count3hop = 0) (h : History a s l u) (hfree : (u.ram.cell a).busy = 0) :
    ((∃ p ∈ l, 1 ≤ reportCount a p) → ShowsThirdHop (u.ram.cell a)) ↔
      (512 ∣ reportSum a l → reportSum a l = 0) := by
  have hcount := (h.count3hop hquiet).2 hfree
  rw [hclear] at hcount
  have hshows : ShowsThirdHop (u.ram.cell a) ↔ ¬ 512 ∣ reportSum a l := by
    rw [showsThirdHop_iff, ne_eq, ← BitVec.toNat_inj, hcount, Nat.dvd_iff_mod_eq_zero]
    simp
  rw [hshows, exists_reportCount_iff]
  tauto

/-- Node 5 receives an FI of one slot from node 7, which reports slot 0 as taken by node 9 and counts 2. -/
def distantPacket : StuSetting where
  globalSid := 5
  currFrameLen := 16
  rcvPkt k := if k = rxTypeAddr then 7 * 2 ^ 4 + (1 + 9 * 2 ^ 2 + 2 * 2 ^ 10) * 2 ^ 12 else 0
  rcvpktAddrbIrq := rxTypeAddr

/-- The entry after reports of `k`. -/
def countedEntry (k : BitVec 9) : SlotEntry := { count3hop := k }

theorem exists_pass_distantPacket {s : Bench} (hquiet : Quiet s) {k : BitVec 9}
    (hcell : s.ram.cell = fun b => if b = 0 then countedEntry k else {}) :
    ∃ n t, ReturnsTo distantPacket pulse s n t ∧ t.Quiet ∧
      t.ram.cell = fun b => if b = 0 then countedEntry (k + 2) else {} := by
  have hlen : (fiFrameLen distantPacket.rcvPkt).toNat = 1 := by decide +kernel
  have hstall : ∀ b < (fiFrameLen distantPacket.rcvPkt).toNat,
      ¬ Stalls distantPacket (s.ram.cell (BitVec.ofNat 7 b)) (distantPacket.rcvPkt.tag b) := by
    rintro b - ⟨-, hown, -⟩
    have hzero : (s.ram.cell (BitVec.ofNat 7 b)).occupierSid = 0 := by
      rw [hcell]
      simp only
      split <;> rfl
    exact absurd (hzero.symm.trans hown) (by decide)
  obtain ⟨n, t, hret, hq, hend⟩ := @returnsTo_of_until distantPacket s pulse _ rfl
    (hquiet.until_stuEnd (by omega) hstall)
  refine ⟨n, t, hret, hq, hend.trans (funext fun b => ?_)⟩
  have hjudge : ∀ k : BitVec 9, judgeBoth distantPacket.globalSid distantPacket.rcvPkt.senderSid
      (distantPacket.rcvPkt.tag 0) (countedEntry k) = countedEntry (k + 2) := by decide +kernel
  rw [mergedTable_apply (by omega), hlen, hcell]
  by_cases hb : b = 0
  · subst hb
    exact hjudge k
  · have hnat : ¬ b.toNat < 1 := fun h => hb (BitVec.eq_of_toNat_eq (Nat.lt_one_iff.mp h))
    simp only [if_neg hnat, if_neg hb]

/-- Node 5 before the first report. -/
def unheardBench : Bench where
  unit := {}
  ram := ⟨fun _ => {}, {}, {}⟩

theorem exists_history_distantPacket (k : ℕ) :
    ∃ l u, History 0 unheardBench l u ∧ u.Quiet ∧ reportSum 0 l = 2 * k ∧
      u.ram.cell = fun b => if b = 0 then countedEntry (BitVec.ofNat 9 (2 * k)) else {} := by
  induction k with
  | zero =>
    refine ⟨[], unheardBench, .refl, quiet_reset _, rfl, funext fun b => ?_⟩
    split <;> rfl
  | succ k ih =>
    obtain ⟨l, t, h, hquiet, hsum, hcell⟩ := ih
    obtain ⟨n, u, hret, hq, hend⟩ := exists_pass_distantPacket hquiet hcell
    have hentry : t.ram.cell 0 = countedEntry (BitVec.ofNat 9 (2 * k)) := congrFun hcell 0
    refine ⟨_, u, h.pass rfl hret fun _ => by rw [hentry]; rfl, hq, ?_, ?_⟩
    · have hreport : ∀ j : BitVec 9, reportCount 0 (distantPacket, countedEntry j) = 2 := by decide +kernel
      rw [reportSum_cons, hsum, hentry, hreport]
      omega
    · rw [hend, Nat.mul_succ, BitVec.ofNat_add]
      rfl

/-- After one report the slot does not count as free within three hops. -/
theorem third_hop_seen_once :
    ∃ l u, History 0 unheardBench l u ∧ (∃ p ∈ l, 1 ≤ reportCount 0 p) ∧ ShowsThirdHop (u.ram.cell 0) := by
  obtain ⟨l, u, h, -, hsum, hcell⟩ := exists_history_distantPacket 1
  have hreport : ∃ p ∈ l, 1 ≤ reportCount 0 p := exists_reportCount_iff.mpr (by omega)
  refine ⟨l, u, h, hreport, ?_⟩
  exact (third_hop_seen_iff 0 unheardBench u l (quiet_reset _) rfl h (by rw [hcell]; rfl)).mpr (by omega) hreport

/-- After 256 of them it does. -/
theorem third_hop_forgotten :
    ¬ ∀ (a : BitVec 7) (s u : Bench) (l : List (StuSetting × SlotEntry)), Quiet s →
      (s.ram.cell a).count3hop = 0 → History a s l u → (u.ram.cell a).busy = 0 →
      (∃ p ∈ l, 1 ≤ reportCount a p) → ShowsThirdHop (u.ram.cell a) := by
  intro hall
  obtain ⟨l, u, h, -, hsum, hcell⟩ := exists_history_distantPacket 256
  have hshows := hall 0 unheardBench u l (quiet_reset _) rfl h (by rw [hcell]; rfl)
    (exists_reportCount_iff.mpr (by omega))
  refine hshows.count3hop ?_
  rw [hcell]
  rfl

end Bench

end VanetTdma.Fpga
