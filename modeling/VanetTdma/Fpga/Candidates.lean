import VanetTdma.Fpga.PortB

/-!
# What the search has in hand

The FCB search passes slots from the scan through its FIFOs to the candidate.  `Queued` collects the slots that are
in the FIFOs or written to them, `InHand` the candidate with them; `queued_tick` and `inHand_tick` say what an edge
can add: the slot that the scan finds eligible, or the mark `0xffff` of a new search.
-/

namespace VanetTdma.Fpga

open VanetTdma.Clocked

theorem Fifo.mem_tick {srst wrEn rdEn : Bool} {din q : BitVec 16} {l : Fifo}
    (h : q ∈ l.tick srst wrEn rdEn din) : q ∈ l ∨ wrEn = true ∧ q = din := by
  unfold Fifo.tick at h
  split at h
  · exact absurd h List.not_mem_nil
  rcases List.mem_append.mp h with hold | hnew
  · left
    split at hold
    · exact List.mem_of_mem_tail hold
    · exact hold
  · right
    split at hnew
    · rename_i hwr
      exact ⟨hwr.1, List.mem_singleton.mp hnew⟩
    · exact absurd hnew List.not_mem_nil

namespace Fcb

def Writing (f : Fcb) : Prop := f.wrEnS1 = true ∨ f.wrEnS2 = true ∨ f.wrEnHalf = true

instance (f : Fcb) : Decidable f.Writing := inferInstanceAs (Decidable (_ ∨ _))

def Picks (g : TdmaSetting) (i : FcbIn) (f : Fcb) : Prop :=
  f.state = .rdLoop ∧ f.addr.toNat ≠ i.currFrameLen.toNat ∧ Eligible g i.fcbStrict i.dout

/-- The choice does not read an empty FIFO. -/
def ReadsFull (g : TdmaSetting) (i : FcbIn) (f : Fcb) : Prop :=
  f.state = .selRanWait2 → g.slotAdjEna = true → (lenTable i.currFrameLen).thresSlotAdj ≠ 0 ∨ i.s1 ≠ []

section Step

variable {g : TdmaSetting} {i : FcbIn} {f : Fcb}

theorem noWrite_not_writing (f : Fcb) : ¬ f.noWrite.Writing := by
  rintro (h | h | h) <;> exact nomatch h

theorem rdLoop_writing (hst : f.state = .rdLoop) (hne : f.addr.toNat ≠ i.currFrameLen.toNat)
    (hold : ¬ f.Writing) (h : (f.rdLoop g i).Writing) :
    f.Picks g i ∧ (f.rdLoop g i).dwrite = f.addr.setWidth 16 := by
  revert h
  unfold rdLoop
  simp only
  split
  · split
    · rename_i helig
      exact fun _ => ⟨⟨hst, hne, helig⟩, rfl⟩
    · exact fun h => absurd h (noWrite_not_writing _)
  · split
    · rename_i helig
      exact fun _ => ⟨⟨hst, hne, helig⟩, rfl⟩
    · intro h
      refine absurd ?_ hold
      rcases h with h | h | h
      · exact nomatch h
      · exact Or.inr (Or.inl h)
      · exact Or.inr (Or.inr h)

/-- The FIFOs are written in `FCB_CLR_C3H` only. -/
def WritesInTime (f : Fcb) : Prop := f.Writing → f.state = .clrC3h

theorem WritesInTime.not_writing (h : f.WritesInTime) {st : FcbState} (hst : f.state = st)
    (hne : st ≠ .clrC3h) : ¬ f.Writing :=
  fun hw => hne (hst.symm.trans (h hw))

theorem Chooses.not_writing {v : Fcb} (h : Chooses f v) (hold : ¬ f.Writing) : ¬ v.Writing := by
  rintro (hc | hc | hc)
  · exact hold (Or.inl (h.wrEnS1.symm.trans hc))
  · exact hold (Or.inr (Or.inl (h.wrEnS2.symm.trans hc)))
  · exact hold (Or.inr (Or.inr (h.wrEnHalf.symm.trans hc)))

/-- **What goes to the FIFOs** is the slot that the scan has picked. -/
theorem of_tick_writing (hold : f.WritesInTime) (h : (f.tick g i).Writing) :
    f.Picks g i ∧ (f.tick g i).dwrite = f.addr.setWidth 16 ∧ (f.tick g i).state = .clrC3h := by
  revert h
  unfold tick
  split
  case h_1 hst =>
    have hno := hold.not_writing hst nofun
    split <;> exact fun h => absurd h hno
  case h_3 hst =>
    have hno := hold.not_writing hst nofun
    split
    · exact fun h => absurd h (noWrite_not_writing f)
    · rename_i hne
      intro h
      obtain ⟨hpicks, hdwrite⟩ := rdLoop_writing hst hne hno h
      exact ⟨hpicks, hdwrite, rdLoop_keeps.2⟩
  case h_4 hst =>
    simp only
    split <;> exact fun h => absurd h (noWrite_not_writing f)
  case h_7 hst =>
    have hno := hold.not_writing hst nofun
    exact fun h => absurd h (selRanStart_chooses.1.not_writing hno)
  case h_8 hst =>
    have hno := hold.not_writing hst nofun
    simp only
    split <;> exact fun h => absurd h hno
  case h_9 hst =>
    have hno := hold.not_writing hst nofun
    exact fun h => absurd h (selRanWait2_chooses.1.not_writing hno)
  all_goals
    rename_i hst
    exact fun h => absurd h (hold.not_writing hst nofun)

theorem WritesInTime.tick (h : f.WritesInTime) : (f.tick g i).WritesInTime :=
  fun hw => (of_tick_writing h hw).2.2

/-! ### The candidate -/

theorem dread_mem {q : Fifo} (h : q ≠ []) : i.dread q ∈ q := by
  cases q with
  | nil => exact absurd rfl h
  | cons a q => exact List.mem_cons_self

theorem advance_candidate : f.advance.candidate = f.candidate := by
  unfold advance
  split <;> rfl

theorem pick_candidate (count : ℕ) : (f.pick count).candidate = f.candidate := by
  unfold pick
  split <;> rfl

theorem selRanStart_candidate : (f.selRanStart g i).candidate = f.candidate := by
  unfold selRanStart
  split
  · exact pick_candidate _
  split
  · split
    · exact pick_candidate _
    split
    · exact pick_candidate _
    · rfl
  split
  · exact pick_candidate _
  · rfl

theorem ReadsFull.s1_ne_nil (h : f.ReadsFull g i) (hst : f.state = .selRanWait2) (hena : g.slotAdjEna = true)
    (hlen : i.s1.length ≥ (lenTable i.currFrameLen).thresSlotAdj.toNat) : i.s1 ≠ [] := by
  rcases h hst hena with hthres | hne
  · intro hnil
    rw [hnil] at hlen
    exact hthres (BitVec.eq_of_toNat_eq (Nat.le_zero.mp hlen))
  · exact hne

theorem selRanWait2_candidate (hst : f.state = .selRanWait2) (hread : f.ReadsFull g i) :
    (f.selRanWait2 g i).candidate = f.candidate ∨ (f.selRanWait2 g i).candidate ∈ i.s1
      ∨ (f.selRanWait2 g i).candidate ∈ i.s2 ∨ (f.selRanWait2 g i).candidate ∈ i.half := by
  unfold selRanWait2
  split
  · rename_i hhalf
    rw [advance_candidate]
    exact Or.inr (Or.inr (Or.inr (dread_mem hhalf.2)))
  split
  · rename_i hena
    split
    · rename_i hlen
      rw [advance_candidate]
      exact Or.inr (Or.inl (dread_mem (hread.s1_ne_nil hst hena hlen)))
    split
    · rename_i hlen
      have hne : i.s2 ≠ [] := fun hnil => hlen (by rw [hnil]; rfl)
      split <;> (rw [advance_candidate]; exact Or.inr (Or.inr (Or.inl (dread_mem hne))))
    · exact Or.inl rfl
  split
  · rename_i hs1
    exact Or.inr (Or.inl (dread_mem hs1.1))
  · exact Or.inl rfl

theorem rdLoop_candidate : (f.rdLoop g i).candidate = f.candidate := by
  unfold rdLoop
  simp only
  split
  · split <;> rfl
  · split <;> rfl

/-- **The candidate** after an edge. -/
theorem tick_candidate (hread : f.ReadsFull g i) :
    (f.tick g i).candidate = f.candidate ∨ (f.tick g i).candidate = 0xffff
      ∨ (f.tick g i).candidate ∈ i.s1 ∨ (f.tick g i).candidate ∈ i.s2 ∨ (f.tick g i).candidate ∈ i.half := by
  unfold tick
  split
  case h_1 =>
    split
    · exact Or.inr (Or.inl rfl)
    · exact Or.inl rfl
  case h_3 =>
    split
    · exact Or.inl rfl
    · exact Or.inl rdLoop_candidate
  case h_4 =>
    simp only
    split <;> exact Or.inl rfl
  case h_7 => exact Or.inl selRanStart_candidate
  case h_8 =>
    simp only
    split <;> exact Or.inl rfl
  case h_9 hst => exact (selRanWait2_candidate hst hread).imp_right Or.inr
  all_goals exact Or.inl rfl

end Step

end Fcb

namespace System

/-- A slot on its way from the scan through the FIFOs. -/
def Queued (s : System) (q : BitVec 16) : Prop :=
  q ∈ s.s1 ∨ q ∈ s.s2 ∨ q ∈ s.half ∨ s.fcb.Writing ∧ q = s.fcb.dwrite

/-- A slot on its way from the scan to the BCH machine. -/
def InHand (s : System) (q : BitVec 16) : Prop :=
  q ∈ s.s1 ∨ q ∈ s.s2 ∨ q ∈ s.half ∨ s.fcb.Writing ∧ q = s.fcb.dwrite ∨ q = s.fcb.candidate

instance (s : System) (q : BitVec 16) : Decidable (s.InHand q) :=
  inferInstanceAs (Decidable (_ ∨ _))

section Step

variable {g : TdmaSetting} {s : System} {i : Cycle} {q : BitVec 16}

theorem inHand_iff : s.InHand q ↔ s.Queued q ∨ q = s.fcb.candidate := by
  simp only [InHand, Queued, or_assoc]

/-- **What an edge adds to the FIFOs.** -/
theorem queued_tick (hw : s.fcb.WritesInTime) (h : (s.tick g i).Queued q) :
    s.Queued q ∨ s.fcb.Picks g (s.fcbIn i) ∧ q = s.fcb.addr.setWidth 16 := by
  rcases h with h | h | h | ⟨hwr, rfl⟩
  · rcases Fifo.mem_tick h with hold | ⟨hen, rfl⟩
    · exact Or.inl (Or.inl hold)
    · exact Or.inl (Or.inr (Or.inr (Or.inr ⟨Or.inl hen, rfl⟩)))
  · rcases Fifo.mem_tick h with hold | ⟨hen, rfl⟩
    · exact Or.inl (Or.inr (Or.inl hold))
    · exact Or.inl (Or.inr (Or.inr (Or.inr ⟨Or.inr (Or.inl hen), rfl⟩)))
  · rcases Fifo.mem_tick h with hold | ⟨hen, rfl⟩
    · exact Or.inl (Or.inr (Or.inr (Or.inl hold)))
    · exact Or.inl (Or.inr (Or.inr (Or.inr ⟨Or.inr (Or.inr hen), rfl⟩)))
  · obtain ⟨hpicks, hdwrite, -⟩ := Fcb.of_tick_writing hw hwr
    exact Or.inr ⟨hpicks, hdwrite⟩

/-- **What an edge adds.** -/
theorem inHand_tick (hw : s.fcb.WritesInTime) (hread : s.fcb.ReadsFull g (s.fcbIn i))
    (h : (s.tick g i).InHand q) :
    s.InHand q ∨ q = 0xffff ∨ s.fcb.Picks g (s.fcbIn i) ∧ q = s.fcb.addr.setWidth 16 := by
  rw [inHand_iff] at h ⊢
  rcases h with h | rfl
  · rcases queued_tick hw h with hold | hpicks
    · exact Or.inl (Or.inl hold)
    · exact Or.inr (Or.inr hpicks)
  · rcases Fcb.tick_candidate hread with hc | hc | hc | hc | hc
    · exact Or.inl (Or.inr hc)
    · exact Or.inr (Or.inl hc)
    · exact Or.inl (Or.inl (Or.inl hc))
    · exact Or.inl (Or.inl (Or.inr (Or.inl hc)))
    · exact Or.inl (Or.inl (Or.inr (Or.inr (Or.inl hc))))

end Step

theorem writesInTime_reset (len : BitVec 10) : (reset len).fcb.WritesInTime := by
  rintro (h | h | h) <;> exact nomatch h

theorem writesInTime_trace (g : TdmaSetting) (inp : ℕ → Cycle) (len : BitVec 10) (n : ℕ) :
    (run g inp len n).fcb.WritesInTime := by
  induction n with
  | zero => exact writesInTime_reset len
  | succ n ih => exact ih.tick

end System

end VanetTdma.Fpga
