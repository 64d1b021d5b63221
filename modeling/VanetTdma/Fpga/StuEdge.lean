import VanetTdma.Fpga.Stu

/-!
# An edge of the updater at a slot

The updater looks at one entry of the slot table at a time: it reads the tag of the slot, takes the entry over, judges it,
and writes the word of the judgement in the `_CLR` state.

* `Verdict` — what the judgements of a slot write;
* `Stu.Judgement` — when they are made;
* `Stu.Edge` — what an edge does with the entry of the present slot, and `Stu.edge`, that each edge is one of these;
* `Edge.word`, `Edge.judgement` — where the word in hand comes from, and the word that is written.
-/

namespace VanetTdma.Fpga

/-! ### The words of the judgements -/

/-- **What a judgement writes**: the slot stays with its holder, as it is or marked anew, goes to the node of the tag, or is
given up by its holder. -/
inductive Verdict (sender : BitVec 8) (t : FiTag) (dout din : SlotEntry) : SlotEntry → Prop
  | keeps {e : SlotEntry} (hsid : e.occupierSid = din.occupierSid) (hbusy : e.busy = din.busy)
      (hlife : e.life = din.life ∨ e.life = occupierLifeFrame) : Verdict sender t dout din e
  | marks {e : SlotEntry} (hsid : e.occupierSid = din.occupierSid) (hbusy : e.busy = 2 ∨ e.busy = 3) :
      Verdict sender t dout din e
  | hands {e : SlotEntry} (hsid : e.occupierSid = t.occupierSid) (hbusy : e.busy = 1 ∨ e.busy = 2)
      (hlife : e.life = occupierLifeFrame) : Verdict sender t dout din e
  | frees (hzero : t.occupierSid = 0) (hsender : sender = dout.occupierSid) : Verdict sender t dout din (released din)

section Verdict

variable {sender : BitVec 8} {t : FiTag} {dout din e : SlotEntry}

theorem fiLoop2Other_verdict (he : fiLoop2Other sender t dout din = some e) : Verdict sender t dout din e := by
  unfold fiLoop2Other at he
  split at he
  · split at he
    · simp only at he
      split at he <;> cases he
      · exact .hands rfl (Or.inr rfl) rfl
      · exact .hands rfl (Or.inl rfl) rfl
    split at he <;> cases he
    exact .marks rfl (Or.inr rfl)
  split at he
  · cases he
    exact .keeps rfl rfl (Or.inl rfl)
  split at he <;> cases he
  · exact .marks rfl (Or.inr rfl)
  · exact .hands rfl (Or.inl rfl) rfl

theorem fiLoop2Own_verdict (he : fiLoop2Own t din = some e) : Verdict sender t dout din e := by
  unfold fiLoop2Own at he
  split at he <;> cases he
  exact .marks rfl (Or.inr rfl)

theorem fiLoop4OneHop_verdict (he : fiLoop4OneHop sender t dout din = some e) : Verdict sender t dout din e := by
  unfold fiLoop4OneHop at he
  split at he
  · repeat' split at he
    all_goals cases he <;> first
      | exact .keeps rfl rfl (Or.inl rfl)
      | exact .marks rfl (Or.inr rfl)
      | exact .hands rfl (Or.inl rfl) rfl
      | exact .hands rfl (Or.inr rfl) rfl
  rename_i hdiff
  split at he
  · repeat' split at he
    all_goals cases he <;> first
      | exact .keeps rfl rfl (Or.inl rfl)
      | exact .keeps rfl rfl (Or.inr rfl)
  rename_i hne
  split at he <;> cases he
  rename_i hsender
  refine .frees ?_ hsender
  by_contra hzero
  exact hdiff ⟨hne, hzero⟩

theorem fiLoop4TwoHop_verdict (he : fiLoop4TwoHop sender t dout din = some e) : Verdict sender t dout din e := by
  unfold fiLoop4TwoHop at he
  split at he
  · split at he
    · cases he
      exact .keeps rfl rfl (Or.inl rfl)
    split at he <;> cases he
    exact .hands rfl (Or.inl rfl) rfl
  rename_i hdiff
  split at he
  · split at he <;> cases he
    split <;> split
    · exact .marks rfl (Or.inl rfl)
    · exact .marks rfl (Or.inl rfl)
    · exact .keeps rfl rfl (Or.inr rfl)
    · exact .keeps rfl rfl (Or.inr rfl)
  rename_i hne
  split at he <;> cases he
  rename_i hsender
  refine .frees ?_ hsender
  by_contra hzero
  exact hdiff ⟨hne, hzero⟩

theorem fiLoop4Free_verdict (he : fiLoop4Free sender t dout din = some e) : Verdict sender t dout din e := by
  unfold fiLoop4Free at he
  split at he
  · split at he
    · cases he
      refine .hands rfl ?_ rfl
      by_cases hsender : t.occupierSid = sender
      · exact Or.inr (if_pos hsender)
      · exact Or.inl (if_neg hsender)
    split at he
    · cases he
      exact .keeps rfl rfl (Or.inl rfl)
    split at he <;> cases he
    exact .hands rfl (Or.inl rfl) rfl
  · cases he

/-- **The second pass.** -/
theorem fiLoop4Din_verdict (he : fiLoop4Din sender t dout din = some e) : Verdict sender t dout din e := by
  unfold fiLoop4Din at he
  split at he
  · exact fiLoop4OneHop_verdict he
  split at he
  · exact fiLoop4TwoHop_verdict he
  split at he
  · exact fiLoop4Free_verdict he
  · cases he

end Verdict

/-! ### An edge -/

/-- The states in which port A shows the entry of the present slot. -/
def StuState.reading : StuState → Bool
  | fiLoop _ | fiLoopSetaddrPre _ | fiLoopSetaddr _ | fiJudge _ | fiInbWait => true
  | _ => false

namespace Stu

/-- The updater writes in the `_CLR` states only. -/
def WritesInClr (u : Stu) : Prop := u.we = true → ∃ p, u.state = .fiClr p

/-- The updater takes the word of an entry over. -/
def Latches (u : Stu) : Prop :=
  (u.state = .fiLoop .first ∨ u.state = .fiLoop .second) ∧ u.addr.toNat ≠ u.fiFrameLen.toNat
    ∧ u.fiPerSlotIndex.toNat = fiPerSlotBitsnum

instance (u : Stu) : Decidable u.Latches := inferInstanceAs (Decidable (_ ∧ _))

/-- The updater has a word in hand. -/
def Judges (u : Stu) : Prop :=
  u.state = .fiJudge .first ∨ u.state = .fiJudge .second ∨ u.state = .fiInbWait

/-- What a judgement asks to be written. -/
inductive Judgement (i : StuIn) (u : Stu) : Pass → Option SlotEntry → Prop
  | other : u.state = .fiJudge .first → i.dout.occupierSid = i.globalSid →
      u.fiPerSlot.occupierSid ≠ i.globalSid →
      Judgement i u .first (fiLoop2Other u.senderSid u.fiPerSlot i.dout u.din)
  | own : u.state = .fiJudge .first → i.dout.occupierSid = i.globalSid →
      Judgement i u .first (fiLoop2Own u.fiPerSlot u.din)
  | neighbour : u.state = .fiInbWait →
      Judgement i u .first (if i.inbNotNewneighborFlag then some { u.din with busy := 3 } else none)
  | second : u.state = .fiJudge .second → u.fiPerSlot.occupierSid ≠ i.globalSid →
      Judgement i u .second (fiLoop4Din u.senderSid u.fiPerSlot i.dout u.din)

/-- **What an edge does with the entry of the present slot.** -/
inductive Edge (i : StuIn) (u v : Stu) : Prop
  /-- There is no such entry afterwards. -/
  | leaves (hst : v.state.reading = false) (hclr : ∀ p, v.state ≠ .fiClr p) (hwe : v.we = false)
  /-- The tag of the slot is read. -/
  | scans (hst : v.state.reading = true) (hj : ¬ v.Judges) (hidle : u.state ≠ .idle)
      (hclr : ∀ p, u.state ≠ .fiClr p) (hwe : v.we = false) (haddr : v.addr = u.addr)
  /-- The entry is taken over. -/
  | takes (p : Pass) (hst : u.state = .fiLoop p) (hlatch : u.Latches)
      (hst' : v.state = if i.dout.locker then .fiClr p else .fiJudge p) (hwe : v.we = false) (hdin : v.din = i.dout)
      (haddr : v.addr = u.addr)
  /-- The judgement of a slot of this node waits for the answer of the INB machine, or is caught. -/
  | waits (hst : u.state = .fiInbWait ∧ v.state = .fiInbWait
        ∨ (u.state = .fiJudge .first ∧ i.dout.occupierSid = i.globalSid)
          ∧ (v.state = .fiInbWait ∨ v.state = .fiJudge .first))
      (hwe : v.we = false) (hdin : v.din = u.din) (haddr : v.addr = u.addr)
  /-- The slot is judged. -/
  | judges (p : Pass) (o : Option SlotEntry) (ho : u.Judgement i p o) (hst : v.state = .fiClr p)
      (hwe : v.we = o.isSome) (hdin : v.din = o.getD u.din) (haddr : v.addr = u.addr)

section Edge

variable {i : StuIn} {u v : Stu} {p : Pass} {o : Option SlotEntry}

theorem WritesInClr.we_false (h : u.WritesInClr) {st : StuState} (hst : u.state = st)
    (hne : ∀ p, st ≠ .fiClr p) : u.we = false := by
  rw [← Bool.not_eq_true]
  intro hc
  obtain ⟨p, hp⟩ := h hc
  exact hne p (hst.symm.trans hp)

theorem judged_addr (p : Pass) (o : Option SlotEntry) :
    (u.judged p o).addr = u.addr ∧ (u.judged p o).state = .fiClr p := by
  cases o <;> exact ⟨rfl, rfl⟩

theorem edge_judged (ho : u.Judgement i p o) (hwe : v.we = false) (hdin : v.din = u.din) (haddr : v.addr = u.addr) :
    Edge i u (v.judged p o) := by
  cases o with
  | none => exact .judges p none ho rfl hwe hdin haddr
  | some e => exact .judges p (some e) ho rfl rfl rfl haddr

theorem edge_nextSlot : Edge i u (u.nextSlot p) := .leaves rfl (fun _ => nofun) rfl

theorem edge_of_scan {st : StuState} (hold : u.state = st) (hidle : st ≠ .idle) (hclr : ∀ p, st ≠ .fiClr p)
    (hst : v.state = .fiLoop p ∨ v.state = .fiLoopSetaddrPre p ∨ v.state = .fiLoopSetaddr p) (hwe : v.we = false)
    (haddr : v.addr = u.addr) : Edge i u v := by
  refine .scans ?_ ?_ (hold ▸ hidle) (fun p hc => hclr p (hold.symm.trans hc)) hwe haddr
  · rcases hst with hst | hst | hst <;> (rw [hst]; rfl)
  · unfold Judges
    rcases hst with hst | hst | hst <;> (rw [hst]; rintro (hc | hc | hc) <;> cases hc)

theorem edge_fiLoop (hst : u.state = .fiLoop p) : Edge i u (u.fiLoop p i) := by
  unfold fiLoop
  simp only
  split
  · cases p <;> exact .leaves rfl (fun _ => nofun) rfl
  rename_i hne
  split
  · rename_i hfull
    refine .takes p hst ⟨?_, hne, hfull⟩ rfl rfl rfl rfl
    cases p
    · exact Or.inl hst
    · exact Or.inr hst
  split
  · exact edge_of_scan hst StuState.noConfusion (fun _ => nofun) (Or.inr (Or.inl rfl)) rfl rfl
  · exact edge_of_scan hst StuState.noConfusion (fun _ => nofun) (Or.inl hst) rfl rfl

theorem edge_fiJudge (hst : u.state = .fiJudge p) (hwe : u.we = false) : Edge i u (u.fiJudge p i) := by
  cases p with
  | first =>
    simp only [fiJudge, fiLoop2]
    split
    · exact edge_nextSlot
    rename_i hown
    rw [not_not] at hown
    split
    · rename_i hother
      exact edge_judged (.other hst hown hother.1) hwe rfl rfl
    split
    · exact edge_judged (.own hst hown) hwe rfl rfl
    split
    · exact .waits (Or.inr ⟨⟨hst, hown⟩, Or.inl rfl⟩) hwe rfl rfl
    · exact .waits (Or.inr ⟨⟨hst, hown⟩, Or.inr hst⟩) hwe rfl rfl
  | second =>
    simp only [fiJudge, fiLoop4]
    split
    · exact edge_nextSlot
    · rename_i hno
      exact edge_judged (.second hst fun hc => hno (Or.inr hc)) hwe rfl rfl

theorem edge_fiInbWait (hst : u.state = .fiInbWait) (hwe : u.we = false) : Edge i u (u.fiInbWait i) := by
  unfold fiInbWait
  simp only
  split
  · exact edge_judged (.neighbour hst) hwe rfl rfl
  · exact .waits (Or.inl ⟨hst, hst⟩) hwe rfl rfl

/-- **An edge of the updater.** -/
theorem edge (h : u.WritesInClr) : Edge i u (u.tick i) := by
  unfold tick
  split
  case h_1 hst =>
    have hwe := h.we_false hst fun _ => nofun
    split
    · exact .leaves rfl (fun _ => nofun) hwe
    · refine .leaves ?_ ?_ hwe <;> rw [hst]
      · rfl
      · exact fun _ => nofun
  case h_5 p hst => exact edge_fiLoop hst
  case h_8 p hst => exact edge_fiJudge hst (h.we_false hst fun _ => nofun)
  case h_9 p hst => exact edge_nextSlot
  case h_10 hst => exact edge_fiInbWait hst (h.we_false hst fun _ => nofun)
  all_goals
    rename_i hst
    have hwe := h.we_false hst fun _ => nofun
    first
    | exact .leaves rfl (fun _ => nofun) hwe
    | exact edge_of_scan hst StuState.noConfusion (fun _ => nofun) (Or.inl rfl) hwe rfl
    | exact edge_of_scan hst StuState.noConfusion (fun _ => nofun) (Or.inr (Or.inr rfl)) hwe rfl

theorem Judgement.judges (h : u.Judgement i p o) : u.Judges := by
  cases h with
  | other hst _ _ | own hst _ => exact Or.inl hst
  | neighbour hst => exact Or.inr (Or.inr hst)
  | second hst _ => exact Or.inr (Or.inl hst)

theorem Judgement.verdict {e : SlotEntry} (h : u.Judgement i p o) (ho : o = some e) :
    Verdict u.senderSid u.fiPerSlot i.dout u.din e := by
  cases h with
  | other => exact fiLoop2Other_verdict ho
  | own => exact fiLoop2Own_verdict ho
  | neighbour =>
    split at ho <;> cases ho
    exact .marks rfl (Or.inr rfl)
  | second => exact fiLoop4Din_verdict ho

theorem Edge.writesInClr (h : Edge i u v) : v.WritesInClr := by
  intro hup
  cases h with
  | judges p o ho hst hwe hdin haddr => exact ⟨p, hst⟩
  | leaves _ _ hwe | scans _ _ _ _ hwe _ | takes _ _ _ _ hwe _ _ | waits _ hwe _ _ =>
    exact absurd (hwe.symm.trans hup) Bool.false_ne_true

/-- **A word that is written** is that of the judgement. -/
theorem Edge.judgement (h : Edge i u v) (hup : v.we = true) :
    v.addr = u.addr ∧ ∃ p, u.Judgement i p (some v.din) := by
  cases h with
  | judges p o ho hst hwe hdin haddr =>
    obtain ⟨e, rfl⟩ : ∃ e, o = some e := Option.isSome_iff_exists.mp (hwe.symm.trans hup)
    refine ⟨haddr, p, ?_⟩
    rw [hdin]
    exact ho
  | leaves _ _ hwe | scans _ _ _ _ hwe _ | takes _ _ _ _ hwe _ _ | waits _ hwe _ _ =>
    exact absurd (hwe.symm.trans hup) Bool.false_ne_true

/-- **The word in hand** is the entry, or was in hand before. -/
theorem Edge.word (h : Edge i u v) (hj : v.Judges) :
    v.addr = u.addr ∧ (((∃ p, u.state = .fiLoop p) ∧ u.Latches) ∧ v.din = i.dout ∨ u.Judges ∧ v.din = u.din) := by
  cases h with
  | leaves hst hclr hwe => rcases hj with hj | hj | hj <;> (rw [hj] at hst; cases hst)
  | scans hst hno hidle hclr hwe haddr => exact absurd hj hno
  | takes p hst hlatch hst' hwe hdin haddr => exact ⟨haddr, Or.inl ⟨⟨⟨p, hst⟩, hlatch⟩, hdin⟩⟩
  | waits hst hwe hdin haddr =>
    refine ⟨haddr, Or.inr ⟨?_, hdin⟩⟩
    rcases hst with ⟨hst, -⟩ | ⟨⟨hst, -⟩, -⟩
    · exact Or.inr (Or.inr hst)
    · exact Or.inl hst
  | judges p o ho hst hwe hdin haddr => rcases hj with hj | hj | hj <;> cases hst.symm.trans hj

/-- What leads to a state in which the entry is shown. -/
structure Stays (u v : Stu) : Prop where
  addr : v.addr = u.addr
  busy : u.state ≠ .idle
  clr : ∀ p, u.state ≠ .fiClr p

theorem stays_of_state {st : StuState} (hst : u.state = st) (hidle : st ≠ .idle) (hclr : ∀ p, st ≠ .fiClr p)
    (haddr : v.addr = u.addr) : Stays u v :=
  ⟨haddr, hst ▸ hidle, hst ▸ hclr⟩

theorem Edge.stays (h : Edge i u v) (hr : v.state.reading = true) : Stays u v := by
  cases h with
  | leaves hst hclr hwe => exact absurd (hst.symm.trans hr) Bool.false_ne_true
  | scans hst hj hidle hclr hwe haddr => exact ⟨haddr, hidle, hclr⟩
  | takes p hst hlatch hst' hwe hdin haddr =>
    exact stays_of_state hst StuState.noConfusion (fun _ => nofun) haddr
  | waits hst hwe hdin haddr =>
    rcases hst with ⟨hst, -⟩ | ⟨⟨hst, -⟩, -⟩ <;>
      exact stays_of_state hst StuState.noConfusion (fun _ => nofun) haddr
  | judges p o ho hst hwe hdin haddr =>
    rw [hst] at hr
    cases hr

end Edge

end Stu

end VanetTdma.Fpga
