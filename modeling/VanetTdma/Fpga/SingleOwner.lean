import VanetTdma.Fpga.OwnOrFree
import VanetTdma.Fpga.LostSlot
import VanetTdma.Fpga.WorkSlot

/-!
# The entries of this node

The node's sid stands in the entry of its work slot, and for a frame also in that of an adjustment slot.  The other
entries that once carried it were given up: by the BCH machine, which writes the free word over the entry it leaves.
The write has to take place, and nobody may bring back the old word.

* `Bch.Owns` — the entries that may carry the sid, by the state of the BCH machine, and `Bch.owns_tick`, how they change;
* `Orderly` — a cycle in which what is left is given up for good;
* `Owned.tick` — such cycles keep the sid to these entries;
* `own_entry_is_work_slot` — so it is in the entry of the work slot only whenever the machine waits for its slot;
* `adjustment_slot_left_behind` — a node that loses its slot while it waits for the adjustment keeps a second entry.
-/

namespace VanetTdma.Fpga

open VanetTdma.Clocked VanetTdma.DualPort

/-! ### The entries of the BCH machine -/

namespace BchState

/-- The states in which the entry of the work slot may be this node's and is not being given up. -/
def holds : BchState → Bool
  | idle | lisDecideReq | lisWaitNextSlot | lisWaitNextSlot2 | lisWaitNextFrame | lisFcb | fcbFailCount => false
  | waitReqFcbStart | waitReqFcbDone | ifSingleSet1 => false
  | _ => true

def releases : BchState → Bool
  | waitReqFcbStart | ifSingleSet1 | workAdjSetStatus | workAdjSetBch1BchInvalid => true
  | _ => false

/-- The states in which the work slot may be claimed. -/
def claimsWork : BchState → Bool
  | waitReqFiInitStart | waitReqWait | waitReqFiSendStart | waitReqFiSendWait | waitReqFiSendDone => true
  | reqFailCount | waitReqFcbPre | waitReqFcbPreWait | waitReqFcbDone | ifSingleSet2 => true
  | _ => false

/-- The states in which the adjustment slot may be claimed. -/
def claimsAdj : BchState → Bool
  | workFiFcb | ifSingle | ifSingleReset => true
  | _ => false

/-- The states in which an adjustment may be announced. -/
def flagged : BchState → Bool
  | workFiFcb | ifSingle | ifSingleSet1 | ifSingleSet2 | ifSingleReset => true
  | workFiSendFiStart | workFiSendFiWait | workEnaTx | workDisaTx => true
  | _ => false

/-- The states that leave the write enable and the word alone. -/
def keepsWrite : BchState → Bool
  | waitReqFiInitStart | waitReqFiInitWait | waitReqFcbStart | waitReqFcbDone | reqWait => false
  | workFiFcb | ifSingleSet1 | ifSingleSet2 | workFiSendFiStart => false
  | workAdjSetStatus | workAdjSendFiStart | workAdjSetBch1BchInvalid | workAdjSetBch2BchInvalid => false
  | _ => true

section Next

variable {st n : BchState}

theorem of_holds (hnext : n ∈ st.next) (h : st.holds = true) :
    n.listening = false ∧ n ≠ .waitReqFcbDone ∧ n ≠ .ifSingleSet2
      ∧ (n.holds = true ∨ st = .waitReqFcbPreWait ∧ n = .waitReqFcbStart ∨ n = .ifSingleSet1) := by
  have hall : ∀ st : BchState, (st.next.all fun n => !st.holds || (!n.listening && n != .waitReqFcbDone
      && n != .ifSingleSet2 && (n.holds || (st == .waitReqFcbPreWait && n == .waitReqFcbStart)
        || n == .ifSingleSet1))) = true := by
    intro st
    cases st <;> rfl
  simpa [h, and_assoc, or_assoc] using of_next hall hnext

theorem of_adjusting (hnext : n ∈ st.next) (hlive : st.live = true) (h : st.adjusting = true) :
    n.adjusting = true ∨ n = .workAdjSetStatus
      ∨ st = .workAdjDecideAdjBchInvalid ∧ (n = .workAdjSetBch1BchInvalid ∨ n = .colCount) := by
  have hall : ∀ st : BchState, (st.next.all fun n => !st.live || !st.adjusting || (n.adjusting
      || n == .workAdjSetStatus || (st == .workAdjDecideAdjBchInvalid
        && (n == .workAdjSetBch1BchInvalid || n == .colCount)))) = true := by
    intro st
    cases st <;> rfl
  simpa [h, hlive, or_assoc] using of_next hall hnext

theorem flagged_of_next (hnext : n ∈ st.next) (h : st.flagged = true) :
    n.flagged = true ∨ n = .workAdjWait ∨ st = .workDisaTx ∧ n = .workFiWait := by
  have hall : ∀ st : BchState, (st.next.all fun n => !st.flagged || (n.flagged || n == .workAdjWait
      || (st == .workDisaTx && n == .workFiWait))) = true := by
    intro st
    cases st <;> rfl
  simpa [h, or_assoc] using of_next hall hnext

theorem claims_of_next (hnext : n ∈ st.next) (hn : n.keepsWrite = true) :
    st.releases = false
      ∧ (st.claimsWork = true → n.claimsWork = true ∨ st = .waitReqFcbDone ∧ n = .fcbFailCount)
      ∧ (st.claimsAdj = true → n = .ifSingle ∨ n = .ifSingleReset)
      ∧ (n.releases = false) ∧ (n.claimsAdj = true → n = .ifSingle ∨ n = .ifSingleReset) := by
  have hall : ∀ st : BchState, (st.next.all fun n => !n.keepsWrite || (!st.releases
      && (!st.claimsWork || (n.claimsWork || (st == .waitReqFcbDone && n == .fcbFailCount)))
      && (!st.claimsAdj || (n == .ifSingle || n == .ifSingleReset))
      && !n.releases && (!n.claimsAdj || (n == .ifSingle || n == .ifSingleReset)))) = true := by
    intro st
    cases st <;> rfl
  have h := of_next hall hnext
  simp only [hn, Bool.not_true, Bool.false_or, Bool.and_eq_true, Bool.not_eq_true', Bool.or_eq_true,
    beq_iff_eq] at h
  obtain ⟨⟨⟨⟨hrel, hwork⟩, hadj⟩, hrel'⟩, hadj'⟩ := h
  refine ⟨hrel, fun hc => ?_, fun hc => ?_, hrel', fun hc => ?_⟩
  · exact hwork.resolve_left (by rw [hc]; exact nofun)
  · exact hadj.resolve_left (by rw [hc]; exact nofun)
  · exact hadj'.resolve_left (by rw [hc]; exact nofun)

end Next

end BchState

namespace Bch

/-- The entries that may carry the sid: that of the work slot, that of an adjustment slot, and the one that is being
given up. -/
def Owns (b : Bch) (a : BitVec 7) : Prop :=
  b.state.holds = true ∧ b.workPointer.setWidth 7 = a ∨ b.Adjusts ∧ b.decideAdj.setWidth 7 = a
    ∨ (b.we = true ∧ b.state.releases = true) ∧ b.addr = a

/-- What the machine writes, and where. -/
structure Disciplined (g : TdmaSetting) (b : Bch) : Prop where
  we : b.we = true → b.state.releases = true ∨ b.state.claimsWork = true ∨ b.state.claimsAdj = true
  release : b.we = true → b.state.releases = true → b.din.occupierSid = 0
  claim : b.we = true → b.state.releases = false → b.din.occupierSid = g.globalSid
  adj : b.we = true → b.state.claimsAdj = true → b.adjFlag = true ∧ b.addr = b.decideAdj.setWidth 7
  flag : b.adjFlag = true → b.state.flagged = true

section Step

variable {g : TdmaSetting} {i : BchIn} {b : Bch} {n : BchState} {a : BitVec 7}

theorem act_of_keepsWrite (h : n.keepsWrite = true) :
    (b.act g i n).we = b.we ∧ (b.act g i n).din = b.din := by
  cases n <;> first | exact Bool.noConfusion h | exact ⟨rfl, rfl⟩

theorem act_adjFlag (h : b.adjFlag = true) : (b.act g i n).adjFlag = true ∨ n = .workAdjWait := by
  cases n with
  | workAdjWait => exact Or.inr rfl
  | workFiFcb => exact Or.inl rfl
  | waitReqFcbStart | waitReqFcbDone | workAdjSetStatus =>
    simp only [act]
    split <;> exact Or.inl h
  | _ => exact Or.inl h

theorem owns_tick_work (hst : b.state.holds = true) (ha : b.workPointer.setWidth 7 = a)
    (hlook : b.state = .waitReqFcbPreWait → i.dout.occupierSid = g.globalSid) (hr : b.Regular) :
    (b.tick g i).Owns a := by
  obtain ⟨hlis, hdone, hset2, hnext⟩ := BchState.of_holds (nextState_mem g i b) hst
  show { b.act g i (b.nextState g i) with state := b.nextState g i }.Owns a
  generalize hn : b.nextState g i = n at hlis hdone hset2 hnext ⊢
  rcases hnext with hholds | ⟨hpre, rfl⟩ | rfl
  · rcases act_workPointer (g := g) (i := i) (b := b) hlis with hkeep | ⟨⟨hd, -⟩ | hs, -⟩ | ⟨hgive, hadj⟩
    · exact Or.inl ⟨hholds, hkeep.symm ▸ ha⟩
    · exact absurd hd hdone
    · exact absurd hs hset2
    · -- the old work slot is given up, or the adjustment slot is and the work slot stays
      rcases hgive with rfl | rfl
      · cases hwin : i.adjSlotWin with
        | true =>
          refine Or.inr (Or.inr ?_)
          simp only [act, hwin, if_true]
          exact ⟨⟨trivial, rfl⟩, ha⟩
        | false =>
          refine Or.inl ⟨rfl, ?_⟩
          simp only [act, hwin, Bool.false_eq_true, if_false]
          exact ha
      · exact Or.inr (Or.inr ⟨⟨rfl, rfl⟩, ha⟩)
  · refine Or.inr (Or.inr ?_)
    have haddr : b.addr = b.workPointer.setWidth 7 := hr.addr (by rw [hpre]; rfl)
    simp only [act, if_pos (hlook hpre).symm]
    exact ⟨⟨trivial, rfl⟩, haddr.trans ha⟩
  · exact Or.inr (Or.inr ⟨⟨rfl, rfl⟩, ha⟩)

theorem owns_tick_adj (hr : b.Regular) (hd : b.Disciplined g) (hadj : b.Adjusts) (ha : b.decideAdj.setWidth 7 = a)
    (hdecide : b.state = .workAdjDecideAdjBchInvalid →
      Usable g.globalSid i.dout ∨ b.workPointer.setWidth 7 = a) : (b.tick g i).Owns a := by
  have hmem := nextState_mem g i b
  have hfcb : b.nextState g i ≠ .workFiFcb := by
    intro hn
    have hst := (workFiFcb_of_nextState hn).state
    rcases hadj with hflag | hadj
    · have hflagged := hd.flag hflag
      rw [hst] at hflagged
      cases hflagged
    · rw [hst] at hadj
      cases hadj
  have hkeep : (b.tick g i).decideAdj.setWidth 7 = a := by
    show (b.act g i (b.nextState g i)).decideAdj.setWidth 7 = a
    rw [(act_adjust hfcb).1]
    exact ha
  rcases hadj with hflag | hadj
  · refine Or.inr (Or.inl ⟨?_, hkeep⟩)
    rcases act_adjFlag (g := g) (i := i) (n := b.nextState g i) hflag with hup | hwait
    · exact Or.inl hup
    · exact Or.inr (by rw [tick_state, hwait]; rfl)
  · rcases BchState.of_adjusting hmem hr.live hadj with hstill | hset | ⟨hst, hset | hcol⟩
    · exact Or.inr (Or.inl ⟨Or.inr hstill, hkeep⟩)
    · -- one of the two slots is given up, the other one is the work slot now
      have htick : b.tick g i = { b.act g i .workAdjSetStatus with state := .workAdjSetStatus } := by
        rw [tick, hset]
      rw [htick]
      cases hwin : i.adjSlotWin with
      | true =>
        refine Or.inl ⟨rfl, ?_⟩
        simp only [act, hwin, if_true]
        exact ha
      | false =>
        refine Or.inr (Or.inr ?_)
        simp only [act, hwin, Bool.false_eq_true, if_false]
        exact ⟨⟨trivial, rfl⟩, ha⟩
    · have htick : b.tick g i
          = { b.act g i .workAdjSetBch1BchInvalid with state := .workAdjSetBch1BchInvalid } := by
        rw [tick, hset]
      rw [htick]
      exact Or.inl ⟨rfl, ha⟩
    · have hnot : ¬ Usable g.globalSid i.dout := by
        intro husable
        simp only [nextState, hst, if_pos husable] at hcol
        cases hcol
      have htick : b.tick g i = { b.act g i .colCount with state := .colCount } := by
        rw [tick, hcol]
      rw [htick]
      exact Or.inl ⟨rfl, (hdecide hst).resolve_left hnot⟩

/-- **How the entries change**: apart from the one that is given up, they stay the machine's. -/
theorem owns_tick (hr : b.Regular) (hd : b.Disciplined g) (h : b.Owns a)
    (hkeep : ¬ ((b.we = true ∧ b.state.releases = true) ∧ b.addr = a))
    (hlook : b.state = .waitReqFcbPreWait → b.workPointer.setWidth 7 = a → i.dout.occupierSid = g.globalSid)
    (hdecide : b.state = .workAdjDecideAdjBchInvalid → b.decideAdj.setWidth 7 = a →
      Usable g.globalSid i.dout ∨ b.workPointer.setWidth 7 = a) : (b.tick g i).Owns a := by
  rcases h with ⟨hst, ha⟩ | ⟨hadj, ha⟩ | hrelease
  · exact owns_tick_work hst ha (fun hpre => hlook hpre ha) hr
  · exact owns_tick_adj hr hd hadj ha fun hst => hdecide hst ha
  · exact absurd hrelease hkeep

/-- **A claim** hits an entry of the machine. -/
theorem owns_tick_of_claim (hr : b.Regular) (hd : b.Disciplined g) (hwe : b.we = true)
    (hst : b.state.releases = false)
    (hlook : b.state = .waitReqFcbPreWait → i.dout.occupierSid = g.globalSid)
    (hfail : b.state = .waitReqFcbDone → i.fcbFail = false) : (b.tick g i).Owns b.addr := by
  rcases hd.we hwe with hrel | hwork | hadj
  · rw [hst] at hrel
    cases hrel
  · have haddr : b.addr = b.workPointer.setWidth 7 := by
      refine hr.addr ?_
      revert hwork
      cases b.state <;> first | exact fun _ => rfl | exact fun h => Bool.noConfusion h
    by_cases hdone : b.state = .waitReqFcbDone
    · have hnext : b.nextState g i = .waitReqWait := by
        simp only [nextState, hdone, hfail hdone, Bool.false_eq_true, if_false]
      have htick : b.tick g i = { b.act g i .waitReqWait with state := .waitReqWait } := by
        rw [tick, hnext]
      rw [htick]
      exact Or.inl ⟨rfl, haddr.symm⟩
    · have hholds : b.state.holds = true := by
        revert hwork hdone
        cases b.state <;>
          first | exact fun _ _ => rfl | exact fun h => Bool.noConfusion h | exact fun _ h => absurd rfl h
      exact owns_tick_work hholds haddr.symm hlook hr
  · obtain ⟨hflag, haddr⟩ := hd.adj hwe hadj
    refine owns_tick_adj hr hd (Or.inl hflag) haddr.symm fun hdec => ?_
    rw [hdec] at hadj
    cases hadj

theorem Disciplined.flag_tick (hd : b.Disciplined g) (h : (b.tick g i).adjFlag = true) :
    (b.tick g i).state.flagged = true := by
  by_cases hfcb : b.nextState g i = .workFiFcb
  · rw [tick_state, hfcb]
    rfl
  have hflag : b.adjFlag = true := (act_adjust hfcb).2 h
  rcases BchState.flagged_of_next (nextState_mem g i b) (hd.flag hflag) with hn | hn | ⟨hst, hn⟩
  · exact hn
  · have hlow : (b.tick g i).adjFlag = false := by rw [tick, hn]; rfl
    rw [hlow] at h
    cases h
  · simp only [nextState, hst, if_pos hflag] at hn
    cases hn

theorem Disciplined.tick_of_keepsWrite (hd : b.Disciplined g) (hn : (b.nextState g i).keepsWrite = true)
    (hfail : b.state = .waitReqFcbDone → b.we = true → i.fcbFail = false) : (b.tick g i).Disciplined g := by
  obtain ⟨hrel, hwork, hadj, hrel', hadj'⟩ := BchState.claims_of_next (nextState_mem g i b) hn
  obtain ⟨hwe, hdin⟩ := act_of_keepsWrite (g := g) (i := i) (b := b) hn
  have hup : (b.tick g i).we = true → b.we = true := fun h => hwe.symm.trans h
  refine ⟨fun h => ?_, fun _ hr => ?_, fun h _ => ?_, fun h hst => ?_, hd.flag_tick⟩
  · rcases hd.we (hup h) with hc | hc | hc
    · rw [hrel] at hc
      cases hc
    · rcases hwork hc with hgo | ⟨hst, hdrop⟩
      · exact Or.inr (Or.inl hgo)
      · simp only [nextState, hst, hfail hst (hup h), Bool.false_eq_true, if_false] at hdrop
        cases hdrop
    · exact Or.inr (Or.inr (by rw [tick_state]; rcases hadj hc with hgo | hgo <;> rw [hgo] <;> rfl))
  · rw [tick_state, hrel'] at hr
    cases hr
  · show (b.act g i (b.nextState g i)).din.occupierSid = g.globalSid
    rw [hdin]
    exact hd.claim (hup h) hrel
  · -- only `BCH_IF_SINGLE` and `BCH_IF_SINGLE_RESET` carry a claim of the adjustment slot on
    have hold : b.state.claimsAdj = true := by
      rcases hd.we (hup h) with hc | hc | hc
      · rw [hrel] at hc
        cases hc
      · rcases hwork hc with hgo | ⟨-, hdrop⟩
        · rw [tick_state] at hst
          rcases hadj' hst with hn' | hn' <;> rw [hn'] at hgo <;> cases hgo
        · rw [tick_state, hdrop] at hst
          cases hst
      · exact hc
    obtain ⟨hflag, haddr⟩ := hd.adj (hup h) hold
    rcases hadj hold with hgo | hgo <;> rw [tick, hgo] <;> exact ⟨hflag, haddr⟩

/-- **What the machine writes, and where.** -/
theorem Disciplined.tick (hd : b.Disciplined g)
    (hlook : b.state = .waitReqFcbPreWait → b.we = true → i.dout.occupierSid = g.globalSid)
    (hfail : b.state = .waitReqFcbDone → b.we = true → i.fcbFail = false) : (b.tick g i).Disciplined g := by
  cases hkeep : (b.nextState g i).keepsWrite with
  | true => exact hd.tick_of_keepsWrite hkeep hfail
  | false =>
    have hmem := nextState_mem g i b
    have hflag : (b.tick g i).adjFlag = true → (b.tick g i).state.flagged = true := hd.flag_tick
    rw [Bch.tick] at hflag ⊢
    generalize hn : b.nextState g i = n at hkeep hmem hflag ⊢
    cases n <;> first | exact Bool.noConfusion hkeep | skip
    case waitReqFcbStart =>
      have hst : b.state = .waitReqFcbPreWait := BchState.eq_of_next (fun st => by cases st <;> rfl) hmem
      by_cases hown : g.globalSid = i.dout.occupierSid
      · simp only [act, if_pos hown] at hflag ⊢
        exact ⟨fun _ => Or.inl rfl, fun _ _ => rfl, fun _ h => Bool.noConfusion h, fun _ h => Bool.noConfusion h,
          hflag⟩
      · have hwe : b.we ≠ true := fun hup => hown (hlook hst hup).symm
        simp only [act, if_neg hown] at hflag ⊢
        exact ⟨fun h => absurd h hwe, fun h => absurd h hwe, fun h => absurd h hwe, fun h => absurd h hwe, hflag⟩
    case waitReqFcbDone =>
      cases hf : i.fcbFail with
      | true =>
        simp only [act, hf, if_true] at hflag ⊢
        exact ⟨fun h => Bool.noConfusion h, fun h => Bool.noConfusion h, fun h => Bool.noConfusion h,
          fun h => Bool.noConfusion h, hflag⟩
      | false =>
        simp only [act, hf, Bool.false_eq_true, if_false] at hflag ⊢
        exact ⟨fun _ => Or.inr (Or.inl rfl), fun _ h => Bool.noConfusion h, fun _ _ => rfl,
          fun _ h => Bool.noConfusion h, hflag⟩
    case workAdjSetStatus =>
      cases hwin : i.adjSlotWin <;> simp only [act, hwin, Bool.false_eq_true, if_true, if_false] at hflag ⊢
      all_goals
        exact ⟨fun _ => Or.inl rfl, fun _ _ => rfl, fun _ h => Bool.noConfusion h, fun _ h => Bool.noConfusion h,
          hflag⟩
    case workFiFcb =>
      exact ⟨fun _ => Or.inr (Or.inr rfl), fun _ h => Bool.noConfusion h, fun _ _ => rfl, fun _ _ => ⟨rfl, rfl⟩,
        hflag⟩
    case waitReqFiInitStart | ifSingleSet2 =>
      exact ⟨fun _ => Or.inr (Or.inl rfl), fun _ h => Bool.noConfusion h, fun _ _ => rfl,
        fun _ h => Bool.noConfusion h, hflag⟩
    case ifSingleSet1 | workAdjSetBch1BchInvalid =>
      exact ⟨fun _ => Or.inl rfl, fun _ _ => rfl, fun _ h => Bool.noConfusion h, fun _ h => Bool.noConfusion h,
        hflag⟩
    all_goals
      exact ⟨fun h => Bool.noConfusion h, fun h => Bool.noConfusion h, fun h => Bool.noConfusion h,
        fun h => Bool.noConfusion h, hflag⟩

end Step

end Bch

/-! ### The word in the updater's hand -/

theorem Verdict.occupierSid {sender : BitVec 8} {t : FiTag} {dout din e : SlotEntry} (h : Verdict sender t dout din e) :
    e.occupierSid = t.occupierSid ∨ e.occupierSid = din.occupierSid ∨ e.occupierSid = 0 := by
  cases h with
  | keeps hsid | marks hsid => exact Or.inr (Or.inl hsid)
  | hands hsid => exact Or.inl hsid
  | frees => exact Or.inr (Or.inr rfl)

namespace Stu

section Hand

variable {i : StuIn} {u v : Stu} {p : Pass} {o : Option SlotEntry} {e : SlotEntry}

theorem Judgement.own_din (h : u.Judgement i p o) (hsid : i.globalSid ≠ 0) (ho : o = some e)
    (hown : e.occupierSid = i.globalSid) : u.din.occupierSid = i.globalSid := by
  have hdin : u.fiPerSlot.occupierSid ≠ i.globalSid → u.din.occupierSid = i.globalSid := by
    intro htag
    rcases (h.verdict ho).occupierSid with hsame | hsame | hfree
    · exact absurd (hsame.symm.trans hown) htag
    · exact hsame.symm.trans hown
    · exact absurd (hown.symm.trans hfree) hsid
  cases h with
  | other hst hdout htag => exact hdin htag
  | own hst hdout =>
    unfold fiLoop2Own at ho
    split at ho <;> cases ho
    exact hown
  | neighbour hst =>
    split at ho <;> cases ho
    exact hown
  | second hst htag => exact hdin htag

/-- **The word in hand**: one that carries the sid was read so, or was in hand before. -/
theorem Edge.own_word (h : Edge i u v) (hsid : i.globalSid ≠ 0) (hand : v.Judges ∨ v.we = true)
    (hown : v.din.occupierSid = i.globalSid) :
    v.addr = u.addr ∧ ((∃ p, u.state = .fiLoop p) ∧ i.dout.occupierSid = i.globalSid
      ∨ u.Judges ∧ u.din.occupierSid = i.globalSid) := by
  rcases hand with hj | hup
  · obtain ⟨haddr, ⟨⟨hst, -⟩, hdin⟩ | ⟨hold, hdin⟩⟩ := h.word hj
    · exact ⟨haddr, Or.inl ⟨hst, hdin ▸ hown⟩⟩
    · exact ⟨haddr, Or.inr ⟨hold, hdin ▸ hown⟩⟩
  · obtain ⟨haddr, p, hword⟩ := h.judgement hup
    exact ⟨haddr, Or.inr ⟨hword.judges, hword.own_din hsid rfl hown⟩⟩

end Hand

end Stu

/-! ### The system -/

namespace System

/-- **A cycle in which what is left is given up for good.**

* The updater does not write an entry that the FI builder or the search has in hand, and a read of the updater that meets
  a write shows the sid only if the entry carried it.
* When the BCH machine gives an entry up, it has port B and the updater is not at that entry.
* When it looks whether to give its lost slot up, it sees the sid if the entry carries it, or is about to.
* When it has lost its slot while it waits for an adjustment, it does not leave the adjustment slot behind.
* A search that has just offered a slot does not fail after all. -/
structure Orderly (g : TdmaSetting) (s : System) (i : Cycle) : Prop where
  apart : s.portA.we = true → ¬ s.Held s.portA.addr
  clash : s.portB.Writes s.portA.addr → i.clash.readA.occupierSid = g.globalSid → s.Carries g s.portA.addr
  giveUp : s.bch.we = true → s.bch.state.releases = true →
    s.fcb.inprogress = false ∧ s.fi.slotStatusEn = false
      ∧ (s.unit.stu.state = .idle ∨ s.unit.stu.addr ≠ s.bch.addr)
  look : s.bch.state = .waitReqFcbPreWait → s.bch.we = true ∨ s.Carries g s.workSlot →
    s.ram.doutB.occupierSid = g.globalSid
  fallback : s.bch.state = .workAdjDecideAdjBchInvalid → s.Carries g (s.bch.decideAdj.setWidth 7) →
    Usable g.globalSid s.ram.doutB ∨ s.bch.decideAdj.setWidth 7 = s.workSlot
  fail : s.bch.state = .waitReqFcbDone → s.bch.we = true → s.fcb.fail = false

instance (g : TdmaSetting) (s : System) (i : Cycle) : Decidable (s.Orderly g i) :=
  decidable_of_iff (_ ∧ _ ∧ _ ∧ _ ∧ _ ∧ _)
    ⟨fun ⟨apart, clash, giveUp, look, fallback, fail⟩ => Orderly.mk apart clash giveUp look fallback fail,
      fun h => ⟨h.apart, h.clash, h.giveUp, h.look, h.fallback, h.fail⟩⟩

/-- What orderly cycles keep: the sid is in the entries of the BCH machine only, and what the updater has in hand is not
older than the entry. -/
structure Owned (g : TdmaSetting) (s : System) : Prop where
  shared : s.Shared
  regular : s.bch.Regular
  fresh : ∀ a, s.Fresh g a
  disciplined : s.bch.Disciplined g
  inClr : s.unit.stu.WritesInClr
  latch : ∀ p, s.unit.stu.state = .fiLoop p → s.ram.doutA.occupierSid = g.globalSid →
    s.Carries g s.unit.stu.addr
  hand : s.unit.stu.Judges ∨ s.unit.stu.we = true → s.unit.stu.din.occupierSid = g.globalSid →
    s.Carries g s.unit.stu.addr
  own : ∀ a, s.Carries g a → s.bch.Owns a

def Releases (s : System) (a : BitVec 7) : Prop :=
  (s.bch.we = true ∧ s.bch.state.releases = true) ∧ s.bch.addr = a

section Step

variable {g : TdmaSetting} {s : System} {i : Cycle} {a : BitVec 7}

theorem occupierSid_countsCleared (sid : BitVec 8) (e : SlotEntry) :
    (countsCleared sid e).occupierSid = e.occupierSid := by
  unfold countsCleared
  split <;> rfl

theorem occupierSid_refreshed {sid : BitVec 8} (hsid : sid ≠ 0) (e : SlotEntry) :
    (refreshed sid e (unlocked e)).occupierSid = sid ↔ e.occupierSid = sid := by
  unfold refreshed
  by_cases hother : e.occupierSid ≠ sid ∧ e.occupierSid ≠ 0
  · rw [if_pos hother]
    (repeat' split) <;> first | exact Iff.rfl | exact iff_of_false hsid.symm hother.1
  · rw [if_neg hother]
    exact Iff.rfl

theorem Orderly.not_releases (hok : s.Orderly g i) (hst : s.unit.stu.state ≠ .idle) :
    ¬ s.Releases s.unit.stu.addr := by
  rintro ⟨⟨hwe, hrel⟩, haddr⟩
  rcases (hok.giveUp hwe hrel).2.2 with hidle | hne
  · exact hst hidle
  · exact hne haddr.symm

theorem Owned.not_idle_of_writes (h : s.Owned g) (hA : s.portA.Writes a) : s.unit.stu.state ≠ .idle := by
  intro hidle
  obtain ⟨p, hclr⟩ := h.inClr hA.1
  exact StuState.noConfusion (hidle.symm.trans hclr)

/-- **Where the sid comes from**: without a write of the BCH machine, an entry that carries it carried it before. -/
theorem Owned.carries_of_tick (h : s.Owned g) (hok : s.Orderly g i) (hsid : g.globalSid ≠ 0) (hB : ¬ s.BchWrites a)
    (hc : (s.tick g i).Carries g a) : s.Carries g a := by
  by_cases hwrite : s.portB.Writes a
  · have hA : ¬ s.portA.Writes a := by
      intro hA
      have hnot := hok.apart hA.1
      rw [hA.2] at hnot
      rcases (h.fresh a).portB_din hwrite with ⟨hw, -⟩ | ⟨hw, -⟩ | ⟨hw, -⟩
      · exact hnot (held_of_fcbWrites hw)
      · exact hnot (held_of_fiWrites hw)
      · exact hB hw
    have hcell : (s.tick g i).ram.cell a = s.portB.din := tick_cell_write_b hA hwrite
    unfold Carries at hc ⊢
    rw [hcell] at hc
    rcases (h.fresh a).portB_din hwrite with ⟨-, hdin⟩ | ⟨-, hdin⟩ | ⟨hw, -⟩
    · rwa [hdin, occupierSid_countsCleared] at hc
    · rwa [hdin, occupierSid_refreshed hsid] at hc
    · exact absurd hw hB
  · by_cases hA : s.portA.Writes a
    · have hcell : (s.tick g i).ram.cell a = s.portA.din := tick_cell_write_a hA hwrite
      have hown : s.unit.stu.din.occupierSid = g.globalSid := by
        unfold Carries at hc
        rw [hcell] at hc
        exact hc
      have hcarries := h.hand (Or.inr hA.1) hown
      rwa [show s.unit.stu.addr = a from hA.2] at hcarries
    · have hcell : (s.tick g i).ram.cell a = s.ram.cell a := tick_cell_of_quiet hA hwrite
      unfold Carries at hc ⊢
      rwa [hcell] at hc

/-- **Where the sid stays**: it is lost only by a write of the updater or when the BCH machine gives the entry up. -/
theorem Owned.carries_tick (h : s.Owned g) (hsid : g.globalSid ≠ 0) (hA : ¬ s.portA.Writes a)
    (hrel : ¬ s.Releases a) (hc : s.Carries g a) : (s.tick g i).Carries g a := by
  unfold Carries at hc ⊢
  by_cases hwrite : s.portB.Writes a
  · have hcell : (s.tick g i).ram.cell a = s.portB.din := tick_cell_write_b hA hwrite
    rw [hcell]
    rcases (h.fresh a).portB_din hwrite with ⟨-, hdin⟩ | ⟨-, hdin⟩ | ⟨hw, hdin⟩
    · rwa [hdin, occupierSid_countsCleared]
    · rwa [hdin, occupierSid_refreshed hsid]
    · rw [hdin]
      refine h.disciplined.claim hw.2.2.1 ?_
      rw [← Bool.not_eq_true]
      exact fun hup => hrel ⟨⟨hw.2.2.1, hup⟩, hw.2.2.2⟩
  · have hcell : (s.tick g i).ram.cell a = s.ram.cell a := tick_cell_of_quiet hA hwrite
    rwa [hcell]

theorem Owned.not_carries_of_releases (h : s.Owned g) (hok : s.Orderly g i) (hsid : g.globalSid ≠ 0)
    (hrel : s.Releases a) : ¬ (s.tick g i).Carries g a := by
  obtain ⟨⟨hwe, hst⟩, haddr⟩ := hrel
  obtain ⟨hfcb, hfi, -⟩ := hok.giveUp hwe hst
  have hport := portB_bch hfcb hfi
  have hA : ¬ s.portA.Writes a := by
    intro hA
    have hnot := hok.not_releases (h.not_idle_of_writes hA)
    rw [show s.unit.stu.addr = a from hA.2] at hnot
    exact hnot ⟨⟨hwe, hst⟩, haddr⟩
  have hcell : (s.tick g i).ram.cell a = s.portB.din := tick_cell_write_b hA (by rw [hport]; exact ⟨hwe, haddr⟩)
  unfold Carries
  rw [hcell, hport]
  show s.bch.din.occupierSid ≠ g.globalSid
  rw [h.disciplined.release hwe hst]
  exact hsid.symm

theorem Owned.own_tick (h : s.Owned g) (hok : s.Orderly g i) (hsid : g.globalSid ≠ 0)
    (hc : (s.tick g i).Carries g a) : (s.tick g i).bch.Owns a := by
  have hrel : ¬ s.Releases a := fun hrel => h.not_carries_of_releases hok hsid hrel hc
  by_cases hB : s.BchWrites a
  · -- a claim
    obtain ⟨-, -, hwe, haddr⟩ := hB
    have hst : s.bch.state.releases = false := by
      rw [← Bool.not_eq_true]
      exact fun hup => hrel ⟨⟨hwe, hup⟩, haddr⟩
    have hat : s.bch.addr = a := haddr
    rw [← hat]
    exact Bch.owns_tick_of_claim h.regular h.disciplined hwe hst (fun hpre => hok.look hpre (Or.inl hwe))
      fun hdone => hok.fail hdone hwe
  · have hbefore := h.carries_of_tick hok hsid hB hc
    refine Bch.owns_tick h.regular h.disciplined (h.own a hbefore) hrel (fun hpre ha => ?_) fun hdec ha => ?_
    · refine hok.look hpre (Or.inr ?_)
      rw [show s.workSlot = a from ha]
      exact hbefore
    · rw [← ha] at hbefore
      rcases hok.fallback hdec hbefore with husable | heq
      · exact Or.inl husable
      · exact Or.inr (heq.symm.trans ha)

theorem Owned.latch_tick (h : s.Owned g) (hok : s.Orderly g i) (hsid : g.globalSid ≠ 0) {p : Pass}
    (hst : (s.tick g i).unit.stu.state = .fiLoop p) (hown : (s.tick g i).ram.doutA.occupierSid = g.globalSid) :
    (s.tick g i).Carries g (s.tick g i).unit.stu.addr := by
  have hedge := Stu.edge (i := s.unit.stuIn (s.stuEnv g i) s.ram.doutA) h.inClr
  obtain ⟨haddr, hidle, hclr⟩ := hedge.stays (by rw [show (s.unit.stu.tick _).state = .fiLoop p from hst]; rfl)
  have hwe : s.unit.stu.we = false := h.inClr.we_false rfl hclr
  have hbefore : s.Carries g s.unit.stu.addr := by
    change (if s.portB.Writes s.portA.addr then i.clash.readA
      else if s.portA.we then s.portA.din else s.ram.cell s.portA.addr).occupierSid = g.globalSid at hown
    split at hown
    · rename_i hmeet
      exact hok.clash hmeet hown
    · rwa [if_neg (show ¬ s.portA.we = true by rw [show s.portA.we = false from hwe]; exact Bool.false_ne_true)]
        at hown
  rw [show (s.tick g i).unit.stu.addr = s.unit.stu.addr from haddr]
  exact h.carries_tick hsid (Port.not_writes_of_we hwe _) (hok.not_releases hidle) hbefore

theorem Owned.hand_tick (h : s.Owned g) (hok : s.Orderly g i) (hsid : g.globalSid ≠ 0)
    (hj : (s.tick g i).unit.stu.Judges ∨ (s.tick g i).unit.stu.we = true)
    (hown : (s.tick g i).unit.stu.din.occupierSid = g.globalSid) :
    (s.tick g i).Carries g (s.tick g i).unit.stu.addr := by
  have hedge := Stu.edge (i := s.unit.stuIn (s.stuEnv g i) s.ram.doutA) h.inClr
  obtain ⟨haddr, hfrom⟩ := hedge.own_word hsid hj hown
  have hstate : s.unit.stu.state ≠ .idle ∧ s.unit.stu.we = false := by
    have hgo : ∀ st, s.unit.stu.state = st → st ≠ .idle → (∀ p, st ≠ .fiClr p) →
        s.unit.stu.state ≠ .idle ∧ s.unit.stu.we = false :=
      fun st hst hidle hclr => ⟨by rw [hst]; exact hidle, h.inClr.we_false hst hclr⟩
    rcases hfrom with ⟨⟨p, hst⟩, -⟩ | ⟨hst | hst | hst, -⟩ <;>
      exact hgo _ hst nofun fun _ => nofun
  have hbefore : s.Carries g s.unit.stu.addr := by
    rcases hfrom with ⟨⟨p, hst⟩, hdout⟩ | ⟨hjudges, hdin⟩
    · exact h.latch p hst hdout
    · exact h.hand (Or.inl hjudges) hdin
  rw [show (s.tick g i).unit.stu.addr = s.unit.stu.addr from haddr]
  exact h.carries_tick hsid (Port.not_writes_of_we hstate.2 _) (hok.not_releases hstate.1) hbefore

/-- **An orderly cycle.** -/
theorem Owned.tick (h : s.Owned g) (hsid : g.globalSid ≠ 0) (hok : s.Orderly g i) : (s.tick g i).Owned g where
  shared := h.shared.tick
  regular := h.regular.tick
  fresh a := by
    refine Fresh.tick h.shared (h.fresh a) fun hA => ?_
    rw [← hA.2]
    exact hok.apart hA.1
  disciplined := h.disciplined.tick (fun hpre hwe => hok.look hpre (Or.inl hwe)) fun hdone hwe => hok.fail hdone hwe
  inClr := (Stu.edge h.inClr).writesInClr
  latch _ hst hown := h.latch_tick hok hsid hst hown
  hand hj hown := h.hand_tick hok hsid hj hown
  own _ hc := h.own_tick hok hsid hc

theorem owned_reset (hsid : g.globalSid ≠ 0) (len : BitVec 10) : (reset len).Owned g where
  shared := shared_reset len
  regular := regular_trace g (fun _ => {}) len 0
  fresh _ := ⟨fun h => FiState.noConfusion h, fun h => FiState.noConfusion h, fun h => FiState.noConfusion h,
    fun h => absurd h.1 Bool.false_ne_true, fun h => FcbState.noConfusion h,
    fun h => absurd h.1 Bool.false_ne_true⟩
  disciplined := ⟨fun h => Bool.noConfusion h, fun h => Bool.noConfusion h, fun h => Bool.noConfusion h,
    fun h => Bool.noConfusion h, fun h => Bool.noConfusion h⟩
  inClr h := Bool.noConfusion h
  latch _ h := StuState.noConfusion h
  hand _ h := absurd h.symm hsid
  own _ h := absurd (Eq.symm h) hsid

end Step

def Waits (s : System) : Prop :=
  s.bch.state = .waitReqWait ∨ s.bch.state = .reqWait ∨ s.bch.state = .workFiWait

/-- **The entries of this node.**  In a run of orderly cycles, whatever is received, the only entry that carries the sid
while the BCH machine waits for its slot is that of the work slot. -/
theorem own_entry_is_work_slot {g : TdmaSetting} {len : BitVec 10} {inp : ℕ → Cycle} {n : ℕ}
    (hsid : g.globalSid ≠ 0) (hok : ∀ k < n, (trace (tick g) inp (reset len) k).Orderly g (inp k))
    (hwaits : (trace (tick g) inp (reset len) n).Waits) (a : BitVec 7)
    (hc : (trace (tick g) inp (reset len) n).Carries g a) :
    a = (trace (tick g) inp (reset len) n).workSlot := by
  have howned : (trace (tick g) inp (reset len) n).Owned g :=
    trace_invariant (owned_reset hsid len) (fun _ _ h hc => h.tick hsid hc) hok
  rcases howned.own a hc with ⟨-, ha⟩ | ⟨hflag | hadj, -⟩ | ⟨⟨-, hrel⟩, -⟩
  · exact ha.symm
  · have hflagged := howned.disciplined.flag hflag
    rcases hwaits with hst | hst | hst <;> rw [hst] at hflagged <;> cases hflagged
  · rcases hwaits with hst | hst | hst <;> rw [hst] at hadj <;> cases hadj
  · rcases hwaits with hst | hst | hst <;> rw [hst] at hrel <;> cases hrel

/-- The node that has exchanged slot 0 for slot 1 has given slot 0 up. -/
theorem own_entry_is_work_slot_moved :
    (moving false 741).Carries movingSetting 1 ∧ (moving false 741).workSlot = 1 ∧
      ¬ (moving false 741).Carries movingSetting 0 := by
  have hrun : (∀ k < 741, (moving false k).Orderly movingSetting (movingInp false k))
      ∧ (moving false 741).bch.state = .workFiWait ∧ (moving false 741).Carries movingSetting 1
      ∧ (moving false 741).workSlot = 1 := by
    decide +kernel
  obtain ⟨hok, hst, hcarries, hwork⟩ := hrun
  refine ⟨hcarries, hwork, fun hzero => ?_⟩
  have heq := own_entry_is_work_slot (by decide) hok (Or.inr (Or.inr hst)) 0 hzero
  rw [hwork] at heq
  exact absurd heq (by decide)

/-- As in the run with node 7, but slot 3 comes before slot 0 again, so that the node builds another frame information and
the search offers slot 3. -/
def leftInp (n : ℕ) : Cycle :=
  { movingInp true n with
    slotPointer := if 735 ≤ n ∧ n < 960 then 3 else (movingInp true n).slotPointer
    inputRandom := if n < 735 then 0 else 1
    dividerRemainder := if n < 735 then 0 else 1 }

abbrev leftBehind : ℕ → System := trace (tick movingSetting) leftInp (reset 4)

/-- Node 7 takes slot 0 while the node waits for slot 1; the node then asks for slot 3 and keeps slot 1. -/
theorem adjustment_slot_left_behind :
    (leftBehind 967).bch.state = .waitReqWait ∧ (leftBehind 967).workSlot = 3 ∧ (leftBehind 967).currFrameLen = 4 ∧
      (leftBehind 967).Carries movingSetting 1 ∧ (leftBehind 967).Carries movingSetting 3 := by
  decide +kernel

end System

end VanetTdma.Fpga
