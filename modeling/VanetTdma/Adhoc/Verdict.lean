import Mathlib.Data.List.Induction
import VanetTdma.Adhoc.Node

/-!
# What the FIs say about a slot (`merge_fi`, `synthesize_fi_list`)

The table of a node is made FI by FI, so an entry is a fold over the list of FIs (`refresh_slotDescribe`).
This file says what comes out, in terms of the list as a set:

* **the own slot** of a node that has requested it or works in it (`own_slot_verdict`): a collision if some FI
  reports another station there, a doubt if some FI (with `srp_ena_`: of an old neighbour) reports the slot as
  free, and free otherwise; the node goes on working exactly in the last case;
* **any other slot** (`ordinary_verdict_iff`): the verdict is right unless two different stations claim the
  slot.  The test `busy == SLOT_FREE || SLOT_NEIGHBOR_RECEIVE` of `merge_fi` is always true, so the entry then
  shows the claim that is merged last, and never `SLOT_COLLISION_DENY`.
-/

namespace VanetTdma.Adhoc

open VanetTdma.SlotLoop

/-! ### An entry of the new table -/

section entry

variable (p : Params) (s : Node)

theorem foldl_mergeFi_apply {j : ℕ} (hj : j < p.frameLen) (l : List FrameInfo) (t : Table) :
    l.foldl (mergeFi p s) t j = l.foldl (fun e fi => mergeSlot p s fi j e) (t j) := by
  induction l generalizing t with
  | nil => rfl
  | cons fi l ih =>
    rw [List.foldl_cons, List.foldl_cons, ih]
    congr 1
    exact forSlots_of_lt hj

theorem refresh_slotDescribe {j : ℕ} (hj : j < p.frameLen) :
    (refresh p s).slotDescribe j
      = s.receivedFiList.foldl (fun e fi => mergeSlot p (clearFi s) fi j e) {} :=
  foldl_mergeFi_apply p (clearFi s) hj s.receivedFiList Table.blank

end entry

/-! ### Reports -/

/-- The FI reports slot `j` as busy with a station other than `own`. -/
def FrameInfo.Denies (own : ℕ) (fi : FrameInfo) (j : ℕ) : Prop :=
  (fi.slotDescribe j).busy = .busy ∧ (fi.slotDescribe j).sti ≠ own

instance (own : ℕ) (fi : FrameInfo) (j : ℕ) : Decidable (fi.Denies own j) :=
  inferInstanceAs (Decidable (_ ∧ _))

/-- The FI reports slot `j` as free and counts: with `srp_ena_` only that of an old neighbour does. -/
def FrameInfo.Doubts (p : Params) (s : Node) (fi : FrameInfo) (j : ℕ) : Prop :=
  (fi.slotDescribe j).busy = .free ∧ (p.srpEna → isOldNeighbor p s fi.sti)

instance (p : Params) (s : Node) (fi : FrameInfo) (j : ℕ) : Decidable (fi.Doubts p s j) :=
  inferInstanceAs (Decidable (_ ∧ _))

/-- The sender of the FI claims slot `j` as its own. -/
def FrameInfo.Claims (fi : FrameInfo) (j : ℕ) : Prop :=
  (fi.slotDescribe j).busy = .busy ∧ (fi.slotDescribe j).sti = fi.sti

instance (fi : FrameInfo) (j : ℕ) : Decidable (fi.Claims j) :=
  inferInstanceAs (Decidable (_ ∧ _))

/-- The FI reports slot `j` as busy with a third station, neither its sender nor `own`. -/
def FrameInfo.Relays (own : ℕ) (fi : FrameInfo) (j : ℕ) : Prop :=
  (fi.slotDescribe j).busy = .busy ∧ (fi.slotDescribe j).sti ≠ fi.sti ∧ (fi.slotDescribe j).sti ≠ own

instance (own : ℕ) (fi : FrameInfo) (j : ℕ) : Decidable (fi.Relays own j) :=
  inferInstanceAs (Decidable (_ ∧ _ ∧ _))

/-! ### The own slot -/

/-- The verdict on the own slot `j`. -/
def ownVerdict (p : Params) (s : Node) (l : List FrameInfo) (j : ℕ) : Busy :=
  if ∃ fi ∈ l, fi.Denies p.sti j then .collisionDeny
  else if ∃ fi ∈ l, fi.Doubts p s j then .collisionUnknown
  else .free

section own

variable {p : Params} {s : Node} {j : ℕ} {fi : FrameInfo}

/-- The own slot of a node that holds it is busy for good once another station is reported there. -/
theorem mergeSlot_of_denies (hj : (j : ℤ) = s.slotNum ∧ s.holds) (h : fi.Denies p.sti j) (e : SlotTag) :
    (mergeSlot p s fi j e).busy = .collisionDeny := by
  have hnf : (fi.slotDescribe j).busy ≠ .free := by
    rw [h.1]
    exact nofun
  have hdeny : (if e.busy ≠ .collisionDeny then { e with busy := .collisionDeny } else e).busy
      = .collisionDeny := by
    split
    · rfl
    · rename_i hb
      exact not_not.mp hb
  unfold mergeSlot
  dsimp only
  rw [if_neg hnf]
  by_cases hsender : (fi.slotDescribe j).sti = fi.sti
  · rw [if_neg fun hr => hr.2 hsender, if_pos ⟨h.1, hsender⟩, mergeSending, if_pos hj, if_pos h.2]
    exact hdeny
  · rw [if_pos ⟨h.1, hsender⟩, mergeReceiving, if_pos hj, if_pos h.2]
    exact hdeny

theorem mergeSlot_of_doubts (hj : (j : ℤ) = s.slotNum ∧ s.holds) (h : fi.Doubts p s j) (e : SlotTag) :
    (mergeSlot p s fi j e).busy
      = if e.busy ≠ .collisionUnknown ∧ e.busy ≠ .collisionDeny then .collisionUnknown else e.busy := by
  unfold mergeSlot
  dsimp only
  rw [if_pos h.1, mergeFree, if_pos hj]
  by_cases he : e.busy ≠ .collisionUnknown ∧ e.busy ≠ .collisionDeny
  · rw [if_pos he, if_pos he]
    by_cases hsrp : p.srpEna = true
    · rw [if_pos hsrp, if_pos (h.2 hsrp)]
    · rw [if_neg hsrp]
  · rw [if_neg he, if_neg he]

theorem mergeSlot_of_not (hj : (j : ℤ) = s.slotNum ∧ s.holds) (hd : ¬ fi.Denies p.sti j)
    (hu : ¬ fi.Doubts p s j) (e : SlotTag) : mergeSlot p s fi j e = e := by
  unfold mergeSlot
  dsimp only
  split
  · rename_i hfree
    rw [mergeFree, if_pos hj]
    split
    · split
      · rename_i hsrp
        exact if_neg fun hold => hu ⟨hfree, fun _ => hold⟩
      · rename_i hsrp
        exact absurd ⟨hfree, fun h => absurd h hsrp⟩ hu
    · rfl
  · split
    · rename_i hr
      rw [mergeReceiving, if_pos hj]
      exact if_neg fun hsti => hd ⟨hr.1, hsti⟩
    · split
      · rename_i hr
        rw [mergeSending, if_pos hj]
        exact if_neg fun hsti => hd ⟨hr.1, hsti⟩
      · rfl

theorem exists_mem_append_singleton {α : Type*} {P : α → Prop} (l : List α) (a : α) :
    (∃ b ∈ l ++ [a], P b) ↔ (∃ b ∈ l, P b) ∨ P a := by
  simp only [List.mem_append, List.mem_singleton, or_and_right, exists_or, exists_eq_left]

/-- The fold over the FIs at the own slot, by induction from the end of the list: the FI merged last meets
the verdict of those before it. -/
theorem foldl_mergeSlot_own (hj : (j : ℤ) = s.slotNum ∧ s.holds) (l : List FrameInfo) :
    (l.foldl (fun e fi => mergeSlot p s fi j e) {}).busy = ownVerdict p s l j := by
  induction l using List.reverseRecOn with
  | nil => simp [ownVerdict]
  | append_singleton l fi ih =>
    rw [List.foldl_append, List.foldl_cons, List.foldl_nil]
    unfold ownVerdict at ih ⊢
    simp only [exists_mem_append_singleton]
    by_cases hd : fi.Denies p.sti j
    · rw [mergeSlot_of_denies hj hd, if_pos (Or.inr hd)]
    · by_cases hu : fi.Doubts p s j
      · rw [mergeSlot_of_doubts hj hu, ih]
        by_cases hold : ∃ f ∈ l, f.Denies p.sti j
        · simp [hold]
        · by_cases hunk : ∃ f ∈ l, f.Doubts p s j
          · simp [hold, hd, hunk]
          · simp [hold, hd, hunk, hu]
      · rw [mergeSlot_of_not hj hd hu, ih]
        simp only [hd, hu, or_false]

theorem refresh_own (hj : (j : ℤ) = s.slotNum) (hlt : j < p.frameLen) (hs : s.holds) :
    ((refresh p s).slotDescribe j).busy = ownVerdict p s s.receivedFiList j := by
  have hfold : (s.receivedFiList.foldl (fun e fi => mergeSlot p (clearFi s) fi j e) {}).busy
      = ownVerdict p (clearFi s) s.receivedFiList j := foldl_mergeSlot_own ⟨hj, hs⟩ _
  rw [refresh_slotDescribe p s hlt]
  exact hfold

theorem ownVerdict_perm {l l' : List FrameInfo} (h : l'.Perm l) :
    ownVerdict p s l' j = ownVerdict p s l j := by
  unfold ownVerdict
  simp only [h.mem_iff]

theorem chooseAgain_bch (d : Draws) : (chooseAgain p s d).bch ≠ none := by
  unfold chooseAgain
  dsimp only
  split
  · exact Option.some_ne_none _
  · split
    · exact Option.some_ne_none _
    · exact Option.some_ne_none _

theorem tickHolds_works_iff (d : Draws) :
    ((tickHolds p s d).node.nodeState = .work ∧ (tickHolds p s d).bch = none) ↔
      (s.slotDescribe s.slotNum.toNat).busy ≠ .collisionUnknown ∧
        (s.slotDescribe s.slotNum.toNat).busy ≠ .collisionDeny := by
  unfold tickHolds
  split
  · rename_i h
    refine iff_of_false (fun hw => chooseAgain_bch d hw.2) fun hne => ?_
    exact h.elim hne.1 hne.2
  · rename_i h
    exact iff_of_true ⟨rfl, rfl⟩ (not_or.mp h)

theorem ownVerdict_eq_free_iff (l : List FrameInfo) :
    ownVerdict p s l j = .free ↔
      ownVerdict p s l j ≠ .collisionUnknown ∧ ownVerdict p s l j ≠ .collisionDeny := by
  unfold ownVerdict
  split
  · simp
  · split
    · simp
    · simp

theorem ownTick_of_holds (hs : s.holds) (d : Draws) : ownTick p s d = tickHolds p (refresh p s) d := by
  have hstate : s.nodeState = .request ∨ s.nodeState = .work := of_decide_eq_true hs
  unfold ownTick
  rcases hstate with h | h
  · rw [h]
  · rw [h]

theorem ownTick_works_iff (hj : (j : ℤ) = s.slotNum) (hlt : j < p.frameLen) (hs : s.holds) (d : Draws) :
    ((ownTick p s d).node.nodeState = .work ∧ (ownTick p s d).bch = none) ↔
      ownVerdict p s s.receivedFiList j = .free := by
  have hnum : (refresh p s).slotNum.toNat = j := by
    show s.slotNum.toNat = j
    rw [← hj, Int.toNat_natCast]
  rw [ownTick_of_holds hs, tickHolds_works_iff, hnum, refresh_own hj hlt hs, ownVerdict_eq_free_iff]

end own

/-- **The own slot.**  When a node that has requested slot `j` or works in it makes its table anew, the entry
of the slot is the verdict of the FIs it holds, whatever their order; and a tick that finds the node in this
state in its own slot ends in `NODE_WORK` without a new `determine_BCH` exactly when the verdict is
`SLOT_FREE`. -/
theorem own_slot_verdict (p : Params) (s : Node) (j : ℕ) (hj : (j : ℤ) = s.slotNum) (hlt : j < p.frameLen)
    (hs : s.holds) :
    (∀ l : List FrameInfo, l.Perm s.receivedFiList →
      ((refresh p { s with receivedFiList := l }).slotDescribe j).busy
        = ownVerdict p s s.receivedFiList j) ∧
    ∀ (s₀ : Node) (z : Ordering) (d : Draws), beginSlot p s₀ z = s → s.enable → s.slotCount = j →
      (((slotHandler p s₀ z d).node.nodeState = .work ∧ (slotHandler p s₀ z d).bch = none) ↔
        ownVerdict p s s.receivedFiList j = .free) := by
  refine ⟨fun l hl => ?_, fun s₀ z d hbegin hen hcount => ?_⟩
  · have hown : ((refresh p { s with receivedFiList := l }).slotDescribe j).busy
        = ownVerdict p { s with receivedFiList := l } l j := refresh_own hj hlt hs
    exact hown.trans (ownVerdict_perm hl)
  · have htick : slotHandler p s₀ z d = ownTick p s d := by
      unfold slotHandler
      dsimp only
      have hon : ¬ s.enable = false := by simp [hen]
      have hown : (s.slotCount : ℤ) = s.slotNum := by rw [hcount, hj]
      rw [hbegin, if_neg hon, if_pos hown]
    rw [htick]
    exact ownTick_works_iff hj hlt hs d

/-- A frame of two slots and a node that works in slot 1. -/
def pairParams : Params := { sti := 1, frameLen := 2, srpEna := true }

/-- The FI of a sender that reports one slot only. -/
def report (sti slot : ℕ) (tag : SlotTag) : FrameInfo where
  sti := sti
  remainTime := 2
  slotDescribe := Function.update Table.blank slot tag

/-- The node knows station 5 from the frame before; 5 confirms the node's slot and the new station 6 reports
it as free. -/
def confirmed : Node where
  totalSlotCount := 1
  slotCount := 1
  slotNum := 1
  nodeState := .request
  enable := true
  slotDescribe := Table.blank
  slotDescribeOld := Function.update Table.blank 0 { busy := .busy, sti := 5 }
  receivedFiList := [report 6 0 { busy := .busy, sti := 6 }, report 5 1 { busy := .busy, sti := 1 }]

/-- Nobody who counts objects, so the node takes up its work. -/
theorem own_slot_verdict_confirmed :
    ((refresh pairParams confirmed).slotDescribe 1).busy = .free := by
  have h := (own_slot_verdict pairParams confirmed 1 rfl (by decide) (by decide)).1
    confirmed.receivedFiList (List.Perm.refl _)
  have hverdict : ownVerdict pairParams confirmed confirmed.receivedFiList 1 = .free := by decide
  exact h.trans hverdict

/-! ### Any other slot -/

/-- Two different senders claim slot `j`. -/
def Disputed (l : List FrameInfo) (j : ℕ) : Prop :=
  ∃ fi ∈ l, ∃ fi' ∈ l, fi.Claims j ∧ fi'.Claims j ∧ fi.sti ≠ fi'.sti

/-- What an entry of a slot `j` other than the own one should say after the FIs of `l`, on station `own`. -/
structure OrdinaryVerdict (own : ℕ) (l : List FrameInfo) (j : ℕ) (e : SlotTag) : Prop where
  disputed : Disputed l j → e.busy = .collisionDeny
  claimed : ¬ Disputed l j → ∀ fi ∈ l, fi.Claims j → e.busy = .busy ∧ e.sti = fi.sti
  relayed : (∀ fi ∈ l, ¬ fi.Claims j) → (∃ fi ∈ l, fi.Relays own j) → e.busy = .neighborReceive
  free : (∀ fi ∈ l, ¬ fi.Claims j) → (¬ ∃ fi ∈ l, fi.Relays own j) → e.busy = .free

section ordinary

variable {p : Params} {s : Node} {j : ℕ} {fi : FrameInfo}

theorem mergeSlot_of_claims (hj : (j : ℤ) ≠ s.slotNum) (h : fi.Claims j) (e : SlotTag) :
    mergeSlot p s fi j e = { e with busy := .busy, sti := fi.sti } := by
  have hnf : (fi.slotDescribe j).busy ≠ .free := by
    rw [h.1]
    exact nofun
  unfold mergeSlot
  dsimp only
  rw [if_neg hnf, if_neg fun hr => hr.2 h.2, if_pos ⟨h.1, h.2⟩, mergeSending, if_neg fun ho => hj ho.1,
    if_neg hj, if_pos (Or.inr (by decide)), h.2]

theorem mergeSlot_of_relays (hj : (j : ℤ) ≠ s.slotNum) (h : fi.Relays p.sti j) (e : SlotTag) :
    mergeSlot p s fi j e = if e.busy = .free then { e with busy := .neighborReceive } else e := by
  have hnf : (fi.slotDescribe j).busy ≠ .free := by
    rw [h.1]
    exact nofun
  unfold mergeSlot
  dsimp only
  rw [if_neg hnf, if_pos ⟨h.1, h.2.1⟩, mergeReceiving, if_neg fun ho => hj ho.1, if_neg hj, if_neg h.2.2]

theorem mergeSlot_of_neither (hj : (j : ℤ) ≠ s.slotNum) (hc : ¬ fi.Claims j)
    (hr : ¬ fi.Relays p.sti j) (e : SlotTag) : mergeSlot p s fi j e = e := by
  unfold mergeSlot
  dsimp only
  split
  · rw [mergeFree, if_neg fun ho => hj ho.1]
  · split
    · rename_i hrecv
      rw [mergeReceiving, if_neg fun ho => hj ho.1, if_neg hj]
      exact if_pos (not_not.mp fun hsti => hr ⟨hrecv.1, hrecv.2, hsti⟩)
    · split
      · rename_i hsend
        exact absurd hsend hc
      · rfl

/-- What the fold over the FIs leaves at a slot other than the own one: the last claim if there is one. -/
structure Shows (own : ℕ) (l : List FrameInfo) (j : ℕ) (e : SlotTag) : Prop where
  claimed : (∃ fi ∈ l, fi.Claims j) → e.busy = .busy ∧ ∃ fi ∈ l, fi.Claims j ∧ e.sti = fi.sti
  relayed : (∀ fi ∈ l, ¬ fi.Claims j) → (∃ fi ∈ l, fi.Relays own j) → e.busy = .neighborReceive
  free : (∀ fi ∈ l, ¬ fi.Claims j) → (¬ ∃ fi ∈ l, fi.Relays own j) → e.busy = .free

theorem forall_mem_append_singleton {α : Type*} {P : α → Prop} (l : List α) (a : α) :
    (∀ b ∈ l ++ [a], P b) ↔ (∀ b ∈ l, P b) ∧ P a := by
  simp only [List.mem_append, List.mem_singleton, or_imp, forall_and, forall_eq]

theorem Shows.merge {l : List FrameInfo} {e : SlotTag} (h : Shows p.sti l j e) (hj : (j : ℤ) ≠ s.slotNum)
    (fi : FrameInfo) : Shows p.sti (l ++ [fi]) j (mergeSlot p s fi j e) := by
  by_cases hc : fi.Claims j
  · have hmem : fi ∈ l ++ [fi] := List.mem_append_right l List.mem_cons_self
    rw [mergeSlot_of_claims hj hc]
    exact ⟨fun _ => ⟨rfl, fi, hmem, hc, rfl⟩, fun hno => absurd hc (hno fi hmem),
      fun hno => absurd hc (hno fi hmem)⟩
  · -- the claims are those of `l`, and a claimed entry is left as it is
    have hclaims : (∃ f ∈ l ++ [fi], f.Claims j) ↔ ∃ f ∈ l, f.Claims j := by
      rw [exists_mem_append_singleton]
      exact or_iff_left hc
    have hkeep : (∃ f ∈ l, f.Claims j) → mergeSlot p s fi j e = e := by
      intro hl
      by_cases hr : fi.Relays p.sti j
      · rw [mergeSlot_of_relays hj hr, (h.claimed hl).1]
        exact if_neg nofun
      · exact mergeSlot_of_neither hj hc hr e
    refine ⟨fun hl => ?_, fun hno hrel => ?_, fun hno hnrel => ?_⟩
    · have hl' := hclaims.mp hl
      obtain ⟨hb, f, hf, hfc, hsti⟩ := h.claimed hl'
      rw [hkeep hl']
      exact ⟨hb, f, List.mem_append_left _ hf, hfc, hsti⟩
    · have hno' := ((forall_mem_append_singleton l fi).mp hno).1
      rw [exists_mem_append_singleton] at hrel
      by_cases hr : fi.Relays p.sti j
      · rw [mergeSlot_of_relays hj hr]
        by_cases hl : ∃ f ∈ l, f.Relays p.sti j
        · have hb := h.relayed hno' hl
          rw [if_neg (by rw [hb]; exact nofun)]
          exact hb
        · rw [if_pos (h.free hno' hl)]
      · rw [mergeSlot_of_neither hj hc hr]
        exact h.relayed hno' (hrel.resolve_right hr)
    · have hno' := ((forall_mem_append_singleton l fi).mp hno).1
      rw [exists_mem_append_singleton, not_or] at hnrel
      rw [mergeSlot_of_neither hj hc hnrel.2]
      exact h.free hno' hnrel.1

theorem shows_foldl (hj : (j : ℤ) ≠ s.slotNum) (l : List FrameInfo) :
    Shows p.sti l j (l.foldl (fun e fi => mergeSlot p s fi j e) {}) := by
  induction l using List.reverseRecOn with
  | nil =>
    have hnil : ∀ P : FrameInfo → Prop, ¬ ∃ fi ∈ ([] : List FrameInfo), P fi := by
      intro P h
      obtain ⟨fi, hfi, -⟩ := h
      cases hfi
    exact ⟨fun h => absurd h (hnil _), fun _ h => absurd h (hnil _), fun _ _ => rfl⟩
  | append_singleton l fi ih =>
    rw [List.foldl_append, List.foldl_cons, List.foldl_nil]
    exact ih.merge hj fi

theorem Shows.perm {own : ℕ} {l l' : List FrameInfo} {e : SlotTag} (h : Shows own l' j e) (hl : l'.Perm l) :
    Shows own l j e := by
  obtain ⟨hc, hr, hf⟩ := h
  simp only [hl.mem_iff] at hc hr hf
  exact ⟨hc, hr, hf⟩

theorem Shows.ordinaryVerdict_iff {own : ℕ} {l : List FrameInfo} {e : SlotTag} (h : Shows own l j e) :
    OrdinaryVerdict own l j e ↔ ¬ Disputed l j := by
  constructor
  · -- a disputed slot is shown as busy, never as a collision
    intro hv hdis
    obtain ⟨fi, hfi, -, -, hc, -⟩ := id hdis
    have hbusy := (h.claimed ⟨fi, hfi, hc⟩).1
    rw [hv.disputed hdis] at hbusy
    cases hbusy
  · intro hdis
    refine ⟨fun hd => absurd hd hdis, fun _ fi hfi hc => ?_, h.relayed, h.free⟩
    obtain ⟨hb, f, hf, hfc, hsti⟩ := h.claimed ⟨fi, hfi, hc⟩
    refine ⟨hb, ?_⟩
    rw [hsti]
    by_contra hne
    exact hdis ⟨f, hf, fi, hfi, hfc, hc, hne⟩

end ordinary

/-- **Any other slot.**  For every list of FIs, in whatever order they are merged, the entry of a slot other
than `slot_num_` is what it should be exactly when no two different senders claim the slot. -/
theorem ordinary_verdict_iff (p : Params) (s : Node) (l : List FrameInfo) (hl : l.Perm s.receivedFiList)
    (j : ℕ) (hj : (j : ℤ) ≠ s.slotNum) (hlt : j < p.frameLen) :
    OrdinaryVerdict p.sti s.receivedFiList j ((refresh p { s with receivedFiList := l }).slotDescribe j) ↔
      ¬ Disputed s.receivedFiList j := by
  have hentry : (refresh p { s with receivedFiList := l }).slotDescribe j
      = l.foldl (fun e fi => mergeSlot p (clearFi { s with receivedFiList := l }) fi j e) {} :=
    refresh_slotDescribe p { s with receivedFiList := l } hlt
  have hshows : Shows p.sti l j ((refresh p { s with receivedFiList := l }).slotDescribe j) := by
    rw [hentry]
    exact shows_foldl hj l
  exact (hshows.perm hl).ordinaryVerdict_iff

/-- Stations 5 and 6 both claim slot 0. -/
def disputedNode : Node :=
  { confirmed with
    receivedFiList := [report 5 0 { busy := .busy, sti := 5 }, report 6 0 { busy := .busy, sti := 6 }] }

/-- The entry shows the station whose FI comes last, not the collision. -/
theorem ordinary_verdict_disputed :
    Disputed disputedNode.receivedFiList 0 ∧
      ((refresh pairParams disputedNode).slotDescribe 0).busy = .busy ∧
      ((refresh pairParams disputedNode).slotDescribe 0).sti = 6 ∧
      ((refresh pairParams
        { disputedNode with receivedFiList := disputedNode.receivedFiList.reverse }).slotDescribe 0).sti = 5 ∧
      ¬ OrdinaryVerdict pairParams.sti disputedNode.receivedFiList 0
        ((refresh pairParams disputedNode).slotDescribe 0) := by
  have hdis : Disputed disputedNode.receivedFiList 0 :=
    ⟨_, List.mem_cons_self, _, List.mem_cons_of_mem _ List.mem_cons_self, by decide, by decide, by decide⟩
  have hbusy : ((refresh pairParams disputedNode).slotDescribe 0).busy = .busy := by decide
  refine ⟨hdis, hbusy, by decide, by decide, fun hv => ?_⟩
  have hdeny := hv.disputed hdis
  rw [hbusy] at hdeny
  cases hdeny

/-- Without a dispute the entry is right: station 6 alone claims slot 0. -/
theorem ordinary_verdict_claimed :
    ((refresh pairParams confirmed).slotDescribe 0).busy = .busy ∧
      ((refresh pairParams confirmed).slotDescribe 0).sti = 6 := by
  have hundis : ¬ Disputed confirmed.receivedFiList 0 := by
    rintro ⟨fi, hfi, fi', hfi', hc, hc', hne⟩
    have honly : ∀ f ∈ confirmed.receivedFiList, f.Claims 0 → f.sti = 6 := by
      refine List.forall_mem_cons.mpr ⟨fun _ => rfl, List.forall_mem_singleton.mpr fun h => ?_⟩
      exact absurd h (by decide)
    exact hne ((honly fi hfi hc).trans (honly fi' hfi' hc').symm)
  have hv := (ordinary_verdict_iff pairParams confirmed confirmed.receivedFiList (List.Perm.refl _) 0
    (by decide) (by decide)).mpr hundis
  exact hv.claimed hundis _ List.mem_cons_self (by decide)

end VanetTdma.Adhoc
