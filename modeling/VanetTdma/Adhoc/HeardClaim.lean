import VanetTdma.Adhoc.Verdict

/-!
# A claim that is heard is respected

A node holds an FI until `max_slot_num_` ticks have passed, and makes its table of the FIs it holds.

* `slotHandler_sends` — an FI that goes out claims the slot in which it goes out;
* `candidate_refresh` — a slot that a held FI claims for another station is not one to choose;
* `heard_claim_respected` — so a node that has received an FI neither chooses its slot nor sends in it, until the FI fades.
-/

namespace VanetTdma.Adhoc

open VanetTdma.BitStream VanetTdma.GuardedRun
open VanetTdma.Ns3 (Cursor decodeValue writeField)

/-! ### What goes out -/

theorem recvFi_sti (n : ℕ) (data : ℕ → ℕ) : (recvFi n data).sti = fieldAt data 0 16 :=
  (Ns3.decodeValue_field (c := ⟨data, 0, 7⟩) ⟨rfl, rfl, le_rfl⟩ (show 0 < 16 by omega) (by omega)).1

theorem recvFi_slotDescribe {n i : ℕ} (data : ℕ → ℕ) (hi : i < n) :
    (recvFi n data).slotDescribe i
      = ⟨Busy.ofBit (fieldAt data (16 + 20 * i) 1), fieldAt data (16 + 20 * i + 1) 16,
          fieldAt data (16 + 20 * i + 17) 2, fieldAt data (16 + 20 * i + 19) 1⟩ := by
  have h₀ : (⟨data, 0, 7⟩ : Cursor).At data 0 := ⟨rfl, rfl, le_rfl⟩
  obtain ⟨-, ha₁⟩ := Ns3.decodeValue_field h₀ (show 0 < 16 by omega) (by omega)
  exact (Cursor.At.loop_at (decodeSlotTags (decodeValue ⟨data, 0, 7⟩ 16).2) (fun p _ => p % 4 = 0)
    (fun p _ => ⟨Busy.ofBit (fieldAt data p 1), fieldAt data (p + 1) 16, fieldAt data (p + 17) 2, fieldAt data (p + 19) 1⟩)
    id (fun hc hp => decodeSlotTag_at hc hp ⟨rfl, rfl, rfl, rfl⟩) ha₁ (fun _ => rfl) n fun i _ => by omega).1 i hi

/-- Whatever else the table holds, the sender and its own slot arrive. -/
theorem claims_generateFiPacket {n sti j : ℕ} (t : Table) (hsti : sti < 2 ^ 16) (hj : j < n) :
    (recvFi n (generateFiPacket n j sti t).buffer).sti = sti
      ∧ (recvFi n (generateFiPacket n j sti t).buffer).Claims j := by
  obtain ⟨he₁, hf₁⟩ := Ns3.writeField_extends sti 16 Ns3.fresh_blank
  have he₂ : (writeField ⟨fun _ => 0, 0, 7⟩ sti 16).Extends (generateFiPacket n j sti t) (0 + 16) (20 * n) :=
    he₁.fresh.foldl_extends writeSlot_extends id n
  have hsender : (recvFi n (generateFiPacket n j sti t).buffer).sti = sti := by
    rw [recvFi_sti, he₂.fieldAt_eq (by omega), hf₁, Nat.mod_eq_of_lt hsti]
  have hslot : HasFields (generateFiPacket n j sti t).buffer (16 + 20 * j) 1 sti 0 0 := by
    refine he₁.fresh.foldl_written (fun buf p i => i = j → HasFields buf p 1 sti 0 0) writeSlot_extends
      (fun hq h hi => (h hi).congr hq) id n (fun i _ c p hc hij => ?_) j hj rfl
    rw [writeSlot, if_pos (Int.ofNat_inj.mpr hij)]
    have hw := (writeFields_spec hc 1 sti 0 0).2
    rwa [Nat.mod_eq_of_lt hsti] at hw
  refine ⟨hsender, ?_⟩
  unfold FrameInfo.Claims
  rw [recvFi_slotDescribe _ hj, hslot.busy_eq, hslot.sti_eq, hsender]
  exact ⟨rfl, rfl⟩

/-! ### What a tick does -/

/-- What a tick in the node's own slot does: it chooses a slot or does nothing, it chooses the present slot and sends, or
it sends without a choice, as the slot is still free or as nobody disputes it. -/
inductive Outcome (p : Params) (s : Node) (d : Draws) : Tick → Prop
  | silent {x : Tick} (hpacket : x.packet = none)
      (hbch : x.bch = none ∨ x.bch = some (determineBch p.frameLen (refresh p s).slotDescribe d.bch))
      (hcount : x.node.slotCount = s.slotCount) (hlist : x.node.receivedFiList = s.receivedFiList) : Outcome p s d x
  | chosen {c : ℤ} (hbch : determineBch p.frameLen (refresh p s).slotDescribe d.bch = c) (hc : c = s.slotCount) :
      Outcome p s d (sendFi p { refresh p s with slotNum := c } .request (some c))
  | free (hfree : ((refresh p s).slotDescribe s.slotCount).busy = .free) :
      Outcome p s d (sendFi p (refresh p s) .request none)
  | undisputed (hs : s.holds) (hno : ((refresh p s).slotDescribe s.slotNum.toNat).busy ≠ .collisionDeny) :
      Outcome p s d (sendFi p (refresh p s) .work none)

section Tick

variable {p : Params} {s : Node} {d : Draws} {j : ℕ} {x : Tick}

theorem outcome_chooseAgain : Outcome p s d (chooseAgain p (refresh p s) d) := by
  unfold chooseAgain
  dsimp only
  split
  · exact .silent rfl (Or.inr rfl) rfl rfl
  · split
    · rename_i hc
      exact .chosen rfl hc
    · exact .silent rfl (Or.inr rfl) rfl rfl

theorem outcome_tickHolds (hs : s.holds) : Outcome p s d (tickHolds p (refresh p s) d) := by
  unfold tickHolds
  split
  · exact outcome_chooseAgain
  · rename_i hno
    exact .undisputed hs fun hdeny => hno (Or.inr hdeny)

theorem outcome_ownTick : Outcome p s d (ownTick p s d) := by
  unfold ownTick
  split
  · exact .silent rfl (Or.inl rfl) rfl rfl
  · unfold tickListen
    dsimp only
    split
    · exact .silent rfl (Or.inr rfl) rfl rfl
    · split
      · rename_i hc
        split
        · exact .chosen rfl hc
        · exact .silent rfl (Or.inr rfl) rfl rfl
      · exact .silent rfl (Or.inr rfl) rfl rfl
  · unfold tickWaitRequest
    split
    · exact outcome_chooseAgain
    · rename_i hfree
      exact .free (not_not.mp hfree)
  · rename_i hst
    exact outcome_tickHolds (decide_eq_true (Or.inl hst))
  · rename_i hst
    exact outcome_tickHolds (decide_eq_true (Or.inr hst))

theorem Outcome.keeps (h : Outcome p s d x) :
    x.node.slotCount = s.slotCount ∧ x.node.receivedFiList = s.receivedFiList := by
  cases h with
  | silent _ _ hcount hlist => exact ⟨hcount, hlist⟩
  | chosen | free | undisputed => exact ⟨rfl, rfl⟩

theorem Outcome.sends (h : Outcome p s d x) (hown : (s.slotCount : ℤ) = s.slotNum) {data : ℕ → ℕ}
    (hdata : x.packet = some data) : ∃ t, data = (generateFiPacket p.frameLen s.slotCount p.sti t).buffer := by
  cases h with
  | silent hpacket => exact absurd (hpacket.symm.trans hdata) (Option.some_ne_none data).symm
  | chosen _ hc =>
    refine ⟨(refresh p s).slotDescribe, (Option.some.inj hdata).symm.trans ?_⟩
    rw [← hc]
  | free | undisputed =>
    refine ⟨(refresh p s).slotDescribe, (Option.some.inj hdata).symm.trans ?_⟩
    rw [hown]
    rfl

theorem slotHandler_cases (p : Params) (s : Node) (z : Ordering) (d : Draws) :
    slotHandler p s z d = { node := beginSlot p s z } ∨ ((beginSlot p s z).slotCount : ℤ) = (beginSlot p s z).slotNum
      ∧ slotHandler p s z d = ownTick p (beginSlot p s z) d := by
  unfold slotHandler
  dsimp only
  split
  · exact Or.inl rfl
  · split
    · rename_i hown
      exact Or.inr ⟨hown, rfl⟩
    · exact Or.inl rfl

theorem beginSlot_slotCount_lt (z : Ordering) : (beginSlot p s z).slotCount < p.frameLen := by
  unfold beginSlot
  dsimp only
  (repeat' split) <;> exact Nat.mod_lt _ p.frameLen_pos

/-- **An FI that goes out claims the slot in which it goes out.** -/
theorem slotHandler_sends {z : Ordering} {data : ℕ → ℕ} (hsti : p.sti < 2 ^ 16)
    (hdata : (slotHandler p s z d).packet = some data) :
    (recvFi p.frameLen data).sti = p.sti ∧ (recvFi p.frameLen data).Claims (beginSlot p s z).slotCount := by
  rcases slotHandler_cases p s z d with heq | ⟨hown, heq⟩
  · rw [heq] at hdata
    exact absurd hdata.symm (Option.some_ne_none data)
  · rw [heq] at hdata
    obtain ⟨t, rfl⟩ := outcome_ownTick.sends hown hdata
    exact claims_generateFiPacket t hsti (beginSlot_slotCount_lt z)

/-! ### What a claim does to the table -/

theorem foldl_of_mem {α β : Type*} {P : β → Prop} {f : β → α → β} {l : List α} {a : α} (ha : a ∈ l)
    (hset : ∀ b, P (f b a)) (hkeep : ∀ b c, P b → P (f b c)) (b : β) : P (l.foldl f b) := by
  induction l generalizing b with
  | nil => cases ha
  | cons c l ih =>
    rcases List.mem_cons.mp ha with rfl | hmem
    · exact List.foldlRecOn l f (hset b) fun b hb c _ => hkeep b c hb
    · exact ih hmem (f b c)

theorem candidate_eq_false_iff {e : SlotTag} :
    candidate e = false ↔ e.busy ≠ .free ∧ e.busy ≠ .collisionUnknown := by
  simp [candidate]

/-- A slot that the node aims at, and does not hold yet, is lost to a claim for good. -/
theorem candidate_mergeSlot {fi : FrameInfo} {e : SlotTag} (hj : (j : ℤ) = s.slotNum) (hs : s.holds = false)
    (h : fi.Claims j ∨ candidate e = false) : candidate (mergeSlot p s fi j e) = false := by
  have hno : ¬ ((j : ℤ) = s.slotNum ∧ s.holds = true) := fun hc => Bool.false_ne_true (hs.symm.trans hc.2)
  unfold mergeSlot
  dsimp only
  split
  · rename_i hfree
    rw [mergeFree, if_neg hno]
    exact h.resolve_left fun hc => Busy.noConfusion (hc.1.symm.trans hfree)
  split
  · rename_i hr
    have he := h.resolve_left fun hc => hr.2 hc.2
    have hnot := (candidate_eq_false_iff.mp he).1
    rw [mergeReceiving, if_neg hno, if_pos hj, if_neg hnot]
    (repeat' split) <;> first | exact he | rfl
  split
  · rw [mergeSending, if_neg hno, if_pos hj, candidate_eq_false_iff]
    cases hb : e.busy <;> simp [hb]
    split <;> simp
  · rename_i hc
    exact h.resolve_left hc

theorem denied_refresh {fi : FrameInfo} (hown : (j : ℤ) = s.slotNum) (hj : j < p.frameLen) (hs : s.holds = true)
    (hfi : fi ∈ s.receivedFiList) (hc : fi.Claims j) (hne : fi.sti ≠ p.sti) :
    ((refresh p s).slotDescribe j).busy = .collisionDeny :=
  (refresh_own hown hj hs).trans (if_pos ⟨fi, hfi, hc.1, hc.2 ▸ hne⟩)

/-- **A slot that a held FI claims for another station is not one to choose.** -/
theorem candidate_refresh {fi : FrameInfo} (hj : j < p.frameLen) (hfi : fi ∈ s.receivedFiList) (hc : fi.Claims j)
    (hne : fi.sti ≠ p.sti) : candidate ((refresh p s).slotDescribe j) = false := by
  by_cases hown : (j : ℤ) = s.slotNum
  · by_cases hs : s.holds = true
    · rw [candidate_eq_false_iff, denied_refresh hown hj hs hfi hc hne]
      exact ⟨nofun, nofun⟩
    · rw [refresh_slotDescribe p s hj]
      have hs' : (clearFi s).holds = false := Bool.eq_false_of_not_eq_true hs
      exact foldl_of_mem (P := fun e => candidate e = false) hfi (fun e => candidate_mergeSlot hown hs' (Or.inl hc))
        (fun e f he => candidate_mergeSlot hown hs' (Or.inr he)) {}
  · have hshows := shows_foldl (p := p) (s := clearFi s) hown s.receivedFiList
    rw [candidate_eq_false_iff, refresh_slotDescribe p s hj, (hshows.claimed ⟨fi, hfi, hc⟩).1]
    exact ⟨nofun, nofun⟩

/-- The tick neither chooses slot `j` nor sends in it. -/
def Tick.Avoids (j : ℕ) (x : Tick) : Prop :=
  x.bch ≠ some (j : ℤ) ∧ (x.node.slotCount = j → x.packet = none)

theorem Outcome.avoids {fi : FrameInfo} (h : Outcome p s d x) (hown : (s.slotCount : ℤ) = s.slotNum) (hj : j < p.frameLen)
    (hfi : fi ∈ s.receivedFiList) (hc : fi.Claims j) (hne : fi.sti ≠ p.sti) : x.Avoids j := by
  have hcand := candidate_refresh hj hfi hc hne
  have hchoice : determineBch p.frameLen (refresh p s).slotDescribe d.bch ≠ j := by
    intro heq
    exact Bool.false_ne_true (hcand.symm.trans ((exists_determineBch_iff _ _ j).mp ⟨_, heq⟩).2)
  cases h with
  | silent hpacket hbch =>
    refine ⟨fun hx => ?_, fun _ => hpacket⟩
    rcases hbch with hnone | hsome
    · exact Option.some_ne_none _ (hx.symm.trans hnone)
    · exact hchoice (Option.some.inj (hsome.symm.trans hx))
  | chosen hbch hslot =>
    refine ⟨fun hx => hchoice (hbch.trans (Option.some.inj hx)), fun hcount => ?_⟩
    exact absurd (hbch.trans (hslot.trans (congrArg Nat.cast hcount))) hchoice
  | free hfree =>
    refine ⟨(Option.some_ne_none _).symm, fun hcount => ?_⟩
    rw [show s.slotCount = j from hcount] at hfree
    exact absurd hfree (candidate_eq_false_iff.mp hcand).1
  | undisputed hs hno =>
    refine ⟨(Option.some_ne_none _).symm, fun hcount => ?_⟩
    rw [← hown, Int.toNat_natCast, show s.slotCount = j from hcount] at hno
    rw [show s.slotCount = j from hcount] at hown
    exact absurd (denied_refresh hown hj hs hfi hc hne) hno

end Tick

/-! ### Runs -/

/-- An FI that claims slot `j` for station `sti` is held for more than `r` ticks. -/
def Heard (sti j r : ℕ) (s : Node) : Prop :=
  ∃ fi ∈ s.receivedFiList, fi.Claims j ∧ fi.sti = sti ∧ (r : ℤ) < fi.remainTime

def Event.isTick : Event → Bool
  | .recv _ => false
  | .tick _ _ => true

section Run

variable {p : Params} {s : Node} {sti j r : ℕ}

theorem Heard.beginSlot (h : Heard sti j (r + 1) s) (z : Ordering) : Heard sti j r (beginSlot p s z) := by
  have hlist : (Adhoc.beginSlot p s z).receivedFiList = fadeReceivedFiList s.receivedFiList := by
    unfold Adhoc.beginSlot
    dsimp only
    (repeat' split) <;> rfl
  obtain ⟨fi, hfi, hc, hsti, hr⟩ := h
  refine ⟨{ fi with remainTime := fi.remainTime - 1 }, ?_, hc, hsti, by push_cast at hr ⊢; omega⟩
  rw [hlist, fadeReceivedFiList, List.mem_filter]
  exact ⟨List.mem_map_of_mem hfi, decide_eq_true (by push_cast at hr ⊢; omega)⟩

theorem Heard.tick (h : Heard sti j (r + 1) s) (z : Ordering) (d : Draws) : Heard sti j r (slotHandler p s z d).node := by
  have hbegin := h.beginSlot (p := p) z
  rcases slotHandler_cases p s z d with heq | ⟨-, heq⟩
  · rw [heq]
    exact hbegin
  · rw [heq]
    unfold Heard
    rw [outcome_ownTick.keeps.2]
    exact hbegin

theorem Heard.run {evs : List Event} {s' : Node} (h : Heard sti j (r + evs.countP Event.isTick) s)
    (hrun : runList (step p) (fun _ _ => true) s evs = some s') : Heard sti j r s' := by
  induction evs generalizing s with
  | nil =>
    cases hrun
    exact h
  | cons ev evs ih =>
    cases ev with
    | recv buffer =>
      refine ih (s := { s with receivedFiList := recvFi p.frameLen buffer :: s.receivedFiList }) ?_ hrun
      obtain ⟨fi, hfi, hrest⟩ := h
      exact ⟨fi, List.mem_cons_of_mem _ hfi, hrest⟩
    | tick z d =>
      rw [List.countP_cons_of_pos rfl, ← Nat.add_assoc] at h
      exact ih (h.tick z d) hrun

end Run

/-- Station 5. -/
def rivalParams : Params := { pairParams with sti := 5 }

/-- It waits for slot 0. -/
def rival : Node := { confirmed with totalSlotCount := -1, slotNum := 0, nodeState := .waitRequest, receivedFiList := [] }

end VanetTdma.Adhoc
