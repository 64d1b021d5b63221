import VanetTdma.Fpga.System

/-!
# Who has port B

The FI builder and the FCB search take turns on port B of the slot-status memory.  The builder is enabled from
its start to `FI_END`; after the build it starts the search and waits in `FI_WAIT_FCB` until the search is done.

* `Fi.tick_controls`, `Fcb.tick_controls` — the next states that are possible and the control registers after an
  edge, by the state before it;
* `Shared` — the builder and the search as two parties of one handshake; `shared_trace` for every run;
* `Shared.portB_fi`, `Shared.portB_fcb` — the signals on port B while one of them works.
-/

namespace VanetTdma.Fpga

open VanetTdma.Clocked VanetTdma.DualPort

/-! ### The FI builder -/

namespace FiState

def next : FiState → List FiState
  | idle => [idle, startPre, startRstBuf]
  | startRstBuf => [startRstBufLoop]
  | startRstBufLoop => [startRstBufLoop, startPre]
  | startPre => [start]
  | start => [loop1Pre]
  | loop1Pre => [loop1, adjIsNeededPre, setPktContentStart]
  | loop1 => [loop1Unlock]
  | loop1Unlock => [loop1Refresh]
  | loop1Refresh => [loop2]
  | loop2 => [loop2, loop2Wr, loop1Pre]
  | loop2Wr => [loop2, loop1Pre]
  | adjIsNeededPre => [adjIsNeeded]
  | adjIsNeeded => [adjWinnerPre, setPktContentStart]
  | adjWinnerPre => [adjWinner]
  | adjWinner => [adjFrameLen, setPktContentStart]
  | adjFrameLen => [setPktContentStart]
  | setPktContentStart => [setPktContentMid]
  | setPktContentMid => [setPktContentMid, setPktContentWait]
  | setPktContentWait => [setPktContentWait, setBufLenStart]
  | setBufLenStart => [setBufLenMid]
  | setBufLenMid => [setBufLenMid, setBufLenWait]
  | setBufLenWait => [setBufLenWait, setFrameLenStart]
  | setFrameLenStart => [setFrameLenMid]
  | setFrameLenMid => [setFrameLenMid, setFrameLenWait]
  | setFrameLenWait => [setFrameLenWait, calCksStart]
  | calCksStart => [calCksMid]
  | calCksMid => [calCksMid, calCksWait]
  | calCksWait => [calCksWait, setCksStart]
  | setCksStart => [setCksMid]
  | setCksMid => [setCksMid, setCksWait]
  | setCksWait => [setCksWait, startFcb]
  | startFcb => [waitFcb]
  | waitFcb => [waitFcb, fiEnd]
  | fiEnd => [fiEnd, idle]

/-- `slot_status_we_fi` after the state. -/
def weAfter (we : Bool) : FiState → Bool
  | loop1Refresh => true
  | loop2 => false
  | _ => we

/-- `blk_mem_slot_status_en_fi` after the state. -/
def enAfter (en : Bool) : FiState → Bool
  | startRstBuf => true
  | startPre => true
  | fiEnd => false
  | _ => en

/-- `fcb_start` after the state. -/
def fcbStartAfter (start : Bool) : FiState → Bool
  | startFcb => true
  | waitFcb => false
  | _ => start

/-- The states of a build, in which the builder has port B or waits for the search. -/
def building : FiState → Bool
  | idle => false
  | startRstBuf => false
  | startPre => false
  | fiEnd => false
  | _ => true

section Next

variable {st st' : FiState} {b : Bool}

theorem enAfter_of_building (hnext : st' ∈ st.next) (hb : st'.building = true)
    (hold : st.building = true → b = true) : st.enAfter b = true := by
  cases st <;> simp only [next, List.mem_cons, List.not_mem_nil, or_false] at hnext
  case idle => rcases hnext with rfl | rfl | rfl <;> exact nomatch hb
  case fiEnd => rcases hnext with rfl | rfl <;> exact nomatch hb
  case startRstBuf => rfl
  case startPre => rfl
  all_goals exact hold rfl

theorem enAfter_of_resting (hnext : st' ∈ st.next) (hrest : st' = .idle ∨ st' = .startRstBuf)
    (hold : st = .idle ∨ st = .startRstBuf → b = false) : st.enAfter b = false := by
  cases st <;> rcases hrest with rfl | rfl <;> simp_all [next, enAfter]

theorem eq_loop1Refresh_of_weAfter (h : st.weAfter b = true) (hold : b = true → st = .loop2) :
    st = .loop1Refresh := by
  cases st <;> simp_all [weAfter]

end Next

end FiState

namespace Fi

/-- What the FI builder's tick can do to its control registers. -/
structure Controls (f v : Fi) : Prop where
  state : v.state ∈ f.state.next
  we : v.we = f.state.weAfter f.we
  slotStatusEn : v.slotStatusEn = f.state.enAfter f.slotStatusEn
  fcbStart : v.fcbStart = f.state.fcbStartAfter f.fcbStart

section Controls

variable {f v : Fi}

theorem Controls.of_eq {st : FiState} (hst : f.state = st) (hnext : v.state ∈ st.next)
    (hwe : v.we = st.weAfter f.we) (hen : v.slotStatusEn = st.enAfter f.slotStatusEn)
    (hstart : v.fcbStart = st.fcbStartAfter f.fcbStart) : Controls f v := by
  subst hst
  exact ⟨hnext, hwe, hen, hstart⟩

end Controls

theorem idle_controls (i : FiIn) {f : Fi} (hst : f.state = .idle) : Controls f (f.idle i) := by
  unfold idle
  simp only
  split
  · exact Controls.of_eq hst (by simp [FiState.next]) rfl rfl rfl
  split
  · split
    · exact Controls.of_eq hst (by simp [FiState.next]) rfl rfl rfl
    · exact Controls.of_eq hst (by simp [FiState.next, hst]) rfl rfl rfl
  · exact Controls.of_eq hst (by simp [FiState.next, hst]) rfl rfl rfl

theorem loop2_controls {f : Fi} (hst : f.state = .loop2) : Controls f f.loop2 := by
  unfold loop2
  simp only
  split
  · exact Controls.of_eq hst (by simp [FiState.next]) rfl rfl rfl
  split
  · exact Controls.of_eq hst (by simp [FiState.next]) rfl rfl rfl
  · exact Controls.of_eq hst (by simp [FiState.next, hst]) rfl rfl rfl

theorem loop2Wr_controls {f : Fi} (hst : f.state = .loop2Wr) : Controls f f.loop2Wr := by
  unfold loop2Wr
  simp only
  split <;> exact Controls.of_eq hst (by simp [FiState.next]) rfl rfl rfl

theorem decide_controls (g : TdmaSetting) (i : FiIn) (f : Fi) :
    ((f.decideSlotAdj g i).decideHalve g i).we = f.we
      ∧ ((f.decideSlotAdj g i).decideHalve g i).slotStatusEn = f.slotStatusEn
      ∧ ((f.decideSlotAdj g i).decideHalve g i).fcbStart = f.fcbStart := by
  have hhalve : ∀ v : Fi, (v.decideHalve g i).we = v.we ∧ (v.decideHalve g i).slotStatusEn = v.slotStatusEn
      ∧ (v.decideHalve g i).fcbStart = v.fcbStart := by
    intro v
    unfold decideHalve
    split <;> exact ⟨rfl, rfl, rfl⟩
  obtain ⟨hwe, hen, hstart⟩ := hhalve (f.decideSlotAdj g i)
  rw [hwe, hen, hstart]
  unfold decideSlotAdj
  split
  · exact ⟨rfl, rfl, rfl⟩
  split
  · simp only
    split
    · exact ⟨rfl, rfl, rfl⟩
    split <;> exact ⟨rfl, rfl, rfl⟩
  · exact ⟨rfl, rfl, rfl⟩

theorem adjIsNeeded_controls (g : TdmaSetting) (i : FiIn) {f : Fi} (hst : f.state = .adjIsNeeded) :
    Controls f (f.adjIsNeeded g i) := by
  unfold adjIsNeeded
  simp only
  split
  · obtain ⟨hwe, hen, hstart⟩ := decide_controls g i { f with frameHalfEmpty := decide (f.CanCut g i) }
    exact Controls.of_eq hst (by simp [FiState.next]) hwe hen hstart
  · exact Controls.of_eq hst (by simp [FiState.next]) rfl rfl rfl

/-- **The control registers after an edge.** -/
theorem tick_controls (g : TdmaSetting) (i : FiIn) (f : Fi) : Controls f (f.tick g i) := by
  unfold tick
  split
  case h_1 hst => exact idle_controls i hst
  case h_10 hst => exact loop2_controls hst
  case h_11 hst => exact loop2Wr_controls hst
  case h_13 hst => exact adjIsNeeded_controls g i hst
  all_goals
    rename_i hst
    first
    | (split <;> exact Controls.of_eq hst (by simp [FiState.next, hst]) rfl rfl rfl)
    | (refine Controls.of_eq hst ?_ rfl rfl rfl
       simp only [FiState.next, loop1, adjWinner]
       first | (split <;> simp) | simp)

end Fi

/-! ### The FCB search -/

namespace FcbState

def next : FcbState → List FcbState
  | idle => [idle, start]
  | start => [rdLoop]
  | rdLoop => [selRanStart, clrC3h]
  | clrC3h => [clrSetaddr]
  | clrSetaddr => [clrSetaddrWait]
  | clrSetaddrWait => [rdLoop]
  | selRanStart => [selRanWait1, selRanWait2, done]
  | selRanWait1 => [selRanWait1, selRanStart]
  | selRanWait2 => [selRanWait2, done]
  | done => [done2]
  | done2 => [idle]

/-- `slot_status_we_fcb` after the state; the counts are cleared for a node past its start only. -/
def weAfter (start past we : Bool) : FcbState → Bool
  | idle => !start && we
  | clrC3h => past || we
  | clrSetaddr => false
  | _ => we

/-- `fcb_inprogress` after the state. -/
def inprogressAfter (start inprogress : Bool) : FcbState → Bool
  | idle => start || inprogress
  | done2 => false
  | _ => inprogress

/-- `fcb_done` after the state. -/
def doneAfter (done : Bool) : FcbState → Bool
  | idle => false
  | done2 => true
  | _ => done

section Next

variable {st st' : FcbState} {start past b : Bool}

theorem eq_clrC3h_of_weAfter (h : st.weAfter start past b = true) (hold : b = true → st = .clrSetaddr) :
    st = .clrC3h := by
  cases st <;> simp_all [weAfter]

theorem inprogressAfter_iff (hnext : st' ∈ st.next) (hst : st ≠ .idle) (hold : b = true) :
    st.inprogressAfter start b = true ↔ st' ≠ .idle := by
  cases st <;> simp_all [next, inprogressAfter]
  all_goals aesop

end Next

end FcbState

namespace Fcb

/-- What the search's tick can do to its control registers. -/
structure Controls (i : FcbIn) (f v : Fcb) : Prop where
  state : v.state ∈ f.state.next
  start : f.state = .idle → v.state = if i.fcbStart then .start else .idle
  we : v.we = f.state.weAfter i.fcbStart i.bchState.pastInit f.we
  inprogress : v.inprogress = f.state.inprogressAfter i.fcbStart f.inprogress
  done : v.done = f.state.doneAfter f.done

/-- The registers that the parts of the search leave alone. -/
structure Keeps (f v : Fcb) : Prop where
  we : v.we = f.we
  inprogress : v.inprogress = f.inprogress
  done : v.done = f.done
  addr : v.addr = f.addr

/-- The choice also leaves the input side of the FIFOs alone. -/
structure Chooses (f v : Fcb) : Prop extends Keeps f v where
  wrEnS1 : v.wrEnS1 = f.wrEnS1
  wrEnS2 : v.wrEnS2 = f.wrEnS2
  wrEnHalf : v.wrEnHalf = f.wrEnHalf

section Controls

variable {g : TdmaSetting} {i : FcbIn} {f v : Fcb}

theorem Controls.of_eq {st : FcbState} (hst : f.state = st) (hidle : st ≠ .idle) (hnext : v.state ∈ st.next)
    (hwe : v.we = st.weAfter i.fcbStart i.bchState.pastInit f.we)
    (hinprogress : v.inprogress = st.inprogressAfter i.fcbStart f.inprogress)
    (hdone : v.done = st.doneAfter f.done) : Controls i f v := by
  subst hst
  exact ⟨hnext, fun h => absurd h hidle, hwe, hinprogress, hdone⟩

theorem rdLoop_keeps : Keeps f (f.rdLoop g i) ∧ (f.rdLoop g i).state = .clrC3h := by
  unfold rdLoop
  simp only
  split
  · split <;> exact ⟨⟨rfl, rfl, rfl, rfl⟩, rfl⟩
  · split <;> exact ⟨⟨rfl, rfl, rfl, rfl⟩, rfl⟩

theorem Chooses.rfl : Chooses f f := ⟨⟨.refl _, .refl _, .refl _, .refl _⟩, .refl _, .refl _, .refl _⟩

theorem Chooses.trans {w : Fcb} (h : Chooses f v) (h' : Chooses v w) : Chooses f w where
  we := h'.we.trans h.we
  inprogress := h'.inprogress.trans h.inprogress
  done := h'.done.trans h.done
  addr := h'.addr.trans h.addr
  wrEnS1 := h'.wrEnS1.trans h.wrEnS1
  wrEnS2 := h'.wrEnS2.trans h.wrEnS2
  wrEnHalf := h'.wrEnHalf.trans h.wrEnHalf

theorem pick_chooses (count : ℕ) :
    Chooses f (f.pick count) ∧ ((f.pick count).state = .selRanWait1 ∨ (f.pick count).state = .selRanWait2) := by
  unfold pick
  split
  · exact ⟨⟨⟨rfl, rfl, rfl, rfl⟩, rfl, rfl, rfl⟩, Or.inr rfl⟩
  · exact ⟨⟨⟨rfl, rfl, rfl, rfl⟩, rfl, rfl, rfl⟩, Or.inl rfl⟩

theorem selRanStart_chooses : Chooses f (f.selRanStart g i)
    ∧ ((f.selRanStart g i).state = .selRanWait1 ∨ (f.selRanStart g i).state = .selRanWait2
      ∨ (f.selRanStart g i).state = .done) := by
  have hpick : ∀ count, Chooses f (f.pick count)
      ∧ ((f.pick count).state = .selRanWait1 ∨ (f.pick count).state = .selRanWait2
        ∨ (f.pick count).state = .done) := by
    intro count
    obtain ⟨hchooses, hst⟩ := @pick_chooses f count
    exact ⟨hchooses, hst.elim Or.inl fun h => Or.inr (Or.inl h)⟩
  unfold selRanStart
  split
  · exact hpick _
  split
  · split
    · exact hpick _
    split
    · exact hpick _
    · exact ⟨⟨⟨rfl, rfl, rfl, rfl⟩, rfl, rfl, rfl⟩, Or.inr (Or.inr rfl)⟩
  split
  · exact hpick _
  · exact ⟨⟨⟨rfl, rfl, rfl, rfl⟩, rfl, rfl, rfl⟩, Or.inr (Or.inr rfl)⟩

theorem advance_chooses : Chooses f f.advance ∧ (f.advance.state = f.state ∨ f.advance.state = .done) := by
  unfold advance
  split
  · exact ⟨⟨⟨rfl, rfl, rfl, rfl⟩, rfl, rfl, rfl⟩, Or.inr rfl⟩
  · exact ⟨⟨⟨rfl, rfl, rfl, rfl⟩, rfl, rfl, rfl⟩, Or.inl rfl⟩

theorem selRanWait2_chooses : Chooses f (f.selRanWait2 g i)
    ∧ ((f.selRanWait2 g i).state = f.state ∨ (f.selRanWait2 g i).state = .done) := by
  have hadv : ∀ v : Fcb, Chooses f v → v.state = f.state →
      Chooses f v.advance ∧ (v.advance.state = f.state ∨ v.advance.state = .done) := by
    intro v hv hst
    obtain ⟨hchooses, hnext⟩ := @advance_chooses v
    rw [hst] at hnext
    exact ⟨hv.trans hchooses, hnext⟩
  unfold selRanWait2
  split
  · exact hadv _ ⟨⟨rfl, rfl, rfl, rfl⟩, rfl, rfl, rfl⟩ rfl
  split
  · split
    · exact hadv _ ⟨⟨rfl, rfl, rfl, rfl⟩, rfl, rfl, rfl⟩ rfl
    split
    · split <;> exact hadv _ ⟨⟨rfl, rfl, rfl, rfl⟩, rfl, rfl, rfl⟩ rfl
    · exact ⟨Chooses.rfl, Or.inl rfl⟩
  split
  · exact ⟨⟨⟨rfl, rfl, rfl, rfl⟩, rfl, rfl, rfl⟩, Or.inl rfl⟩
  · exact ⟨⟨⟨rfl, rfl, rfl, rfl⟩, rfl, rfl, rfl⟩, Or.inr rfl⟩

theorem idle_controls (hst : f.state = .idle) : Controls i f (f.tick g i) := by
  unfold tick
  simp only [hst]
  cases hs : i.fcbStart <;>
    (refine ⟨?_, fun _ => ?_, ?_, ?_, ?_⟩ <;> simp [hst, hs, FcbState.next, FcbState.weAfter,
      FcbState.inprogressAfter, FcbState.doneAfter])

theorem clrC3h_controls (hst : f.state = .clrC3h) : Controls i f (f.tick g i) := by
  unfold tick
  simp only [hst]
  split
  · rename_i hpast
    refine Controls.of_eq hst FcbState.noConfusion (by simp [FcbState.next]) ?_ rfl rfl
    simp [FcbState.weAfter, hpast]
  · rename_i hpast
    refine Controls.of_eq hst FcbState.noConfusion (by simp [FcbState.next]) ?_ rfl rfl
    simp [FcbState.weAfter, hpast, noWrite]

/-- **The control registers after an edge.** -/
theorem tick_controls (g : TdmaSetting) (i : FcbIn) (f : Fcb) : Controls i f (f.tick g i) := by
  by_cases hidle : f.state = .idle
  · exact idle_controls hidle
  by_cases hclr : f.state = .clrC3h
  · exact clrC3h_controls hclr
  unfold tick
  split
  case h_1 hst => exact absurd hst hidle
  case h_3 hst =>
    split
    · exact Controls.of_eq hst FcbState.noConfusion (by simp [FcbState.next]) rfl rfl rfl
    · obtain ⟨hkeeps, hnext⟩ := @rdLoop_keeps g i f
      exact Controls.of_eq hst FcbState.noConfusion (by simp [FcbState.next, hnext]) hkeeps.we
        hkeeps.inprogress hkeeps.done
  case h_4 hst => exact absurd hst hclr
  case h_7 hst =>
    obtain ⟨hkeeps, hnext⟩ := @selRanStart_chooses g i f
    exact Controls.of_eq hst FcbState.noConfusion (by simpa [FcbState.next] using hnext) hkeeps.we
      hkeeps.inprogress hkeeps.done
  case h_8 hst =>
    simp only
    split <;> exact Controls.of_eq hst FcbState.noConfusion (by simp [FcbState.next, hst]) rfl rfl rfl
  case h_9 hst =>
    obtain ⟨hkeeps, hnext⟩ := @selRanWait2_chooses g i f
    rw [hst] at hnext
    exact Controls.of_eq hst FcbState.noConfusion (by simpa [FcbState.next] using hnext) hkeeps.we
      hkeeps.inprogress hkeeps.done
  all_goals
    rename_i hst
    exact Controls.of_eq hst FcbState.noConfusion (by simp [FcbState.next]) rfl rfl rfl

end Controls

end Fcb

/-! ### The handshake of the two -/

namespace System

/-- The phases of a search that the FI builder starts. -/
inductive Search (s : System) : Prop
  | none (hfi : s.fi.state ≠ .waitFcb) (hstart : s.fi.fcbStart = false) (hfcb : s.fcb.state = .idle)
      (hdone : s.fcb.done = false)
  | asked (hfi : s.fi.state = .waitFcb) (hstart : s.fi.fcbStart = true) (hfcb : s.fcb.state = .idle)
      (hdone : s.fcb.done = false)
  | searching (hfi : s.fi.state = .waitFcb) (hstart : s.fi.fcbStart = false) (hfcb : s.fcb.state ≠ .idle)
      (hdone : s.fcb.done = false)
  | answered (hfi : s.fi.state = .waitFcb) (hstart : s.fi.fcbStart = false) (hfcb : s.fcb.state = .idle)
      (hdone : s.fcb.done = true)

/-- What the builder and the search keep in every run. -/
structure Shared (s : System) : Prop where
  search : s.Search
  fiWe : s.fi.we = true → s.fi.state = .loop2
  fcbWe : s.fcb.we = true → s.fcb.state = .clrSetaddr
  inprogress : s.fcb.inprogress = true ↔ s.fcb.state ≠ .idle
  enabled : s.fi.state.building = true → s.fi.slotStatusEn = true
  resting : s.fi.state = .idle ∨ s.fi.state = .startRstBuf → s.fi.slotStatusEn = false

section Step

variable {g : TdmaSetting} {s : System} {i : Cycle}

theorem fi_controls : Fi.Controls s.fi (s.tick g i).fi := Fi.tick_controls g (s.fiIn i) s.fi

theorem fcb_controls : Fcb.Controls (s.fcbIn i) s.fcb (s.tick g i).fcb :=
  Fcb.tick_controls g (s.fcbIn i) s.fcb

theorem tick_fi_of_ne_waitFcb (hfi : s.fi.state ≠ .waitFcb) (hstart : s.fi.fcbStart = false) :
    (s.tick g i).fi.state ≠ .waitFcb ∧ (s.tick g i).fi.fcbStart = false
      ∨ (s.tick g i).fi.state = .waitFcb ∧ (s.tick g i).fi.fcbStart = true := by
  obtain ⟨hnext, -, -, hs⟩ := @fi_controls g s i
  by_cases hst : s.fi.state = .startFcb
  · rw [hst] at hnext hs
    exact Or.inr ⟨List.mem_singleton.mp hnext, hs⟩
  · left
    constructor
    · intro hc
      rw [hc] at hnext
      revert hnext hst hfi
      cases s.fi.state <;> simp [FiState.next]
    · rw [hs]
      revert hst
      cases s.fi.state <;> simp [FiState.fcbStartAfter, hstart]

theorem tick_fi_of_waitFcb (hfi : s.fi.state = .waitFcb) :
    (s.tick g i).fi.fcbStart = false
      ∧ (s.tick g i).fi.state = if s.fcb.done then .fiEnd else .waitFcb := by
  change (s.fi.tick g (s.fiIn i)).fcbStart = false ∧ (s.fi.tick g (s.fiIn i)).state = _
  rw [Fi.tick, hfi]
  exact ⟨rfl, rfl⟩

theorem tick_fcb_of_idle (hfcb : s.fcb.state = .idle) :
    (s.tick g i).fcb.done = false
      ∧ (s.tick g i).fcb.state = if s.fi.fcbStart then .start else .idle := by
  obtain ⟨-, hstart, -, -, hdone⟩ := @fcb_controls g s i
  rw [hfcb] at hdone
  exact ⟨hdone, hstart hfcb⟩

theorem tick_fcb_of_rest (hfcb : s.fcb.state = .idle) (hstart : s.fi.fcbStart = false) :
    (s.tick g i).fcb = { s.fcb with done := false } := by
  change s.fcb.tick g (s.fcbIn i) = _
  have hlow : ¬ (s.fcbIn i).fcbStart = true := by
    change ¬ s.fi.fcbStart = true
    rw [hstart]
    exact Bool.false_ne_true
  unfold Fcb.tick
  split
  case h_1 => exact if_neg hlow
  all_goals
    rename_i hst
    exact FcbState.noConfusion (hfcb.symm.trans hst)

theorem tick_fcb_of_busy (hfcb : s.fcb.state ≠ .idle) (hdone : s.fcb.done = false) :
    (s.tick g i).fcb.state ≠ .idle ∧ (s.tick g i).fcb.done = false
      ∨ (s.tick g i).fcb.state = .idle ∧ (s.tick g i).fcb.done = true := by
  obtain ⟨hnext, -, -, -, hd⟩ := @fcb_controls g s i
  by_cases hst : s.fcb.state = .done2
  · rw [hst] at hnext hd
    exact Or.inr ⟨List.mem_singleton.mp hnext, hd⟩
  · left
    constructor
    · intro hc
      rw [hc] at hnext
      revert hnext hst hfcb
      cases s.fcb.state <;> simp [FcbState.next]
    · rw [hd]
      revert hst
      cases s.fcb.state <;> simp [FcbState.doneAfter, hdone]

theorem Search.tick (h : s.Search) : (s.tick g i).Search := by
  cases h with
  | none hfi hstart hfcb hdone =>
    obtain ⟨hdone', hfcb'⟩ := @tick_fcb_of_idle g s i hfcb
    rw [hstart] at hfcb'
    rcases @tick_fi_of_ne_waitFcb g s i hfi hstart with ⟨hfi', hstart'⟩ | ⟨hfi', hstart'⟩
    · exact Search.none hfi' hstart' hfcb' hdone'
    · exact Search.asked hfi' hstart' hfcb' hdone'
  | asked hfi hstart hfcb hdone =>
    obtain ⟨hdone', hfcb'⟩ := @tick_fcb_of_idle g s i hfcb
    obtain ⟨hstart', hfi'⟩ := @tick_fi_of_waitFcb g s i hfi
    rw [hstart] at hfcb'
    rw [hdone] at hfi'
    refine Search.searching hfi' hstart' ?_ hdone'
    rw [hfcb']
    exact nofun
  | searching hfi hstart hfcb hdone =>
    obtain ⟨hstart', hfi'⟩ := @tick_fi_of_waitFcb g s i hfi
    rw [hdone] at hfi'
    rcases @tick_fcb_of_busy g s i hfcb hdone with ⟨hfcb', hdone'⟩ | ⟨hfcb', hdone'⟩
    · exact Search.searching hfi' hstart' hfcb' hdone'
    · exact Search.answered hfi' hstart' hfcb' hdone'
  | answered hfi hstart hfcb hdone =>
    obtain ⟨hdone', hfcb'⟩ := @tick_fcb_of_idle g s i hfcb
    obtain ⟨hstart', hfi'⟩ := @tick_fi_of_waitFcb g s i hfi
    rw [hstart] at hfcb'
    rw [hdone] at hfi'
    refine Search.none ?_ hstart' hfcb' hdone'
    rw [hfi']
    exact nofun

theorem Search.fcb_idle (h : s.Search) (hfi : s.fi.state ≠ .waitFcb) : s.fcb.state = .idle := by
  cases h with
  | none _ _ hfcb => exact hfcb
  | asked hw => exact absurd hw hfi
  | searching hw => exact absurd hw hfi
  | answered hw => exact absurd hw hfi

theorem Search.waitFcb (h : s.Search) (hfcb : s.fcb.state ≠ .idle) : s.fi.state = .waitFcb := by
  by_contra hfi
  exact hfcb (h.fcb_idle hfi)

/-- **A cycle of the two.** -/
theorem Shared.tick (h : s.Shared) : (s.tick g i).Shared := by
  obtain ⟨hnext, hwe, hen, -⟩ := @fi_controls g s i
  obtain ⟨hnext', -, hwe', hinprogress, -⟩ := @fcb_controls g s i
  refine ⟨h.search.tick, ?_, ?_, ?_, ?_, ?_⟩
  · intro hc
    rw [hwe] at hc
    rw [FiState.eq_loop1Refresh_of_weAfter hc h.fiWe] at hnext
    exact List.mem_singleton.mp hnext
  · intro hc
    rw [hwe'] at hc
    rw [FcbState.eq_clrC3h_of_weAfter hc h.fcbWe] at hnext'
    exact List.mem_singleton.mp hnext'
  · by_cases hst : s.fcb.state = .idle
    · have hlow : s.fcb.inprogress = false := by
        rw [← Bool.not_eq_true, h.inprogress]
        exact fun hne => hne hst
      rw [hinprogress, (@tick_fcb_of_idle g s i hst).2, hst, FcbState.inprogressAfter, hlow]
      change (s.fi.fcbStart || false) = true ↔ _
      cases s.fi.fcbStart <;> simp
    · rw [hinprogress]
      exact FcbState.inprogressAfter_iff hnext' hst (h.inprogress.mpr hst)
  · intro hb
    rw [hen]
    exact FiState.enAfter_of_building hnext hb h.enabled
  · intro hrest
    rw [hen]
    exact FiState.enAfter_of_resting hnext hrest h.resting

theorem shared_reset (len : BitVec 10) : (reset len).Shared where
  search := Search.none nofun rfl rfl rfl
  fiWe := fun h => nomatch h
  fcbWe := fun h => nomatch h
  inprogress := ⟨fun h => absurd h Bool.false_ne_true, fun h => absurd rfl h⟩
  enabled := fun h => nomatch h
  resting := fun _ => rfl

theorem shared_trace (g : TdmaSetting) (inp : ℕ → Cycle) (len : BitVec 10) (n : ℕ) :
    (trace (System.tick g) inp (reset len) n).Shared := by
  induction n with
  | zero => exact shared_reset len
  | succ n ih => exact ih.tick

end Step

/-! ### The signals on port B -/

section Signals

variable {s : System}

theorem Shared.portB_fcb (h : s.Shared) (hfcb : s.fcb.state ≠ .idle) : s.portB = s.fcb.portB := by
  rw [portB, if_pos (h.inprogress.mpr hfcb)]

theorem Shared.inprogress_false (h : s.Shared) (hfcb : s.fcb.state = .idle) : s.fcb.inprogress = false := by
  rw [← Bool.not_eq_true, h.inprogress]
  exact fun hne => hne hfcb

theorem Shared.portB_fi (h : s.Shared) (hb : s.fi.state.building = true) (hw : s.fi.state ≠ .waitFcb) :
    s.portB = s.fi.portB := by
  rw [portB, h.inprogress_false (h.search.fcb_idle hw), if_neg Bool.false_ne_true, if_pos (h.enabled hb)]

/-- **Port B loses no write of the table machines.**  In every run the builder and the search never write in the same
cycle, and whichever of them writes has the port. -/
theorem portB_carries_writes (g : TdmaSetting) (inp : ℕ → Cycle) (len : BitVec 10) (n : ℕ) :
    ¬ ((run g inp len n).fi.we = true ∧ (run g inp len n).fcb.we = true)
      ∧ ((run g inp len n).fi.we = true → (run g inp len n).portB = (run g inp len n).fi.portB)
      ∧ ((run g inp len n).fcb.we = true → (run g inp len n).portB = (run g inp len n).fcb.portB) := by
  have h := shared_trace g inp len n
  have hwait : (run g inp len n).fi.we = true → (run g inp len n).fi.state ≠ .waitFcb := by
    intro hfi
    rw [h.fiWe hfi]
    exact FiState.noConfusion
  have hbusy : (run g inp len n).fcb.we = true → (run g inp len n).fcb.state ≠ .idle := by
    intro hfcb
    rw [h.fcbWe hfcb]
    exact FcbState.noConfusion
  refine ⟨?_, ?_, fun hfcb => h.portB_fcb (hbusy hfcb)⟩
  · rintro ⟨hfi, hfcb⟩
    exact hwait hfi (h.search.waitFcb (hbusy hfcb))
  · intro hfi
    exact h.portB_fi (by rw [h.fiWe hfi]; rfl) (hwait hfi)

end Signals

end System

end VanetTdma.Fpga
