import VanetTdma.Lib.Visits
import VanetTdma.Fpga.PortB

/-!
# The scans of the slot table

The FI builder and the FCB search each walk over the slot table with a seven-bit address and leave the loop when
the address equals the frame length.

* `Fi.visits_frame`, `Fcb.visits_frame` — for lengths below 128 a scan looks at the slots of the frame in order,
  each once, and leaves the loop, whatever the table holds;
* `Fi.scanning_tick_of_long`, `Fcb.scanning_tick_of_long` — from 128 slots on the address never equals the length;
* `table_scans_iff` — both facts for the two machines in the system, for the lengths of the case table.
-/

namespace VanetTdma.Fpga

open VanetTdma.Clocked

/-! ### The FI builder -/

/-- The slot loop of the FI builder, from `FI_START` on. -/
def FiState.scanning : FiState → Bool
  | start | loop1Pre | loop1 | loop1Unlock | loop1Refresh | loop2 | loop2Wr => true
  | _ => false

namespace Fi

def look (f : Fi) : Option ℕ := if f.state = .loop1 then some f.addr.toNat else none

/-- A scan, as far as the cycles of a slot go. -/
abbrev Scan (g : TdmaSetting) (len : BitVec 10) (P : Fi → Prop) : List ℕ → Fi → Prop :=
  Visits look (fun f i => Fi.tick g i f) (fun i => i.currFrameLen = len)
    (fun f => f.state.scanning = true) P

/-- Slot `a` comes next. -/
def At (a : ℕ) (f : Fi) : Prop := f.state = .loop1Pre ∧ f.addr.toNat = a

/-- `k` bits of the tag of slot `a` are out. -/
def Bits (a k : ℕ) (f : Fi) : Prop :=
  f.state = .loop2 ∧ f.addr.toNat = a ∧ f.fiPerSlotIndex.toNat = k

section Scan

variable {g : TdmaSetting} {len : BitVec 10} {P : Fi → Prop} {f : Fi} {a k : ℕ} {l : List ℕ}

theorem scan_blind {st : FiState} (hst : f.state = st) (hscan : st.scanning = true) (hne : st ≠ .loop1)
    (h : ∀ i, i.currFrameLen = len → Scan g len P l (f.tick g i)) : Scan g len P l f := by
  refine Visits.blind ?_ (by rw [hst]; exact hscan) h
  exact if_neg (by rw [hst]; exact hne)

theorem toNat_addr_succ (haddr : f.addr.toNat = a) (ha : a < 127) : (f.addr + 1).toNat = a + 1 := by
  rw [BitVec.toNat_add, haddr]
  exact Nat.mod_eq_of_lt (by simpa using (by omega : a + 1 < 128))

theorem toNat_index_succ (hk : f.fiPerSlotIndex.toNat = k) (hlt : k < 14) :
    (f.fiPerSlotIndex + 1).toNat = k + 1 := by
  rw [BitVec.toNat_add, hk]
  exact Nat.mod_eq_of_lt (by simpa using (by omega : k + 1 < 32))

/-- One bit on: the next bit of the tag, or the next slot. -/
def Onward (a k : ℕ) (f : Fi) : Prop := if k + 1 = fiPerSlotBitsnum then At (a + 1) f else Bits a (k + 1) f

theorem Bits.loop2 (h : Bits a k f) (hk : k < 14) (ha : a < 127) :
    f.loop2.Onward a k
      ∨ f.loop2.state = .loop2Wr ∧ f.loop2.addr.toNat = a ∧ f.loop2.fiPerSlotIndex.toNat = k + 1 := by
  obtain ⟨hst, haddr, hidx⟩ := h
  have hsucc := toNat_index_succ hidx hk
  unfold Onward Fi.loop2
  simp only [hsucc]
  by_cases hfull : BitVec.ofNat 7 ((f.bitFiIndex.toNat + 1) % 32) = 0
  · rw [if_pos hfull]
    exact Or.inr ⟨rfl, haddr, hsucc⟩
  · rw [if_neg hfull]
    left
    by_cases hlast : k + 1 = fiPerSlotBitsnum
    · rw [if_pos hlast, if_pos hlast]
      exact ⟨rfl, toNat_addr_succ haddr ha⟩
    · rw [if_neg hlast, if_neg hlast]
      exact ⟨hst, haddr, hsucc⟩

theorem onward_loop2Wr (haddr : f.addr.toNat = a) (hidx : f.fiPerSlotIndex.toNat = k + 1) (ha : a < 127) :
    f.loop2Wr.Onward a k := by
  unfold Onward loop2Wr
  simp only [hidx]
  by_cases hlast : k + 1 = fiPerSlotBitsnum
  · rw [if_pos hlast, if_pos hlast]
    exact ⟨rfl, toNat_addr_succ haddr ha⟩
  · rw [if_neg hlast, if_neg hlast]
    exact ⟨rfl, haddr, hidx⟩

theorem Bits.scan (h : Bits a k f) (hk : k < 14) (ha : a < 127) : Scan g len (Onward a k) [] f := by
  refine scan_blind h.1 rfl FiState.noConfusion fun i _ => ?_
  have htick : f.tick g i = f.loop2 := by rw [tick, h.1]
  rw [htick]
  rcases h.loop2 hk ha with hon | ⟨hst, haddr, hidx⟩
  · exact Visits.here hon
  · refine scan_blind hst rfl FiState.noConfusion fun i _ => Visits.here ?_
    have hwr : f.loop2.tick g i = f.loop2.loop2Wr := by rw [tick, hst]
    rw [hwr]
    exact onward_loop2Wr haddr hidx ha

theorem Bits.scan_slot (h : Bits a k f) (hk : k < 14) (ha : a < 127) : Scan g len (At (a + 1)) [] f := by
  obtain ⟨d, hd⟩ : ∃ d, 13 = k + d := ⟨13 - k, by omega⟩
  induction d generalizing k f with
  | zero =>
    refine (h.scan hk ha).trans fun v hv => Visits.here ?_
    rwa [Onward, if_pos (show k + 1 = fiPerSlotBitsnum from by rw [fiPerSlotBitsnum]; omega)] at hv
  | succ d ih =>
    refine (h.scan hk ha).trans fun v hv => ?_
    rw [Onward, if_neg (show k + 1 ≠ fiPerSlotBitsnum from by rw [fiPerSlotBitsnum]; omega)] at hv
    exact ih hv (by omega) (by omega)

/-- **One slot** of the frame. -/
theorem At.scan_slot (h : At a f) (hne : a ≠ len.toNat) (ha : a < 127) :
    Scan g len (At (a + 1)) [a] f := by
  obtain ⟨hst, haddr⟩ := h
  refine scan_blind hst rfl FiState.noConfusion fun i hi => ?_
  have hpre : f.tick g i = { f with state := .loop1 } := by
    rw [tick, hst]
    exact if_neg (by rw [haddr, hi]; exact hne)
  rw [hpre]
  refine Visits.sees (by simp [look, haddr]) rfl fun i _ => ?_
  refine scan_blind rfl rfl FiState.noConfusion fun i _ => ?_
  refine scan_blind rfl rfl FiState.noConfusion fun i _ => ?_
  exact Bits.scan_slot (k := 0) ⟨rfl, haddr, rfl⟩ (by decide) ha

/-- **The scan of the frame**, from `FI_START` to the exit of `FI_LOOP_1_PRE`. -/
theorem visits_frame (hst : f.state = .start) (haddr : f.addr = 0) (hlen : len.toNat < 128) :
    Scan g len (fun v => v.state.scanning = false) (List.range len.toNat) f := by
  have hframe : Scan g len (At len.toNat) (List.range len.toNat) f := by
    refine scan_blind hst rfl FiState.noConfusion fun i _ => ?_
    have htick : At 0 (f.tick g i) := by
      rw [tick, hst]
      exact ⟨rfl, by rw [haddr]; rfl⟩
    rw [List.range_eq_range']
    exact Visits.range' (fun b v hb hv => hv.scan_slot (Nat.ne_of_lt hb) (by omega)) htick (Nat.zero_add _).symm
  have hexit : ∀ v, At len.toNat v → Scan g len (fun v => v.state.scanning = false) [] v := by
    rintro v ⟨hst, haddr⟩
    refine scan_blind hst rfl FiState.noConfusion fun i hi => Visits.here ?_
    rw [tick, hst]
    simp only
    rw [if_pos (by rw [haddr, hi])]
    split <;> rfl
  have hall := hframe.trans hexit
  rwa [List.append_nil] at hall

theorem scanning_tick_of_long {i : FiIn} (hlen : 128 ≤ i.currFrameLen.toNat) (h : f.state.scanning = true) :
    (f.tick g i).state.scanning = true := by
  by_cases hpre : f.state = .loop1Pre
  · have hne : f.addr.toNat ≠ i.currFrameLen.toNat := by
      have := f.addr.isLt
      omega
    rw [tick, hpre]
    simp only
    rw [if_neg hne]
    rfl
  · have hnext := (tick_controls g i f).state
    revert hnext
    generalize (f.tick g i).state = n
    revert h hpre
    cases f.state <;> simp [FiState.scanning, FiState.next]
    all_goals
      intro hn
      rcases hn with rfl | rfl | rfl <;> rfl

end Scan

end Fi

/-! ### The FCB search -/

/-- The read loop of the search. -/
def FcbState.scanning : FcbState → Bool
  | start | rdLoop | clrC3h | clrSetaddr | clrSetaddrWait => true
  | _ => false

namespace Fcb

/-- The slot that the search looks at; at the end of the frame it looks at none. -/
def look (len : BitVec 10) (f : Fcb) : Option ℕ :=
  if f.state = .rdLoop ∧ f.addr.toNat ≠ len.toNat then some f.addr.toNat else none

abbrev Scan (g : TdmaSetting) (len : BitVec 10) (P : Fcb → Prop) : List ℕ → Fcb → Prop :=
  Visits (look len) (fun f i => Fcb.tick g i f) (fun i => i.currFrameLen = len)
    (fun f => f.state.scanning = true) P

/-- Slot `a` comes next. -/
def At (a : ℕ) (f : Fcb) : Prop := f.state = .rdLoop ∧ f.addr.toNat = a

section Scan

variable {g : TdmaSetting} {len : BitVec 10} {P : Fcb → Prop} {f : Fcb} {a : ℕ} {l : List ℕ}

theorem scan_blind {st : FcbState} (hst : f.state = st) (hscan : st.scanning = true) (hne : st ≠ .rdLoop)
    (h : ∀ i, i.currFrameLen = len → Scan g len P l (f.tick g i)) : Scan g len P l f := by
  refine Visits.blind ?_ (by rw [hst]; exact hscan) h
  exact if_neg fun hc => hne (hst.symm.trans hc.1)

/-- **One slot** of the frame. -/
theorem At.scan_slot (h : At a f) (hne : a ≠ len.toNat) (ha : a < 127) :
    Scan g len (At (a + 1)) [a] f := by
  obtain ⟨hst, haddr⟩ := h
  refine Visits.sees ?_ (by rw [hst]; rfl) fun i hi => ?_
  · exact (if_pos ⟨hst, by rw [haddr]; exact hne⟩).trans (by rw [haddr])
  have hread : (f.tick g i).state = .clrC3h ∧ (f.tick g i).addr = f.addr := by
    have htick : f.tick g i = f.rdLoop g i := by
      rw [tick, hst]
      exact if_neg (by rw [haddr, hi]; exact hne)
    rw [htick]
    exact ⟨rdLoop_keeps.2, rdLoop_keeps.1.addr⟩
  generalize f.tick g i = v at hread
  obtain ⟨hst, hsame⟩ := hread
  refine scan_blind hst rfl nofun fun i _ => ?_
  have hclr : (v.tick g i).state = .clrSetaddr ∧ (v.tick g i).addr = f.addr := by
    rw [tick, hst]
    simp only
    split <;> exact ⟨rfl, hsame⟩
  generalize v.tick g i = w at hclr
  obtain ⟨hst, hsame⟩ := hclr
  refine scan_blind hst rfl nofun fun i _ => ?_
  have hset : (w.tick g i).state = .clrSetaddrWait ∧ (w.tick g i).addr = f.addr + 1 := by
    rw [tick, hst]
    exact ⟨rfl, by rw [hsame]⟩
  generalize w.tick g i = x at hset
  obtain ⟨hst, hsame⟩ := hset
  refine scan_blind hst rfl nofun fun i _ => Visits.here ?_
  rw [tick, hst]
  refine ⟨rfl, ?_⟩
  change x.addr.toNat = a + 1
  rw [hsame, BitVec.toNat_add, haddr]
  exact Nat.mod_eq_of_lt (by simpa using (by omega : a + 1 < 128))

/-- **The scan of the frame**, from `FCB_START` to the exit of `FCB_RD_LOOP`. -/
theorem visits_frame (hst : f.state = .start) (haddr : f.addr = 0) (hlen : len.toNat < 128) :
    Scan g len (fun v => v.state.scanning = false) (List.range len.toNat) f := by
  have hframe : Scan g len (At len.toNat) (List.range len.toNat) f := by
    refine scan_blind hst rfl nofun fun i _ => ?_
    have htick : At 0 (f.tick g i) := by
      rw [tick, hst]
      exact ⟨rfl, by rw [haddr]; rfl⟩
    rw [List.range_eq_range']
    exact Visits.range' (fun b v hb hv => hv.scan_slot (Nat.ne_of_lt hb) (by omega)) htick (Nat.zero_add _).symm
  have hexit : ∀ v, At len.toNat v → Scan g len (fun v => v.state.scanning = false) [] v := by
    rintro v ⟨hst, haddr⟩
    refine Visits.blind (if_neg fun hc => hc.2 haddr) (by rw [hst]; rfl) fun i hi => Visits.here ?_
    rw [tick, hst]
    simp only
    rw [if_pos (by rw [haddr, hi])]
    rfl
  have hall := hframe.trans hexit
  rwa [List.append_nil] at hall

/-- The address never equals a length of 128 slots or more. -/
theorem scanning_tick_of_long {i : FcbIn} (hlen : 128 ≤ i.currFrameLen.toNat) (h : f.state.scanning = true) :
    (f.tick g i).state.scanning = true := by
  by_cases hread : f.state = .rdLoop
  · have hne : f.addr.toNat ≠ i.currFrameLen.toNat := by
      have := f.addr.isLt
      omega
    rw [tick, hread]
    simp only
    rw [if_neg hne, rdLoop_keeps.2]
    rfl
  · have hnext := (tick_controls g i f).state
    revert hnext
    generalize (f.tick g i).state = n
    revert h hread
    cases f.state <;> simp [FcbState.scanning, FcbState.next]
    all_goals
      rintro rfl
      rfl

end Scan

end Fcb

/-! ### The two scans in the system -/

namespace System

/-- The scan of the FI builder that begins in `s` looks at the slots of the frame in order, each once, and leaves
the loop. -/
def FiScans (g : TdmaSetting) (inp : ℕ → Cycle) (s : System) (len : BitVec 10) : Prop :=
  ∃ n, (trace (tick g) inp s n).fi.state.scanning = false
    ∧ (∀ m < n, (trace (tick g) inp s m).fi.state.scanning = true)
    ∧ seen (fun t => t.fi.look) (tick g) inp s n = List.range len.toNat

/-- The same of the FCB search. -/
def FcbScans (g : TdmaSetting) (inp : ℕ → Cycle) (s : System) (len : BitVec 10) : Prop :=
  ∃ n, (trace (tick g) inp s n).fcb.state.scanning = false
    ∧ (∀ m < n, (trace (tick g) inp s m).fcb.state.scanning = true)
    ∧ seen (fun t => t.fcb.look len) (tick g) inp s n = List.range len.toNat

/-- The frame length is `len` as long as the scan of the FI builder lasts. -/
def FiSteady (g : TdmaSetting) (inp : ℕ → Cycle) (s : System) (len : BitVec 10) : Prop :=
  ∀ k, (∀ m ≤ k, (trace (tick g) inp s m).fi.state.scanning = true) →
    (trace (tick g) inp s k).currFrameLen = len

/-- The frame length is `len` as long as the scan of the FCB search lasts. -/
def FcbSteady (g : TdmaSetting) (inp : ℕ → Cycle) (s : System) (len : BitVec 10) : Prop :=
  ∀ k, (∀ m ≤ k, (trace (tick g) inp s m).fcb.state.scanning = true) →
    (trace (tick g) inp s k).currFrameLen = len

section Scan

variable {g : TdmaSetting} {inp : ℕ → Cycle} {s : System} {len : BitVec 10}

theorem fiScans_of_short (hst : s.fi.state = .start) (haddr : s.fi.addr = 0) (hlen : len.toNat < 128)
    (hsteady : FiSteady g inp s len) : FiScans g inp s len :=
  Visits.exists_part System.fi System.fiIn (fun _ _ => rfl) (Fi.visits_frame hst haddr hlen) hsteady

theorem fcbScans_of_short (hst : s.fcb.state = .start) (haddr : s.fcb.addr = 0) (hlen : len.toNat < 128)
    (hsteady : FcbSteady g inp s len) : FcbScans g inp s len :=
  Visits.exists_part System.fcb System.fcbIn (fun _ _ => rfl) (Fcb.visits_frame hst haddr hlen) hsteady

theorem not_fiScans_of_long (hst : s.fi.state = .start) (hlen : 128 ≤ len.toNat)
    (hsteady : FiSteady g inp s len) : ¬ FiScans g inp s len := by
  rintro ⟨n, hout, -⟩
  refine Bool.false_ne_true (hout.symm.trans ?_)
  refine part_stays (R := fun f : Fi => f.state.scanning = true) System.fi System.fiIn (fun _ _ => rfl) (by rw [hst]; rfl)
    (fun t (i : FiIn) ht (hi : i.currFrameLen = len) => Fi.scanning_tick_of_long (by rw [hi]; exact hlen) ht) ?_ n
  exact hsteady

theorem not_fcbScans_of_long (hst : s.fcb.state = .start) (hlen : 128 ≤ len.toNat)
    (hsteady : FcbSteady g inp s len) : ¬ FcbScans g inp s len := by
  rintro ⟨n, hout, -⟩
  refine Bool.false_ne_true (hout.symm.trans ?_)
  refine part_stays (R := fun f : Fcb => f.state.scanning = true) System.fcb System.fcbIn (fun _ _ => rfl) (by rw [hst]; rfl)
    (fun t (i : FcbIn) ht (hi : i.currFrameLen = len) => Fcb.scanning_tick_of_long (by rw [hi]; exact hlen) ht) ?_ n
  exact hsteady

end Scan

/-- **The scans of the slot table.**  For a length of the case table, a scan of the FI builder and a scan of the
FCB search, in any state of the other machines, on any table and any inputs, look at the slots of the frame in
order, each once, and leave the loop, except for 128 slots. -/
theorem table_scans_iff {len : BitVec 10} (hlen : len ∈ [4, 8, 16, 32, 64, 128]) (g : TdmaSetting)
    (inp : ℕ → Cycle) (s : System) :
    (s.fi.state = .start → s.fi.addr = 0 → FiSteady g inp s len → (FiScans g inp s len ↔ len ≠ 128))
    ∧ (s.fcb.state = .start → s.fcb.addr = 0 → FcbSteady g inp s len →
      (FcbScans g inp s len ↔ len ≠ 128)) := by
  have hshort : len ≠ 128 → len.toNat < 128 := by
    intro hne
    simp only [List.mem_cons, List.not_mem_nil, or_false] at hlen
    rcases hlen with rfl | rfl | rfl | rfl | rfl | rfl
    all_goals first | decide | exact absurd rfl hne
  constructor
  · intro hst haddr hsteady
    refine ⟨?_, fun hne => fiScans_of_short hst haddr (hshort hne) hsteady⟩
    rintro hscans rfl
    exact not_fiScans_of_long hst (by decide) hsteady hscans
  · intro hst haddr hsteady
    refine ⟨?_, fun hne => fcbScans_of_short hst haddr (hshort hne) hsteady⟩
    rintro hscans rfl
    exact not_fcbScans_of_long hst (by decide) hsteady hscans

/-! ### Scans of a fixed frame -/

/-- The user keeps the frame length. -/
def scanningSetting : TdmaSetting where
  globalSid := 5
  bchCandidateC3hopThresS1 := 3
  frameAdjEna := false
  adjFrameLowerBound := 4
  adjFrameUpperBound := 128

/-- Both machines begin a scan. -/
def scanningStart (len : BitVec 10) : System :=
  { reset len with fi := { state := .start }, fcb := { state := .start } }

theorem scanningStart_len (len : BitVec 10) (n : ℕ) :
    (trace (tick scanningSetting) (fun _ => {}) (scanningStart len) n).currFrameLen = len := by
  induction n with
  | zero => rfl
  | succ n ih => exact ih

/-- The scans of a frame of 64 slots. -/
theorem table_scans_iff_sixtyFour :
    FiScans scanningSetting (fun _ => {}) (scanningStart 64) 64
      ∧ FcbScans scanningSetting (fun _ => {}) (scanningStart 64) 64 := by
  have hscan := table_scans_iff (show (64 : BitVec 10) ∈ [4, 8, 16, 32, 64, 128] by decide) scanningSetting
    (fun _ => {}) (scanningStart 64)
  exact ⟨(hscan.1 rfl rfl fun k _ => scanningStart_len 64 k).mpr (by decide),
    (hscan.2 rfl rfl fun k _ => scanningStart_len 64 k).mpr (by decide)⟩

/-- With 128 slots neither scan ends. -/
theorem long_scan_never_ends :
    ¬ ∀ (g : TdmaSetting) (inp : ℕ → Cycle) (s : System) (len : BitVec 10), len ∈ [4, 8, 16, 32, 64, 128] →
      (s.fi.state = .start → s.fi.addr = 0 → FiSteady g inp s len → FiScans g inp s len)
      ∧ (s.fcb.state = .start → s.fcb.addr = 0 → FcbSteady g inp s len → FcbScans g inp s len) := by
  intro h
  obtain ⟨hfi, -⟩ := h scanningSetting (fun _ => {}) (scanningStart 128) 128 (by decide)
  have hsteady : FiSteady scanningSetting (fun _ => {}) (scanningStart 128) 128 :=
    fun k _ => scanningStart_len 128 k
  exact not_fiScans_of_long rfl (by decide) hsteady (hfi rfl rfl hsteady)

end System

end VanetTdma.Fpga
