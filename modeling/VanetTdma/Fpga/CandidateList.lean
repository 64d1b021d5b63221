import Mathlib.Data.List.Nodup
import VanetTdma.Fpga.PortB

/-!
# The lists of the candidate search (`tdma_control.v`, FCB)

The scan of the FCB search lists the eligible slots, those of them that nobody counts three hops away, and the lower half
of these; a random element of one list is to become the candidate.

* `slots` — the slots below a length that are picked, in their order;
* `SearchEnv.candidates` — the list from which the candidate is to be taken;
* `SearchEnv.taken` — what the search takes from its FIFOs, and `SearchEnv.taken_iff`, when this is the right element.
-/

namespace VanetTdma.Fpga

/-! ### Lists of slots -/

/-- The slots below `a` that are picked, in their order. -/
def slots (p : ℕ → Bool) (a : ℕ) : Fifo := ((List.range a).filter p).map (BitVec.ofNat 16)

section Slots

variable {p q : ℕ → Bool} {a : ℕ}

theorem slots_succ : slots p (a + 1) = slots p a ++ if p a then [BitVec.ofNat 16 a] else [] := by
  unfold slots
  rw [List.range_succ, List.filter_append, List.map_append]
  cases h : p a <;> simp [h]

theorem length_slots_le : (slots p a).length ≤ a := by
  unfold slots
  rw [List.length_map]
  exact (List.length_filter_le p _).trans_eq List.length_range

theorem slots_eq_nil (h : ∀ k, p k = false) : slots p a = [] := by
  unfold slots
  rw [List.map_eq_nil_iff, List.filter_eq_nil_iff]
  intro k _
  rw [h k]
  exact Bool.false_ne_true

theorem slots_sublist (h : ∀ k, p k = true → q k = true) : (slots p a).Sublist (slots q a) :=
  (List.monotone_filter_right _ h).map _

theorem nodup_slots (ha : a ≤ 65536) : (slots p a).Nodup := by
  refine List.Nodup.map_on ?_ (List.nodup_range.filter p)
  intro x hx y hy heq
  have hxa := List.mem_range.mp (List.mem_of_mem_filter hx)
  have hya := List.mem_range.mp (List.mem_of_mem_filter hy)
  simp only [BitVec.toNat_eq, BitVec.toNat_ofNat] at heq
  omega

end Slots

theorem getElem?_ne_head? {α : Type*} {l m : List α} {k : ℕ} (h : l.Sublist m) (hm : m.Nodup) (hk : k ≠ 0)
    (hlt : k < l.length) : l[k]? ≠ m.head? := by
  cases m with
  | nil =>
    rw [List.sublist_nil.mp h] at hlt
    exact absurd hlt (Nat.not_lt_zero k)
  | cons x m =>
    intro heq
    obtain ⟨hx, -⟩ := List.nodup_cons.mp hm
    cases h with
    | cons _ hsub => exact hx (hsub.mem (List.mem_of_getElem? heq))
    | cons_cons _ hsub =>
      obtain ⟨k, rfl⟩ := Nat.exists_eq_succ_of_ne_zero hk
      rw [List.getElem?_cons_succ] at heq
      exact hx (hsub.mem (List.mem_of_getElem? heq))

/-- What stays as it is while a search runs. -/
structure SearchEnv where
  len : BitVec 10
  strict : Bool
  halfEmpty : Bool
  random : BitVec 9

/-! ### What is to be taken -/

namespace SearchEnv

section Lists

variable (g : TdmaSetting) (e : SearchEnv) (table : BitVec 7 → SlotEntry)

def eligibleAt (a : ℕ) : Bool := decide (Eligible g e.strict (table (BitVec.ofNat 7 a)))

/-- Nobody counts the slot three hops away. -/
def unusedAt (a : ℕ) : Bool := e.eligibleAt g table a && decide ((table (BitVec.ofNat 7 a)).count3hop = 0)

/-- The slot is in the lower half of a half-empty frame. -/
def lowerAt (a : ℕ) : Bool :=
  e.unusedAt g table a && (g.frameAdjEna && (e.halfEmpty && decide (a < (e.len >>> 1).toNat)))

def eligible : Fifo := slots (e.eligibleAt g table) e.len.toNat

def unused : Fifo := slots (e.unusedAt g table) e.len.toNat

def lower : Fifo := slots (e.lowerAt g table) e.len.toNat

/-- `thres_slot_adj`. -/
def thres : ℕ := (lenTable e.len).thresSlotAdj.toNat

/-- The list from which the candidate is to be taken. -/
def candidates : Fifo :=
  if g.frameAdjEna = true ∧ e.lower g table ≠ [] then e.lower g table
  else if e.thres ≤ (e.unused g table).length then e.unused g table
  else e.eligible g table

/-- The tables and random numbers with which the right element is taken. -/
def Fair : Prop :=
  if g.slotAdjEna = true then
    (g.frameAdjEna = true ∧ e.lower g table ≠ [])
      ∨ if e.thres ≤ (e.unused g table).length then
          e.unused g table ≠ []
            ∧ e.random.toNat % (e.unused g table).length + e.thres ≤ (e.unused g table).length
        else e.eligible g table = [] ∨ e.random.toNat % (e.eligible g table).length = 0
  else e.eligible g table = []
    ∨ (e.eligible g table)[e.random.toNat % (e.eligible g table).length - 1]?
      = (e.candidates g table)[e.random.toNat % (e.candidates g table).length]?

instance : Decidable (e.Fair g table) := by
  unfold Fair
  infer_instance

/-! What the scan writes into the three FIFOs. -/

def inS1 (a : ℕ) : Bool := if g.slotAdjEna then e.unusedAt g table a else e.eligibleAt g table a

def inS2 (a : ℕ) : Bool := g.slotAdjEna && e.eligibleAt g table a

def inHalf (a : ℕ) : Bool := g.slotAdjEna && e.lowerAt g table a

def fifo1 : Fifo := slots (e.inS1 g table) e.len.toNat

def fifo2 : Fifo := slots (e.inS2 g table) e.len.toNat

def fifoHalf : Fifo := slots (e.inHalf g table) e.len.toNat

/-- The third FIFO is read. -/
def Halved : Prop := g.frameAdjEna = true ∧ e.fifoHalf g table ≠ []

instance : Decidable (e.Halved g table) := inferInstanceAs (Decidable (_ ∧ _))

/-- There is nothing to choose from. -/
structure Fails : Prop where
  halved : ¬ e.Halved g table
  split : g.slotAdjEna = true → ¬ e.thres ≤ (e.fifo1 g table).length ∧ e.fifo2 g table = []
  plain : ¬ g.slotAdjEna = true → e.fifo1 g table = []

/-- The number of elements among which the search chooses. -/
def size : ℕ :=
  if e.Halved g table then (e.fifoHalf g table).length
  else if g.slotAdjEna = true then
    if e.thres ≤ (e.fifo1 g table).length then (e.fifo1 g table).length else (e.fifo2 g table).length
  else (e.fifo1 g table).length

/-- What the search takes for the choice `k`. -/
def taken (k : ℕ) : Option (BitVec 16) :=
  if e.Halved g table then (e.fifoHalf g table)[k]?
  else if g.slotAdjEna = true then
    if e.thres ≤ (e.fifo1 g table).length - k then (e.fifo1 g table)[k]? else (e.fifo2 g table).head?
  else (e.fifo1 g table)[k - 1]?

end Lists

section Writes

variable {g : TdmaSetting} {e : SearchEnv} {table : BitVec 7 → SlotEntry} {a : ℕ}

theorem eligibleAt_of_unusedAt (h : e.unusedAt g table a = true) : e.eligibleAt g table a = true :=
  (Bool.and_eq_true_iff.mp h).1

theorem unusedAt_of_lowerAt (h : e.lowerAt g table a = true) : e.unusedAt g table a = true :=
  (Bool.and_eq_true_iff.mp h).1

theorem eligibleAt_of_inS1 (h : e.inS1 g table a = true) : e.eligibleAt g table a = true := by
  unfold inS1 at h
  split at h
  · exact eligibleAt_of_unusedAt h
  · exact h

theorem eligibleAt_of_inS2 (h : e.inS2 g table a = true) : e.eligibleAt g table a = true :=
  (Bool.and_eq_true_iff.mp h).2

theorem eligibleAt_of_inHalf (h : e.inHalf g table a = true) : e.eligibleAt g table a = true :=
  eligibleAt_of_unusedAt (unusedAt_of_lowerAt (Bool.and_eq_true_iff.mp h).2)

end Writes

/-! What the search takes, compared with what is to be taken. -/

section Compare

variable {g : TdmaSetting} {e : SearchEnv} {table : BitVec 7 → SlotEntry}

theorem fifo1_of_split (h : g.slotAdjEna = true) : e.fifo1 g table = e.unused g table :=
  congrArg (slots · e.len.toNat) (funext fun _ => if_pos h)

theorem fifo2_of_split (h : g.slotAdjEna = true) : e.fifo2 g table = e.eligible g table := by
  refine congrArg (slots · e.len.toNat) (funext fun a => ?_)
  rw [inS2, h, Bool.true_and]

theorem fifoHalf_of_split (h : g.slotAdjEna = true) : e.fifoHalf g table = e.lower g table := by
  refine congrArg (slots · e.len.toNat) (funext fun a => ?_)
  rw [inHalf, h, Bool.true_and]

theorem fifo1_of_plain (h : ¬ g.slotAdjEna = true) : e.fifo1 g table = e.eligible g table :=
  congrArg (slots · e.len.toNat) (funext fun _ => if_neg h)

theorem not_halved_of_plain (h : ¬ g.slotAdjEna = true) : ¬ e.Halved g table := by
  rintro ⟨-, hne⟩
  refine hne (slots_eq_nil fun a => ?_)
  rw [inHalf, Bool.not_eq_true _ |>.mp h, Bool.false_and]

theorem unused_sublist : (e.unused g table).Sublist (e.eligible g table) :=
  slots_sublist fun _ => eligibleAt_of_unusedAt

theorem lower_sublist : (e.lower g table).Sublist (e.unused g table) :=
  slots_sublist fun _ => unusedAt_of_lowerAt

theorem halved_iff_of_split (h : g.slotAdjEna = true) :
    e.Halved g table ↔ g.frameAdjEna = true ∧ e.lower g table ≠ [] := by
  rw [Halved, fifoHalf_of_split h]

theorem size_of_split (hslot : g.slotAdjEna = true) (hhalved : ¬ e.Halved g table) :
    e.size g table
      = if e.thres ≤ (e.unused g table).length then (e.unused g table).length else (e.eligible g table).length := by
  rw [size, if_neg hhalved, if_pos hslot, fifo1_of_split hslot, fifo2_of_split hslot]

theorem size_of_plain (hslot : ¬ g.slotAdjEna = true) : e.size g table = (e.eligible g table).length := by
  rw [size, if_neg (not_halved_of_plain hslot), if_neg hslot, fifo1_of_plain hslot]

theorem taken_of_split (hslot : g.slotAdjEna = true) (hhalved : ¬ e.Halved g table) (k : ℕ) :
    e.taken g table k
      = if e.thres ≤ (e.unused g table).length - k then (e.unused g table)[k]? else (e.eligible g table).head? := by
  rw [taken, if_neg hhalved, if_pos hslot, fifo1_of_split hslot, fifo2_of_split hslot]

theorem taken_of_plain (hslot : ¬ g.slotAdjEna = true) (k : ℕ) :
    e.taken g table k = (e.eligible g table)[k - 1]? := by
  rw [taken, if_neg (not_halved_of_plain hslot), if_neg hslot, fifo1_of_plain hslot]

theorem eligible_ne_nil (hslot : g.slotAdjEna = true) (hhalved : ¬ e.Halved g table) (hpos : 0 < e.size g table) :
    e.eligible g table ≠ [] := by
  intro hempty
  have hunused := @unused_sublist g e table
  rw [hempty, List.sublist_nil] at hunused
  rw [size_of_split hslot hhalved, hunused, hempty, ite_self] at hpos
  exact absurd hpos (Nat.lt_irrefl 0)

theorem choice_lt_of_thres (hslot : g.slotAdjEna = true) (hhalved : ¬ e.Halved g table) (hpos : 0 < e.size g table)
    {r : ℕ} (h : e.thres ≤ (e.unused g table).length - r % e.size g table) :
    r % e.size g table < (e.unused g table).length := by
  have hlt := Nat.mod_lt r hpos
  have hsize := size_of_split hslot hhalved
  rw [if_pos (Nat.le_trans h (Nat.sub_le _ _))] at hsize
  rwa [hsize] at hlt ⊢

theorem exists_taken (hpos : 0 < e.size g table) (r : ℕ) :
    ∃ q, e.taken g table (r % e.size g table) = some q := by
  have hlt := Nat.mod_lt r hpos
  by_cases hhalved : e.Halved g table
  · rw [taken, if_pos hhalved]
    have hsize : e.size g table = (e.fifoHalf g table).length := if_pos hhalved
    rw [hsize] at hlt ⊢
    exact ⟨_, List.getElem?_eq_getElem hlt⟩
  by_cases hslot : g.slotAdjEna = true
  · rw [taken_of_split hslot hhalved]
    split
    · rename_i hthres
      exact ⟨_, List.getElem?_eq_getElem (choice_lt_of_thres hslot hhalved hpos hthres)⟩
    · exact ⟨_, List.head?_eq_some_head (eligible_ne_nil hslot hhalved hpos)⟩
  · rw [taken_of_plain hslot]
    rw [size_of_plain hslot] at hlt ⊢
    exact ⟨_, List.getElem?_eq_getElem (Nat.lt_of_le_of_lt (Nat.sub_le _ _) hlt)⟩

theorem candidates_of_fails (h : e.Fails g table) : e.candidates g table = [] ∧ e.Fair g table := by
  unfold candidates Fair
  by_cases hslot : g.slotAdjEna = true
  · obtain ⟨hthres, hempty⟩ := h.split hslot
    rw [fifo1_of_split hslot] at hthres
    rw [fifo2_of_split hslot] at hempty
    have hhalved := h.halved
    rw [halved_iff_of_split hslot] at hhalved
    rw [if_neg hhalved, if_neg hthres, if_pos hslot, if_neg hthres]
    exact ⟨hempty, Or.inr (Or.inl hempty)⟩
  · have hempty := h.plain hslot
    rw [fifo1_of_plain hslot] at hempty
    have hunused := @unused_sublist g e table
    rw [hempty, List.sublist_nil] at hunused
    have hlower := @lower_sublist g e table
    rw [hunused, List.sublist_nil] at hlower
    rw [if_neg hslot, if_neg (fun hc => hc.2 hlower), hunused, hempty, ite_self]
    exact ⟨rfl, Or.inl rfl⟩

theorem not_fair_of_size_eq_zero (hno : ¬ e.Fails g table) (hzero : e.size g table = 0) : ¬ e.Fair g table := by
  have hhalved : ¬ e.Halved g table := by
    intro hhalved
    rw [size, if_pos hhalved] at hzero
    exact hhalved.2 (List.length_eq_zero_iff.mp hzero)
  by_cases hslot : g.slotAdjEna = true
  · rw [size_of_split hslot hhalved] at hzero
    by_cases hthres : e.thres ≤ (e.unused g table).length
    · rw [if_pos hthres] at hzero
      rw [halved_iff_of_split hslot] at hhalved
      rw [Fair, if_pos hslot, if_pos hthres]
      rintro (hc | ⟨hc, -⟩)
      · exact hhalved hc
      · exact hc (List.length_eq_zero_iff.mp hzero)
    · rw [if_neg hthres, ← fifo2_of_split hslot] at hzero
      rw [← fifo1_of_split hslot] at hthres
      exact absurd ⟨hhalved, fun _ => ⟨hthres, List.length_eq_zero_iff.mp hzero⟩, fun hc => absurd hslot hc⟩ hno
  · rw [size_of_plain hslot, ← fifo1_of_plain hslot] at hzero
    exact absurd ⟨hhalved, fun hc => absurd hc hslot, fun _ => List.length_eq_zero_iff.mp hzero⟩ hno

/-- The choice counts what is left of the first FIFO, and takes from the second one when that is too little. -/
theorem taken_iff_of_split (hlen : e.len.toNat ≤ 64) (hslot : g.slotAdjEna = true) (hhalved : ¬ e.Halved g table)
    (hpos : 0 < e.size g table) :
    e.candidates g table ≠ []
        ∧ (e.candidates g table)[e.random.toNat % (e.candidates g table).length]?
          = e.taken g table (e.random.toNat % e.size g table)
      ↔ e.Fair g table := by
  have hnodup : (e.eligible g table).Nodup := nodup_slots (by omega)
  have hlower := mt (halved_iff_of_split hslot).mpr hhalved
  have hne := eligible_ne_nil hslot hhalved hpos
  rw [size_of_split hslot hhalved] at hpos ⊢
  rw [Fair, if_pos hslot, or_iff_right hlower, candidates, if_neg hlower, taken_of_split hslot hhalved]
  by_cases hthres : e.thres ≤ (e.unused g table).length
  · simp only [if_pos hthres] at hpos ⊢
    have hlt := Nat.mod_lt e.random.toNat hpos
    refine and_congr_right fun _ => ?_
    by_cases hend : e.thres ≤ (e.unused g table).length - e.random.toNat % (e.unused g table).length
    · rw [if_pos hend]
      exact iff_of_true rfl (by omega)
    · rw [if_neg hend]
      have hnz : e.random.toNat % (e.unused g table).length ≠ 0 := by
        intro hz
        rw [hz] at hend
        exact hend hthres
      exact iff_of_false (getElem?_ne_head? unused_sublist hnodup hnz hlt) (by omega)
  · simp only [if_neg hthres] at hpos ⊢
    have hlt := Nat.mod_lt e.random.toNat hpos
    rw [if_neg (fun hc => hthres (Nat.le_trans hc (Nat.sub_le _ _))), or_iff_right hne, and_iff_right hne]
    by_cases hz : e.random.toNat % (e.eligible g table).length = 0
    · rw [hz]
      exact iff_of_true List.head?_eq_getElem?.symm rfl
    · exact iff_of_false (getElem?_ne_head? (List.Sublist.refl _) hnodup hz hlt) hz

/-- **What is taken is what is to be taken** exactly under `Fair`. -/
theorem taken_iff (hlen : e.len.toNat ≤ 64) (hpos : 0 < e.size g table) :
    e.candidates g table ≠ []
        ∧ (e.candidates g table)[e.random.toNat % (e.candidates g table).length]?
          = e.taken g table (e.random.toNat % e.size g table)
      ↔ e.Fair g table := by
  by_cases hslot : g.slotAdjEna = true
  · by_cases hhalved : e.Halved g table
    · have hlower := (halved_iff_of_split hslot).mp hhalved
      rw [Fair, if_pos hslot, candidates, if_pos hlower, size, if_pos hhalved, taken, if_pos hhalved,
        fifoHalf_of_split hslot]
      exact iff_of_true ⟨hlower.2, rfl⟩ (Or.inl hlower)
    · exact taken_iff_of_split hlen hslot hhalved hpos
  · obtain ⟨q, htaken⟩ := exists_taken hpos e.random.toNat
    rw [taken_of_plain hslot, size_of_plain hslot] at htaken ⊢
    rw [size_of_plain hslot] at hpos
    rw [Fair, if_neg hslot, or_iff_right (List.ne_nil_of_length_pos hpos)]
    constructor
    · exact fun h => h.2.symm
    · intro h
      refine ⟨?_, h.symm⟩
      intro hnil
      rw [htaken, hnil] at h
      exact Option.some_ne_none q h

end Compare

end SearchEnv

end VanetTdma.Fpga
