import Mathlib.Algebra.Order.Field.Basic
import Mathlib.Tactic.FieldSimp
import VanetTdma.Adhoc.Node

/-!
# The access probability of ADHOC-MAC (`get_send_p`)

`get_send_p` is meant to be one over the number of slots that `determine_BCH` may choose.  Both count the
entries that are `SLOT_FREE` or `SLOT_COLLISION_UNKNOWN`, but the loop of `get_send_p` increments its counter
in the test: it reads the entries `1, ..., max_slot_num_`, so slot 0 is never counted and the memory behind
the table is.

* `getSendP_eq` — `get_send_p` is the share of the candidates it reads;
* `getSendP_eq_share_iff` — it is the share of the real candidates exactly when slot 0 and the memory behind
  the table are both candidates or both not, or when no other slot is one.
-/

namespace VanetTdma.Adhoc

/-- One of `n`, and everything when there is nothing to share. -/
def share (n : ℕ) : ℚ := if n = 0 then 1 else 1 / n

theorem share_eq_iff (a b : ℕ) : share a = share b ↔ a = b ∨ (a ≤ 1 ∧ b ≤ 1) := by
  have hmax : ∀ n : ℕ, share n = ((max n 1 : ℕ) : ℚ)⁻¹ := by
    intro n
    unfold share
    split
    · rename_i h
      rw [h]
      norm_num
    · rw [Nat.max_eq_left (by omega), one_div]
  rw [hmax, hmax, inv_inj, Nat.cast_inj]
  omega

section counts

variable (m k : ℕ) (t : Table) (behind : SlotTag)

/-- The candidates among the entries that `get_send_p` reads. -/
def seenCount : ℕ := (List.range m).countP fun count => candidate (readEntry m t behind (count + 1))

/-- The candidates behind slot 0, in a frame of `k + 1` slots. -/
def innerCount : ℕ := (List.range k).countP fun i => candidate (t (i + 1))

theorem busyCount_add_seenCount : busyCount m t behind + seenCount m t behind = m := by
  have hnot : busyCount m t behind
      = (List.range m).countP fun count => ¬ candidate (readEntry m t behind (count + 1)) := by
    apply List.countP_congr
    intro count _
    simp [candidate]
  have hlen := List.length_eq_countP_add_countP
    (l := List.range m) fun count => candidate (readEntry m t behind (count + 1))
  rw [List.length_range] at hlen
  rw [hnot, Nat.add_comm]
  exact hlen.symm

theorem getSendP_eq : getSendP m t behind = share (seenCount m t behind) := by
  have hsum := busyCount_add_seenCount m t behind
  have hsub : m - busyCount m t behind = seenCount m t behind := by omega
  unfold getSendP share
  rw [hsub]
  by_cases h : seenCount m t behind = 0
  · rw [if_pos (by omega), if_pos h]
  · rw [if_neg (by omega), if_neg h]

theorem freeCount_succ :
    freeCount (k + 1) t = (if candidate (t 0) then 1 else 0) + innerCount k t := by
  unfold freeCount innerCount
  rw [List.range_succ_eq_map, List.countP_cons, List.countP_map, Nat.add_comm]
  rfl

theorem seenCount_succ :
    seenCount (k + 1) t behind = innerCount k t + (if candidate behind then 1 else 0) := by
  have hin : (List.range k).countP (fun count => candidate (readEntry (k + 1) t behind (count + 1)))
      = innerCount k t := by
    apply List.countP_congr
    intro count hmem
    have hlt : count + 1 < k + 1 := Nat.succ_lt_succ (List.mem_range.mp hmem)
    rw [readEntry, if_pos hlt]
  have hlast : readEntry (k + 1) t behind (k + 1) = behind := if_neg (Nat.lt_irrefl _)
  unfold seenCount
  rw [List.range_succ, List.countP_append, hin, List.countP_singleton, hlast]

theorem innerCount_eq_zero_iff :
    innerCount k t = 0 ↔ ∀ i, 0 < i → i < k + 1 → candidate (t i) = false := by
  unfold innerCount
  rw [List.countP_eq_zero]
  constructor
  · intro h i hpos hlt
    have hi := h (i - 1) (List.mem_range.mpr (by omega))
    rw [Nat.sub_add_cancel hpos] at hi
    exact Bool.eq_false_iff.mpr hi
  · intro h i hmem
    exact Bool.eq_false_iff.mp (h (i + 1) (Nat.succ_pos i) (Nat.succ_lt_succ (List.mem_range.mp hmem)))

end counts

/-- **The access probability.**  `get_send_p` is one over the number of the slots that `determine_BCH` may
choose, and 1 when there is none, exactly when slot 0 is a candidate just as the memory behind the table is,
or no other slot of the frame is a candidate. -/
theorem getSendP_eq_share_iff (m : ℕ) (t : Table) (behind : SlotTag) :
    getSendP m t behind = share (freeCount m t) ↔
      candidate (t 0) = candidate behind ∨ ∀ i, 0 < i → i < m → candidate (t i) = false := by
  rw [getSendP_eq, share_eq_iff]
  cases m with
  | zero =>
    refine iff_of_true (Or.inl rfl) (Or.inr fun i hpos hlt => ?_)
    omega
  | succ k =>
    rw [freeCount_succ, seenCount_succ, ← innerCount_eq_zero_iff]
    cases candidate (t 0) <;> cases candidate behind <;> simp <;> omega

/-- A frame of two slots whose slot 0 is taken. -/
def firstTaken : Table := fun i => if i = 0 then { busy := .busy, sti := 7 } else {}

/-- With blank memory behind the table two slots seem to be free where one is. -/
theorem getSendP_firstTaken :
    getSendP 2 firstTaken {} = 1 / 2 ∧ getSendP 2 firstTaken {} ≠ share (freeCount 2 firstTaken) := by
  have hseen : seenCount 2 firstTaken {} = 2 := by decide
  have hfree : freeCount 2 firstTaken = 1 := by decide
  have htwo : share 2 ≠ share 1 := by
    rw [Ne, share_eq_iff]
    omega
  rw [getSendP_eq, hseen, hfree]
  exact ⟨if_neg (by decide), htwo⟩

end VanetTdma.Adhoc
