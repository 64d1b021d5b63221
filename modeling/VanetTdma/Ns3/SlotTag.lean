import Mathlib.Data.Int.Notation
import VanetTdma.Lib.SlotLoop

/-!
# Slot tags and frame information (`satmac-common.h`)

The record of one slot (`slot_tag`), the table of a node (`slot_describe`, here a function of the slot
index) and a received frame information (`Frame_info`).  The `busy` byte is an enumeration of the four
`SLOT_` constants; `Busy.other n` stands for a byte `n + 4` that no constant names.  A table entry never
holds one, but a received tag can: `decode_value` reads a two-bit field that straddles a byte as 128 or
129 (see `VanetTdma.Ns3.FiCodec`), and the `switch` statements of `merge_fi` then match no case.
-/

namespace VanetTdma.Ns3

/-- The `SLOT_` codes of the `busy` byte. -/
inductive Busy where
  | free
  | twoHop
  | oneHop
  | collision
  | other (n : ℕ)
deriving DecidableEq, Repr

/-- The byte behind a code: `SLOT_FREE` 0, `SLOT_2HOP` 1, `SLOT_1HOP` 2, `SLOT_COLLISION` 3. -/
def Busy.code : Busy → ℕ
  | .free => 0
  | .twoHop => 1
  | .oneHop => 2
  | .collision => 3
  | .other n => n + 4

/-- Reading a byte as a code. -/
def Busy.ofCode : ℕ → Busy
  | 0 => .free
  | 1 => .twoHop
  | 2 => .oneHop
  | 3 => .collision
  | n + 4 => .other n

@[simp] theorem Busy.code_ofCode (n : ℕ) : (Busy.ofCode n).code = n := by
  match n with
  | 0 | 1 | 2 | 3 => rfl
  | n + 4 => rfl

@[simp] theorem Busy.ofCode_code (b : Busy) : Busy.ofCode b.code = b := by
  cases b <;> rfl

theorem Busy.code_injective : Function.Injective Busy.code :=
  Function.LeftInverse.injective Busy.ofCode_code

/-- `struct slot_tag`, with the values of its constructor as defaults. -/
structure SlotTag where
  busy : Busy := .free
  count2hop : ℕ := 0
  count3hop : ℕ := 0
  lifeTime : ℤ := 0
  existed : Bool := false
  sti : ℕ := 0
  psf : ℕ := 0
  c3hopFlag : Bool := false
  locker : Bool := false
deriving DecidableEq, Repr

/-- `slot_describe`: the tags of a frame, by slot index.  The array of the source has 512 entries; an
index past them is undefined behaviour there and an ordinary entry here. -/
abbrev Table := ℕ → SlotTag

/-- The table `new slot_tag[n]` makes. -/
def Table.blank : Table := fun _ => {}

/-- Write the entry at an `int` index.  A negative index is outside the array: the write does not reach
the table. -/
def Table.modify (t : Table) (i : ℤ) (f : SlotTag → SlotTag) : Table :=
  match i with
  | .ofNat n => Function.update t n (f (t n))
  | .negSucc _ => t

theorem Table.modify_self {t : Table} {i : ℤ} {f : SlotTag → SlotTag} {j : ℕ} (h : i = (j : ℤ)) :
    t.modify i f j = f (t j) := by
  subst h
  exact Function.update_self _ _ _

theorem Table.modify_of_ne {t : Table} {i : ℤ} {f : SlotTag → SlotTag} {j : ℕ} (h : i ≠ (j : ℤ)) :
    t.modify i f j = t j := by
  cases i with
  | ofNat n =>
    refine Function.update_of_ne ?_ _ _
    rintro rfl
    exact h rfl
  | negSucc n => rfl

theorem Table.modify_apply (t : Table) (i : ℤ) (f : SlotTag → SlotTag) (j : ℕ) :
    t.modify i f j = if i = (j : ℤ) then f (t j) else t j := by
  split
  · exact Table.modify_self ‹_›
  · exact Table.modify_of_ne ‹_›

/-- `class Frame_info`, the fields that `recvFI` fills and the node reads. -/
structure FrameInfo where
  sti : ℕ
  frameLen : ℕ
  remainTime : ℕ
  slotDescribe : Table

/-- `enum NodeState`. -/
inductive NodeState where
  | init
  | listen
  | waitRequest
  | request
  | workFi
  | workAdj
deriving DecidableEq, Repr

end VanetTdma.Ns3
