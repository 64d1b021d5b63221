import Mathlib.Algebra.Ring.Nat
import Mathlib.Data.List.Basic
import Mathlib.Tactic.Common

/-!
# Bytes on a wire

Numbers as bytes in both orders, readers that consume a prefix of their input, and byte stuffing, which
keeps a terminator out of the bytes sent.

* `ofLeBytes_leBytes` — the bytes of a number give it back;
* `Reads r w a` — the reader `r` turns the bytes `w` into `a` and leaves what follows; `Reads.bind` is the
  rule for a sequence of readers;
* `Stuffing.unstuff_stuff` — unstuffing undoes stuffing, whatever follows in the buffer;
  `Stuffing.term_not_mem_stuff` — the terminator does not occur in stuffed bytes.
-/

namespace VanetTdma.Wire

/-! ### Numbers -/

/-- The `k` low bytes of a number, the lowest first. -/
def leBytes : ℕ → ℕ → List UInt8
  | 0, _ => []
  | k + 1, n => UInt8.ofNat n :: leBytes k (n / 256)

/-- The number with the given bytes, the lowest first. -/
def ofLeBytes : List UInt8 → ℕ
  | [] => 0
  | b :: l => b.toNat + 256 * ofLeBytes l

@[simp] theorem length_leBytes (k n : ℕ) : (leBytes k n).length = k := by
  induction k generalizing n with
  | zero => rfl
  | succ k ih => simp [leBytes, ih]

theorem ofLeBytes_leBytes (k n : ℕ) : ofLeBytes (leBytes k n) = n % 256 ^ k := by
  induction k generalizing n with
  | zero => simp [leBytes, ofLeBytes, Nat.mod_one]
  | succ k ih =>
    have hstep : n % 256 ^ (k + 1) = n % 256 + 256 * (n / 256 % 256 ^ k) := by
      rw [Nat.pow_succ', Nat.mod_mul]
    rw [leBytes, ofLeBytes, ih, hstep]
    rfl

/-- The `k` low bytes of a number, the highest first. -/
def beBytes (k n : ℕ) : List UInt8 := (leBytes k n).reverse

/-- The number with the given bytes, the highest first. -/
def ofBeBytes (l : List UInt8) : ℕ := ofLeBytes l.reverse

@[simp] theorem length_beBytes (k n : ℕ) : (beBytes k n).length = k := by simp [beBytes]

theorem ofBeBytes_beBytes (k n : ℕ) : ofBeBytes (beBytes k n) = n % 256 ^ k := by
  rw [ofBeBytes, beBytes, List.reverse_reverse, ofLeBytes_leBytes]

/-- A word of at most `k` bytes is determined by its `k` low bytes. -/
theorem ofNat_mod_pow {k w : ℕ} (hw : w ≤ 8 * k) (x : BitVec w) :
    BitVec.ofNat w (x.toNat % 256 ^ k) = x := by
  have hlt : x.toNat < 256 ^ k :=
    calc x.toNat < 2 ^ w := x.isLt
      _ ≤ 2 ^ (8 * k) := Nat.pow_le_pow_right (by decide) hw
      _ = 256 ^ k := by rw [Nat.pow_mul]
  rw [Nat.mod_eq_of_lt hlt, BitVec.ofNat_toNat, BitVec.setWidth_eq]

/-! ### Readers -/

/-- A computation that consumes bytes, and fails where there are none left. -/
abbrev Reader := StateT (List UInt8) Option

/-- The next `k` bytes. -/
def takeBytes (k : ℕ) : Reader (List UInt8) := fun l =>
  if k ≤ l.length then some (l.take k, l.drop k) else none

/-- The next `k` bytes as a word, the highest first. -/
def readBe (k w : ℕ) : Reader (BitVec w) := do
  let l ← takeBytes k
  return BitVec.ofNat w (ofBeBytes l)

variable {α β : Type}

/-- The reader turns the bytes `w` into `a`, whatever follows them. -/
def Reads (r : Reader α) (w : List UInt8) (a : α) : Prop := ∀ rest, r.run (w ++ rest) = some (a, rest)

theorem Reads.bind {r : Reader α} {f : α → Reader β} {v w : List UInt8} {a : α} {b : β}
    (hr : Reads r v a) (hf : Reads (f a) w b) : Reads (r >>= f) (v ++ w) b := by
  intro rest
  rw [StateT.run_bind, List.append_assoc, hr (w ++ rest)]
  exact hf rest

theorem reads_pure (a : α) : Reads (pure a) [] a := fun _ => rfl

theorem reads_takeBytes {k : ℕ} {w : List UInt8} (h : w.length = k) : Reads (takeBytes k) w w := by
  intro rest
  subst h
  show takeBytes w.length (w ++ rest) = _
  simp [takeBytes]

theorem reads_readBe {k w : ℕ} (hw : w ≤ 8 * k) (x : BitVec w) :
    Reads (readBe k w) (beBytes k x.toNat) x := by
  have hword : BitVec.ofNat w (ofBeBytes (beBytes k x.toNat)) = x := by
    rw [ofBeBytes_beBytes, ofNat_mod_pow hw]
  have hread : Reads (readBe k w) (beBytes k x.toNat ++ [])
      (BitVec.ofNat w (ofBeBytes (beBytes k x.toNat))) :=
    (reads_takeBytes (length_beBytes k x.toNat)).bind (f := fun l => pure (BitVec.ofNat w (ofBeBytes l)))
      (reads_pure _)
  rwa [List.append_nil, hword] at hread

/-! ### Stuffing -/

/-- A byte stuffing: the terminator and the escape symbol itself are sent as the escape symbol and a
code. -/
structure Stuffing (α : Type) where
  term : α
  esc : α
  termCode : α
  escCode : α
  esc_ne : esc ≠ term
  termCode_ne : termCode ≠ term
  escCode_ne : escCode ≠ term
  codes_ne : termCode ≠ escCode

namespace Stuffing

variable [DecidableEq α] (c : Stuffing α)

def stuffOne (a : α) : List α :=
  if a = c.term then [c.esc, c.termCode] else if a = c.esc then [c.esc, c.escCode] else [a]

def stuff (l : List α) : List α := l.flatMap c.stuffOne

/-- The symbols sent as the first `n` of a buffer.  The loop looks one symbol ahead, past the `n` too. -/
def unstuff : ℕ → List α → List α
  | 0, _ => []
  | _ + 1, [] => []
  | _ + 1, [a] => [a]
  | n + 1, a :: b :: l =>
    if a = c.esc ∧ b = c.termCode then c.term :: unstuff (n - 1) l
    else if a = c.esc ∧ b = c.escCode then c.esc :: unstuff (n - 1) l
    else a :: unstuff n (b :: l)

variable {c}

@[simp] theorem stuff_nil : c.stuff [] = [] := rfl

theorem stuff_cons (a : α) (l : List α) : c.stuff (a :: l) = c.stuffOne a ++ c.stuff l := rfl

theorem stuff_append (l m : List α) : c.stuff (l ++ m) = c.stuff l ++ c.stuff m :=
  List.flatMap_append

theorem length_stuffOne_le (a : α) : (c.stuffOne a).length ≤ 2 := by
  unfold stuffOne
  split
  · exact Nat.le_refl 2
  · split
    · exact Nat.le_refl 2
    · exact Nat.le_succ 1

theorem length_stuff_le (l : List α) : (c.stuff l).length ≤ 2 * l.length := by
  induction l with
  | nil => exact Nat.le_refl 0
  | cons a l ih =>
    have hone := c.length_stuffOne_le a
    rw [stuff_cons, List.length_append, List.length_cons]
    omega

theorem term_not_mem_stuffOne (a : α) : c.term ∉ c.stuffOne a := by
  unfold stuffOne
  split
  · simp [c.esc_ne.symm, c.termCode_ne.symm]
  · rename_i hterm
    split
    · simp [c.esc_ne.symm, c.escCode_ne.symm]
    · simpa using Ne.symm hterm

/-- **The terminator does not occur in what is sent.** -/
theorem term_not_mem_stuff (l : List α) : c.term ∉ c.stuff l := by
  induction l with
  | nil => simp
  | cons a l ih =>
    rw [stuff_cons, List.mem_append]
    rintro (h | h)
    · exact term_not_mem_stuffOne a h
    · exact ih h

theorem unstuff_stuffOne (a : α) (n : ℕ) (rest : List α) :
    c.unstuff ((c.stuffOne a).length + n) (c.stuffOne a ++ rest) = a :: c.unstuff n rest := by
  unfold stuffOne
  split
  · rename_i hterm
    show c.unstuff (2 + n) (c.esc :: c.termCode :: rest) = _
    rw [Nat.add_comm, unstuff, if_pos ⟨rfl, rfl⟩, hterm]
    rfl
  · rename_i hterm
    split
    · rename_i hesc
      show c.unstuff (2 + n) (c.esc :: c.escCode :: rest) = _
      rw [Nat.add_comm, unstuff, if_neg (fun h => c.codes_ne h.2.symm), if_pos ⟨rfl, rfl⟩, hesc]
      rfl
    · rename_i hesc
      show c.unstuff (1 + n) (a :: rest) = _
      rw [Nat.add_comm]
      cases rest with
      | nil => cases n <;> rfl
      | cons b rest => rw [unstuff, if_neg (fun h => hesc h.1), if_neg (fun h => hesc h.1)]

/-- **Unstuffing undoes stuffing**, whatever follows in the buffer. -/
theorem unstuff_stuff (l rest : List α) :
    c.unstuff (c.stuff l).length (c.stuff l ++ rest) = l := by
  induction l with
  | nil =>
    show c.unstuff 0 rest = []
    rw [unstuff]
  | cons a l ih =>
    rw [stuff_cons, List.length_append, List.append_assoc, unstuff_stuffOne, ih]

end Stuffing

end VanetTdma.Wire
