import Mathlib.Data.Nat.Bitwise
import Mathlib.Tactic.Ring
import Mathlib.Tactic.Common

/-!
# Byte buffers as bit streams

A buffer is a function from byte indices to bytes.  Its bits are numbered most significant first: bit
`p` of the stream is bit `7 - p % 8` of byte `p / 8`.  `fieldAt buf p n` is the number that the `n` bits
from position `p` spell, most significant first.

* `testBit_fieldAt`, `fieldAt_eq` — a field is determined by its bits;
* `fieldAt_add` — a field splits at any bit;
* `fieldAt_eq_shiftRight` — a field inside one byte is a shift and a mask;
* `bitAt_orAt` — or-ing a byte into the buffer, bit by bit.
-/

namespace VanetTdma.BitStream

/-- Bit `p` of the stream. -/
def bitAt (buf : ℕ → ℕ) (p : ℕ) : Bool := (buf (p / 8)).testBit (7 - p % 8)

/-- The number in the `n` bits from position `p`. -/
def fieldAt (buf : ℕ → ℕ) (p : ℕ) : ℕ → ℕ
  | 0 => 0
  | n + 1 => 2 * fieldAt buf p n + (bitAt buf (p + n)).toNat

/-- `buffer[i] |= x` on a byte array. -/
def orAt (buf : ℕ → ℕ) (i x : ℕ) : ℕ → ℕ := Function.update buf i ((buf i ||| x) % 256)

/-- The mask of `n` ones, summed as the loops `mode += pow(2,i)` do. -/
def mask (n : ℕ) : ℕ := (List.range n).foldl (fun m i => m + 2 ^ i) 0

theorem mask_eq (n : ℕ) : mask n = 2 ^ n - 1 := by
  induction n with
  | zero => rfl
  | succ n ih =>
    have hpos : 0 < 2 ^ n := Nat.two_pow_pos n
    rw [mask, List.range_succ, List.foldl_append]
    show mask n + 2 ^ n = _
    rw [ih, pow_succ]
    omega

/-! ### Fields -/

theorem fieldAt_lt (buf : ℕ → ℕ) (p n : ℕ) : fieldAt buf p n < 2 ^ n := by
  induction n with
  | zero => simp [fieldAt]
  | succ n ih =>
    have hb : (bitAt buf (p + n)).toNat ≤ 1 := Bool.toNat_le _
    rw [fieldAt, pow_succ]
    omega

theorem testBit_fieldAt (buf : ℕ → ℕ) (p n i : ℕ) :
    (fieldAt buf p n).testBit i = (decide (i < n) && bitAt buf (p + (n - 1 - i))) := by
  induction n generalizing i with
  | zero => simp [fieldAt]
  | succ n ih =>
    cases i with
    | zero =>
      rw [fieldAt]
      cases hb : bitAt buf (p + n) <;> simp [Nat.testBit_zero, hb, Nat.add_mod]
    | succ i =>
      rw [fieldAt, Nat.testBit_succ]
      have hdiv : (2 * fieldAt buf p n + (bitAt buf (p + n)).toNat) / 2 = fieldAt buf p n := by
        have hb : (bitAt buf (p + n)).toNat ≤ 1 := Bool.toNat_le _
        omega
      rw [hdiv, ih]
      by_cases hi : i < n
      · rw [show n + 1 - 1 - (i + 1) = n - 1 - i from by omega]
        simp [hi]
      · simp [hi]

theorem fieldAt_eq {buf : ℕ → ℕ} {p n v : ℕ} (hv : v < 2 ^ n)
    (h : ∀ i < n, bitAt buf (p + i) = v.testBit (n - 1 - i)) : fieldAt buf p n = v := by
  refine Nat.eq_of_testBit_eq fun i => ?_
  rw [testBit_fieldAt]
  by_cases hi : i < n
  · rw [h (n - 1 - i) (by omega), show n - 1 - (n - 1 - i) = i from by omega]
    simp [hi]
  · have : v.testBit i = false :=
      Nat.testBit_lt_two_pow (lt_of_lt_of_le hv (Nat.pow_le_pow_right (by omega) (by omega)))
    simp [hi, this]

theorem fieldAt_congr {buf buf' : ℕ → ℕ} {p n : ℕ}
    (h : ∀ i < n, bitAt buf (p + i) = bitAt buf' (p + i)) : fieldAt buf p n = fieldAt buf' p n := by
  induction n with
  | zero => rfl
  | succ n ih =>
    rw [fieldAt, fieldAt, ih fun i hi => h i (by omega), h n (by omega)]

theorem fieldAt_add (buf : ℕ → ℕ) (p a b : ℕ) :
    fieldAt buf p (a + b) = fieldAt buf p a * 2 ^ b + fieldAt buf (p + a) b := by
  induction b with
  | zero => simp [fieldAt]
  | succ b ih =>
    rw [← Nat.add_assoc, fieldAt, ih, fieldAt, pow_succ, Nat.add_assoc p a b]
    ring

theorem fieldAt_eq_shiftRight {buf : ℕ → ℕ} {p n : ℕ} (h : p % 8 + n ≤ 8) :
    fieldAt buf p n = (buf (p / 8) >>> (8 - p % 8 - n)) &&& mask n := by
  refine Nat.eq_of_testBit_eq fun i => ?_
  rw [testBit_fieldAt, mask_eq, Nat.and_two_pow_sub_one_eq_mod, Nat.testBit_mod_two_pow,
    Nat.testBit_shiftRight]
  by_cases hi : i < n
  · have hdiv : (p + (n - 1 - i)) / 8 = p / 8 := by omega
    have hmod : 7 - (p + (n - 1 - i)) % 8 = 8 - p % 8 - n + i := by omega
    rw [bitAt, hdiv, hmod]
  · simp [hi]

/-! ### Or-ing bytes into a buffer -/

theorem bitAt_orAt (buf : ℕ → ℕ) (i x q : ℕ) :
    bitAt (orAt buf i x) q
      = (bitAt buf q || (decide (q / 8 = i) && x.testBit (7 - q % 8))) := by
  unfold bitAt orAt
  by_cases h : q / 8 = i
  · subst h
    rw [Function.update_self, show (256 : ℕ) = 2 ^ 8 from rfl, Nat.testBit_mod_two_pow,
      Nat.testBit_or]
    simp [show 7 - q % 8 < 8 from by omega]
  · rw [Function.update_of_ne h]
    simp [h]

theorem testBit_chunk (v r n s k : ℕ) :
    (((v >>> r) &&& mask n) <<< s).testBit k
      = (decide (s ≤ k ∧ k < s + n) && v.testBit (r + (k - s))) := by
  rw [mask_eq, Nat.and_two_pow_sub_one_eq_mod, Nat.testBit_shiftLeft, Nat.testBit_mod_two_pow,
    Nat.testBit_shiftRight]
  by_cases h1 : s ≤ k
  · by_cases h2 : k < s + n
    · simp [h1, h2, show k - s < n from by omega]
    · simp [h1, h2, show ¬ k - s < n from by omega]
  · simp [h1]

end VanetTdma.BitStream
