import Mathlib.Tactic.Ring
import Mathlib.Tactic.Common

/-!
# Restoring division in one word

A dividend below `2 ^ w` stands in the lower half of a word of `2 * w` bits.  A round shifts the word; if the upper half
is then at least the divisor, the divisor is subtracted there and a one is put into the place that the shift has freed.
After `w` rounds the upper half is the remainder and the lower half the quotient.

* `Partial.round` — what one round keeps;
* `Partial.two_mul_lt` — the shift loses no bit;
* `Partial.remainder`, `Partial.quotient` — the word after the last round, a divisor of zero included.
-/

namespace VanetTdma.RestoringDivision

/-- The word `x` after `k` rounds: `q` is the part of the quotient that it has in its lower half. -/
structure Partial (w a b k x q : ℕ) : Prop where
  balance : x + q * b * 2 ^ w = a * 2 ^ k + q
  quotient_lt : q < 2 ^ k
  upper_lt : b ≠ 0 → x < b * 2 ^ w
  by_zero : b = 0 → q + 1 = 2 ^ k

variable {w a b k x q : ℕ}

theorem Partial.start (ha : a < 2 ^ w) : Partial w a b 0 a 0 where
  balance := by omega
  quotient_lt := Nat.one_pos
  upper_lt hb := Nat.lt_of_lt_of_le ha (Nat.le_mul_of_pos_left _ (Nat.pos_of_ne_zero hb))
  by_zero _ := rfl

/-- The word after a round. -/
def roundWord (w b x : ℕ) : ℕ := if b ≤ 2 * x / 2 ^ w then 2 * x - b * 2 ^ w + 1 else 2 * x

/-- **A round.** -/
theorem Partial.round (h : Partial w a b k x q) : ∃ q, Partial w a b (k + 1) (roundWord w b x) q := by
  obtain ⟨hbal, hq, hup, hzero⟩ := h
  have hpos : 0 < 2 ^ w := Nat.two_pow_pos w
  have hpow : a * 2 ^ (k + 1) = 2 * (a * 2 ^ k) := by rw [pow_succ]; ring
  have hnext : 2 ^ (k + 1) = 2 * 2 ^ k := by rw [pow_succ]; ring
  unfold roundWord
  by_cases hle : b ≤ 2 * x / 2 ^ w
  · rw [if_pos hle]
    rw [Nat.le_div_iff_mul_le hpos] at hle
    have hone : (2 * q + 1) * b * 2 ^ w = 2 * (q * b * 2 ^ w) + b * 2 ^ w := by ring
    refine ⟨2 * q + 1, ?_, ?_, fun hb => ?_, fun hb => ?_⟩
    · omega
    · omega
    · have := hup hb
      omega
    · have := hzero hb
      omega
  · rw [if_neg hle]
    have hne : b ≠ 0 := fun hb => hle (hb ▸ Nat.zero_le _)
    rw [Nat.le_div_iff_mul_le hpos] at hle
    have htwo : 2 * q * b * 2 ^ w = 2 * (q * b * 2 ^ w) := by ring
    refine ⟨2 * q, ?_, ?_, fun _ => Nat.lt_of_not_le hle, fun hb => absurd hb hne⟩
    · omega
    · omega

theorem Partial.two_mul_lt (h : Partial w a b k x q) (ha : a < 2 ^ w) (hk : k < w) : 2 * x < 2 ^ (2 * w) := by
  have hx : x < (a + 1) * 2 ^ k := by
    have := h.balance
    have := h.quotient_lt
    rw [Nat.add_mul]
    omega
  calc 2 * x < 2 * ((a + 1) * 2 ^ k) := by omega
    _ ≤ 2 * (2 ^ w * 2 ^ k) := by gcongr; exact ha
    _ = 2 ^ w * 2 ^ (k + 1) := by rw [pow_succ]; ring
    _ ≤ 2 ^ w * 2 ^ w := by gcongr; exacts [by decide, hk]
    _ = 2 ^ (2 * w) := by rw [two_mul, pow_add]

theorem Partial.split (h : Partial w a b w x q) : x / 2 ^ w + b * q = a ∧ x % 2 ^ w = q := by
  have hbal := h.balance
  have hq := h.quotient_lt
  have hle : q * b ≤ a := by
    by_contra hlt
    have hmul : (a + 1) * 2 ^ w ≤ q * b * 2 ^ w := Nat.mul_le_mul_right _ (Nat.lt_of_not_le hlt)
    rw [Nat.add_mul] at hmul
    omega
  have hx : x = (a - q * b) * 2 ^ w + q := by
    rw [Nat.sub_mul]
    have := Nat.mul_le_mul_right (2 ^ w) hle
    omega
  rw [hx, Nat.mul_comm _ (2 ^ w), Nat.mul_add_div (Nat.two_pow_pos w), Nat.div_eq_of_lt hq, Nat.mul_add_mod,
    Nat.mod_eq_of_lt hq, Nat.mul_comm b q]
  exact ⟨by omega, rfl⟩

/-- **The upper half is the remainder.** -/
theorem Partial.remainder (h : Partial w a b w x q) : x / 2 ^ w = a % b := by
  obtain ⟨hsplit, -⟩ := h.split
  rw [← hsplit, Nat.add_mul_mod_self_left]
  by_cases hb : b = 0
  · rw [hb, Nat.mod_zero]
  · exact (Nat.mod_eq_of_lt ((Nat.div_lt_iff_lt_mul (Nat.two_pow_pos w)).mpr (h.upper_lt hb))).symm

/-- **The lower half is the quotient**, and all ones for a divisor of zero. -/
theorem Partial.quotient (h : Partial w a b w x q) : x % 2 ^ w = if b = 0 then 2 ^ w - 1 else a / b := by
  obtain ⟨hsplit, hlow⟩ := h.split
  rw [hlow]
  split
  · rename_i hb
    have := h.by_zero hb
    omega
  · rename_i hb
    have hlt := (Nat.div_lt_iff_lt_mul (Nat.two_pow_pos w)).mpr (h.upper_lt hb)
    exact ((Nat.div_mod_unique (Nat.pos_of_ne_zero hb)).mpr ⟨hsplit, hlt⟩).1.symm

end VanetTdma.RestoringDivision
