import VanetTdma.Lib.BitStream
import VanetTdma.Ns3.SlotTag

/-!
# The FI packet (`satmac-packet.cc`)

`setvalue` and `decodeValue` are the two cursor functions of `FiHeader`, with the source's
loops; a cursor is a byte index and the bit (7 downto 0) that comes next in that byte.

The loops are specified here once, on the bit stream of the buffer:

* `setvalue_spec` — `setvalue` ors the low bits of its value into the stream and advances the cursor;
* `decodeValue_field`, `decodeValue_straddle` — `decodeValue` returns the field at the cursor, except that
  a field shorter than a byte which straddles a byte boundary has its high part shifted by the distance to
  a full byte.
-/

namespace VanetTdma.Ns3

open VanetTdma.BitStream

/-! ### The widths of the fields -/

def bitLengthBusy : ℕ := 2
def bitLengthSti : ℕ := 9
def bitLengthFramelen : ℕ := 4
def bitLengthCount : ℕ := 2
def bitLengthPsf : ℕ := 0
def bitLengthSlotTag : ℕ := bitLengthBusy + bitLengthSti + bitLengthPsf + bitLengthCount

/-- A buffer with the `byte_pos` and `bit_pos` that the functions of `FiHeader` thread through it. -/
structure Cursor where
  buffer : ℕ → ℕ
  bytePos : ℕ := 0
  bitPos : ℕ := 7

/-- The position of the cursor in the bit stream. -/
def Cursor.pos (c : Cursor) : ℕ := 8 * c.bytePos + (7 - c.bitPos)

/-! ### `setvalue` -/

/-- The loop of `setvalue`, with its variables `index`, `bit_remain` and `field_length`. -/
def setvalueLoop (value : ℕ) (buffer : ℕ → ℕ) (index bitRemain fieldLength : ℕ) : Cursor :=
  if bitRemain = 0 then setvalueLoop value buffer (index + 1) 8 fieldLength
  else if fieldLength = 0 then ⟨buffer, index, bitRemain - 1⟩
  else if fieldLength ≤ bitRemain then
    setvalueLoop value
      (orAt buffer index (((value >>> 0) &&& mask fieldLength) <<< (bitRemain - fieldLength)))
      index (bitRemain - fieldLength) 0
  else
    setvalueLoop value
      (orAt buffer index (((value >>> (fieldLength - bitRemain)) &&& mask bitRemain) <<< 0))
      index 0 (fieldLength - bitRemain)
termination_by 2 * fieldLength + (if bitRemain = 0 then 1 else 0)
decreasing_by all_goals grind

/-- `setvalue`. -/
def setvalue (c : Cursor) (value bitLen : ℕ) : Cursor :=
  setvalueLoop value c.buffer c.bytePos (c.bitPos + 1) bitLen

/-- The loop ors the low `fieldLength` bits of the value into the stream and ends behind them. -/
theorem setvalueLoop_spec (value : ℕ) (buffer : ℕ → ℕ) (index bitRemain fieldLength p : ℕ)
    (hrem : bitRemain ≤ 8) (hp : p = 8 * index + 8 - bitRemain) :
    (∀ q, bitAt (setvalueLoop value buffer index bitRemain fieldLength).buffer q
      = (bitAt buffer q || (decide (p ≤ q ∧ q < p + fieldLength) &&
          value.testBit (p + fieldLength - 1 - q)))) ∧
    (setvalueLoop value buffer index bitRemain fieldLength).pos = p + fieldLength ∧
    (setvalueLoop value buffer index bitRemain fieldLength).bitPos ≤ 7 := by
  induction buffer, index, bitRemain, fieldLength using setvalueLoop.induct value
    generalizing p with
  | case1 buffer index fieldLength ih =>
    rw [setvalueLoop, if_pos rfl]
    exact ih p (by omega) (by omega)
  | case2 buffer index bitRemain hne =>
    rw [setvalueLoop, if_neg hne, if_pos rfl]
    refine ⟨fun q => ?_, ?_, ?_⟩
    · have hq : ¬ (p ≤ q ∧ q < p + 0) := by omega
      simp only [hq, decide_false, Bool.false_and, Bool.or_false]
    · simp only [Cursor.pos]
      omega
    · show bitRemain - 1 ≤ 7
      omega
  | case3 buffer index bitRemain fieldLength hne hpos hle ih =>
    obtain ⟨ihb, ihp, ihr⟩ := ih (p + fieldLength) (by omega) (by omega)
    rw [setvalueLoop, if_neg hne, if_neg hpos, if_pos hle]
    refine ⟨fun q => ?_, ihp, ihr⟩
    have hq : ¬ (p + fieldLength ≤ q ∧ q < p + fieldLength + 0) := by omega
    rw [ihb, bitAt_orAt, testBit_chunk, decide_eq_false hq, Bool.false_and, Bool.or_false]
    by_cases h1 : q / 8 = index
    · have h2 : decide (bitRemain - fieldLength ≤ 7 - q % 8 ∧
          7 - q % 8 < bitRemain - fieldLength + fieldLength) = decide (p ≤ q ∧ q < p + fieldLength) :=
        decide_eq_decide.mpr (by omega)
      rw [h2, decide_eq_true h1, Bool.true_and]
      by_cases hin : p ≤ q ∧ q < p + fieldLength
      · rw [show 0 + (7 - q % 8 - (bitRemain - fieldLength)) = p + fieldLength - 1 - q from by omega]
      · rw [decide_eq_false hin, Bool.false_and, Bool.false_and]
    · have hin : ¬ (p ≤ q ∧ q < p + fieldLength) := by omega
      rw [decide_eq_false h1, decide_eq_false hin, Bool.false_and, Bool.false_and]
  | case4 buffer index bitRemain fieldLength hne hpos hgt ih =>
    obtain ⟨ihb, ihp, ihr⟩ := ih (p + bitRemain) (by omega) (by omega)
    have hend : p + bitRemain + (fieldLength - bitRemain) = p + fieldLength := by omega
    rw [hend] at ihb ihp
    rw [setvalueLoop, if_neg hne, if_neg hpos, if_neg hgt]
    refine ⟨fun q => ?_, ihp, ihr⟩
    rw [ihb, bitAt_orAt, testBit_chunk]
    -- a bit of the field is written by this chunk or by the rest of the loop
    by_cases h1 : q / 8 = index
    · have h2 : decide (0 ≤ 7 - q % 8 ∧ 7 - q % 8 < 0 + bitRemain)
          = decide (p ≤ q ∧ q < p + fieldLength) := decide_eq_decide.mpr (by omega)
      have h3 : ¬ (p + bitRemain ≤ q ∧ q < p + fieldLength) := by omega
      rw [h2, decide_eq_true h1, decide_eq_false h3, Bool.true_and, Bool.false_and, Bool.or_false]
      by_cases hin : p ≤ q ∧ q < p + fieldLength
      · rw [show fieldLength - bitRemain + (7 - q % 8 - 0) = p + fieldLength - 1 - q from by omega]
      · rw [decide_eq_false hin, Bool.false_and, Bool.false_and]
    · have h2 : decide (p + bitRemain ≤ q ∧ q < p + fieldLength)
          = decide (p ≤ q ∧ q < p + fieldLength) := decide_eq_decide.mpr (by omega)
      rw [decide_eq_false h1, h2, Bool.false_and, Bool.or_false]

/-- **`setvalue` on the bit stream.** -/
theorem setvalue_spec (c : Cursor) (value bitLen : ℕ) (hc : c.bitPos ≤ 7) :
    (∀ q, bitAt (setvalue c value bitLen).buffer q
      = (bitAt c.buffer q || (decide (c.pos ≤ q ∧ q < c.pos + bitLen) &&
          value.testBit (c.pos + bitLen - 1 - q)))) ∧
    (setvalue c value bitLen).pos = c.pos + bitLen ∧ (setvalue c value bitLen).bitPos ≤ 7 := by
  refine setvalueLoop_spec value c.buffer c.bytePos (c.bitPos + 1) bitLen c.pos (by omega) ?_
  simp only [Cursor.pos]
  omega

/-- **`setvalue` writes a bit field.**  From a cursor inside a byte it ors the low `bitLen` bits of the
value, the most significant one first, into the `bitLen` bits of the stream that start there, leaves every
other bit as it is and ends behind the field, inside a byte again. -/
theorem setvalue_ors_field (c : Cursor) (value bitLen : ℕ) (hc : c.bitPos ≤ 7) :
    (∀ i < bitLen, bitAt (setvalue c value bitLen).buffer (c.pos + i)
      = (bitAt c.buffer (c.pos + i) || value.testBit (bitLen - 1 - i))) ∧
    (∀ q, q < c.pos ∨ c.pos + bitLen ≤ q →
      bitAt (setvalue c value bitLen).buffer q = bitAt c.buffer q) ∧
    (setvalue c value bitLen).pos = c.pos + bitLen ∧ (setvalue c value bitLen).bitPos ≤ 7 := by
  obtain ⟨hbits, hpos, hle⟩ := setvalue_spec c value bitLen hc
  refine ⟨?_, ?_, hpos, hle⟩
  · intro i hi
    have hin : c.pos ≤ c.pos + i ∧ c.pos + i < c.pos + bitLen := by omega
    rw [hbits, decide_eq_true hin, Bool.true_and,
      show c.pos + bitLen - 1 - (c.pos + i) = bitLen - 1 - i from by omega]
  · intro q hq
    have hout : ¬ (c.pos ≤ q ∧ q < c.pos + bitLen) := by omega
    rw [hbits, decide_eq_false hout, Bool.false_and, Bool.or_false]

/-- Five bits from the third to last bit of byte 0 on, so that two of them go into byte 1. -/
theorem setvalue_ors_field_straddling :
    bitAt (setvalue ⟨fun _ => 128, 0, 2⟩ 25 5).buffer (5 + 4) = (false || true) ∧
      (setvalue ⟨fun _ => 128, 0, 2⟩ 25 5).pos = 5 + 5 := by
  obtain ⟨hbits, -, hpos, -⟩ := setvalue_ors_field ⟨fun _ => 128, 0, 2⟩ 25 5 (by decide)
  exact ⟨(hbits 4 (by decide)).trans (by decide), hpos⟩

/-! ### `decode_value` -/

/-- The loop of `decode_value` that reads `fieldLength` bits into `value`. -/
def decodeLoop (buffer : ℕ → ℕ) (value index bitRemain fieldLength : ℕ) : ℕ × Cursor :=
  if fieldLength = 0 then (value, ⟨buffer, index, bitRemain - 1⟩)
  else if fieldLength ≤ bitRemain then
    let value' := value ||| ((buffer index >>> (bitRemain - fieldLength)) &&& mask fieldLength)
    if bitRemain - fieldLength = 0 then (value', ⟨buffer, index + 1, 8 - 1⟩)
    else (value', ⟨buffer, index, bitRemain - fieldLength - 1⟩)
  else
    decodeLoop buffer (value ||| (((buffer index >>> 0) &&& mask bitRemain) <<< (8 - bitRemain)))
      (index + 1) 8 (fieldLength - bitRemain)
termination_by 2 * fieldLength + (if bitRemain = 0 then 1 else 0)
decreasing_by grind

/-- `decode_value`: first the bits beyond whole bytes, then the bytes. -/
def decodeValue (c : Cursor) (length : ℕ) : ℕ × Cursor :=
  if length = 0 then (0, c)
  else
    (List.range (length / 8)).foldl
      (fun r _ => decodeLoop c.buffer (r.1 <<< 8) r.2.bytePos (r.2.bitPos + 1) 8)
      (decodeLoop c.buffer 0 c.bytePos (c.bitPos + 1) (length % 8))

/-- The cursor stands at position `p` of the buffer `buf`. -/
structure Cursor.At (c : Cursor) (buf : ℕ → ℕ) (p : ℕ) : Prop where
  buffer_eq : c.buffer = buf
  pos_eq : c.pos = p
  bitPos_le : c.bitPos ≤ 7

section decode

variable (buf : ℕ → ℕ) (value : ℕ) {index bitRemain fieldLength p : ℕ}

theorem decodeLoop_inside (hrem : 0 < bitRemain ∧ bitRemain ≤ 8)
    (hp : p = 8 * index + 8 - bitRemain) (hle : fieldLength ≤ bitRemain) :
    (decodeLoop buf value index bitRemain fieldLength).1 = value ||| fieldAt buf p fieldLength ∧
      (decodeLoop buf value index bitRemain fieldLength).2.At buf (p + fieldLength) := by
  rcases Nat.eq_zero_or_pos fieldLength with rfl | hpos
  · rw [decodeLoop, if_pos rfl]
    refine ⟨by simp [fieldAt], rfl, ?_, ?_⟩
    · simp only [Cursor.pos]
      omega
    · show bitRemain - 1 ≤ 7
      omega
  · have hfield : (buf index >>> (bitRemain - fieldLength)) &&& mask fieldLength
        = fieldAt buf p fieldLength := by
      rw [fieldAt_eq_shiftRight (by omega), show p / 8 = index from by omega,
        show 8 - p % 8 - fieldLength = bitRemain - fieldLength from by omega]
    rw [decodeLoop, if_neg (by omega), if_pos hle]
    simp only [hfield]
    split
    · refine ⟨rfl, rfl, ?_, by show 8 - 1 ≤ 7; omega⟩
      simp only [Cursor.pos]
      omega
    · refine ⟨rfl, rfl, ?_, by show bitRemain - fieldLength - 1 ≤ 7; omega⟩
      simp only [Cursor.pos]
      omega

/-- A field that goes on in the next byte: its high part is shifted by `8 - bitRemain`, whatever the
length of the field. -/
theorem decodeLoop_straddle (hrem : 0 < bitRemain ∧ bitRemain ≤ 8)
    (hp : p = 8 * index + 8 - bitRemain) (hlt : bitRemain < fieldLength) (hlen : fieldLength ≤ 8) :
    (decodeLoop buf value index bitRemain fieldLength).1
        = (value ||| fieldAt buf p bitRemain <<< (8 - bitRemain))
          ||| fieldAt buf (p + bitRemain) (fieldLength - bitRemain) ∧
      (decodeLoop buf value index bitRemain fieldLength).2.At buf (p + fieldLength) := by
  have hfield : (buf index >>> 0) &&& mask bitRemain = fieldAt buf p bitRemain := by
    rw [fieldAt_eq_shiftRight (by omega), show p / 8 = index from by omega,
      show 8 - p % 8 - bitRemain = 0 from by omega]
  rw [decodeLoop, if_neg (by omega), if_neg (by omega), hfield]
  have hnext : p + bitRemain = 8 * (index + 1) + 8 - 8 := by omega
  have hle : fieldLength - bitRemain ≤ 8 := by omega
  have h := decodeLoop_inside buf (value ||| fieldAt buf p bitRemain <<< (8 - bitRemain)) (by omega)
    hnext hle
  rw [show p + bitRemain + (fieldLength - bitRemain) = p + fieldLength from by omega] at h
  exact h

theorem decodeLoop_byte (hrem : 0 < bitRemain ∧ bitRemain ≤ 8)
    (hp : p = 8 * index + 8 - bitRemain) :
    (decodeLoop buf (value <<< 8) index bitRemain 8).1 = value * 256 + fieldAt buf p 8 ∧
      (decodeLoop buf (value <<< 8) index bitRemain 8).2.At buf (p + 8) := by
  have hor : ∀ x, x < 2 ^ 8 → value <<< 8 ||| x = value * 256 + x := fun x hx => by
    rw [← Nat.shiftLeft_add_eq_or_of_lt hx, Nat.shiftLeft_eq]
  rcases Nat.lt_or_ge bitRemain 8 with hlt | hge
  · obtain ⟨hval, hat⟩ := decodeLoop_straddle buf (value <<< 8) hrem hp hlt le_rfl
    refine ⟨?_, hat⟩
    have hlo := fieldAt_lt buf (p + bitRemain) (8 - bitRemain)
    have hbyte : fieldAt buf p bitRemain <<< (8 - bitRemain)
        ||| fieldAt buf (p + bitRemain) (8 - bitRemain) = fieldAt buf p 8 := by
      rw [← Nat.shiftLeft_add_eq_or_of_lt hlo, Nat.shiftLeft_eq, ← fieldAt_add,
        show bitRemain + (8 - bitRemain) = 8 from by omega]
    rw [hval, Nat.or_assoc, hbyte, hor _ (fieldAt_lt buf p 8)]
  · obtain ⟨hval, hat⟩ := decodeLoop_inside buf (value <<< 8) hrem hp hge
    exact ⟨by rw [hval, hor _ (fieldAt_lt buf p 8)], hat⟩

end decode

section fields

variable {c : Cursor} {buf : ℕ → ℕ} {p len : ℕ}

theorem Cursor.At.bitRemain (h : c.At buf p) :
    (0 < c.bitPos + 1 ∧ c.bitPos + 1 ≤ 8) ∧ p = 8 * c.bytePos + 8 - (c.bitPos + 1) ∧
      p % 8 = 7 - c.bitPos := by
  have hle := h.bitPos_le
  have hp := h.pos_eq
  simp only [Cursor.pos] at hp
  omega

theorem decodeBytes {r : ℕ × Cursor} {n : ℕ} (hval : r.1 = fieldAt buf p n) (hat : r.2.At buf (p + n))
    (b : ℕ) :
    let r' := (List.range b).foldl
      (fun r _ => decodeLoop buf (r.1 <<< 8) r.2.bytePos (r.2.bitPos + 1) 8) r
    r'.1 = fieldAt buf p (n + 8 * b) ∧ r'.2.At buf (p + (n + 8 * b)) := by
  induction b with
  | zero => exact ⟨hval, hat⟩
  | succ b ih =>
    obtain ⟨hval', hat'⟩ := ih
    obtain ⟨hrem, hp, -⟩ := hat'.bitRemain
    obtain ⟨hbyte, hend⟩ := decodeLoop_byte buf ((List.range b).foldl
      (fun r _ => decodeLoop buf (r.1 <<< 8) r.2.bytePos (r.2.bitPos + 1) 8) r).1 hrem hp
    simp only [List.range_succ, List.foldl_append, List.foldl_cons, List.foldl_nil]
    refine ⟨?_, ?_⟩
    · rw [hbyte, hval', show n + 8 * (b + 1) = n + 8 * b + 8 from by ring, fieldAt_add buf p (n + 8 * b),
        show (256 : ℕ) = 2 ^ 8 from rfl]
    · rw [show p + (n + 8 * (b + 1)) = p + (n + 8 * b) + 8 from by ring]
      exact hend

/-- **A field whose bits beyond whole bytes do not straddle a byte boundary** is read as it stands. -/
theorem decodeValue_field (h : c.At buf p) (hlen : 0 < len) (hin : p % 8 + len % 8 ≤ 8) :
    (decodeValue c len).1 = fieldAt buf p len ∧ (decodeValue c len).2.At buf (p + len) := by
  obtain ⟨hrem, hp, hmod⟩ := h.bitRemain
  have hle : len % 8 ≤ c.bitPos + 1 := by omega
  obtain ⟨hval, hat⟩ := decodeLoop_inside buf 0 hrem hp hle
  rw [Nat.zero_or] at hval
  have hbytes := decodeBytes hval hat (len / 8)
  rw [Nat.mod_add_div] at hbytes
  rw [decodeValue, if_neg (by omega), h.buffer_eq]
  exact hbytes

/-- A short field that straddles a byte boundary: the `8 - p % 8` bits before the boundary come back
shifted as if a whole byte had been read. -/
theorem decodeValue_straddle (h : c.At buf p) (hlen : len < 8) (hout : 8 < p % 8 + len) :
    (decodeValue c len).1 = fieldAt buf p (8 - p % 8) * 2 ^ (p % 8)
        + fieldAt buf (p + (8 - p % 8)) (len - (8 - p % 8)) ∧
      (decodeValue c len).2.At buf (p + len) := by
  obtain ⟨hrem, hp, hmod⟩ := h.bitRemain
  have hbr : c.bitPos + 1 = 8 - p % 8 := by omega
  have hlo : fieldAt buf (p + (8 - p % 8)) (len - (8 - p % 8)) < 2 ^ (p % 8) :=
    lt_of_lt_of_le (fieldAt_lt _ _ _) (Nat.pow_le_pow_right (by omega) (by omega))
  have hshort : decodeValue c len = decodeLoop buf 0 c.bytePos (c.bitPos + 1) len := by
    rw [decodeValue, if_neg (by omega), Nat.div_eq_of_lt hlen, Nat.mod_eq_of_lt hlen, h.buffer_eq]
    rfl
  rw [hshort]
  have hlt : c.bitPos + 1 < len := by omega
  have hd := decodeLoop_straddle buf 0 hrem hp hlt (by omega)
  rw [Nat.zero_or, hbr, show 8 - (8 - p % 8) = p % 8 from by omega,
    ← Nat.shiftLeft_add_eq_or_of_lt hlo, Nat.shiftLeft_eq] at hd
  rw [hbr]
  exact hd

end fields

end VanetTdma.Ns3
