import Mathlib.Data.Nat.Log
import VanetTdma.Ns3.FiHeader

/-!
# Building and reading an FI

`fiHeader` is the constructor `FiHeader (framelength, global_sti, fi_local)` and `decodeFi` the part of
`recvFI` that turns a packet into a `Frame_info`.  The header takes 13 bits and each slot 13 more, so
slot `i` starts at bit `13 + 13 * i`: its `busy` field straddles a byte boundary when `i % 8 = 2`, its
count when `i % 8 = 3`, and `decode_value` then misplaces the high bit.

`fiHeader_roundTrip_iff` says exactly which tables survive: those without `SLOT_1HOP` or
`SLOT_COLLISION` in the slots `2, 10, 18, ...` and with counts below two in the slots `3, 11, 19, ...`.
-/

namespace VanetTdma.Ns3

open VanetTdma.BitStream VanetTdma.SlotLoop

/-! ### The constructor of `FiHeader` -/

/-- A field of any width: the bits beyond whole bytes first, then the bytes from the top. -/
def writeField (c : Cursor) (value bits : ℕ) : Cursor :=
  (List.range (bits / 8)).reverse.foldl
    (fun c j => setvalue c ((value >>> (8 * j)) % 256) 8)
    (if bits % 8 ≠ 0 then setvalue c ((value >>> (8 * (bits / 8))) % 256) (bits % 8) else c)

/-- The count as it is sent: cut at the largest value of its field. -/
def encodedCount (count : ℕ) : ℕ :=
  if 2 ^ bitLengthCount - 1 < count then 2 ^ bitLengthCount - 1 else count

def writeSlotTag (c : Cursor) (e : SlotTag) : Cursor :=
  let c := setvalue c e.busy.code bitLengthBusy
  let c := writeField c e.sti bitLengthSti
  let c := setvalue c (encodedCount e.count2hop) bitLengthCount
  if 0 < bitLengthPsf then setvalue c e.psf bitLengthPsf else c

def writeSlotTags (c : Cursor) (t : Table) (n : ℕ) : Cursor :=
  (List.range n).foldl (fun c i => writeSlotTag c (t i)) c

/-- The buffer the constructor builds.  `log(m_framelength)/log(2)` is the integer logarithm. -/
def fiHeader (framelength globalSti : ℕ) (t : Table) : Cursor :=
  let c : Cursor := ⟨fun _ => 0, 0, 7⟩
  let c := writeField c globalSti bitLengthSti
  let c := setvalue c (Nat.log2 framelength) bitLengthFramelen
  writeSlotTags c t framelength

/-- What the constructor does to the table: the counts of the frame just sent start again. -/
def clearCounts (globalSti : ℕ) (e : SlotTag) : SlotTag :=
  if e.sti = globalSti then { e with count2hop := 1, count3hop := 1 }
  else { e with c3hopFlag := false, count2hop := 0, count3hop := 0 }

/-! ### Reading -/

/-- `decode_slot_tag`. -/
def decodeSlotTag (c : Cursor) : SlotTag × Cursor :=
  let busy := decodeValue c bitLengthBusy
  let sti := decodeValue busy.2 bitLengthSti
  let count := decodeValue sti.2 bitLengthCount
  let psf := decodeValue count.2 bitLengthPsf
  ({ busy := Busy.ofCode busy.1, sti := sti.1, count2hop := count.1, psf := psf.1 }, psf.2)

/-- The loop of `recvFI` over the slots. -/
def decodeSlotTags (c : Cursor) : ℕ → Table × Cursor
  | 0 => (Table.blank, c)
  | n + 1 =>
    let r := decodeSlotTags c n
    let e := decodeSlotTag r.2
    (Function.update r.1 n e.1, e.2)

/-- The frame information `recvFI` makes of a packet, on a node with frame length `m`. -/
def decodeFi (adjFrameEna : Bool) (m : ℕ) (buffer : ℕ → ℕ) : FrameInfo :=
  let sti := decodeValue ⟨buffer, 0, 7⟩ bitLengthSti
  let code := decodeValue sti.2 bitLengthFramelen
  let frameLen := if adjFrameEna then 2 ^ code.1 else m
  { sti := sti.1
    frameLen := frameLen
    remainTime := m
    slotDescribe := (decodeSlotTags code.2 frameLen).1 }

/-! ### Writing fields one behind the other -/

/-- The cursor stands at `p` and nothing is written from there on. -/
structure Cursor.Fresh (c : Cursor) (p : ℕ) : Prop where
  pos_eq : c.pos = p
  bitPos_le : c.bitPos ≤ 7
  blank : ∀ q, p ≤ q → bitAt c.buffer q = false

/-- Writing `n` bits at `p`: the stream before `p` stays, the cursor moves on by `n`. -/
structure Cursor.Extends (c c' : Cursor) (p n : ℕ) : Prop where
  fresh : c'.Fresh (p + n)
  before : ∀ q, q < p → bitAt c'.buffer q = bitAt c.buffer q

theorem Cursor.Extends.trans {c c' c'' : Cursor} {p n k : ℕ} (h : c.Extends c' p n)
    (h' : c'.Extends c'' (p + n) k) : c.Extends c'' p (n + k) := by
  refine ⟨?_, fun q hq => ?_⟩
  · rw [← Nat.add_assoc]
    exact h'.fresh
  · rw [h'.before q (by omega), h.before q hq]

theorem Cursor.Extends.fieldAt_eq {c c' : Cursor} {p n q len : ℕ} (h : c.Extends c' p n)
    (hq : q + len ≤ p) : fieldAt c'.buffer q len = fieldAt c.buffer q len :=
  fieldAt_congr fun i hi => h.before _ (by omega)

theorem setvalue_extends {c : Cursor} {p v n : ℕ} (h : c.Fresh p) :
    c.Extends (setvalue c v n) p n ∧ fieldAt (setvalue c v n).buffer p n = v % 2 ^ n := by
  obtain ⟨hbits, hpos, hbit⟩ := setvalue_spec c v n h.bitPos_le
  rw [h.pos_eq] at hbits hpos
  refine ⟨⟨⟨hpos, hbit, fun q hq => ?_⟩, fun q hq => ?_⟩, ?_⟩
  · have hout : ¬ (p ≤ q ∧ q < p + n) := by omega
    rw [hbits, h.blank q (by omega), decide_eq_false hout]
    rfl
  · have hout : ¬ (p ≤ q ∧ q < p + n) := by omega
    rw [hbits, decide_eq_false hout, Bool.false_and, Bool.or_false]
  · refine fieldAt_eq (Nat.mod_lt _ (Nat.two_pow_pos n)) fun i hi => ?_
    have hin : p ≤ p + i ∧ p + i < p + n := by omega
    rw [hbits, h.blank _ (by omega), decide_eq_true hin, Bool.false_or, Bool.true_and,
      Nat.testBit_mod_two_pow, show p + n - 1 - (p + i) = n - 1 - i from by omega]
    simp [show n - 1 - i < n from by omega]

theorem writeBytes_extends {c : Cursor} {p : ℕ} (v b : ℕ) (h : c.Fresh p) :
    let c' := (List.range b).reverse.foldl (fun c j => setvalue c ((v >>> (8 * j)) % 256) 8) c
    c.Extends c' p (8 * b) ∧ fieldAt c'.buffer p (8 * b) = v % 2 ^ (8 * b) := by
  induction b generalizing c p with
  | zero => exact ⟨⟨h, fun _ _ => rfl⟩, by simp [fieldAt, Nat.mod_one]⟩
  | succ b ih =>
    obtain ⟨he, hf⟩ := setvalue_extends (v := (v >>> (8 * b)) % 256) (n := 8) h
    obtain ⟨he', hf'⟩ := ih he.fresh
    simp only [List.range_succ, List.reverse_append, List.reverse_cons, List.reverse_nil,
      List.nil_append, List.foldl_cons, List.singleton_append]
    rw [show 8 * (b + 1) = 8 + 8 * b from by ring]
    refine ⟨he.trans he', ?_⟩
    rw [fieldAt_add, hf', he'.fieldAt_eq le_rfl, hf, Nat.shiftRight_eq_div_pow,
      show (256 : ℕ) = 2 ^ 8 from rfl, Nat.mod_mod, Nat.pow_add, Nat.mul_comm (2 ^ 8),
      Nat.mod_mul, Nat.mul_comm, Nat.add_comm]

/-- **A field of any width** takes its bits and spells its value. -/
theorem writeField_extends {c : Cursor} {p : ℕ} (v bits : ℕ) (h : c.Fresh p) :
    c.Extends (writeField c v bits) p bits ∧
      fieldAt (writeField c v bits).buffer p bits = v % 2 ^ bits := by
  have hsplit : bits % 8 + 8 * (bits / 8) = bits := Nat.mod_add_div bits 8
  unfold writeField
  by_cases hr : bits % 8 ≠ 0
  · obtain ⟨he, hf⟩ := setvalue_extends (v := (v >>> (8 * (bits / 8))) % 256) (n := bits % 8) h
    obtain ⟨he', hf'⟩ := writeBytes_extends v (bits / 8) he.fresh
    have htop : 2 ^ (bits % 8) ∣ 256 := Nat.pow_dvd_pow 2 (show bits % 8 ≤ 8 by omega)
    rw [if_pos hr]
    generalize hq : bits / 8 = q at *
    generalize hr' : bits % 8 = r at *
    subst hsplit
    refine ⟨he.trans he', ?_⟩
    rw [fieldAt_add, hf', he'.fieldAt_eq le_rfl, hf, Nat.shiftRight_eq_div_pow,
      Nat.mod_mod_of_dvd _ htop, Nat.pow_add, Nat.mul_comm (2 ^ r), Nat.mod_mul, Nat.mul_comm,
      Nat.add_comm]
  · have hbytes := writeBytes_extends v (bits / 8) h
    rw [show 8 * (bits / 8) = bits from by omega] at hbytes
    rw [if_neg hr]
    exact hbytes

/-! ### Slots one behind the other -/

section records

variable {α : Type*} {write : Cursor → α → Cursor} {w : ℕ} {c : Cursor} {p : ℕ}

/-- Records of `w` bits, written one behind the other, take `w * n` bits. -/
theorem Cursor.Fresh.foldl_extends (h : c.Fresh p)
    (hw : ∀ {c : Cursor} {p : ℕ}, c.Fresh p → ∀ e, c.Extends (write c e) p w) (t : ℕ → α) (n : ℕ) :
    c.Extends ((List.range n).foldl (fun c i => write c (t i)) c) p (w * n) := by
  induction n with
  | zero => exact ⟨h, fun _ _ => rfl⟩
  | succ n ih =>
    simp only [List.range_succ, List.foldl_append, List.foldl_cons, List.foldl_nil]
    exact ih.trans (hw ih.fresh (t n))

/-- What a record leaves in its own bits is there after all of them. -/
theorem Cursor.Fresh.foldl_written (h : c.Fresh p) (Has : (ℕ → ℕ) → ℕ → α → Prop)
    (hw : ∀ {c : Cursor} {p : ℕ}, c.Fresh p → ∀ e, c.Extends (write c e) p w)
    (hcongr : ∀ {buf buf' : ℕ → ℕ} {p : ℕ} {e : α},
      (∀ q, q < p + w → bitAt buf' q = bitAt buf q) → Has buf p e → Has buf' p e)
    (t : ℕ → α) (n : ℕ)
    (ht : ∀ i < n, ∀ {c : Cursor} {p : ℕ}, c.Fresh p → Has (write c (t i)).buffer p (t i)) :
    ∀ i < n, Has ((List.range n).foldl (fun c i => write c (t i)) c).buffer (p + w * i) (t i) := by
  induction n with
  | zero => exact fun i hi => by omega
  | succ n ih =>
    have hs := ih fun i hi => ht i (by omega)
    have he := h.foldl_extends hw t n
    have he' := hw he.fresh (t n)
    simp only [List.range_succ, List.foldl_append, List.foldl_cons, List.foldl_nil]
    intro i hi
    rcases Nat.lt_succ_iff_lt_or_eq.mp hi with hlt | rfl
    · refine hcongr (fun q hq => he'.before q ?_) (hs i hlt)
      have hle : w * (i + 1) ≤ w * n := Nat.mul_le_mul_left w hlt
      rw [Nat.mul_succ] at hle
      omega
    · exact ht i (by omega) he.fresh

/-- **The records are read one behind the other.**  `loop n` is the table and the cursor after `n`
rounds of a loop that stores what it reads at the index of the round. -/
theorem Cursor.At.loop_at {β : Type*} {read : Cursor → β × Cursor} (loop : ℕ → (ℕ → β) × Cursor)
    {buf : ℕ → ℕ} (Has : ℕ → α → Prop) (out : ℕ → α → β) (t : ℕ → α)
    (hread : ∀ {c : Cursor} {p : ℕ} {e : α}, c.At buf p → Has p e →
      (read c).1 = out p e ∧ (read c).2.At buf (p + w))
    (h : (loop 0).2.At buf p)
    (hloop : ∀ n, loop (n + 1) = (Function.update (loop n).1 n (read (loop n).2).1, (read (loop n).2).2))
    (n : ℕ) (ht : ∀ i < n, Has (p + w * i) (t i)) :
    (∀ i < n, (loop n).1 i = out (p + w * i) (t i)) ∧ (loop n).2.At buf (p + w * n) := by
  induction n with
  | zero => exact ⟨fun i hi => by omega, h⟩
  | succ n ih =>
    obtain ⟨hs, hat⟩ := ih fun i hi => ht i (by omega)
    obtain ⟨hval, hat'⟩ := hread hat (ht n (by omega))
    rw [Nat.add_assoc, ← Nat.mul_succ] at hat'
    rw [hloop]
    refine ⟨fun i hi => ?_, hat'⟩
    show Function.update (loop n).1 n _ i = _
    rcases Nat.lt_succ_iff_lt_or_eq.mp hi with hlt | rfl
    · rw [Function.update_of_ne (Nat.ne_of_lt hlt)]
      exact hs i hlt
    · rw [Function.update_self]
      exact hval

end records

/-- A format of slots: `write` puts an entry into `w` bits, and `Has` says that it stands there. -/
structure SlotFormat (write : Cursor → SlotTag → Cursor) (Ok : SlotTag → Prop)
    (Has : (ℕ → ℕ) → ℕ → SlotTag → Prop) (w : ℕ) : Prop where
  extend : ∀ {c : Cursor} {p : ℕ}, c.Fresh p → ∀ e, c.Extends (write c e) p w
  written : ∀ {c : Cursor} {p : ℕ} {e : SlotTag}, c.Fresh p → Ok e → Has (write c e).buffer p e
  congr : ∀ {buf buf' : ℕ → ℕ} {p : ℕ} {e : SlotTag},
    (∀ q, q < p + w → bitAt buf' q = bitAt buf q) → Has buf p e → Has buf' p e

section format

variable {write : Cursor → SlotTag → Cursor} {Ok : SlotTag → Prop}
  {Has : (ℕ → ℕ) → ℕ → SlotTag → Prop} {w : ℕ} {c : Cursor} {p : ℕ}

theorem SlotFormat.foldl_extends (hw : SlotFormat write Ok Has w) (h : c.Fresh p) (t : Table) (n : ℕ) :
    c.Extends ((List.range n).foldl (fun c i => write c (t i)) c) p (w * n) :=
  h.foldl_extends hw.extend t n

/-- **The slots lie one behind the other.** -/
theorem SlotFormat.foldl_written (hw : SlotFormat write Ok Has w) (h : c.Fresh p) {t : Table} (n : ℕ)
    (ht : ∀ i < n, Ok (t i)) :
    ∀ i < n, Has ((List.range n).foldl (fun c i => write c (t i)) c).buffer (p + w * i) (t i) :=
  h.foldl_written Has hw.extend hw.congr t n fun i hi _ _ hc => hw.written hc (ht i hi)

end format

/-- The three fields of a slot in a buffer. -/
structure HasSlotTag (buf : ℕ → ℕ) (p : ℕ) (e : SlotTag) : Prop where
  busy_eq : fieldAt buf p 2 = e.busy.code
  sti_eq : fieldAt buf (p + 2) 9 = e.sti
  count_eq : fieldAt buf (p + 11) 2 = min e.count2hop 3

/-- The tags the codec is meant for. -/
def Encodable (e : SlotTag) : Prop := e.busy.code ≤ 3 ∧ e.sti ≤ 511

theorem encodedCount_eq (n : ℕ) : encodedCount n = min n 3 := by
  show (if 3 < n then 3 else n) = min n 3
  split <;> omega

theorem writeSlotTag_extends {c : Cursor} {p : ℕ} (h : c.Fresh p) (e : SlotTag) :
    c.Extends (writeSlotTag c e) p 13 := by
  obtain ⟨he₁, -⟩ := setvalue_extends (v := e.busy.code) (n := 2) h
  obtain ⟨he₂, -⟩ := writeField_extends e.sti 9 he₁.fresh
  obtain ⟨he₃, -⟩ := setvalue_extends (v := encodedCount e.count2hop) (n := 2) he₂.fresh
  exact (he₁.trans he₂).trans he₃

theorem hasSlotTag_writeSlotTag {c : Cursor} {p : ℕ} {e : SlotTag} (h : c.Fresh p)
    (he : Encodable e) : HasSlotTag (writeSlotTag c e).buffer p e := by
  have hrw : writeSlotTag c e = setvalue (writeField (setvalue c e.busy.code 2) e.sti 9)
      (encodedCount e.count2hop) 2 := rfl
  obtain ⟨he₁, hf₁⟩ := setvalue_extends (v := e.busy.code) (n := 2) h
  obtain ⟨he₂, hf₂⟩ := writeField_extends e.sti 9 he₁.fresh
  obtain ⟨he₃, hf₃⟩ := setvalue_extends (v := encodedCount e.count2hop) (n := 2) he₂.fresh
  obtain ⟨hb, hs⟩ := he
  rw [hrw]
  refine ⟨?_, ?_, ?_⟩
  · rw [he₃.fieldAt_eq (by omega), he₂.fieldAt_eq (by omega), hf₁]
    omega
  · rw [he₃.fieldAt_eq (by omega), hf₂]
    omega
  · rw [show p + 11 = p + 2 + 9 from rfl, hf₃, encodedCount_eq]
    omega

theorem slotFormat : SlotFormat writeSlotTag Encodable HasSlotTag 13 where
  extend := writeSlotTag_extends
  written := hasSlotTag_writeSlotTag
  congr h he := by
    refine ⟨?_, ?_, ?_⟩
    · rw [fieldAt_congr fun i hi => h _ (by omega), he.busy_eq]
    · rw [fieldAt_congr fun i hi => h _ (by omega), he.sti_eq]
    · rw [fieldAt_congr fun i hi => h _ (by omega), he.count_eq]

theorem fresh_blank : (⟨fun _ => 0, 0, 7⟩ : Cursor).Fresh 0 :=
  ⟨rfl, le_rfl, fun q _ => by simp [bitAt]⟩

theorem fiHeader_frameLen (n sti : ℕ) (t : Table) :
    fieldAt (fiHeader n sti t).buffer 9 4 = Nat.log2 n % 2 ^ 4 := by
  obtain ⟨he₁, -⟩ := writeField_extends sti 9 fresh_blank
  obtain ⟨he₂, hf₂⟩ := setvalue_extends (v := Nat.log2 n) (n := 4) he₁.fresh
  have he₃ := slotFormat.foldl_extends he₂.fresh t n
  rw [← hf₂]
  exact he₃.fieldAt_eq (by omega)

/-- **The layout of an FI.** -/
theorem fiHeader_layout {k sti : ℕ} {t : Table} (hk : k ≤ 7) (hsti : sti ≤ 511)
    (ht : ∀ i < 2 ^ k, Encodable (t i)) :
    fieldAt (fiHeader (2 ^ k) sti t).buffer 0 9 = sti ∧
      fieldAt (fiHeader (2 ^ k) sti t).buffer 9 4 = k ∧
      ∀ i < 2 ^ k, HasSlotTag (fiHeader (2 ^ k) sti t).buffer (13 + 13 * i) (t i) := by
  obtain ⟨he₁, hf₁⟩ := writeField_extends sti 9 fresh_blank
  obtain ⟨he₂, -⟩ := setvalue_extends (v := Nat.log2 (2 ^ k)) (n := 4) he₁.fresh
  have he₃ := slotFormat.foldl_extends he₂.fresh t (2 ^ k)
  refine ⟨?_, ?_, slotFormat.foldl_written he₂.fresh (2 ^ k) ht⟩
  · calc fieldAt (fiHeader (2 ^ k) sti t).buffer 0 9
        = fieldAt (writeField ⟨fun _ => 0, 0, 7⟩ sti 9).buffer 0 9 :=
          (he₃.fieldAt_eq (by omega)).trans (he₂.fieldAt_eq (by omega))
      _ = sti := by
          rw [hf₁]
          omega
  · rw [fiHeader_frameLen, Nat.log2_two_pow]
    omega

/-! ### Reading fields one behind the other -/

/-- A two-bit field as `decode_value` returns it. -/
def readTwoBits (p v : ℕ) : ℕ := if p % 8 = 7 then v / 2 * 128 + v % 2 else v

theorem decodeValue_two {c : Cursor} {buf : ℕ → ℕ} {p : ℕ} (h : c.At buf p) :
    (decodeValue c 2).1 = readTwoBits p (fieldAt buf p 2) ∧ (decodeValue c 2).2.At buf (p + 2) := by
  unfold readTwoBits
  by_cases hp : p % 8 = 7
  · obtain ⟨hval, hat⟩ := decodeValue_straddle h (show 2 < 8 by omega) (by omega)
    refine ⟨?_, hat⟩
    have hlo := fieldAt_lt buf (p + 1) 1
    have hsplit := fieldAt_add buf p 1 1
    rw [hp] at hval
    rw [hval, if_pos hp, show (2 : ℕ) = 1 + 1 from rfl, hsplit]
    show fieldAt buf p 1 * 128 + fieldAt buf (p + 1) 1 = _
    omega
  · rw [if_neg hp]
    exact decodeValue_field h (by omega) (by omega)

def readTag (p : ℕ) (e : SlotTag) : SlotTag :=
  { busy := Busy.ofCode (readTwoBits p e.busy.code)
    sti := e.sti
    count2hop := readTwoBits (p + 11) (min e.count2hop 3) }

theorem decodeSlotTag_at {c : Cursor} {buf : ℕ → ℕ} {p : ℕ} {e : SlotTag} (h : c.At buf p)
    (he : HasSlotTag buf p e) :
    (decodeSlotTag c).1 = readTag p e ∧ (decodeSlotTag c).2.At buf (p + 13) := by
  obtain ⟨hv₁, ha₁⟩ := decodeValue_two h
  obtain ⟨hv₂, ha₂⟩ := decodeValue_field ha₁ (show 0 < 9 by omega) (by omega)
  obtain ⟨hv₃, ha₃⟩ := decodeValue_two ha₂
  rw [he.busy_eq] at hv₁
  rw [he.sti_eq] at hv₂
  rw [show p + 2 + 9 = p + 11 from rfl, he.count_eq] at hv₃
  refine ⟨?_, ha₃⟩
  rw [readTag, ← hv₁, ← hv₂, ← hv₃]
  rfl

/-- A loop that reads the slots `0, ..., n - 1` one behind the other. -/
def readSlots (read : Cursor → SlotTag × Cursor) (c : Cursor) : ℕ → Table × Cursor
  | 0 => (Table.blank, c)
  | n + 1 =>
    let r := readSlots read c n
    let e := read r.2
    (Function.update r.1 n e.1, e.2)

theorem decodeSlotTags_eq (c : Cursor) (n : ℕ) : decodeSlotTags c n = readSlots decodeSlotTag c n := by
  induction n with
  | zero => rfl
  | succ n ih => rw [decodeSlotTags, readSlots, ih]

/-- **The slots are read one behind the other.** -/
theorem readSlots_at {read : Cursor → SlotTag × Cursor} {Has : ℕ → SlotTag → Prop}
    {out : ℕ → SlotTag → SlotTag} {w : ℕ} {buf : ℕ → ℕ} {c : Cursor} {p : ℕ} {t : Table}
    (hread : ∀ {c : Cursor} {p : ℕ} {e : SlotTag}, c.At buf p → Has p e →
      (read c).1 = out p e ∧ (read c).2.At buf (p + w))
    (h : c.At buf p) (n : ℕ) (ht : ∀ i < n, Has (p + w * i) (t i)) :
    (∀ i < n, (readSlots read c n).1 i = out (p + w * i) (t i)) ∧
      (readSlots read c n).2.At buf (p + w * n) :=
  Cursor.At.loop_at (readSlots read c) Has out t hread h (fun _ => rfl) n ht

theorem decodeFi_frameLen (m : ℕ) (buf : ℕ → ℕ) :
    (decodeFi true m buf).frameLen = 2 ^ fieldAt buf 9 4 := by
  have h₀ : (⟨buf, 0, 7⟩ : Cursor).At buf 0 := ⟨rfl, rfl, le_rfl⟩
  obtain ⟨-, ha₁⟩ := decodeValue_field h₀ (show 0 < 9 by omega) (by omega)
  obtain ⟨hv₂, -⟩ := decodeValue_field ha₁ (show 0 < 4 by omega) (by omega)
  exact congrArg (fun code => 2 ^ code) hv₂

/-- **What a receiver reads of an FI**: sender, frame length and tags, the two-bit fields as
`readTwoBits` has them. -/
theorem decodeFi_fiHeader {k sti m : ℕ} {t : Table} (hk : k ≤ 7) (hsti : sti ≤ 511)
    (ht : ∀ i < 2 ^ k, Encodable (t i)) :
    (decodeFi true m (fiHeader (2 ^ k) sti t).buffer).sti = sti ∧
      (decodeFi true m (fiHeader (2 ^ k) sti t).buffer).frameLen = 2 ^ k ∧
      ∀ i < 2 ^ k, (decodeFi true m (fiHeader (2 ^ k) sti t).buffer).slotDescribe i
        = readTag (13 + 13 * i) (t i) := by
  obtain ⟨hf₁, hf₂, hs⟩ := fiHeader_layout hk hsti ht
  set buf := (fiHeader (2 ^ k) sti t).buffer
  have h₀ : (⟨buf, 0, 7⟩ : Cursor).At buf 0 := ⟨rfl, rfl, le_rfl⟩
  obtain ⟨hv₁, ha₁⟩ := decodeValue_field h₀ (show 0 < 9 by omega) (by omega)
  obtain ⟨-, ha₂⟩ := decodeValue_field ha₁ (show 0 < 4 by omega) (by omega)
  have hlen : (decodeFi true m buf).frameLen = 2 ^ k := by rw [decodeFi_frameLen, hf₂]
  refine ⟨hv₁.trans hf₁, hlen, fun i hi => ?_⟩
  have htags := (@readSlots_at decodeSlotTag (HasSlotTag buf) readTag 13 buf _ _ t decodeSlotTag_at ha₂
    (2 ^ k) hs).1 i hi
  show (decodeSlotTags _ (decodeFi true m buf).frameLen).1 i = _
  rw [hlen, decodeSlotTags_eq]
  exact htags

/-! ### The round trip -/

/-- The receiver gets back what was sent, counts cut at three. -/
def RoundTrip (n sti m : ℕ) (t : Table) : Prop :=
  let fi := decodeFi true m (fiHeader n sti t).buffer
  fi.sti = sti ∧ fi.frameLen = n ∧ ∀ i < n,
    (fi.slotDescribe i).busy = (t i).busy ∧ (fi.slotDescribe i).sti = (t i).sti ∧
      (fi.slotDescribe i).count2hop = min (t i).count2hop 3

theorem readTwoBits_eq_iff {p v : ℕ} (hv : v ≤ 3) :
    readTwoBits p v = v ↔ (p % 8 = 7 → v ≤ 1) := by
  unfold readTwoBits
  split
  · constructor
    · intro h _
      omega
    · intro h
      have := h ‹_›
      omega
  · simp [*]

/-- **When an FI survives the codec.**  The two-bit fields that straddle a byte boundary are the `busy`
codes of the slots `i % 8 = 2` and the counts of the slots `i % 8 = 3`; they come back exactly when
their high bit is 0. -/
theorem fiHeader_roundTrip_iff (k sti m : ℕ) (t : Table) (hk : k ≤ 7) (hsti : sti ≤ 511)
    (ht : ∀ i < 2 ^ k, Encodable (t i)) :
    RoundTrip (2 ^ k) sti m t ↔
      ∀ i < 2 ^ k, (i % 8 = 2 → (t i).busy.code ≤ 1) ∧ (i % 8 = 3 → (t i).count2hop ≤ 1) := by
  obtain ⟨hsender, hlen, htags⟩ := decodeFi_fiHeader (m := m) hk hsti ht
  have hslot : ∀ i < 2 ^ k,
      ((Busy.ofCode (readTwoBits (13 + 13 * i) (t i).busy.code) = (t i).busy) ↔
        (i % 8 = 2 → (t i).busy.code ≤ 1)) ∧
      (readTwoBits (13 + 13 * i + 11) (min (t i).count2hop 3) = min (t i).count2hop 3 ↔
        (i % 8 = 3 → (t i).count2hop ≤ 1)) := by
    intro i hi
    constructor
    · rw [← Busy.code_injective.eq_iff, Busy.code_ofCode, readTwoBits_eq_iff (ht i hi).1]
      have : (13 + 13 * i) % 8 = 7 ↔ i % 8 = 2 := by omega
      rw [this]
    · rw [readTwoBits_eq_iff (by omega)]
      have : (13 + 13 * i + 11) % 8 = 7 ↔ i % 8 = 3 := by omega
      rw [this]
      omega
  unfold RoundTrip
  simp only [hsender, hlen, true_and]
  refine forall₂_congr fun i hi => ?_
  rw [htags i hi]
  simp only [readTag, true_and]
  rw [(hslot i hi).1, (hslot i hi).2]

/-- A table whose only recorded slot is `c`, with code `b` and station `sti`. -/
def Table.single (c : ℕ) (b : Busy) (sti : ℕ) : Table :=
  Function.update Table.blank c { busy := b, sti := sti }

/-- Station 5 one hop away in slot 1 of a frame of four comes through. -/
theorem fiHeader_roundTrip_slot_one : RoundTrip (2 ^ 2) 1 4 (Table.single 1 .oneHop 5) := by
  have htags : ∀ i < 2 ^ 2, Encodable (Table.single 1 .oneHop 5 i) := by
    unfold Encodable
    decide
  exact (fiHeader_roundTrip_iff 2 1 4 _ (by decide) (by decide) htags).mpr (by decide)

/-- Station 5 one hop away in slot 2 does not: its code 2 is read as 128. -/
theorem fiHeader_not_roundTrip :
    ¬ ∀ (k sti m : ℕ) (t : Table), k ≤ 7 → sti ≤ 511 → (∀ i < 2 ^ k, Encodable (t i)) →
      RoundTrip (2 ^ k) sti m t := by
  intro h
  have htags : ∀ i < 2 ^ 2, Encodable (Table.single 2 .oneHop 5 i) := by
    unfold Encodable
    decide
  have hbusy := ((h 2 1 4 _ (by decide) (by decide) htags).2.2 2 (by decide)).1
  have hread : ((decodeFi true 4 (fiHeader 4 1 (Table.single 2 .oneHop 5)).buffer).slotDescribe 2).busy
      = .other 124 := by decide +kernel
  exact absurd (hread.symm.trans hbusy) (by decide)

end VanetTdma.Ns3
