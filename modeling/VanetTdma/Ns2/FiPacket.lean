import VanetTdma.Ns3.FiCodec

/-!
# The FI packet of the ns-2 simulator (`mac-tdma.cc`)

`setvalue` and `decode_value` have the same text in both simulators, so the cursor functions of
`VanetTdma.Ns3.FiHeader` serve here as well; only the widths of the fields differ.  The header takes 20
bits and each slot 28, so every slot starts at the begin or in the middle of a byte: the two-bit fields
and the length never straddle a byte boundary, and the fields that do are made of whole bytes.

`recvFi_generateFiPacket`: what `recvFI` reads of a packet is what `generate_FI_packet` was given, for every
frame length up to 256.
-/

namespace VanetTdma.Ns2

open VanetTdma.BitStream VanetTdma.SlotLoop
open VanetTdma.Ns3 (Cursor SlotTag Table FrameInfo Busy setvalue decodeValue writeField readSlots
  clearCounts)

/-! ### The widths of the fields -/

def bitLengthBusy : ℕ := 2
def bitLengthSti : ℕ := 16
def bitLengthFramelen : ℕ := 4
def bitLengthCount : ℕ := 8
def bitLengthPsf : ℕ := 2
def bitLengthSlotTag : ℕ := bitLengthBusy + bitLengthSti + bitLengthPsf + bitLengthCount

/-! ### `generate_FI_packet` -/

/-- The bytes that `new unsigned char[fi_size]` allocates. -/
def fiSize (maxSlotNum : ℕ) : ℕ :=
  let bits := bitLengthSlotTag * maxSlotNum + bitLengthSti + bitLengthFramelen
  if bits % 8 ≠ 0 then bits / 8 + 1 else bits / 8

/-- The fields of one slot.  The count is cut to a byte, not at its largest value. -/
def writeSlotTag (c : Cursor) (e : SlotTag) : Cursor :=
  let c := setvalue c e.busy.code bitLengthBusy
  let c := writeField c e.sti bitLengthSti
  let c := setvalue c (e.count2hop % 256) bitLengthCount
  setvalue c e.psf bitLengthPsf

/-- The packet data that `generate_FI_packet` fills in, with the table it leaves behind: the counts of
the frame just sent start again. -/
def generateFiPacket (maxSlotNum globalSti : ℕ) (t : Table) : Cursor × Table :=
  let c : Cursor := ⟨fun _ => 0, 0, 7⟩
  let c := writeField c globalSti bitLengthSti
  let c := setvalue c (Nat.log2 maxSlotNum) bitLengthFramelen
  ((List.range maxSlotNum).foldl (fun c i => writeSlotTag c (t i)) c,
    forSlots maxSlotNum (fun _ => clearCounts globalSti) t)

/-! ### `recvFI` -/

/-- `decode_slot_tag`. -/
def decodeSlotTag (c : Cursor) : SlotTag × Cursor :=
  let busy := decodeValue c bitLengthBusy
  let sti := decodeValue busy.2 bitLengthSti
  let count := decodeValue sti.2 bitLengthCount
  let psf := decodeValue count.2 bitLengthPsf
  ({ busy := Busy.ofCode busy.1, sti := sti.1, count2hop := count.1, psf := psf.1 }, psf.2)

/-- The frame information `recvFI` makes of the packet data, on a node with `max_slot_num_ = m`. -/
def recvFi (adjFrameEna : Bool) (m : ℕ) (buffer : ℕ → ℕ) : FrameInfo :=
  let sti := decodeValue ⟨buffer, 0, 7⟩ bitLengthSti
  let code := decodeValue sti.2 bitLengthFramelen
  let frameLen := if adjFrameEna then 2 ^ code.1 else m
  { sti := sti.1
    frameLen := frameLen
    remainTime := m
    slotDescribe := (readSlots decodeSlotTag code.2 frameLen).1 }

/-! ### The layout -/

/-- The four fields of a slot in a buffer. -/
structure HasSlotTag (buf : ℕ → ℕ) (p : ℕ) (e : SlotTag) : Prop where
  busy_eq : fieldAt buf p 2 = e.busy.code
  sti_eq : fieldAt buf (p + 2) 16 = e.sti
  count_eq : fieldAt buf (p + 18) 8 = e.count2hop
  psf_eq : fieldAt buf (p + 26) 2 = e.psf

/-- The tags whose values fit their fields. -/
structure Encodable (e : SlotTag) : Prop where
  busy_le : e.busy.code ≤ 3
  sti_lt : e.sti < 2 ^ 16
  count_le : e.count2hop ≤ 255
  psf_le : e.psf ≤ 3

theorem writeSlotTag_extends {c : Cursor} {p : ℕ} (h : c.Fresh p) (e : SlotTag) :
    c.Extends (writeSlotTag c e) p 28 := by
  obtain ⟨he₁, -⟩ := Ns3.setvalue_extends (v := e.busy.code) (n := 2) h
  obtain ⟨he₂, -⟩ := Ns3.writeField_extends e.sti 16 he₁.fresh
  obtain ⟨he₃, -⟩ := Ns3.setvalue_extends (v := e.count2hop % 256) (n := 8) he₂.fresh
  obtain ⟨he₄, -⟩ := Ns3.setvalue_extends (v := e.psf) (n := 2) he₃.fresh
  exact ((he₁.trans he₂).trans he₃).trans he₄

theorem hasSlotTag_writeSlotTag {c : Cursor} {p : ℕ} {e : SlotTag} (h : c.Fresh p)
    (he : Encodable e) : HasSlotTag (writeSlotTag c e).buffer p e := by
  have hrw : writeSlotTag c e = setvalue (setvalue (writeField (setvalue c e.busy.code 2) e.sti 16)
      (e.count2hop % 256) 8) e.psf 2 := rfl
  obtain ⟨he₁, hf₁⟩ := Ns3.setvalue_extends (v := e.busy.code) (n := 2) h
  obtain ⟨he₂, hf₂⟩ := Ns3.writeField_extends e.sti 16 he₁.fresh
  obtain ⟨he₃, hf₃⟩ := Ns3.setvalue_extends (v := e.count2hop % 256) (n := 8) he₂.fresh
  obtain ⟨he₄, hf₄⟩ := Ns3.setvalue_extends (v := e.psf) (n := 2) he₃.fresh
  obtain ⟨hb, hs, hc, hp⟩ := he
  rw [hrw]
  refine ⟨?_, ?_, ?_, ?_⟩
  · rw [he₄.fieldAt_eq (by omega), he₃.fieldAt_eq (by omega), he₂.fieldAt_eq (by omega), hf₁]
    omega
  · rw [he₄.fieldAt_eq (by omega), he₃.fieldAt_eq (by omega), hf₂]
    omega
  · rw [he₄.fieldAt_eq (by omega), show p + 18 = p + 2 + 16 from rfl, hf₃]
    omega
  · rw [show p + 26 = p + 2 + 16 + 8 from rfl, hf₄]
    omega

theorem HasSlotTag.congr {buf buf' : ℕ → ℕ} {p : ℕ} {e : SlotTag}
    (h : ∀ q, q < p + 28 → bitAt buf' q = bitAt buf q) (he : HasSlotTag buf p e) :
    HasSlotTag buf' p e := by
  refine ⟨?_, ?_, ?_, ?_⟩
  · rw [fieldAt_congr fun i hi => h _ (by omega), he.busy_eq]
  · rw [fieldAt_congr fun i hi => h _ (by omega), he.sti_eq]
  · rw [fieldAt_congr fun i hi => h _ (by omega), he.count_eq]
  · rw [fieldAt_congr fun i hi => h _ (by omega), he.psf_eq]

theorem slotFormat : Ns3.SlotFormat writeSlotTag Encodable HasSlotTag 28 where
  extend := writeSlotTag_extends
  written := hasSlotTag_writeSlotTag
  congr := HasSlotTag.congr

/-- The layout of a packet: sender, length code and the slots. -/
structure HasFi (buf : ℕ → ℕ) (k sti : ℕ) (t : Table) : Prop where
  sti_eq : fieldAt buf 0 16 = sti
  code_eq : fieldAt buf 16 4 = k
  slots : ∀ i < 2 ^ k, HasSlotTag buf (20 + 28 * i) (t i)

theorem generateFiPacket_layout {k sti : ℕ} {t : Table} (hk : k ≤ 8) (hsti : sti < 2 ^ 16)
    (ht : ∀ i < 2 ^ k, Encodable (t i)) : HasFi (generateFiPacket (2 ^ k) sti t).1.buffer k sti t := by
  obtain ⟨he₁, hf₁⟩ := Ns3.writeField_extends sti 16 Ns3.fresh_blank
  obtain ⟨he₂, hf₂⟩ := Ns3.setvalue_extends (v := Nat.log2 (2 ^ k)) (n := 4) he₁.fresh
  have he₃ := slotFormat.foldl_extends he₂.fresh t (2 ^ k)
  refine ⟨?_, ?_, slotFormat.foldl_written he₂.fresh (2 ^ k) ht⟩
  · calc fieldAt (generateFiPacket (2 ^ k) sti t).1.buffer 0 16
        = fieldAt (writeField ⟨fun _ => 0, 0, 7⟩ sti 16).buffer 0 16 :=
          (he₃.fieldAt_eq (by omega)).trans (he₂.fieldAt_eq (by omega))
      _ = sti := by
          rw [hf₁]
          omega
  · calc fieldAt (generateFiPacket (2 ^ k) sti t).1.buffer 16 4
        = Nat.log2 (2 ^ k) % 2 ^ 4 := (he₃.fieldAt_eq (by omega)).trans hf₂
      _ = k := by
          rw [Nat.log2_two_pow]
          omega

theorem le_fiSize (n : ℕ) : 28 * n + 20 ≤ 8 * fiSize n := by
  have hbits : bitLengthSlotTag * n + bitLengthSti + bitLengthFramelen = 28 * n + 20 := rfl
  simp only [fiSize, hbits]
  split
  · omega
  · omega

theorem HasFi.cut {buf data : ℕ → ℕ} {k sti : ℕ} {t : Table} (h : HasFi buf k sti t)
    (hdata : ∀ i < fiSize (2 ^ k), data i = buf i) : HasFi data k sti t := by
  have hsize := le_fiSize (2 ^ k)
  have hbit : ∀ q, q < 28 * 2 ^ k + 20 → bitAt data q = bitAt buf q := by
    intro q hq
    rw [bitAt, bitAt, hdata (q / 8) (by omega)]
  refine ⟨?_, ?_, fun i hi => (h.slots i hi).congr fun q hq => hbit q (by omega)⟩
  · rw [fieldAt_congr fun i hi => hbit _ (by omega), h.sti_eq]
  · rw [fieldAt_congr fun i hi => hbit _ (by omega), h.code_eq]

/-! ### The round trip -/

/-- The part of a tag that a packet carries. -/
def carried (e : SlotTag) : SlotTag :=
  { busy := e.busy, sti := e.sti, count2hop := e.count2hop, psf := e.psf }

/-- A slot at the begin or in the middle of a byte is read as it was written. -/
theorem decodeSlotTag_at {c : Cursor} {buf : ℕ → ℕ} {p : ℕ} {e : SlotTag} (h : c.At buf p)
    (he : p % 4 = 0 ∧ HasSlotTag buf p e) :
    (decodeSlotTag c).1 = carried e ∧ (decodeSlotTag c).2.At buf (p + 28) := by
  obtain ⟨halign, he⟩ := he
  obtain ⟨hv₁, ha₁⟩ := Ns3.decodeValue_field h (show 0 < 2 by omega) (by omega)
  obtain ⟨hv₂, ha₂⟩ := Ns3.decodeValue_field ha₁ (show 0 < 16 by omega) (by omega)
  obtain ⟨hv₃, ha₃⟩ := Ns3.decodeValue_field ha₂ (show 0 < 8 by omega) (by omega)
  obtain ⟨hv₄, ha₄⟩ := Ns3.decodeValue_field ha₃ (show 0 < 2 by omega) (by omega)
  rw [he.busy_eq] at hv₁
  rw [he.sti_eq] at hv₂
  rw [show p + 2 + 16 = p + 18 from rfl, he.count_eq] at hv₃
  rw [show p + 2 + 16 + 8 = p + 26 from rfl, he.psf_eq] at hv₄
  refine ⟨?_, ha₄⟩
  rw [carried, ← Busy.ofCode_code e.busy, ← hv₁, ← hv₂, ← hv₃, ← hv₄]
  rfl

/-- **The round trip.**  `recvFI`, applied to packet data whose `fi_size` bytes are those that
`generate_FI_packet` built, returns the sender, the frame length and every slot. -/
theorem recvFi_generateFiPacket (k sti m : ℕ) (t : Table) (data : ℕ → ℕ) (hk : k ≤ 8)
    (hsti : sti < 2 ^ 16) (ht : ∀ i < 2 ^ k, Encodable (t i))
    (hdata : ∀ i < fiSize (2 ^ k), data i = (generateFiPacket (2 ^ k) sti t).1.buffer i) :
    (recvFi true m data).sti = sti ∧ (recvFi true m data).frameLen = 2 ^ k ∧
      ∀ i < 2 ^ k, ((recvFi true m data).slotDescribe i).busy = (t i).busy ∧
        ((recvFi true m data).slotDescribe i).sti = (t i).sti ∧
        ((recvFi true m data).slotDescribe i).count2hop = (t i).count2hop ∧
        ((recvFi true m data).slotDescribe i).psf = (t i).psf := by
  have hfi := (generateFiPacket_layout hk hsti ht).cut hdata
  have h₀ : (⟨data, 0, 7⟩ : Cursor).At data 0 := ⟨rfl, rfl, le_rfl⟩
  obtain ⟨hv₁, ha₁⟩ := Ns3.decodeValue_field h₀ (show 0 < 16 by omega) (by omega)
  obtain ⟨hv₂, ha₂⟩ := Ns3.decodeValue_field ha₁ (show 0 < 4 by omega) (by omega)
  rw [hfi.sti_eq] at hv₁
  rw [Nat.zero_add, hfi.code_eq] at hv₂
  have hlen : (recvFi true m data).frameLen = 2 ^ k := congrArg (fun code => 2 ^ code) hv₂
  refine ⟨hv₁, hlen, fun i hi => ?_⟩
  have htag : (recvFi true m data).slotDescribe i = carried (t i) := by
    have hread := @Ns3.readSlots_at decodeSlotTag (fun p e => p % 4 = 0 ∧ HasSlotTag data p e)
      (fun _ e => carried e) 28 data _ _ t decodeSlotTag_at ha₂ (2 ^ k)
      fun i hi => ⟨by omega, hfi.slots i hi⟩
    show (readSlots decodeSlotTag _ (recvFi true m data).frameLen).1 i = _
    rw [hlen]
    exact hread.1 i hi
  rw [htag]
  exact ⟨rfl, rfl, rfl, rfl⟩

/-- Station 260 two hops away in slot 1 of two, with a count that needs the whole byte. -/
def farTable : Table := Function.update Table.blank 1 { busy := .twoHop, sti := 260, count2hop := 200 }

theorem recvFi_generateFiPacket_far :
    ((recvFi true 4 (generateFiPacket 2 7 farTable).1.buffer).slotDescribe 1).sti = 260 ∧
      ((recvFi true 4 (generateFiPacket 2 7 farTable).1.buffer).slotDescribe 1).count2hop = 200 := by
  have htags : ∀ i < 2 ^ 1, Encodable (farTable i) := by
    intro i hi
    rcases (show i = 0 ∨ i = 1 by omega) with rfl | rfl <;> exact ⟨by decide, by decide, by decide, by decide⟩
  obtain ⟨-, -, hslots⟩ := recvFi_generateFiPacket 1 7 4 farTable _ (by decide) (by decide) htags
    fun _ _ => rfl
  obtain ⟨-, hsti, hcount, -⟩ := hslots 1 (by decide)
  exact ⟨hsti, hcount⟩

end VanetTdma.Ns2
