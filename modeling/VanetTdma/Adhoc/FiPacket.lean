import VanetTdma.Ns3.FiCodec

/-!
# Slot tags and the FI packet of ADHOC-MAC (`ns2/adhoc-mac`)

The second ns-2 simulator has its own table and packet: five `SLOT_` codes, no hop counts, and a tag of 20
bits (`busy` 1, `sti` 16, `psf` 2, `ptp` 1) behind a header that is the sender's `sti` alone.  `setvalue` and
`decode_value` have the text of the other simulators, so the cursor functions of `VanetTdma.Ns3.FiHeader`
serve here too.

Slot `i` starts at bit `16 + 20 * i`, at the begin or in the middle of a byte, so the short fields never
straddle a byte boundary and the `sti`, which always does, is made of whole bytes:

* `generateFiPacket_layout` — where `generate_FI_packet` puts sender and slots;
* `recvFi_returns_announced` — `recvFI` gives back the sender and, slot by slot, what was announced.
-/

namespace VanetTdma.Adhoc

open VanetTdma.BitStream
open VanetTdma.Ns3 (Cursor setvalue decodeValue writeField)

/-! ### Slot tags -/

/-- The `SLOT_` codes of the `busy` byte. -/
inductive Busy where
  | free
  | busy
  | collisionUnknown
  | neighborReceive
  | collisionDeny
deriving DecidableEq, Repr

/-- The byte behind a code. -/
def Busy.code : Busy → ℕ
  | .free => 0
  | .busy => 1
  | .collisionUnknown => 2
  | .neighborReceive => 3
  | .collisionDeny => 4

def Busy.ofBit (n : ℕ) : Busy := if n = 0 then .free else .busy

/-- `struct slot_tag`, with the values of its constructor as defaults. -/
structure SlotTag where
  busy : Busy := .free
  sti : ℕ := 0
  psf : ℕ := 0
  ptp : ℕ := 0
deriving DecidableEq, Repr

/-- `slot_describe`, by slot index. -/
abbrev Table := ℕ → SlotTag

/-- The table `new slot_tag[n]` makes. -/
def Table.blank : Table := fun _ => {}

/-- `class Frame_info`, the fields that `recvFI` fills and the node reads. -/
structure FrameInfo where
  sti : ℕ
  remainTime : ℤ
  slotDescribe : Table

/-! ### The widths of the fields -/

def bitLengthBusy : ℕ := 1
def bitLengthSti : ℕ := 16
def bitLengthPsf : ℕ := 2
def bitLengthPtp : ℕ := 1
def bitLengthSlotTag : ℕ := bitLengthBusy + bitLengthSti + bitLengthPsf + bitLengthPtp

/-! ### `generate_FI_packet` -/

/-- The bytes that `new unsigned char[fi_size]` allocates. -/
def fiSize (maxSlotNum : ℕ) : ℕ :=
  let bits := bitLengthSlotTag * maxSlotNum + bitLengthSti
  if bits % 8 ≠ 0 then bits / 8 + 1 else bits / 8

/-- The four fields of a slot. -/
def writeFields (c : Cursor) (busy sti psf ptp : ℕ) : Cursor :=
  let c := setvalue c busy bitLengthBusy
  let c := writeField c sti bitLengthSti
  let c := setvalue c psf bitLengthPsf
  setvalue c ptp bitLengthPtp

/-- The body of the loop over the slots: the node's own slot is announced for itself. -/
def writeSlot (slotNum : ℤ) (sti : ℕ) (t : Table) (c : Cursor) (i : ℕ) : Cursor :=
  if (i : ℤ) = slotNum then writeFields c 1 sti 0 0
  else if (t i).busy ≠ .busy then writeFields c 0 (t i).sti (t i).psf (t i).ptp
  else writeFields c 1 (t i).sti (t i).psf (t i).ptp

/-- The packet data that `generate_FI_packet` fills in. -/
def generateFiPacket (maxSlotNum : ℕ) (slotNum : ℤ) (sti : ℕ) (t : Table) : Cursor :=
  let c : Cursor := ⟨fun _ => 0, 0, 7⟩
  let c := writeField c sti bitLengthSti
  (List.range maxSlotNum).foldl (writeSlot slotNum sti t) c

/-! ### `recvFI` -/

/-- `decode_slot_tag`. -/
def decodeSlotTag (c : Cursor) : SlotTag × Cursor :=
  let busy := decodeValue c bitLengthBusy
  let sti := decodeValue busy.2 bitLengthSti
  let psf := decodeValue sti.2 bitLengthPsf
  let ptp := decodeValue psf.2 bitLengthPtp
  ({ busy := Busy.ofBit busy.1, sti := sti.1, psf := psf.1, ptp := ptp.1 }, ptp.2)

/-- The loop of `recvFI` over the slots. -/
def decodeSlotTags (c : Cursor) : ℕ → Table × Cursor
  | 0 => (Table.blank, c)
  | n + 1 =>
    let r := decodeSlotTags c n
    let e := decodeSlotTag r.2
    (Function.update r.1 n e.1, e.2)

/-- The frame information `recvFI` makes of the packet data, with `max_slot_num_ = m`. -/
def recvFi (m : ℕ) (buffer : ℕ → ℕ) : FrameInfo :=
  let sti := decodeValue ⟨buffer, 0, 7⟩ bitLengthSti
  { sti := sti.1
    remainTime := m
    slotDescribe := (decodeSlotTags sti.2 m).1 }

/-! ### The layout -/

/-- What a node with slot `slotNum` announces for slot `i`. -/
def announced (slotNum : ℤ) (sti : ℕ) (t : Table) (i : ℕ) : SlotTag :=
  if (i : ℤ) = slotNum then { busy := .busy, sti := sti }
  else { t i with busy := if (t i).busy = .busy then .busy else .free }

/-- The tags whose values fit their fields. -/
structure Encodable (e : SlotTag) : Prop where
  sti_lt : e.sti < 2 ^ 16
  psf_le : e.psf ≤ 3
  ptp_le : e.ptp ≤ 1

/-- The four fields of a slot in a buffer. -/
structure HasFields (buf : ℕ → ℕ) (p : ℕ) (busy sti psf ptp : ℕ) : Prop where
  busy_eq : fieldAt buf p 1 = busy
  sti_eq : fieldAt buf (p + 1) 16 = sti
  psf_eq : fieldAt buf (p + 17) 2 = psf
  ptp_eq : fieldAt buf (p + 19) 1 = ptp

theorem HasFields.congr {buf buf' : ℕ → ℕ} {p busy sti psf ptp : ℕ}
    (h : ∀ q, q < p + 20 → bitAt buf' q = bitAt buf q) (he : HasFields buf p busy sti psf ptp) :
    HasFields buf' p busy sti psf ptp := by
  refine ⟨?_, ?_, ?_, ?_⟩
  · rw [fieldAt_congr fun i hi => h _ (by omega), he.busy_eq]
  · rw [fieldAt_congr fun i hi => h _ (by omega), he.sti_eq]
  · rw [fieldAt_congr fun i hi => h _ (by omega), he.psf_eq]
  · rw [fieldAt_congr fun i hi => h _ (by omega), he.ptp_eq]

/-- The four fields take 20 bits and spell their values, cut to their widths. -/
theorem writeFields_spec {c : Cursor} {p : ℕ} (h : c.Fresh p) (busy sti psf ptp : ℕ) :
    c.Extends (writeFields c busy sti psf ptp) p 20 ∧
      HasFields (writeFields c busy sti psf ptp).buffer p
        (busy % 2 ^ 1) (sti % 2 ^ 16) (psf % 2 ^ 2) (ptp % 2 ^ 1) := by
  have hrw : writeFields c busy sti psf ptp
      = setvalue (setvalue (writeField (setvalue c busy 1) sti 16) psf 2) ptp 1 := rfl
  obtain ⟨he₁, hf₁⟩ := Ns3.setvalue_extends (v := busy) (n := 1) h
  obtain ⟨he₂, hf₂⟩ := Ns3.writeField_extends sti 16 he₁.fresh
  obtain ⟨he₃, hf₃⟩ := Ns3.setvalue_extends (v := psf) (n := 2) he₂.fresh
  obtain ⟨he₄, hf₄⟩ := Ns3.setvalue_extends (v := ptp) (n := 1) he₃.fresh
  rw [hrw]
  refine ⟨((he₁.trans he₂).trans he₃).trans he₄, ?_, ?_, ?_, hf₄⟩
  · rw [he₄.fieldAt_eq (by omega), he₃.fieldAt_eq (by omega), he₂.fieldAt_eq (by omega), hf₁]
  · rw [he₄.fieldAt_eq (by omega), he₃.fieldAt_eq (by omega), hf₂]
  · rw [he₄.fieldAt_eq (by omega), show p + 17 = p + 1 + 16 from rfl, hf₃]

def HasSlot (slotNum : ℤ) (sti : ℕ) (t : Table) (buf : ℕ → ℕ) (p i : ℕ) : Prop :=
  HasFields buf p (announced slotNum sti t i).busy.code (announced slotNum sti t i).sti
    (announced slotNum sti t i).psf (announced slotNum sti t i).ptp

section layout

variable {slotNum : ℤ} {sti : ℕ} {t : Table} {c : Cursor} {p : ℕ}

theorem writeSlot_extends (h : c.Fresh p) (i : ℕ) : c.Extends (writeSlot slotNum sti t c i) p 20 := by
  unfold writeSlot
  split
  · exact (writeFields_spec h _ _ _ _).1
  · split
    · exact (writeFields_spec h _ _ _ _).1
    · exact (writeFields_spec h _ _ _ _).1

theorem hasSlot_writeSlot (hsti : sti < 2 ^ 16) {i : ℕ} (ht : Encodable (t i)) (h : c.Fresh p) :
    HasSlot slotNum sti t (writeSlot slotNum sti t c i).buffer p i := by
  obtain ⟨hs, hp, hq⟩ := ht
  unfold HasSlot writeSlot announced
  by_cases hown : (i : ℤ) = slotNum
  · rw [if_pos hown, if_pos hown]
    have hw := (writeFields_spec h 1 sti 0 0).2
    rw [Nat.mod_eq_of_lt hsti] at hw
    exact hw
  · rw [if_neg hown, if_neg hown]
    by_cases hbusy : (t i).busy = .busy
    · rw [if_neg (not_not.mpr hbusy), if_pos hbusy]
      have hw := (writeFields_spec h 1 (t i).sti (t i).psf (t i).ptp).2
      rw [Nat.mod_eq_of_lt hs, Nat.mod_eq_of_lt (show (t i).psf < 2 ^ 2 by omega),
        Nat.mod_eq_of_lt (show (t i).ptp < 2 ^ 1 by omega)] at hw
      exact hw
    · rw [if_pos hbusy, if_neg hbusy]
      have hw := (writeFields_spec h 0 (t i).sti (t i).psf (t i).ptp).2
      rw [Nat.mod_eq_of_lt hs, Nat.mod_eq_of_lt (show (t i).psf < 2 ^ 2 by omega),
        Nat.mod_eq_of_lt (show (t i).ptp < 2 ^ 1 by omega)] at hw
      exact hw

end layout

/-- The layout of a packet: the sender and the slots. -/
structure HasFi (buf : ℕ → ℕ) (n : ℕ) (slotNum : ℤ) (sti : ℕ) (t : Table) : Prop where
  sti_eq : fieldAt buf 0 16 = sti
  slots : ∀ i < n, HasSlot slotNum sti t buf (16 + 20 * i) i

theorem generateFiPacket_layout {n sti : ℕ} {slotNum : ℤ} {t : Table} (hsti : sti < 2 ^ 16)
    (ht : ∀ i < n, Encodable (t i)) :
    HasFi (generateFiPacket n slotNum sti t).buffer n slotNum sti t := by
  obtain ⟨he₁, hf₁⟩ := Ns3.writeField_extends sti 16 Ns3.fresh_blank
  have he₂ : (writeField ⟨fun _ => 0, 0, 7⟩ sti 16).Extends (generateFiPacket n slotNum sti t) (0 + 16)
      (20 * n) := he₁.fresh.foldl_extends writeSlot_extends id n
  refine ⟨?_, ?_⟩
  · calc fieldAt (generateFiPacket n slotNum sti t).buffer 0 16
        = fieldAt (writeField ⟨fun _ => 0, 0, 7⟩ sti 16).buffer 0 16 := he₂.fieldAt_eq (by omega)
      _ = sti := by
          rw [hf₁]
          omega
  · exact he₁.fresh.foldl_written (HasSlot slotNum sti t) writeSlot_extends HasFields.congr id n
      fun i hi _ _ hc => hasSlot_writeSlot hsti (ht i hi) hc

theorem le_fiSize (n : ℕ) : 20 * n + 16 ≤ 8 * fiSize n := by
  have hbits : bitLengthSlotTag * n + bitLengthSti = 20 * n + 16 := rfl
  simp only [fiSize, hbits]
  split
  · omega
  · omega

theorem HasFi.cut {buf data : ℕ → ℕ} {n sti : ℕ} {slotNum : ℤ} {t : Table}
    (h : HasFi buf n slotNum sti t) (hdata : ∀ i < fiSize n, data i = buf i) :
    HasFi data n slotNum sti t := by
  have hsize := le_fiSize n
  have hbit : ∀ q, q < 20 * n + 16 → bitAt data q = bitAt buf q := by
    intro q hq
    rw [bitAt, bitAt, hdata (q / 8) (by omega)]
  refine ⟨?_, fun i hi => (h.slots i hi).congr fun q hq => hbit q (by omega)⟩
  rw [fieldAt_congr fun i hi => hbit _ (by omega), h.sti_eq]

/-! ### The round trip -/

theorem decodeSlotTag_at {c : Cursor} {buf : ℕ → ℕ} {p busy sti psf ptp : ℕ} (h : c.At buf p)
    (halign : p % 4 = 0) (he : HasFields buf p busy sti psf ptp) :
    (decodeSlotTag c).1 = ⟨Busy.ofBit busy, sti, psf, ptp⟩ ∧ (decodeSlotTag c).2.At buf (p + 20) := by
  obtain ⟨hv₁, ha₁⟩ := Ns3.decodeValue_field h (show 0 < 1 by omega) (by omega)
  obtain ⟨hv₂, ha₂⟩ := Ns3.decodeValue_field ha₁ (show 0 < 16 by omega) (by omega)
  obtain ⟨hv₃, ha₃⟩ := Ns3.decodeValue_field ha₂ (show 0 < 2 by omega) (by omega)
  obtain ⟨hv₄, ha₄⟩ := Ns3.decodeValue_field ha₃ (show 0 < 1 by omega) (by omega)
  rw [he.busy_eq] at hv₁
  rw [he.sti_eq] at hv₂
  rw [show p + 1 + 16 = p + 17 from rfl, he.psf_eq] at hv₃
  rw [show p + 1 + 16 + 2 = p + 19 from rfl, he.ptp_eq] at hv₄
  refine ⟨?_, ha₄⟩
  rw [← hv₁, ← hv₂, ← hv₃, ← hv₄]
  rfl

theorem ofBit_announced (slotNum : ℤ) (sti : ℕ) (t : Table) (i : ℕ) :
    Busy.ofBit (announced slotNum sti t i).busy.code = (announced slotNum sti t i).busy := by
  unfold announced
  split
  · rfl
  · show Busy.ofBit (Busy.code (if _ then _ else _)) = if _ then _ else _
    split <;> rfl

theorem decodeSlotTag_announced {c : Cursor} {buf : ℕ → ℕ} {p i sti : ℕ} {slotNum : ℤ} {t : Table}
    (h : c.At buf p) (he : p % 4 = 0 ∧ HasSlot slotNum sti t buf p i) :
    (decodeSlotTag c).1 = announced slotNum sti t i ∧ (decodeSlotTag c).2.At buf (p + 20) := by
  obtain ⟨htag, hat⟩ := decodeSlotTag_at h he.1 he.2
  rw [ofBit_announced] at htag
  exact ⟨htag, hat⟩

/-- **The round trip.**  `recvFI`, applied to packet data whose `fi_size` bytes are those that
`generate_FI_packet` built, returns the sender and, for every slot of the frame, the tag that was
announced: the own one at `slot_num_`, elsewhere `busy` for the `SLOT_BUSY` entries and the other fields
unchanged. -/
theorem recvFi_returns_announced (n sti : ℕ) (slotNum : ℤ) (t : Table) (data : ℕ → ℕ)
    (hsti : sti < 2 ^ 16) (ht : ∀ i < n, Encodable (t i))
    (hdata : ∀ i < fiSize n, data i = (generateFiPacket n slotNum sti t).buffer i) :
    (recvFi n data).sti = sti ∧
      ∀ i < n,
        ((i : ℤ) = slotNum → (recvFi n data).slotDescribe i = ⟨.busy, sti, 0, 0⟩) ∧
        ((i : ℤ) ≠ slotNum → (recvFi n data).slotDescribe i
          = ⟨if (t i).busy = .busy then .busy else .free, (t i).sti, (t i).psf, (t i).ptp⟩) := by
  have hfi : HasFi data n slotNum sti t := (generateFiPacket_layout hsti ht).cut hdata
  have h₀ : (⟨data, 0, 7⟩ : Cursor).At data 0 := ⟨rfl, rfl, le_rfl⟩
  obtain ⟨hv₁, ha₁⟩ := Ns3.decodeValue_field h₀ (show 0 < 16 by omega) (by omega)
  rw [hfi.sti_eq] at hv₁
  have hslots := (Cursor.At.loop_at (decodeSlotTags (decodeValue ⟨data, 0, 7⟩ 16).2)
    (fun p i => p % 4 = 0 ∧ HasSlot slotNum sti t data p i) (fun _ i => announced slotNum sti t i) id
    decodeSlotTag_announced ha₁ (fun _ => rfl) n fun i hi => ⟨by omega, hfi.slots i hi⟩).1
  refine ⟨hv₁, fun i hi => ⟨fun hown => ?_, fun hne => ?_⟩⟩
  · refine (hslots i hi).trans ?_
    show announced slotNum sti t i = _
    rw [announced, if_pos hown]
  · refine (hslots i hi).trans ?_
    show announced slotNum sti t i = _
    rw [announced, if_neg hne]

/-- Station 300 in slot 1 of three; it hears station 65535 in slot 0 and knows of a collision in slot 2. -/
def heardTable : Table := fun i =>
  if i = 0 then { busy := .busy, sti := 65535, psf := 3, ptp := 1 }
  else if i = 2 then { busy := .collisionDeny, sti := 9, psf := 2 } else {}

theorem recvFi_returns_heard :
    (recvFi 3 (generateFiPacket 3 1 300 heardTable).buffer).slotDescribe 0 = ⟨.busy, 65535, 3, 1⟩ ∧
      (recvFi 3 (generateFiPacket 3 1 300 heardTable).buffer).slotDescribe 1 = ⟨.busy, 300, 0, 0⟩ ∧
      (recvFi 3 (generateFiPacket 3 1 300 heardTable).buffer).slotDescribe 2 = ⟨.free, 9, 2, 0⟩ := by
  have htags : ∀ i < 3, Encodable (heardTable i) := by
    intro i hi
    rcases (show i = 0 ∨ i = 1 ∨ i = 2 by omega) with rfl | rfl | rfl <;>
      exact ⟨by decide, by decide, by decide⟩
  obtain ⟨-, hslots⟩ := recvFi_returns_announced 3 300 1 heardTable _ (by decide) htags fun _ _ => rfl
  exact ⟨(hslots 0 (by decide)).2 (by decide), (hslots 1 (by decide)).1 rfl,
    (hslots 2 (by decide)).2 (by decide)⟩

end VanetTdma.Adhoc
