import Mathlib.Data.BitVec
import Mathlib.Tactic.Common
import VanetTdma.Lib.DualPort

/-!
# Slot-status entries and received frame information (`desc_processor.v`, `tdma_control.v`)

The 64-bit word of the slot-status memory is taken apart into the fields between its `_LSB` and `_MSB`
positions.  The frame information of a received packet starts at word `RX_TYPE_ADDR` of the packet
memory: four bits of frame length code, eight bits of sender sid, then fourteen bits (a *tag*) for each
slot.
-/

namespace VanetTdma.Fpga

/-- One entry of `blk_mem_slot_status`, from bit 0 up. -/
structure SlotEntry where
  status : BitVec 5 := 0
  busy : BitVec 2 := 0
  occupierSid : BitVec 8 := 0
  count2hop : BitVec 8 := 0
  count3hop : BitVec 9 := 0
  psf : BitVec 2 := 0
  life : BitVec 10 := 0
  c3hopN : Bool := false
  locker : Bool := false
  existed : Bool := false
  unused : BitVec 17 := 0
deriving DecidableEq

/-- The slot-status memory and its two ports: A belongs to `desc_processor`, B to `tdma_control`. -/
abbrev SlotRam := DualPort.Ram (BitVec 7) SlotEntry

abbrev SlotPort := DualPort.Port (BitVec 7) SlotEntry

/-- `OCCUPIER_LIFE_FRAME` of both modules. -/
def occupierLifeFrame : BitVec 10 := 3

/-! ### Tags -/

/-- `FI_PER_SLOT_BITSNUM`. -/
def fiPerSlotBitsnum : ℕ := 14

/-- The tag of one slot in a frame information. -/
abbrev FiTag := BitVec 14

def FiTag.busy (t : FiTag) : BitVec 2 := t.extractLsb' 0 2

def FiTag.occupierSid (t : FiTag) : BitVec 8 := t.extractLsb' 2 8

def FiTag.count (t : FiTag) : BitVec 2 := t.extractLsb' 10 2

def FiTag.psf (t : FiTag) : BitVec 2 := t.extractLsb' 12 2

/-- The vector of the given bits. -/
def ofBits {n : ℕ} (f : ℕ → Bool) : BitVec n :=
  (BitVec.iunfoldr (fun j s => (s, f j)) ()).2

theorem getLsbD_ofBits {n : ℕ} (f : ℕ → Bool) {j : ℕ} (hj : j < n) :
    (ofBits f : BitVec n).getLsbD j = f j :=
  BitVec.iunfoldr_getLsbD (fun _ => ()) ⟨j, hj⟩ fun _ => rfl

/-- The assignment `v[k] = b` to one bit. -/
def writeBit {n : ℕ} (v : BitVec n) (k : ℕ) (b : Bool) : BitVec n :=
  ofBits fun j => if j = k then b else v.getLsbD j

theorem getLsbD_writeBit {n : ℕ} (v : BitVec n) (k : ℕ) (b : Bool) {j : ℕ} (hj : j < n) :
    (writeBit v k b).getLsbD j = if j = k then b else v.getLsbD j :=
  getLsbD_ofBits _ hj

/-! ### The received packet -/

/-- `blk_mem_rcvpkt`: 512 words. -/
abbrev RcvPkt := BitVec 9 → BitVec 32

/-- `RX_TYPE_ADDR`: the word at which the frame body starts. -/
def rxTypeAddr : BitVec 9 := 20

/-- Bit `i` of the frame body. -/
def RcvPkt.bit (pkt : RcvPkt) (i : ℕ) : Bool :=
  (pkt (rxTypeAddr + BitVec.ofNat 9 (i / 32))).getLsbD (i % 32)

def RcvPkt.frameLenCode (pkt : RcvPkt) : BitVec 4 := (pkt rxTypeAddr).extractLsb' 0 4

def RcvPkt.senderSid (pkt : RcvPkt) : BitVec 8 := (pkt rxTypeAddr).extractLsb' 4 8

/-- The tag of slot `a`: fourteen bits from bit `12 + 14 a` on. -/
def RcvPkt.tag (pkt : RcvPkt) (a : ℕ) : FiTag :=
  ofBits fun j => pkt.bit (12 + fiPerSlotBitsnum * a + j)

theorem RcvPkt.getLsbD_tag (pkt : RcvPkt) (a : ℕ) {j : ℕ} (hj : j < 14) :
    (pkt.tag a).getLsbD j = pkt.bit (12 + fiPerSlotBitsnum * a + j) :=
  getLsbD_ofBits _ hj

end VanetTdma.Fpga
