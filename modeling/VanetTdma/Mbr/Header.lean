import VanetTdma.Lib.Wire

/-!
# The hello header of MBR (`mbr-header.cc`)

`serialize` and `deserialize` are the two sequences of buffer accesses of `MbrHeader`; `deserialize` works
on a header that exists already and leaves in it what it does not read.  `WriteTo` and `ReadFrom` put an
IPv4 address on the wire as `WriteHtonU32` and `ReadNtohU32` do a number, and the coordinates, of type
`float`, are copied to and from 32-bit words, so they are words here.

* `length_serialize` — the bytes written are as many as `getSerializedSize` says;
* `reads_serialize` — what comes back is the header, but for the direction;
* `roundTrip_iff` — the round trip, exactly for the headers whose direction the receiver has already.
-/

namespace VanetTdma.Mbr

open VanetTdma.Wire

/-- `class MbrHeader`. -/
structure MbrHeader where
  flags : BitVec 8
  prefixSize : BitVec 8
  hopCount : BitVec 8
  dst : BitVec 32
  dstSeqNo : BitVec 32
  origin : BitVec 32
  lifeTime : BitVec 32
  geohash : BitVec 64
  mac : Fin 6 → UInt8
  direction : BitVec 16
  latitude : BitVec 32
  longitude : BitVec 32

/-- `GetSerializedSize`. -/
def getSerializedSize : ℕ := 41

/-- `Serialize`. -/
def MbrHeader.serialize (h : MbrHeader) : List UInt8 :=
  [beBytes 1 h.flags.toNat, beBytes 1 h.prefixSize.toNat, beBytes 1 h.hopCount.toNat,
    beBytes 4 h.dst.toNat, beBytes 4 h.dstSeqNo.toNat, beBytes 4 h.origin.toNat,
    beBytes 4 h.lifeTime.toNat, beBytes 8 h.geohash.toNat, List.ofFn h.mac,
    beBytes 4 h.latitude.toNat, beBytes 4 h.longitude.toNat].flatten

/-- `Deserialize`, on the header `h₀`. -/
def MbrHeader.deserialize (h₀ : MbrHeader) : Reader MbrHeader := do
  let flags ← readBe 1 8
  let prefixSize ← readBe 1 8
  let hopCount ← readBe 1 8
  let dst ← readBe 4 32
  let dstSeqNo ← readBe 4 32
  let origin ← readBe 4 32
  let lifeTime ← readBe 4 32
  let geohash ← readBe 8 64
  let mac ← takeBytes 6
  let latitude ← readBe 4 32
  let longitude ← readBe 4 32
  return { h₀ with
    flags, prefixSize, hopCount, dst, dstSeqNo, origin, lifeTime, geohash, latitude, longitude
    mac := fun j => mac.getD j 0 }

theorem MbrHeader.length_serialize (h : MbrHeader) : h.serialize.length = getSerializedSize := by
  simp [serialize, getSerializedSize]

/-- **What comes back from the wire**: every field but the direction, which is not sent. -/
theorem MbrHeader.reads_serialize (h h₀ : MbrHeader) :
    Reads h₀.deserialize h.serialize { h with direction := h₀.direction } := by
  have hmac : (fun j : Fin 6 => (List.ofFn h.mac).getD j 0) = h.mac := by
    funext j
    rw [List.getD_eq_getElem?_getD, List.getElem?_ofFn, dif_pos j.isLt]
    rfl
  have hbyte : 8 ≤ 8 * 1 := Nat.le_refl 8
  have hword : 32 ≤ 8 * 4 := Nat.le_refl 32
  refine (reads_readBe hbyte _).bind ((reads_readBe hbyte _).bind ((reads_readBe hbyte _).bind ?_))
  refine (reads_readBe hword _).bind ((reads_readBe hword _).bind ?_)
  refine (reads_readBe hword _).bind ((reads_readBe hword _).bind ?_)
  refine (reads_readBe (Nat.le_refl 64) _).bind ?_
  refine (reads_takeBytes (List.length_ofFn ..)).bind ?_
  refine (reads_readBe hword _).bind ((reads_readBe hword _).bind ?_)
  rw [hmac]
  exact reads_pure _

/-- The header comes back whole, and the bytes read are as many as `GetSerializedSize` says. -/
def MbrHeader.RoundTrip (h h₀ : MbrHeader) (rest : List UInt8) : Prop :=
  h₀.deserialize.run (h.serialize ++ rest) = some (h, rest) ∧ h.serialize.length = getSerializedSize

/-- **The round trip** into a header object `h₀`: it succeeds exactly if `h₀` has the sender's direction
already, as neither side puts the direction of the documented layout on the wire. -/
theorem MbrHeader.roundTrip_iff (h h₀ : MbrHeader) (rest : List UInt8) :
    h.RoundTrip h₀ rest ↔ h.direction = h₀.direction := by
  have hread := h.reads_serialize h₀ rest
  constructor
  · rintro ⟨hrun, -⟩
    rw [hread] at hrun
    simp only [Option.some.injEq, Prod.mk.injEq, and_true] at hrun
    rw [← hrun]
  · intro hdir
    refine ⟨?_, h.length_serialize⟩
    rw [hread, ← hdir]

/-- A header as `MbrHeader mbrHeader;` makes it, up to the fields that are not initialised to 0. -/
def MbrHeader.fresh : MbrHeader := ⟨0, 0, 0, 0, 0, 0, 0, 0, fun _ => 0, 0, 0, 0⟩

/-- A hello sent while driving east is received with the direction 0. -/
theorem MbrHeader.direction_lost :
    ¬ ∀ (h h₀ : MbrHeader) (rest : List UInt8), h.RoundTrip h₀ rest := by
  intro hall
  have hdir := (hall { fresh with direction := 90 } fresh []).1
  rw [reads_serialize] at hdir
  simp only [Option.some.injEq, Prod.mk.injEq, and_true] at hdir
  exact absurd (congrArg MbrHeader.direction hdir) (by decide)

end VanetTdma.Mbr
