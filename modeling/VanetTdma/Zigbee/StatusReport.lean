import Mathlib.Tactic.IntervalCases
import VanetTdma.Lib.Wire

/-!
# The status report over ZigBee (`i2cgps`, `zigbee_uart_console`)

On the command `TDMA_INFO_REQ` a node copies six counters of the TDMA core to its serial port, each one
escaped by itself (`to_escape_transfer`), between a header of seven bytes and the terminator `0xff`.  The
ZigBee module replaces the two address bytes of the header.  The console reads byte by byte up to the
first `0xff`, undoes the escapes of what it has read after the header in one go (`from_escape_transfer`)
and copies the counters out.  Both machines store an `unsigned int` with its lowest byte first.

* `infoAck_eq` — the six pieces are the escapes of sixteen bytes;
* `readFrame_append` — the console's loop stops at the end of the frame;
* `queryRemote_infoAck` — the console gets the counters of the node.
-/

namespace VanetTdma.Zigbee

open VanetTdma.Wire

/-- The escapes of the two programs: `0xff` as `0xfe 0xfd`, `0xfe` as `0xfe 0xfc`. -/
def escapes : Stuffing UInt8 where
  term := 0xff
  esc := 0xfe
  termCode := 0xfd
  escCode := 0xfc
  esc_ne := by decide
  termCode_ne := by decide
  escCode_ne := by decide
  codes_ne := by decide

/-- `to_escape_transfer`. -/
def toEscapeTransfer (inbuf : List UInt8) : List UInt8 := escapes.stuff inbuf

/-- `from_escape_transfer`, for the first `size` bytes of `inbuf`. -/
def fromEscapeTransfer (inbuf : List UInt8) (size : ℕ) : List UInt8 := escapes.unstuff size inbuf

/-- The six `unsigned int` variables that both programs have. -/
structure Counters where
  currFrameLen : BitVec 32
  fiSendCount : BitVec 32
  fiRecvCount : BitVec 32
  noAvailCount : BitVec 32
  requestFailCount : BitVec 32
  mergeCollision : BitVec 32
deriving DecidableEq, Repr

/-- The status fields of the core, with their widths. -/
structure Status where
  currFrameLen : BitVec 16
  fiSendCount : BitVec 32
  fiRecvCount : BitVec 32
  noAvailCount : BitVec 16
  requestFailCount : BitVec 16
  mergeCollision : BitVec 16
deriving DecidableEq, Repr

/-- The status in the variables of a program. -/
def Status.counters (s : Status) : Counters where
  currFrameLen := s.currFrameLen.setWidth 32
  fiSendCount := s.fiSendCount
  fiRecvCount := s.fiRecvCount
  noAvailCount := s.noAvailCount.setWidth 32
  requestFailCount := s.requestFailCount.setWidth 32
  mergeCollision := s.mergeCollision.setWidth 32

/-! ### The node -/

/-- What the node reads from the registers of the core. -/
def readRegs (reg : ℕ → BitVec 32) : Counters where
  currFrameLen := (reg 19 &&& 0xffff0000#32) >>> 16
  fiSendCount := reg 16
  fiRecvCount := reg 17
  noAvailCount := (reg 18 &&& 0xffff0000#32) >>> 16
  requestFailCount := reg 18 &&& 0x0000ffff#32
  mergeCollision := reg 19 &&& 0x0000ffff#32

def tdmaInfoAck : UInt8 := 0x0c

/-- The answer to `TDMA_INFO_REQ`, with the address bytes `a` and `b`; the node sends `0x99` and `0x00`. -/
def infoAck (a b : UInt8) (v : Counters) : List UInt8 :=
  [0xfe, 0x15, 0x91, 0x90, a, b, tdmaInfoAck]
    ++ (toEscapeTransfer (leBytes 2 v.currFrameLen.toNat)
    ++ (toEscapeTransfer (leBytes 4 v.fiSendCount.toNat)
    ++ (toEscapeTransfer (leBytes 4 v.fiRecvCount.toNat)
    ++ (toEscapeTransfer (leBytes 2 v.noAvailCount.toNat)
    ++ (toEscapeTransfer (leBytes 2 v.requestFailCount.toNat)
    ++ toEscapeTransfer (leBytes 2 v.mergeCollision.toNat))))))
    ++ [0xff]

/-! ### The console -/

/-- The loop over `kk`: the bytes in `readbuf` up to the first `0xff`, and the bytes that have not been
read.  Without a terminator the read times out. -/
def readFrame : List UInt8 → Option (List UInt8 × List UInt8)
  | [] => none
  | b :: stream =>
    if b = 0xff then some ([b], stream)
    else (readFrame stream).map fun r => (b :: r.1, r.2)

/-- `memcpy` of `k` bytes of `infobuf` to a variable that is 0. -/
def copyOut (infobuf : List UInt8) (loc k : ℕ) : BitVec 32 :=
  BitVec.ofNat 32 (ofLeBytes ((infobuf.drop loc).take k))

/-- The copies from `infobuf` at the end of case 7. -/
def copyCounters (infobuf : List UInt8) : Counters where
  currFrameLen := copyOut infobuf 0 2
  fiSendCount := copyOut infobuf 2 4
  fiRecvCount := copyOut infobuf 6 4
  noAvailCount := copyOut infobuf 10 2
  requestFailCount := copyOut infobuf 12 2
  mergeCollision := copyOut infobuf 14 2

/-- Case 7 of the console for one node: the counters, and the bytes that have not been read. -/
def queryRemote (stream : List UInt8) : Option (Counters × List UInt8) :=
  (readFrame stream).map fun r =>
    (copyCounters (fromEscapeTransfer (r.1.drop 7) (r.1.length - 1 - 7)), r.2)

/-! ### The round trip -/

/-- The sixteen bytes of the counters. -/
def payload (v : Counters) : List UInt8 :=
  leBytes 2 v.currFrameLen.toNat ++ (leBytes 4 v.fiSendCount.toNat ++ (leBytes 4 v.fiRecvCount.toNat
    ++ (leBytes 2 v.noAvailCount.toNat ++ (leBytes 2 v.requestFailCount.toNat
    ++ leBytes 2 v.mergeCollision.toNat))))

theorem infoAck_eq (a b : UInt8) (v : Counters) :
    infoAck a b v
      = ([0xfe, 0x15, 0x91, 0x90, a, b, tdmaInfoAck] ++ escapes.stuff (payload v)) ++ [0xff] := by
  simp only [infoAck, toEscapeTransfer, payload, Stuffing.stuff_append]

/-- The frame fits into the buffers of both programs, which have 255 bytes. -/
theorem length_infoAck_le (a b : UInt8) (v : Counters) : (infoAck a b v).length ≤ 40 := by
  have hstuff := escapes.length_stuff_le (payload v)
  have hpayload : (payload v).length = 16 := by simp [payload]
  rw [infoAck_eq]
  simp only [List.length_append, List.length_cons, List.length_nil]
  omega

theorem readFrame_append (l rest : List UInt8) (h : 0xff ∉ l) :
    readFrame (l ++ [0xff] ++ rest) = some (l ++ [0xff], rest) := by
  induction l with
  | nil => rfl
  | cons b l ih =>
    rw [List.mem_cons, not_or] at h
    rw [List.cons_append, List.cons_append, readFrame, if_neg (Ne.symm h.1), ih h.2]
    rfl

theorem copyOut_skip {l : List UInt8} {n : ℕ} (h : l.length = n) (m : List UInt8) (loc k : ℕ) :
    copyOut (l ++ m) (n + loc) k = copyOut m loc k := by
  subst h
  rw [copyOut, copyOut, List.drop_length_add_append]

theorem copyOut_head (k : ℕ) (x : BitVec 32) (after : List UInt8) (hx : x.toNat < 256 ^ k) :
    copyOut (leBytes k x.toNat ++ after) 0 k = x := by
  rw [copyOut, List.drop_zero, List.take_left' (length_leBytes k x.toNat), ofLeBytes_leBytes,
    Nat.mod_eq_of_lt hx, BitVec.ofNat_toNat, BitVec.setWidth_eq]

theorem copyCounters_payload (s : Status) : copyCounters (payload s.counters) = s.counters := by
  have hshort : ∀ x : BitVec 16, (x.setWidth 32).toNat < 256 ^ 2 := by
    intro x
    rw [BitVec.toNat_setWidth_of_le (by decide)]
    exact x.isLt
  have hlong : ∀ x : BitVec 32, x.toNat < 256 ^ 4 := fun x => x.isLt
  have h2 : ∀ n, (leBytes 2 n).length = 2 := length_leBytes 2
  have h4 : ∀ n, (leBytes 4 n).length = 4 := length_leBytes 4
  rw [copyCounters, Counters.mk.injEq]
  refine ⟨copyOut_head 2 _ _ (hshort _), ?_, ?_, ?_, ?_, ?_⟩
  · show copyOut _ (2 + 0) 4 = _
    rw [payload, copyOut_skip (h2 _), copyOut_head 4 _ _ (hlong _)]
  · show copyOut _ (2 + (4 + 0)) 4 = _
    rw [payload, copyOut_skip (h2 _), copyOut_skip (h4 _), copyOut_head 4 _ _ (hlong _)]
  · show copyOut _ (2 + (4 + (4 + 0))) 2 = _
    rw [payload, copyOut_skip (h2 _), copyOut_skip (h4 _), copyOut_skip (h4 _)]
    exact copyOut_head 2 _ _ (hshort _)
  · show copyOut _ (2 + (4 + (4 + (2 + 0)))) 2 = _
    rw [payload, copyOut_skip (h2 _), copyOut_skip (h4 _), copyOut_skip (h4 _), copyOut_skip (h2 _)]
    exact copyOut_head 2 _ _ (hshort _)
  · show copyOut _ (2 + (4 + (4 + (2 + (2 + 0))))) 2 = _
    rw [payload, copyOut_skip (h2 _), copyOut_skip (h4 _), copyOut_skip (h4 _), copyOut_skip (h2 _),
      copyOut_skip (h2 _), ← List.append_nil (leBytes 2 _)]
    exact copyOut_head 2 _ _ (hshort _)

theorem readRegs_eq (reg : ℕ → BitVec 32) :
    readRegs reg = Status.counters
      ⟨(reg 19).extractLsb' 16 16, reg 16, reg 17, (reg 18).extractLsb' 16 16,
        (reg 18).extractLsb' 0 16, (reg 19).extractLsb' 0 16⟩ := by
  have hhigh : ∀ r : BitVec 32, (r &&& 0xffff0000#32) >>> 16 = (r.extractLsb' 16 16).setWidth 32 := by
    intro r
    ext i hi
    interval_cases i <;> simp
  have hlow : ∀ r : BitVec 32, r &&& 0x0000ffff#32 = (r.extractLsb' 0 16).setWidth 32 := by
    intro r
    ext i hi
    interval_cases i <;> simp
  simp only [readRegs, Status.counters, hhigh, hlow]

/-- **The status report**: whatever the six status fields are, and whatever bytes other than `0xff` stand
in the place of the address, the console reads the frame to its end and gets the six values. -/
theorem queryRemote_infoAck (s : Status) (a b : UInt8) (rest : List UInt8) (ha : a ≠ 0xff)
    (hb : b ≠ 0xff) : queryRemote (infoAck a b s.counters ++ rest) = some (s.counters, rest) := by
  have hfree : (0xff : UInt8) ∉ [0xfe, 0x15, 0x91, 0x90, a, b, tdmaInfoAck]
      ++ escapes.stuff (payload s.counters) := by
    rw [List.mem_append]
    rintro (h | h)
    · simp [tdmaInfoAck, ha.symm, hb.symm] at h
    · exact escapes.term_not_mem_stuff _ h
  rw [infoAck_eq, queryRemote, readFrame_append _ _ hfree, Option.map_some]
  have hdrop : ([0xfe, 0x15, 0x91, 0x90, a, b, tdmaInfoAck] ++ escapes.stuff (payload s.counters)
      ++ [0xff]).drop 7 = escapes.stuff (payload s.counters) ++ [0xff] := rfl
  have hsize : ([0xfe, 0x15, 0x91, 0x90, a, b, tdmaInfoAck] ++ escapes.stuff (payload s.counters)
      ++ [0xff]).length - 1 - 7 = (escapes.stuff (payload s.counters)).length := by
    simp only [List.length_append, List.length_cons, List.length_nil]
    omega
  rw [hdrop, hsize, fromEscapeTransfer, Stuffing.unstuff_stuff, copyCounters_payload]

/-- Counters full of the bytes that have to be escaped. -/
def fullStatus : Status := ⟨0xfeff, 0xfffefdfc, 0xffffffff, 0xfffe, 0xfdfe, 0xfcff⟩

theorem queryRemote_infoAck_full :
    (infoAck 0x05 0x00 fullStatus.counters).length = 36 ∧
      queryRemote (infoAck 0x05 0x00 fullStatus.counters ++ [0xfe])
        = some (fullStatus.counters, [0xfe]) :=
  ⟨by decide, queryRemote_infoAck fullStatus 0x05 0x00 [0xfe] (by decide) (by decide)⟩

end VanetTdma.Zigbee
