import VanetTdma.Fpga.Bch

/-!
# The search for a candidate slot (`tdma_control.v`, FCB)

Once the FI builder has handed over its words, the FCB machine scans the slot table.  Free unlocked slots
(and, unless the search is strict, the node's own) go into FIFOs: all of them into the second, those nobody
counts three hops away into the first, and of these the lower half of a half-empty frame into the third.  A
random element of one FIFO becomes the candidate.  The scan also clears the counts of each entry.

The FIFOs are first-word-fall-through, so a read shows the head; what an empty one shows is an input, and so
are the random number and the answers of the divider.
-/

namespace VanetTdma.Fpga

inductive FcbState where
  | idle
  | start
  | rdLoop
  | clrC3h
  | clrSetaddr
  | clrSetaddrWait
  | selRanStart
  | selRanWait1
  | selRanWait2
  | done
  | done2
deriving DecidableEq

/-- The registers of the FCB machine. -/
structure Fcb where
  state : FcbState := .idle
  done : Bool := false
  fail : Bool := false
  inprogress : Bool := false
  wrEnS1 : Bool := false
  rdEnS1 : Bool := false
  wrEnS2 : Bool := false
  rdEnS2 : Bool := false
  wrEnHalf : Bool := false
  rdEnHalf : Bool := false
  srst : Bool := false
  dwrite : BitVec 16 := 0
  candidate : BitVec 16 := 0xffff
  ranIdx : BitVec 9 := 0
  dataCountS1Tmp : BitVec 8 := 0
  dividerEnable : Bool := false
  dividend : BitVec 32 := 0
  divisor : BitVec 32 := 0
  we : Bool := false
  addr : BitVec 7 := 0
  din : SlotEntry := {}
deriving DecidableEq

/-- `fifo_16bits_128dept`. -/
abbrev Fifo := List (BitVec 16)

def Fifo.tick (srst wrEn rdEn : Bool) (din : BitVec 16) (q : Fifo) : Fifo :=
  if srst then []
  else (if rdEn then q.tail else q) ++ (if wrEn ∧ q.length < 128 then [din] else [])

/-- The signals the FCB machine reads. -/
structure FcbIn where
  fcbStart : Bool
  currFrameLen : BitVec 10
  dout : SlotEntry
  bchState : BchState
  fcbStrict : Bool
  frameHalfEmpty : Bool
  inputRandom : BitVec 9
  dividerDone : Bool
  dividerRemainder : BitVec 32
  emptyRead : BitVec 16
  s1 : Fifo
  s2 : Fifo
  half : Fifo

/-- What a FIFO shows. -/
def FcbIn.dread (i : FcbIn) (q : Fifo) : BitVec 16 := q.headD i.emptyRead

/-- A slot that may become a candidate. -/
def Eligible (g : TdmaSetting) (strict : Bool) (e : SlotEntry) : Prop :=
  (e.busy = 0 ∨ strict = false ∧ e.occupierSid = g.globalSid) ∧ e.locker = false

instance (g : TdmaSetting) (strict : Bool) (e : SlotEntry) : Decidable (Eligible g strict e) :=
  inferInstanceAs (Decidable (_ ∧ _))

/-- `FCB_CLR_C3H`: the entry with its counts cleared; an own entry keeps a count of one. -/
def countsCleared (globalSid : BitVec 8) (e : SlotEntry) : SlotEntry :=
  if e.occupierSid = globalSid then { e with count2hop := 1, count3hop := 1 }
  else { e with count2hop := 0, count3hop := 0 }

namespace Fcb

def noWrite (f : Fcb) : Fcb := { f with wrEnS1 := false, wrEnS2 := false, wrEnHalf := false }

/-- `FCB_RD_LOOP`, below the end of the frame. -/
def rdLoop (g : TdmaSetting) (i : FcbIn) (v : Fcb) : Fcb :=
  let f := { v with state := .clrC3h }
  if g.slotAdjEna then
    if Eligible g i.fcbStrict i.dout then
      { f with
        dwrite := f.addr.setWidth 16
        wrEnS2 := true
        wrEnS1 := decide (i.dout.count3hop = 0)
        wrEnHalf := decide (i.dout.count3hop = 0 ∧ g.frameAdjEna = true ∧ i.frameHalfEmpty = true
          ∧ f.addr.toNat < (i.currFrameLen >>> 1).toNat) }
    else f.noWrite
  else if Eligible g i.fcbStrict i.dout then { f with dwrite := f.addr.setWidth 16, wrEnS1 := true }
  else { f with wrEnS1 := false }

/-- The choice among `count` elements: the random number, or its remainder. -/
def pick (count : ℕ) (f : Fcb) : Fcb :=
  if f.ranIdx.toNat < count then { f with ranIdx := f.ranIdx + 1, state := .selRanWait2 }
  else
    { f with
      dividend := f.ranIdx.setWidth 32, divisor := BitVec.ofNat 32 count, dividerEnable := true
      state := .selRanWait1 }

/-- `FCB_SEL_RAN_START`. -/
def selRanStart (g : TdmaSetting) (i : FcbIn) (f : Fcb) : Fcb :=
  if g.frameAdjEna = true ∧ i.half ≠ [] then f.pick i.half.length
  else if g.slotAdjEna then
    if f.dataCountS1Tmp.toNat ≥ (lenTable i.currFrameLen).thresSlotAdj.toNat then f.pick i.s1.length
    else if i.s2.length ≠ 0 then f.pick i.s2.length
    else { f with fail := true, state := .done }
  else if i.s1.length ≠ 0 then f.pick i.s1.length
  else { f with fail := true, state := .done }

/-- One element on, or the end of the choice. -/
def advance (f : Fcb) : Fcb :=
  if f.ranIdx = 0 then { f with srst := true, state := .done } else { f with ranIdx := f.ranIdx - 1 }

/-- `FCB_SEL_RAN_WAIT_2`.  Inside the second FIFO the source advances the first one. -/
def selRanWait2 (g : TdmaSetting) (i : FcbIn) (f : Fcb) : Fcb :=
  if g.frameAdjEna = true ∧ i.half ≠ [] then
    { f with rdEnHalf := true, candidate := i.dread i.half }.advance
  else if g.slotAdjEna then
    if i.s1.length ≥ (lenTable i.currFrameLen).thresSlotAdj.toNat then
      { f with rdEnS1 := true, candidate := i.dread i.s1 }.advance
    else if i.s2.length ≠ 0 then
      if f.ranIdx = 0 then { f with rdEnS2 := true, candidate := i.dread i.s2 }.advance
      else { f with rdEnS1 := true, candidate := i.dread i.s2 }.advance
    else f
  else if i.s1 ≠ [] ∧ f.ranIdx ≠ 0 then
    { f with rdEnS1 := true, candidate := i.dread i.s1, ranIdx := f.ranIdx - 1 }
  else { f with rdEnS1 := false, srst := true, state := .done }

def tick (g : TdmaSetting) (i : FcbIn) (f : Fcb) : Fcb :=
  match f.state with
  | .idle =>
    if i.fcbStart then
      { f with
        done := false, inprogress := true, we := false, addr := 0, fail := false, candidate := 0xffff
        state := .start }
    else { f with done := false }
  | .start => { f with state := .rdLoop }
  | .rdLoop =>
    if f.addr.toNat = i.currFrameLen.toNat then
      { f.noWrite with
        ranIdx := i.inputRandom, dataCountS1Tmp := BitVec.ofNat 8 i.s1.length, state := .selRanStart }
    else f.rdLoop g i
  | .clrC3h =>
    let f := { f.noWrite with state := .clrSetaddr }
    if i.bchState.pastInit then { f with we := true, din := countsCleared g.globalSid i.dout } else f
  | .clrSetaddr => { f with we := false, addr := f.addr + 1, state := .clrSetaddrWait }
  | .clrSetaddrWait => { f with state := .rdLoop }
  | .selRanStart => f.selRanStart g i
  | .selRanWait1 =>
    let f := { f with dividerEnable := false }
    if i.dividerDone then { f with ranIdx := i.dividerRemainder.setWidth 9, state := .selRanStart } else f
  | .selRanWait2 => f.selRanWait2 g i
  | .done =>
    { f with addr := 0, rdEnS1 := false, rdEnS2 := false, rdEnHalf := false, srst := false, state := .done2 }
  | .done2 => { f with done := true, inprogress := false, state := .idle }

def portB (f : Fcb) : SlotPort where
  addr := f.addr
  we := f.we
  din := f.din

end Fcb

end VanetTdma.Fpga
