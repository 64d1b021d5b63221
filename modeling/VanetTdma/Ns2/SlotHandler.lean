import VanetTdma.Lib.GuardedRun
import VanetTdma.Ns2.Node

/-!
# The slot handler of the ns-2 node (`slotHandler`)

One tick of the slot timer.  A node that the mobility model has lifted off the ground (`z > 0`) is switched
off and keeps its table; on the ground it works through the `switch` on `node_state_` in the slots with
`slot_count_ == slot_num_`.  `slotHandler` returns `none` where the program stops: at a frame length 0
(`total_slot_count_ % max_slot_num_`), at `exit(-1)` for a `slot_num_` past the frame, and where
`determine_BCH` has no defined value.
-/

namespace VanetTdma.Ns2

open VanetTdma.SlotLoop VanetTdma.GuardedRun
open VanetTdma.Ns3 (SlotTag Table FrameInfo NodeState fadeReceivedFiList clearCounts)

/-! ### Entries and packets -/

/-- The five assignments that record a slot for the node itself. -/
def claim (p : Params) (e : SlotTag) : SlotTag :=
  { e with busy := .oneHop, sti := p.globalSti, count2hop := 1, count3hop := 1, psf := 0 }

/-- The slot is the node's own without a collision, or nobody's. -/
def usable (p : Params) (e : SlotTag) : Bool :=
  (e.sti = p.globalSti ∧ e.busy = .oneHop) ∨ e.sti = 0

/-- The entry given up after a collision, if it is still the node's own. -/
def giveUp (p : Params) (e : SlotTag) : SlotTag :=
  if e.sti = p.globalSti then e.release true else e

/-- The node with one entry of its table rewritten. -/
def Node.edit (s : Node) (i : ℤ) (f : SlotTag → SlotTag) : Node :=
  { s with collectedFi := s.collectedFi.modify i f }

/-- What `generate_FI_packet` does to the node. -/
def sendFi (p : Params) (s : Node) : Node :=
  { s with collectedFi := (generateFiPacket s.maxSlotNum p.globalSti s.collectedFi).2 }

/-- The random numbers of a tick: two for `determine_BCH` and one for the back-off. -/
structure Draws where
  bch : ℕ := 0
  hop : ℕ := 0
  backoff : ℕ := 0

/-! ### The branches of `slotHandler` -/

/-- The table a branch works on: refreshed by the FIs received since. -/
def mergeBase (p : Params) (s : Node) : Node :=
  if s.nodeState = .listen then { s with collectedFi := Table.blank }
  else if p.slotMemory then s
  else clearOthersSlotStatus p s

/-- The node that found no slot to request. -/
def backOff (s : Node) (d : Draws) : Node :=
  { s with nodeState := .listen, slotNum := s.slotCount, backoffFrameNum := d.backoff % 20 }

/-- The node whose packet goes out after it has recorded the slot for itself. -/
def request (p : Params) (s : Node) : Node :=
  { sendFi p (s.edit s.slotCount (claim p)) with nodeState := .request }

/-- `NODE_LISTEN`, from the end of the back-off on. -/
def tickListen (p : Params) (s : Node) (d : Draws) : Option Node :=
  (determineBch p s false d.bch).map fun (c, flag) =>
    let s := { s with testmodeInitFlag := flag }
    if c < 0 then backOff s d
    else if c = s.slotCount then request p { s with slotNum := c }
    else { s with slotNum := c, nodeState := .waitRequest }

/-- After a lost slot: choose another one, or listen again. -/
def chooseAgain (p : Params) (s : Node) (d : Draws) : Option Node :=
  (determineBch p s false d.bch).map fun (c, flag) =>
    let s := { s with testmodeInitFlag := flag }
    if c < 0 ∨ c = s.slotCount then backOff s d
    else { s with slotNum := c, nodeState := .waitRequest }

/-- The slot is lost to a collision or to another station. -/
def loseSlot (p : Params) (s : Node) (d : Draws) : Option Node :=
  chooseAgain p (s.edit s.slotCount (giveUp p)) d

/-- `NODE_WAIT_REQUEST`. -/
def tickWaitRequest (p : Params) (s : Node) (d : Draws) : Option Node :=
  if usable p (s.collectedFi s.slotCount) then some (request p s) else loseSlot p s d

/-- `NODE_REQUEST`. -/
def tickRequest (p : Params) (s : Node) (d : Draws) : Option Node :=
  if usable p (s.collectedFi s.slotCount) then some (sendFi p { s with nodeState := .workFi })
  else loseSlot p s d

/-- The node moves to the better slot `c` or starts to announce it beside its own. -/
def takeCandidate (p : Params) (s : Node) (c : ℤ) : Node :=
  if c < 0 then { s with slotAdjCandidate := c }
  else if p.adjSingleSlotEna then
    ({ s with slotAdjCandidate := c, nodeState := .workFi, slotNum := c }.edit s.slotCount
      fun e => e.release false).edit c (claim p)
  else { s with slotAdjCandidate := c, nodeState := .workAdj }.edit c (claim p)

/-- `NODE_WORK_FI`, before the packet: adjust the slot, or else the frame length. -/
def adjust (p : Params) (s : Node) (d : Draws) : Option Node :=
  if adjustIsNeeded p s s.slotNum then
    (determineBch p s true d.bch).map fun (c, flag) =>
      takeCandidate p { s with testmodeInitFlag := flag } c
  else some (adjFrameLen p s)

def hops (p : Params) (s : Node) : Bool :=
  p.randomBchIfSingleSwitch ∧ isSingle p s ∧ s.bchSlotLock = 0

/-- `NODE_WORK_FI`, after the packet. -/
def hop (p : Params) (s : Node) (d : Draws) : Option Node :=
  if hops p s then
    (determineBch p s false d.hop).map fun (c, flag) =>
      ({ s with testmodeInitFlag := flag, slotNum := c, bchSlotLock := 5 }.edit s.slotCount
        fun e => e.release true).edit c (claim p)
  else if p.randomBchIfSingleSwitch ∧ isSingle p s then
    some { s with bchSlotLock := s.bchSlotLock - 1 }
  else some { s with bchSlotLock := 5 }

/-- `NODE_WORK_FI`. -/
def tickWorkFi (p : Params) (s : Node) (d : Draws) : Option Node :=
  if usable p (s.collectedFi s.slotCount) then
    (adjust p s d).bind fun s => hop p (sendFi p s) d
  else loseSlot p s d

def candidateTag (s : Node) : SlotTag := s.collectedFi s.slotAdjCandidate.toNat

/-- The candidate is usable and not worse than the present slot. -/
def adjWins (p : Params) (s : Node) : Bool :=
  (candidateTag s).count3hop ≤ (s.collectedFi s.slotCount).count3hop ∧ usable p (candidateTag s)

/-- `NODE_WORK_ADJ`. -/
def tickWorkAdj (p : Params) (s : Node) (d : Draws) : Option Node :=
  if usable p (s.collectedFi s.slotCount) then
    if adjWins p s then
      some (sendFi p ({ s with nodeState := .workFi, slotNum := s.slotAdjCandidate }.edit s.slotNum
        fun e => e.release true))
    else
      some (sendFi p ({ s with nodeState := .workFi }.edit s.slotAdjCandidate fun e => e.release true))
  else if usable p (candidateTag s) then
    some { s with nodeState := .workFi, slotNum := s.slotAdjCandidate }
  else chooseAgain p (s.edit s.slotAdjCandidate (giveUp p)) d

/-! ### `slotHandler` -/

/-- The counters and the list of FIs at the begin of a tick, and the node switched on or off: `z` compares
its height with 0. -/
def beginSlot (s : Node) (z : Ordering) : Node :=
  let s := { s with
    totalSlotCount := s.totalSlotCount + 1
    slotCount := (s.totalSlotCount + 1).toNat % s.maxSlotNum
    receivedFiList := fadeReceivedFiList s.receivedFiList }
  if s.enable then { s with enable := z ≠ .gt }
  else if z = .eq then
    { s with enable := true, slotNum := ((s.slotCount + 1) % s.maxSlotNum : ℕ) }
  else s

/-- The tick comes to `synthesize_fi_list`. -/
def synthesizes (s : Node) : Bool :=
  s.enable ∧ (s.slotCount : ℤ) = s.slotNum ∧ s.nodeState ≠ .init ∧
    (s.nodeState = .listen → s.backoffFrameNum = 0)

/-- The `switch` of `slotHandler`, from `synthesize_fi_list` on. -/
def tickState (p : Params) (s : Node) (d : Draws) : Option Node :=
  match s.nodeState with
  | .init => some s
  | .listen => tickListen p s d
  | .waitRequest => tickWaitRequest p s d
  | .request => tickRequest p s d
  | .workFi => tickWorkFi p s d
  | .workAdj => tickWorkAdj p s d

def ownTick (p : Params) (s : Node) (d : Draws) : Option Node :=
  if s.nodeState = .init then some { s with nodeState := .listen, backoffFrameNum := 0 }
  else if synthesizes s then tickState p (synthesizeFiList p (mergeBase p s)) d
  else some { s with backoffFrameNum := s.backoffFrameNum - 1 }

/-- `slotHandler`. -/
def slotHandler (p : Params) (s : Node) (z : Ordering) (d : Draws) : Option Node :=
  if s.maxSlotNum = 0 then none
  else
    let s := beginSlot s z
    if s.enable = false then some s
    else if s.slotNum ≤ s.maxSlotNum then
      if (s.slotCount : ℤ) = s.slotNum then ownTick p s d else some s
    else none -- `exit(-1)`

/-! ### Runs -/

/-- What happens to a node. -/
inductive Event where
  | recv (buffer : ℕ → ℕ)
  | tick (z : Ordering) (d : Draws)

def step (p : Params) (s : Node) : Event → Option Node
  | .recv buffer =>
    some { s with receivedFiList := s.receivedFiList ++ [recvFi p.adjFrameEna s.maxSlotNum buffer] }
  | .tick z d => slotHandler p s z d

/-- The states of the runs from the constructor whose steps all meet `ok`. -/
def RunWhere (p : Params) (ok : Node → Event → Prop) (u : Uninit) : Node → Prop :=
  Reach (step p) ok (construct p u)

end VanetTdma.Ns2
