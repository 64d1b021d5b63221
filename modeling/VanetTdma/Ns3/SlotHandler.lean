import VanetTdma.Lib.GuardedRun
import VanetTdma.Ns3.FiCodec
import VanetTdma.Ns3.Synthesize

/-!
# The slot handler (`slotHandler`)

One tick of the node.  Every branch of the `switch` on `node_state_` is a function of its own; the
branches share the release and the claim of an entry, the renewed choice after a lost slot
(`chooseAgain`) and the packet that goes out (`sendFi`).

A tick also reports what the outside sees (`TickOut`): the node as it was when `generate_send_FI_packet`
built a packet, and the values that `determine_BCH` returned.  `slotHandler` returns `none` where the
source has no defined result, that is where `determine_BCH` reads an empty array or the assertion on
`slot_num_` fails.

`step` adds the reception of packets; `Run` are the runs from `Start`.
-/

namespace VanetTdma.Ns3

open VanetTdma.SlotLoop VanetTdma.GuardedRun

/-! ### Entries and packets -/

/-- The five assignments that record a slot for the node itself. -/
def SlotTag.claim (e : SlotTag) (cfg : Config) : SlotTag :=
  { e with busy := .oneHop, sti := cfg.globalSti, count2hop := 1, count3hop := 1, psf := 0 }

/-- The six assignments that give a slot up. -/
def SlotTag.release (e : SlotTag) (lock : Bool) : SlotTag :=
  { e with busy := .free, sti := 0, count2hop := 0, count3hop := 0, psf := 0, locker := lock }

/-- The slot is the node's own without a collision, or nobody's. -/
def usable (cfg : Config) (e : SlotTag) : Bool :=
  (e.sti = cfg.globalSti ∧ e.busy = .oneHop) ∨ e.sti = 0

/-- The entry given up after a collision, if it is still the node's own. -/
def SlotTag.giveUp (e : SlotTag) (cfg : Config) : SlotTag :=
  if e.sti = cfg.globalSti then e.release true else e

/-- The node with one entry of its table rewritten. -/
def Node.edit (s : Node) (i : ℤ) (f : SlotTag → SlotTag) : Node :=
  { s with collectedFi := s.collectedFi.modify i f }

/-- What `generate_send_FI_packet` does to the node: the constructor of the header resets the counts of
the frame it encodes. -/
def sendFi (cfg : Config) (s : Node) : Node :=
  { s with collectedFi := forSlots s.mFrameLen (fun _ => clearCounts cfg.globalSti) s.collectedFi }

/-- What a tick shows to the outside. -/
structure TickOut where
  /-- The node when `generate_send_FI_packet` was called. -/
  sent : Option Node := none
  /-- The results of `determine_BCH`. -/
  chosen : List ℤ := []

/-- The random numbers of a tick: two for `determine_BCH` and one for the back-off. -/
structure Draws where
  bch : ℕ := 0
  hop : ℕ := 0
  backoff : ℕ := 0

/-! ### The branches of `slotHandler` -/

/-- The table a branch works on: refreshed by the FIs received since. -/
def refresh (cfg : Config) (s : Node) : Node :=
  synthesizeFiList cfg (if cfg.slotMemory then s else clearOthersSlotStatus cfg s)

/-- `NODE_INIT`. -/
def tickInit (s : Node) : Node × TickOut :=
  ({ s with nodeState := .listen, backoffFrameNum := 0 }, {})

/-- The node that found no slot to request. -/
def backOff (s : Node) (d : Draws) : Node :=
  { s with
    nodeState := .listen
    slotNum := s.slotCount
    backoffFrameNum := d.backoff % 21 }

/-- The table a listening node makes of the FIs it has received. -/
def listenTable (cfg : Config) (s : Node) : Node :=
  synthesizeFiList cfg { s with collectedFi := Table.blank }

/-- `NODE_LISTEN`. -/
def tickListen (cfg : Config) (s : Node) (d : Draws) : Option (Node × TickOut) :=
  if s.backoffFrameNum ≠ 0 then
    some ({ s with backoffFrameNum := s.backoffFrameNum - 1 }, {})
  else
    let s := listenTable cfg s
    (determineBch cfg s false d.bch).map fun c =>
      if c < 0 then (backOff s d, { chosen := [c] })
      else if c = s.slotCount then
        let s := { s with slotNum := c }.edit s.slotCount fun e => e.claim cfg
        ({ sendFi cfg s with nodeState := .request }, { sent := some s, chosen := [c] })
      else ({ s with slotNum := c, nodeState := .waitRequest }, { chosen := [c] })

/-- After a lost slot: choose another one, or listen again. -/
def chooseAgain (cfg : Config) (s : Node) (d : Draws) : Option (Node × TickOut) :=
  (determineBch cfg s false d.bch).map fun (c : ℤ) =>
    if c < 0 ∨ c = s.slotCount then (backOff s d, { chosen := [c] })
    else ({ s with slotNum := c, nodeState := .waitRequest }, { chosen := [c] })

/-- The slot is lost to a collision or to another station. -/
def loseSlot (cfg : Config) (s : Node) (d : Draws) : Option (Node × TickOut) :=
  chooseAgain cfg (s.edit s.slotCount fun e => e.giveUp cfg) d

/-- `NODE_WAIT_REQUEST`. -/
def tickWaitRequest (cfg : Config) (s : Node) (d : Draws) : Option (Node × TickOut) :=
  let s := refresh cfg s
  if usable cfg (s.collectedFi s.slotCount) then
    let s := s.edit s.slotCount fun e => e.claim cfg
    some ({ sendFi cfg s with nodeState := .request }, { sent := some s })
  else loseSlot cfg s d

/-- `NODE_REQUEST`. -/
def tickRequest (cfg : Config) (s : Node) (d : Draws) : Option (Node × TickOut) :=
  let s := refresh cfg s
  if usable cfg (s.collectedFi s.slotCount) then
    let s := { s with nodeState := .workFi }
    some (sendFi cfg s, { sent := some s })
  else loseSlot cfg s d

/-- The node moves to the better slot `c` or starts to announce it beside its own. -/
def takeCandidate (cfg : Config) (s : Node) (c : ℤ) : Node :=
  if c < 0 then { s with slotAdjCandidate := c }
  else if s.adjSingleSlotEna then
    ({ s with slotAdjCandidate := c, nodeState := .workFi, slotNum := c }.edit s.slotCount
      fun e => e.release false).edit c fun e => e.claim cfg
  else
    { s with slotAdjCandidate := c, nodeState := .workAdj }.edit c fun e => e.claim cfg

/-- `NODE_WORK_FI`, before the packet: adjust the slot, or else the frame length. -/
def adjust (cfg : Config) (s : Node) (d : Draws) : Option (Node × List ℤ) :=
  if adjustIsNeeded cfg s s.slotNum then
    (determineBch cfg s true d.bch).map fun c => (takeCandidate cfg s c, [c])
  else some (adjFrameLen cfg s, [])

def hops (cfg : Config) (s : Node) : Bool :=
  cfg.randomBchIfSingle ∧ isSingle cfg s ∧ s.bchSlotLock = 0

/-- `NODE_WORK_FI`, after the packet. -/
def hop (cfg : Config) (s : Node) (d : Draws) : Option (Node × List ℤ) :=
  if hops cfg s then
    (determineBch cfg s false d.hop).map fun c =>
      (({ s with slotNum := c, bchSlotLock := 5 }.edit s.slotCount fun e => e.release true).edit c
        fun e => e.claim cfg, [c])
  else if cfg.randomBchIfSingle ∧ isSingle cfg s then
    some ({ s with bchSlotLock := s.bchSlotLock - 1 }, [])
  else some ({ s with bchSlotLock := 5 }, [])

/-- `NODE_WORK_FI`. -/
def tickWorkFi (cfg : Config) (s : Node) (d : Draws) : Option (Node × TickOut) :=
  let s := refresh cfg s
  if usable cfg (s.collectedFi s.slotCount) then
    (adjust cfg s d).bind fun r =>
      (hop cfg (sendFi cfg r.1) d).map fun r' => (r'.1, { sent := some r.1, chosen := r.2 ++ r'.2 })
  else loseSlot cfg s d

def candidateTag (s : Node) : SlotTag := s.collectedFi s.slotAdjCandidate.toNat

/-- The candidate is usable and not worse than the present slot. -/
def adjWins (cfg : Config) (s : Node) : Bool :=
  (candidateTag s).count3hop ≤ (s.collectedFi s.slotCount).count3hop ∧ usable cfg (candidateTag s)

/-- The present slot is still usable: move to the candidate and give the old slot up, or stay and give
the candidate up. -/
def adjDecide (cfg : Config) (s : Node) : Node :=
  if adjWins cfg s then
    { s with nodeState := .workFi, slotNum := s.slotAdjCandidate }.edit s.slotNum
      fun e => e.release true
  else
    { s with nodeState := .workFi }.edit s.slotAdjCandidate fun e => e.release true

/-- `NODE_WORK_ADJ`. -/
def tickWorkAdj (cfg : Config) (s : Node) (d : Draws) : Option (Node × TickOut) :=
  let s := refresh cfg s
  if usable cfg (s.collectedFi s.slotCount) then
    let s := adjDecide cfg s
    some (sendFi cfg s, { sent := some s })
  else if usable cfg (candidateTag s) then
    some ({ s with nodeState := .workFi, slotNum := s.slotAdjCandidate }, {})
  else
    chooseAgain cfg (s.edit s.slotAdjCandidate fun e => e.giveUp cfg) d

/-! ### `slotHandler` -/

/-- `fade_received_fi_list (1)`. -/
def fadeReceivedFiList (l : List FrameInfo) : List FrameInfo :=
  (l.map fun fi => { fi with remainTime := fi.remainTime - 1 }).filter fun fi => 0 < fi.remainTime

/-- The counters and the list of FIs at the begin of a tick. -/
def beginSlot (s : Node) : Node :=
  { s with
    totalSlotCount := s.totalSlotCount + 1
    slotCount := (s.totalSlotCount + 1) % s.mFrameLen
    receivedFiList := fadeReceivedFiList s.receivedFiList }

/-- The `switch` of `slotHandler`. -/
def ownTick (cfg : Config) (s : Node) (d : Draws) : Option (Node × TickOut) :=
  match s.nodeState with
  | .init => some (tickInit s)
  | .listen => tickListen cfg s d
  | .waitRequest => tickWaitRequest cfg s d
  | .request => tickRequest cfg s d
  | .workFi => tickWorkFi cfg s d
  | .workAdj => tickWorkAdj cfg s d

/-- `slotHandler`. -/
def slotHandler (cfg : Config) (s : Node) (d : Draws) : Option (Node × TickOut) :=
  let s := beginSlot s
  if s.slotNum ≤ s.mFrameLen then
    if (s.slotCount : ℤ) = s.slotNum then ownTick cfg s d else some (s, {})
  else none -- `NS_ASSERT_MSG (slot_num_ <= m_frame_len, ...)`

/-- `recvFI`. -/
def recvFi (cfg : Config) (s : Node) (buffer : ℕ → ℕ) : Node :=
  { s with receivedFiList := s.receivedFiList ++ [decodeFi cfg.adjFrameEna s.mFrameLen buffer] }

/-! ### Runs -/

/-- What happens to a node. -/
inductive Event where
  | recv (buffer : ℕ → ℕ)
  | tick (d : Draws)

def step (cfg : Config) (s : Node) : Event → Option Node
  | .recv buffer => some (recvFi cfg s buffer)
  | .tick d => (slotHandler cfg s d).map Prod.fst

/-- The states of the runs from `Start` whose steps all meet `ok`. -/
def RunWhere (cfg : Config) (ok : Node → Event → Prop) (u : Uninit) : Node → Prop :=
  Reach (step cfg) ok (start cfg u)

/-- The states of the runs from `Start`. -/
def Run (cfg : Config) (u : Uninit) : Node → Prop := RunWhere cfg (fun _ _ => True) u

/-- The end of the run from `Start` through the given events. -/
def runEvents (cfg : Config) (u : Uninit) (es : List Event) : Option Node :=
  runList (step cfg) (fun _ _ => true) (start cfg u) es

theorem run_of_runEvents {cfg : Config} {u : Uninit} {es : List Event} {s : Node}
    (h : runEvents cfg u es = some s) : Run cfg u s :=
  reach_of_runList (fun _ _ _ => trivial) h

/-! ### Small nodes, for concrete runs -/

/-- A node without adjustments in a frame of two slots. -/
def pairCfg : Config where
  globalSti := 1
  frameLen := 2
  slotLife := 3
  c3hopThreshold := 3
  adjThreshold := 1
  randomBchIfSingle := false
  chooseBchRandomSwitch := true
  adjEna := false
  adjFrameEna := false
  adjFrameLowerBound := 1
  adjFrameUpperBound := 1
  slotMemory := true

/-- A node that adjusts its slot in a frame of two, as soon as there is a free one. -/
def adjCfg : Config where
  globalSti := 1
  frameLen := 2
  slotLife := 3
  c3hopThreshold := 0
  adjThreshold := 1
  randomBchIfSingle := false
  chooseBchRandomSwitch := true
  adjEna := true
  adjFrameEna := false
  adjFrameLowerBound := 1
  adjFrameUpperBound := 1
  slotMemory := true

/-- A node with frame adjustment in a frame of four slots. -/
def cutCfg : Config where
  globalSti := 1
  frameLen := 4
  slotLife := 3
  c3hopThreshold := 3
  adjThreshold := 1
  randomBchIfSingle := false
  chooseBchRandomSwitch := true
  adjEna := false
  adjFrameEna := true
  adjFrameLowerBound := 1
  adjFrameUpperBound := 8
  slotMemory := true

/-- Its neighbour. -/
def cutPeerCfg : Config := { cutCfg with globalSti := 2, globalSti_le := by decide }

/-- The node in a frame of eight slots. -/
def cutWideCfg : Config := { cutCfg with frameLen := 8, frameLen_mem := by decide }

end VanetTdma.Ns3
