import Mathlib.Algebra.Order.Field.Rat
import VanetTdma.Adhoc.FiPacket
import VanetTdma.Lib.GuardedRun
import VanetTdma.Lib.SlotLoop

/-!
# The ADHOC-MAC node: table, choice of a slot and slot timer (`ns2/adhoc-mac/mac-tdma.cc`)

In its own slot the node throws its table away (`clear_FI`), makes a new one from the FIs it holds
(`synthesize_fi_list`, FI by FI through `merge_fi`) and decides with that table alone whether it keeps its
slot.  The table of the time before survives only as `slot_describe_old`, which `is_old_neighbor` reads.

* `mergeSlot` is the body of the loop of `merge_fi`; it touches the entry of its own slot only.
* `determineBch` and `getSendP` are the choice of a slot and the probability of using it at once; their
  index ranges differ (see `VanetTdma.Adhoc.SendP`).
* `slotHandler` is a tick of the slot timer, `step` one event of a run; `reach_inFrame` says that a node that
  is switched on aims at a slot of the frame in every run.

The counters that are only printed and the queue of safety packets are left out.
-/

namespace VanetTdma.Adhoc

open VanetTdma.SlotLoop VanetTdma.GuardedRun

/-! ### Variables -/

/-- The variables bound from the simulation script; `max_slot_num_` is `frame_len_`. -/
structure Params where
  sti : ℕ
  frameLen : ℕ
  srpEna : Bool
  frameLen_pos : 0 < frameLen := by decide

/-- `enum NodeState`. -/
inductive NodeState where
  | init
  | listen
  | waitRequest
  | request
  | work
deriving DecidableEq, Repr

/-- The member variables of the slot logic. -/
structure Node where
  totalSlotCount : ℤ
  slotCount : ℕ
  slotNum : ℤ
  nodeState : NodeState
  enable : Bool
  slotDescribe : Table
  slotDescribeOld : Table
  receivedFiList : List FrameInfo

/-- The constructor.  It does not write `slot_num_`; `firstSlot` is `(int)((NOW - start_time_)/slot_time_)`. -/
def construct (slotNum : ℤ) (firstSlot : ℕ) : Node where
  totalSlotCount := firstSlot - 1
  slotCount := 0
  slotNum := slotNum
  nodeState := .init
  enable := false
  slotDescribe := Table.blank
  slotDescribeOld := Table.blank
  receivedFiList := []

/-! ### `merge_fi` -/

/-- The node has requested its slot or works in it. -/
def Node.holds (s : Node) : Bool := s.nodeState = .request ∨ s.nodeState = .work

/-- `is_old_neighbor`. -/
def isOldNeighbor (p : Params) (s : Node) (sti : ℕ) : Bool :=
  (List.range p.frameLen).any fun i => (s.slotDescribeOld i).sti = sti

/-- A neighbour reports the slot as free. -/
def mergeFree (p : Params) (s : Node) (append : FrameInfo) (count : ℕ) (e : SlotTag) : SlotTag :=
  if (count : ℤ) = s.slotNum ∧ s.holds then
    if e.busy ≠ .collisionUnknown ∧ e.busy ≠ .collisionDeny then
      if p.srpEna then
        if isOldNeighbor p s append.sti then { e with busy := .collisionUnknown } else e
      else { e with busy := .collisionUnknown }
    else e
  else e

/-- A neighbour reports that it receives a third station in the slot. -/
def mergeReceiving (p : Params) (s : Node) (recvTag : SlotTag) (count : ℕ) (e : SlotTag) : SlotTag :=
  if (count : ℤ) = s.slotNum ∧ s.holds then
    if recvTag.sti ≠ p.sti then
      if e.busy ≠ .collisionDeny then { e with busy := .collisionDeny } else e
    else e
  else if (count : ℤ) = s.slotNum then
    -- the slot in which the node is about to send its FI
    if e.busy = .free then
      if recvTag.sti = p.sti then e else { e with busy := .neighborReceive }
    else if e.busy = .neighborReceive ∨ (e.busy = .busy ∧ e.sti ≠ p.sti) ∨ e.busy = .collisionDeny
        ∨ e.busy = .collisionUnknown then e
    else if e.busy = .busy ∧ e.sti = p.sti then
      if recvTag.sti ≠ p.sti then { e with busy := .collisionDeny } else e
    else e
  else
    if recvTag.sti = p.sti then e
    else if e.busy = .free then { e with busy := .neighborReceive }
    else e

/-- A neighbour reports the slot as its own. -/
def mergeSending (p : Params) (s : Node) (recvTag : SlotTag) (count : ℕ) (e : SlotTag) : SlotTag :=
  if (count : ℤ) = s.slotNum ∧ s.holds then
    if recvTag.sti ≠ p.sti then
      if e.busy ≠ .collisionDeny then { e with busy := .collisionDeny } else e
    else e
  else if (count : ℤ) = s.slotNum then
    if e.busy = .free ∨ e.busy = .neighborReceive then { e with busy := .busy, sti := recvTag.sti }
    else if (e.busy = .busy ∧ e.sti ≠ p.sti) ∨ e.busy = .collisionUnknown then
      { e with busy := .collisionDeny }
    else if e.busy = .busy ∧ e.sti = p.sti then { e with busy := .collisionDeny }
    else e
  else
    -- the second operand of `||` is the constant `SLOT_NEIGHBOR_RECEIVE`, not a comparison with it
    if e.busy = .free ∨ Busy.neighborReceive.code ≠ 0 then { e with busy := .busy, sti := recvTag.sti }
    else if e.busy = .busy ∧ e.sti ≠ recvTag.sti then { e with busy := .collisionDeny }
    else if e.busy = .collisionUnknown then { e with busy := .collisionDeny }
    else e

/-- The body of the loop of `merge_fi`. -/
def mergeSlot (p : Params) (s : Node) (append : FrameInfo) (count : ℕ) (e : SlotTag) : SlotTag :=
  let recvTag := append.slotDescribe count
  if recvTag.busy = .free then mergeFree p s append count e
  else if recvTag.busy = .busy ∧ recvTag.sti ≠ append.sti then mergeReceiving p s recvTag count e
  else if recvTag.busy = .busy ∧ recvTag.sti = append.sti then mergeSending p s recvTag count e
  else e

/-- `merge_fi`. -/
def mergeFi (p : Params) (s : Node) (base : Table) (append : FrameInfo) : Table :=
  forSlots p.frameLen (mergeSlot p s append) base

/-- `clear_FI (collected_fi_)`. -/
def clearFi (s : Node) : Node := { s with slotDescribe := Table.blank }

/-- `copy_frame_info_to_old`. -/
def copyFrameInfoToOld (p : Params) (s : Node) : Node :=
  { s with
    slotDescribeOld := forSlots p.frameLen
      (fun i e => { e with
        busy := (s.slotDescribe i).busy
        psf := (s.slotDescribe i).psf
        sti := (s.slotDescribe i).sti })
      s.slotDescribeOld }

/-- `synthesize_fi_list`. -/
def synthesizeFiList (p : Params) (s : Node) : Node :=
  copyFrameInfoToOld p { s with slotDescribe := s.receivedFiList.foldl (mergeFi p s) s.slotDescribe }

/-! ### `determine_BCH` and `get_send_p` -/

/-- The entries `determine_BCH` chooses from. -/
def candidate (e : SlotTag) : Bool := e.busy = .free ∨ e.busy = .collisionUnknown

/-- `free_count` of `determine_BCH`. -/
def freeCount (m : ℕ) (t : Table) : ℕ := (List.range m).countP fun i => candidate (t i)

/-- The second loop of `determine_BCH`, over the indices that are left. -/
def nthCandidate (t : Table) : List ℕ → ℕ → ℤ
  | [], _ => -1
  | i :: rest, chosenSlot =>
    if candidate (t i) then
      if chosenSlot = 0 then i else nthCandidate t rest (chosenSlot - 1)
    else nthCandidate t rest chosenSlot

/-- `determine_BCH`; `draw` is `Random::random()`. -/
def determineBch (m : ℕ) (t : Table) (draw : ℕ) : ℤ :=
  if freeCount m t = 0 then -1 else nthCandidate t (List.range m) (draw % freeCount m t)

/-- The loop ends at a candidate or behind the last index. -/
theorem nthCandidate_cases (t : Table) (l : List ℕ) (k : ℕ) :
    nthCandidate t l k = -1 ∨ ∃ i ∈ l, candidate (t i) ∧ nthCandidate t l k = i := by
  induction l generalizing k with
  | nil => exact Or.inl rfl
  | cons i rest ih =>
    rw [nthCandidate]
    have hrest : ∀ k, nthCandidate t rest k = -1 ∨
        ∃ j ∈ i :: rest, candidate (t j) ∧ nthCandidate t rest k = j := by
      intro k
      rcases ih k with h | ⟨j, hj, hcand, h⟩
      · exact Or.inl h
      · exact Or.inr ⟨j, List.mem_cons_of_mem i hj, hcand, h⟩
    split
    · rename_i hcand
      split
      · exact Or.inr ⟨i, List.mem_cons_self, hcand, rfl⟩
      · exact hrest _
    · exact hrest _

theorem exists_nthCandidate {t : Table} {l : List ℕ} {i : ℕ} (hi : i ∈ l) (hcand : candidate (t i)) :
    ∃ k < l.countP fun i => candidate (t i), nthCandidate t l k = i := by
  induction l with
  | nil => cases hi
  | cons j rest ih =>
    by_cases hj : candidate (t j)
    · rw [List.countP_cons_of_pos (p := fun i => candidate (t i)) hj]
      rcases List.mem_cons.mp hi with rfl | hmem
      · exact ⟨0, Nat.succ_pos _, by rw [nthCandidate, if_pos hj, if_pos rfl]⟩
      · obtain ⟨k, hk, heq⟩ := ih hmem
        refine ⟨k + 1, Nat.succ_lt_succ hk, ?_⟩
        rw [nthCandidate, if_pos hj, if_neg (Nat.succ_ne_zero k), Nat.add_sub_cancel]
        exact heq
    · rw [List.countP_cons_of_neg (p := fun i => candidate (t i)) hj]
      rcases List.mem_cons.mp hi with rfl | hmem
      · exact absurd hcand hj
      · obtain ⟨k, hk, heq⟩ := ih hmem
        refine ⟨k, hk, ?_⟩
        rw [nthCandidate, if_neg hj]
        exact heq

theorem determineBch_cases (m : ℕ) (t : Table) (draw : ℕ) :
    determineBch m t draw = -1 ∨
      ∃ i < m, candidate (t i) ∧ determineBch m t draw = i := by
  rw [determineBch]
  split
  · exact Or.inl rfl
  · rcases nthCandidate_cases t (List.range m) (draw % freeCount m t) with h | ⟨i, hi, hcand, h⟩
    · exact Or.inl h
    · exact Or.inr ⟨i, List.mem_range.mp hi, hcand, h⟩

/-- **`determine_BCH` may choose exactly the candidates.** -/
theorem exists_determineBch_iff (m : ℕ) (t : Table) (i : ℕ) :
    (∃ draw, determineBch m t draw = i) ↔ i < m ∧ candidate (t i) := by
  constructor
  · rintro ⟨draw, hdraw⟩
    rcases determineBch_cases m t draw with h | ⟨j, hj, hcand, h⟩
    · omega
    · obtain rfl : j = i := by omega
      exact ⟨hj, hcand⟩
  · rintro ⟨hi, hcand⟩
    obtain ⟨k, hk, heq⟩ := exists_nthCandidate (List.mem_range.mpr hi) hcand
    refine ⟨k, ?_⟩
    have hpos : freeCount m t ≠ 0 := Nat.ne_of_gt (Nat.zero_lt_of_lt hk)
    rw [determineBch, if_neg hpos, Nat.mod_eq_of_lt (show k < freeCount m t from hk)]
    exact heq

/-- `fi_local[count]`: the table has `m` entries, `behind` is what the memory behind it shows. -/
def readEntry (m : ℕ) (t : Table) (behind : SlotTag) (count : ℕ) : SlotTag :=
  if count < m then t count else behind

/-- The variable `busy` of `get_send_p`.  The test `count++ < max_slot_num_` increments `count` before the
body reads the entry. -/
def busyCount (m : ℕ) (t : Table) (behind : SlotTag) : ℕ :=
  (List.range m).countP fun count =>
    (readEntry m t behind (count + 1)).busy ≠ .free ∧
      (readEntry m t behind (count + 1)).busy ≠ .collisionUnknown

/-- `get_send_p`. -/
def getSendP (m : ℕ) (t : Table) (behind : SlotTag) : ℚ :=
  if busyCount m t behind = m then 1 else 1 / (m - busyCount m t behind : ℕ)

/-! ### `slotHandler` -/

/-- What a tick draws, and the memory behind the table. -/
structure Draws where
  bch : ℕ := 0
  /-- `Random::uniform (0, 1.0)`. -/
  uniform : ℚ := 0
  behind : SlotTag := {}

/-- What a tick leaves: the node, the value of `determine_BCH` if it was called, and the data of `pktFI_` if
an FI goes out. -/
structure Tick where
  node : Node
  bch : Option ℤ := none
  packet : Option (ℕ → ℕ) := none

/-- The two assignments that mark the present slot as the node's own. -/
def claimSlot (p : Params) (s : Node) : Node :=
  { s with
    slotDescribe := Function.update s.slotDescribe s.slotCount
      { s.slotDescribe s.slotCount with busy := .busy, sti := p.sti } }

/-- An FI goes out, and the node goes on in `state`. -/
def sendFi (p : Params) (s : Node) (state : NodeState) (bch : Option ℤ) : Tick where
  node := { claimSlot p s with nodeState := state }
  bch := bch
  packet := some (generateFiPacket p.frameLen s.slotNum p.sti s.slotDescribe).buffer

/-- The table made anew from the FIs the node holds. -/
def refresh (p : Params) (s : Node) : Node := synthesizeFiList p (clearFi s)

/-- There is no slot to request: listen for another frame. -/
def backToListen (s : Node) (bch : ℤ) : Tick where
  node := { s with nodeState := .listen, slotNum := s.slotCount }
  bch := some bch

def waitFor (s : Node) (bch : ℤ) : Tick where
  node := { s with nodeState := .waitRequest, slotNum := bch }
  bch := some bch

/-- `NODE_LISTEN`, with the table made anew. -/
def tickListen (p : Params) (s : Node) (d : Draws) : Tick :=
  let c := determineBch p.frameLen s.slotDescribe d.bch
  if c < 0 then backToListen s c
  else if c = s.slotCount then
    if d.uniform ≤ getSendP p.frameLen s.slotDescribe d.behind then
      sendFi p { s with slotNum := c } .request (some c)
    else { node := { s with slotNum := c }, bch := some c }
  else waitFor s c

def chooseAgain (p : Params) (s : Node) (d : Draws) : Tick :=
  let c := determineBch p.frameLen s.slotDescribe d.bch
  if c < 0 then backToListen s c
  else if c = s.slotCount then sendFi p { s with slotNum := c } .request (some c)
  else waitFor s c

/-- `NODE_WAIT_REQUEST`, with the table made anew. -/
def tickWaitRequest (p : Params) (s : Node) (d : Draws) : Tick :=
  if (s.slotDescribe s.slotCount).busy ≠ .free then chooseAgain p s d
  else sendFi p s .request none

/-- `NODE_REQUEST` and `NODE_WORK`, with the table made anew. -/
def tickHolds (p : Params) (s : Node) (d : Draws) : Tick :=
  if (s.slotDescribe s.slotNum.toNat).busy = .collisionUnknown
      ∨ (s.slotDescribe s.slotNum.toNat).busy = .collisionDeny then chooseAgain p s d
  else sendFi p s .work none

def ownTick (p : Params) (s : Node) (d : Draws) : Tick :=
  match s.nodeState with
  | .init => { node := { s with nodeState := .listen } }
  | .listen => tickListen p (refresh p s) d
  | .waitRequest => tickWaitRequest p (refresh p s) d
  | .request => tickHolds p (refresh p s) d
  | .work => tickHolds p (refresh p s) d

/-- `fade_received_fi_list (1)`. -/
def fadeReceivedFiList (l : List FrameInfo) : List FrameInfo :=
  (l.map fun fi => { fi with remainTime := fi.remainTime - 1 }).filter fun fi => 0 < fi.remainTime

/-- The counters and the list of FIs at the begin of a tick, and the node switched on or off: `z` compares
its height with 0. -/
def beginSlot (p : Params) (s : Node) (z : Ordering) : Node :=
  let total := (s.totalSlotCount + 1) % (p.frameLen * 100000)
  let s := { s with
    totalSlotCount := total
    slotCount := total.toNat % p.frameLen
    receivedFiList := fadeReceivedFiList s.receivedFiList }
  if s.enable then { s with enable := z ≠ .gt }
  else if z = .eq then { s with enable := true, slotNum := ((s.slotCount + 1) % p.frameLen : ℕ) }
  else s

/-- `slotHandler`. -/
def slotHandler (p : Params) (s : Node) (z : Ordering) (d : Draws) : Tick :=
  let s := beginSlot p s z
  if s.enable = false then { node := s }
  else if (s.slotCount : ℤ) = s.slotNum then ownTick p s d
  else { node := s }

/-! ### Runs -/

/-- What happens to a node. -/
inductive Event where
  | recv (buffer : ℕ → ℕ)
  | tick (z : Ordering) (d : Draws)

/-- One event; `get_new_FI` puts a received FI at the head of the list. -/
def step (p : Params) (s : Node) : Event → Option Node
  | .recv buffer => some { s with receivedFiList := recvFi p.frameLen buffer :: s.receivedFiList }
  | .tick z d => some (slotHandler p s z d).node

/-- A node that is switched on aims at a slot of the frame. -/
structure Node.InFrame (p : Params) (s : Node) : Prop where
  slotCount_lt : s.slotCount < p.frameLen
  slotNum_mem : s.enable → 0 ≤ s.slotNum ∧ s.slotNum < p.frameLen

theorem Node.InFrame.of_aim {p : Params} {s s' : Node} (h : s.InFrame p)
    (hcount : s'.slotCount = s.slotCount) (haim : 0 ≤ s'.slotNum ∧ s'.slotNum < p.frameLen) :
    s'.InFrame p :=
  ⟨hcount ▸ h.slotCount_lt, fun _ => haim⟩

section inFrame

variable {p : Params} {s : Node}

theorem backToListen_inFrame (h : s.InFrame p) (c : ℤ) : (backToListen s c).node.InFrame p := by
  have hlt := h.slotCount_lt
  refine h.of_aim rfl ?_
  show 0 ≤ (s.slotCount : ℤ) ∧ (s.slotCount : ℤ) < p.frameLen
  omega

theorem determineBch_mem {m draw : ℕ} {t : Table} (h : ¬ determineBch m t draw < 0) :
    0 ≤ determineBch m t draw ∧ determineBch m t draw < m := by
  rcases determineBch_cases m t draw with hneg | ⟨i, hi, -, heq⟩
  · omega
  · omega

theorem tickListen_inFrame (h : s.InFrame p) (d : Draws) : (tickListen p s d).node.InFrame p := by
  unfold tickListen
  dsimp only
  split
  · exact backToListen_inFrame h _
  · rename_i hc
    have haim := determineBch_mem hc
    split
    · split
      · exact h.of_aim rfl haim
      · exact h.of_aim rfl haim
    · exact h.of_aim rfl haim

theorem chooseAgain_inFrame (h : s.InFrame p) (d : Draws) : (chooseAgain p s d).node.InFrame p := by
  unfold chooseAgain
  dsimp only
  split
  · exact backToListen_inFrame h _
  · rename_i hc
    have haim := determineBch_mem hc
    split
    · exact h.of_aim rfl haim
    · exact h.of_aim rfl haim

theorem sendFi_inFrame (h : s.InFrame p) (state : NodeState) (bch : Option ℤ) :
    (sendFi p s state bch).node.InFrame p :=
  ⟨h.slotCount_lt, h.slotNum_mem⟩

theorem ownTick_inFrame (h : s.InFrame p) (d : Draws) : (ownTick p s d).node.InFrame p := by
  have hrefresh : (refresh p s).InFrame p := ⟨h.slotCount_lt, h.slotNum_mem⟩
  have hholds : (tickHolds p (refresh p s) d).node.InFrame p := by
    unfold tickHolds
    split
    · exact chooseAgain_inFrame hrefresh d
    · exact sendFi_inFrame hrefresh _ _
  unfold ownTick
  split
  · exact ⟨h.slotCount_lt, h.slotNum_mem⟩
  · exact tickListen_inFrame hrefresh d
  · unfold tickWaitRequest
    split
    · exact chooseAgain_inFrame hrefresh d
    · exact sendFi_inFrame hrefresh _ _
  · exact hholds
  · exact hholds

theorem beginSlot_inFrame (h : s.InFrame p) (z : Ordering) : (beginSlot p s z).InFrame p := by
  have hcount : ∀ n : ℕ, n % p.frameLen < p.frameLen := fun n => Nat.mod_lt n p.frameLen_pos
  unfold beginSlot
  dsimp only
  split
  · rename_i hen
    exact ⟨hcount _, fun _ => h.slotNum_mem hen⟩
  · rename_i hen
    split
    · refine ⟨hcount _, fun _ => ?_⟩
      exact ⟨Int.natCast_nonneg _, Int.ofNat_lt.mpr (hcount _)⟩
    · exact ⟨hcount _, fun h => absurd h hen⟩

theorem step_inFrame (h : s.InFrame p) (ev : Event) {s' : Node} (hs : step p s ev = some s') :
    s'.InFrame p := by
  cases ev with
  | recv buffer =>
    cases hs
    exact ⟨h.slotCount_lt, h.slotNum_mem⟩
  | tick z d =>
    cases hs
    have hbegin := beginSlot_inFrame h z
    unfold slotHandler
    dsimp only
    split
    · exact hbegin
    · split
      · exact ownTick_inFrame hbegin d
      · exact hbegin

end inFrame

end VanetTdma.Adhoc
