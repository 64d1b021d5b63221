import Mathlib.Data.Int.Notation
import VanetTdma.Lib.PointerList

/-!
# The packet queue of the ns-2 node (`Packet_queue`, `mac-tdma.h`)

A linked list behind a dummy head, with a pointer to its last node and a count.  `Dequeue` sets the tail back
to the head when the queue runs empty, because the node the tail points to is deleted.

The memory is explicit: reading through a pointer to a node that does not exist has no value, and `new` may
return any address that is not in use, so also that of a node deleted before.  What the queue is for is said
by `fifoCall`, on the list of the packets that wait.

* `Holds.enqueue`, `Holds.dequeue` — one call, on the nodes in memory;
* `packetQueue_refines_fifo` — every sequence of calls runs to its end and replies as the list does.
-/

namespace VanetTdma.Ns2

open VanetTdma.PointerList

variable {α : Type}

/-! ### The queue in memory -/

/-- `class Packet_queue`.  A node holds a packet pointer, so an `Option`. -/
structure PacketQueue (α : Type) where
  mem : Store (Option α)
  head : ℕ
  tail : ℕ
  packetCount : ℕ
  maxSize : ℕ

namespace PacketQueue

/-- The constructor with the capacity `size`; `a` is the address of the dummy node. -/
def construct (mem : Store (Option α)) (a size : ℕ) : PacketQueue α where
  mem := Function.update mem a (some ⟨none, none⟩)
  head := a
  tail := a
  packetCount := 0
  maxSize := size

/-- `Enqueue`; `a` is the address that `new` returns. -/
def enqueue (q : PacketQueue α) (p : Option α) (a : ℕ) : Option (PacketQueue α × ℤ) :=
  if q.packetCount < q.maxSize then do
    let mem := Function.update q.mem a (some ⟨p, none⟩)
    let last ← mem q.tail
    let mem := Function.update mem q.tail (some { last with next := some a })
    let last ← mem q.tail
    let tail ← last.next
    some ({ q with mem := mem, tail := tail, packetCount := q.packetCount + 1 },
      (q.packetCount + 1 : ℕ))
  else some (q, -1)

/-- `Dequeue`. -/
def dequeue (q : PacketQueue α) : Option (PacketQueue α × Option α) := do
  let dummy ← q.mem q.head
  if 0 < q.packetCount then
    let first ← dummy.next
    let node ← q.mem first
    let mem := Function.update q.mem q.head (some { dummy with next := node.next })
    let count := q.packetCount - 1
    some ({ q with
      mem := Function.update mem first none
      packetCount := count
      tail := if count = 0 then q.head else q.tail }, node.val)
  else some (q, none)

/-- `Size`. -/
def size (q : PacketQueue α) : ℕ := q.packetCount

end PacketQueue

/-! ### Calls -/

/-- A call, with the address that `new` returns if it is needed. -/
inductive Call (α : Type) where
  | enqueue (p : Option α) (a : ℕ)
  | dequeue

/-- What a call returns. -/
inductive Reply (α : Type) where
  | count (n : ℤ)
  | packet (p : Option α)
deriving DecidableEq

def PacketQueue.call (q : PacketQueue α) : Call α → Option (PacketQueue α × Reply α)
  | .enqueue p a => (q.enqueue p a).map fun r => (r.1, .count r.2)
  | .dequeue => q.dequeue.map fun r => (r.1, .packet r.2)

/-- A sequence of calls, with their replies. -/
def PacketQueue.run : PacketQueue α → List (Call α) → Option (PacketQueue α × List (Reply α))
  | q, [] => some (q, [])
  | q, c :: cs => (q.call c).bind fun r => (r.1.run cs).map fun rs => (rs.1, r.2 :: rs.2)

/-- The address is not in use. -/
def Call.allocates (mem : Store (Option α)) : Call α → Bool
  | .enqueue _ a => (mem a).isNone
  | .dequeue => true

/-- `new` only returns addresses that are not in use. -/
def PacketQueue.allocates : PacketQueue α → List (Call α) → Bool
  | _, [] => true
  | q, c :: cs => c.allocates q.mem && (q.call c).all fun r => r.1.allocates cs

/-! ### The queue as a list -/

/-- One call on the list of the packets that wait, in a queue of capacity `m`. -/
def fifoCall (m : ℕ) (packets : List (Option α)) : Call α → List (Option α) × Reply α
  | .enqueue p _ =>
    if packets.length = m then (packets, .count (-1)) else (packets ++ [p], .count (packets.length + 1 : ℕ))
  | .dequeue => (packets.tail, .packet packets.head?.join)

def fifoRun (m : ℕ) : List (Option α) → List (Call α) → List (Option α) × List (Reply α)
  | packets, [] => (packets, [])
  | packets, c :: cs =>
    let r := fifoCall m packets c
    let rs := fifoRun m r.1 cs
    (rs.1, r.2 :: rs.2)

/-! ### One call -/

/-- The nodes behind the dummy, by address and packet, are those of the queue. -/
structure PacketQueue.Holds (q : PacketQueue α) (nodes : List (ℕ × Option α)) : Prop where
  linked : Linked q.mem ((q.head, none) :: nodes)
  nodup : (((q.head, none) :: nodes).map Prod.fst).Nodup
  tail_eq : (((q.head, none) :: nodes).map Prod.fst).getLast? = some q.tail
  count_eq : q.packetCount = nodes.length
  length_le : nodes.length ≤ q.maxSize

namespace PacketQueue.Holds

variable {q : PacketQueue α} {nodes : List (ℕ × Option α)}

theorem construct (mem : Store (Option α)) (a m : ℕ) : (PacketQueue.construct mem a m).Holds [] where
  linked := ⟨Function.update_self _ _ _, trivial⟩
  nodup := List.nodup_singleton a
  tail_eq := rfl
  count_eq := rfl
  length_le := Nat.zero_le m

theorem endsAt (h : q.Holds nodes) : EndsAt q.mem q.head q.tail :=
  h.linked.reaches_last h.tail_eq

theorem enqueue_full (h : q.Holds nodes) (hfull : nodes.length = q.maxSize) (p : Option α) (a : ℕ) :
    q.enqueue p a = some (q, -1) := by
  have hcount := h.count_eq
  exact if_neg (by omega)

/-- **`Enqueue`** with room left: the new node is the last one. -/
theorem enqueue (h : q.Holds nodes) (hroom : nodes.length ≠ q.maxSize) (p : Option α) {a : ℕ}
    (ha : q.mem a = none) :
    ∃ q' : PacketQueue α, q.enqueue p a = some (q', ((nodes.length + 1 : ℕ) : ℤ)) ∧ q'.maxSize = q.maxSize ∧
      q'.Holds (nodes ++ [(a, p)]) := by
  have hcount := h.count_eq
  have hle := h.length_le
  have hnew := h.linked.not_mem ha
  -- the last node, seen as the end of the list
  obtain ⟨c, hlast, htail⟩ : ∃ c, ((q.head, none) :: nodes).getLast? = some c ∧ c.1 = q.tail := by
    have htail := h.tail_eq
    rw [List.getLast?_map] at htail
    exact Option.map_eq_some_iff.mp htail
  obtain ⟨init, hinit⟩ := List.getLast?_eq_some_iff.mp hlast
  obtain ⟨n, hn⟩ := h.linked.exists_cell (List.mem_of_getLast? hlast)
  rw [htail] at hn
  have hne : q.tail ≠ a := by
    rintro rfl
    rw [ha] at hn
    cases hn
  have hcell : Function.update q.mem a (some ⟨p, none⟩) q.tail = some ⟨c.2, n⟩ := by
    rw [Function.update_of_ne hne]
    exact hn
  refine ⟨⟨Function.update (Function.update q.mem a (some ⟨p, none⟩)) q.tail (some ⟨c.2, some a⟩), q.head, a,
    q.packetCount + 1, q.maxSize⟩, ?_, rfl, ?_⟩
  · refine (if_pos (show q.packetCount < q.maxSize by omega)).trans ?_
    simp only [Option.bind_eq_bind, hcell, Option.bind_some, Function.update_self]
    rw [hcount]
  · have hlinked : Linked q.mem (init ++ [c]) := hinit ▸ h.linked
    have hnodup : ((init ++ [c]).map Prod.fst).Nodup := hinit ▸ h.nodup
    have hsnoc := hlinked.snoc (d := (a, p)) hnodup (hinit ▸ hnew)
    rw [htail, ← hinit] at hsnoc
    refine ⟨hsnoc, ?_, ?_, ?_, ?_⟩
    · show (((q.head, none) :: nodes ++ [(a, p)]).map Prod.fst).Nodup
      rw [List.map_append]
      exact List.concat_eq_append ▸ h.nodup.concat hnew
    · show (((q.head, none) :: nodes ++ [(a, p)]).map Prod.fst).getLast? = some a
      rw [List.map_append, List.map_singleton, List.getLast?_concat]
    · show q.packetCount + 1 = (nodes ++ [(a, p)]).length
      rw [List.length_append, hcount]
      rfl
    · show (nodes ++ [(a, p)]).length ≤ q.maxSize
      rw [List.length_append]
      show nodes.length + 1 ≤ q.maxSize
      omega

theorem dequeue_empty (h : q.Holds []) : q.dequeue = some (q, none) := by
  have hdummy := h.linked.1
  have hcount : ¬ 0 < q.packetCount := by
    rw [h.count_eq]
    exact Nat.lt_irrefl 0
  rw [PacketQueue.dequeue, hdummy]
  exact if_neg hcount

/-- **`Dequeue`** with a packet waiting: the first node goes. -/
theorem dequeue {node : ℕ × Option α} (h : q.Holds (node :: nodes)) :
    ∃ q' : PacketQueue α, q.dequeue = some (q', node.2) ∧ q'.maxSize = q.maxSize ∧ q'.Holds nodes := by
  have hcount : q.packetCount = nodes.length + 1 := h.count_eq
  have hle : nodes.length + 1 ≤ q.maxSize := h.length_le
  have hdummy := h.linked.1
  have hfirst := h.linked.2.1
  refine ⟨⟨Function.update (Function.update q.mem q.head (some ⟨none, firstAddr nodes⟩)) node.1 none, q.head,
    if nodes.length = 0 then q.head else q.tail, nodes.length, q.maxSize⟩, ?_, rfl,
    h.linked.unlink h.nodup, ?_, ?_, rfl, Nat.le_of_succ_le hle⟩
  · have hpos : 0 < q.packetCount := by omega
    have hsub : q.packetCount - 1 = nodes.length := by omega
    have hnext : firstAddr (node :: nodes) = some node.1 := rfl
    simp only [PacketQueue.dequeue, Option.bind_eq_bind, hdummy, Option.bind_some, if_pos hpos, hnext, hfirst,
      hsub]
  · refine h.nodup.sublist ?_
    exact ((List.sublist_cons_self node nodes).cons_cons (q.head, none)).map Prod.fst
  · -- the last node stays the last one, unless it was the only one
    have htail := h.tail_eq
    cases nodes with
    | nil => rfl
    | cons d nodes => exact htail

end PacketQueue.Holds

/-! ### Sequences of calls -/

section run

variable {q : PacketQueue α} {nodes : List (ℕ × Option α)}

/-- **One call**: memory and list stay in step, and the replies agree. -/
theorem PacketQueue.Holds.call (h : q.Holds nodes) (c : Call α) (hc : c.allocates q.mem) :
    ∃ (q' : PacketQueue α) (nodes' : List (ℕ × Option α)),
      q.call c = some (q', (fifoCall q.maxSize (nodes.map Prod.snd) c).2) ∧ q'.maxSize = q.maxSize ∧
        q'.Holds nodes' ∧ nodes'.map Prod.snd = (fifoCall q.maxSize (nodes.map Prod.snd) c).1 := by
  cases c with
  | enqueue p a =>
    have ha : q.mem a = none := Option.isNone_iff_eq_none.mp hc
    by_cases hfull : nodes.length = q.maxSize
    · have hlist : fifoCall q.maxSize (nodes.map Prod.snd) (.enqueue p a)
          = (nodes.map Prod.snd, .count (-1)) := if_pos (by rw [List.length_map, hfull])
      rw [hlist]
      exact ⟨q, nodes, by rw [PacketQueue.call, h.enqueue_full hfull]; rfl, rfl, h, rfl⟩
    · have hlist : fifoCall q.maxSize (nodes.map Prod.snd) (.enqueue p a)
          = (nodes.map Prod.snd ++ [p], .count (nodes.length + 1 : ℕ)) := by
        rw [fifoCall, List.length_map]
        exact if_neg hfull
      obtain ⟨q', hq', hmax, hholds⟩ := h.enqueue hfull p ha
      rw [hlist]
      refine ⟨q', _, ?_, hmax, hholds, ?_⟩
      · rw [PacketQueue.call, hq']
        rfl
      · rw [List.map_append]
        rfl
  | dequeue =>
    cases nodes with
    | nil =>
      refine ⟨q, [], ?_, rfl, h, rfl⟩
      rw [PacketQueue.call, h.dequeue_empty]
      rfl
    | cons node nodes =>
      obtain ⟨q', hq', hmax, hholds⟩ := h.dequeue
      refine ⟨q', nodes, ?_, hmax, hholds, rfl⟩
      rw [PacketQueue.call, hq']
      rfl

theorem PacketQueue.Holds.run (h : q.Holds nodes) (calls : List (Call α)) (hcalls : q.allocates calls) :
    ∃ (q' : PacketQueue α) (nodes' : List (ℕ × Option α)),
      q.run calls = some (q', (fifoRun q.maxSize (nodes.map Prod.snd) calls).2) ∧
        q'.Holds nodes' ∧ nodes'.map Prod.snd = (fifoRun q.maxSize (nodes.map Prod.snd) calls).1 := by
  induction calls generalizing q nodes with
  | nil => exact ⟨q, nodes, rfl, h, rfl⟩
  | cons c cs ih =>
    rw [PacketQueue.allocates, Bool.and_eq_true] at hcalls
    obtain ⟨q₁, nodes₁, hcall, hmax, hholds, hlist⟩ := h.call c hcalls.1
    have hrest : q₁.allocates cs := by
      have hall := hcalls.2
      rw [hcall] at hall
      exact hall
    obtain ⟨q', nodes', hrun, hholds', hlist'⟩ := ih hholds hrest
    rw [hmax, hlist] at hrun hlist'
    refine ⟨q', nodes', ?_, hholds', hlist'⟩
    rw [PacketQueue.run, hcall, Option.bind_some, hrun]
    rfl

end run

/-- **`Packet_queue` is a bounded FIFO.**  For every sequence of calls on a new queue of capacity `m`, with any
allocator, all calls return; their replies are those of the list of waiting packets (`Enqueue` is refused with
`-1` exactly when `m` packets wait, `Dequeue` returns the packet that waits longest, and a null pointer when
none waits), `Size` is its length, and the tail is the last node reachable from the head. -/
theorem packetQueue_refines_fifo (mem : Store (Option α)) (a m : ℕ) (calls : List (Call α))
    (hcalls : (PacketQueue.construct mem a m).allocates calls) :
    ∃ q : PacketQueue α,
      (PacketQueue.construct mem a m).run calls = some (q, (fifoRun m [] calls).2) ∧
        q.size = (fifoRun m [] calls).1.length ∧ EndsAt q.mem q.head q.tail := by
  obtain ⟨q, nodes, hrun, hholds, hlist⟩ := (PacketQueue.Holds.construct mem a m).run calls hcalls
  refine ⟨q, hrun, ?_, hholds.endsAt⟩
  have hlen := congrArg List.length hlist
  rw [List.length_map] at hlen
  exact hholds.count_eq.trans hlen

/-- A queue for one packet runs full, runs empty and takes the address of a deleted node again. -/
def refill : List (Call ℕ) :=
  [.enqueue (some 7) 1, .enqueue (some 8) 2, .dequeue, .dequeue, .enqueue (some 9) 1, .dequeue]

theorem packetQueue_refines_fifo_refill :
    ∃ q, (PacketQueue.construct (fun _ => none) 0 1).run refill
      = some (q, [.count 1, .count (-1), .packet (some 7), .packet none, .count 1, .packet (some 9)]) := by
  obtain ⟨q, hrun, -⟩ := packetQueue_refines_fifo (fun _ => none) 0 1 refill (by decide)
  exact ⟨q, hrun⟩

end VanetTdma.Ns2
