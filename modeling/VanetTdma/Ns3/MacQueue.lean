import Mathlib.Data.List.Induction
import Mathlib.Tactic.Common

/-!
# The queue of data packets (`tdma-mac-queue.cc`)

Every operation but `Remove` and `Flush` drops the packets first that have waited for `m_maxDelay`.  `History` records
what was accepted, served and taken back; `Inv` says how the record and the queue hang together, and `run_inv` that
they do in every run.  The two attributes do not change in a run.
-/

namespace VanetTdma.Ns3.MacQueue

/-- `MaxPacketNumber` and, in nanoseconds, `MaxDelay`. -/
structure Setting where
  maxSize : BitVec 32 := 400
  maxDelay : ℕ := 10 * 10 ^ 9

/-- `TdmaMacQueue::Item`. -/
structure Item (P H : Type*) where
  packet : P
  hdr : H
  tstamp : ℕ

structure TdmaMacQueue (P H : Type*) where
  queue : List (Item P H) := []
  size : BitVec 32 := 0

variable {P H : Type*}

section Operations

variable (c : Setting) (now : ℕ) (q : TdmaMacQueue P H)

/-- The test of `Cleanup`. -/
def alive (i : Item P H) : Bool := i.tstamp + c.maxDelay > now

/-- `Cleanup`. -/
def cleanup : TdmaMacQueue P H where
  queue := q.queue.filter (alive c now)
  size := q.size - BitVec.ofNat 32 (q.queue.countP fun i => !alive c now i)

/-- `Enqueue`. -/
def enqueue (packet : P) (hdr : H) : TdmaMacQueue P H × Bool :=
  let q := cleanup c now q
  if q.size = c.maxSize then (q, false)
  else ({ queue := q.queue ++ [⟨packet, hdr, now⟩], size := q.size + 1 }, true)

/-- `Dequeue`. -/
def dequeue : TdmaMacQueue P H × Option (Item P H) :=
  let q := cleanup c now q
  match q.queue with
  | i :: rest => ({ queue := rest, size := q.size - 1 }, some i)
  | [] => (q, none)

/-- `Peek`. -/
def peek : TdmaMacQueue P H × Option (Item P H) := (cleanup c now q, (cleanup c now q).queue.head?)

/-- `IsEmpty`. -/
def isEmpty : TdmaMacQueue P H × Bool := (cleanup c now q, (cleanup c now q).queue.isEmpty)

/-- `Remove`, with the item that goes. -/
def remove [DecidableEq P] (packet : P) : TdmaMacQueue P H × Option (Item P H) :=
  match q.queue.find? fun i => i.packet = packet with
  | some i => ({ queue := q.queue.eraseP fun i => i.packet = packet, size := q.size - 1 }, some i)
  | none => (q, none)

end Operations

/-! ### Runs -/

inductive Op (P H : Type*) where
  | enqueue (packet : P) (hdr : H)
  | dequeue
  | peek
  | isEmpty
  | flush
  | remove (packet : P)

/-- The queue, and the items accepted, served (with the time) and taken back by `Remove` or `Flush`. -/
structure History (P H : Type*) where
  state : TdmaMacQueue P H := {}
  accepted : List (Item P H) := []
  served : List (ℕ × Item P H) := []
  withdrawn : List (Item P H) := []

/-- One call, at time `e.1`. -/
def History.step [DecidableEq P] (c : Setting) (h : History P H) (e : ℕ × Op P H) : History P H :=
  match e.2 with
  | .enqueue p hdr =>
    { h with
      state := (enqueue c e.1 h.state p hdr).1
      accepted := h.accepted ++ if (enqueue c e.1 h.state p hdr).2 then [⟨p, hdr, e.1⟩] else [] }
  | .dequeue =>
    { h with
      state := (dequeue c e.1 h.state).1
      served := h.served ++ (dequeue c e.1 h.state).2.toList.map fun i => (e.1, i) }
  | .peek => { h with state := (peek c e.1 h.state).1 }
  | .isEmpty => { h with state := (isEmpty c e.1 h.state).1 }
  | .flush => { h with state := {}, withdrawn := h.withdrawn ++ h.state.queue }
  | .remove p =>
    { h with
      state := (remove h.state p).1
      withdrawn := h.withdrawn ++ (remove h.state p).2.toList }

/-- What holds at time `now`: `m_size` is the length, which is bounded; packets are served once and in the order of
their acceptance, none of them late; and no packet disappears before its time unless it is taken back. -/
structure Inv (c : Setting) (now : ℕ) (h : History P H) : Prop where
  size : h.state.size = BitVec.ofNat 32 h.state.queue.length
  bounded : h.state.queue.length ≤ c.maxSize.toNat
  order : (h.served.map Prod.snd ++ h.state.queue).Sublist h.accepted
  inTime : ∀ s ∈ h.served, s.1 < s.2.tstamp + c.maxDelay
  kept : ∀ i ∈ h.accepted, i ∈ h.served.map Prod.snd ∨ i ∈ h.state.queue ∨ i ∈ h.withdrawn ∨
    i.tstamp + c.maxDelay ≤ now

section Step

variable {c : Setting} {now t : ℕ} {h : History P H}

theorem Inv.mono (hinv : Inv c now h) (ht : now ≤ t) : Inv c t h where
  __ := hinv
  kept i hi := (hinv.kept i hi).imp_right fun hrest => hrest.imp_right fun hgone =>
    hgone.imp_right fun hold => Nat.le_trans hold ht

theorem Inv.cleanup (hinv : Inv c t h) : Inv c t { h with state := cleanup c t h.state } where
  size := by
    have hlen := List.length_eq_countP_add_countP (l := h.state.queue) (alive c t)
    simp only [Bool.not_eq_true, ← Bool.not_eq_true', Bool.decide_eq_true] at hlen
    rw [List.countP_eq_length_filter] at hlen
    change h.state.size - _ = _
    rw [hinv.size, hlen, BitVec.ofNat_add]
    exact BitVec.add_sub_cancel ..
  bounded := Nat.le_trans (List.length_filter_le ..) hinv.bounded
  order := (List.filter_sublist.append_left _).trans hinv.order
  inTime := hinv.inTime
  kept i hi := by
    rcases hinv.kept i hi with hserved | hqueue | hrest
    · exact .inl hserved
    · by_cases halive : alive c t i = true
      · exact .inr (.inl (List.mem_filter.mpr ⟨hqueue, halive⟩))
      · exact .inr (.inr (.inr (Nat.le_of_not_lt fun hlt => halive (decide_eq_true hlt))))
    · exact .inr (.inr hrest)

theorem Inv.shrinks (hinv : Inv c now h) {l : List (Item P H)} (hlen : h.state.queue.length = l.length + 1) :
    h.state.size - 1 = BitVec.ofNat 32 l.length ∧ l.length ≤ c.maxSize.toNat := by
  have hle := hinv.bounded
  refine ⟨?_, by omega⟩
  rw [hinv.size, hlen, BitVec.ofNat_add]
  exact BitVec.add_sub_cancel ..

theorem Inv.enqueue (hinv : Inv c t h) (p : P) (hdr : H) (hroom : h.state.size ≠ c.maxSize) :
    Inv c t { h with
      state := { queue := h.state.queue ++ [⟨p, hdr, t⟩], size := h.state.size + 1 }
      accepted := h.accepted ++ [⟨p, hdr, t⟩] } where
  size := by
    rw [hinv.size, List.length_append, BitVec.ofNat_add]
    rfl
  bounded := by
    -- a full queue has the size of the bound, and the test is for equality
    have hne : h.state.queue.length ≠ c.maxSize.toNat := fun heq =>
      hroom (by rw [hinv.size, heq, BitVec.ofNat_toNat, BitVec.setWidth_eq])
    have hle := hinv.bounded
    rw [List.length_append, List.length_singleton]
    omega
  order := by
    rw [← List.append_assoc]
    exact hinv.order.append (.refl _)
  inTime := hinv.inTime
  kept i hi := by
    rcases List.mem_append.mp hi with hold | hnew
    · exact (hinv.kept i hold).imp_right fun hrest => hrest.imp_left (List.mem_append_left _)
    · exact .inr (.inl (List.mem_append_right _ hnew))

theorem Inv.dequeue (hinv : Inv c t h) {i : Item P H} {rest : List (Item P H)} (hqueue : h.state.queue = i :: rest)
    (halive : t < i.tstamp + c.maxDelay) :
    Inv c t { h with
      state := { queue := rest, size := h.state.size - 1 }
      served := h.served ++ [(t, i)] } where
  size := (hinv.shrinks (congrArg List.length hqueue)).1
  bounded := (hinv.shrinks (congrArg List.length hqueue)).2
  order := by
    have horder := hinv.order
    rw [hqueue] at horder
    simpa using horder
  inTime := by
    intro s hs
    rcases List.mem_append.mp hs with hold | hnew
    · exact hinv.inTime s hold
    · exact List.mem_singleton.mp hnew ▸ halive
  kept j hj := by
    have hkept := hinv.kept j hj
    rw [hqueue] at hkept
    grind

theorem Inv.flush (hinv : Inv c t h) : Inv c t { h with state := {}, withdrawn := h.withdrawn ++ h.state.queue } where
  size := rfl
  bounded := Nat.zero_le _
  order := ((List.nil_sublist _).append_left _).trans hinv.order
  inTime := hinv.inTime
  kept i hi := by
    have hkept := hinv.kept i hi
    grind

theorem Inv.remove [DecidableEq P] (hinv : Inv c t h) (p : P) :
    Inv c t { h with
      state := (remove h.state p).1
      withdrawn := h.withdrawn ++ (remove h.state p).2.toList } := by
  unfold MacQueue.remove
  split
  case h_1 i hfind =>
    obtain ⟨hpacket, before, after, hqueue, hbefore⟩ := List.find?_eq_some_iff_append.mp hfind
    have herase : h.state.queue.eraseP (fun i => decide (i.packet = p)) = before ++ after := by
      rw [hqueue, List.eraseP_append_right _ (fun j hj => by simpa using hbefore j hj), List.eraseP_cons, hpacket, cond_true]
    have hlen : h.state.queue.length = (before ++ after).length + 1 := by
      rw [hqueue]
      simp only [List.length_append, List.length_cons]
      omega
    rw [herase]
    exact
      { size := (hinv.shrinks hlen).1
        bounded := (hinv.shrinks hlen).2
        order := by
          refine List.Sublist.trans (List.Sublist.append_left ?_ _) hinv.order
          rw [hqueue]
          exact (List.sublist_cons_self ..).append_left _
        inTime := hinv.inTime
        kept := fun j hj => by
          have hkept := hinv.kept j hj
          rw [hqueue] at hkept
          grind }
  case h_2 =>
    exact { hinv with kept := fun i hi => by simpa using hinv.kept i hi }

theorem Inv.step [DecidableEq P] (hinv : Inv c t h) (op : Op P H) : Inv c t (h.step c (t, op)) := by
  have hclean := hinv.cleanup
  cases op with
  | enqueue p hdr =>
    by_cases hfull : (MacQueue.cleanup c t h.state).size = c.maxSize
    · simpa [History.step, MacQueue.enqueue, hfull] using hclean
    · simpa [History.step, MacQueue.enqueue, hfull] using hclean.enqueue p hdr hfull
  | dequeue =>
    cases hqueue : (MacQueue.cleanup c t h.state).queue with
    | nil => simpa [History.step, MacQueue.dequeue, hqueue] using hclean
    | cons i rest =>
      have hmem : i ∈ (MacQueue.cleanup c t h.state).queue := hqueue ▸ List.mem_cons_self
      have halive : t < i.tstamp + c.maxDelay := of_decide_eq_true (List.mem_filter.mp hmem).2
      simpa [History.step, MacQueue.dequeue, hqueue] using hclean.dequeue hqueue halive
  | peek => exact hclean
  | isEmpty => exact hclean
  | flush => exact hinv.flush
  | remove p => exact hinv.remove p

end Step

/-- Whatever is called, and whenever, the queue and the record hang together. -/
theorem run_inv [DecidableEq P] (c : Setting) (es : List (ℕ × Op P H)) (hclock : (es.map Prod.fst).Pairwise (· ≤ ·)) :
    Inv c ((es.map Prod.fst).getLast?.getD 0) (es.foldl (History.step c) {}) := by
  induction es using List.reverseRecOn with
  | nil => exact ⟨rfl, Nat.zero_le _, .refl _, nofun, nofun⟩
  | append_singleton es e ih =>
    rw [List.map_append, List.pairwise_append] at hclock
    rw [List.foldl_append, List.map_append, List.map_singleton, List.getLast?_concat, Option.getD_some]
    refine ((ih hclock.1).mono ?_).step e.2
    cases hlast : (es.map Prod.fst).getLast? with
    | none => exact Nat.zero_le _
    | some last => exact hclock.2.2 last (List.mem_of_getLast? hlast) e.1 (List.mem_singleton.mpr rfl)

theorem run_inv_late :
    Inv { maxDelay := 5 } 7
      ([(0, .enqueue 'a' ()), (4, .enqueue 'b' ()), (7, .dequeue)].foldl (History.step { maxDelay := 5 }) {}) :=
  run_inv _ [(0, .enqueue 'a' ()), (4, .enqueue 'b' ()), (7, .dequeue)] (by decide)

end VanetTdma.Ns3.MacQueue
