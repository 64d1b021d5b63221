import VanetTdma.Ns3.SlotHandler

/-!
# When the ns-3 node starts its data packets (`SendFiDown`, `StartTransmission`, `SendPacketDown`)

With `m_wifimaclow_flag` set, a tick of `slotHandler` in which a working node sends its FI schedules a
`StartTransmission` for the end of the FI.  `StartTransmission` takes a packet off the queue if it fits into
`m_slotRemainTime`, starts it at once and schedules the next `StartTransmission` for its end.  The simulator
keeps time in nanoseconds; `m_slotRemainTime` and the distance to the next packet are whole microseconds.

The pending events are those of the simulator: each has its time and the number of the call that scheduled
it, and the event that runs next is the earliest one, by number among events of one time.  Every tick
schedules the next one before anything else and resets `m_slotRemainTime`.

* `Mac.Chained` — every pending `StartTransmission` lies in the present slot, which is an own one;
* `data_in_own_slot` — so does every data packet, in the runs in which no slot is filled to its last
  microsecond;
* `data_in_foreign_slot` — a slot filled exactly, after which the chain goes on in the slot of another node.
-/

namespace VanetTdma.Ns3.DataSlot

open VanetTdma.GuardedRun

/-! ### The state -/

/-- An event of the simulator: its time in nanoseconds and its number. -/
structure Key where
  time : ℕ
  uid : ℕ
deriving DecidableEq, Repr

/-- The order in which the simulator runs events. -/
def Key.before (a b : Key) : Bool := a.time < b.time ∨ (a.time = b.time ∧ a.uid < b.uid)

/-- The node with the variables of the transmission.  A packet of the queue is given by the time its
transmission takes, in nanoseconds. -/
structure Mac where
  node : Node
  slotRemainTime : ℕ
  lastpktUsedTime : ℕ
  queue : List ℕ
  nextUid : ℕ
  /-- The pending `slotHandler`. -/
  slotEvent : Key
  /-- The pending calls of `StartTransmission`. -/
  startEvents : List Key
  /-- The last tick was that of an own slot in which the node works.  No function reads this; it is kept for
  the statements. -/
  ownSlot : Bool

/-- The node after `Start` at time `now`, with the values that `Start` leaves uninitialised. -/
def begin (cfg : Config) (u : Uninit) (now remain used : ℕ) : Mac where
  node := start cfg u
  slotRemainTime := remain
  lastpktUsedTime := used
  queue := []
  nextUid := 1
  slotEvent := ⟨now + 50, 0⟩
  startEvents := []
  ownSlot := false

/-! ### The functions -/

/-- `Time::GetMicroSeconds`. -/
def microSeconds (ns : ℕ) : ℕ := ns / 1000

/-- `Simulator::Schedule` of `StartTransmission`. -/
def Mac.scheduleStart (m : Mac) (time : ℕ) : Mac :=
  { m with startEvents := m.startEvents ++ [⟨time, m.nextUid⟩], nextUid := m.nextUid + 1 }

/-- The states in which the node sends data. -/
def working (s : Node) : Bool := s.nodeState = .workFi ∨ s.nodeState = .workAdj

/-- `SendFiDown`, for an FI whose transmission takes `txDuration`; `sender` is the node when it is called.
`m_slotRemainTime` has 32 bits. -/
def sendFiDown (m : Mac) (now txDuration : ℕ) (sender : Node) : Mac :=
  let m := { m with
    slotRemainTime := (((m.slotRemainTime : ℤ) - microSeconds txDuration) % 2 ^ 32).toNat }
  if working sender then m.scheduleStart (now + txDuration) else m

/-- `SendPacketDown`: the first packet of the queue is started. -/
def sendPacketDown (m : Mac) (now : ℕ) : Mac :=
  { m with queue := m.queue.tail }.scheduleStart (now + 1000 * m.lastpktUsedTime)

/-- `StartTransmission`. -/
def startTransmission (m : Mac) (now : ℕ) : Mac :=
  match m.queue with
  | [] => m
  | txDuration :: _ =>
    if microSeconds txDuration ≤ m.slotRemainTime then
      sendPacketDown
        { m with
          slotRemainTime := m.slotRemainTime - microSeconds txDuration
          lastpktUsedTime := microSeconds txDuration } now
    else m

/-- `StartTransmission` calls `SendPacketDown`. -/
def sendsData (m : Mac) : Bool :=
  match m.queue with
  | [] => false
  | txDuration :: _ => microSeconds txDuration ≤ m.slotRemainTime

/-- `slotHandler` with the schedule: `fiDuration` is the time that the FI takes, if one is sent. -/
def tick (cfg : Config) (slotTime : ℕ) (m : Mac) (d : Draws) (fiDuration : ℕ) : Option Mac :=
  let now := m.slotEvent.time
  let m := { m with
    slotEvent := ⟨now + 1000 * slotTime, m.nextUid⟩
    nextUid := m.nextUid + 1
    slotRemainTime := slotTime }
  (slotHandler cfg m.node d).map fun (node, out) =>
    match out.sent with
    | none => { m with node := node, ownSlot := false }
    | some sender =>
      sendFiDown { m with node := node, ownSlot := working sender } now fiDuration sender

/-! ### Runs -/

/-- What happens to a node.  The queue is filled and cleaned by others, at any time. -/
inductive Event where
  | setQueue (queue : List ℕ)
  | recv (buffer : ℕ → ℕ)
  | tick (d : Draws) (fiDuration : ℕ)
  | start (k : Key)

/-- No pending event comes before `k`. -/
def Mac.isNext (m : Mac) (k : Key) : Bool :=
  m.slotEvent.before k = false ∧ m.startEvents.all fun k' => k'.before k = false

/-- One event; the two kinds of scheduled events run when they are the next ones. -/
def step (cfg : Config) (slotTime : ℕ) (m : Mac) : Event → Option Mac
  | .setQueue queue => some { m with queue := queue }
  | .recv buffer => some { m with node := recvFi cfg m.node buffer }
  | .tick d fiDuration => if m.isNext m.slotEvent then tick cfg slotTime m d fiDuration else none
  | .start k =>
    if k ∈ m.startEvents ∧ m.isNext k then
      some (startTransmission { m with startEvents := m.startEvents.erase k } k.time)
    else none

/-- The condition on a step: an FI is shorter than the slot, and no packet fills the rest of the slot, both
in whole microseconds. -/
def Unfilled (slotTime : ℕ) (m : Mac) : Event → Prop
  | .tick _ fiDuration => microSeconds fiDuration < slotTime
  | .start _ => ∀ txDuration ∈ m.queue.head?, microSeconds txDuration ≠ m.slotRemainTime
  | _ => True

/-! ### The chain of transmissions stays in its slot -/

section chain

variable {cfg : Config} {slotTime : ℕ} {m m' : Mac} {k : Key}

/-- A pending `StartTransmission` at `k` belongs to the present slot: the slot is an own one, `k` comes after
its tick, and the remaining time is what is left from `k` on, up to the nanoseconds that the FI's duration
has lost. -/
structure Mac.InSlot (m : Mac) (slotTime : ℕ) (k : Key) : Prop where
  own : m.ownSlot = true
  after : m.slotEvent.time ≤ k.time + 1000 * slotTime
  left : 1 ≤ m.slotRemainTime
  fits : k.time + 1000 * m.slotRemainTime < m.slotEvent.time + 1000

theorem Mac.InSlot.lt (h : m.InSlot slotTime k) : k.time < m.slotEvent.time := by
  have := h.left
  have := h.fits
  omega

theorem Mac.InSlot.of_le (h : m.InSlot slotTime k) (hown : m'.ownSlot = m.ownSlot)
    (hslot : m'.slotEvent = m.slotEvent) (hleft : 1 ≤ m'.slotRemainTime)
    (hle : m'.slotRemainTime ≤ m.slotRemainTime) : m'.InSlot slotTime k := by
  refine ⟨hown.trans h.own, hslot ▸ h.after, hleft, ?_⟩
  have := h.fits
  rw [hslot]
  omega

/-- Every pending `StartTransmission` belongs to the present slot. -/
def Mac.Chained (slotTime : ℕ) (m : Mac) : Prop := ∀ k ∈ m.startEvents, m.InSlot slotTime k

theorem Mac.Chained.startEvents_eq_nil (h : m.Chained slotTime) (hnext : m.isNext m.slotEvent = true) :
    m.startEvents = [] := by
  by_contra hne
  obtain ⟨k, hk⟩ := List.exists_mem_of_ne_nil _ hne
  simp only [Mac.isNext, List.all_eq_true, decide_eq_true_eq] at hnext
  have hlt : k.before m.slotEvent = true := by
    simp only [Key.before, decide_eq_true_eq]
    exact .inl (h k hk).lt
  rw [hnext.2 k hk] at hlt
  cases hlt

theorem sendFiDown_chained {now fiDuration : ℕ} {sender : Node} (hS : slotTime < 2 ^ 32)
    (hremain : m.slotRemainTime = slotTime) (hslot : m.slotEvent.time = now + 1000 * slotTime)
    (hown : m.ownSlot = working sender) (hnil : m.startEvents = [])
    (hfi : microSeconds fiDuration < slotTime) :
    (sendFiDown m now fiDuration sender).Chained slotTime := by
  have hlen : (((m.slotRemainTime : ℤ) - microSeconds fiDuration) % 2 ^ 32).toNat
      = slotTime - microSeconds fiDuration := by omega
  unfold sendFiDown
  simp only [hlen]
  split
  · rename_i hwork
    intro k hk
    simp only [Mac.scheduleStart, hnil, List.nil_append, List.mem_singleton] at hk
    subst hk
    refine ⟨hown.trans hwork, ?_, ?_, ?_⟩
    · show m.slotEvent.time ≤ now + fiDuration + 1000 * slotTime
      omega
    · show 1 ≤ slotTime - microSeconds fiDuration
      omega
    · show now + fiDuration + 1000 * (slotTime - microSeconds fiDuration) < m.slotEvent.time + 1000
      unfold microSeconds at hfi ⊢
      omega
  · intro k hk
    change k ∈ m.startEvents at hk
    rw [hnil] at hk
    cases hk

theorem Mac.Chained.tick {d : Draws} {fiDuration : ℕ} (h : m.Chained slotTime) (hS : slotTime < 2 ^ 32)
    (hnext : m.isNext m.slotEvent = true) (hfi : microSeconds fiDuration < slotTime)
    (ht : tick cfg slotTime m d fiDuration = some m') : m'.Chained slotTime := by
  have hnil := h.startEvents_eq_nil hnext
  obtain ⟨⟨node, out⟩, -, rfl⟩ := Option.map_eq_some_iff.mp ht
  simp only
  split
  · intro k hk
    change k ∈ m.startEvents at hk
    rw [hnil] at hk
    cases hk
  · exact sendFiDown_chained hS rfl rfl rfl hnil hfi

/-- The next link of the chain: the time of the packet is taken off what remains and added to the time of
the next call. -/
theorem Mac.Chained.startTransmission (h : m.Chained slotTime) (hk : k ∈ m.startEvents)
    (hfill : ∀ txDuration ∈ m.queue.head?, microSeconds txDuration ≠ m.slotRemainTime) :
    (startTransmission { m with startEvents := m.startEvents.erase k } k.time).Chained slotTime := by
  have hleft := (h k hk).left
  unfold DataSlot.startTransmission
  simp only
  split
  · intro k' hk'
    exact (h k' (List.mem_of_mem_erase hk')).of_le rfl rfl hleft (Nat.le_refl _)
  · rename_i txDuration rest hqueue
    have hne : microSeconds txDuration ≠ m.slotRemainTime := hfill txDuration (by rw [hqueue]; rfl)
    split
    · rename_i hfits
      have hin := h k hk
      have hafter := hin.after
      have hrem := hin.fits
      intro k' hk'
      simp only [sendPacketDown, Mac.scheduleStart, List.mem_append, List.mem_singleton] at hk'
      rcases hk' with hk' | rfl
      · refine (h k' (List.mem_of_mem_erase hk')).of_le rfl rfl ?_ (Nat.sub_le ..)
        show 1 ≤ m.slotRemainTime - microSeconds txDuration
        omega
      · refine ⟨hin.own, ?_, ?_, ?_⟩
        · show m.slotEvent.time ≤ k.time + 1000 * microSeconds txDuration + 1000 * slotTime
          omega
        · show 1 ≤ m.slotRemainTime - microSeconds txDuration
          omega
        · show k.time + 1000 * microSeconds txDuration + 1000 * (m.slotRemainTime - microSeconds txDuration)
            < m.slotEvent.time + 1000
          omega
    · intro k' hk'
      exact (h k' (List.mem_of_mem_erase hk')).of_le rfl rfl hleft (Nat.le_refl _)

/-- **One step keeps the pending transmissions in the own slot.** -/
theorem Mac.Chained.step (h : m.Chained slotTime) (hS : slotTime < 2 ^ 32) {ev : Event}
    (hfill : Unfilled slotTime m ev) (ht : step cfg slotTime m ev = some m') : m'.Chained slotTime := by
  cases ev with
  | setQueue queue =>
    cases ht
    exact fun k hk => ⟨(h k hk).own, (h k hk).after, (h k hk).left, (h k hk).fits⟩
  | recv buffer =>
    cases ht
    exact fun k hk => ⟨(h k hk).own, (h k hk).after, (h k hk).left, (h k hk).fits⟩
  | tick d fiDuration =>
    simp only [DataSlot.step] at ht
    split at ht
    · exact h.tick hS ‹_› hfill ht
    · cases ht
  | start k =>
    simp only [DataSlot.step] at ht
    split at ht
    · rename_i hk
      cases ht
      exact h.startTransmission hk.1 hfill
    · cases ht

end chain

/-- **Data only in the own slot**: in every run whose steps never fill a slot to its last microsecond, every
`StartTransmission`, the only caller of `SendPacketDown`, runs after the tick of an own slot in which the
node works, and before the next tick. -/
theorem data_in_own_slot (cfg : Config) (u : Uninit) (slotTime now remain used : ℕ) (m : Mac) (k : Key)
    (hS : slotTime < 2 ^ 32)
    (hrun : Reach (step cfg slotTime) (Unfilled slotTime) (begin cfg u now remain used) m)
    (hstart : (step cfg slotTime m (.start k)).isSome = true) :
    m.ownSlot = true ∧ m.slotEvent.time ≤ k.time + 1000 * slotTime ∧ k.time < m.slotEvent.time := by
  have hfirst : (begin cfg u now remain used).Chained slotTime := fun k hk => by cases hk
  have hchain : m.Chained slotTime := by
    refine Reach.invariant hrun hfirst ?_
    intro m ev m' hinv hfill ht
    exact hinv.step hS hfill ht
  have hk : k ∈ m.startEvents := by
    by_contra hnot
    simp [step, hnot] at hstart
  have hin := hchain k hk
  exact ⟨hin.own, hin.after, hin.lt⟩

/-! ### A node at work in slots of 1000 microseconds -/

/-- The ticks until the node of `pairCfg` works in its slot, with an FI of 200.5 microseconds; then two
packets come into its queue. -/
def atWork (first : ℕ) : List Event :=
  List.replicate 5 (.tick { bch := 1 } 200500) ++ [.setQueue [first, 300000]]

/-- A tick with an FI shorter than 1000 microseconds, or no scheduled event. -/
def shortFi : Event → Bool
  | .tick _ fiDuration => microSeconds fiDuration < 1000
  | .start _ => false
  | _ => true

/-- A packet of 500 microseconds after the FI. -/
theorem data_in_own_slot_first :
    ∃ m, Reach (step pairCfg 1000) (Unfilled 1000) (begin pairCfg ⟨0, 0, false, 0⟩ 0 0 0) m ∧
      (step pairCfg 1000 m (.start ⟨4200550, 6⟩)).isSome = true ∧ sendsData m = true ∧
      m.ownSlot = true ∧ m.slotEvent.time ≤ 4200550 + 1000 * 1000 ∧ 4200550 < m.slotEvent.time := by
  have hobs : (runList (step pairCfg 1000) (fun _ => shortFi)
      (begin pairCfg ⟨0, 0, false, 0⟩ 0 0 0) (atWork 500000)).map
      (fun m => ((step pairCfg 1000 m (.start ⟨4200550, 6⟩)).isSome, sendsData m)) = some (true, true) := by
    decide +kernel
  obtain ⟨m, hm, hlast⟩ := Option.map_eq_some_iff.mp hobs
  simp only [Prod.mk.injEq] at hlast
  have hrun : Reach (step pairCfg 1000) (Unfilled 1000) (begin pairCfg ⟨0, 0, false, 0⟩ 0 0 0) m := by
    refine reach_of_runList (fun s ev hev => ?_) hm
    cases ev with
    | setQueue queue => trivial
    | recv buffer => trivial
    | tick d fiDuration =>
      show microSeconds fiDuration < 1000
      simpa [shortFi] using hev
    | start k => cases hev
  exact ⟨m, hrun, hlast.1, hlast.2,
    data_in_own_slot pairCfg _ 1000 0 0 0 m ⟨4200550, 6⟩ (by decide) hrun hlast.1⟩

/-- A packet of 800 microseconds fills the slot: `StartTransmission` runs again 500 nanoseconds after the
tick of the other node's slot, finds the remaining time reset, and starts the second packet there. -/
theorem data_in_foreign_slot :
    ∃ m k, Reach (step pairCfg 1000) (fun _ _ => True) (begin pairCfg ⟨0, 0, false, 0⟩ 0 0 0) m ∧
      (step pairCfg 1000 m (.start k)).isSome = true ∧ sendsData m = true ∧ m.ownSlot = false := by
  have hobs : (runList (step pairCfg 1000) (fun _ _ => true) (begin pairCfg ⟨0, 0, false, 0⟩ 0 0 0)
      (atWork 800000 ++ [.start ⟨4200550, 6⟩, .tick {} 0])).map
      (fun m => ((step pairCfg 1000 m (.start ⟨5000550, 7⟩)).isSome, sendsData m, m.ownSlot))
      = some (true, true, false) := by decide +kernel
  obtain ⟨m, hm, hlast⟩ := Option.map_eq_some_iff.mp hobs
  simp only [Prod.mk.injEq] at hlast
  exact ⟨m, ⟨5000550, 7⟩, reach_of_runList (fun _ _ _ => trivial) hm, hlast⟩

end VanetTdma.Ns3.DataSlot
