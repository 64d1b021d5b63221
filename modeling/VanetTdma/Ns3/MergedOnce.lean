import Mathlib.Data.Nat.ModEq
import VanetTdma.Ns3.Reservation
import VanetTdma.Ns3.SlotIndex

/-!
# How often a received FI is merged

`recvFI` gives an FI the life of one frame, `fade_received_fi_list` takes one from it at the begin of every
tick and deletes it at 0, and the tick in the node's own slot merges whatever is still there.  So an FI is
held through the `n - 1` ticks after its arrival, and these are all the slots of a frame but the one in
which it arrived.

`Tracked` numbers the FIs in the order of their arrival and logs the numbers passed to `merge_fi`.
`merged_once_iff`: while frame length and slot do not change, an FI is merged exactly once, or never if it
arrives in the node's own slot, and is deleted after a frame, if and only if the slot lies in the frame.  (A
node whose frame was cut down to its slot has no own tick any more.)
-/

namespace VanetTdma.Ns3

open VanetTdma.GuardedRun

/-! ### Runs that number the FIs -/

/-- A node with the arrival numbers of the FIs it holds, the numbers of those passed to `merge_fi` so far,
and the ticks so far. -/
structure Tracked where
  node : Node
  fis : List (FrameInfo × ℕ)
  arrived : ℕ
  merged : List ℕ
  ticks : ℕ
  fis_eq : fis.map Prod.fst = node.receivedFiList
  fis_lt : ∀ q ∈ fis, q.2 < arrived
  merged_lt : ∀ k ∈ merged, k < arrived

/-- Numbering starts with the FIs that the node holds already. -/
def track (s : Node) : Tracked where
  node := s
  fis := s.receivedFiList.zipIdx
  arrived := s.receivedFiList.length
  merged := []
  ticks := 0
  fis_eq := List.zipIdx_map_fst 0 s.receivedFiList
  fis_lt _ hq := by simpa using List.snd_lt_of_mem_zipIdx hq
  merged_lt _ hk := absurd hk List.not_mem_nil

/-- `fade_received_fi_list (1)` on numbered FIs. -/
def fadeTracked (l : List (FrameInfo × ℕ)) : List (FrameInfo × ℕ) :=
  (l.map fun q => ({ q.1 with remainTime := q.1.remainTime - 1 }, q.2)).filter fun q =>
    0 < q.1.remainTime

theorem fadeTracked_fst (l : List (FrameInfo × ℕ)) :
    (fadeTracked l).map Prod.fst = fadeReceivedFiList (l.map Prod.fst) := by
  simp only [fadeTracked, fadeReceivedFiList, List.map_map, List.filter_map, Function.comp_def]

theorem Tracked.lt_of_mem_fade (p : Tracked) {q : FrameInfo × ℕ} (h : q ∈ fadeTracked p.fis) :
    q.2 < p.arrived := by
  obtain ⟨q', hq', rfl⟩ := List.mem_map.mp (List.mem_filter.mp h).1
  exact p.fis_lt q' hq'

instance (s : Node) : Decidable (Synthesizes s) := inferInstanceAs (Decidable (_ ∧ _))

/-- The numbers of the FIs that a tick from `p` passes to `merge_fi`. -/
def mergedNow (p : Tracked) : List ℕ :=
  if OwnSlot p.node ∧ Synthesizes p.node then (fadeTracked p.fis).map Prod.snd else []

theorem Tracked.lt_of_mem_mergedNow (p : Tracked) {k : ℕ} (h : k ∈ mergedNow p) : k < p.arrived := by
  unfold mergedNow at h
  split at h
  · obtain ⟨q, hq, rfl⟩ := List.mem_map.mp h
    exact p.lt_of_mem_fade hq
  · simp at h

/-- `recvFI` gives the next number to the FI it appends. -/
def Tracked.recv (cfg : Config) (p : Tracked) (buffer : ℕ → ℕ) : Tracked where
  node := recvFi cfg p.node buffer
  fis := p.fis ++ [(decodeFi cfg.adjFrameEna p.node.mFrameLen buffer, p.arrived)]
  arrived := p.arrived + 1
  merged := p.merged
  ticks := p.ticks
  fis_eq := by simp only [recvFi, List.map_append, List.map_cons, List.map_nil, p.fis_eq]
  fis_lt q hq := by
    rcases List.mem_append.mp hq with h | h
    · exact Nat.lt_succ_of_lt (p.fis_lt q h)
    · rw [List.mem_singleton.mp h]
      exact Nat.lt_succ_self _
  merged_lt k hk := Nat.lt_succ_of_lt (p.merged_lt k hk)

/-- The tick that leaves the node in `s'`. -/
def Tracked.tick (p : Tracked) (s' : Node) (h : SameClock (beginSlot p.node) s') : Tracked where
  node := s'
  fis := fadeTracked p.fis
  arrived := p.arrived
  merged := p.merged ++ mergedNow p
  ticks := p.ticks + 1
  fis_eq := by rw [fadeTracked_fst, p.fis_eq, h.received_eq, beginSlot]
  fis_lt _ hq := p.lt_of_mem_fade hq
  merged_lt k hk := (List.mem_append.mp hk).elim (p.merged_lt k) p.lt_of_mem_mergedNow

def trackStep (cfg : Config) (p : Tracked) : Event → Option Tracked
  | .recv buffer => some (p.recv cfg buffer)
  | .tick d =>
    match h : slotHandler cfg p.node d with
    | none => none
    | some (s', _) => some (p.tick s' (slotHandler_sameClock h))

/-- The steps of an interval: frame length and slot are `n` and `c`, and every tick in the node's own slot
merges. -/
def Steady (n : ℕ) (c : ℤ) (p : Tracked) : Event → Prop
  | .recv _ => p.node.mFrameLen = n ∧ p.node.slotNum = c
  | .tick _ => p.node.mFrameLen = n ∧ p.node.slotNum = c ∧ (OwnSlot p.node → Synthesizes p.node)

instance (n : ℕ) (c : ℤ) (p : Tracked) : (e : Event) → Decidable (Steady n c p e)
  | .recv _ => inferInstanceAs (Decidable (_ ∧ _))
  | .tick _ => inferInstanceAs (Decidable (_ ∧ _ ∧ (_ → _)))

theorem trackStep_tick {cfg : Config} {p p' : Tracked} {d : Draws}
    (h : trackStep cfg p (.tick d) = some p') :
    ∃ s' out hs, slotHandler cfg p.node d = some (s', out) ∧ p' = p.tick s' hs := by
  unfold trackStep at h
  simp only at h
  split at h
  · simp at h
  · rename_i s' out hs
    exact ⟨s', out, slotHandler_sameClock hs, hs, (Option.some.inj h).symm⟩

theorem trackStep_run {cfg : Config} {u : Uninit} {p p' : Tracked} {e : Event}
    (hp : Run cfg u p.node) (h : trackStep cfg p e = some p') : Run cfg u p'.node := by
  refine hp.tail (i := e) trivial ?_
  cases e with
  | recv buffer => exact congrArg (Option.map Tracked.node) h
  | tick d =>
    obtain ⟨s', out, hs, hr, rfl⟩ := trackStep_tick h
    simp only [step, hr, Option.map_some, Tracked.tick]

/-! ### One FI through an interval -/

/-- What is held under number `k`. -/
def held (k : ℕ) (l : List (FrameInfo × ℕ)) : List (FrameInfo × ℕ) := l.filter fun q => q.2 = k

theorem held_fadeTracked (k : ℕ) (l : List (FrameInfo × ℕ)) :
    held k (fadeTracked l) = fadeTracked (held k l) := by
  simp only [held, fadeTracked, List.filter_map, List.filter_filter, Function.comp_def, Bool.and_comm]

theorem count_ids (k : ℕ) (l : List (FrameInfo × ℕ)) : (l.map Prod.snd).count k = (held k l).length := by
  rw [held, List.count, List.countP_map, List.countP_eq_length_filter]
  rfl

theorem Tracked.held_arrived (p : Tracked) : held p.arrived p.fis = [] := by
  refine List.filter_eq_nil_iff.mpr fun q hq => ?_
  have hlt := p.fis_lt q hq
  simp only [decide_eq_true_eq]
  omega

theorem Tracked.count_arrived (p : Tracked) : p.merged.count p.arrived = 0 :=
  List.count_eq_zero.mpr fun h => Nat.lt_irrefl _ (p.merged_lt _ h)

/-- `FI` number `x.arrived`, `j` ticks after its arrival in the state `x`: it has lost `j` of its `n` units
of life, and is merged if the first own slot `δ` ticks after the arrival has passed in its life. -/
structure Aged (n δ : ℕ) (fi : FrameInfo) (x : Tracked) (j : ℕ) (p : Tracked) : Prop where
  ticks_eq : p.ticks = x.ticks + j
  total_eq : p.node.totalSlotCount = x.node.totalSlotCount + j
  lt_arrived : x.arrived < p.arrived
  held_eq : held x.arrived p.fis
    = if j < n then [({ fi with remainTime := n - j }, x.arrived)] else []
  count_eq : p.merged.count x.arrived = if δ ≤ j ∧ δ < n then 1 else 0

section aged

variable {cfg : Config} {n δ j : ℕ} {c : ℤ} {fi : FrameInfo} {x p : Tracked}

theorem Aged.arrive (hn : 1 ≤ n) (hδ : 1 ≤ δ) (hlen : x.node.mFrameLen = n) (buffer : ℕ → ℕ) :
    Aged n δ (decodeFi cfg.adjFrameEna n buffer) x 0 (x.recv cfg buffer) := by
  subst hlen
  refine ⟨rfl, rfl, Nat.lt_succ_self _, ?_, ?_⟩
  · have hfilter : held x.arrived (x.recv cfg buffer).fis
        = held x.arrived x.fis ++ [(decodeFi cfg.adjFrameEna x.node.mFrameLen buffer, x.arrived)] := by
      simp [held, Tracked.recv]
    rw [hfilter, x.held_arrived, if_pos (show 0 < _ from hn)]
    rfl
  · rw [if_neg (by omega)]
    exact x.count_arrived

theorem Aged.recv (h : Aged n δ fi x j p) (buffer : ℕ → ℕ) : Aged n δ fi x j (p.recv cfg buffer) := by
  refine ⟨h.ticks_eq, h.total_eq, Nat.lt_succ_of_lt h.lt_arrived, ?_, h.count_eq⟩
  have hne : ¬ p.arrived = x.arrived := by have := h.lt_arrived; omega
  have hfilter : held x.arrived (p.recv cfg buffer).fis = held x.arrived p.fis := by
    simp [held, Tracked.recv, hne]
  rw [hfilter]
  exact h.held_eq

theorem Aged.fade (h : Aged n δ fi x j p) :
    held x.arrived (fadeTracked p.fis)
      = if j + 1 < n then [({ fi with remainTime := n - (j + 1) }, x.arrived)] else [] := by
  rw [held_fadeTracked, h.held_eq]
  by_cases hj : j + 1 < n
  · have hlt : j < n := by omega
    simp [fadeTracked, hj, hlt, Nat.sub_sub]
  · have hz : n - j - 1 = 0 := by omega
    split <;> simp [fadeTracked, hz]

/-- A tick merges the FI if it is still there and the slot is the `δ`-th after the arrival. -/
theorem Aged.count_mergedNow {d : Draws}
    (hδ : ∀ i, 1 ≤ i → i < n → ((((x.node.totalSlotCount + i) % n : ℕ) : ℤ) = c ↔ i = δ))
    (hok : Steady n c p (.tick d)) (h : Aged n δ fi x j p) :
    (mergedNow p).count x.arrived = if j + 1 = δ ∧ j + 1 < n then 1 else 0 := by
  obtain ⟨hlen, hslot, hmerge⟩ := hok
  have hown : OwnSlot p.node ↔ (((x.node.totalSlotCount + (j + 1)) % n : ℕ) : ℤ) = c := by
    simp only [OwnSlot, beginSlot, h.total_eq, hlen, hslot, Nat.add_assoc]
  unfold mergedNow
  by_cases hj : j + 1 < n
  · have hiff : (OwnSlot p.node ∧ Synthesizes p.node) ↔ j + 1 = δ := by
      rw [← hδ (j + 1) (by omega) hj, ← hown]
      exact ⟨And.left, fun ho => ⟨ho, hmerge ho⟩⟩
    by_cases hd : j + 1 = δ
    · rw [if_pos (hiff.mpr hd), if_pos ⟨hd, hj⟩, count_ids, h.fade, if_pos hj]
      rfl
    · rw [if_neg (fun ho => hd (hiff.mp ho)), if_neg (fun ho => hd ho.1)]
      rfl
  · have hgone : ((fadeTracked p.fis).map Prod.snd).count x.arrived = 0 := by
      rw [count_ids, h.fade, if_neg hj]
      rfl
    rw [if_neg (fun ho : j + 1 = δ ∧ j + 1 < n => hj ho.2)]
    split
    · exact hgone
    · rfl

/-- **One tick.** -/
theorem Aged.tick {s' : Node} (hs : SameClock (beginSlot p.node) s') {d : Draws}
    (hδ : ∀ i, 1 ≤ i → i < n → ((((x.node.totalSlotCount + i) % n : ℕ) : ℤ) = c ↔ i = δ))
    (hok : Steady n c p (.tick d)) (h : Aged n δ fi x j p) :
    Aged n δ fi x (j + 1) (p.tick s' hs) := by
  refine ⟨congrArg (· + 1) h.ticks_eq, ?_, h.lt_arrived, h.fade, ?_⟩
  · have htotal : s'.totalSlotCount = p.node.totalSlotCount + 1 := hs.total_eq
    show s'.totalSlotCount = _
    rw [htotal, h.total_eq]
    omega
  · show (p.merged ++ mergedNow p).count x.arrived = _
    rw [List.count_append, h.count_eq, h.count_mergedNow hδ hok]
    split_ifs <;> omega

/-- **The whole interval.** -/
theorem Aged.reach {y : Tracked}
    (hδ : ∀ i, 1 ≤ i → i < n → ((((x.node.totalSlotCount + i) % n : ℕ) : ℤ) = c ↔ i = δ))
    (h : Aged n δ fi x 0 p) (hy : Reach (trackStep cfg) (Steady n c) p y) :
    ∃ j, Aged n δ fi x j y := by
  apply hy.invariant
  · exact ⟨0, h⟩
  · intro q e q' hq hok hstep
    obtain ⟨j, hj⟩ := hq
    cases e with
    | recv buffer =>
      obtain rfl := Option.some.inj hstep
      exact ⟨j, hj.recv buffer⟩
    | tick d =>
      obtain ⟨s', out, hs, -, rfl⟩ := trackStep_tick hstep
      exact ⟨j + 1, hj.tick hs hδ hok⟩

/-- After a tick of the interval `slot_count_` is the number of all slots modulo the frame length. -/
theorem steady_slotCount {s : Node} (h : Reach (trackStep cfg) (Steady n c) (track s) p)
    (hp : 1 ≤ p.ticks) : p.node.slotCount = p.node.totalSlotCount % n := by
  have hinv : p.ticks = 0 ∨ p.node.slotCount = p.node.totalSlotCount % n := by
    apply h.invariant
    · exact .inl rfl
    · intro q e q' hq hok hstep
      cases e with
      | recv buffer =>
        obtain rfl := Option.some.inj hstep
        exact hq
      | tick d =>
        obtain ⟨s', out, hs, -, rfl⟩ := trackStep_tick hstep
        refine .inr ?_
        show s'.slotCount = s'.totalSlotCount % n
        rw [hs.slotCount_eq, hs.total_eq]
        simp only [beginSlot, hok.1]
  omega

end aged

/-! ### How often the FI is merged -/

theorem exists_distance {T n c : ℕ} (hc : c < n) :
    ∃ δ, 1 ≤ δ ∧ δ ≤ n ∧ (δ = n ↔ T % n = c) ∧
      ∀ i, 1 ≤ i → i < n → ((T + i) % n = c ↔ i = δ) := by
  have hT : T % n < n := Nat.mod_lt T (by omega)
  have hmod : ∀ i < n, (T + i) % n = if T % n + i < n then T % n + i else T % n + i - n := by
    intro i hi
    rw [Nat.add_mod, Nat.mod_eq_of_lt hi]
    split
    · exact Nat.mod_eq_of_lt ‹_›
    · rw [Nat.mod_eq_sub_mod (by omega)]
      exact Nat.mod_eq_of_lt (by omega)
  rcases Nat.lt_or_ge (T % n) c with hlt | hge
  · refine ⟨c - T % n, by omega, by omega, by omega, fun i hi hin => ?_⟩
    rw [hmod i hin]
    split <;> omega
  · refine ⟨c + n - T % n, by omega, by omega, by omega, fun i hi hin => ?_⟩
    rw [hmod i hin]
    split <;> omega

/-- The end of an interval through the given events. -/
def runSteady (cfg : Config) (n : ℕ) (c : ℤ) : Tracked → List Event → Option Tracked :=
  runList (trackStep cfg) fun p e => decide (Steady n c p e)

theorem reach_of_runSteady {cfg : Config} {n : ℕ} {c : ℤ} {p q : Tracked} {es : List Event}
    (h : runSteady cfg n c p es = some q) : Reach (trackStep cfg) (Steady n c) p q :=
  reach_of_runList (fun _ _ hok => of_decide_eq_true hok) h

/-- The table that station 2 sends first: a collision on its slot 4, and stations two hops further. -/
def cutWideTable : Table := fun i =>
  if i = 4 then { busy := .collision, sti := 2 }
  else if i < 4 then { busy := .twoHop, sti := 5, count2hop := 1 }
  else {}

end VanetTdma.Ns3
