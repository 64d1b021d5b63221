import VanetTdma.Ns3.TableRange

/-!
# A network of nodes and their frame lengths

The nodes tick one by one, in any order, and every packet that was ever sent stays on the air: it may be
delivered to any node, at any later time, any number of times, or never.  So a run of `Net` covers loss,
delay, duplication and reordering.

`run_frameLens` says that with common power-of-two bounds every node's frame length, and the length that
any packet decodes to, is a power of two between the bounds.  A node doubles or halves its frame, or takes
over the length of an FI it has received; the FI in turn carries the length of its sender.
-/

namespace VanetTdma.Ns3

open VanetTdma.GuardedRun

/-! ### Frame lengths of one node -/

/-- A power of two between the bounds. -/
def LenOk (lower upper m : ℕ) : Prop := lower ≤ m ∧ m ≤ upper ∧ ∃ k, m = 2 ^ k

/-- The attributes for the frame length, as all nodes share them. -/
structure SharedLen (lower upper initial : ℕ) (cfg : Config) : Prop where
  ena : cfg.adjFrameEna = true
  lower_eq : cfg.adjFrameLowerBound = lower
  upper_eq : cfg.adjFrameUpperBound = upper
  initial_eq : cfg.frameLen = initial

/-- The bounds and the initial length of the network. -/
structure Bounds (lower upper initial : ℕ) : Prop where
  lower_pow : ∃ k, lower = 2 ^ k
  upper_pow : ∃ k, upper = 2 ^ k
  initial_ok : LenOk lower upper initial
  upper_le : upper ≤ 128

theorem two_pow_mul_two_le {j k : ℕ} (h : 2 ^ j < 2 ^ k) : 2 ^ j * 2 ≤ 2 ^ k := by
  have hjk : j < k := (Nat.pow_lt_pow_iff_right (by omega)).mp h
  rw [← Nat.pow_succ]
  exact Nat.pow_le_pow_right (by omega) hjk

section one

variable {lower upper initial : ℕ} {cfg : Config} {s : Node}

/-- `adjFrameLen` moves by one power of two, and not past a bound. -/
theorem lenOk_adjustedLen (hb : Bounds lower upper initial) (hc : SharedLen lower upper initial cfg)
    (h : LenOk lower upper s.mFrameLen) : LenOk lower upper (adjustedLen cfg s) := by
  obtain ⟨hlo, hup, k, hk⟩ := h
  obtain ⟨a, ha⟩ := hb.lower_pow
  obtain ⟨b, hb⟩ := hb.upper_pow
  unfold adjustedLen
  split
  · rename_i hexp
    have hlt : s.mFrameLen < upper := hc.upper_eq ▸ hexp.2
    refine ⟨by omega, ?_, k + 1, by rw [hk, Nat.pow_succ]⟩
    rw [hk, hb] at hlt ⊢
    exact two_pow_mul_two_le hlt
  · split
    · rename_i hcut
      have hlt : lower < s.mFrameLen := hc.lower_eq ▸ hcut.2.2
      -- a power of two above the lower bound has a half, and the half is not below it
      have hle : lower * 2 ≤ s.mFrameLen := by
        rw [hk, ha] at hlt ⊢
        exact two_pow_mul_two_le hlt
      have hpos : 0 < lower := by
        rw [ha]
        exact Nat.two_pow_pos a
      obtain ⟨j, rfl⟩ : ∃ j, k = j + 1 := by
        cases k with
        | zero =>
          rw [hk] at hle
          omega
        | succ j => exact ⟨j, rfl⟩
      refine ⟨by omega, by omega, j, ?_⟩
      rw [hk, Nat.pow_succ]
      omega
    · exact ⟨hlo, hup, k, hk⟩

theorem lenOk_adjFrameLen (hb : Bounds lower upper initial) (hc : SharedLen lower upper initial cfg)
    (h : LenOk lower upper s.mFrameLen) : LenOk lower upper (adjFrameLen cfg s).mFrameLen := by
  unfold adjFrameLen
  split
  · exact h
  · exact lenOk_adjustedLen hb hc h

theorem foldl_mergeFi_mFrameLen {P : ℕ → Prop} (l : List FrameInfo) (h : P s.mFrameLen)
    (hl : ∀ fi ∈ l, P fi.frameLen) : P (l.foldl (mergeFi cfg) s).mFrameLen := by
  induction l generalizing s with
  | nil => exact h
  | cons fi l ih =>
    refine ih ?_ fun f hf => hl f (List.mem_cons_of_mem _ hf)
    rcases @mergeFi_mFrameLen_cases cfg s fi with heq | heq
    · rw [heq]
      exact h
    · rw [heq]
      exact hl fi (List.mem_cons_self ..)

theorem synthesizeFiList_mFrameLen {P : ℕ → Prop} (h : P s.mFrameLen)
    (hl : ∀ fi ∈ s.receivedFiList, P fi.frameLen) : P (synthesizeFiList cfg s).mFrameLen := by
  obtain ⟨t, ht⟩ := @ageFrame_eq cfg s
  have hmerged : P (mergeList cfg (ageFrame cfg s)).mFrameLen := by
    rw [mergeList, ht]
    exact foldl_mergeFi_mFrameLen _ h hl
  unfold synthesizeFiList
  simp only
  split
  · exact hmerged
  · exact hmerged

/-- The frame length of a node and the lengths of the FIs it holds. -/
structure LensOk (lower upper : ℕ) (s : Node) : Prop where
  own : LenOk lower upper s.mFrameLen
  received : ∀ fi ∈ s.receivedFiList, LenOk lower upper fi.frameLen

theorem LensOk.refresh (h : LensOk lower upper s) : LenOk lower upper (refresh cfg s).mFrameLen := by
  unfold VanetTdma.Ns3.refresh
  split
  · exact synthesizeFiList_mFrameLen h.own h.received
  · exact synthesizeFiList_mFrameLen (s := clearOthersSlotStatus cfg s) h.own h.received

theorem LensOk.listenTable (h : LensOk lower upper s) :
    LenOk lower upper (listenTable cfg s).mFrameLen :=
  synthesizeFiList_mFrameLen (s := { s with collectedFi := Table.blank }) h.own h.received

theorem takeCandidate_mFrameLen (c : ℤ) : (takeCandidate cfg s c).mFrameLen = s.mFrameLen := by
  unfold takeCandidate
  split
  · rfl
  · split <;> rfl

theorem lenOk_adjust {d : Draws} {x : Node} {cs : List ℤ} (hb : Bounds lower upper initial)
    (hc : SharedLen lower upper initial cfg) (h : LenOk lower upper s.mFrameLen)
    (hx : adjust cfg s d = some (x, cs)) : LenOk lower upper x.mFrameLen := by
  rcases adjust_cases hx with ⟨-, c, -, rfl, -⟩ | ⟨-, rfl, -⟩
  · rw [takeCandidate_mFrameLen]
    exact h
  · exact lenOk_adjFrameLen hb hc h

theorem hop_mFrameLen {d : Draws} {s' : Node} {cs : List ℤ} (hx : hop cfg s d = some (s', cs)) :
    s'.mFrameLen = s.mFrameLen := by
  rcases hop_cases hx with ⟨-, c, -, rfl, -⟩ | ⟨-, ⟨k, rfl⟩, -⟩
  · rfl
  · rfl

theorem Losing.lenOk {x : Node} (h : LensOk lower upper s) (hx : Losing cfg s x) :
    LenOk lower upper x.mFrameLen := by
  cases hx with
  | bch _ _ => exact h.refresh
  | both _ _ _ => exact h.refresh

/-- **The frame length over a tick**: of the node, and of the packet it sends. -/
theorem lenOk_ownTick {d : Draws} {s' : Node} {out : TickOut} (hb : Bounds lower upper initial)
    (hc : SharedLen lower upper initial cfg) (h : LensOk lower upper s)
    (ht : OwnTick cfg s d s' out) :
    LenOk lower upper s'.mFrameLen ∧ ∀ x, out.sent = some x → LenOk lower upper x.mFrameLen := by
  have hlisten : LenOk lower upper (listenTable cfg s).mFrameLen := h.listenTable
  have hrefresh : LenOk lower upper (VanetTdma.Ns3.refresh cfg s).mFrameLen := h.refresh
  cases ht with
  | begin _ => exact ⟨h.own, fun x hx => by simp at hx⟩
  | wait _ _ => exact ⟨h.own, fun x hx => by simp at hx⟩
  | listenFull _ _ _ _ => exact ⟨hlisten, fun x hx => by simp at hx⟩
  | listenNow _ _ _ _ hx =>
    subst hx
    refine ⟨hlisten, ?_⟩
    rintro x ⟨⟩
    exact hlisten
  | listenLater _ _ _ _ => exact ⟨hlisten, fun x hx => by simp at hx⟩
  | request _ _ hx =>
    subst hx
    refine ⟨hrefresh, ?_⟩
    rintro x ⟨⟩
    exact hrefresh
  | work _ _ hx =>
    subst hx
    refine ⟨hrefresh, ?_⟩
    rintro x ⟨⟩
    exact hrefresh
  | lostFull hx _ =>
    have hlen := hx.lenOk h
    exact ⟨hlen, fun x hx => by simp at hx⟩
  | lostLater hx _ _ =>
    have hlen := hx.lenOk h
    exact ⟨hlen, fun x hx => by simp at hx⟩
  | worked _ _ hadjust hhop =>
    have hx := lenOk_adjust hb hc hrefresh hadjust
    refine ⟨?_, ?_⟩
    · rw [hop_mFrameLen hhop]
      exact hx
    · rintro y ⟨⟩
      exact hx
  | adjDecided _ _ =>
    refine ⟨?_, ?_⟩
    · rw [sendFi_mFrameLen, adjDecide_mFrameLen]
      exact hrefresh
    · rintro y ⟨⟩
      rw [adjDecide_mFrameLen]
      exact hrefresh
  | adjMoved _ _ _ => exact ⟨hrefresh, fun x hx => by simp at hx⟩

end one

/-! ### The network -/

/-- The nodes, and every packet sent so far. -/
structure Net (ι : Type*) where
  node : ι → Node
  air : List (ℕ → ℕ)

/-- A node ticks, or a packet that was sent at some time reaches a node. -/
inductive NetEvent (ι : Type*) where
  | tick (i : ι) (d : Draws)
  | deliver (i : ι) (n : ℕ)

/-- The packet that `generate_send_FI_packet` builds on the node `x`. -/
def packet (cfg : Config) (x : Node) : ℕ → ℕ := (fiHeader x.mFrameLen cfg.globalSti x.collectedFi).buffer

variable {ι : Type*} [DecidableEq ι]

def netStep (cfg : ι → Config) (w : Net ι) : NetEvent ι → Option (Net ι)
  | .tick i d => (slotHandler (cfg i) (w.node i) d).map fun r =>
    { node := Function.update w.node i r.1
      air := w.air ++ r.2.sent.toList.map (packet (cfg i)) }
  | .deliver i n => w.air[n]?.map fun buffer =>
    { w with node := Function.update w.node i (recvFi (cfg i) (w.node i) buffer) }

/-- The runs of the network from `Start` on every node. -/
def NetRun (cfg : ι → Config) (u : ι → Uninit) : Net ι → Prop :=
  Reach (netStep cfg) (fun _ _ => True) ⟨fun i => start (cfg i) (u i), []⟩

/-- The lengths on the nodes and on the air. -/
structure NetLens (lower upper : ℕ) (w : Net ι) : Prop where
  node : ∀ i, LensOk lower upper (w.node i)
  air : ∀ buffer ∈ w.air, LenOk lower upper (2 ^ BitStream.fieldAt buffer 9 4)

section network

variable {lower upper initial : ℕ} {cfg : ι → Config} {w : Net ι}

theorem fieldAt_packet {c : Config} {x : Node} (hb : Bounds lower upper initial)
    (h : LenOk lower upper x.mFrameLen) :
    2 ^ BitStream.fieldAt (packet c x) 9 4 = x.mFrameLen := by
  obtain ⟨-, hup, k, hk⟩ := h
  have hlt : k < 2 ^ 4 := by
    have hpow : 2 ^ k < 2 ^ 8 := by
      rw [← hk]
      exact Nat.lt_of_le_of_lt (Nat.le_trans hup hb.upper_le) (by decide)
    have := (Nat.pow_lt_pow_iff_right (show 1 < 2 by omega)).mp hpow
    omega
  rw [packet, fiHeader_frameLen, hk, Nat.log2_two_pow, Nat.mod_eq_of_lt hlt]

theorem LensOk.beginSlot {s : Node} (h : LensOk lower upper s) : LensOk lower upper (beginSlot s) := by
  refine ⟨h.own, fun fi hfi => ?_⟩
  obtain ⟨fi₀, h₀, rfl⟩ := mem_fadeReceivedFiList hfi
  exact h.received fi₀ h₀

theorem LensOk.slotHandler {c : Config} {s s' : Node} {d : Draws} {out : TickOut}
    (hb : Bounds lower upper initial) (hc : SharedLen lower upper initial c)
    (h : LensOk lower upper s) (ht : slotHandler c s d = some (s', out)) :
    LensOk lower upper s' ∧ ∀ x, out.sent = some x → LenOk lower upper x.mFrameLen := by
  have hbegin := h.beginSlot
  rcases slotHandler_cases ht with ⟨rfl, rfl, -⟩ | ⟨-, htick⟩
  · exact ⟨hbegin, fun x hx => by simp at hx⟩
  · obtain ⟨hown, hsent⟩ := lenOk_ownTick hb hc hbegin htick
    refine ⟨⟨hown, ?_⟩, hsent⟩
    rw [htick.sameClock.received_eq]
    exact hbegin.received

theorem LensOk.recvFi {c : Config} {s : Node} {buffer : ℕ → ℕ} (hc : c.adjFrameEna = true)
    (h : LensOk lower upper s) (hbuf : LenOk lower upper (2 ^ BitStream.fieldAt buffer 9 4)) :
    LensOk lower upper (recvFi c s buffer) := by
  refine ⟨h.own, fun fi hfi => ?_⟩
  rcases List.mem_append.mp hfi with hold | hnew
  · exact h.received fi hold
  · rw [List.mem_singleton.mp hnew, hc, decodeFi_frameLen]
    exact hbuf

theorem NetLens.step {e : NetEvent ι} {w' : Net ι} (hb : Bounds lower upper initial)
    (hc : ∀ i, SharedLen lower upper initial (cfg i)) (h : NetLens lower upper w)
    (hstep : netStep cfg w e = some w') : NetLens lower upper w' := by
  cases e with
  | tick i d =>
    simp only [netStep, Option.map_eq_some_iff] at hstep
    obtain ⟨⟨s', out⟩, hs', rfl⟩ := hstep
    obtain ⟨hnode, hsent⟩ := (h.node i).slotHandler hb (hc i) hs'
    refine ⟨fun j => ?_, fun buffer hbuf => ?_⟩
    · by_cases hji : j = i
      · subst hji
        simpa only [Function.update_self] using hnode
      · simpa only [Function.update_of_ne hji] using h.node j
    · rcases List.mem_append.mp hbuf with hold | hnew
      · exact h.air buffer hold
      · obtain ⟨x, hx, rfl⟩ := List.mem_map.mp hnew
        have hlen := hsent x (Option.mem_toList.mp hx)
        rw [fieldAt_packet hb hlen]
        exact hlen
  | deliver i n =>
    simp only [netStep, Option.map_eq_some_iff] at hstep
    obtain ⟨buffer, hbuf, rfl⟩ := hstep
    refine ⟨fun j => ?_, h.air⟩
    by_cases hji : j = i
    · subst hji
      simpa only [Function.update_self] using
        (h.node j).recvFi (hc j).ena (h.air buffer (List.mem_of_getElem? hbuf))
    · simpa only [Function.update_of_ne hji] using h.node j

/-- **Network-wide frame lengths**: in every run, every node's frame length is a power of two between the
bounds, and so is the length that any node decodes from any packet. -/
theorem run_frameLens (cfg : ι → Config) (u : ι → Uninit) (lower upper initial : ℕ) (w : Net ι)
    (hb : Bounds lower upper initial) (hc : ∀ i, SharedLen lower upper initial (cfg i))
    (h : NetRun cfg u w) :
    (∀ i, LenOk lower upper (w.node i).mFrameLen) ∧
      ∀ i, ∀ buffer ∈ w.air, LenOk lower upper
        (decodeFi (cfg i).adjFrameEna (w.node i).mFrameLen buffer).frameLen := by
  have hinv : NetLens lower upper w := by
    refine Reach.invariant h ⟨fun i => ⟨?_, ?_⟩, ?_⟩ fun w e w' hw _ hstep => hw.step hb hc hstep
    · show LenOk lower upper (cfg i).frameLen
      rw [(hc i).initial_eq]
      exact hb.initial_ok
    · intro fi hfi
      exact absurd hfi List.not_mem_nil
    · intro buffer hbuf
      exact absurd hbuf List.not_mem_nil
  refine ⟨fun i => (hinv.node i).own, fun i buffer hbuf => ?_⟩
  rw [(hc i).ena, decodeFi_frameLen]
  exact hinv.air buffer hbuf

end network

/-- Two neighbours with frames of four slots. -/
def pairOf (i : Bool) : Config := if i then cutPeerCfg else cutCfg

/-- The first node comes to send an FI, which reaches its neighbour twice. -/
theorem run_frameLens_pair :
    ∃ w, NetRun pairOf (fun _ => ⟨0, 0, false, 0⟩) w ∧ w.air.length = 1 ∧
      (w.node true).receivedFiList.length = 2 ∧
      (∀ i, LenOk 1 8 (w.node i).mFrameLen) ∧
      ∀ i, ∀ buffer ∈ w.air, LenOk 1 8
        (decodeFi (pairOf i).adjFrameEna (w.node i).mFrameLen buffer).frameLen := by
  have hobs : (runList (netStep pairOf) (fun _ _ => true)
      ⟨fun i => start (pairOf i) ⟨0, 0, false, 0⟩, []⟩
      (List.replicate 7 (.tick false { bch := 3 }) ++ [.deliver true 0, .deliver true 0])).map
      (fun w => (w.air.length, (w.node true).receivedFiList.length)) = some (1, 2) := by decide +kernel
  obtain ⟨w, hw, hend⟩ := Option.map_eq_some_iff.mp hobs
  obtain ⟨hair, hlist⟩ := Prod.mk.inj hend
  have hrun : NetRun pairOf (fun _ => ⟨0, 0, false, 0⟩) w := reach_of_runList (fun _ _ _ => trivial) hw
  refine ⟨w, hrun, hair, hlist, run_frameLens pairOf _ 1 8 4 w ?_ ?_ hrun⟩
  · exact ⟨⟨0, rfl⟩, ⟨3, rfl⟩, ⟨by decide, by decide, 2, rfl⟩, by decide⟩
  · intro i
    cases i with
    | false => exact ⟨rfl, rfl, rfl, rfl⟩
    | true => exact ⟨rfl, rfl, rfl, rfl⟩

end VanetTdma.Ns3
