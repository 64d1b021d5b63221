import Mathlib.Data.List.Infix
import Mathlib.Data.Rat.Defs
import Mathlib.Algebra.Order.Ring.Rat

/-!
# Reception and transmission of the ns-2 node (`sendUp`, `sendPacket`, `recvHandler`, `sendHandler`)

Reception and transmission are two variables, `rx_state_` and `tx_state_`, driven by four handlers: a packet
arrives (`sendUp`), a packet is sent (`sendPacket`), the receive timer expires (`recvHandler`) or the transmit
timer does (`sendHandler`).  A step returns `none` where an assertion of the source fails; the handlers are
run in any order and at any times, the time of an event being used where the source reads the clock.

A packet that arrives during a transmission is discarded by `sendUp`.  A transmission that starts during a
reception should spoil the packet received: `send_while_receiving` would set `rx_state_` to `MAC_BUSY`, but
nothing calls it, and `sendPacket` sets the error flag of the packet it sends.

* `run_reception` — a packet in reception without a collision has been so since its arrival;
* `delivered_apart_iff` — the node has been transmitting at no moment of the reception of a delivered packet
  exactly if `sendPacket` started no transmission during it;
* `delivered_while_sending` — a packet that is delivered although it has not been received apart.
-/

namespace VanetTdma.Ns2.HalfDuplex

/-- The values of `enum MacState` in use. -/
inductive MacState where
  | idle
  | recv
  | send
  | coll
  | busy
deriving DecidableEq, Repr

/-- What the handlers read of a packet. -/
structure Packet where
  uid : ℕ
  /-- `ch->error() != 0`. -/
  error : Bool
  dst : ℕ
  /-- `txinfo_.RxPr` and `txinfo_.CPThresh`. -/
  rxPr : ℚ
  cpThresh : ℚ
  /-- `TX_Time(p)`. -/
  txTime : ℚ
deriving DecidableEq

/-- The variables of the four handlers.  A running receive timer holds the time at which it expires. -/
structure Mac where
  radioActive : Bool
  rxState : MacState
  txState : MacState
  pktRx : Option Packet
  rxTimer : Option ℚ
  txTimer : Bool

/-- The constructor. -/
def init : Mac where
  radioActive := true
  rxState := .idle
  txState := .idle
  pktRx := none
  rxTimer := none
  txTimer := false

/-! ### The handlers -/

/-- `collision`: of two packets on the air the one that lasts longer is kept, to be dropped at its end. -/
def collision (m : Mac) (now : ℚ) (p : Packet) : Option Mac :=
  match m.rxState, m.rxTimer with
  | .busy, some expire =>
    if expire - now < p.txTime then
      some { m with pktRx := some p, rxState := .coll, rxTimer := some (now + p.txTime) }
    else some m
  | .recv, some expire =>
    if expire - now < p.txTime then
      some { m with rxState := .coll, pktRx := some p, rxTimer := some (now + p.txTime) }
    else some { m with rxState := .coll }
  | .coll, some expire =>
    if expire - now < p.txTime then
      some { m with pktRx := some p, rxTimer := some (now + p.txTime) }
    else some m
  | _, _ => none -- `assert(0)`, `assert(mhRxPkt_.busy())`

/-- `sendUp`. -/
def sendUp (m : Mac) (now : ℚ) (p : Packet) : Option Mac :=
  if m.radioActive = false then some m
  else if m.txState ≠ .idle ∧ p.error = false then some m -- `discard`
  else if m.rxState = .idle then
    if p.txTime < 0 ∨ m.rxTimer.isSome then none
    else some { m with rxState := .recv, pktRx := some p, rxTimer := some (now + p.txTime) }
  else
    match m.pktRx with
    | none => none
    | some q => if p.cpThresh ≤ q.rxPr / p.rxPr then some m /- `capture` -/ else collision m now p

/-- The packet that `sendPacket` hands to the channel: marked as wrong if the node is receiving. -/
def sentPacket (m : Mac) (p : Packet) : Packet := { p with error := p.error ∨ m.rxState ≠ .idle }

/-- `sendPacket`, with the packet that goes out. -/
def sendPacket (m : Mac) (p : Option Packet) : Option (Mac × Option Packet) :=
  match p with
  | none => some (m, none)
  | some p =>
    if m.txTimer then none
    else some ({ m with txState := .send, txTimer := true }, some (sentPacket m p))

/-- `MAC_BROADCAST`. -/
def macBroadcast : ℕ := 0xffffffff

/-- The packet that `recvHandler` passes to `recvPacket`. -/
def delivers (index : ℕ) (m : Mac) : Option Packet :=
  if m.rxState = .coll ∨ m.rxState = .busy then none
  else m.pktRx.filter fun p => p.error = false ∧ (p.dst = macBroadcast ∨ p.dst = index)

/-- `recvHandler`, when the receive timer expires. -/
def recvHandler (m : Mac) : Option Mac :=
  if m.rxTimer.isSome then some { m with rxState := .idle, rxTimer := none } else none

/-- `sendHandler`, when the transmit timer expires. -/
def sendHandler (m : Mac) : Option Mac :=
  if m.txTimer then some { m with txState := .idle, txTimer := false } else none

/-- What happens to a node. -/
inductive Event where
  | arrive (now : ℚ) (p : Packet)
  | send (p : Option Packet)
  | rxExpire
  | txExpire
  | radioSwitch (on : Bool)
deriving DecidableEq

def step (m : Mac) : Event → Option Mac
  | .arrive now p => sendUp m now p
  | .send p => (sendPacket m p).map Prod.fst
  | .rxExpire => recvHandler m
  | .txExpire => sendHandler m
  | .radioSwitch on => some { m with radioActive := on }

def run (evs : List Event) : Option Mac := evs.foldlM step init

/-- The event starts a transmission. -/
def Event.transmits : Event → Bool
  | .send (some _) => true
  | _ => false

/-! ### What one event can do -/

section step

variable {m m' : Mac} {ev : Event}

/-- The receive timer runs exactly during a reception, and `rx_state_` is never `MAC_SEND`. -/
structure RxOk (m : Mac) : Prop where
  timer : m.rxTimer.isSome = true ↔ m.rxState ≠ .idle
  state : m.rxState ≠ .send

theorem collision_eq {now : ℚ} {p : Packet} (h : collision m now p = some m') :
    m'.rxTimer.isSome = true ∧ m.rxState ≠ .idle ∧ (m'.rxState = .coll ∨ m'.rxState = .busy) ∧
      m'.txState = m.txState := by
  unfold collision at h
  split at h
  · rename_i hrx htimer
    split at h
    · cases h
      exact ⟨rfl, by rw [hrx]; decide, .inl rfl, rfl⟩
    · cases h
      exact ⟨by rw [htimer]; rfl, by rw [hrx]; decide, .inr hrx, rfl⟩
  · rename_i hrx htimer
    split at h
    · cases h
      exact ⟨rfl, by rw [hrx]; decide, .inl rfl, rfl⟩
    · cases h
      exact ⟨by rw [htimer]; rfl, by rw [hrx]; decide, .inl rfl, rfl⟩
  · rename_i hrx htimer
    split at h
    · cases h
      exact ⟨rfl, by rw [hrx]; decide, .inl hrx, rfl⟩
    · cases h
      exact ⟨by rw [htimer]; rfl, by rw [hrx]; decide, .inl hrx, rfl⟩
  · cases h

/-- What an arrival does: nothing, a new reception, or a collision. -/
theorem sendUp_cases {now : ℚ} {p : Packet} (h : sendUp m now p = some m') :
    m' = m ∨
      (m.rxState = .idle ∧ (p.error = false → m.txState = .idle) ∧
        m' = { m with rxState := .recv, pktRx := some p, rxTimer := some (now + p.txTime) }) ∨
      collision m now p = some m' := by
  unfold sendUp at h
  split at h
  · exact .inl (Option.some.inj h).symm
  · split at h
    · exact .inl (Option.some.inj h).symm
    · rename_i htx
      split at h
      · rename_i hrx
        split at h
        · cases h
        · refine .inr (.inl ⟨hrx, fun herr => ?_, (Option.some.inj h).symm⟩)
          by_contra hne
          exact htx ⟨hne, herr⟩
      · split at h
        · cases h
        · split at h
          · exact .inl (Option.some.inj h).symm
          · exact .inr (.inr h)

/-- What an event does to a node. -/
inductive Outcome (m : Mac) : Event → Mac → Prop
  | same {ev : Event} (hev : ev.transmits = false) : Outcome m ev m
  | receive {now : ℚ} {p : Packet} (hrx : m.rxState = .idle) (htx : p.error = false → m.txState = .idle) :
      Outcome m (.arrive now p)
        { m with rxState := .recv, pktRx := some p, rxTimer := some (now + p.txTime) }
  | collide {now : ℚ} {p : Packet} {m' : Mac} (h : collision m now p = some m') : Outcome m (.arrive now p) m'
  | transmit {p : Packet} : Outcome m (.send (some p)) { m with txState := .send, txTimer := true }
  | received : Outcome m .rxExpire { m with rxState := .idle, rxTimer := none }
  | sent : Outcome m .txExpire { m with txState := .idle, txTimer := false }
  | switch {on : Bool} : Outcome m (.radioSwitch on) { m with radioActive := on }

/-- **What one event can do.** -/
theorem step_outcome (h : step m ev = some m') : Outcome m ev m' := by
  cases ev with
  | arrive now p =>
    rcases sendUp_cases h with rfl | ⟨hrx, htx, rfl⟩ | hcoll
    · exact .same rfl
    · exact .receive hrx htx
    · exact .collide hcoll
  | send p =>
    obtain ⟨⟨x, out⟩, hsend, rfl⟩ := Option.map_eq_some_iff.mp h
    unfold sendPacket at hsend
    split at hsend
    · cases hsend
      exact .same rfl
    · split at hsend
      · cases hsend
      · cases hsend
        exact .transmit
  | rxExpire =>
    simp only [HalfDuplex.step, recvHandler] at h
    split at h
    · cases h
      exact .received
    · cases h
  | txExpire =>
    simp only [HalfDuplex.step, sendHandler] at h
    split at h
    · cases h
      exact .sent
    · cases h
  | radioSwitch on =>
    cases h
    exact .switch

theorem RxOk.step (hok : RxOk m) (h : step m ev = some m') : RxOk m' := by
  cases step_outcome h with
  | same => exact hok
  | receive => exact ⟨⟨fun _ h => MacState.noConfusion h, fun _ => rfl⟩, fun h => MacState.noConfusion h⟩
  | collide hcoll =>
    obtain ⟨htimer, -, hrx, -⟩ := collision_eq hcoll
    refine ⟨⟨fun _ => ?_, fun _ => htimer⟩, ?_⟩
    · rcases hrx with hrx | hrx <;> rw [hrx] <;> decide
    · rcases hrx with hrx | hrx <;> rw [hrx] <;> decide
  | received => exact ⟨⟨fun h => Bool.noConfusion h, fun h => absurd rfl h⟩, fun h => MacState.noConfusion h⟩
  | transmit | sent | switch => exact ⟨hok.timer, hok.state⟩

/-- **A node in undisturbed reception after an event** has been so before it, with the same packet, or the
event is the arrival of the packet at a node that was not receiving (and, unless the packet is wrong, not
transmitting). -/
theorem step_recv (h : step m ev = some m') (hrx : m'.rxState = .recv) :
    (m.rxState = .recv ∧ m'.pktRx = m.pktRx) ∨
      (m.rxState = .idle ∧ ∃ now p, ev = .arrive now p ∧ m'.pktRx = some p ∧
        m'.txState = m.txState ∧ (p.error = false → m.txState = .idle)) := by
  cases step_outcome h with
  | receive hidle htx => exact .inr ⟨hidle, _, _, rfl, rfl, rfl, htx⟩
  | collide hcoll =>
    obtain ⟨-, -, hrx', -⟩ := collision_eq hcoll
    rw [hrx] at hrx'
    exact absurd hrx' (by decide)
  | received => cases hrx
  | same | transmit | sent | switch => exact .inl ⟨hrx, rfl⟩

theorem step_txState (h : step m ev = some m') :
    if ev.transmits then m'.txState = .send else m'.txState = m.txState ∨ m'.txState = .idle := by
  cases step_outcome h with
  | same hev =>
    rw [hev]
    exact .inl rfl
  | receive | received | switch => exact .inl rfl
  | collide hcoll => exact .inl (collision_eq hcoll).2.2.2
  | transmit => rfl
  | sent => exact .inr rfl

end step

/-! ### Runs -/

section run

variable {evs : List Event} {m : Mac}

theorem run_append (evs : List Event) (ev : Event) : run (evs ++ [ev]) = (run evs).bind (step · ev) := by
  unfold run
  rw [List.foldlM_append]
  cases evs.foldlM step init with
  | none => rfl
  | some m =>
    show (step m ev).bind some = step m ev
    exact Option.bind_fun_some _

theorem run_take {pre post : List Event} (h : run (pre ++ post) = some m) : ∃ x, run pre = some x := by
  unfold run at h
  rw [List.foldlM_append] at h
  obtain ⟨x, hx, -⟩ := Option.bind_eq_some_iff.mp h
  exact ⟨x, hx⟩

theorem run_rxOk (h : run evs = some m) : RxOk m := by
  induction evs using List.reverseRecOn generalizing m with
  | nil =>
    cases h
    exact ⟨⟨fun h => Bool.noConfusion h, fun h => absurd rfl h⟩, fun h => MacState.noConfusion h⟩
  | append_singleton evs ev ih =>
    rw [run_append] at h
    obtain ⟨x, hx, hstep⟩ := Option.bind_eq_some_iff.mp h
    exact (ih hx).step hstep

/-- The events after `pre` are the arrival of `p` at a node that is not receiving and then `mid`, with `p` in
undisturbed reception all along. -/
structure Reception (p : Packet) (pre : List Event) (now : ℚ) (mid : List Event) : Prop where
  starts : ∃ w, run pre = some w ∧ w.rxState = .idle ∧ (p.error = false → w.txState = .idle)
  lasts : ∀ seen rest x, mid = seen ++ rest → run (pre ++ .arrive now p :: seen) = some x →
    x.rxState = .recv ∧ x.pktRx = some p

/-- **A packet in undisturbed reception has been so since its arrival.** -/
theorem run_reception (h : run evs = some m) (hrx : m.rxState = .recv) :
    ∃ p pre now mid, m.pktRx = some p ∧ evs = pre ++ .arrive now p :: mid ∧ Reception p pre now mid := by
  induction evs using List.reverseRecOn generalizing m with
  | nil =>
    cases h
    cases hrx
  | append_singleton evs ev ih =>
    have hrun := h
    rw [run_append] at h
    obtain ⟨x, hx, hstep⟩ := Option.bind_eq_some_iff.mp h
    rcases step_recv hstep hrx with ⟨hrecv, hpkt⟩ | ⟨hidle, now, p, rfl, hpkt, -, htx⟩
    · -- the reception goes on
      obtain ⟨p, pre, now, mid, hp, rfl, hrec⟩ := ih hx hrecv
      refine ⟨p, pre, now, mid ++ [ev], hpkt.trans hp, by simp, hrec.starts, ?_⟩
      intro seen rest y hsplit hy
      rcases List.eq_nil_or_concat rest with rfl | ⟨rest, last, rfl⟩
      · rw [List.append_nil] at hsplit
        subst hsplit
        have hsame : y = m := by
          have : pre ++ .arrive now p :: (mid ++ [ev]) = pre ++ .arrive now p :: mid ++ [ev] := by simp
          rw [this, hrun] at hy
          exact (Option.some.inj hy).symm
        exact ⟨hsame ▸ hrx, hsame ▸ hpkt.trans hp⟩
      · rw [List.concat_eq_append, ← List.append_assoc] at hsplit
        exact hrec.lasts seen rest y (List.append_inj_left' hsplit rfl) hy
    · -- the packet arrives now
      refine ⟨p, evs, now, [], hpkt, rfl, ⟨x, hx, hidle, htx⟩, ?_⟩
      intro seen rest y hsplit hy
      obtain ⟨rfl, rfl⟩ := List.append_eq_nil_iff.mp hsplit.symm
      rw [hrun] at hy
      cases hy
      exact ⟨hrx, hpkt⟩

/-- At no moment of the reception the node is transmitting. -/
def Apart (p : Packet) (pre : List Event) (now : ℚ) (mid : List Event) : Prop :=
  ∀ seen rest x, mid = seen ++ rest → run (pre ++ .arrive now p :: seen) = some x → x.txState = .idle

theorem txState_of_not_transmits {pre mid : List Event} {w x : Mac} (hw : run pre = some w)
    (htx : w.txState = .idle) (hmid : ∀ ev ∈ mid, ev.transmits = false) (hx : run (pre ++ mid) = some x) :
    x.txState = .idle := by
  induction mid using List.reverseRecOn generalizing x with
  | nil =>
    rw [List.append_nil, hw] at hx
    cases hx
    exact htx
  | append_singleton mid ev ih =>
    rw [← List.append_assoc, run_append] at hx
    obtain ⟨y, hy, hstep⟩ := Option.bind_eq_some_iff.mp hx
    have hy' : y.txState = .idle := ih (fun e he => hmid e (by simp [he])) hy
    have hkept := step_txState hstep
    rw [hmid ev (by simp)] at hkept
    rcases hkept with h | h
    · exact h.trans hy'
    · exact h

theorem apart_iff {p : Packet} {pre mid : List Event} {now : ℚ} (hrec : Reception p pre now mid)
    (herr : p.error = false) (h : run (pre ++ .arrive now p :: mid) = some m) :
    Apart p pre now mid ↔ ∀ ev ∈ mid, ev.transmits = false := by
  constructor
  · intro hapart ev hev
    obtain ⟨seen, rest, rfl⟩ := List.append_of_mem hev
    have hcut : pre ++ .arrive now p :: (seen ++ ev :: rest)
        = (pre ++ .arrive now p :: (seen ++ [ev])) ++ rest := by simp
    rw [hcut] at h
    obtain ⟨x, hx⟩ := run_take h
    have hidle := hapart (seen ++ [ev]) rest x (by simp) hx
    have hsplit : pre ++ .arrive now p :: (seen ++ [ev]) = (pre ++ .arrive now p :: seen) ++ [ev] := by simp
    rw [hsplit, run_append] at hx
    obtain ⟨y, -, hstep⟩ := Option.bind_eq_some_iff.mp hx
    have hkept := step_txState hstep
    by_contra htr
    rw [if_pos (by simpa using htr), hidle] at hkept
    cases hkept
  · intro hquiet seen rest x hsplit hx
    obtain ⟨w, hw, -, htx⟩ := hrec.starts
    refine txState_of_not_transmits hw (htx herr) ?_ hx
    intro ev hev
    rcases List.mem_cons.mp hev with rfl | hev
    · rfl
    · exact hquiet ev (by rw [hsplit]; exact List.mem_append_left _ hev)

theorem delivers_eq_some {index : ℕ} {p : Packet} (h : delivers index m = some p) :
    m.rxState ≠ .coll ∧ m.rxState ≠ .busy ∧ m.pktRx = some p ∧ p.error = false := by
  unfold delivers at h
  split at h
  · cases h
  · rename_i hrx
    rw [not_or] at hrx
    obtain ⟨hpkt, hok⟩ := Option.filter_eq_some_iff.mp h
    simp only [decide_eq_true_eq] at hok
    exact ⟨hrx.1, hrx.2, hpkt, hok.1⟩

/-- **When a delivered packet was received apart from every transmission**: its reception, from its arrival
to the end, meets no moment at which the node is transmitting exactly if `sendPacket` started no transmission
during it. -/
theorem delivered_apart_iff (index : ℕ) (evs : List Event) (m : Mac) (p : Packet)
    (hrun : run evs = some m) (hexpire : (step m .rxExpire).isSome = true)
    (hdeliver : delivers index m = some p) :
    ∃ pre now mid, evs = pre ++ .arrive now p :: mid ∧ Reception p pre now mid ∧
      (Apart p pre now mid ↔ ∀ ev ∈ mid, ev.transmits = false) := by
  obtain ⟨hcoll, hbusy, hpkt, herr⟩ := delivers_eq_some hdeliver
  have htimer : m.rxTimer.isSome = true := by
    by_contra hnone
    simp [step, recvHandler, hnone] at hexpire
  have hrx : m.rxState = .recv := by
    have hidle := (run_rxOk hrun).timer.mp htimer
    have hsend := (run_rxOk hrun).state
    cases hstate : m.rxState with
    | idle => exact absurd hstate hidle
    | recv => rfl
    | send => exact absurd hstate hsend
    | coll => exact absurd hstate hcoll
    | busy => exact absurd hstate hbusy
  obtain ⟨q, pre, now, mid, hq, rfl, hrec⟩ := run_reception hrun hrx
  obtain rfl : p = q := Option.some.inj (hpkt.symm.trans hq)
  exact ⟨pre, now, mid, rfl, hrec, apart_iff hrec herr hrun⟩

end run

/-- A broadcast packet that takes four units of time. -/
def beacon : Packet := ⟨1, false, macBroadcast, 1, 10, 4⟩

theorem delivered_apart_iff_beacon :
    ∃ pre now mid, [Event.arrive 0 beacon, .send none] = pre ++ .arrive now beacon :: mid ∧
      Reception beacon pre now mid ∧
      (Apart beacon pre now mid ↔ ∀ ev ∈ mid, ev.transmits = false) :=
  delivered_apart_iff 7 _ _ beacon rfl rfl rfl

/-- A transmission that starts one unit after the arrival of the packet and outlasts it: the packet is
delivered at time 4. -/
theorem delivered_while_sending :
    ∃ evs m p pre now mid, run evs = some m ∧ (step m .rxExpire).isSome = true ∧
      delivers 7 m = some p ∧ evs = pre ++ .arrive now p :: mid ∧ Reception p pre now mid ∧
      ¬ Apart p pre now mid := by
  refine ⟨[.arrive 0 beacon, .send (some { beacon with uid := 2 })], _, beacon, [], 0,
    [.send (some { beacon with uid := 2 })], rfl, rfl, rfl, rfl, ⟨⟨_, rfl, rfl, fun _ => rfl⟩, ?_⟩, ?_⟩
  · intro seen rest x hsplit hx
    rcases seen with _ | ⟨ev, seen⟩
    · cases hx
      exact ⟨rfl, rfl⟩
    · obtain ⟨rfl, hnil⟩ := List.cons.inj hsplit
      obtain ⟨rfl, rfl⟩ := List.append_eq_nil_iff.mp hnil.symm
      cases hx
      exact ⟨rfl, rfl⟩
  · intro hapart
    have hidle := hapart [.send (some { beacon with uid := 2 })] [] _ rfl rfl
    cases hidle

end VanetTdma.Ns2.HalfDuplex
