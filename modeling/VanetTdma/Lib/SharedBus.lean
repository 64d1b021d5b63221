import Mathlib.Tactic.Common

/-!
# A bus that several clients share

Clients with requests of type `J` share one port of a bus.  An arbiter takes one request over at a time, shows it to
the port until the port acknowledges, and passes the acknowledgement on; the port carries the request out and pulses
a done line that all clients see.  A *patient* arbiter waits for this pulse before it looks at the clients again, an
impatient one does not.

* `Bus.Ok.tick` — arbiter and port keep in step, whatever the clients do;
* `Client.At.tick`, `Client.At.ledger` — a client that holds its request until it is acknowledged and then waits has
  exactly the request pending that it last asked for;
* `Client.At.reports_of_done` — while it waits, a done pulse is its own;
* `Arbiter.hold_tick` — the arbiter's registers refine the abstract arbiter.
-/

namespace VanetTdma.SharedBus

variable {κ J ρ : Type*}

/-! ### Arbiter and port -/

/-- What the arbiter does: nothing, show a request, pass the acknowledgement on, wait for the end. -/
inductive Hold (κ J : Type*) where
  | free
  | asking (k : κ) (j : J)
  | acking (k : κ) (j : J)
  | resting

/-- What the port does for these clients. -/
inductive Port (κ J : Type*) where
  | away
  | taken (k : κ) (j : J)
  | busy (k : κ) (j : J)
  | ended (k : κ) (j : J)
  | reporting (k : κ) (j : J)

def Port.ack : Port κ J → Bool
  | .taken _ _ => true
  | _ => false

def Port.done : Port κ J → Bool
  | .reporting _ _ => true
  | _ => false

/-- One edge of the port: `go` says whether a request on offer is taken, and whether the one in hand is completed. -/
def Port.tick (offer : Option (κ × J)) (go : Bool) : Port κ J → Port κ J
  | .away =>
    match offer with
    | some (k, j) => if go then .taken k j else .away
    | none => .away
  | .taken k j => .busy k j
  | .busy k j => if go then .ended k j else .busy k j
  | .ended k j => .reporting k j
  | .reporting _ _ => .away

def Hold.offer : Hold κ J → Option (κ × J)
  | .asking k j => some (k, j)
  | .acking k j => some (k, j)
  | _ => none

/-- One edge of the arbiter; `pick` is the request it finds when it is free. -/
def Hold.tick (patient : Bool) (pick : Option (κ × J)) (p : Port κ J) : Hold κ J → Hold κ J
  | .free =>
    match pick with
    | some (k, j) => .asking k j
    | none => .free
  | .asking k j => if p.ack then .acking k j else .asking k j
  | .acking _ _ => if patient && !p.done then .resting else .free
  | .resting => if patient && !p.done then .resting else .free

/-- Arbiter and port. -/
structure Bus (κ J : Type*) where
  hold : Hold κ J
  port : Port κ J

def Bus.tick (patient : Bool) (pick : Option (κ × J)) (go : Bool) (b : Bus κ J) : Bus κ J where
  hold := b.hold.tick patient pick b.port
  port := b.port.tick b.hold.offer go

/-- Arbiter and port are in step. -/
inductive Bus.Ok (patient : Bool) : Bus κ J → Prop
  | free {p : Port κ J} (hp : ∀ k j, p ≠ .taken k j) (haway : patient = true → p = .away) : Ok patient ⟨.free, p⟩
  | asking {k : κ} {j : J} {p : Port κ J} (hp : ∀ k' j', p = .taken k' j' → k' = k ∧ j' = j)
      (haway : patient = true → p = .away ∨ p = .taken k j) : Ok patient ⟨.asking k j, p⟩
  | acking {k : κ} {j : J} : Ok patient ⟨.acking k j, .busy k j⟩
  | resting {k : κ} {j : J} {p : Port κ J} (hp : p = .busy k j ∨ p = .ended k j ∨ p = .reporting k j)
      (hpatient : patient = true) : Ok patient ⟨.resting, p⟩

section Step

variable {patient go : Bool} {pick offer : Option (κ × J)} {b : Bus κ J} {p : Port κ J} {k : κ} {j : J}

theorem Port.offer_of_tick (h : p.tick offer go = .taken k j) : offer = some (k, j) := by
  cases p with
  | away =>
    cases offer with
    | none => cases h
    | some r =>
      cases go with
      | false => cases h
      | true =>
        have hr : Port.taken r.1 r.2 = Port.taken k j := h
        cases hr
        rfl
  | busy k' j' => cases go <;> cases h
  | _ => cases h

theorem Port.busy_of_tick_ended (h : p.tick offer go = .ended k j) : p = .busy k j ∧ go = true := by
  cases p with
  | away => cases offer <;> cases go <;> cases h
  | busy k' j' =>
    cases go with
    | true =>
      cases h
      exact ⟨rfl, rfl⟩
    | false => cases h
  | _ => cases h

theorem Port.ended_of_tick_reporting (h : p.tick offer go = .reporting k j) : p = .ended k j := by
  cases p with
  | away => cases offer <;> cases go <;> cases h
  | busy k' j' => cases go <;> cases h
  | ended k' j' =>
    cases h
    rfl
  | _ => cases h

/-- Away from its clients the port stays away until it takes a request over. -/
@[simp] theorem Port.away_tick_false : Port.tick offer false (Port.away : Port κ J) = .away := by
  cases offer <;> rfl

theorem Port.tick_none_ne_taken : p.tick none go ≠ .taken k j := by
  intro h
  cases Port.offer_of_tick h

/-- **Arbiter and port keep in step**, whatever the clients ask for. -/
theorem Bus.Ok.tick (h : b.Ok patient) : (b.tick patient pick go).Ok patient := by
  cases h with
  | free hp haway =>
    cases pick with
    | none =>
      refine .free (fun _ _ => Port.tick_none_ne_taken) fun hpat => ?_
      rw [haway hpat]
      rfl
    | some r =>
      refine .asking (fun k' j' h' => absurd h' Port.tick_none_ne_taken) fun hpat => ?_
      rw [haway hpat]
      exact Or.inl rfl
  | @asking k j p hp haway =>
    cases hack : p.ack with
    | true =>
      cases p with
      | taken k' j' =>
        obtain ⟨rfl, rfl⟩ := hp k' j' rfl
        exact .acking
      | _ => exact Bool.noConfusion hack
    | false =>
      have hhold : (Bus.tick patient pick go ⟨.asking k j, p⟩).hold = .asking k j := by
        simp only [Bus.tick, Hold.tick, hack, Bool.false_eq_true, if_false]
      have hnot : ∀ k' j', p ≠ .taken k' j' := by
        rintro k' j' rfl
        exact Bool.noConfusion hack
      rw [show Bus.tick patient pick go ⟨.asking k j, p⟩ = ⟨.asking k j, p.tick (some (k, j)) go⟩ from
        congrArg (Bus.mk · _) hhold]
      refine .asking (fun k' j' h' => ?_) fun hpat => ?_
      · cases Port.offer_of_tick h'
        exact ⟨rfl, rfl⟩
      · rw [(haway hpat).resolve_right (hnot k j)]
        cases go with
        | true => exact Or.inr rfl
        | false => exact Or.inl rfl
  | acking =>
    cases patient with
    | true => cases go with
      | true => exact .resting (Or.inr (Or.inl rfl)) rfl
      | false => exact .resting (Or.inl rfl) rfl
    | false => cases go with
      | true => exact .free (fun _ _ => nofun) nofun
      | false => exact .free (fun _ _ => nofun) nofun
  | resting hp hpat =>
    subst hpat
    rcases hp with rfl | rfl | rfl
    · cases go with
      | true => exact .resting (Or.inr (Or.inl rfl)) rfl
      | false => exact .resting (Or.inl rfl) rfl
    · exact .resting (Or.inr (Or.inr rfl)) rfl
    · exact .free (fun _ _ => nofun) fun _ => rfl

theorem Bus.Ok.hold_of_taken (h : b.Ok patient) (hp : b.port = .taken k j) : b.hold = .asking k j := by
  cases h with
  | free hne _ => exact absurd hp (hne k j)
  | asking heq _ =>
    obtain ⟨rfl, rfl⟩ := heq k j hp
    rfl
  | acking => cases hp
  | resting hor _ => rcases hor with rfl | rfl | rfl <;> cases hp

theorem Bus.Ok.port_of_acking (h : b.Ok patient) (hh : b.hold = .acking k j) : b.port = .busy k j := by
  cases h with
  | acking =>
    cases hh
    rfl
  | _ => cases hh

end Step

/-! ### A client -/

/-- A client does not ask, has just begun to ask, asks until it is acknowledged, or waits for the end. -/
inductive Client (J : Type*) where
  | quiet
  | fresh (j : J)
  | calling (j : J)
  | waiting

def Client.shows : Client J → Option J
  | .fresh j => some j
  | .calling j => some j
  | _ => none

/-- What a client may do at an edge.  It waits when it is acknowledged, and it stops waiting on `leave`. -/
inductive Client.Follows (ack leave : Bool) : Client J → Client J → Prop
  | quiet {c' : Client J} (hc' : c' ≠ .waiting) : Follows ack leave .quiet c'
  | fresh {j : J} : Follows ack leave (.fresh j) (.calling j)
  | calling {j : J} (hack : ack = false) : Follows ack leave (.calling j) (.calling j)
  | granted {j : J} (hack : ack = true) : Follows ack leave (.calling j) .waiting
  | wait (hleave : leave = false) : Follows ack leave .waiting .waiting
  | leave {c' : Client J} (hleave : leave = true) (hc' : c' ≠ .waiting) : Follows ack leave .waiting c'

/-- The request that is new at an edge. -/
def Client.asks (c c' : Client J) : List J :=
  match c.shows with
  | some _ => []
  | none => c'.shows.toList

/-- The stages of a client, without its request. -/
inductive Stage where
  | quiet
  | fresh
  | calling
  | waiting
deriving DecidableEq

/-- A client at the given stage, with its request `j`. -/
def Stage.client (j : J) : Stage → Client J
  | .quiet => .quiet
  | .fresh => .fresh j
  | .calling => .calling j
  | .waiting => .waiting

def Stage.asks : Stage → Bool
  | .fresh | .calling => true
  | _ => false

def Stage.next (ack leave : Bool) (g g' : Stage) : Bool :=
  match g with
  | .quiet => g' ≠ .waiting
  | .fresh => g' = .calling
  | .calling => g' = if ack then .waiting else .calling
  | .waiting => if leave then g' ≠ .waiting else g' = .waiting

theorem Stage.shows_client (g : Stage) (j : J) : (g.client j).shows = if g.asks then some j else none := by
  cases g <;> rfl

theorem Stage.client_ne_waiting {g : Stage} (h : g ≠ .waiting) (j : J) : g.client j ≠ .waiting := by
  cases g with
  | waiting => exact absurd rfl h
  | _ => exact nofun

/-- A machine that goes through the stages and does not change its request while it asks is a client. -/
theorem Stage.follows {ack leave : Bool} {g g' : Stage} {j j' : J} (h : g.next ack leave g' = true)
    (hj : g.asks = true → g'.asks = true → j' = j) : (g.client j).Follows ack leave (g'.client j') := by
  cases g with
  | quiet => exact .quiet (Stage.client_ne_waiting (of_decide_eq_true h) _)
  | fresh =>
    obtain rfl : g' = .calling := of_decide_eq_true h
    rw [hj rfl rfl]
    exact .fresh
  | calling =>
    have hg' : g' = if ack then .waiting else .calling := of_decide_eq_true h
    cases ack with
    | true =>
      rw [hg']
      exact .granted rfl
    | false =>
      rw [if_neg Bool.false_ne_true] at hg'
      subst hg'
      rw [hj rfl rfl]
      exact .calling rfl
  | waiting =>
    cases leave with
    | true => exact .leave rfl (Stage.client_ne_waiting (of_decide_eq_true h) _)
    | false =>
      obtain rfl : g' = .waiting := of_decide_eq_true h
      exact .wait rfl

/-- The arbiter does not act for `k`. -/
def Hold.Spares (k : κ) (h : Hold κ J) : Prop := ∀ j, h ≠ .asking k j ∧ h ≠ .acking k j

/-- The port has no request of `k` still to be carried out. -/
def Port.Spares (k : κ) (p : Port κ J) : Prop := ∀ j, p ≠ .taken k j ∧ p ≠ .busy k j

theorem Port.spares_of_done {p : Port κ J} (h : p.done = true) (k : κ) : p.Spares k := by
  cases p with
  | reporting k' j' => exact fun j => ⟨nofun, nofun⟩
  | _ => exact Bool.noConfusion h

/-- The acknowledgement that `k` sees. -/
def Hold.acks [DecidableEq κ] (k : κ) : Hold κ J → Bool
  | .acking k' _ => k' = k
  | _ => false

/-- The arbiter acts for `k`. -/
def Hold.actsFor [DecidableEq κ] (k : κ) : Hold κ J → Bool
  | .asking k' _ | .acking k' _ => k' = k
  | _ => false

/-- How far the request of client `k` is; `own` says that the client waits for the done line. -/
inductive Client.At (own : Prop) (k : κ) (b : Bus κ J) : Client J → Prop
  | idle {c : Client J} (hc : c ≠ .waiting) (hh : b.hold.Spares k) (hp : b.port.Spares k) : At own k b c
  | asking {j : J} (hh : b.hold = .asking k j) (hp : b.port = .taken k j ∨ b.port.Spares k) : At own k b (.calling j)
  | acking {j : J} (hh : b.hold = .acking k j) : At own k b (.calling j)
  | waiting (hh : b.hold.Spares k)
      (hp : own → ∃ j, b.port = .busy k j ∨ b.port = .ended k j ∨ b.port = .reporting k j) : At own k b .waiting

section Client

variable [DecidableEq κ] {own : Prop} {patient go leave : Bool} {pick offer : Option (κ × J)} {b : Bus κ J}
  {h : Hold κ J} {p : Port κ J} {k : κ} {j : J} {c c' : Client J}

/-- The requests of `k` that are still to be carried out. -/
def Client.pending (k : κ) (p : Port κ J) : Client J → List J
  | .quiet => []
  | .fresh j => [j]
  | .calling j => [j]
  | .waiting =>
    match p with
    | .busy k' j => if k' = k then [j] else []
    | _ => []

/-- The request of `k` that is completed at an edge. -/
def Port.executes (k : κ) (go : Bool) : Port κ J → List J
  | .busy k' j => if k' = k ∧ go = true then [j] else []
  | _ => []

theorem Hold.spares_of_actsFor (hh : h.actsFor k = false) : h.Spares k := by
  refine fun j => ⟨?_, ?_⟩ <;> rintro rfl <;> exact of_decide_eq_false hh rfl

theorem Hold.eq_of_actsFor (hh : h.actsFor k = true) : ∃ j, h = .asking k j ∨ h = .acking k j := by
  cases h with
  | asking k' j' =>
    obtain rfl : k' = k := of_decide_eq_true hh
    exact ⟨j', Or.inl rfl⟩
  | acking k' j' =>
    obtain rfl : k' = k := of_decide_eq_true hh
    exact ⟨j', Or.inr rfl⟩
  | _ => exact Bool.noConfusion hh

theorem Hold.actsFor_asking : (Hold.asking k j).actsFor k = true := decide_eq_true rfl

theorem Hold.actsFor_of_spares (hh : h.Spares k) : h.actsFor k = false := by
  cases hacts : h.actsFor k with
  | false => rfl
  | true =>
    obtain ⟨j, hj | hj⟩ := Hold.eq_of_actsFor hacts
    · exact absurd hj (hh j).1
    · exact absurd hj (hh j).2

omit [DecidableEq κ] in
theorem Hold.of_tick_asking (hh : h.tick patient pick p = .asking k j) :
    h = .free ∧ pick = some (k, j) ∨ h = .asking k j ∧ p.ack = false := by
  cases h with
  | free =>
    cases pick with
    | none => cases hh
    | some r =>
      cases hh
      exact Or.inl ⟨rfl, rfl⟩
  | asking k' j' =>
    cases hack : p.ack with
    | true => simp only [Hold.tick, hack, if_true] at hh; cases hh
    | false =>
      simp only [Hold.tick, hack, Bool.false_eq_true, if_false] at hh
      exact Or.inr ⟨hh, rfl⟩
  | acking k' j' =>
    simp only [Hold.tick] at hh
    split at hh <;> cases hh
  | resting =>
    simp only [Hold.tick] at hh
    split at hh <;> cases hh

theorem Hold.actsFor_tick_asking : ((Hold.asking k j).tick patient pick p).actsFor k = true := by
  cases hack : p.ack <;> simp [Hold.tick, hack, Hold.actsFor]

theorem Hold.acks_of_spares (hh : h.Spares k) : h.acks k = false := by
  cases h with
  | acking k' j' =>
    refine decide_eq_false fun hk => ?_
    subst hk
    exact (hh j').2 rfl
  | _ => rfl

theorem Hold.eq_acking_of_acks (hack : h.acks k = true) : ∃ j, h = .acking k j := by
  cases h with
  | acking k' j' =>
    obtain rfl : k' = k := of_decide_eq_true hack
    exact ⟨j', rfl⟩
  | _ => exact Bool.noConfusion hack

theorem Hold.acks_acking : (Hold.acking k j).acks k = true := decide_eq_true rfl

theorem Port.executes_of_spares (hp : p.Spares k) : p.executes k go = [] := by
  cases p with
  | busy k' j' =>
    refine if_neg ?_
    rintro ⟨hk, -⟩
    subst hk
    exact (hp j').2 rfl
  | _ => rfl

theorem Port.busy_of_executes (h : p.executes k go = [j]) : p = .busy k j ∧ go = true := by
  cases p with
  | busy k' j' =>
    simp only [Port.executes] at h
    split at h
    · rename_i hk
      rw [hk.1, (List.cons.inj h).1]
      exact ⟨rfl, hk.2⟩
    · exact nomatch h
  | _ => exact nomatch h

omit [DecidableEq κ] in
theorem Port.Spares.tick (hp : p.Spares k) (hoffer : ∀ j, offer ≠ some (k, j)) : (p.tick offer go).Spares k := by
  intro j
  refine ⟨fun htaken => hoffer j (Port.offer_of_tick htaken), fun hbusy => ?_⟩
  cases p with
  | away =>
    cases offer with
    | none => cases hbusy
    | some r => cases go <;> cases hbusy
  | taken k' j' =>
    cases hbusy
    exact (hp j).1 rfl
  | busy k' j' =>
    cases go with
    | true => cases hbusy
    | false =>
      cases hbusy
      exact (hp j).2 rfl
  | _ => cases hbusy

omit [DecidableEq κ] in
theorem Hold.Spares.offer_ne (hh : h.Spares k) (j : J) : h.offer ≠ some (k, j) := by
  intro hoffer
  cases h with
  | asking k' j' =>
    cases hoffer
    exact (hh j).1 rfl
  | acking k' j' =>
    cases hoffer
    exact (hh j).2 rfl
  | _ => cases hoffer

omit [DecidableEq κ] in
theorem Hold.Spares.tick (hh : h.Spares k) :
    (h.tick patient pick p).Spares k ∨ ∃ j, pick = some (k, j) ∧ h.tick patient pick p = .asking k j := by
  cases h with
  | free =>
    cases pick with
    | none => exact Or.inl fun j => ⟨nofun, nofun⟩
    | some r =>
      by_cases hk : r.1 = k
      · exact Or.inr ⟨r.2, by rw [← hk], by rw [← hk]; rfl⟩
      · refine Or.inl fun j => ⟨fun h' => hk ?_, nofun⟩
        cases h'
        rfl
  | asking k' j' =>
    refine Or.inl fun j => ⟨fun h' => ?_, fun h' => ?_⟩
    · cases hack : p.ack with
      | true => simp only [Hold.tick, hack, if_true] at h'; cases h'
      | false =>
        simp only [Hold.tick, hack, Bool.false_eq_true, if_false] at h'
        exact (hh j).1 h'
    · cases hack : p.ack with
      | true =>
        simp only [Hold.tick, hack, if_true] at h'
        cases h'
        exact (hh j').1 rfl
      | false => simp only [Hold.tick, hack, Bool.false_eq_true, if_false] at h'; cases h'
  | acking k' j' =>
    refine Or.inl fun j => ?_
    simp only [Hold.tick]
    split <;> exact ⟨nofun, nofun⟩
  | resting =>
    refine Or.inl fun j => ?_
    simp only [Hold.tick]
    split <;> exact ⟨nofun, nofun⟩

theorem Client.pending_of_shows (hc : c ≠ .waiting) : c.pending k p = c.shows.toList := by
  cases c with
  | waiting => exact absurd rfl hc
  | _ => rfl

theorem Client.length_pending : (c.pending k p).length ≤ 1 := by
  cases c with
  | waiting =>
    cases p with
    | busy k' j =>
      simp only [Client.pending]
      split <;> simp
    | _ => exact Nat.zero_le 1
  | _ => simp [Client.pending]

theorem Client.pending_waiting_of_spares (hp : p.Spares k) : Client.waiting.pending k p = [] := by
  cases p with
  | busy k' j' =>
    refine if_neg fun hk => ?_
    subst hk
    exact (hp j').2 rfl
  | _ => rfl

theorem Client.pending_waiting_tick (hp : ∀ j, p ≠ .taken k j) (hoffer : ∀ j, offer ≠ some (k, j)) :
    Client.waiting.pending k p = p.executes k go ++ Client.waiting.pending k (p.tick offer go) := by
  cases p with
  | away =>
    refine (Client.pending_waiting_of_spares ?_).symm
    exact Port.Spares.tick (fun j => ⟨nofun, nofun⟩) hoffer
  | taken k' j' =>
    refine (if_neg fun hk => ?_).symm
    subst hk
    exact hp j' rfl
  | busy k' j' =>
    by_cases hk : k' = k
    · cases go <;> simp [Client.pending, Port.executes, Port.tick, hk]
    · cases go <;> simp [Client.pending, Port.executes, Port.tick, hk]
  | ended k' j' => rfl
  | reporting k' j' => rfl

omit [DecidableEq κ] in
theorem Client.At.tick_idle (hc' : c' ≠ .waiting) (hh : b.hold.Spares k) (hp : b.port.Spares k)
    (hpick : ∀ j, pick = some (k, j) → c' = .calling j) : c'.At own k (b.tick patient pick go) := by
  have hport : (b.tick patient pick go).port.Spares k := hp.tick hh.offer_ne
  rcases hh.tick with hspares | ⟨j, hj, hask⟩
  · exact .idle hc' hspares hport
  · rw [hpick j hj]
    exact .asking hask (Or.inr hport)

/-- **One edge of a client.** -/
theorem Client.At.tick (hb : b.Ok patient) (h : c.At own k b) (hf : c.Follows (b.hold.acks k) leave c')
    (hleave : leave = true → b.port.Spares k) (hown : own → leave = b.port.done)
    (hpick : ∀ j, pick = some (k, j) → c.shows = some j) : c'.At own k (b.tick patient pick go) := by
  cases h with
  | idle hc hh hp =>
    cases hf with
    | quiet hc' => exact .tick_idle hc' hh hp fun j hj => nomatch hpick j hj
    | fresh =>
      refine .tick_idle (fun h => nomatch h) hh hp fun j hj => ?_
      rw [Option.some.inj (hpick j hj)]
    | calling hack =>
      refine .tick_idle (fun h => nomatch h) hh hp fun j hj => ?_
      rw [Option.some.inj (hpick j hj)]
    | granted hack =>
      rw [Hold.acks_of_spares hh] at hack
      exact Bool.noConfusion hack
    | wait => exact absurd rfl hc
    | leave => exact absurd rfl hc
  | @asking j hh hp =>
    cases hf with
    | calling hack =>
      rcases hp with htaken | hspares
      · refine .acking ?_
        simp only [Bus.tick, hh, htaken, Hold.tick, Port.ack, if_true]
      · have hnack : ∀ k' j', b.port = .taken k' j' → False := by
          intro k' j' htaken
          have hk := hb.hold_of_taken htaken
          rw [hh] at hk
          cases hk
          exact (hspares j).1 htaken
        have hack' : b.port.ack = false := by
          cases hport : b.port with
          | taken k' j' => exact absurd hport (hnack k' j')
          | _ => rfl
        have hhold : (b.tick patient pick go).hold = .asking k j := by
          simp only [Bus.tick, hh, Hold.tick, hack', Bool.false_eq_true, if_false]
        refine .asking hhold ?_
        by_cases htaken : ∃ j', (b.tick patient pick go).port = .taken k j'
        · obtain ⟨j', hj'⟩ := htaken
          have hoffer := Port.offer_of_tick hj'
          rw [hh] at hoffer
          cases hoffer
          exact Or.inl hj'
        · refine Or.inr fun j' => ⟨fun hj' => htaken ⟨j', hj'⟩, fun hbusy => ?_⟩
          change b.port.tick b.hold.offer go = .busy k j' at hbusy
          cases hport : b.port with
          | away => rw [hport, hh] at hbusy; cases go <;> cases hbusy
          | taken k'' j'' => exact hnack k'' j'' hport
          | busy k'' j'' =>
            rw [hport] at hbusy
            cases go with
            | true => cases hbusy
            | false =>
              cases hbusy
              exact (hspares j').2 hport
          | ended => rw [hport] at hbusy; cases hbusy
          | reporting => rw [hport] at hbusy; cases hbusy
    | granted hack =>
      rw [hh] at hack
      exact Bool.noConfusion hack
  | @acking j hh =>
    have hport := hb.port_of_acking hh
    cases hf with
    | calling hack =>
      rw [hh, Hold.acks_acking] at hack
      exact Bool.noConfusion hack
    | granted hack =>
      refine .waiting ?_ fun _ => ⟨j, ?_⟩
      · intro j'
        simp only [Bus.tick, hh, Hold.tick]
        split <;> exact ⟨nofun, nofun⟩
      · cases go with
        | true => exact Or.inr (Or.inl (by simp only [Bus.tick, hport, Port.tick, if_true]))
        | false => exact Or.inl (by simp only [Bus.tick, hport, Port.tick, Bool.false_eq_true, if_false])
  | waiting hh hp =>
    cases hf with
    | wait hstay =>
      have hhold : (b.tick patient pick go).hold.Spares k := by
        rcases hh.tick with hspares | ⟨j, hj, -⟩
        · exact hspares
        · exact nomatch hpick j hj
      refine .waiting hhold fun ho => ?_
      obtain ⟨j, hbusy | hended | hrep⟩ := hp ho
      · refine ⟨j, ?_⟩
        cases go with
        | true => exact Or.inr (Or.inl (by simp only [Bus.tick, hbusy, Port.tick, if_true]))
        | false => exact Or.inl (by simp only [Bus.tick, hbusy, Port.tick, Bool.false_eq_true, if_false])
      · exact ⟨j, Or.inr (Or.inr (by simp only [Bus.tick, hended, Port.tick]))⟩
      · rw [hown ho, hrep] at hstay
        exact Bool.noConfusion hstay
    | leave hgo hc' => exact .tick_idle hc' hh (hleave hgo) fun j hj => nomatch hpick j hj

/-- **The account of a client at one edge**: what was pending and what is new is what is carried out and what is
pending then. -/
theorem Client.At.ledger (hb : b.Ok patient) (h : c.At own k b) (hf : c.Follows (b.hold.acks k) leave c')
    (hleave : leave = true → b.port.Spares k) :
    c.pending k b.port ++ c.asks c' = b.port.executes k go ++ c'.pending k (b.tick patient pick go).port := by
  cases h with
  | idle hc hh hp =>
    rw [Port.executes_of_spares hp, List.nil_append]
    cases hf with
    | quiet hc' => rw [Client.pending_of_shows hc']; rfl
    | fresh => rfl
    | calling => rfl
    | granted hack =>
      rw [Hold.acks_of_spares hh] at hack
      exact Bool.noConfusion hack
    | wait => exact absurd rfl hc
    | leave => exact absurd rfl hc
  | @asking j hh hp =>
    have hnone : b.port.executes k go = [] := by
      rcases hp with htaken | hspares
      · rw [htaken]; rfl
      · exact Port.executes_of_spares hspares
    rw [hnone]
    cases hf with
    | calling => rfl
    | granted hack =>
      rw [hh] at hack
      exact Bool.noConfusion hack
  | @acking j hh =>
    have hport := hb.port_of_acking hh
    cases hf with
    | calling hack =>
      rw [hh, Hold.acks_acking] at hack
      exact Bool.noConfusion hack
    | granted hack =>
      simp only [Bus.tick, hport]
      cases go <;> simp [Client.pending, Client.asks, Client.shows, Port.executes, Port.tick]
  | waiting hh hp =>
    have hne : ∀ j, b.port ≠ .taken k j := fun j htaken => (hh j).1 (hb.hold_of_taken htaken)
    cases hf with
    | wait => exact (List.append_nil _).trans (Client.pending_waiting_tick hne hh.offer_ne)
    | leave hgo hc' =>
      have hspares := hleave hgo
      rw [Client.pending_waiting_of_spares hspares, Port.executes_of_spares hspares, Client.pending_of_shows hc']
      rfl

omit [DecidableEq κ] in
theorem Client.At.eq_calling (h : c.At own k b) (hh : b.hold = .asking k j ∨ b.hold = .acking k j) :
    c = .calling j := by
  cases h with
  | idle _ hspares => exact hh.elim (fun h' => absurd h' (hspares j).1) fun h' => absurd h' (hspares j).2
  | asking hh' _ =>
    rw [hh'] at hh
    rcases hh with hh | hh <;> cases hh
    rfl
  | acking hh' =>
    rw [hh'] at hh
    rcases hh with hh | hh <;> cases hh
    rfl
  | waiting hspares => exact hh.elim (fun h' => absurd h' (hspares j).1) fun h' => absurd h' (hspares j).2

omit [DecidableEq κ] in
/-- **While a client waits for the done line, the pulse is its own.** -/
theorem Client.At.reports_of_done (h : Client.waiting.At own k b) (hown : own) (hdone : b.port.done = true) :
    ∃ j, b.port = .reporting k j := by
  cases h with
  | idle hc => exact absurd rfl hc
  | waiting hh hp =>
    obtain ⟨j, hbusy | hended | hrep⟩ := hp hown
    · rw [hbusy] at hdone
      exact Bool.noConfusion hdone
    · rw [hended] at hdone
      exact Bool.noConfusion hdone
    · exact ⟨j, hrep⟩

/-- Nothing of `k` outlasts the next done pulse: what the arbiter still shows of it comes next. -/
def Bus.Last (k : κ) (b : Bus κ J) : Prop := ∀ j, b.hold = .asking k j → b.port = .away ∨ b.port = .taken k j

omit [DecidableEq κ] in
theorem Bus.last_of_done (hdone : b.port.done = true) : (b.tick patient pick go).Last k := by
  intro j _
  left
  cases hp : b.port with
  | reporting k' j' => simp only [Bus.tick, hp, Port.tick]
  | _ => rw [hp] at hdone; exact Bool.noConfusion hdone

omit [DecidableEq κ] in
theorem Bus.Last.tick (hl : b.Last k) (hpick : ∀ j, pick ≠ some (k, j)) : (b.tick patient pick go).Last k := by
  intro j hj
  rcases Hold.of_tick_asking hj with ⟨-, hfound⟩ | ⟨hasking, hack⟩
  · exact absurd hfound (hpick j)
  · rcases hl j hasking with hp | hp
    · simp only [Bus.tick, hp, hasking, Hold.offer, Port.tick]
      cases go with
      | true => exact Or.inr rfl
      | false => exact Or.inl rfl
    · rw [hp] at hack
      exact Bool.noConfusion hack

omit [DecidableEq κ] in
/-- **The pulse that ends the last request of `k` leaves nothing of it.** -/
theorem Bus.Last.spares_of_done (hl : b.Last k) (hb : b.Ok patient) (hdone : b.port.done = true) :
    b.hold.Spares k ∧ b.port.Spares k := by
  refine ⟨fun j => ⟨fun hj => ?_, fun hj => ?_⟩, Port.spares_of_done hdone k⟩
  · rcases hl j hj with hp | hp <;> rw [hp] at hdone <;> exact Bool.noConfusion hdone
  · rw [hb.port_of_acking hj] at hdone
    exact Bool.noConfusion hdone

end Client

/-! ### The registers of an arbiter -/

/-- The states 0, 1 and 2 of an arbiter. -/
inductive ArbPhase where
  | free
  | asking
  | granted
deriving DecidableEq

/-- The registers of an arbiter: the request it shows to the port and the acknowledgements of its clients. -/
structure Arbiter (κ ρ : Type*) where
  phase : ArbPhase := .free
  owner : κ
  req : ρ
  start : Bool := false
  ack : κ → Bool := fun _ => false

namespace Arbiter

variable [DecidableEq κ]

/-- One edge.  `pick` is the client whose request is found when the arbiter is free, and `latch` takes its registers
over. -/
def tick (patient : Bool) (latch : κ → ρ → ρ) (pick : Option κ) (ack done : Bool) (a : Arbiter κ ρ) :
    Arbiter κ ρ :=
  match a.phase with
  | .free =>
    match pick with
    | some k => { a with owner := k, req := latch k a.req, start := true, phase := .asking }
    | none => a
  | .asking =>
    if ack then { a with ack := fun k => if k = a.owner then true else a.ack k, phase := .granted } else a
  | .granted =>
    { a with ack := fun _ => false, start := false, phase := if patient && !done then .granted else .free }

def hold (job : ρ → J) (a : Arbiter κ ρ) : Hold κ J :=
  match a.phase with
  | .free => .free
  | .asking => .asking a.owner (job a.req)
  | .granted => if a.start then .acking a.owner (job a.req) else .resting

/-- What holds of the registers at every edge. -/
structure Ok (a : Arbiter κ ρ) : Prop where
  free : a.phase = .free → a.start = false
  asking : a.phase = .asking → a.start = true
  ack : ∀ k, a.ack k = decide (a.phase = .granted ∧ a.start = true ∧ a.owner = k)

variable {patient ack done : Bool} {latch : κ → ρ → ρ} {pick : Option κ} {a : Arbiter κ ρ} {job : ρ → J}
  {p : Port κ J}

theorem Ok.ack_of_ne (h : a.Ok) (hphase : a.phase ≠ .granted) (k : κ) : a.ack k = false := by
  rw [h.ack k]
  exact decide_eq_false fun h' => hphase h'.1

theorem Ok.tick (h : a.Ok) : (a.tick patient latch pick ack done).Ok := by
  cases hphase : a.phase with
  | free =>
    have hack := h.ack_of_ne (by rw [hphase]; exact nofun)
    cases pick with
    | none =>
      simp only [Arbiter.tick, hphase]
      exact h
    | some k =>
      simp only [Arbiter.tick, hphase]
      exact ⟨nofun, fun _ => rfl, fun k' => by rw [hack k']; rfl⟩
  | asking =>
    have hack := h.ack_of_ne (by rw [hphase]; exact nofun)
    have hstart := h.asking hphase
    cases ack with
    | false =>
      simp only [Arbiter.tick, hphase, Bool.false_eq_true, if_false]
      exact h
    | true =>
      simp only [Arbiter.tick, hphase, if_true]
      refine ⟨nofun, nofun, fun k => ?_⟩
      simp only [hack k, hstart, true_and, eq_comm (a := k)]
      split <;> simp [*]
  | granted =>
    simp only [Arbiter.tick, hphase]
    refine ⟨fun _ => rfl, fun h' => ?_, fun k => ?_⟩
    · dsimp only at h'
      split at h' <;> exact ArbPhase.noConfusion h'
    · exact (decide_eq_false fun h' => Bool.noConfusion h'.2.1).symm

/-- **The registers refine the abstract arbiter.** -/
theorem hold_tick (h : a.Ok) (hack : ack = p.ack) (hdone : done = p.done) :
    (a.tick patient latch pick ack done).hold job
      = (a.hold job).tick patient (pick.map fun k => (k, job (latch k a.req))) p := by
  subst hack hdone
  cases hphase : a.phase with
  | free =>
    cases pick with
    | none => simp only [Arbiter.tick, hold, hphase, Option.map_none, Hold.tick]
    | some k => simp only [Arbiter.tick, hold, hphase, Option.map_some, Hold.tick]
  | asking =>
    have hstart := h.asking hphase
    cases hp : p.ack with
    | true => simp only [Arbiter.tick, hold, hphase, Hold.tick, hp, if_true, hstart]
    | false => simp only [Arbiter.tick, hold, hphase, Hold.tick, hp, Bool.false_eq_true, if_false]
  | granted =>
    cases hstart : a.start with
    | true =>
      simp only [Arbiter.tick, hold, hphase, hstart, if_true, Hold.tick]
      cases patient && !p.done <;> rfl
    | false =>
      simp only [Arbiter.tick, hold, hphase, hstart, Bool.false_eq_true, if_false, Hold.tick]
      cases patient && !p.done <;> rfl

theorem Ok.offer (h : a.Ok) :
    (a.hold job).offer = if a.start then some (a.owner, job a.req) else none := by
  cases hphase : a.phase with
  | free => simp only [hold, hphase, h.free hphase, Hold.offer, Bool.false_eq_true, if_false]
  | asking => simp only [hold, hphase, h.asking hphase, Hold.offer, if_true]
  | granted =>
    simp only [hold, hphase]
    split <;> rfl

theorem Ok.acks (h : a.Ok) (k : κ) : (a.hold job).acks k = a.ack k := by
  rw [h.ack k]
  cases hphase : a.phase with
  | free => simp [hold, hphase, Hold.acks]
  | asking => simp [hold, hphase, Hold.acks]
  | granted => cases hstart : a.start <;> simp [hold, hphase, hstart, Hold.acks]

end Arbiter

end VanetTdma.SharedBus
