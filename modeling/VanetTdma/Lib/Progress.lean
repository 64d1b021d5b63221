import Mathlib.Data.List.Infix
import VanetTdma.Lib.SharedBus

/-!
# Progress of a shared bus

A run of a shared bus.  If the port is free for its clients again and again, a request that the arbiter shows is taken
over, carried out and reported; and an arbiter that waits for the end of each transaction is free again.

* `exists_of_leaves` — a condition that does not last ends in the way it can end;
* `exists_of_rank` — so does one under which a rank goes down whenever the answer comes that is waited for;
* `BusRun.exists_acking`, `BusRun.exists_free` — progress of the arbiter;
* `BusRun.exists_ended` — progress of the port;
* `ClientRun.exists_not_pending` — progress of a client that the arbiter comes to.
-/

namespace VanetTdma.SharedBus

theorem exists_of_leaves {P Q : ℕ → Prop} {n : ℕ} (hstep : ∀ m, n ≤ m → P m → P (m + 1) ∨ Q (m + 1)) (hP : P n)
    (hleave : ∃ m, n ≤ m ∧ ¬ P m) : ∃ m, n ≤ m ∧ Q (m + 1) ∧ ∀ l, n ≤ l → l ≤ m → P l := by
  obtain ⟨m, hle, hm⟩ := hleave
  obtain ⟨d, rfl⟩ := Nat.exists_eq_add_of_le hle
  clear hle
  induction d generalizing n with
  | zero => exact absurd hP hm
  | succ d ih =>
    rcases hstep n (Nat.le_refl n) hP with hnext | hQ
    · obtain ⟨m, hle, hQ, hall⟩ := ih (fun m hnm => hstep m (by omega)) hnext (by rwa [Nat.add_right_comm])
      refine ⟨m, by omega, hQ, fun l hnl hlm => ?_⟩
      by_cases hl : l = n
      · rwa [hl]
      · exact hall l (by omega) hlm
    · refine ⟨n, Nat.le_refl n, hQ, fun l hnl hln => ?_⟩
      rwa [Nat.le_antisymm hln hnl]

/-- A condition ends in the way it can end if a rank does not rise under it, and falls with each answer that is waited
for. -/
theorem exists_of_rank {σ ι : Type*} {f : ℕ → σ} {inp : ℕ → ι} {P Q : σ → Prop} (rank : σ → ℕ)
    (waits : σ → ι → Bool)
    (hstep : ∀ n, P (f n) → Q (f (n + 1)) ∨ P (f (n + 1)) ∧ (rank (f (n + 1)) < rank (f n)
      ∨ rank (f (n + 1)) = rank (f n) ∧ waits (f n) (inp n) = false ∧ waits (f (n + 1)) = waits (f n)))
    (hanswer : ∀ s n, ∃ m, n ≤ m ∧ waits s (inp m) = true) {n : ℕ} (hP : P (f n)) : ∃ m, n ≤ m ∧ Q (f m) := by
  induction hr : rank (f n) using Nat.strongRecOn generalizing n with
  | _ r ih =>
    subst hr
    obtain ⟨m, hle, hm⟩ := hanswer (f n) n
    obtain ⟨d, rfl⟩ := Nat.exists_eq_add_of_le hle
    clear hle
    -- on the way to the answer the rank falls, or stays with what is waited for
    induction d generalizing n with
    | zero =>
      rcases hstep n hP with hQ | ⟨hP', hlt | ⟨-, hno, -⟩⟩
      · exact ⟨n + 1, by omega, hQ⟩
      · obtain ⟨m, hle, hQ⟩ := ih _ hlt hP' rfl
        exact ⟨m, by omega, hQ⟩
      · exact Bool.noConfusion (hno.symm.trans hm)
    | succ d ihd =>
      rcases hstep n hP with hQ | ⟨hP', hlt | ⟨heq, -, hsame⟩⟩
      · exact ⟨n + 1, by omega, hQ⟩
      · obtain ⟨m, hle, hQ⟩ := ih _ hlt hP' rfl
        exact ⟨m, by omega, hQ⟩
      · obtain ⟨m, hle, hQ⟩ := ihd hP' (by rwa [heq]) (by rwa [hsame, Nat.add_right_comm])
        exact ⟨m, by omega, hQ⟩

variable {κ J : Type*}

/-- A run of a bus whose port is free for its clients again and again. -/
structure BusRun (patient : Bool) (b : ℕ → Bus κ J) (pick : ℕ → Option (κ × J)) (go : ℕ → Bool) : Prop where
  ok : ∀ n, (b n).Ok patient
  tick : ∀ n, b (n + 1) = (b n).tick patient (pick n) (go n)
  turn : ∀ n, ∃ m, n ≤ m ∧ (b m).port = .away ∧ go m = true

namespace BusRun

variable {patient : Bool} {b : ℕ → Bus κ J} {pick : ℕ → Option (κ × J)} {go : ℕ → Bool} {n : ℕ} {k : κ} {j : J}

theorem hold_succ (h : BusRun patient b pick go) (n : ℕ) :
    (b (n + 1)).hold = (b n).hold.tick patient (pick n) (b n).port :=
  congrArg Bus.hold (h.tick n)

theorem port_succ (h : BusRun patient b pick go) (n : ℕ) : (b (n + 1)).port = (b n).port.tick (b n).hold.offer (go n) :=
  congrArg Bus.port (h.tick n)

/-- **A request that is shown is acknowledged.** -/
theorem exists_acking (h : BusRun patient b pick go) (hn : (b n).hold = .asking k j) :
    ∃ m, n ≤ m ∧ (b (m + 1)).hold = .acking k j ∧ ∀ l, n ≤ l → l ≤ m → (b l).hold = .asking k j := by
  refine exists_of_leaves (P := fun l => (b l).hold = .asking k j) (Q := fun l => (b l).hold = .acking k j)
    (fun m _ hm => ?_) hn ?_
  · rw [h.hold_succ, hm, Hold.tick]
    cases (b m).port.ack with
    | true => exact Or.inr rfl
    | false => exact Or.inl rfl
  · obtain ⟨m, hle, haway, hgo⟩ := h.turn n
    by_cases hm : (b m).hold = .asking k j
    · -- the port is free now, takes the request at this edge and acknowledges it at the next
      refine ⟨m + 2, by omega, ?_⟩
      have hhold : (b (m + 1)).hold = .asking k j := by
        rw [h.hold_succ, hm, haway]
        rfl
      have hport : (b (m + 1)).port = .taken k j := by
        rw [h.port_succ, hm, haway, hgo]
        rfl
      intro hm2
      rw [h.hold_succ, hhold, hport] at hm2
      cases hm2
    · exact ⟨m, hle, hm⟩

theorem exists_free_of_resting (h : BusRun true b pick go) (hn : (b n).hold = .resting) :
    ∃ m, n ≤ m ∧ (b (m + 1)).hold = .free ∧ ∀ l, n ≤ l → l ≤ m → (b l).hold = .resting := by
  refine exists_of_leaves (P := fun l => (b l).hold = .resting) (Q := fun l => (b l).hold = .free)
    (fun m _ hm => ?_) hn ?_
  · rw [h.hold_succ, hm, Hold.tick]
    split
    · exact Or.inl rfl
    · exact Or.inr rfl
  · obtain ⟨m, hle, haway, -⟩ := h.turn n
    refine ⟨m, hle, fun hm => ?_⟩
    have hok := h.ok m
    generalize b m = c at hok haway hm
    cases hok with
    | resting hp => rcases hp with rfl | rfl | rfl <;> cases haway
    | _ => cases hm

theorem hold_of_acking (h : BusRun true b pick go) (hn : (b n).hold = .acking k j) :
    (b (n + 1)).hold = .resting ∧ ((b (n + 1)).port = .busy k j ∨ (b (n + 1)).port = .ended k j) := by
  have hport := (h.ok n).port_of_acking hn
  refine ⟨?_, ?_⟩
  · rw [h.hold_succ, hn, hport]
    rfl
  · rw [h.port_succ, hport, Port.tick]
    split
    · exact Or.inr rfl
    · exact Or.inl rfl

/-- **The arbiter is free again and again.** -/
theorem exists_free (h : BusRun true b pick go) (n : ℕ) : ∃ m, n ≤ m ∧ (b m).hold = .free := by
  have hacking : ∀ n k j, (b n).hold = .acking k j → ∃ m, n ≤ m ∧ (b m).hold = .free := by
    intro n k j hn
    obtain ⟨m, hle, hfree, -⟩ := h.exists_free_of_resting (h.hold_of_acking hn).1
    exact ⟨m + 1, by omega, hfree⟩
  cases hn : (b n).hold with
  | free => exact ⟨n, Nat.le_refl n, hn⟩
  | asking k j =>
    obtain ⟨m, hle, hack, -⟩ := h.exists_acking hn
    obtain ⟨m', hle', hfree⟩ := hacking (m + 1) k j hack
    exact ⟨m', by omega, hfree⟩
  | acking k j => exact hacking n k j hn
  | resting =>
    obtain ⟨m, hle, hfree, -⟩ := h.exists_free_of_resting hn
    exact ⟨m + 1, by omega, hfree⟩

/-- **An impatient arbiter is free as soon as it has passed an acknowledgement on.** -/
theorem exists_free_of_asking (h : BusRun false b pick go) (hn : (b n).hold = .asking k j) :
    ∃ m, n < m ∧ (b m).hold = .acking k j ∧ (b (m + 1)).hold = .free
      ∧ ∀ l, n ≤ l → l < m → (b l).hold = .asking k j := by
  obtain ⟨m, hle, hack, hall⟩ := h.exists_acking hn
  refine ⟨m + 1, by omega, hack, ?_, fun l hnl hlm => hall l hnl (by omega)⟩
  rw [h.hold_succ, hack]
  rfl

theorem exists_free_of_impatient (h : BusRun false b pick go) (n : ℕ) : ∃ m, n ≤ m ∧ (b m).hold = .free := by
  cases hn : (b n).hold with
  | free => exact ⟨n, Nat.le_refl n, hn⟩
  | asking k j =>
    obtain ⟨m, hlt, -, hfree, -⟩ := h.exists_free_of_asking hn
    exact ⟨m + 1, by omega, hfree⟩
  | acking k j =>
    refine ⟨n + 1, by omega, ?_⟩
    rw [h.hold_succ, hn]
    rfl
  | resting =>
    refine ⟨n + 1, by omega, ?_⟩
    rw [h.hold_succ, hn]
    rfl

theorem done_of_free (h : BusRun true b pick go) (hn : (b n).hold = .resting) (hfree : (b (n + 1)).hold = .free) :
    (b n).port.done = true := by
  rw [h.hold_succ, hn, Hold.tick, Bool.true_and] at hfree
  split at hfree
  · cases hfree
  · simpa using ‹¬ (!(b n).port.done) = true›

/-- **A request in hand is carried out.** -/
theorem exists_ended (h : BusRun patient b pick go) (hn : (b n).port = .busy k j) :
    ∃ m, n ≤ m ∧ (b (m + 1)).port = .ended k j ∧ ∀ l, n ≤ l → l ≤ m → (b l).port = .busy k j := by
  refine exists_of_leaves (P := fun l => (b l).port = .busy k j) (Q := fun l => (b l).port = .ended k j)
    (fun m _ hm => ?_) hn ?_
  · rw [h.port_succ, hm, Port.tick]
    split
    · exact Or.inr rfl
    · exact Or.inl rfl
  · obtain ⟨m, hle, haway, -⟩ := h.turn n
    refine ⟨m, hle, fun hm => ?_⟩
    rw [hm] at haway
    cases haway

end BusRun

/-! ### Clients of a run -/

/-- A run of a client.  Of the bus nothing is said while the client is quiet. -/
structure ClientRun [DecidableEq κ] (own : Prop) (k : κ) (b : ℕ → Bus κ J) (leave : ℕ → Bool) (c : ℕ → Client J) :
    Prop where
  at_bus : ∀ n, c n ≠ .quiet → (c n).At own k (b n)
  follows : ∀ n, (c n).Follows ((b n).hold.acks k) (leave n) (c (n + 1))
  spares : ∀ n, leave n = true → (b n).port.Spares k

namespace ClientRun

variable [DecidableEq κ] {own : Prop} {patient : Bool} {b : ℕ → Bus κ J} {pick : ℕ → Option (κ × J)} {go leave : ℕ → Bool}
  {c : ℕ → Client J} {n : ℕ} {k : κ} {j : J}

theorem waiting_of_acking (h : ClientRun own k b leave c) (hn : c n = .calling j) (hack : (b n).hold = .acking k j) :
    c (n + 1) = .waiting := by
  have hf := h.follows n
  rw [hn, hack, Hold.acks_acking] at hf
  generalize c (n + 1) = c' at hf
  cases hf with
  | calling hno => exact Bool.noConfusion hno
  | granted => rfl

theorem calling_succ (h : ClientRun own k b leave c) (hn : c n = .calling j) (hack : (b n).hold.acks k = false) :
    c (n + 1) = .calling j := by
  have hf := h.follows n
  rw [hn, hack] at hf
  generalize c (n + 1) = c' at hf
  cases hf with
  | calling => rfl
  | granted hyes => exact Bool.noConfusion hyes

theorem exists_not_pending_of_waiting (h : ClientRun own k b leave c) (hb : BusRun patient b pick go)
    (hn : c n = .waiting) : ∃ m, n ≤ m ∧ (c m).pending k (b m).port = [] := by
  cases hport : (b n).port with
  | busy k' j =>
    by_cases hk : k' = k
    · subst hk
      obtain ⟨m, hle, hended, hbusy⟩ := hb.exists_ended hport
      -- it goes on waiting as long as the port is busy with its request
      have hwait : ∀ l, n ≤ l → l ≤ m + 1 → c l = .waiting := by
        intro l hnl
        induction l, hnl using Nat.le_induction with
        | base => exact fun _ => hn
        | succ l hnl ih =>
          intro hlm
          have hf := h.follows l
          rw [ih (by omega)] at hf
          generalize c (l + 1) = c' at hf
          cases hf with
          | wait => rfl
          | leave hgo => exact absurd (hbusy l hnl (by omega)) (h.spares l hgo j).2
      refine ⟨m + 1, by omega, ?_⟩
      rw [hwait (m + 1) (by omega) (Nat.le_refl _), hended]
      rfl
    · refine ⟨n, Nat.le_refl n, ?_⟩
      rw [hn, hport]
      exact if_neg hk
  | _ =>
    refine ⟨n, Nat.le_refl n, ?_⟩
    rw [hn, hport]
    rfl

theorem exists_not_pending_of_asking (h : ClientRun own k b leave c) (hb : BusRun patient b pick go)
    (hn : c n = .calling j) (hask : (b n).hold = .asking k j) :
    ∃ m, n ≤ m ∧ (c m).pending k (b m).port = [] := by
  obtain ⟨m, hle, hack, hall⟩ := hb.exists_acking hask
  have hcall : ∀ l, n ≤ l → l ≤ m + 1 → c l = .calling j := by
    intro l hnl
    induction l, hnl using Nat.le_induction with
    | base => exact fun _ => hn
    | succ l hnl ih =>
      intro hlm
      refine h.calling_succ (ih (by omega)) ?_
      rw [hall l hnl (by omega)]
      rfl
  have hwait := h.waiting_of_acking (hcall (m + 1) (by omega) (Nat.le_refl _)) hack
  obtain ⟨m', hle', hnil⟩ := h.exists_not_pending_of_waiting hb hwait
  exact ⟨m', by omega, hnil⟩

/-- **No request is left standing** if the arbiter comes to every client that calls. -/
theorem exists_not_pending (h : ClientRun own k b leave c) (hb : BusRun patient b pick go)
    (hserve : ∀ n j, c n = .calling j → (b n).hold.Spares k →
      ∃ m j, n ≤ m ∧ c m = .calling j ∧ (b m).hold = .asking k j) (n : ℕ) :
    ∃ m, n ≤ m ∧ (c m).pending k (b m).port = [] := by
  have hcalling : ∀ n j, c n = .calling j → ∃ m, n ≤ m ∧ (c m).pending k (b m).port = [] := by
    intro n j hn
    have hat := h.at_bus n (by rw [hn]; nofun)
    rw [hn] at hat
    cases hat with
    | idle _ hh _ =>
      obtain ⟨m, j', hle, hm, hask⟩ := hserve n j hn hh
      obtain ⟨m', hle', hnil⟩ := h.exists_not_pending_of_asking hb hm hask
      exact ⟨m', by omega, hnil⟩
    | asking hh _ => exact h.exists_not_pending_of_asking hb hn hh
    | acking hh =>
      obtain ⟨m, hle, hnil⟩ := h.exists_not_pending_of_waiting hb (h.waiting_of_acking hn hh)
      exact ⟨m, by omega, hnil⟩
  cases hn : c n with
  | quiet =>
    refine ⟨n, Nat.le_refl n, ?_⟩
    rw [hn]
    rfl
  | fresh j =>
    have hf := h.follows n
    rw [hn] at hf
    have hnext : c (n + 1) = .calling j := by
      generalize c (n + 1) = c' at hf
      cases hf
      rfl
    obtain ⟨m, hle, hnil⟩ := hcalling (n + 1) j hnext
    exact ⟨m, by omega, hnil⟩
  | calling j => exact hcalling n j hn
  | waiting => exact h.exists_not_pending_of_waiting hb hn

end ClientRun

end VanetTdma.SharedBus
