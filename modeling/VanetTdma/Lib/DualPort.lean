import Mathlib.Logic.Function.Basic
import Mathlib.Tactic.Common

/-!
# A true dual-port block memory

Two ports share the cells of one memory and one clock.  Each port has a registered output: what is
read at an edge is the addressed cell as it was before that edge, and a port that writes reads back
what it writes.  Where both ports meet at one address and one of them writes, the device promises
nothing about the other port's output, and nothing about the cell when both write; these values are
taken from an oracle (`Clash`).

* `tick_cell_write_a`, `tick_cell_write_b`, `tick_cell_of_quiet` — what an edge stores;
* `tick_doutA`, `tick_doutB` — what a port reads where the other does not interfere.
-/

namespace VanetTdma.DualPort

variable {A D : Type*}

/-- The signals of one port before an edge. -/
structure Port (A D : Type*) where
  addr : A
  we : Bool
  din : D

/-- The cells and the two output registers. -/
structure Ram (A D : Type*) where
  cell : A → D
  doutA : D
  doutB : D

/-- What the device leaves open when the ports meet. -/
structure Clash (D : Type*) where
  stored : D
  readA : D
  readB : D

/-- The port writes the cell `k`. -/
def Port.Writes (p : Port A D) (k : A) : Prop := p.we = true ∧ p.addr = k

theorem Port.not_writes_of_we {a : Port A D} (h : a.we = false) (k : A) : ¬ a.Writes k := by
  rintro ⟨hwe, -⟩
  rw [h] at hwe
  exact Bool.false_ne_true hwe

variable [DecidableEq A]

instance (p : Port A D) (k : A) : Decidable (p.Writes k) :=
  inferInstanceAs (Decidable (_ ∧ _))

def Ram.tick (m : Ram A D) (a b : Port A D) (x : Clash D) : Ram A D where
  cell k :=
    if a.Writes k then (if b.Writes k then x.stored else a.din)
    else if b.Writes k then b.din
    else m.cell k
  doutA := if b.Writes a.addr then x.readA else if a.we then a.din else m.cell a.addr
  doutB := if a.Writes b.addr then x.readB else if b.we then b.din else m.cell b.addr

variable {m : Ram A D} {a b : Port A D} {x : Clash D} {k : A}

theorem tick_cell_write_a (ha : a.Writes k) (hb : ¬ b.Writes k) : (m.tick a b x).cell k = a.din := by
  simp only [Ram.tick, if_pos ha, if_neg hb]

theorem tick_cell_write_b (ha : ¬ a.Writes k) (hb : b.Writes k) : (m.tick a b x).cell k = b.din := by
  simp only [Ram.tick, if_neg ha, if_pos hb]

theorem tick_cell_of_quiet (ha : ¬ a.Writes k) (hb : ¬ b.Writes k) :
    (m.tick a b x).cell k = m.cell k := by
  simp only [Ram.tick, if_neg ha, if_neg hb]

theorem tick_doutA (hwe : a.we = false) (hb : ¬ b.Writes a.addr) :
    (m.tick a b x).doutA = m.cell a.addr := by
  simp only [Ram.tick, if_neg hb, hwe, Bool.false_eq_true, if_false]

theorem tick_doutB (ha : ¬ a.Writes b.addr) (hwe : b.we = false) :
    (m.tick a b x).doutB = m.cell b.addr := by
  simp only [Ram.tick, if_neg ha, hwe, Bool.false_eq_true, if_false]

end VanetTdma.DualPort
