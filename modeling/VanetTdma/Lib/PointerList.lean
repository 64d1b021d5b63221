import Mathlib.Data.List.Nodup
import Mathlib.Logic.Function.Basic
import Mathlib.Logic.Relation

/-!
# Singly linked lists in a store

A store maps addresses to cells, and a cell is a value with a link to the next cell; `none` is the null
pointer as a link and a cell that does not exist as an entry of the store.  `Linked mem cells` says that the
cells of the list lie in the store one behind the other, the last one with a null link.

* `Linked.congr` — the frame rule: only the cells of the list matter;
* `Linked.snoc` — linking a new cell behind the last one;
* `Linked.unlink` — taking the second cell out and freeing it;
* `Linked.reaches_last` — the last cell is the end of the links from the first one.
-/

namespace VanetTdma.PointerList

variable {α : Type*}

/-- A value with the address of the next cell. -/
structure Cell (α : Type*) where
  val : α
  next : Option ℕ

/-- The cells that exist, by address. -/
abbrev Store (α : Type*) := ℕ → Option (Cell α)

def firstAddr (cells : List (ℕ × α)) : Option ℕ := cells.head?.map Prod.fst

/-- The cells, given by address and value, lie in the store one behind the other. -/
def Linked (mem : Store α) : List (ℕ × α) → Prop
  | [] => True
  | c :: cells => mem c.1 = some ⟨c.2, firstAddr cells⟩ ∧ Linked mem cells

def Link (mem : Store α) (a b : ℕ) : Prop := ∃ c, mem a = some c ∧ c.next = some b

/-- `b` is where the links from `a` end. -/
structure EndsAt (mem : Store α) (a b : ℕ) : Prop where
  reaches : Relation.ReflTransGen (Link mem) a b
  stop : ∃ c, mem b = some c ∧ c.next = none

variable {mem mem' : Store α} {cells : List (ℕ × α)} {c d : ℕ × α} {a : ℕ}

/-- **The frame rule.** -/
theorem Linked.congr (h : Linked mem cells) (heq : ∀ c ∈ cells, mem' c.1 = mem c.1) : Linked mem' cells := by
  induction cells with
  | nil => trivial
  | cons c cells ih =>
    refine ⟨?_, ih h.2 fun d hd => heq d (List.mem_cons_of_mem c hd)⟩
    rw [heq c List.mem_cons_self]
    exact h.1

theorem Linked.exists_cell (h : Linked mem cells) (hc : c ∈ cells) : ∃ n, mem c.1 = some ⟨c.2, n⟩ := by
  induction cells with
  | nil => cases hc
  | cons d cells ih =>
    rcases List.mem_cons.mp hc with rfl | hmem
    · exact ⟨_, h.1⟩
    · exact ih h.2 hmem

theorem Linked.not_mem (h : Linked mem cells) (ha : mem a = none) : a ∉ cells.map Prod.fst := by
  intro hmem
  obtain ⟨c, hc, rfl⟩ := List.mem_map.mp hmem
  obtain ⟨n, hn⟩ := h.exists_cell hc
  rw [ha] at hn
  cases hn

theorem Linked.update (h : Linked mem cells) (ha : a ∉ cells.map Prod.fst) (x : Option (Cell α)) :
    Linked (Function.update mem a x) cells := by
  refine h.congr fun c hc => Function.update_of_ne ?_ _ _
  rintro rfl
  exact ha (List.mem_map_of_mem hc)

/-- **A new cell behind the last one.** -/
theorem Linked.snoc (h : Linked mem (cells ++ [c])) (hnodup : ((cells ++ [c]).map Prod.fst).Nodup)
    (hd : d.1 ∉ (cells ++ [c]).map Prod.fst) :
    Linked (Function.update (Function.update mem d.1 (some ⟨d.2, none⟩)) c.1 (some ⟨c.2, some d.1⟩))
      (cells ++ [c] ++ [d]) := by
  have hne : c.1 ≠ d.1 := by
    intro heq
    exact hd (by simp [← heq])
  induction cells with
  | nil =>
    refine ⟨Function.update_self _ _ _, ?_, trivial⟩
    rw [Function.update_of_ne hne.symm, Function.update_self]
    rfl
  | cons b cells ih =>
    rw [List.cons_append, List.map_cons, List.nodup_cons] at hnodup
    rw [List.cons_append, List.map_cons, List.mem_cons, not_or] at hd
    have hlast : c.1 ∈ (cells ++ [c]).map Prod.fst := by simp
    have hbc : b.1 ≠ c.1 := fun heq => hnodup.1 (heq ▸ hlast)
    refine ⟨?_, ih h.2 hnodup.2 hd.2⟩
    -- the first cell keeps its link, since the list behind it only grows at the end
    have hfirst : firstAddr (cells ++ [c] ++ [d]) = firstAddr (cells ++ [c]) := by
      cases cells with
      | nil => rfl
      | cons e cells => rfl
    rw [Function.update_of_ne hbc, Function.update_of_ne (Ne.symm hd.1)]
    show mem b.1 = some ⟨b.2, firstAddr (cells ++ [c] ++ [d])⟩
    rw [hfirst]
    exact h.1

/-- **The second cell is taken out and freed.** -/
theorem Linked.unlink (h : Linked mem (c :: d :: cells))
    (hnodup : ((c :: d :: cells).map Prod.fst).Nodup) :
    Linked (Function.update (Function.update mem c.1 (some ⟨c.2, firstAddr cells⟩)) d.1 none)
      (c :: cells) := by
  simp only [List.map_cons, List.nodup_cons, List.mem_cons, not_or] at hnodup
  obtain ⟨⟨hcd, hc⟩, hd, -⟩ := hnodup
  refine ⟨?_, (h.2.2.update hc _).update hd _⟩
  rw [Function.update_of_ne hcd, Function.update_self]

theorem Linked.reaches_last (h : Linked mem (c :: cells))
    (hlast : ((c :: cells).map Prod.fst).getLast? = some a) : EndsAt mem c.1 a := by
  induction cells generalizing c with
  | nil =>
    cases hlast
    exact ⟨Relation.ReflTransGen.refl, ⟨_, h.1, rfl⟩⟩
  | cons d cells ih =>
    have hlink : Link mem c.1 d.1 := ⟨_, h.1, rfl⟩
    obtain ⟨hreach, hstop⟩ := ih h.2 hlast
    exact ⟨Relation.ReflTransGen.head hlink hreach, hstop⟩

end VanetTdma.PointerList
