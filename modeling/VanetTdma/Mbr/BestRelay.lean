import Mathlib.Data.Int.Notation
import Mathlib.Order.Lattice
import VanetTdma.Mbr.Neighbors

/-!
# The best relay of MBR (`GetDtime`, `GetnbFromsetBest`)

A relay zone is a small array of geohashes.  `GetDtime` looks a neighbour up in it and estimates, from its
direction, for how many cells it will stay in the zone; `GetnbFromsetBest` picks the neighbour that stays
longest, and stops early at one that stays for the longer side of the zone.

* `getDtime_le` — no neighbour stays longer than that, so stopping early is right;
* `bestLoop_spec` — the loop, with what it has seen;
* `getnbFromsetBest_first_max` — the address returned is that of the first neighbour with the longest stay.
-/

namespace VanetTdma.Mbr

/-! ### The relay zone -/

/-- `GeoHashSetCoordinate`: `sy` rows of `sx` geohashes. -/
structure GeoHashSetCoordinate where
  sx : ℕ
  sy : ℕ
  geohashset : ℕ → ℕ → BitVec 64
  sx_pos : 1 ≤ sx := by decide
  sy_pos : 1 ≤ sy := by decide

/-- The dwelling time at row `i` and column `j`, by the direction in degrees. -/
def dwell (set : GeoHashSetCoordinate) (direct : BitVec 16) (i j : ℕ) : Option ℤ :=
  if 45 ≤ direct.toNat ∧ direct.toNat < 135 then some (set.sx - j) -- east
  else if 225 ≤ direct.toNat ∧ direct.toNat < 315 then some (j + 1) -- west
  else if 135 ≤ direct.toNat ∧ direct.toNat < 225 then some (set.sy - i) -- south
  else if 315 ≤ direct.toNat ∨ direct.toNat < 45 then some (i + 1) -- north
  else none

/-- `GetDtime`. -/
def getDtime (geohash : BitVec 64) (direct : BitVec 16) (set : GeoHashSetCoordinate) : ℤ :=
  if set.sx ≠ 3 ∧ set.sy ≠ 3 then -1
  else
    ((List.range set.sy).findSome? fun i =>
      (List.range set.sx).findSome? fun j =>
        if geohash = set.geohashset i j then dwell set direct i j else none).getD (-1)

def Neighbor.dtime (n : Neighbor) (set : GeoHashSetCoordinate) : ℤ := getDtime n.geohash n.direction set

/-- The loop of `GetnbFromsetBest`, with `dtime_best` and `best`. -/
def bestLoop (set : GeoHashSetCoordinate) (dtimeMax : ℤ) : List Neighbor → ℤ → Mac → Option Mac
  | [], dtimeBest, best => if 0 < dtimeBest then some best else none
  | n :: nb, dtimeBest, best =>
    if n.dtime set = dtimeMax then some n.hardwareAddress
    else if dtimeBest < n.dtime set then bestLoop set dtimeMax nb (n.dtime set) n.hardwareAddress
    else bestLoop set dtimeMax nb dtimeBest best

/-- `GetnbFromsetBest`: the address with the return value 1, or `none` with the return value 0. -/
def getnbFromsetBest (now : ℕ) (set : GeoHashSetCoordinate) (nb : List Neighbor) : Option Mac :=
  if set.sx ≠ 3 ∧ set.sy ≠ 3 then none
  else
    bestLoop set (if set.sx > set.sy then set.sx else set.sy : ℕ) (purge now nb) 0 fun _ => 0

/-! ### The bound on the dwelling time -/

theorem dwell_le {set : GeoHashSetCoordinate} {direct : BitVec 16} {i j : ℕ} {d : ℤ} (hi : i < set.sy)
    (hj : j < set.sx) (h : dwell set direct i j = some d) : d ≤ (max set.sx set.sy : ℕ) := by
  unfold dwell at h
  split at h
  · cases h
    omega
  · split at h
    · cases h
      omega
    · split at h
      · cases h
        omega
      · split at h
        · cases h
          omega
        · cases h

/-- **No neighbour stays longer** than the longer side of the zone. -/
theorem getDtime_le (geohash : BitVec 64) (direct : BitVec 16) (set : GeoHashSetCoordinate) :
    getDtime geohash direct set ≤ (max set.sx set.sy : ℕ) := by
  have hneg : (-1 : ℤ) ≤ (max set.sx set.sy : ℕ) := by omega
  unfold getDtime
  split
  · exact hneg
  · cases hfind : (List.range set.sy).findSome? fun i => (List.range set.sx).findSome? fun j =>
        if geohash = set.geohashset i j then dwell set direct i j else none with
    | none => exact hneg
    | some d =>
      obtain ⟨i, hi, hrow⟩ := List.exists_of_findSome?_eq_some hfind
      obtain ⟨j, hj, hcell⟩ := List.exists_of_findSome?_eq_some hrow
      split at hcell
      · exact dwell_le (List.mem_range.mp hi) (List.mem_range.mp hj) hcell
      · cases hcell

/-! ### The first maximum of a list -/

section firstMax

variable {α : Type*} {f : α → ℤ} {l : List α} {x y : α}

/-- `x` is the first element of the list at which `f` is largest. -/
def FirstMax (f : α → ℤ) (l : List α) (x : α) : Prop :=
  ∃ pre post, l = pre ++ x :: post ∧ (∀ y ∈ pre, f y < f x) ∧ ∀ y ∈ post, f y ≤ f x

theorem FirstMax.mem (h : FirstMax f l x) : x ∈ l := by
  obtain ⟨pre, post, rfl, -, -⟩ := h
  exact List.mem_append_right pre List.mem_cons_self

theorem FirstMax.le (h : FirstMax f l x) (hy : y ∈ l) : f y ≤ f x := by
  obtain ⟨pre, post, rfl, hpre, hpost⟩ := h
  rcases List.mem_append.mp hy with hy | hy
  · exact (hpre y hy).le
  · rcases List.mem_cons.mp hy with rfl | hy
    · exact le_rfl
    · exact hpost y hy

theorem FirstMax.append {l' : List α} (h : FirstMax f l x) (hl' : ∀ y ∈ l', f y ≤ f x) :
    FirstMax f (l ++ l') x := by
  obtain ⟨pre, post, rfl, hpre, hpost⟩ := h
  refine ⟨pre, post ++ l', by simp, hpre, fun y hy => ?_⟩
  rcases List.mem_append.mp hy with hy | hy
  · exact hpost y hy
  · exact hl' y hy

theorem firstMax_concat (h : ∀ y ∈ l, f y < f x) : FirstMax f (l ++ [x]) x :=
  ⟨l, [], rfl, h, fun _ hy => by cases hy⟩

end firstMax

/-! ### The search -/

section search

variable {set : GeoHashSetCoordinate} {seen : List Neighbor} {dtimeBest : ℤ} {best : Mac}

/-- What `dtime_best` and `best` say of the neighbours seen so far. -/
structure Best (set : GeoHashSetCoordinate) (seen : List Neighbor) (dtimeBest : ℤ) (best : Mac) : Prop where
  nonneg : 0 ≤ dtimeBest
  le : ∀ n ∈ seen, n.dtime set ≤ dtimeBest
  found : 0 < dtimeBest → ∃ n, FirstMax (Neighbor.dtime · set) seen n ∧ n.dtime set = dtimeBest ∧
    n.hardwareAddress = best

theorem Best.better {n : Neighbor} (h : Best set seen dtimeBest best) (hlt : dtimeBest < n.dtime set) :
    Best set (seen ++ [n]) (n.dtime set) n.hardwareAddress where
  nonneg := h.nonneg.trans hlt.le
  le m hm := by
    rcases List.mem_append.mp hm with hm | hm
    · exact (h.le m hm).trans hlt.le
    · rw [List.mem_singleton.mp hm]
  found _ := ⟨n, firstMax_concat fun m hm => lt_of_le_of_lt (h.le m hm) hlt, rfl, rfl⟩

theorem Best.notBetter {n : Neighbor} (h : Best set seen dtimeBest best) (hle : n.dtime set ≤ dtimeBest) :
    Best set (seen ++ [n]) dtimeBest best where
  nonneg := h.nonneg
  le m hm := by
    rcases List.mem_append.mp hm with hm | hm
    · exact h.le m hm
    · rw [List.mem_singleton.mp hm]
      exact hle
  found hpos := by
    obtain ⟨m, hmax, hdtime, hmac⟩ := h.found hpos
    refine ⟨m, hmax.append fun k hk => ?_, hdtime, hmac⟩
    rw [List.mem_singleton.mp hk, hdtime]
    exact hle

/-- The answer to the search among the neighbours `nb`. -/
structure Answers (set : GeoHashSetCoordinate) (nb : List Neighbor) (mac : Option Mac) : Prop where
  isSome_iff : mac.isSome ↔ ∃ n ∈ nb, 0 < n.dtime set
  first : ∀ a, mac = some a → ∃ n, FirstMax (Neighbor.dtime · set) nb n ∧ n.hardwareAddress = a

theorem answers_some {n : Neighbor} (hmax : FirstMax (Neighbor.dtime · set) nb n) (hpos : 0 < n.dtime set) :
    Answers set nb (some n.hardwareAddress) where
  isSome_iff := iff_of_true rfl ⟨n, hmax.mem, hpos⟩
  first _ ha := ⟨n, hmax, Option.some.inj ha⟩

/-- **The loop**, by induction on the neighbours that are left: stopping at `dtimeMax` is right because nobody
stays longer, and everybody seen before stays shorter. -/
theorem bestLoop_spec (nb : List Neighbor) {dtimeMax : ℤ} (hpos : 0 < dtimeMax)
    (hbound : ∀ n : Neighbor, n.dtime set ≤ dtimeMax) (h : Best set seen dtimeBest best) (hlt : dtimeBest < dtimeMax) :
    Answers set (seen ++ nb) (bestLoop set dtimeMax nb dtimeBest best) := by
  induction nb generalizing seen dtimeBest best with
  | nil =>
    rw [bestLoop, List.append_nil]
    split
    · rename_i hbest
      obtain ⟨n, hmax, hdtime, rfl⟩ := h.found hbest
      exact answers_some hmax (hdtime ▸ hbest)
    · rename_i hbest
      refine ⟨iff_of_false Bool.false_ne_true ?_, fun a ha => by cases ha⟩
      rintro ⟨n, hn, hn0⟩
      exact hbest (lt_of_lt_of_le hn0 (h.le n hn))
  | cons n nb ih =>
    rw [bestLoop]
    split
    · rename_i htop
      have hseen : ∀ m ∈ seen, m.dtime set < n.dtime set := by
        intro m hm
        rw [htop]
        exact lt_of_le_of_lt (h.le m hm) hlt
      have hrest : ∀ m ∈ nb, m.dtime set ≤ n.dtime set := by
        intro m _
        rw [htop]
        exact hbound m
      have hmax : FirstMax (Neighbor.dtime · set) (seen ++ n :: nb) n := ⟨seen, nb, rfl, hseen, hrest⟩
      exact answers_some hmax (htop ▸ hpos)
    · rename_i htop
      have hsplit : seen ++ n :: nb = (seen ++ [n]) ++ nb := by simp
      rw [hsplit]
      split
      · rename_i hbetter
        exact ih (h.better hbetter) (lt_of_le_of_ne (hbound n) htop)
      · rename_i hbetter
        exact ih (h.notBetter (not_lt.mp hbetter)) hlt

end search

/-- **The best relay.**  For every table and every zone with a side of three cells, `GetnbFromsetBest` succeeds
exactly when some neighbour that is left after the purge has a positive dwelling time, and it then returns the
address of the first neighbour of the table with the longest one. -/
theorem getnbFromsetBest_first_max (now : ℕ) (set : GeoHashSetCoordinate) (nb : List Neighbor)
    (hset : set.sx = 3 ∨ set.sy = 3) :
    ((getnbFromsetBest now set nb).isSome ↔ ∃ n ∈ purge now nb, 0 < n.dtime set) ∧
      ∀ mac, getnbFromsetBest now set nb = some mac →
        ∃ n, FirstMax (Neighbor.dtime · set) (purge now nb) n ∧ n.hardwareAddress = mac := by
  have hmax : (if set.sx > set.sy then set.sx else set.sy) = max set.sx set.sy := by
    split
    · omega
    · omega
  have hside := set.sx_pos
  have hpos : (0 : ℤ) < (max set.sx set.sy : ℕ) := by omega
  have hnone : Best set [] 0 fun _ => 0 :=
    ⟨le_rfl, List.forall_mem_nil _, fun h => absurd h (lt_irrefl 0)⟩
  have hanswers := bestLoop_spec (purge now nb) hpos (fun n => getDtime_le n.geohash n.direction set)
    hnone hpos
  have hdef : getnbFromsetBest now set nb
      = bestLoop set (max set.sx set.sy : ℕ) (purge now nb) 0 fun _ => 0 := by
    rw [getnbFromsetBest, if_neg (by omega), hmax]
  rw [hdef]
  exact ⟨hanswers.isSome_iff, hanswers.first⟩

/-- A zone of three cells in a row, and a neighbour in one of them. -/
def rowZone : GeoHashSetCoordinate where
  sx := 3
  sy := 1
  geohashset _ j := BitVec.ofNat 64 (10 + j)

def inCell (geohash direction : ℕ) (mac : UInt8) : Neighbor where
  ipAddress := 1
  hardwareAddress := fun _ => mac
  expireTime := 100
  settingTime := 0
  geohash := BitVec.ofNat 64 geohash
  direction := BitVec.ofNat 16 direction
  x := 0
  y := 0

/-- Of two neighbours on their way east the one with the longer way left is chosen. -/
theorem getnbFromsetBest_first_max_row :
    ∃ n, FirstMax (Neighbor.dtime · rowZone) (purge 0 [inCell 12 90 1, inCell 11 90 2]) n ∧
      n.hardwareAddress = fun _ => 2 :=
  (getnbFromsetBest_first_max 0 rowZone _ (Or.inl rfl)).2 _ (by decide)

end VanetTdma.Mbr
