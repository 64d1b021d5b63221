import Mathlib.Data.List.Nodup
import Mathlib.Data.Fintype.Pi
import VanetTdma.Mbr.Header

/-!
# The neighbour table of MBR (`neighbor.cc`)

A node keeps one entry for each station it has heard a hello of.  `update` changes the entry in place if
there is one and appends a new one otherwise; expired entries stay in the vector until the next `purge`.
Times are nanoseconds of simulation time, and the coordinates, of type `double`, are words.

What the table is for is said by `lastHello`, a map from stations to the last hello heard of them:
`Shows` compares the table with it.

* `Inv.step` — the table follows the map in its stations, times and positions;
* `Faithful.step` — and in geohash and direction, as long as these do not change while an entry exists;
* `query_position` — a query is answered with the position of the last hello;
* `shows_iff` — the table shows the latest hellos in a run exactly if the run is of that kind.
-/

namespace VanetTdma.Mbr

/-! ### The table -/

/-- `Mac48Address`. -/
abbrev Mac := Fin 6 → UInt8

/-- What `Update` is told of a hello. -/
structure Hello where
  origin : BitVec 32
  mac : Mac
  geohash : BitVec 64
  direction : BitVec 16
  x : BitVec 64
  y : BitVec 64

/-- `struct Neighbor`. -/
structure Neighbor where
  ipAddress : BitVec 32
  hardwareAddress : Mac
  expireTime : ℕ
  settingTime : ℕ
  close : Bool := false
  geohash : BitVec 64
  direction : BitVec 16
  x : BitVec 64
  y : BitVec 64

/-- `CloseNeighbor`. -/
def closeNeighbor (now : ℕ) (n : Neighbor) : Bool := n.expireTime < now ∨ n.close

/-- `Purge`. -/
def purge (now : ℕ) (nb : List Neighbor) : List Neighbor := nb.filter fun n => !closeNeighbor now n

/-- The entry of a station that is heard again. -/
def Neighbor.refresh (n : Neighbor) (expire now : ℕ) (h : Hello) : Neighbor :=
  { n with
    expireTime := max (expire + now) n.expireTime
    settingTime := now
    hardwareAddress := if n.hardwareAddress = (fun _ => 0) then h.mac else n.hardwareAddress
    x := h.x
    y := h.y }

/-- The loop of `Update`: the first entry with the address is rewritten, if there is one. -/
def refreshFirst (a : BitVec 32) (f : Neighbor → Neighbor) : List Neighbor → Option (List Neighbor)
  | [] => none
  | n :: nb => if n.ipAddress = a then some (f n :: nb) else (refreshFirst a f nb).map (n :: ·)

/-- The entry of a station that is new. -/
def Hello.neighbor (h : Hello) (expire now : ℕ) : Neighbor where
  ipAddress := h.origin
  hardwareAddress := h.mac
  expireTime := expire + now
  settingTime := now
  geohash := h.geohash
  direction := h.direction
  x := h.x
  y := h.y

/-- `Update`. -/
def update (expire now : ℕ) (h : Hello) (nb : List Neighbor) : List Neighbor :=
  match refreshFirst h.origin (fun n => n.refresh expire now h) nb with
  | some nb' => nb'
  | none => purge now (nb ++ [h.neighbor expire now])

/-- `ReceiveWavePacket`: the header is read into a fresh object `h₀`; `widen` is the conversion from
`float` to `double`. -/
def receiveWavePacket (widen : BitVec 32 → BitVec 64) (expire now : ℕ) (h₀ : MbrHeader)
    (packet : List UInt8) (nb : List Neighbor) : Option (List Neighbor) :=
  (h₀.deserialize.run packet).map fun r =>
    update expire now
      ⟨r.1.origin, r.1.mac, r.1.geohash, r.1.direction, widen r.1.longitude, widen r.1.latitude⟩ nb

theorem receiveWavePacket_serialize (widen : BitVec 32 → BitVec 64) (expire now : ℕ) (h h₀ : MbrHeader)
    (rest : List UInt8) (nb : List Neighbor) :
    receiveWavePacket widen expire now h₀ (h.serialize ++ rest) nb
      = some (update expire now
          ⟨h.origin, h.mac, h.geohash, h₀.direction, widen h.longitude, widen h.latitude⟩ nb) := by
  rw [receiveWavePacket, h.reads_serialize h₀ rest]
  rfl

/-! ### Runs -/

/-- What happens to a table: a hello, or a purge by the timer or before a query. -/
inductive Event where
  | hello (h : Hello)
  | purge

/-- The table after an event at time `e.1`. -/
def step (expire : ℕ) (nb : List Neighbor) (e : ℕ × Event) : List Neighbor :=
  match e.2 with
  | .hello h => update expire e.1 h nb
  | .purge => Mbr.purge e.1 nb

def tableAfter (expire : ℕ) (es : List (ℕ × Event)) : List Neighbor := es.foldl (step expire) []

abbrev Heard := BitVec 32 → Option (ℕ × Hello)

def Heard.step (last : Heard) (e : ℕ × Event) : Heard :=
  match e.2 with
  | .hello h => Function.update last h.origin (some (e.1, h))
  | .purge => last

def lastHello (es : List (ℕ × Event)) : Heard := es.foldl Heard.step fun _ => none

/-- The entry carries what the hello said. -/
structure Carries (n : Neighbor) (h : Hello) : Prop where
  geohash : n.geohash = h.geohash
  direction : n.direction = h.direction
  x : n.x = h.x
  y : n.y = h.y

def entries (nb : List Neighbor) (a : BitVec 32) : List Neighbor := nb.filter fun n => n.ipAddress = a

/-- At time `t` the table has one entry for each station whose last hello is not older than `expire`,
with what that hello said, and none for another station. -/
structure Shows (expire t : ℕ) (last : Heard) (nb : List Neighbor) : Prop where
  fresh : ∀ a t₀ h, last a = some (t₀, h) → t ≤ t₀ + expire → ∃ n, entries nb a = [n] ∧ Carries n h
  old : ∀ a, (∀ t₀ h, last a = some (t₀, h) → t₀ + expire < t) → entries nb a = []

/-! ### The loop of `Update` -/

section refreshFirst

variable {a : BitVec 32} {f : Neighbor → Neighbor} {nb : List Neighbor}

theorem refreshFirst_eq_none (h : a ∉ nb.map Neighbor.ipAddress) : refreshFirst a f nb = none := by
  induction nb with
  | nil => rfl
  | cons n nb ih =>
    rw [List.map_cons, List.mem_cons, not_or] at h
    rw [refreshFirst, if_neg (Ne.symm h.1), ih h.2]
    rfl

/-- With one entry per station the loop is a map. -/
theorem refreshFirst_eq_some (hnodup : (nb.map Neighbor.ipAddress).Nodup)
    (h : a ∈ nb.map Neighbor.ipAddress) :
    refreshFirst a f nb = some (nb.map fun n => if n.ipAddress = a then f n else n) := by
  induction nb with
  | nil => simp at h
  | cons n nb ih =>
    rw [List.map_cons, List.nodup_cons] at hnodup
    rw [refreshFirst, List.map_cons]
    split
    · rename_i hn
      -- no later entry has the address
      have hrest : nb.map (fun n => if n.ipAddress = a then f n else n) = nb := by
        conv_rhs => rw [← List.map_id nb]
        refine List.map_congr_left fun m hm => if_neg ?_
        rintro rfl
        exact hnodup.1 (hn ▸ List.mem_map_of_mem hm)
      rw [hrest]
    · rename_i hn
      have htail : a ∈ nb.map Neighbor.ipAddress := by
        rcases List.mem_cons.mp h with heq | htail
        · exact absurd heq.symm hn
        · exact htail
      rw [ih hnodup.2 htail]
      rfl

end refreshFirst

/-! ### What the table keeps in step with the hellos -/

/-- Stations, times and positions of the table follow the last hellos, up to time `now`. -/
structure Inv (expire now : ℕ) (last : Heard) (nb : List Neighbor) : Prop where
  nodup : (nb.map Neighbor.ipAddress).Nodup
  entry : ∀ n ∈ nb, n.close = false ∧ ∃ t h, last n.ipAddress = some (t, h) ∧
    n.expireTime = t + expire ∧ n.x = h.x ∧ n.y = h.y
  present : ∀ a t h, last a = some (t, h) → now ≤ t + expire → a ∈ nb.map Neighbor.ipAddress
  past : ∀ a t h, last a = some (t, h) → t ≤ now

/-- Geohash and direction of the table follow the last hellos. -/
def Faithful (last : Heard) (nb : List Neighbor) : Prop :=
  ∀ n ∈ nb, ∀ t h, last n.ipAddress = some (t, h) → n.geohash = h.geohash ∧ n.direction = h.direction

/-- The hello of a station with an entry repeats the entry's geohash and direction. -/
def Steady (nb : List Neighbor) : Event → Prop
  | .hello h => ∀ n ∈ nb, n.ipAddress = h.origin → n.geohash = h.geohash ∧ n.direction = h.direction
  | .purge => True

section step

variable {expire now t : ℕ} {last : Heard} {nb : List Neighbor}

theorem mem_purge {n : Neighbor} : n ∈ purge t nb ↔ n ∈ nb ∧ t ≤ n.expireTime ∧ n.close = false := by
  simp [purge, closeNeighbor]

theorem map_purge_sublist :
    ((purge t nb).map Neighbor.ipAddress).Sublist (nb.map Neighbor.ipAddress) :=
  List.filter_sublist.map _

theorem Inv.purge (h : Inv expire now last nb) (ht : now ≤ t) : Inv expire t last (purge t nb) where
  nodup := h.nodup.sublist map_purge_sublist
  entry := fun n hn => h.entry n (mem_purge.mp hn).1
  present := by
    intro a t₀ g hlast hfresh
    obtain ⟨n, hn, rfl⟩ := List.mem_map.mp (h.present a t₀ g hlast (Nat.le_trans ht hfresh))
    obtain ⟨hclose, t₁, g₁, hlast₁, hexp, -⟩ := h.entry n hn
    rw [hlast, Option.some.injEq, Prod.mk.injEq] at hlast₁
    refine List.mem_map.mpr ⟨n, mem_purge.mpr ⟨hn, ?_, hclose⟩, rfl⟩
    rw [hexp, ← hlast₁.1]
    exact hfresh
  past := fun a t₀ g hlast => Nat.le_trans (h.past a t₀ g hlast) ht

theorem update_of_mem {h : Hello} (hnodup : (nb.map Neighbor.ipAddress).Nodup)
    (hmem : h.origin ∈ nb.map Neighbor.ipAddress) :
    update expire t h nb
      = nb.map fun n => if n.ipAddress = h.origin then n.refresh expire t h else n := by
  rw [update, refreshFirst_eq_some hnodup hmem]

theorem update_of_not_mem {h : Hello} (hmem : h.origin ∉ nb.map Neighbor.ipAddress) :
    update expire t h nb = Mbr.purge t (nb ++ [h.neighbor expire t]) := by
  rw [update, refreshFirst_eq_none hmem]

theorem Inv.append {h : Hello} (hinv : Inv expire now last nb) (ht : now ≤ t)
    (hmem : h.origin ∉ nb.map Neighbor.ipAddress) :
    Inv expire t (Function.update last h.origin (some (t, h))) (nb ++ [h.neighbor expire t]) where
  nodup := by
    rw [List.map_append]
    exact List.concat_eq_append ▸ hinv.nodup.concat hmem
  entry := by
    intro n hn
    rcases List.mem_append.mp hn with hn | hn
    · have hne : n.ipAddress ≠ h.origin := fun heq => hmem (heq ▸ List.mem_map_of_mem hn)
      rw [Function.update_of_ne hne]
      exact hinv.entry n hn
    · rw [List.mem_singleton] at hn
      subst hn
      refine ⟨rfl, t, h, Function.update_self .., Nat.add_comm .., rfl, rfl⟩
  present := by
    intro a t₀ g hlast hfresh
    rw [List.map_append, List.mem_append]
    by_cases ha : a = h.origin
    · exact .inr (by simp [ha, Hello.neighbor])
    · rw [Function.update_of_ne ha] at hlast
      exact .inl (hinv.present a t₀ g hlast (Nat.le_trans ht hfresh))
  past := by
    intro a t₀ g hlast
    by_cases ha : a = h.origin
    · rw [ha, Function.update_self, Option.some.injEq, Prod.mk.injEq] at hlast
      exact Nat.le_of_eq hlast.1.symm
    · rw [Function.update_of_ne ha] at hlast
      exact Nat.le_trans (hinv.past a t₀ g hlast) ht

theorem Inv.rewrite {h : Hello} (hinv : Inv expire now last nb) (ht : now ≤ t)
    (hmem : h.origin ∈ nb.map Neighbor.ipAddress) :
    Inv expire t (Function.update last h.origin (some (t, h)))
      (nb.map fun n => if n.ipAddress = h.origin then n.refresh expire t h else n) := by
  have haddr : (nb.map fun n => if n.ipAddress = h.origin then n.refresh expire t h else n).map
      Neighbor.ipAddress = nb.map Neighbor.ipAddress := by
    rw [List.map_map]
    refine List.map_congr_left fun n _ => ?_
    simp only [Function.comp_apply]
    split
    · rfl
    · rfl
  refine ⟨haddr ▸ hinv.nodup, fun n hn => ?_, fun a t₀ g hlast hfresh => ?_, fun a t₀ g hlast => ?_⟩
  · obtain ⟨m, hm, rfl⟩ := List.mem_map.mp hn
    obtain ⟨hclose, t₀, g, hlast, hexp, hpos⟩ := hinv.entry m hm
    split
    · rename_i heq
      -- the clock does not go back, so the new end of life is the later one
      have hpast := hinv.past _ _ _ hlast
      refine ⟨hclose, t, h, ?_, ?_, rfl, rfl⟩
      · show Function.update last h.origin _ m.ipAddress = _
        rw [heq, Function.update_self]
      · show max (expire + t) m.expireTime = t + expire
        omega
    · rename_i hne
      refine ⟨hclose, t₀, g, ?_, hexp, hpos⟩
      rwa [Function.update_of_ne hne]
  · rw [haddr]
    by_cases ha : a = h.origin
    · exact ha ▸ hmem
    · rw [Function.update_of_ne ha] at hlast
      exact hinv.present a t₀ g hlast (Nat.le_trans ht hfresh)
  · by_cases ha : a = h.origin
    · rw [ha, Function.update_self, Option.some.injEq, Prod.mk.injEq] at hlast
      exact Nat.le_of_eq hlast.1.symm
    · rw [Function.update_of_ne ha] at hlast
      exact Nat.le_trans (hinv.past a t₀ g hlast) ht

/-- **One event**: stations, times and positions stay in step with the hellos. -/
theorem Inv.step (hinv : Inv expire now last nb) (e : ℕ × Event) (ht : now ≤ e.1) :
    Inv expire e.1 (last.step e) (step expire nb e) := by
  obtain ⟨t, ev⟩ := e
  cases ev with
  | purge => exact hinv.purge ht
  | hello h =>
    show Inv expire t (Function.update last h.origin (some (t, h))) (update expire t h nb)
    by_cases hmem : h.origin ∈ nb.map Neighbor.ipAddress
    · rw [update_of_mem hinv.nodup hmem]
      exact hinv.rewrite ht hmem
    · rw [update_of_not_mem hmem]
      exact (hinv.append ht hmem).purge (Nat.le_refl t)

/-- **One event**: geohash and direction stay in step if the event is steady. -/
theorem Faithful.step (hf : Faithful last nb) (hinv : Inv expire now last nb) (e : ℕ × Event)
    (hsteady : Steady nb e.2) : Faithful (last.step e) (step expire nb e) := by
  obtain ⟨t, ev⟩ := e
  cases ev with
  | purge => exact fun n hn => hf n (mem_purge.mp hn).1
  | hello h =>
    intro n hn t₀ g hlast
    change n ∈ update expire t h nb at hn
    change Function.update last h.origin (some (t, h)) n.ipAddress = some (t₀, g) at hlast
    by_cases hmem : h.origin ∈ nb.map Neighbor.ipAddress
    · rw [update_of_mem hinv.nodup hmem] at hn
      obtain ⟨m, hm, rfl⟩ := List.mem_map.mp hn
      split at hlast
      · rename_i heq
        have hsame : (m.refresh expire t h).ipAddress = h.origin := heq
        rw [hsame, Function.update_self, Option.some.injEq, Prod.mk.injEq] at hlast
        rw [if_pos heq, ← hlast.2]
        exact hsteady m hm heq
      · rename_i hne
        rw [Function.update_of_ne hne] at hlast
        rw [if_neg hne]
        exact hf m hm t₀ g hlast
    · rw [update_of_not_mem hmem] at hn
      rcases List.mem_append.mp (mem_purge.mp hn).1 with hn | hn
      · have hne : n.ipAddress ≠ h.origin := fun heq => hmem (heq ▸ List.mem_map_of_mem hn)
        rw [Function.update_of_ne hne] at hlast
        exact hf n hn t₀ g hlast
      · rw [List.mem_singleton] at hn
        subst hn
        have hsame : (h.neighbor expire t).ipAddress = h.origin := rfl
        rw [hsame, Function.update_self, Option.some.injEq, Prod.mk.injEq] at hlast
        rw [← hlast.2]
        exact ⟨rfl, rfl⟩

end step

/-! ### Runs -/

/-- The times of the events do not go back. -/
def Clocked (es : List (ℕ × Event)) : Prop := es.Pairwise fun e e' => e.1 ≤ e'.1

instance (es : List (ℕ × Event)) : Decidable (Clocked es) := inferInstanceAs (Decidable (List.Pairwise _ _))

section runs

variable {expire : ℕ} {es : List (ℕ × Event)}

theorem tableAfter_concat (es : List (ℕ × Event)) (e : ℕ × Event) :
    tableAfter expire (es ++ [e]) = step expire (tableAfter expire es) e := by
  simp [tableAfter]

theorem lastHello_concat (es : List (ℕ × Event)) (e : ℕ × Event) :
    lastHello (es ++ [e]) = (lastHello es).step e := by
  simp [lastHello]

theorem Inv.run (hclock : Clocked es) {now : ℕ} (hnow : ∀ e ∈ es, e.1 ≤ now) :
    Inv expire now (lastHello es) (tableAfter expire es) := by
  induction es using List.reverseRecOn generalizing now with
  | nil => exact ⟨List.nodup_nil, by simp [tableAfter], by simp [lastHello], by simp [lastHello]⟩
  | append_singleton es e ih =>
    obtain ⟨hes, -, hle⟩ := List.pairwise_append.mp hclock
    have hstep := (ih hes fun e' he' => hle e' he' e (List.mem_singleton_self e)).step e (Nat.le_refl _)
    have he : e.1 ≤ now := hnow e (by simp)
    rw [lastHello_concat, tableAfter_concat]
    exact ⟨hstep.nodup, hstep.entry, fun a t h hlast hfresh =>
      hstep.present a t h hlast (Nat.le_trans he hfresh),
      fun a t h hlast => Nat.le_trans (hstep.past a t h hlast) he⟩

theorem Faithful.run (hclock : Clocked es)
    (hsteady : ∀ pre e post, es = pre ++ e :: post → Steady (tableAfter expire pre) e.2) :
    Faithful (lastHello es) (tableAfter expire es) := by
  induction es using List.reverseRecOn with
  | nil => exact fun n hn => by simp [tableAfter] at hn
  | append_singleton es e ih =>
    obtain ⟨hes, -, hle⟩ := List.pairwise_append.mp hclock
    have hbefore := ih hes fun pre e' post heq => hsteady pre e' (post ++ [e]) (by simp [heq])
    have hinv : Inv expire e.1 (lastHello es) (tableAfter expire es) :=
      Inv.run hes fun e' he' => hle e' he' e (List.mem_singleton_self e)
    rw [lastHello_concat, tableAfter_concat]
    exact hbefore.step hinv e (hsteady es e [] rfl)

end runs

/-! ### What the table shows -/

theorem entries_of_mem {nb : List Neighbor} (hnodup : (nb.map Neighbor.ipAddress).Nodup) {n : Neighbor}
    (hn : n ∈ nb) : entries nb n.ipAddress = [n] := by
  induction nb with
  | nil => simp at hn
  | cons m nb ih =>
    rw [List.map_cons, List.nodup_cons] at hnodup
    rcases List.mem_cons.mp hn with rfl | hn
    · have hrest : nb.filter (fun k => k.ipAddress = n.ipAddress) = [] := by
        rw [List.filter_eq_nil_iff]
        intro k hk heq
        simp only [decide_eq_true_eq] at heq
        exact hnodup.1 (heq ▸ List.mem_map_of_mem hk)
      rw [entries, List.filter_cons_of_pos (by simp), hrest]
    · have hne : m.ipAddress ≠ n.ipAddress := fun heq => hnodup.1 (heq ▸ List.mem_map_of_mem hn)
      rw [entries, List.filter_cons_of_neg (by simpa using hne)]
      exact ih hnodup.2 hn

theorem shows_purge {expire t : ℕ} {last : Heard} {nb : List Neighbor} (hinv : Inv expire t last nb)
    (hf : Faithful last nb) : Shows expire t last (purge t nb) where
  fresh := by
    intro a t₀ h hlast hfresh
    have hpurged := hinv.purge (Nat.le_refl t)
    obtain ⟨n, hn, rfl⟩ := List.mem_map.mp (hpurged.present a t₀ h hlast hfresh)
    refine ⟨n, entries_of_mem hpurged.nodup hn, ?_⟩
    obtain ⟨-, t₁, h₁, hlast₁, -, hx, hy⟩ := hpurged.entry n hn
    rw [hlast, Option.some.injEq, Prod.mk.injEq] at hlast₁
    obtain ⟨hgeo, hdir⟩ := hf n (mem_purge.mp hn).1 t₀ h hlast
    exact ⟨hgeo, hdir, hx.trans (hlast₁.2 ▸ rfl), hy.trans (hlast₁.2 ▸ rfl)⟩
  old := by
    intro a hold
    rw [entries, List.filter_eq_nil_iff]
    intro n hn heq
    simp only [decide_eq_true_eq] at heq
    obtain ⟨hmem, halive, -⟩ := mem_purge.mp hn
    obtain ⟨-, t₀, h, hlast, hexp, -⟩ := hinv.entry n hmem
    have := hold t₀ h (heq ▸ hlast)
    omega

/-- `GetGeohashFromIpInNb`: geohash, MAC address and position of a station, if there is an entry. -/
def getGeohashFromIpInNb (now : ℕ) (ip : BitVec 32) (nb : List Neighbor) :
    Option (BitVec 64 × Mac × BitVec 64 × BitVec 64) :=
  ((purge now nb).find? fun n => n.ipAddress = ip).map fun n =>
    (n.geohash, n.hardwareAddress, n.x, n.y)

/-- **A query is answered with the last hello.**  At any time of any run, the position of a station that is asked for is that
of its last hello if this is not older than `expire`, and there is no answer otherwise. -/
theorem query_position (expire : ℕ) {es : List (ℕ × Event)} {t : ℕ} (hclock : Clocked es) (ht : ∀ e ∈ es, e.1 ≤ t)
    (ip : BitVec 32) :
    (getGeohashFromIpInNb t ip (tableAfter expire es)).map (·.2.2)
      = (lastHello es ip).bind fun last => if t ≤ last.1 + expire then some (last.2.x, last.2.y) else none := by
  have hinv : Inv expire t (lastHello es) (purge t (tableAfter expire es)) := (Inv.run hclock ht).purge (Nat.le_refl t)
  have hentry : ∀ n ∈ purge t (tableAfter expire es), ∃ t₀ h,
      lastHello es n.ipAddress = some (t₀, h) ∧ t ≤ t₀ + expire ∧ (n.x, n.y) = (h.x, h.y) := by
    intro n hn
    obtain ⟨-, t₀, h, hlast, hexp, hx, hy⟩ := hinv.entry n hn
    exact ⟨t₀, h, hlast, hexp ▸ (mem_purge.mp hn).2.1, by rw [hx, hy]⟩
  rw [getGeohashFromIpInNb, Option.map_map]
  cases hfind : (purge t (tableAfter expire es)).find? fun n => n.ipAddress = ip with
  | some n =>
    have hip := List.find?_some hfind
    obtain rfl : n.ipAddress = ip := of_decide_eq_true hip
    obtain ⟨t₀, h, hlast, hfresh, hpos⟩ := hentry n (List.mem_of_find?_eq_some hfind)
    rw [hlast, Option.bind_some, if_pos hfresh]
    exact congrArg some hpos
  | none =>
    cases hlast : lastHello es ip with
    | none => rfl
    | some last =>
      refine (if_neg fun hfresh => ?_).symm
      obtain ⟨n, hn, hip⟩ := List.mem_map.mp (hinv.present ip last.1 last.2 hlast hfresh)
      exact List.find?_eq_none.mp hfind n hn (decide_eq_true hip)

/-- **The table shows the latest hellos** after a purge at any time of a run exactly if no hello of the
run changes the geohash or the direction of a station that has an entry: `Update` writes these two only
when it makes the entry. -/
theorem shows_iff (expire : ℕ) (es : List (ℕ × Event)) (hclock : Clocked es) :
    (∀ pre post, es = pre ++ post → ∀ t, (∀ e ∈ pre, e.1 ≤ t) →
        Shows expire t (lastHello pre) (purge t (tableAfter expire pre))) ↔
      ∀ pre e post, es = pre ++ e :: post → Steady (tableAfter expire pre) e.2 := by
  constructor
  · intro hshows pre e post heq
    obtain ⟨t, ev⟩ := e
    cases ev with
    | purge => trivial
    | hello h =>
      intro n hn hip
      have hsplit : es = (pre ++ [(t, .hello h)]) ++ post := by simp [heq]
      have hclock' : Clocked (pre ++ [(t, .hello h)]) :=
        hclock.sublist (hsplit ▸ List.sublist_append_left ..)
      obtain ⟨hpre, -, hle⟩ := List.pairwise_append.mp hclock'
      have hnow : ∀ e ∈ pre ++ [(t, .hello h)], e.1 ≤ t := by
        intro e he
        rcases List.mem_append.mp he with he | he
        · exact hle e he _ (List.mem_singleton_self _)
        · rw [List.mem_singleton.mp he]
      have hinv : Inv expire t (lastHello pre) (tableAfter expire pre) :=
        Inv.run hpre fun e he => hle e he _ (List.mem_singleton_self _)
      have hshow := hshows _ post hsplit t hnow
      rw [lastHello_concat, tableAfter_concat] at hshow
      obtain ⟨m, hentries, hcarries⟩ := hshow.fresh h.origin t h (Function.update_self ..)
        (Nat.le_add_right ..)
      -- the entry rewritten by the hello is still there, with the old geohash and direction
      have hmem : n.refresh expire t h ∈ entries (purge t (step expire (tableAfter expire pre)
          (t, .hello h))) h.origin := by
        have horigin : h.origin ∈ (tableAfter expire pre).map Neighbor.ipAddress :=
          hip ▸ List.mem_map_of_mem hn
        have hupdated : n.refresh expire t h ∈ update expire t h (tableAfter expire pre) := by
          rw [update_of_mem hinv.nodup horigin]
          exact List.mem_map.mpr ⟨n, hn, if_pos hip⟩
        refine List.mem_filter.mpr ⟨mem_purge.mpr ⟨hupdated, ?_, (hinv.entry n hn).1⟩,
          decide_eq_true hip⟩
        show t ≤ max (expire + t) n.expireTime
        omega
      rw [hentries, List.mem_singleton] at hmem
      subst hmem
      exact ⟨hcarries.geohash, hcarries.direction⟩
  · intro hsteady pre post heq t ht
    have hpre : Clocked pre := hclock.sublist (heq ▸ List.sublist_append_left ..)
    refine shows_purge (Inv.run hpre ht) (Faithful.run hpre fun pre' e post' heq' => ?_)
    exact hsteady pre' e (post' ++ post) (by simp [heq, heq'])

/-- A station that is heard twice from the same geohash, at different positions. -/
def drive (geohash : BitVec 64) : List (ℕ × Event) :=
  [(0, .hello ⟨1, fun _ => 2, 7, 0, 10, 20⟩), (100, .hello ⟨1, fun _ => 2, geohash, 0, 11, 21⟩)]

theorem query_position_drive :
    (getGeohashFromIpInNb 300 1 (tableAfter 350 (drive 8))).map (·.2.2) = some (11, 21) :=
  (query_position 350 (by decide) (by decide) 1).trans rfl

/-- Within one geohash the table shows the second hello. -/
theorem shows_iff_drive :
    Shows 350 300 (lastHello (drive 7)) (purge 300 (tableAfter 350 (drive 7))) := by
  have hclock : Clocked (drive 7) := by decide
  refine (shows_iff 350 (drive 7) hclock).mpr ?_ (drive 7) [] rfl 300 (by decide)
  intro pre e post heq
  rcases pre with _ | ⟨e₁, _ | ⟨e₂, pre⟩⟩
  · obtain ⟨rfl, -⟩ := List.cons.inj heq
    exact fun n hn => by simp [tableAfter] at hn
  · obtain ⟨rfl, htail⟩ := List.cons.inj heq
    obtain ⟨rfl, -⟩ := List.cons.inj htail
    intro n hn _
    have hone : n = (⟨1, fun _ => 2, 7, 0, 10, 20⟩ : Hello).neighbor 350 0 := List.mem_singleton.mp hn
    rw [hone]
    exact ⟨rfl, rfl⟩
  · simp [drive] at heq

/-- When the station has moved to another geohash the table still has the old one. -/
theorem old_geohash_shown :
    ¬ ∀ (expire : ℕ) (es : List (ℕ × Event)), Clocked es → ∀ t, (∀ e ∈ es, e.1 ≤ t) →
      Shows expire t (lastHello es) (purge t (tableAfter expire es)) := by
  intro h
  obtain ⟨n, hn, hcarries⟩ := (h 350 (drive 8) (by decide) 100 (by decide)).fresh 1 100 _ rfl (by decide)
  have hhead : (entries (purge 100 (tableAfter 350 (drive 8))) 1).map Neighbor.geohash = [7] := by decide
  rw [hn, List.map_singleton, hcarries.geohash] at hhead
  exact absurd hhead (by decide)

end VanetTdma.Mbr
