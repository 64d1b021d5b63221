import VanetTdma.Ns3.OwnTick

/-!
# The table of a running node

In every state of every run, an entry that is free records nobody, an entry that records nobody and is
not the node's own is free, and the `psf` byte is 0 (`run_tableOk`): the field has no bits in a packet and
no assignment gives it another value.  So a received tag never has the higher `psf` that the branches for
`recv_tag.psf > psf` of `merge_fi` ask for.
-/

namespace VanetTdma.Ns3

open VanetTdma.SlotLoop VanetTdma.GuardedRun

/-- A well-formed entry of the table of the node `g`. -/
structure EntryOk (g : ℕ) (e : SlotTag) : Prop where
  zero_of_free : e.busy = .free → e.sti = 0
  free_of_zero : e.sti ≠ g → e.sti = 0 → e.busy = .free
  psf_zero : e.psf = 0

namespace EntryOk

variable {g sender : ℕ} {tag e e' : SlotTag}

theorem empty (hbusy : e.busy = .free) (hsti : e.sti = 0) (hpsf : e.psf = 0) : EntryOk g e :=
  ⟨fun _ => hsti, fun _ _ => hbusy, hpsf⟩

theorem occupied (hbusy : e.busy ≠ .free) (hsti : e.sti ≠ g → e.sti ≠ 0) (hpsf : e.psf = 0) :
    EntryOk g e :=
  ⟨fun h => absurd h hbusy, fun hg h0 => absurd h0 (hsti hg), hpsf⟩

theorem sti_ne_zero (h : EntryOk g e) (hbusy : e.busy ≠ .free) : e.sti ≠ g → e.sti ≠ 0 :=
  fun hg h0 => hbusy (h.free_of_zero hg h0)

theorem congr (h : EntryOk g e) (hbusy : e'.busy = e.busy) (hsti : e'.sti = e.sti)
    (hpsf : e'.psf = e.psf) : EntryOk g e' := by
  refine ⟨fun hf => ?_, fun hg h0 => ?_, ?_⟩
  · rw [hsti]
    exact h.zero_of_free (hbusy ▸ hf)
  · rw [hbusy]
    rw [hsti] at hg h0
    exact h.free_of_zero hg h0
  · rw [hpsf]
    exact h.psf_zero

theorem recode (h : EntryOk g e) (hfrom : e.sti = g ∨ e.busy ≠ .free) (hto : e'.busy ≠ .free)
    (hsti : e'.sti = e.sti) (hpsf : e'.psf = e.psf) : EntryOk g e' := by
  refine occupied hto ?_ (hpsf.trans h.psf_zero)
  rw [hsti]
  rcases hfrom with hown | hbusy
  · exact fun hne => absurd hown hne
  · exact h.sti_ne_zero hbusy

theorem same (h : EntryOk g e) (hs : SameSlot e e') : EntryOk g e' :=
  h.congr hs.busy_eq hs.sti_eq hs.psf_eq

theorem age (h : EntryOk g e) (he : AgeEffect g e e') : EntryOk g e' := by
  cases he with
  | keep hbusy hsti hpsf _ => exact h.congr hbusy hsti hpsf
  | fade hone hbusy hsti hpsf _ =>
    exact h.recode (.inr (by simp [hone])) (by simp [hbusy]) hsti hpsf
  | expired _ _ hbusy hsti hpsf => exact empty hbusy hsti hpsf

theorem merge (h : EntryOk g e) (he : MergeEffect g sender tag e e') : EntryOk g e' := by
  cases he with
  | keep hs => exact h.same hs
  | contested hown hbusy hsti _ hpsf =>
    exact h.recode (hown.imp_right fun hone => by simp [hone]) (by simp [hbusy]) hsti hpsf
  | heard htwo hbusy hsti _ hpsf => exact h.recode (.inr (by simp [htwo])) (by simp [hbusy]) hsti hpsf
  | taken hzero _ _ hbusy hsti _ hpsf =>
    refine occupied ?_ (fun _ => hsti ▸ hzero) (hpsf.trans h.psf_zero)
    rcases hbusy with hb | hb <;> simp [hb]
  | released _ _ _ hbusy hsti _ hpsf => exact empty hbusy hsti (hpsf.trans h.psf_zero)

theorem claim (cfg : Config) (e : SlotTag) : EntryOk cfg.globalSti (e.claim cfg) :=
  occupied (by simp [SlotTag.claim]) (fun h => absurd rfl h) rfl

theorem release (g : ℕ) (e : SlotTag) (lock : Bool) : EntryOk g (e.release lock) := empty rfl rfl rfl

theorem giveUp {cfg : Config} (h : EntryOk cfg.globalSti e) :
    EntryOk cfg.globalSti (e.giveUp cfg) := by
  unfold SlotTag.giveUp
  split
  · exact release _ _ _
  · exact h

end EntryOk

/-- The table and the received tags of a node. -/
structure TableOk (cfg : Config) (s : Node) : Prop where
  entry : ∀ j, EntryOk cfg.globalSti (s.collectedFi j)
  tag_psf : ∀ fi ∈ s.receivedFiList, ∀ j, (fi.slotDescribe j).psf = 0

namespace TableOk

variable {cfg : Config} {s : Node}

theorem of_entry {s' : Node} (h : TableOk cfg s) (hlist : s'.receivedFiList = s.receivedFiList)
    (hentry : ∀ j, EntryOk cfg.globalSti (s'.collectedFi j)) : TableOk cfg s' :=
  ⟨hentry, by rw [hlist]; exact h.tag_psf⟩

theorem congr {s' : Node} (h : TableOk cfg s) (hlist : s'.receivedFiList = s.receivedFiList)
    (htable : s'.collectedFi = s.collectedFi) : TableOk cfg s' :=
  h.of_entry hlist fun j => htable ▸ h.entry j

theorem edit (h : TableOk cfg s) (i : ℤ) {f : SlotTag → SlotTag}
    (hf : ∀ e, EntryOk cfg.globalSti e → EntryOk cfg.globalSti (f e)) : TableOk cfg (s.edit i f) := by
  refine h.of_entry rfl fun j => ?_
  rw [Node.edit_collectedFi]
  split
  · exact hf _ (h.entry j)
  · exact h.entry j

theorem claim (h : TableOk cfg s) (i : ℤ) : TableOk cfg (s.edit i fun e => e.claim cfg) :=
  h.edit i fun e _ => EntryOk.claim cfg e

theorem release (h : TableOk cfg s) (i : ℤ) (lock : Bool) :
    TableOk cfg (s.edit i fun e => e.release lock) :=
  h.edit i fun e _ => EntryOk.release _ e lock

theorem giveUp (h : TableOk cfg s) (i : ℤ) : TableOk cfg (s.edit i fun e => e.giveUp cfg) :=
  h.edit i fun _ he => he.giveUp

theorem sendFi (h : TableOk cfg s) : TableOk cfg (sendFi cfg s) :=
  h.of_entry rfl fun j => (h.entry j).same (sendFi_sameSlot cfg s j)

theorem synthesizeFiList (h : TableOk cfg s) : TableOk cfg (synthesizeFiList cfg s) := by
  obtain ⟨t, m, -, heq⟩ := @synthesizeFiList_eq cfg s
  refine h.of_entry (by rw [heq]) fun j => ?_
  exact synthesizeFiList_entry (fun e' he => (h.entry j).age he) (h.entry j)
    (fun fi _ e e' hm he => he.merge hm) fun e he => he.congr rfl rfl rfl

theorem clearOthersSlotStatus (h : TableOk cfg s) : TableOk cfg (clearOthersSlotStatus cfg s) := by
  refine h.of_entry rfl fun j => ?_
  rcases @clearOthersSlotStatus_cases cfg s j with hsame | ⟨-, hbusy, hsti, hpsf⟩
  · rw [hsame]
    exact h.entry j
  · exact EntryOk.empty hbusy hsti hpsf

theorem refresh (h : TableOk cfg s) : TableOk cfg (refresh cfg s) := by
  unfold VanetTdma.Ns3.refresh
  split
  · exact h.synthesizeFiList
  · exact h.clearOthersSlotStatus.synthesizeFiList

theorem listenTable (h : TableOk cfg s) : TableOk cfg (listenTable cfg s) := by
  refine TableOk.synthesizeFiList (h.of_entry rfl fun j => ?_)
  exact EntryOk.empty rfl rfl rfl

theorem adjFrameLen (h : TableOk cfg s) : TableOk cfg (adjFrameLen cfg s) := by
  unfold VanetTdma.Ns3.adjFrameLen
  split
  · exact h
  · exact h.congr rfl rfl

theorem takeCandidate (h : TableOk cfg s) (c : ℤ) : TableOk cfg (takeCandidate cfg s c) := by
  unfold VanetTdma.Ns3.takeCandidate
  split
  · exact h.congr rfl rfl
  · split
    · refine TableOk.claim (TableOk.release ?_ _ _) _
      exact h.congr rfl rfl
    · refine TableOk.claim ?_ _
      exact h.congr rfl rfl

theorem adjust {d : Draws} {x : Node} {cs : List ℤ} (h : TableOk cfg s)
    (hx : adjust cfg s d = some (x, cs)) : TableOk cfg x := by
  rcases adjust_cases hx with ⟨-, c, -, rfl, -⟩ | ⟨-, rfl, -⟩
  · exact h.takeCandidate c
  · exact h.adjFrameLen

theorem hop {d : Draws} {s' : Node} {cs : List ℤ} (h : TableOk cfg s)
    (hx : hop cfg s d = some (s', cs)) : TableOk cfg s' := by
  rcases hop_cases hx with ⟨-, c, -, rfl, -⟩ | ⟨-, ⟨k, rfl⟩, -⟩
  · refine TableOk.claim (TableOk.release ?_ _ _) _
    exact h.congr rfl rfl
  · exact h.congr rfl rfl

theorem adjDecide (h : TableOk cfg s) : TableOk cfg (adjDecide cfg s) := by
  unfold VanetTdma.Ns3.adjDecide
  split
  · refine TableOk.release ?_ _ _
    exact h.congr rfl rfl
  · refine TableOk.release ?_ _ _
    exact h.congr rfl rfl

theorem losing {x : Node} (h : TableOk cfg s) (hx : Losing cfg s x) : TableOk cfg x := by
  cases hx with
  | bch _ _ => exact h.refresh.giveUp _
  | both _ _ _ => exact h.refresh.giveUp _

theorem ownTick {d : Draws} {s' : Node} {out : TickOut} (h : TableOk cfg s)
    (ht : OwnTick cfg s d s' out) : TableOk cfg s' := by
  cases ht with
  | begin _ => exact h.congr rfl rfl
  | wait _ _ => exact h.congr rfl rfl
  | listenFull _ _ _ _ => exact h.listenTable.congr rfl rfl
  | listenNow _ _ _ _ hx =>
    subst hx
    exact (TableOk.sendFi (TableOk.claim (h.listenTable.congr rfl rfl) _)).congr rfl rfl
  | listenLater _ _ _ _ => exact h.listenTable.congr rfl rfl
  | request _ _ hx =>
    subst hx
    exact (TableOk.sendFi (h.refresh.claim _)).congr rfl rfl
  | work _ _ hx =>
    subst hx
    exact TableOk.sendFi (h.refresh.congr rfl rfl)
  | lostFull hx _ => exact (h.losing hx).congr rfl rfl
  | lostLater hx _ _ => exact (h.losing hx).congr rfl rfl
  | worked _ _ hadjust hhop => exact (h.refresh.adjust hadjust).sendFi.hop hhop
  | adjDecided _ _ => exact h.refresh.adjDecide.sendFi
  | adjMoved _ _ _ => exact h.refresh.congr rfl rfl

end TableOk

/-! ### Received tags -/

theorem decodeSlotTag_psf (c : Cursor) : (decodeSlotTag c).1.psf = 0 := rfl

theorem decodeSlotTags_psf (c : Cursor) (n j : ℕ) : ((decodeSlotTags c n).1 j).psf = 0 := by
  induction n with
  | zero => rfl
  | succ n ih =>
    show (Function.update (decodeSlotTags c n).1 n _ j).psf = 0
    by_cases hj : j = n
    · subst hj
      rw [Function.update_self]
      exact decodeSlotTag_psf _
    · rw [Function.update_of_ne hj]
      exact ih

theorem mem_fadeReceivedFiList {l : List FrameInfo} {fi : FrameInfo}
    (h : fi ∈ fadeReceivedFiList l) :
    ∃ fi₀ ∈ l, fi = { fi₀ with remainTime := fi₀.remainTime - 1 } := by
  have hmem := List.mem_of_mem_filter h
  obtain ⟨fi₀, h₀, rfl⟩ := List.mem_map.mp hmem
  exact ⟨fi₀, h₀, rfl⟩

theorem TableOk.recvFi {cfg : Config} {s : Node} (h : TableOk cfg s) (buffer : ℕ → ℕ) :
    TableOk cfg (recvFi cfg s buffer) := by
  refine ⟨h.entry, fun fi hfi j => ?_⟩
  rcases List.mem_append.mp hfi with hold | hnew
  · exact h.tag_psf fi hold j
  · rw [List.mem_singleton.mp hnew]
    exact decodeSlotTags_psf _ _ j

theorem TableOk.beginSlot {cfg : Config} {s : Node} (h : TableOk cfg s) :
    TableOk cfg (beginSlot s) := by
  refine ⟨h.entry, fun fi hfi j => ?_⟩
  obtain ⟨fi₀, h₀, rfl⟩ := mem_fadeReceivedFiList hfi
  exact h.tag_psf fi₀ h₀ j

/-- **The table is well formed in every state of every run.** -/
theorem run_tableOk {cfg : Config} {ok : Node → Event → Prop} {u : Uninit} {s : Node}
    (h : RunWhere cfg ok u s) : TableOk cfg s := by
  refine h.invariant ?_ (fun _ buffer hs => hs.recvFi buffer) (fun _ hs => hs.beginSlot)
    fun _ _ _ _ hs _ _ ht => hs.ownTick ht
  exact ⟨fun j => EntryOk.empty rfl rfl rfl, fun fi hfi => absurd hfi (List.not_mem_nil)⟩

end VanetTdma.Ns3
