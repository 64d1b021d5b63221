import VanetTdma.Ns3.TableInvariant

/-!
# The round of a tick

A tick first brings the table up to date: from its base (`tickBase`) through ageing (`mergeBase`) and the
received FIs to the table it chooses from (`tickTable`).  `tickTable_of_merged` says that the final
unlocking does not touch an entry that records somebody.
-/

namespace VanetTdma.Ns3

open VanetTdma.SlotLoop

/-- The node that a tick starts from: a listening node forgets its table, and without `SlotMemory` every
node forgets the slots of others. -/
def tickBase (cfg : Config) (s : Node) : Node :=
  if s.nodeState = .listen then { s with collectedFi := Table.blank }
  else if cfg.slotMemory then s
  else clearOthersSlotStatus cfg s

/-- The node whose table the first FI of a tick is merged into. -/
def mergeBase (cfg : Config) (s : Node) : Node := ageFrame cfg (tickBase cfg s)

/-- The table that a tick chooses from. -/
def tickTable (cfg : Config) (s : Node) : Node := synthesizeFiList cfg (tickBase cfg s)

section round

variable {cfg : Config} {s : Node} {c : ℕ}

theorem tickTable_of_listen (h : s.nodeState = .listen) : tickTable cfg s = listenTable cfg s := by
  rw [tickTable, tickBase, if_pos h, listenTable]

theorem tickTable_of_ne (h : s.nodeState ≠ .listen) : tickTable cfg s = refresh cfg s := by
  rw [tickTable, tickBase, if_neg h, refresh]

theorem tickBase_eq : ∃ t, tickBase cfg s = { s with collectedFi := t } := by
  unfold tickBase
  split
  · exact ⟨_, rfl⟩
  · split
    · exact ⟨s.collectedFi, rfl⟩
    · exact ⟨_, rfl⟩

theorem mergeBase_eq : ∃ t, mergeBase cfg s = { s with collectedFi := t } := by
  obtain ⟨t, ht⟩ := @tickBase_eq cfg s
  obtain ⟨t', ht'⟩ := @ageFrame_eq cfg (tickBase cfg s)
  exact ⟨t', by rw [mergeBase, ht', ht]⟩

theorem foldl_mergeFi_tableOk {l : List FrameInfo} (h : TableOk cfg s) :
    TableOk cfg (l.foldl (mergeFi cfg) s) := by
  obtain ⟨t, m, -, heq⟩ := @foldl_mergeFi_eq cfg l s
  refine h.of_entry (by rw [heq]) fun j => ?_
  exact foldl_mergeFi_entry l s (fun f _ e e' hm he => he.merge hm) (h.entry j)

theorem TableOk.mergeBase (h : TableOk cfg s) : TableOk cfg (mergeBase cfg s) := by
  have hbase : TableOk cfg (tickBase cfg s) := by
    unfold tickBase
    split
    · exact h.of_entry rfl fun j => EntryOk.empty rfl rfl rfl
    · split
      · exact h
      · exact h.clearOthersSlotStatus
  obtain ⟨t, ht⟩ := @ageFrame_eq cfg (tickBase cfg s)
  refine hbase.of_entry (by rw [VanetTdma.Ns3.mergeBase, ht]) fun j => ?_
  rw [VanetTdma.Ns3.mergeBase]
  rcases @ageFrame_cases cfg (tickBase cfg s) j with hsame | ⟨-, -, -, hage⟩
  · rw [hsame]
    exact hbase.entry j
  · rw [hage]
    exact (hbase.entry j).age (ageSlot_effect ..)

theorem tickTable_of_merged
    (h : ((s.receivedFiList.foldl (mergeFi cfg) (mergeBase cfg s)).collectedFi c).sti ≠ 0) :
    (tickTable cfg s).collectedFi c
      = (s.receivedFiList.foldl (mergeFi cfg) (mergeBase cfg s)).collectedFi c := by
  have hlist : (mergeBase cfg s).receivedFiList = s.receivedFiList := by
    obtain ⟨t, ht⟩ := @mergeBase_eq cfg s
    rw [ht]
  have hmerged : mergeList cfg (ageFrame cfg (tickBase cfg s))
      = s.receivedFiList.foldl (mergeFi cfg) (mergeBase cfg s) := by
    rw [mergeList, ← hlist, mergeBase]
  rcases @synthesizeFiList_cases cfg (tickBase cfg s) c with hsame | hunlock
  · rw [tickTable, hsame, hmerged]
  · rw [tickTable, hunlock, hmerged]
    rcases unlockSlot_cases ((s.receivedFiList.foldl (mergeFi cfg) (mergeBase cfg s)).collectedFi c)
      with heq | ⟨hz, -⟩
    · exact heq
    · exact absurd hz h

end round

end VanetTdma.Ns3
