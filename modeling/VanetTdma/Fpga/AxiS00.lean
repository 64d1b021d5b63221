import VanetTdma.Fpga.FifoWr

/-!
# The registers that Linux writes (`axi_S00.v`)

A write of register 1 asks for the pair of registers 0 and 1 to be put into the queue of Linux' descriptors, a
write of register 2 or 4 for an address to be put into the receive or transmit FIFO.  The slave accepts a write
every second cycle, whatever these machines do.

* `AxiS00.tick` — one edge: the handshake of the bus, the registers with their enable flags, the two pulse
  generators (`rxfifo_enable_state`, `txfifo_enable_state`) and the writer of the descriptor queue;
* `AxiS00.At.tick` — the stages of a pair of registers 0 and 1 on its way to the queue.
-/

namespace VanetTdma.Fpga

/-- The bytes of `old` that the strobes select are replaced by those of `data`. -/
def strobed (strb : BitVec 4) (data old : BitVec 32) : BitVec 32 :=
  (if strb.getLsbD 3 then data.extractLsb' 24 8 else old.extractLsb' 24 8)
    ++ (if strb.getLsbD 2 then data.extractLsb' 16 8 else old.extractLsb' 16 8)
    ++ (if strb.getLsbD 1 then data.extractLsb' 8 8 else old.extractLsb' 8 8)
    ++ (if strb.getLsbD 0 then data.extractLsb' 0 8 else old.extractLsb' 0 8)

/-- `rxfifo_enable_state` with `rxfifo_wr_start` and `rxfifo_wr_data`, and the same for the transmit FIFO. -/
structure PulseGen where
  enableState : WrPhase := .ph0
  req : WrReq := {}
deriving DecidableEq

/-- One edge: the start signal is up for two cycles. -/
def PulseGen.tick (enable : Bool) (data : BitVec 32) (p : PulseGen) : PulseGen :=
  match p.enableState with
  | .ph0 => if enable then { req := { start := true, data := data }, enableState := .ph1 } else p
  | .ph1 => { p with enableState := .ph2 }
  | .ph2 => { req := { p.req with start := false }, enableState := .ph0 }

/-- The registers of the slave as far as the FIFOs are concerned. -/
structure AxiS00 where
  awready : Bool := false
  wready : Bool := false
  /-- The register number in `axi_awaddr`. -/
  awaddr : BitVec 5 := 0
  slvReg0 : BitVec 32 := 0
  slvReg1 : BitVec 32 := 0
  slvReg2 : BitVec 32 := 0
  slvReg4 : BitVec 32 := 0
  fifoWriteEnable : Bool := false
  rxfifoWriteEnable : Bool := false
  txfifoWriteEnable : Bool := false
  rx : PulseGen := {}
  tx : PulseGen := {}
  fifoWriteStatus : WrPhase := .ph0
  fifoWriteCplPulse : Bool := false
  fifoWrEn : Bool := false
  /-- The two halves of `fifo_dwrite`. -/
  fifoDwrite : BitVec 32 × BitVec 32 := (0, 0)
deriving DecidableEq

/-- The write channels of the bus, and the full flag of the descriptor queue. -/
structure AxiIn where
  awvalid : Bool := false
  wvalid : Bool := false
  awaddr : BitVec 5 := 0
  wdata : BitVec 32 := 0
  wstrb : BitVec 4 := 15
  fifoFull : Bool := false

namespace AxiS00

/-- `slv_reg_wren`. -/
def slvRegWren (a : AxiS00) (i : AxiIn) : Bool := a.wready && i.wvalid && a.awready && i.awvalid

/-- `axi_awready`, `axi_wready` and `axi_awaddr`. -/
def handshake (i : AxiIn) (a v : AxiS00) : AxiS00 :=
  { v with
    awready := !a.awready && i.awvalid && i.wvalid
    wready := !a.wready && i.wvalid && i.awvalid
    awaddr := if !a.awready && i.awvalid && i.wvalid then i.awaddr else a.awaddr }

/-- The enable flags are dropped when their request has been taken over. -/
def drop (a : AxiS00) : AxiS00 :=
  { a with
    fifoWriteEnable := a.fifoWriteEnable && !(a.fifoWriteEnable && a.fifoWriteCplPulse)
    rxfifoWriteEnable := a.rxfifoWriteEnable && !a.rx.req.start
    txfifoWriteEnable := a.txfifoWriteEnable && !a.tx.req.start }

def regWrite (i : AxiIn) (a v : AxiS00) : AxiS00 :=
  if a.slvRegWren i then
    if a.awaddr = 0 then { v with slvReg0 := strobed i.wstrb i.wdata a.slvReg0 }
    else if a.awaddr = 1 then { v with slvReg1 := strobed i.wstrb i.wdata a.slvReg1, fifoWriteEnable := true }
    else if a.awaddr = 2 then { v with slvReg2 := strobed i.wstrb i.wdata a.slvReg2, rxfifoWriteEnable := true }
    else if a.awaddr = 4 then { v with slvReg4 := strobed i.wstrb i.wdata a.slvReg4, txfifoWriteEnable := true }
    else v
  else v

/-- The writer of the descriptor queue. -/
def fifoWrite (full : Bool) (a v : AxiS00) : AxiS00 :=
  if a.fifoWriteEnable = true ∧ a.fifoWriteStatus = .ph0 ∧ full = false then
    { v with fifoDwrite := (a.slvReg0, a.slvReg1), fifoWriteStatus := .ph1, fifoWrEn := true }
  else
    match a.fifoWriteStatus with
    | .ph0 => v
    | .ph1 => { v with fifoWrEn := false, fifoWriteCplPulse := true, fifoWriteStatus := .ph2 }
    | .ph2 => { v with fifoWriteStatus := .ph0, fifoWriteCplPulse := false }

def tick (a : AxiS00) (i : AxiIn) : AxiS00 :=
  let v := { a.drop with
    rx := a.rx.tick a.rxfifoWriteEnable a.slvReg2, tx := a.tx.tick a.txfifoWriteEnable a.slvReg4 }
  fifoWrite i.fifoFull a (handshake i a (regWrite i a v))

/-- Register `r` is written at this edge. -/
def Writes (r : BitVec 5) (a : AxiS00) (i : AxiIn) : Prop := a.slvRegWren i = true ∧ a.awaddr = r

instance (r : BitVec 5) (a : AxiS00) (i : AxiIn) : Decidable (a.Writes r i) := inferInstanceAs (Decidable (_ ∧ _))

/-- A pair stands in the registers because the queue is full. -/
def Waits (a : AxiS00) (i : AxiIn) : Prop :=
  a.fifoWriteEnable = true ∧ a.fifoWriteStatus = .ph0 ∧ i.fifoFull = true

instance (a : AxiS00) (i : AxiIn) : Decidable (a.Waits i) := inferInstanceAs (Decidable (_ ∧ _))

/-! ### One edge, field by field -/

section Step

variable {a v : AxiS00} {i : AxiIn}

theorem rest_fifo (v : AxiS00) : (handshake i a (regWrite i a v)).fifoWriteStatus = v.fifoWriteStatus
    ∧ (handshake i a (regWrite i a v)).fifoWriteCplPulse = v.fifoWriteCplPulse
    ∧ (handshake i a (regWrite i a v)).fifoWrEn = v.fifoWrEn := by
  simp only [handshake, regWrite]
  repeat' split
  all_goals exact ⟨rfl, rfl, rfl⟩

@[simp] theorem fifoWrite_slvReg0 (full : Bool) : (fifoWrite full a v).slvReg0 = v.slvReg0 := by
  unfold fifoWrite
  repeat' split
  all_goals rfl

@[simp] theorem fifoWrite_slvReg1 (full : Bool) : (fifoWrite full a v).slvReg1 = v.slvReg1 := by
  unfold fifoWrite
  repeat' split
  all_goals rfl

@[simp] theorem fifoWrite_fifoWriteEnable (full : Bool) :
    (fifoWrite full a v).fifoWriteEnable = v.fifoWriteEnable := by
  unfold fifoWrite
  repeat' split
  all_goals rfl

@[simp] theorem fifoWrite_awready (full : Bool) : (fifoWrite full a v).awready = v.awready := by
  unfold fifoWrite
  repeat' split
  all_goals rfl

@[simp] theorem fifoWrite_rx (full : Bool) : (fifoWrite full a v).rx = v.rx := by
  unfold fifoWrite
  repeat' split
  all_goals rfl

theorem tick_awready : (a.tick i).awready = (!a.awready && i.awvalid && i.wvalid) := by
  simp only [tick, fifoWrite_awready, handshake]

/-- The slave does not accept writes in successive cycles. -/
theorem not_writes_of_not_awready {r : BitVec 5} (h : a.awready = false) : ¬ a.Writes r i := by
  rintro ⟨hwren, -⟩
  rw [slvRegWren, h, Bool.and_false, Bool.false_and] at hwren
  exact Bool.false_ne_true hwren

theorem awready_of_writes {r : BitVec 5} (h : a.Writes r i) : (a.tick i).awready = false := by
  have hready : a.awready = true := by
    by_contra hnot
    exact not_writes_of_not_awready ((Bool.not_eq_true _).mp hnot) h
  rw [tick_awready, hready]
  rfl

theorem tick_slvReg0 :
    (a.tick i).slvReg0 = if a.Writes 0 i then strobed i.wstrb i.wdata a.slvReg0 else a.slvReg0 := by
  simp only [tick, fifoWrite_slvReg0, handshake, regWrite, Writes]
  by_cases hwren : a.slvRegWren i = true
  · simp only [hwren, if_true, true_and]
    by_cases h0 : a.awaddr = 0
    · rw [if_pos h0, if_pos h0]
    · rw [if_neg h0, if_neg h0]
      repeat' split
      all_goals rfl
  · simp only [hwren, false_and, if_false, Bool.false_eq_true]
    rfl

theorem regWrite_of_writes_one (h : a.Writes 1 i) :
    regWrite i a v = { v with slvReg1 := strobed i.wstrb i.wdata a.slvReg1, fifoWriteEnable := true } := by
  have h0 : ¬ a.awaddr = 0 := by
    rw [h.2]
    decide
  rw [regWrite, if_pos h.1, if_neg h0, if_pos h.2]

theorem regWrite_of_not_writes_one (h : ¬ a.Writes 1 i) :
    (regWrite i a v).slvReg1 = v.slvReg1 ∧ (regWrite i a v).fifoWriteEnable = v.fifoWriteEnable := by
  unfold regWrite
  by_cases hwren : a.slvRegWren i = true
  · rw [if_pos hwren, if_neg fun h1 => h ⟨hwren, h1⟩]
    repeat' split
    all_goals exact ⟨rfl, rfl⟩
  · rw [if_neg hwren]
    exact ⟨rfl, rfl⟩

theorem tick_slvReg1 :
    (a.tick i).slvReg1 = if a.Writes 1 i then strobed i.wstrb i.wdata a.slvReg1 else a.slvReg1 := by
  simp only [tick, fifoWrite_slvReg1, handshake]
  by_cases h : a.Writes 1 i
  · rw [if_pos h, regWrite_of_writes_one h]
  · rw [if_neg h, (regWrite_of_not_writes_one h).1]
    rfl

theorem tick_fifoWriteEnable : (a.tick i).fifoWriteEnable
    = if a.Writes 1 i then true else a.fifoWriteEnable && !(a.fifoWriteEnable && a.fifoWriteCplPulse) := by
  simp only [tick, fifoWrite_fifoWriteEnable, handshake]
  by_cases h : a.Writes 1 i
  · rw [if_pos h, regWrite_of_writes_one h]
  · rw [if_neg h, (regWrite_of_not_writes_one h).2]
    rfl

@[simp] theorem tick_rx : (a.tick i).rx = a.rx.tick a.rxfifoWriteEnable a.slvReg2 := by
  simp only [tick, fifoWrite_rx, handshake, regWrite]
  repeat' split
  all_goals rfl

end Step

/-! ### The writer of the descriptor queue -/

/-- The stages of a pair on its way to the queue. -/
inductive QueueStage where
  | rest
  | waiting
  | writing
  | completing
deriving DecidableEq

/-- The slave is at the given stage. -/
structure At (g : QueueStage) (a : AxiS00) : Prop where
  enable : a.fifoWriteEnable = decide (g ≠ .rest)
  status : a.fifoWriteStatus = match g with
    | .rest | .waiting => .ph0
    | .writing => .ph1
    | .completing => .ph2
  cpl : a.fifoWriteCplPulse = decide (g = .completing)
  wrEn : a.fifoWrEn = decide (g = .writing)

/-- The stage after an edge; `asked` says that register 1 is written. -/
def QueueStage.next (asked full : Bool) : QueueStage → QueueStage
  | rest | completing => if asked then waiting else rest
  | waiting => if full then waiting else writing
  | writing => completing

theorem at_reset : At .rest {} := ⟨rfl, rfl, rfl, rfl⟩

section Stage

variable {a : AxiS00} {i : AxiIn} {g : QueueStage}

theorem tick_fifo (hnot : ¬ (a.fifoWriteEnable = true ∧ a.fifoWriteStatus = .ph0 ∧ i.fifoFull = false)) :
    ((a.tick i).fifoWriteStatus, (a.tick i).fifoWriteCplPulse, (a.tick i).fifoWrEn) =
      match a.fifoWriteStatus with
      | .ph0 => (.ph0, a.fifoWriteCplPulse, a.fifoWrEn)
      | .ph1 => (.ph2, true, false)
      | .ph2 => (.ph0, false, a.fifoWrEn) := by
  simp only [tick, fifoWrite, if_neg hnot]
  generalize hv : ({ a.drop with
    rx := a.rx.tick a.rxfifoWriteEnable a.slvReg2, tx := a.tx.tick a.txfifoWriteEnable a.slvReg4 } : AxiS00) = v
  obtain ⟨hstatus, hcpl, hwrEn⟩ := rest_fifo (a := a) (i := i) v
  have hcpl' : v.fifoWriteCplPulse = a.fifoWriteCplPulse := by
    rw [← hv]
    rfl
  have hwrEn' : v.fifoWrEn = a.fifoWrEn := by
    rw [← hv]
    rfl
  have hstatus' : v.fifoWriteStatus = a.fifoWriteStatus := by
    rw [← hv]
    rfl
  cases hst : a.fifoWriteStatus with
  | ph0 => simp only [hstatus, hcpl, hwrEn, hstatus', hcpl', hwrEn', hst]
  | ph1 => rfl
  | ph2 => simp only [hwrEn, hwrEn']

theorem At.tick_sample (h : At .waiting a) (hfull : i.fifoFull = false) :
    At .writing (a.tick i) ∧ (a.tick i).fifoDwrite = (a.slvReg0, a.slvReg1) := by
  have hcond : a.fifoWriteEnable = true ∧ a.fifoWriteStatus = .ph0 ∧ i.fifoFull = false := ⟨h.enable, h.status, hfull⟩
  have henable : (a.tick i).fifoWriteEnable = true := by
    rw [tick_fifoWriteEnable, hcond.1, h.cpl]
    split <;> rfl
  refine ⟨⟨henable, ?_, ?_, ?_⟩, ?_⟩
  · simp only [tick, fifoWrite, if_pos hcond]
  · simp only [tick, fifoWrite, if_pos hcond]
    exact (rest_fifo _).2.1.trans h.cpl
  · simp only [tick, fifoWrite, if_pos hcond]
    rfl
  · simp only [tick, fifoWrite, if_pos hcond]

/-- **The stages of a pair follow one another.** -/
theorem At.tick (h : At g a) : At (g.next (decide (a.Writes 1 i)) i.fifoFull) (a.tick i) := by
  have henable := tick_fifoWriteEnable (a := a) (i := i)
  have hstatus := h.status
  rw [h.enable, h.cpl] at henable
  by_cases hsample : g = .waiting ∧ i.fifoFull = false
  · obtain ⟨rfl, hfull⟩ := hsample
    rw [QueueStage.next, hfull]
    exact (h.tick_sample hfull).1
  · have hnot : ¬ (a.fifoWriteEnable = true ∧ a.fifoWriteStatus = .ph0 ∧ i.fifoFull = false) := by
      rintro ⟨hen, hph, hfull⟩
      rw [h.enable] at hen
      rw [hstatus] at hph
      cases g <;> first | exact hsample ⟨rfl, hfull⟩ | exact absurd hen (by decide) | exact WrPhase.noConfusion hph
    have hfifo := tick_fifo hnot
    rw [hstatus, h.cpl, h.wrEn] at hfifo
    cases g with
    | rest | completing =>
      obtain ⟨hst', hrest⟩ := Prod.mk.inj hfifo
      obtain ⟨hcpl', hwrEn'⟩ := Prod.mk.inj hrest
      by_cases hw : a.Writes 1 i
      · rw [if_pos hw] at henable
        rw [QueueStage.next, if_pos (decide_eq_true hw)]
        exact ⟨henable, hst', hcpl', hwrEn'⟩
      · rw [if_neg hw] at henable
        rw [QueueStage.next, if_neg (by rw [decide_eq_true_eq]; exact hw)]
        exact ⟨henable, hst', hcpl', hwrEn'⟩
    | waiting =>
      have hfull : i.fifoFull = true := by
        by_contra hlow
        exact hsample ⟨rfl, (Bool.not_eq_true _).mp hlow⟩
      obtain ⟨hst', hrest⟩ := Prod.mk.inj hfifo
      obtain ⟨hcpl', hwrEn'⟩ := Prod.mk.inj hrest
      rw [QueueStage.next, hfull]
      refine ⟨?_, hst', hcpl', hwrEn'⟩
      rw [henable]
      split <;> rfl
    | writing =>
      obtain ⟨hst', hrest⟩ := Prod.mk.inj hfifo
      obtain ⟨hcpl', hwrEn'⟩ := Prod.mk.inj hrest
      refine ⟨?_, hst', hcpl', hwrEn'⟩
      rw [henable]
      split <;> rfl

end Stage

/-! ### A driver -/

/-- The driver writes `v` to register `r` in cycles `2 * k` and `2 * k + 1`, for the `k`-th write `(r, v)` of the
list. -/
def drives (l : List (BitVec 5 × BitVec 32)) (n : ℕ) : AxiIn :=
  match l[n / 2]? with
  | some (r, v) => { awvalid := true, wvalid := true, awaddr := r, wdata := v }
  | none => {}

theorem not_writes_of_drives {l : List (BitVec 5 × BitVec 32)} {n : ℕ} (h : 2 * l.length ≤ n) {r : BitVec 5}
    {a : AxiS00} {full : Bool} : ¬ a.Writes r { drives l n with fifoFull := full } := by
  have hnone : l[n / 2]? = none := by
    rw [List.getElem?_eq_none_iff]
    omega
  rintro ⟨hwren, -⟩
  rw [drives, hnone, slvRegWren, Bool.and_false] at hwren
  exact Bool.false_ne_true hwren

end AxiS00

end VanetTdma.Fpga
