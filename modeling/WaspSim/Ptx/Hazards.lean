import WaspSim.Ptx.Execute

/-!
# Hazards of tuple loads

The scoreboard sees the registers that `pre_decode` recorded. Of a load with several
addresses these are the guard predicate and the register of the last address, so the
registers of the other executed addresses are seen only when they repeat one of them.
-/

namespace WaspSim

/-- An address operand of a queue load. -/
inductive Address where
  | register (name : List Char) (reg : RegNum) (offset : Int := 0)
  | immediate (value : Nat)
  deriving DecidableEq, Repr

namespace Address

def operandInfo : Address → OperandInfo
  | .register name reg offset => .memory false (.expression (.register name reg) offset)
  | .immediate value => .memory false (.immediate value)

/-- The register of an address. -/
def reg? : Address → Option RegNum
  | .register _ reg _ => some reg
  | .immediate _ => none

/-- The register of the last address that has one. -/
def lastReg? (addresses : List Address) : Option RegNum :=
  (addresses.filterMap reg?).getLast?

end Address

/-- The registers that `get_operand_value` reads for an address. -/
def OperandInfo.addressReads : OperandInfo → List Nat
  | .scalar (.register _ reg) => [reg.num]
  | .memory _ (.expression (.register _ reg) _) => [reg.num]
  | .memory _ (.increment (.register _ reg) _) => [reg.num]
  | .memory _ (.twin first second) => [first.regNum, second.regNum]
  | _ => []

namespace Registers

/-- The registers that the scoreboard compares with the pending ones. -/
def recorded (r : Registers) : List Nat :=
  (r.out ++ r.ins ++ [r.pred, r.ar1, r.ar2]).filter (0 < ·)

/-- `checkCollision`: a recorded register waits for a write. -/
def checkCollision (r : Registers) (pending : Nat → Bool) : Bool := r.recorded.any pending

/-- A recorded register is never missed. -/
theorem mem_recorded_iff {r : Registers} {n : Nat} :
    n ∈ r.recorded ↔
      ∀ pending : Nat → Bool, pending n = true → r.checkCollision pending = true := by
  constructor
  · intro hn pending hpending
    exact List.any_eq_true.mpr ⟨n, hn, hpending⟩
  · intro h
    obtain ⟨m, hm, hmn⟩ := List.any_eq_true.mp (h (· == n) (beq_self_eq_true n))
    rw [beq_iff_eq] at hmn
    exact hmn ▸ hm

/-- The first walk finds no source register in address operands. -/
theorem foldl_source_addresses (addresses : List Address) (p : Registers × Nat) :
    (addresses.map Address.operandInfo).foldl source p = p := by
  induction addresses with
  | nil => rfl
  | cons a addresses ih =>
    rw [List.map_cons, List.foldl_cons]
    cases a with
    | register name reg offset => exact ih
    | immediate value => exact ih

/-- The second walk keeps the register of the last address. -/
theorem foldlM_addressRegisters (addresses : List Address) (r : Registers) :
    (addresses.map Address.operandInfo).foldlM addressRegisters r =
      .ok { r with ar1 := ((Address.lastReg? addresses).map RegNum.num).getD r.ar1 } := by
  induction addresses generalizing r with
  | nil => rfl
  | cons a addresses ih =>
    rw [List.map_cons, List.foldlM_cons]
    cases a with
    | immediate value => exact ih r
    | register name reg offset =>
      refine (ih { r with ar1 := reg.num }).trans ?_
      have hlast : Address.lastReg? (.register name reg offset :: addresses) =
          some ((Address.lastReg? addresses).getD reg) := by
        simp [Address.lastReg?, Address.reg?, List.getLast?_cons]
      rw [hlast]
      cases Address.lastReg? addresses with
      | none => rfl
      | some last => rfl

end Registers

namespace PtxInstruction

variable {hasDst : Opcode → Bool} {i : PtxInstruction} {queue : OperandInfo}
  {addresses : List Address} {inst : QueueInst} {r : Registers}

/-- The registers that a queue load reads to form its addresses; too few operands stop it
before. -/
def ldReads (i : PtxInstruction) (payloadWords : Nat) : List Nat :=
  if payloadWords + 1 ≤ i.operands.length then
    (i.executed payloadWords).flatMap OperandInfo.addressReads
  else []

/-- Only the predicate and the last address register of a queue load are recorded. -/
theorem preDecode_load (hdst : hasDst .ld = true)
    (hops : i.operands = queue :: addresses.map Address.operandInfo)
    (h : i.preDecode hasDst = .ok (some (inst, r))) (hload : inst.load = true) :
    r = {
      pred := (i.pred.map RegNum.num).getD 0
      ar1 := ((Address.lastReg? addresses).map RegNum.num).getD 0 } := by
  obtain ⟨hdecode, hwalk⟩ := preDecode_eq_ok h
  obtain ⟨hop, _, _, o, ho, hid⟩ := decode_eq_ok hdecode
  rw [hload] at hop ho hwalk
  obtain rfl : queue.operand = o := by
    simpa [toPtxInst, hops] using ho
  have hld : i.opcode = .ld := hop
  have hmemory : i.accessesMemory = true := by simp [accessesMemory, hld]
  simp only [hmemory, ↓reduceIte, hld, hdst, hops, List.foldlM_cons, bind_eq_ok] at hwalk
  obtain ⟨r', hqueue, hwalk⟩ := hwalk
  rw [Registers.foldlM_addressRegisters, Except.ok.injEq] at hwalk
  -- the queue operand is no memory operand
  cases queue with
  | memory addrSpace address => cases hid
  | vector symbols => cases hid
  | other => cases hid
  | literal value =>
    cases hqueue
    rw [← hwalk]
    simp [Registers.processOperands, Registers.destination, Registers.foldl_source_addresses]
  | scalar symbol =>
    cases hqueue
    rw [← hwalk]
    simp only [Registers.processOperands, ↓reduceIte, Registers.foldl_source_addresses]
    cases symbol with
    | register name reg => rfl
    | nullRegister => rfl
    | label name => rfl
    | var => rfl

/-- The registers which the executed addresses name. -/
theorem mem_ldReads_iff (hops : i.operands = queue :: addresses.map Address.operandInfo) {n : Nat} :
    n ∈ i.ldReads i.suffixWords ↔ i.suffixWords ≤ addresses.length ∧
      ∃ a ∈ addresses.take i.suffixWords, ∃ reg, a.reg? = some reg ∧ reg.num = n := by
  have hreads : ∀ a : Address, n ∈ a.operandInfo.addressReads ↔
      ∃ reg, a.reg? = some reg ∧ reg.num = n := by
    intro a
    cases a with
    | register name reg offset =>
      simp [Address.operandInfo, OperandInfo.addressReads, Address.reg?, eq_comm]
    | immediate value => simp [Address.operandInfo, OperandInfo.addressReads, Address.reg?]
  unfold ldReads executed
  rw [hops]
  simp only [List.length_cons, List.length_map, Nat.add_le_add_iff_right, List.drop_succ_cons,
    List.drop_zero, ← List.map_take]
  split
  · rename_i hle
    rw [and_iff_right hle, List.mem_flatMap]
    simp only [List.mem_map, exists_exists_and_eq_and, hreads]
  · rename_i hlt
    simp [hlt]

/-- No destination is recorded for a queue load. Every register that it reads for an address is
recorded exactly when each register of an executed address is the last address register or the
guard predicate; a recorded register is never missed by the scoreboard. -/
theorem hazards_tracked_iff (hasDst : Opcode → Bool) (hdst : hasDst .ld = true)
    (i : PtxInstruction) (queue : OperandInfo) (addresses : List Address) (inst : QueueInst)
    (r : Registers) (hops : i.operands = queue :: addresses.map Address.operandInfo)
    (h : i.preDecode hasDst = .ok (some (inst, r))) (hload : inst.load = true) :
    ((∀ n ∈ r.out, n = 0) ∧ r.outcount = 0) ∧
      ((∀ n ∈ i.ldReads inst.payloadWords, n ∈ r.recorded ∧
          ∀ pending : Nat → Bool, pending n = true → r.checkCollision pending = true) ↔
        (i.suffixWords ≤ addresses.length → ∀ a ∈ addresses.take i.suffixWords, ∀ reg,
          a.reg? = some reg → some reg = Address.lastReg? addresses ∨ some reg = i.pred)) := by
  have hregs := preDecode_load hdst hops h hload
  have hwords : inst.payloadWords = i.suffixWords := by
    rw [QueueInst.payloadWords_eq, payloadWords_eq h]
  have hrecorded : ∀ reg : RegNum, reg.num ∈ r.recorded ↔
      some reg = Address.lastReg? addresses ∨ some reg = i.pred := by
    intro reg
    have hnum : ∀ o : Option RegNum, (o.map RegNum.num).getD 0 = reg.num ↔ some reg = o := by
      intro o
      cases o with
      | none =>
        have hpos := reg.pos
        simp
        omega
      | some reg' =>
        obtain ⟨n, hn⟩ := reg
        obtain ⟨n', hn'⟩ := reg'
        simp [eq_comm]
    have hpos := reg.pos
    subst hregs
    simp only [Registers.recorded, List.mem_filter, List.mem_append, List.mem_replicate,
      List.mem_cons, List.not_mem_nil, or_false, decide_eq_true_eq, hpos, and_true,
      ← hnum i.pred, ← hnum (Address.lastReg? addresses)]
    omega
  constructor
  · subst hregs
    exact ⟨fun n hn => List.eq_of_mem_replicate hn, rfl⟩
  · rw [hwords]
    constructor
    · intro hall hle a ha reg hreg
      exact (hrecorded reg).mp (hall reg.num ((mem_ldReads_iff hops).mpr
        ⟨hle, a, ha, reg, hreg, rfl⟩)).1
    · intro hcond n hn
      obtain ⟨hle, a, ha, reg, hreg, rfl⟩ := (mem_ldReads_iff hops).mp hn
      have hmem := (hrecorded reg).mpr (hcond hle a ha reg hreg)
      exact ⟨hmem, Registers.mem_recorded_iff.mp hmem⟩

/-- `ld.global.rfq.v3` of queue 0 with the given addresses. -/
def sampleTuple (addresses : List Address) : PtxInstruction where
  opcode := .ld
  options := [.rfq, .v3]
  operands := .literal 0 :: addresses.map Address.operandInfo

/-- What the tuple load is decoded to. -/
def sampleTupleInst : QueueInst where
  kind := .rfq
  load := true
  queueId := 0
  v3 := true
  vectorDst := false

/-- An address in register `n + 1`. -/
def sampleAddress (n : Nat) (offset : Int) : Address :=
  .register ['r'] ⟨n + 1, Nat.succ_pos n⟩ offset

theorem hazards_tracked_iff_of_one_register :
    (sampleTuple [sampleAddress 0 0, sampleAddress 0 4, .immediate 64]).preDecode (· == .ld) =
        .ok (some (sampleTupleInst, { ar1 := 1 })) ∧
      ∀ n ∈ (sampleTuple [sampleAddress 0 0, sampleAddress 0 4, .immediate 64]).ldReads
        sampleTupleInst.payloadWords, n ∈ Registers.recorded { ar1 := 1 } := by
  obtain ⟨_, htracked⟩ := hazards_tracked_iff (· == .ld) rfl
    (sampleTuple [sampleAddress 0 0, sampleAddress 0 4, .immediate 64]) (.literal 0)
    [sampleAddress 0 0, sampleAddress 0 4, .immediate 64] sampleTupleInst { ar1 := 1 } rfl rfl rfl
  refine ⟨rfl, fun n hn => (htracked.mpr ?_ n hn).1⟩
  intro _ a ha reg hreg
  left
  have hmem := List.mem_of_mem_take ha
  simp only [List.mem_cons, List.not_mem_nil, or_false] at hmem
  rcases hmem with rfl | rfl | rfl
  · exact hreg.symm
  · exact hreg.symm
  · cases hreg

/-- A load from three registers reads the first of them while the scoreboard sees only the
last. -/
theorem first_address_register_untracked :
    (sampleTuple [sampleAddress 0 0, sampleAddress 1 0, sampleAddress 2 0]).preDecode (· == .ld) =
        .ok (some (sampleTupleInst, { ar1 := 3 })) ∧
      1 ∈ (sampleTuple [sampleAddress 0 0, sampleAddress 1 0, sampleAddress 2 0]).ldReads
        sampleTupleInst.payloadWords ∧
      1 ∉ Registers.recorded { ar1 := 3 } ∧
        Registers.checkCollision { ar1 := 3 } (· == 1) = false :=
  ⟨rfl, by decide, by decide, by decide⟩

end PtxInstruction
end WaspSim
