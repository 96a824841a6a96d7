import WaspSim.Ptx.Operand

/-!
# Executing a queue load

`wasp_rfq_ld_exec` and `smemq_ld_exec` take one address for each payload word from
the operands after the queue operand. How a thread evaluates an operand comes from
outside the modelled sources.
-/

namespace WaspSim

/-- What a queue load asks of its thread and of global memory. -/
structure PtxThread where
  /-- `get_operand_value` of an address. -/
  operandValue : OperandInfo → BitVec 64
  whichspace : BitVec 64 → MemorySpace
  genericToGlobal : BitVec 64 → BitVec 64
  /-- Global memory at the size of the instruction's type. -/
  read : BitVec 64 → BitVec 64

/-- The assertions of a queue load. -/
inductive ExecError where
  /-- More words than `MAX_ACCESSES_PER_INSN_PER_THREAD`. -/
  | words
  /-- Fewer operands than the words need. -/
  | operands
  /-- The address is not global. -/
  | space
  deriving DecidableEq, Repr

/-- What a queue load leaves of one lane. -/
structure LaneLoad where
  /-- The words given to `functional_store_lane`. -/
  words : List (BitVec 64)
  /-- `memreqaddr`. -/
  addrs : List (BitVec 64)
  deriving DecidableEq, Repr

namespace PtxInstruction

/-- `MAX_ACCESSES_PER_INSN_PER_THREAD`. -/
def maxAccesses : Nat := 8

/-- `wasp_rfq_effective_address`. -/
def effectiveAddress (t : PtxThread) (i : PtxInstruction) (src : OperandInfo) :
    Except ExecError (BitVec 64) := do
  let addr := t.operandValue src
  let (space, addr) :=
    if i.space = .generic then
      (t.whichspace addr,
        if t.whichspace addr = .global then t.genericToGlobal addr else addr)
    else (i.space, addr)
  require .space (space = .global)
  pure addr

/-- `set_addr`. -/
def setAddr (memreqaddr addrs : List (BitVec 64)) : List (BitVec 64) :=
  addrs ++ memreqaddr.drop addrs.length

/-- `wasp_rfq_ld_exec` and `smemq_ld_exec`. -/
def ldExec (t : PtxThread) (i : PtxInstruction) (payloadWords : Nat) :
    Except ExecError LaneLoad := do
  require .words (payloadWords ≤ maxAccesses)
  require .operands (payloadWords + 1 ≤ i.operands.length)
  let loaded ← (List.range payloadWords).mapM fun word => do
    let src ← fetch .operands i.operands[word + 1]?
    let addr ← i.effectiveAddress t src
    pure (t.read addr, addr)
  pure {
    words := loaded.map Prod.fst
    addrs := setAddr (List.replicate maxAccesses 0) (loaded.map Prod.snd) }

/-- The part of `ptx_exec_inst` that a queue load goes through: an instruction that is no tuple
load sets its first address once more. -/
def ptxExecInst (t : PtxThread) (i : PtxInstruction) (inst : QueueInst) :
    Except ExecError LaneLoad := do
  let lane ← i.ldExec t inst.payloadWords
  pure (if 1 < inst.payloadWordsPerLane then lane
    else { lane with addrs := setAddr lane.addrs [lane.addrs.headD 0] })

/-- The operands that a load of so many words executes. -/
def executed (i : PtxInstruction) (payloadWords : Nat) : List OperandInfo :=
  (i.operands.drop 1).take payloadWords

/-- The width that the suffix of the instruction announces. -/
def suffixWords (i : PtxInstruction) : Nat :=
  if PtxInst.vectorSpec i.options = some .v3 then 3 else 1

theorem suffixWords_le (i : PtxInstruction) : 0 < i.suffixWords ∧ i.suffixWords ≤ 3 := by
  unfold suffixWords
  split <;> decide

/-- The words that are looked up one by one are the executed operands. -/
theorem mapM_lookup {α : Type} (operands : List OperandInfo) (f : OperandInfo → Except ExecError α)
    {n : Nat} (hn : n + 1 ≤ operands.length) :
    ((List.range n).mapM fun word => do
      let src ← fetch .operands operands[word + 1]?
      f src) = ((operands.drop 1).take n).mapM f := by
  induction n with
  | zero => rfl
  | succ n ih =>
    have hget : operands[n + 1]? = some operands[n + 1] := List.getElem?_eq_getElem (by omega)
    have htake : (operands.drop 1).take (n + 1) =
        (operands.drop 1).take n ++ [operands[n + 1]] := by
      rw [List.take_add_one, List.getElem?_drop, Nat.add_comm 1 n, hget]
      rfl
    rw [List.range_succ, List.mapM_append, ih (by omega), htake, List.mapM_append]
    simp only [List.mapM_cons, List.mapM_nil, hget, fetch]
    rfl

/-- A load with enough operands executes the first ones. -/
theorem ldExec_eq (t : PtxThread) (i : PtxInstruction) {n : Nat} (hwords : n ≤ maxAccesses)
    (hn : n + 1 ≤ i.operands.length) :
    i.ldExec t n = (do
      let addrs ← (i.executed n).mapM (i.effectiveAddress t)
      pure
        { words := addrs.map t.read,
          addrs := setAddr (List.replicate maxAccesses 0) addrs }) := by
  have hpairs : ∀ operands : List OperandInfo, (operands.mapM fun src => do
      let addr ← i.effectiveAddress t src
      pure (t.read addr, addr)) = (do
        let addrs ← operands.mapM (i.effectiveAddress t)
        pure (addrs.map fun addr => (t.read addr, addr))) := by
    intro operands
    induction operands with
    | nil => rfl
    | cons src operands ih =>
      simp only [List.mapM_cons, ih, bind_assoc, pure_bind, List.map_cons]
  unfold ldExec executed
  rw [mapM_lookup i.operands _ hn, hpairs]
  simp only [require, hwords, hn, ↓reduceIte, bind_assoc, pure_bind, List.map_map,
    Function.comp_def, List.map_id']
  rfl

/-- A load with too few operands is stopped by its assertion. -/
theorem ldExec_eq_error (t : PtxThread) (i : PtxInstruction) {n : Nat} (hwords : n ≤ maxAccesses)
    (hn : i.operands.length < n + 1) : i.ldExec t n = .error .operands := by
  unfold ldExec
  simp only [require, hwords, Nat.not_le.mpr hn, ↓reduceIte]
  rfl

/-- What a decoded queue instruction says about its options and operands. -/
theorem decode_eq_ok {i : PtxInst} {inst : QueueInst} (h : i.decode = .ok (some inst)) :
    i.opcode = (if inst.load then .ld else .mov) ∧
      inst.payloadWordsPerLane =
        (if PtxInst.vectorSpec i.options = some .v3 then 3 else 1) ∧
        inst.vectorDst = decide (i.operands[0]? = some .vector) ∧
          ∃ o, i.operands[if inst.load then 0 else 1]? = some o ∧
            PtxInst.waspQueueIdFromOperand o = .ok inst.queueId := by
  have hflags : ∀ {seen flags}, i.queueFlags seen = .ok flags →
      (flags.load || flags.move) = true →
        i.opcode = (if flags.load then .ld else .mov) ∧ flags.payloadWordsPerLane =
          (if PtxInst.vectorSpec i.options = some .v3 then 3 else 1) := by
    intro seen flags hflags hqueue
    cases seen with
    | false =>
      cases hflags
      cases hqueue
    | true =>
      simp only [PtxInst.queueFlags, ↓reduceIte, bind_eq_ok, require_eq_ok, pure_eq_ok] at hflags
      obtain ⟨_, hop, rfl⟩ := hflags
      rcases hop with hop | hop
      · simp [hop]
      · simp [hop]
  have hid : ∀ {flags : QueueFlags} {id}, i.queueId flags = .ok id →
      (flags.load || flags.move) = true →
        ∃ o, i.operands[if flags.load then 0 else 1]? = some o ∧
          PtxInst.waspQueueIdFromOperand o = .ok id := by
    intro flags id hid hqueue
    simp only [PtxInst.queueId, hqueue, ↓reduceIte, bind_eq_ok, fetch_eq_ok] at hid
    exact hid
  have hinst : ∀ kind flags id, (∃ seen, i.queueFlags seen = .ok flags) →
      i.queueId flags = .ok id → (flags.load || flags.move) = true →
        inst = i.queueInst kind flags id →
          i.opcode = (if inst.load then .ld else .mov) ∧
            inst.payloadWordsPerLane =
              (if PtxInst.vectorSpec i.options = some .v3 then 3 else 1) ∧
              inst.vectorDst = decide (i.operands[0]? = some .vector) ∧
                ∃ o, i.operands[if inst.load then 0 else 1]? = some o ∧
                  PtxInst.waspQueueIdFromOperand o = .ok inst.queueId := by
    rintro kind flags id ⟨seen, hseen⟩ hqueueId hqueue rfl
    obtain ⟨hop, hwords⟩ := hflags hseen hqueue
    refine ⟨hop, ?_, rfl, hid hqueueId hqueue⟩
    simp only [QueueInst.payloadWordsPerLane, PtxInst.queueInst, hwords]
    split
    · rfl
    · rfl
  simp only [PtxInst.decode, bind_eq_ok, require_eq_ok, pure_eq_ok] at h
  obtain ⟨_, _, rfq, hrfq, smemq, hsmemq, rfqId, hrfqId, smemqId, hsmemqId, h⟩ := h
  by_cases hqueue : (rfq.load || rfq.move) = true
  · rw [if_pos hqueue, Option.some.injEq] at h
    exact hinst .rfq rfq rfqId ⟨_, hrfq⟩ hrfqId hqueue h.symm
  · rw [if_neg hqueue] at h
    by_cases hqueue' : (smemq.load || smemq.move) = true
    · rw [if_pos hqueue', Option.some.injEq] at h
      exact hinst .smemq smemq smemqId ⟨_, hsmemq⟩ hsmemqId hqueue' h.symm
    · rw [if_neg hqueue'] at h
      cases h

/-- What a decoded instruction went through. -/
theorem preDecode_eq_ok {hasDst : Opcode → Bool} {i : PtxInstruction} {inst : QueueInst}
    {r : Registers} (h : i.preDecode hasDst = .ok (some (inst, r))) :
    i.toPtxInst.decode = .ok (some inst) ∧
      let walked := Registers.processOperands (hasDst i.opcode) i.operands
      (if i.accessesMemory then i.operands else []).foldlM Registers.addressRegisters
        { (if inst.load then { walked with out := List.replicate 8 0 } else walked) with
          pred := (i.pred.map RegNum.num).getD 0 } = .ok r := by
  simp only [preDecode, bind_eq_ok] at h
  obtain ⟨inst?, hdecode, h⟩ := h
  cases inst? with
  | none =>
    rw [pure_eq_ok] at h
    cases h
  | some inst' =>
    simp only [bind_eq_ok, pure_eq_ok, Option.some.injEq, Prod.mk.injEq] at h
    obtain ⟨r', hwalk, rfl, rfl⟩ := h
    exact ⟨hdecode, hwalk⟩

/-- The stored width is the width of the suffix. -/
theorem payloadWords_eq {hasDst : Opcode → Bool} {i : PtxInstruction} {inst : QueueInst}
    {r : Registers} (h : i.preDecode hasDst = .ok (some (inst, r))) :
    inst.payloadWordsPerLane = i.suffixWords :=
  (decode_eq_ok (preDecode_eq_ok h).1).2.1

end PtxInstruction
end WaspSim
