import WaspSim.Ptx.Execute
import WaspSim.Shader.Issue

/-!
# Payload width and operands

The width of a queue instruction comes from its suffix alone: 3 for `.v3` and 1 for
everything else. A load with fewer addresses than words is stopped by an assertion;
one with more addresses drops the rest, and a move is not checked at all.
-/

namespace WaspSim
namespace PtxInstruction

variable {hasDst : Opcode → Bool} {i : PtxInstruction} {inst : QueueInst} {r : Registers}

/-- The elements of the destination, 1 for a scalar. -/
def dstElements (i : PtxInstruction) : Nat := (i.operands.head?.map OperandInfo.elements).getD 1

/-- The operands after the queue operand, which a load takes as addresses. -/
def addressOperands (i : PtxInstruction) : List OperandInfo := i.operands.drop 1

/-- Every thread that executes the load runs into an assertion. -/
def Rejected (i : PtxInstruction) (inst : QueueInst) : Prop :=
  ∀ t, ∃ e, i.ptxExecInst t inst = .error e

/-- The width is the number of addresses of a load, unless it is rejected, and the number of
destination elements of a move. -/
def WidthAgrees (i : PtxInstruction) (inst : QueueInst) : Prop :=
  if inst.load then inst.payloadWordsPerLane = i.addressOperands.length ∨ i.Rejected inst
  else inst.payloadWordsPerLane = i.dstElements

/-- The suffix announces as many words as the operands need: a load lists no more addresses,
or its space is not global; a move has exactly so many destination elements. -/
def SuffixFits (i : PtxInstruction) : Prop :=
  if i.opcode = .ld then i.addressOperands.length ≤ i.suffixWords ∨ i.space = .other
  else i.dstElements = i.suffixWords

/-- A thread whose generic addresses are global. -/
def globalThread : PtxThread where
  operandValue := fun _ => 0
  whichspace := fun _ => .global
  genericToGlobal := id
  read := id

/-- A thread without registers reads address 0. -/
theorem effectiveAddress_globalThread (hspace : i.space ≠ .other) (src : OperandInfo) :
    i.effectiveAddress globalThread src = .ok 0 := by
  unfold effectiveAddress
  cases h : i.space with
  | generic => rfl
  | global => rfl
  | other => exact absurd h hspace

/-- Another space has no effective address. -/
theorem effectiveAddress_other (hspace : i.space = .other) (t : PtxThread) (src : OperandInfo) :
    i.effectiveAddress t src = .error .space := by
  unfold effectiveAddress
  rw [hspace]
  rfl

/-- Setting the first address again changes nothing. -/
theorem ptxExecInst_eq (h : 0 < inst.payloadWords) (t : PtxThread) :
    i.ptxExecInst t inst = i.ldExec t inst.payloadWords := by
  unfold ptxExecInst
  cases hld : i.ldExec t inst.payloadWords with
  | error e => rfl
  | ok lane =>
    have hne : lane.addrs ≠ [] := by
      simp only [ldExec, bind_eq_ok, require_eq_ok, pure_eq_ok] at hld
      obtain ⟨_, _, _, _, loaded, hloaded, rfl⟩ := hld
      have hlength := (mapM_range_eq_ok hloaded).1
      intro hnil
      have hzero := congrArg List.length hnil
      simp only [setAddr, List.length_append, List.length_map, hlength, List.length_nil] at hzero
      omega
    obtain ⟨words, addrs⟩ := lane
    cases addrs with
    | nil => exact absurd rfl hne
    | cons addr addrs =>
      simp [bind, Except.bind, pure, Except.pure, setAddr]

/-- A load is rejected when it has too few addresses or its space is not global. -/
theorem rejected_iff (h : inst.payloadWords = i.suffixWords) :
    i.Rejected inst ↔ i.addressOperands.length < i.suffixWords ∨ i.space = .other := by
  obtain ⟨hpos, hle⟩ := i.suffixWords_le
  have hexec : ∀ t, i.ptxExecInst t inst = i.ldExec t i.suffixWords := by
    intro t
    rw [ptxExecInst_eq (by omega), h]
  have hmax : i.suffixWords ≤ maxAccesses := by
    unfold maxAccesses
    omega
  have hlength : i.addressOperands.length = i.operands.length - 1 := by
    unfold addressOperands
    rw [List.length_drop]
  unfold Rejected
  simp only [hexec]
  by_cases hfew : i.operands.length < i.suffixWords + 1
  · have hshort : i.addressOperands.length < i.suffixWords := by omega
    simp only [hshort, true_or, iff_true]
    exact fun t => ⟨_, ldExec_eq_error t i hmax hfew⟩
  · rw [Nat.not_lt] at hfew
    have hlong : ¬i.addressOperands.length < i.suffixWords := by omega
    simp only [hlong, false_or, ldExec_eq _ i hmax hfew]
    constructor
    · intro hreject
      by_contra hspace
      obtain ⟨e, he⟩ := hreject globalThread
      have hall : ∀ srcs : List OperandInfo,
          srcs.mapM (i.effectiveAddress globalThread) = .ok (srcs.map fun _ => 0) := by
        intro srcs
        rw [mapM_eq_ok, List.forall₂_map_right_iff, List.forall₂_same]
        exact fun src _ => effectiveAddress_globalThread hspace src
      rw [hall] at he
      cases he
    · intro hspace t
      refine ⟨.space, ?_⟩
      -- there is a first address, which fails the assertion
      cases hsrcs : i.executed i.suffixWords with
      | nil =>
        have hzero := congrArg List.length hsrcs
        simp only [executed, List.length_take, List.length_drop, List.length_nil] at hzero
        omega
      | cons src srcs =>
        rw [List.mapM_cons, effectiveAddress_other hspace]
        rfl

/-- A load that executes attaches the addresses of its first operands and loads from them. -/
theorem ldExec_eq_ok {t : PtxThread} {n : Nat} {lane : LaneLoad} (h : i.ldExec t n = .ok lane) :
    ∃ addrs, (i.executed n).mapM (i.effectiveAddress t) = .ok addrs ∧
      lane.words = addrs.map t.read ∧
        lane.addrs = setAddr (List.replicate maxAccesses 0) addrs := by
  have hbounds : n ≤ maxAccesses ∧ n + 1 ≤ i.operands.length := by
    simp only [ldExec, bind_eq_ok, require_eq_ok] at h
    obtain ⟨_, hwords, _, hoperands, _⟩ := h
    exact ⟨hwords, hoperands⟩
  rw [ldExec_eq t i hbounds.1 hbounds.2] at h
  simp only [bind_eq_ok, pure_eq_ok] at h
  obtain ⟨addrs, haddrs, rfl⟩ := h
  exact ⟨addrs, haddrs, rfl, rfl⟩

/-- The destination of a move is a vector or has one element. -/
theorem vectorDst_or (h : i.preDecode hasDst = .ok (some (inst, r))) :
    inst.vectorDst = true ∨ i.dstElements = 1 := by
  obtain ⟨_, _, hvector, _⟩ := decode_eq_ok (preDecode_eq_ok h).1
  rw [hvector]
  unfold dstElements toPtxInst
  cases i.operands with
  | nil => exact .inr rfl
  | cons o operands =>
    cases o with
    | vector symbols => exact .inl rfl
    | literal value => exact .inr rfl
    | scalar symbol => exact .inr rfl
    | memory addrSpace address => exact .inr rfl
    | other => exact .inr rfl

/-- The payload width of a decoded queue instruction agrees with its operands exactly when the
suffix fits them. Then a load takes every listed address and loads from each of them, and every
element of a move's destination receives a word of the queue. -/
theorem width_agrees_iff (hasDst : Opcode → Bool) (i : PtxInstruction) (inst : QueueInst)
    (r : Registers) (h : i.preDecode hasDst = .ok (some (inst, r))) :
    (i.WidthAgrees inst ↔ i.SuffixFits) ∧ (i.SuffixFits →
      (inst.load = true → ∀ t lane, i.ptxExecInst t inst = .ok lane →
        ∃ addrs, i.addressOperands.mapM (i.effectiveAddress t) = .ok addrs ∧
          lane.words = addrs.map t.read ∧
            lane.addrs = setAddr (List.replicate maxAccesses 0) addrs) ∧
      (inst.load = false → ∀ (Mem : Type) cfg (s : Shader Mem) (w : WarpInst) lane values,
        w.toQueueInst = inst → s.moveExec cfg w lane = .ok values →
          ∀ word < i.dstElements, ∃ v, values[word]? = some v ∧
            Shader.functionalReadLane inst.kind cfg s w lane word = .ok v)) := by
  obtain ⟨hop, -⟩ := decode_eq_ok (preDecode_eq_ok h).1
  have hwidth := payloadWords_eq h
  have hwords : inst.payloadWords = i.suffixWords := by
    rw [QueueInst.payloadWords_eq, hwidth]
  obtain ⟨hpos, hle⟩ := i.suffixWords_le
  have hopcode : i.opcode = (if inst.load then .ld else .mov) := hop
  unfold WidthAgrees SuffixFits
  rw [hopcode, hwidth]
  cases hload : inst.load with
  | true =>
    simp only [↓reduceIte, rejected_iff hwords, Bool.true_eq_false, false_implies, and_true,
      forall_const]
    constructor
    · constructor
      · rintro (heq | hshort | hspace)
        · exact .inl heq.ge
        · exact .inl hshort.le
        · exact .inr hspace
      · rintro (hle | hspace)
        · rcases hle.eq_or_lt with heq | hlt
          · exact .inl heq.symm
          · exact .inr (.inl hlt)
        · exact .inr (.inr hspace)
    · intro hfits t lane hlane
      -- an executed load is not rejected, so it lists as many addresses as it has words
      have haccepted : ¬(i.addressOperands.length < i.suffixWords ∨ i.space = .other) := by
        intro hreject
        obtain ⟨e, he⟩ := (rejected_iff hwords).mpr hreject t
        rw [hlane] at he
        cases he
      rw [not_or] at haccepted
      have hall : i.executed inst.payloadWords = i.addressOperands := by
        unfold executed addressOperands at *
        apply List.take_of_length_le
        rw [hwords]
        exact hfits.resolve_right haccepted.2
      rw [ptxExecInst_eq (by omega)] at hlane
      rw [← hall]
      exact ldExec_eq_ok hlane
  | false =>
    simp only [Bool.false_eq_true, ↓reduceIte, false_implies, true_and, forall_const,
      reduceCtorEq]
    refine ⟨eq_comm, ?_⟩
    intro hfits Mem cfg s w lane values hw hvalues word hword
    subst hw
    rw [Shader.moveExec_eq] at hvalues
    refine Shader.movExec_reads hvalues word (by omega) ?_
    rcases vectorDst_or h with hvector | hone
    · exact .inl hvector
    · exact .inr (by omega)

/-- A queue move into `n` registers. -/
def sampleVectorMove (options : List PtxOption) (n : Nat) : PtxInstruction where
  opcode := .mov
  options
  operands := [.vector (List.replicate n (.register ['r'] ⟨1, Nat.one_pos⟩)), .literal 0]

/-- A queue load from `n` addresses. -/
def sampleTupleLoad (options : List PtxOption) (n : Nat) : PtxInstruction where
  opcode := .ld
  options
  operands := .literal 0 ::
    List.replicate n (.memory false (.expression (.register ['r'] ⟨1, Nat.one_pos⟩) 0))

/-- The decoded move or load of queue 0. -/
def sampleDecoded (load v3 : Bool) : QueueInst where
  kind := .rfq
  load
  queueId := 0
  v3
  vectorDst := !load
  cacheOp := if load then .all else .other

theorem width_agrees_iff_of_triple :
    (sampleVectorMove [.rfq, .v3] 3).WidthAgrees (sampleDecoded false true) :=
  (width_agrees_iff (fun _ => true) (sampleVectorMove [.rfq, .v3] 3) (sampleDecoded false true)
    { out := [1, 1, 1, 0, 0, 0, 0, 0] } rfl).1.mpr rfl

/-- With the suffix `.v2`, a load of two addresses is accepted and loads from the first only,
and a move into two registers reads one word. -/
theorem pair_keeps_one_word :
    (sampleTupleLoad [.rfq, .v2] 2).preDecode (fun _ => true) =
        .ok (some (sampleDecoded true false, { ar1 := 1 })) ∧
      (sampleTupleLoad [.rfq, .v2] 2).ptxExecInst globalThread (sampleDecoded true false) =
        .ok { words := [0], addrs := List.replicate 8 0 } ∧
      ¬(sampleTupleLoad [.rfq, .v2] 2).WidthAgrees (sampleDecoded true false) ∧
      (sampleVectorMove [.rfq, .v2] 2).preDecode (fun _ => true) =
        .ok (some (sampleDecoded false false, { out := [1, 1, 0, 0, 0, 0, 0, 0] })) ∧
      ¬(sampleVectorMove [.rfq, .v2] 2).WidthAgrees (sampleDecoded false false) := by
  refine ⟨rfl, rfl, ?_, rfl, ?_⟩
  · rintro (hwidth | hrejected)
    · exact absurd hwidth (by decide)
    · obtain ⟨e, he⟩ := hrejected globalThread
      cases he
  · intro hwidth
    have htwo : 1 = 2 := hwidth
    cases htwo

end PtxInstruction
end WaspSim
