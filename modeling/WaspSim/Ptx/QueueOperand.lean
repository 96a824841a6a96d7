import WaspSim.Core.Digits
import WaspSim.Ptx.Execute
import WaspSim.Queue.State
import WaspSim.Shader.Key

/-!
# Queue operands and their queues

A kernel names its queues by literal numbers or by names, and the decoder keeps the
number that a name ends in. Two names lead to one queue when these numbers are the same
behind leading zeros, or the same 32 bits where they are too large.
-/

namespace WaspSim

/-- Two queue operands that a kernel writes differently. -/
def Operand.Different : Operand → Operand → Prop
  | .literal m, .literal n => m ≠ n
  | .name a, .name b => a ≠ b
  | _, _ => False

/-- Operands that the decoder takes for the same: literals with the same 32 bits, names
that end in the same number or in numbers that wrap onto each other. -/
def Operand.Confused : Operand → Operand → Prop
  | .literal m, .literal n => m ≡ n [MOD 4294967296]
  | .name a, .name b =>
    Text.significant (PtxInst.trailingDigits a) = Text.significant (PtxInst.trailingDigits b) ∨
      Text.WrapsOnto (PtxInst.trailingDigits a) (PtxInst.trailingDigits b)
  | _, _ => False

/-- The queues of two instructions stay apart: in a table, the queue of one is never the
queue of the other, whatever warps use them. -/
structure QueueInst.Separate (a b : QueueInst) : Prop where
  id_ne : a.queueId ≠ b.queueId
  keys : ∀ {Mem : Type} (kind : QueueKind) (cfg : Config) (s : Shader Mem) {w w' : Nat}
    {key key' : QueueKey}, s.keyForWarp kind cfg w a.queueId = .ok key →
      s.keyForWarp kind cfg w' b.queueId = .ok key' →
        (key.lt key' = true ∨ key'.lt key = true) ∧
          ∀ (t : QueueTable) (q : Queue), (t.insert key q).lookup key' = t.lookup key' ∧
            (t.insert key' q).lookup key = t.lookup key

/-- Different queue numbers keep the queues apart. -/
theorem QueueInst.separate_iff {a b : QueueInst} : a.Separate b ↔ a.queueId ≠ b.queueId := by
  constructor
  · exact fun h => h.id_ne
  · intro hne
    refine ⟨hne, ?_⟩
    intro Mem kind cfg s w w' key key' hkey hkey'
    obtain ⟨-, -, rfl⟩ := Shader.keyForWarp_eq_ok.mp hkey
    obtain ⟨-, -, rfl⟩ := Shader.keyForWarp_eq_ok.mp hkey'
    have hkeys : ∀ {x y : QueueKey}, x.queueId ≠ y.queueId → x ≠ y := by
      intro x y h heq
      exact h (congrArg QueueKey.queueId heq)
    constructor
    · by_contra hlt
      rw [not_or, Bool.not_eq_true, Bool.not_eq_true] at hlt
      exact hkeys (by exact hne) (QueueKey.eq_of_not_lt hlt.1 hlt.2)
    · intro t q
      exact ⟨AList.lookup_insert_ne (hkeys (by exact hne.symm)),
        AList.lookup_insert_ne (hkeys (by exact hne))⟩

namespace PtxInst

/-- The operand that names the queue: the first of a load, the second of a move. -/
def queueOperand (i : PtxInst) : Option Operand := i.operands[if i.opcode = .ld then 0 else 1]?

/-- A kernel holds a queue instruction with this queue operand. -/
def HasQueueOperand (kernel : List PtxInst) (o : Operand) (inst : QueueInst) : Prop :=
  ∃ i ∈ kernel, i.decode = .ok (some inst) ∧ i.queueOperand = some o

variable {kernel : List PtxInst} {o o' : Operand} {a b : QueueInst}

theorem isDigit_of_mem_trailingDigits {chars : List Char} {c : Char}
    (h : c ∈ trailingDigits chars) : c.isDigit = true :=
  List.mem_takeWhile_imp (List.mem_reverse.mp h)

/-- The queue number of an instruction is that of its queue operand. -/
theorem HasQueueOperand.queueId_eq (h : HasQueueOperand kernel o a) :
    waspQueueIdFromOperand o = .ok a.queueId := by
  obtain ⟨i, -, hdecode, hoperand⟩ := h
  obtain ⟨hop, -, -, o', ho', hid⟩ := PtxInstruction.decode_eq_ok hdecode
  have hposition : (if i.opcode = .ld then 0 else 1) = if a.load then 0 else 1 := by
    rw [hop]
    cases a.load with
    | false => rfl
    | true => rfl
  rw [queueOperand, hposition, ho', Option.some.injEq] at hoperand
  rw [← hoperand]
  exact hid

/-- Operands of one sort decode to the same number exactly when they are confused. -/
theorem queueId_eq_iff (hdiff : o.Different o') (ha : waspQueueIdFromOperand o = .ok a.queueId)
    (hb : waspQueueIdFromOperand o' = .ok b.queueId) :
    a.queueId = b.queueId ↔ o.Confused o' := by
  cases o with
  | literal m =>
    cases o' with
    | literal n =>
      rw [← pure_eq_ok.mp ha, ← pure_eq_ok.mp hb]
      exact Iff.rfl
    | _ => exact hdiff.elim
  | name x =>
    cases o' with
    | name y =>
      simp only [waspQueueIdFromOperand] at ha hb
      split at ha
      · cases ha
      · split at hb
        · cases hb
        · rw [← pure_eq_ok.mp ha, ← pure_eq_ok.mp hb]
          exact Text.atoi_eq_iff (fun c hc => isDigit_of_mem_trailingDigits hc)
            fun c hc => isDigit_of_mem_trailingDigits hc
    | _ => exact hdiff.elim
  | vector => exact hdiff.elim
  | other => exact hdiff.elim

/-- A name is a `q` and a decimal number. -/
theorem waspQueueIdFromOperand_q {n : Nat} (hn : n < 4294967296) :
    waspQueueIdFromOperand (.name ('q' :: Nat.toDigits 10 n)) = .ok n := by
  have hdigits : trailingDigits ('q' :: Nat.toDigits 10 n) = Nat.toDigits 10 n := by
    have hall : ∀ c ∈ (Nat.toDigits 10 n).reverse, c.isDigit = true := fun c hc =>
      Nat.isDigit_of_mem_toDigits (by decide) (by decide) (List.mem_reverse.mp hc)
    rw [trailingDigits, List.reverse_cons, List.takeWhile_append_of_pos hall]
    simp
  simp only [waspQueueIdFromOperand, hdigits, Nat.toDigits_ne_nil, ↓reduceIte,
    Text.atoi_toDigits hn]
  rfl

/-- The queues of differently written operands stay apart exactly in the kernels without
confused operands; a name `qN` and the literal `N` name the same queue in every kernel. -/
theorem queues_separate_iff (kernel : List PtxInst) :
    ((∀ o o' a b, HasQueueOperand kernel o a → HasQueueOperand kernel o' b → o.Different o' →
        a.Separate b) ↔
      ∀ o o' a b, HasQueueOperand kernel o a → HasQueueOperand kernel o' b → o.Different o' →
        ¬o.Confused o') ∧
      ∀ n < 4294967296, ∀ a b, HasQueueOperand kernel (.name ('q' :: Nat.toDigits 10 n)) a →
        HasQueueOperand kernel (.literal n) b → a.queueId = n ∧ b.queueId = n := by
  constructor
  · have hpair : ∀ {o o' a b}, HasQueueOperand kernel o a → HasQueueOperand kernel o' b →
        o.Different o' → (a.Separate b ↔ ¬o.Confused o') := by
      intro o o' a b ha hb hdiff
      rw [QueueInst.separate_iff, ← queueId_eq_iff hdiff ha.queueId_eq hb.queueId_eq]
    constructor
    · intro h o o' a b ha hb hdiff
      exact (hpair ha hb hdiff).mp (h o o' a b ha hb hdiff)
    · intro h o o' a b ha hb hdiff
      exact (hpair ha hb hdiff).mpr (h o o' a b ha hb hdiff)
  · intro n hn a b ha hb
    have hname := ha.queueId_eq
    have hliteral := hb.queueId_eq
    rw [waspQueueIdFromOperand_q hn, Except.ok.injEq] at hname
    refine ⟨hname.symm, ?_⟩
    have hself := Nat.mod_eq_of_lt hn
    rw [← pure_eq_ok.mp hliteral]
    exact hself

/-- Loads into the queues `q1` and `p1` fill one queue. -/
theorem queues_alias :
    let kernel : List PtxInst := [⟨.ld, [.rfq], [.name ['q', '1'], .other]⟩,
      ⟨.ld, [.rfq], [.name ['p', '1'], .other]⟩]
    let inst : QueueInst :=
      { kind := .rfq, load := true, queueId := 1, v3 := false, vectorDst := false }
    HasQueueOperand kernel (.name ['q', '1']) inst ∧
      HasQueueOperand kernel (.name ['p', '1']) inst ∧
        Operand.Different (.name ['q', '1']) (.name ['p', '1']) ∧ ¬inst.Separate inst := by
  intro kernel inst
  refine ⟨⟨_, List.mem_cons_self, by rfl, rfl⟩,
    ⟨_, List.mem_cons_of_mem _ List.mem_cons_self, by rfl, rfl⟩, ?_, ?_⟩
  · change ['q', '1'] ≠ ['p', '1']
    decide
  · intro h
    exact h.id_ne rfl

end PtxInst
end WaspSim
