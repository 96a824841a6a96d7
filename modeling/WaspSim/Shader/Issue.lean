import WaspSim.Shader.Queues

/-!
# Issue of a queue instruction

`issue_warp` copies the instruction, reserves or names its queue entry, executes
its lanes functionally, collects the memory accesses of a load, and closes the
entry. Lane predicates, effective addresses and the number of generated accesses
come from code outside the modelled sources and are inputs of the issue.
-/

namespace WaspSim

/-- What the thread contexts supply to an issued instruction. -/
structure LaneInput where
  /-- The guard predicate switches the lane off. -/
  skip : Nat → Bool
  /-- Effective address of a lane's operand word. -/
  addr : Nat → Nat → BitVec 64
  /-- Bytes of the instruction's type. -/
  size : Nat
  /-- The accesses that `generate_mem_accesses` makes. -/
  accesses : Nat

/-- What a run records for the properties about it. -/
inductive Event where
  /-- A queue load was issued with its token, the lanes that executed, the values
  they read and the accesses they made. -/
  | loaded (inst : WarpInst) (executed : Nat → Bool) (value : Nat → Nat → BitVec 64)
  /-- A queue move was issued; the words written to the destination of each lane that
  executed. -/
  | moved (inst : WarpInst) (executed : Nat → Bool) (written : Nat → List (BitVec 64))
  /-- An access of a queue load was answered. -/
  | answered (uid : Nat)
  /-- `warp_inst_complete` was called for a queue load. -/
  | completed (uid : Nat)
  /-- A CTA was retired and its queues erased. -/
  | retired (ctaHwId : Nat)

namespace Shader

variable {Mem : Type}

/-- A lane executes when it is active and its guard does not switch it off. -/
def executes (activeMask : ActiveMask) (input : LaneInput) (lane : Nat) : Bool :=
  activeMask.getLsbD lane && !input.skip lane

/-- `set_not_active` on every skipped lane. -/
def maskAfter (warpSize : Nat) (input : LaneInput) (activeMask : ActiveMask) : ActiveMask :=
  (List.range warpSize).foldl
    (fun m lane => if m.getLsbD lane && input.skip lane then m &&& ~~~BitVec.twoPow 32 lane else m)
    activeMask

/-- `wasp_rfq_ld_exec` and `smemq_ld_exec` for one lane. -/
def ldExec (kind : QueueKind) (cfg : Config) (read : Mem → BitVec 64 → Nat → BitVec 64)
    (s : Shader Mem) (inst : WarpInst) (input : LaneInput) (lane : Nat) :
    Except Halt (Shader Mem) :=
  (List.range inst.payloadWords).foldlM
    (fun s word => functionalStoreLane kind cfg s inst lane word
      (read s.mem (input.addr lane word) input.size)) s

/-- `wasp_rfq_mov_exec` and `smemq_mov_exec` for one lane: the destination words. -/
def movExec (kind : QueueKind) (cfg : Config) (s : Shader Mem) (inst : WarpInst) (lane : Nat) :
    Except Halt (List (BitVec 64)) := do
  let values ← (List.range inst.payloadWords).mapM fun word =>
    functionalReadLane kind cfg s inst lane word
  let values := values ++ List.replicate (4 - inst.payloadWords) 0
  pure (if inst.vectorDst then values else values.take 1)

/-- `wasp_rfq_ld_exec`. -/
def waspRfqLdExec (cfg : Config) (read : Mem → BitVec 64 → Nat → BitVec 64) (s : Shader Mem) :=
  ldExec .rfq cfg read s

/-- `smemq_ld_exec`. -/
def smemqLdExec (cfg : Config) (read : Mem → BitVec 64 → Nat → BitVec 64) (s : Shader Mem) :=
  ldExec .smemq cfg read s

/-- `wasp_rfq_mov_exec`. -/
def waspRfqMovExec (cfg : Config) (s : Shader Mem) := movExec .rfq cfg s

/-- `smemq_mov_exec`. -/
def smemqMovExec (cfg : Config) (s : Shader Mem) := movExec .smemq cfg s

/-- The version of `ld_exec` for the instruction's kind. -/
def loadExec (cfg : Config) (read : Mem → BitVec 64 → Nat → BitVec 64) (s : Shader Mem)
    (inst : WarpInst) (input : LaneInput) (lane : Nat) : Except Halt (Shader Mem) :=
  match inst.kind with
  | .rfq => waspRfqLdExec cfg read s inst input lane
  | .smemq => smemqLdExec cfg read s inst input lane

/-- The version of `mov_exec` for the instruction's kind. -/
def moveExec (cfg : Config) (s : Shader Mem) (inst : WarpInst) (lane : Nat) :
    Except Halt (List (BitVec 64)) :=
  match inst.kind with
  | .rfq => waspRfqMovExec cfg s inst lane
  | .smemq => smemqMovExec cfg s inst lane

/-- Both kinds of loads are one function of the kind. -/
theorem loadExec_eq (cfg : Config) (read : Mem → BitVec 64 → Nat → BitVec 64) (s : Shader Mem)
    (inst : WarpInst) (input : LaneInput) (lane : Nat) :
    loadExec cfg read s inst input lane = ldExec inst.kind cfg read s inst input lane := by
  unfold loadExec
  split <;> rename_i hkind <;> rw [hkind] <;> rfl

/-- Both kinds of moves are one function of the kind. -/
theorem moveExec_eq (cfg : Config) (s : Shader Mem) (inst : WarpInst) (lane : Nat) :
    moveExec cfg s inst lane = movExec inst.kind cfg s inst lane := by
  unfold moveExec
  split <;> rename_i hkind <;> rw [hkind] <;> rfl

/-- Each destination word within the payload is a word read from the queue. -/
theorem movExec_reads {kind : QueueKind} {cfg : Config} {s : Shader Mem} {inst : WarpInst}
    {lane : Nat} {words : List (BitVec 64)} (h : movExec kind cfg s inst lane = .ok words) :
    ∀ word < inst.payloadWords, (inst.vectorDst = true ∨ word = 0) →
      ∃ v, words[word]? = some v ∧ functionalReadLane kind cfg s inst lane word = .ok v := by
  simp only [movExec, bind_eq_ok, pure_eq_ok] at h
  obtain ⟨values, hvalues, rfl⟩ := h
  obtain ⟨hlen, hget⟩ := mapM_range_eq_ok hvalues
  intro word hword hdst
  obtain ⟨v, hv, hread⟩ := hget word hword
  have hpad : (values ++ List.replicate (4 - inst.payloadWords) 0)[word]? = some v := by
    rw [List.getElem?_append_left (by omega)]
    exact hv
  refine ⟨v, ?_, hread⟩
  by_cases hvector : inst.vectorDst = true
  · simpa only [hvector, ↓reduceIte] using hpad
  · obtain rfl : word = 0 := hdst.resolve_left hvector
    simpa only [hvector, Bool.false_eq_true, ↓reduceIte, List.getElem?_take_of_lt Nat.one_pos]
      using hpad

/-- `ptx_exec_inst` of a queue load for one active lane. The flag is
`m_per_scalar_thread_valid`: a lane that executes sets it with its addresses, and
`get_addr`, which is asked for the address of a skipped lane as well, asserts it. -/
def ptxExecLoad (cfg : Config) (read : Mem → BitVec 64 → Nat → BitVec 64) (inst : WarpInst)
    (input : LaneInput) (p : Shader Mem × Bool) (lane : Nat) :
    Except Halt (Shader Mem × Bool) := do
  let p ←
    if input.skip lane then pure p
    else do
      let s ← loadExec cfg read p.1 inst input lane
      pure (s, true)
  require .noAddress (p.2 = true)
  pure p

/-- `func_exec_inst` of a queue load: store the lanes' words, collect the accesses.
An instruction without active lanes makes none. -/
def funcExecLoad (cfg : Config) (read : Mem → BitVec 64 → Nat → BitVec 64) (s : Shader Mem)
    (inst : WarpInst) (input : LaneInput) : Except Halt (Shader Mem × WarpInst) := do
  let p ← (List.range cfg.warpSize).foldlM
    (fun p lane =>
      if inst.activeMask.getLsbD lane then ptxExecLoad cfg read inst input p lane else pure p)
    (s, false)
  let activeMask := maskAfter cfg.warpSize input inst.activeMask
  require .disabled (activeMask = 0 → input.accesses = 0)
  pure (p.1, { inst with activeMask, accessqCount := input.accesses })

/-- A lane of a load executes, or is predicated off, when an address is there for it. -/
theorem ptxExecLoad_eq_ok {cfg : Config} {read : Mem → BitVec 64 → Nat → BitVec 64}
    {inst : WarpInst} {input : LaneInput} {p p' : Shader Mem × Bool} {lane : Nat} :
    ptxExecLoad cfg read inst input p lane = .ok p' ↔ p'.2 = true ∧
      (input.skip lane = true ∧ p = p' ∨
        input.skip lane = false ∧
          ldExec inst.kind cfg read p.1 inst input lane = .ok p'.1) := by
  rw [← loadExec_eq]
  obtain ⟨s', valid⟩ := p'
  cases hskip : input.skip lane with
  | true =>
    simp only [ptxExecLoad, hskip, ↓reduceIte, bind_eq_ok, pure_eq_ok, require_eq_ok]
    constructor
    · rintro ⟨_, rfl, _, hvalid, rfl⟩
      exact ⟨hvalid, .inl ⟨trivial, rfl⟩⟩
    · rintro ⟨hvalid, ⟨_, rfl⟩ | ⟨hne, _⟩⟩
      · exact ⟨_, rfl, (), hvalid, rfl⟩
      · cases hne
  | false =>
    simp only [ptxExecLoad, hskip, Bool.false_eq_true, ↓reduceIte, bind_eq_ok, pure_eq_ok,
      require_eq_ok]
    constructor
    · rintro ⟨m, hexec, _, rfl, _, _, heq⟩
      obtain ⟨rfl, rfl⟩ := Prod.mk.inj heq
      exact ⟨rfl, .inr ⟨trivial, hexec⟩⟩
    · rintro ⟨rfl, ⟨hne, _⟩ | ⟨_, hexec⟩⟩
      · exact hne.elim
      · exact ⟨s', hexec, _, rfl, (), rfl, rfl⟩

/-- A queue load that passes `get_addr` has run its lanes, and one that has an active lane
has executed one. -/
theorem funcExecLoad_ok {cfg : Config} {read : Mem → BitVec 64 → Nat → BitVec 64}
    {s s' : Shader Mem} {inst inst' : WarpInst} {input : LaneInput}
    (h : funcExecLoad cfg read s inst input = .ok (s', inst')) :
    (List.range cfg.warpSize).foldlM (fun s lane =>
        if executes inst.activeMask input lane then
          ldExec inst.kind cfg read s inst input lane
        else pure s) s = .ok s' ∧
      ((∃ lane < cfg.warpSize, inst.activeMask.getLsbD lane = true) →
        ∃ lane < cfg.warpSize, executes inst.activeMask input lane = true) ∧
      inst' = { inst with
        activeMask := maskAfter cfg.warpSize input inst.activeMask
        accessqCount := input.accesses } ∧
      (inst'.activeMask = 0 → inst'.accessqCount = 0) := by
  simp only [funcExecLoad, bind_eq_ok, require_eq_ok, pure_eq_ok, Prod.mk.injEq] at h
  obtain ⟨p, hfold, _, hoff, rfl, rfl⟩ := h
  refine ⟨?_, ?_, rfl, hoff⟩
  · refine foldlM_part Prod.fst (fun p lane p' _ hlane => ?_) hfold
    cases hactive : inst.activeMask.getLsbD lane with
    | false =>
      rw [hactive, if_neg (by decide), pure_eq_ok] at hlane
      rw [executes, hactive, Bool.false_and, if_neg (by decide), hlane]
      rfl
    | true =>
      rw [hactive, if_pos rfl, ptxExecLoad_eq_ok] at hlane
      obtain ⟨_, ⟨hskip, rfl⟩ | ⟨hskip, hexec⟩⟩ := hlane
      · rw [executes, hskip, Bool.not_true, Bool.and_false, if_neg (by decide)]
        rfl
      · rw [executes, hactive, hskip, Bool.not_false, Bool.and_true, if_pos rfl]
        exact hexec
  · -- the flag is set after the first active lane, and only by one that executes
    have hflag := foldlM_range (fun n (p : Shader Mem × Bool) =>
      ((∃ lane < n, inst.activeMask.getLsbD lane = true) → p.2 = true) ∧
        (p.2 = true → ∃ lane < cfg.warpSize, executes inst.activeMask input lane = true))
      (fun n p p' hn hp hlane => ?_) hfold ⟨?_, fun hvalid => by cases hvalid⟩
    · exact fun hactive => hflag.2 (hflag.1 hactive)
    · obtain ⟨hset, hexecuted⟩ := hp
      cases hactive : inst.activeMask.getLsbD n with
      | false =>
        rw [hactive, if_neg (by decide), pure_eq_ok] at hlane
        subst hlane
        refine ⟨?_, hexecuted⟩
        rintro ⟨lane, hlt, hlane⟩
        rcases Nat.lt_succ_iff_lt_or_eq.mp hlt with hlt | rfl
        · exact hset ⟨lane, hlt, hlane⟩
        · rw [hactive] at hlane
          cases hlane
      | true =>
        rw [hactive, if_pos rfl, ptxExecLoad_eq_ok] at hlane
        obtain ⟨hvalid, ⟨_, rfl⟩ | ⟨hskip, _⟩⟩ := hlane
        · exact ⟨fun _ => hvalid, hexecuted⟩
        · refine ⟨fun _ => hvalid, fun _ => ⟨n, hn, ?_⟩⟩
          rw [executes, hactive, hskip]
          rfl
    · rintro ⟨_, hlane, _⟩
      exact absurd hlane (Nat.not_lt_zero _)

/-- `func_exec_inst` of a queue move: read the head for every lane. -/
def funcExecMove (cfg : Config) (s : Shader Mem) (inst : WarpInst) (input : LaneInput) :
    Except Halt (List (Nat × List (BitVec 64))) :=
  ((List.range cfg.warpSize).filter (executes inst.activeMask input)).mapM fun lane => do
    let words ← moveExec cfg s inst lane
    pure (lane, words)

/-- The destination words of a lane, none when it did not execute. -/
def writtenTo (writes : List (Nat × List (BitVec 64))) (lane : Nat) : List (BitVec 64) :=
  ((writes.find? fun w => w.1 == lane).map Prod.snd).getD []

/-- `issue_warp` of a queue instruction. The scheduler has tested the instruction
with `can_issue` before, which stops a core whose queue mechanism is off. -/
def issueWarp (cfg : Config) (read : Mem → BitVec 64 → Nat → BitVec 64) (s : Shader Mem)
    (warpId : Nat) (inst : QueueInst) (activeMask : ActiveMask) (input : LaneInput) :
    Except Halt (Shader Mem × List Event) := do
  require .disabled (0 < (s.warps warpId).ibuffered ∧ (s.warps warpId).functionalDone = false)
  require .queueDisabled (cfg.enabled inst.kind = true)
  let s := s.setWarp warpId fun w => { w with ibuffered := w.ibuffered - 1 }
  let inst : WarpInst := { inst with uid := s.nextUid, warpId, activeMask }
  let s := { s with nextUid := s.nextUid + 1 }
  let (s, inst) ← waspRfqPrepareIssue cfg s inst
  let (s, inst) ← smemqPrepareIssue cfg s inst
  let executed := executes inst.activeMask input
  if inst.load then
    let value := fun lane word => read s.mem (input.addr lane word) input.size
    let (s, inst) ← funcExecLoad cfg read s inst input
    let s ← waspRfqAfterFuncExec cfg s inst
    let s ← smemqAfterFuncExec cfg s inst
    let s := s.setLdst { s.ldst with dispatch := s.ldst.dispatch ++ [inst] }
    pure (s, [.loaded inst executed value])
  else
    let writes ← funcExecMove cfg s inst input
    let s ← waspRfqAfterFuncExec cfg s inst
    let s ← smemqAfterFuncExec cfg s inst
    let s := s.setWarp warpId fun w => { w with elsewhere := w.elsewhere + 1 }
    pure (s, [.moved inst executed (writtenTo writes)])

end Shader
end WaspSim
