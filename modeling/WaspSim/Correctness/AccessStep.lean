import WaspSim.Correctness.StepCases

/-!
# Steps as seen by the accesses in flight

For the accounts of responses it does not matter where in the load/store unit an
access is. A step issues a load with its accesses, has one access answered,
completes a load that leaves the dispatch register, or keeps all accesses.
-/

namespace WaspSim
namespace Shader

variable {Mem : Type} {cfg : Config} {s s' : Shader Mem} {es : List Event}
  {read : Mem → BitVec 64 → Nat → BitVec 64}

/-- Loads only leave the way to the dispatch register, or lose some of their accesses
but not the last. -/
def Shrinks (l l' : List WarpInst) : Prop :=
  ∀ j ∈ l', ∃ i ∈ l, j.access = i.access ∧ j.accessqCount ≤ i.accessqCount ∧
    (0 < i.accessqCount → 0 < j.accessqCount)

theorem Shrinks.refl (l : List WarpInst) : Shrinks l l := fun j hj => ⟨j, hj, rfl, le_rfl, id⟩

/-- Instructions shrink when one leaves the unit. -/
theorem Shrinks.eraseIdx (l : List WarpInst) (i : Nat) : Shrinks l (l.eraseIdx i) :=
  fun j hj => ⟨j, List.mem_of_mem_eraseIdx hj, rfl, le_rfl, id⟩

/-- Instructions shrink when one sends accesses. -/
theorem Shrinks.accessqPop {l : List WarpInst} {i n : Nat} {inst : WarpInst}
    (hinst : l[i]? = some inst) (hn : n < inst.accessqCount) :
    Shrinks l (l.set i (accessqPop inst n)) := by
  intro j hj
  rcases List.mem_or_eq_of_mem_set hj with hj | rfl
  · exact ⟨j, hj, rfl, le_rfl, id⟩
  · refine ⟨inst, List.mem_of_getElem? hinst, rfl, Nat.sub_le _ _, fun _ => ?_⟩
    simp only [Shader.accessqPop]
    omega

/-- Whether the answer to an access of `inst` also completes the load: outside the
dispatch register its mark decides; in the register the load is not done while it
has accesses left, and with its last one the pending count is read again. -/
def CompletesWith (cfg : Config) (s₁ s' : Shader Mem) (inst : WarpInst) (last done : Bool) :
    Prop :=
  done = last ∨ (done = false ∧ inst.access ∈ s'.ldst.inflight) ∨
    pendingRequests cfg s₁ inst = .ok (!done)

/-- What an action does to the accesses in flight. -/
inductive AccessStep (cfg : Config) (read : Mem → BitVec 64 → Nat → BitVec 64) (s : Shader Mem)
    (a : Action Mem) (s' : Shader Mem) : List Event → Prop
  /-- Queues and accesses stay. -/
  | quiet (hret : retires s a = none) (htables : s'.tables = s.tables)
      (hinflight : s'.ldst.inflight = s.ldst.inflight)
      (hdispatch : Shrinks s.ldst.dispatch s'.ldst.dispatch) (huid : s'.nextUid = s.nextUid) :
      AccessStep cfg read s a s' []
  | test {w : Nat} {inst : QueueInst} {countStall : Bool} {s₁ : Shader Mem} {b₁ b₂ : Bool}
      (haction : a = .test w inst countStall)
      (hrunning : (s.warps w).functionalDone = false)
      (hrfq : canIssue .rfq cfg s w inst countStall = .ok (s₁, b₁))
      (hsmemq : canIssue .smemq cfg s₁ w inst countStall = .ok (s', b₂)) :
      AccessStep cfg read s a s' []
  | load {w : Nat} {inst : QueueInst} {mask : ActiveMask} {input : LaneInput} {es : List Event}
      (haction : a = .issue w inst mask input) (hload : inst.load = true)
      (hissue : issueWarp cfg read s w inst mask input = .ok (s', es)) :
      AccessStep cfg read s a s' es
  | move {w : Nat} {inst : QueueInst} {mask : ActiveMask} {input : LaneInput} {es : List Event}
      (haction : a = .issue w inst mask input) (hload : inst.load = false)
      (hissue : issueWarp cfg read s w inst mask input = .ok (s', es)) :
      AccessStep cfg read s a s' es
  /-- One access is answered. -/
  | answered (inst : WarpInst) (out s₁ : Shader Mem) (last done : Bool)
      (hret : retires s a = none) (hout : out.tables = s.tables)
      (hmark : markResponse cfg out inst = .ok (s₁, last)) (htables : s'.tables = s₁.tables)
      (hinflight : s.ldst.inflight = {inst.access} + s'.ldst.inflight)
      (hdispatch : Shrinks s.ldst.dispatch s'.ldst.dispatch) (huid : s'.nextUid = s.nextUid)
      (hdone : CompletesWith cfg s₁ s' inst last done) :
      AccessStep cfg read s a s' (answerEvents inst.uid done)
  /-- A load without pending responses leaves the dispatch register. -/
  | completed (inst : WarpInst) (hret : retires s a = none) (hinst : inst ∈ s.ldst.dispatch)
      (hpending : pendingRequests cfg s inst = .ok false) (htables : s'.tables = s.tables)
      (hinflight : s'.ldst.inflight = s.ldst.inflight)
      (hdispatch : Shrinks s.ldst.dispatch s'.ldst.dispatch) (huid : s'.nextUid = s.nextUid) :
      AccessStep cfg read s a s' [.completed inst.uid]
  | retire {c : Nat} (hret : retires s a = some c) (htables : s'.tables = (s.eraseCta c).tables)
      (hldst : s'.ldst = s.ldst) (huid : s'.nextUid = s.nextUid) :
      AccessStep cfg read s a s' [.retired c]

/-- Queued accesses of a load are in flight. -/
theorem access_mem_inflight {u : LdstUnit} {inst : WarpInst} (hinst : inst ∈ u.dispatch)
    (hpos : 0 < inst.accessqCount) : inst.access ∈ u.inflight := by
  obtain ⟨i, hi⟩ := List.mem_iff_getElem?.mp hinst
  have hmem : inst.access ∈ queuedAccesses u.dispatch := by
    rw [queuedAccesses_eraseIdx hi, Multiset.mem_add]
    exact .inl (Multiset.mem_replicate.mpr ⟨by omega, rfl⟩)
  simp only [LdstUnit.inflight, Multiset.mem_add]
  exact .inl (.inl (.inl (.inl (.inl hmem))))

/-- What the dispatch of an access does to the instructions on their way. -/
theorem DispatchStep.accessStep {a : Action Mem} {i : Nat} {inst : WarpInst}
    (hret : retires s a = none) (hinst : s.ldst.dispatch[i]? = some inst)
    (h : DispatchStep cfg s i inst s' es) (hout : OutsideLdst s s') :
    AccessStep cfg read s a s' es := by
  cases h with
  | sent n hleft htables hinflight hdispatch _ =>
    exact .quiet hret htables hinflight (hdispatch ▸ .accessqPop hinst hleft) hout.nextUid_eq
  | sentLast pending htables hinflight hdispatch hpending _ =>
    have hshrinks : Shrinks s.ldst.dispatch s'.ldst.dispatch := hdispatch ▸ .eraseIdx _ i
    cases pending with
    | true => exact .quiet hret htables hinflight hshrinks hout.nextUid_eq
    | false =>
      exact .completed inst hret (List.mem_of_getElem? hinst) hpending htables hinflight hshrinks
        hout.nextUid_eq
  | hit s₁ last hleft hmark htables hinflight hdispatch _ =>
    have hmem : inst.access ∈ s'.ldst.inflight := by
      have hpop : accessqPop inst 1 ∈ s'.ldst.dispatch := by
        rw [hdispatch]
        exact List.mem_set (List.getElem?_eq_some_iff.mp hinst).1 _
      have hpos : 0 < (accessqPop inst 1).accessqCount := by
        simp only [accessqPop]
        omega
      have hqueued : (accessqPop inst 1).access ∈ s'.ldst.inflight := access_mem_inflight hpop hpos
      exact hqueued
    exact .answered inst s s₁ last false hret rfl hmark htables hinflight
      (hdispatch ▸ .accessqPop hinst hleft) hout.nextUid_eq (.inr (.inl ⟨rfl, hmem⟩))
  | hitLast s₁ last pending hleft hmark htables hinflight hdispatch hpending _ =>
    have hstep : AccessStep cfg read s a s' (answerEvents inst.uid !pending) :=
      .answered inst s s₁ last (!pending) hret rfl hmark htables hinflight
        (hdispatch ▸ .eraseIdx _ i) hout.nextUid_eq (.inr (.inr (by simpa using hpending)))
    cases pending with
    | true => exact hstep
    | false => exact hstep

/-- Every action is one kind of step for the instructions on their way. -/
theorem StepCase.accessStep {a : Action Mem} (h : StepCase cfg read s a s' es) :
    AccessStep cfg read s a s' es := by
  cases h with
  | test hrunning hrfq hsmemq => exact .test rfl hrunning hrfq hsmemq
  | load hload hissue => exact .load rfl hload hissue
  | move hload hissue => exact .move rfl hload hissue
  | dispatch hinst hstep hout => exact hstep.accessStep rfl hinst hout
  | ldst hret hstep hframe =>
    have hshrinks : Shrinks s.ldst.dispatch s'.ldst.dispatch := hframe.dispatch_eq ▸ .refl _
    cases hstep with
    | moved htables hinflight => exact .quiet hret htables hinflight hshrinks hframe.nextUid_eq
    | answered inst out s₁ last hout hmark htables hinflight =>
      exact .answered inst out s₁ last last hret hout hmark htables hinflight hshrinks
        hframe.nextUid_eq (.inl rfl)
  | retire hret htables hldst huid => exact .retire hret htables hldst huid
  | idle hret hidle =>
    exact .quiet hret hidle.tables_eq (by rw [hidle.ldst_eq])
      (by rw [hidle.ldst_eq]; exact .refl _) hidle.nextUid_eq

end Shader
end WaspSim
