import WaspSim.Correctness.LoadStoreEffect

/-!
# What one action of a core can do

Seen from the queues and the accesses in flight, an action tests or issues a queue
instruction, moves or answers accesses, retires a CTA, or does nothing. Every
invariant of a run is proved from this list.
-/

namespace WaspSim
namespace Shader

variable {Mem : Type} {cfg : Config} {s s' : Shader Mem} {es : List Event}
  {read : Mem → BitVec 64 → Nat → BitVec 64}

/-- Queues, accesses and instruction numbers stay as they are. -/
structure Idle (s s' : Shader Mem) : Prop where
  tables_eq : s'.tables = s.tables
  ldst_eq : s'.ldst = s.ldst
  nextUid_eq : s'.nextUid = s.nextUid

theorem Idle.refl (s : Shader Mem) : Idle s s := ⟨rfl, rfl, rfl⟩

theorem Idle.trans {a b c : Shader Mem} (hab : Idle a b) (hbc : Idle b c) : Idle a c :=
  ⟨hbc.tables_eq.trans hab.tables_eq, hbc.ldst_eq.trans hab.ldst_eq,
    hbc.nextUid_eq.trans hab.nextUid_eq⟩

/-- The CTA that an action would retire: reclaiming a warp retires its CTA when the
CTA has no other registered thread. -/
def retires (s : Shader Mem) : Action Mem → Option Nat
  | .reclaim w =>
    if 0 < (s.warps w).registered ∧ s.ctaStatus (s.warps w).ctaId = (s.warps w).registered then
      some (s.warps w).ctaId
    else none
  | _ => none

/-- Registering exits empties a CTA slot by their number, and erases its queues when
it becomes free. -/
theorem registerExits_eq_ok {ctaHwId n : Nat}
    (h : registerExits s ctaHwId n = .ok (s', es)) :
    n ≤ s.ctaStatus ctaHwId ∧
      s'.ctaStatus = Function.update s.ctaStatus ctaHwId (s.ctaStatus ctaHwId - n) ∧
      s'.ldst = s.ldst ∧ s'.warps = s.warps ∧ s'.nextUid = s.nextUid ∧ s'.mem = s.mem ∧
      (if 0 < n ∧ s.ctaStatus ctaHwId = n then
        s'.tables = (s.eraseCta ctaHwId).tables ∧ es = [.retired ctaHwId]
      else s'.tables = s.tables ∧ es = []) := by
  induction n generalizing s es with
  | zero =>
    simp only [registerExits, pure_eq_ok, Prod.mk.injEq] at h
    obtain ⟨rfl, rfl⟩ := h
    simp
  | succ n ih =>
    simp only [registerExits, registerCtaThreadExit, bind_eq_ok, require_eq_ok, pure_eq_ok,
      Prod.exists, Prod.mk.injEq, Function.update_self] at h
    obtain ⟨s₁, es₁, ⟨_, hpos, hone⟩, s₂, es₂, hrest, rfl, rfl⟩ := h
    by_cases hlast : s.ctaStatus ctaHwId - 1 = 0
    · simp only [hlast, ↓reduceIte, Prod.mk.injEq] at hone
      obtain ⟨rfl, rfl⟩ := hone
      obtain ⟨hle, hstatus, hldst, hwarps, huid, hmem, herase⟩ := ih hrest
      simp only [eraseCta, Function.update_self] at hle hstatus hldst hwarps huid hmem herase
      obtain rfl : n = 0 := by omega
      have hcta : s.ctaStatus ctaHwId = 1 := by omega
      simp only [lt_self_iff_false, false_and, ↓reduceIte] at herase
      obtain ⟨htables, rfl⟩ := herase
      refine ⟨by omega, ?_, hldst, hwarps, huid, hmem, ?_⟩
      · rw [hstatus, hcta]
        simp
      · simp [hcta, htables, eraseCta]
    · simp only [hlast, ↓reduceIte, Prod.mk.injEq] at hone
      obtain ⟨rfl, rfl⟩ := hone
      obtain ⟨hle, hstatus, hldst, hwarps, huid, hmem, herase⟩ := ih hrest
      simp only [Function.update_self] at hle hstatus herase
      refine ⟨by omega, ?_, hldst, hwarps, huid, hmem, ?_⟩
      · rw [hstatus, Function.update_idem]
        congr 1
        omega
      · have hiff : (0 < n ∧ s.ctaStatus ctaHwId - 1 = n) ↔
            (0 < n + 1 ∧ s.ctaStatus ctaHwId = n + 1) := by omega
        simp only [hiff, List.nil_append] at herase ⊢
        exact herase

/-- Reclaiming a warp retires its CTA when no other thread is registered there. -/
theorem reclaim_cases {w : Nat} (h : reclaim s w = .ok (s', es)) :
    ((s.warps w).hardwareDone = true ∧ (s.warps w).doneExit = false) ∧
      (s.warps w).registered ≤ s.ctaStatus (s.warps w).ctaId ∧
      s'.ctaStatus = Function.update s.ctaStatus (s.warps w).ctaId
        (s.ctaStatus (s.warps w).ctaId - (s.warps w).registered) ∧
      s'.warps = (s.setWarp w fun v =>
        { v with registered := 0, doneExit := v.doneExit || 0 < v.registered }).warps ∧
      s'.ldst = s.ldst ∧ s'.nextUid = s.nextUid ∧ s'.mem = s.mem ∧
      ((∃ c, retires s (.reclaim w) = some c ∧ s'.tables = (s.eraseCta c).tables ∧
          es = [.retired c]) ∨
        (retires s (.reclaim w) = none ∧ s'.tables = s.tables ∧ es = [])) := by
  simp only [reclaim, bind_eq_ok, require_eq_ok, pure_eq_ok, Prod.exists, Prod.mk.injEq] at h
  obtain ⟨_, hdone, s₁, es₁, hexits, rfl, rfl⟩ := h
  obtain ⟨hle, hstatus, hldst, hwarps, huid, hmem, herase⟩ := registerExits_eq_ok hexits
  refine ⟨hdone, hle, hstatus, by simp [setWarp, hwarps], hldst, huid, hmem, ?_⟩
  by_cases hret : 0 < (s.warps w).registered ∧
      s.ctaStatus (s.warps w).ctaId = (s.warps w).registered
  · rw [if_pos hret] at herase
    exact .inl ⟨_, if_pos hret, herase⟩
  · rw [if_neg hret] at herase
    exact .inr ⟨if_neg hret, herase⟩

/-- Initialising the warps of a CTA is idle for the queues. -/
theorem initWarp_idle {ctaHwId i : Nat} (h : initWarp cfg ctaHwId s i = .ok s') : Idle s s' := by
  simp only [initWarp, bind_eq_ok, require_eq_ok, pure_eq_ok] at h
  obtain ⟨_, _, _, _, rfl⟩ := h
  exact ⟨rfl, rfl, rfl⟩

/-- The launch of a CTA leaves queues and load/store unit as they are. -/
theorem issueBlock2core_idle {ctaHwId : Nat}
    (h : issueBlock2core cfg s ctaHwId = .ok (s', es)) : Idle s s' ∧ es = [] := by
  simp only [issueBlock2core, bind_eq_ok, require_eq_ok, pure_eq_ok, Prod.mk.injEq] at h
  obtain ⟨_, _, m, hfold, rfl, rfl⟩ := h
  have hidle : Idle s m := foldlM_invariant (Idle s)
    (fun _ _ _ _ hm hf => hm.trans (initWarp_idle hf)) hfold (.refl s)
  exact ⟨⟨hidle.tables_eq, hidle.ldst_eq, hidle.nextUid_eq⟩, rfl⟩

/-- What an action does to queues, accesses and the log. -/
inductive StepCase (cfg : Config) (read : Mem → BitVec 64 → Nat → BitVec 64) (s : Shader Mem) :
    Action Mem → Shader Mem → List Event → Prop
  | test {w : Nat} {inst : QueueInst} {countStall : Bool} {s₁ s' : Shader Mem} {b₁ b₂ : Bool}
      (hrunning : (s.warps w).functionalDone = false)
      (hrfq : canIssue .rfq cfg s w inst countStall = .ok (s₁, b₁))
      (hsmemq : canIssue .smemq cfg s₁ w inst countStall = .ok (s', b₂)) :
      StepCase cfg read s (.test w inst countStall) s' []
  | load {w : Nat} {inst : QueueInst} {mask : ActiveMask} {input : LaneInput} {s' : Shader Mem}
      {es : List Event} (hload : inst.load = true)
      (hissue : issueWarp cfg read s w inst mask input = .ok (s', es)) :
      StepCase cfg read s (.issue w inst mask input) s' es
  | move {w : Nat} {inst : QueueInst} {mask : ActiveMask} {input : LaneInput} {s' : Shader Mem}
      {es : List Event} (hload : inst.load = false)
      (hissue : issueWarp cfg read s w inst mask input = .ok (s', es)) :
      StepCase cfg read s (.issue w inst mask input) s' es
  | dispatch {i : Nat} {port : Port} {inst : WarpInst} {s' : Shader Mem} {es : List Event}
      (hinst : s.ldst.dispatch[i]? = some inst) (hstep : DispatchStep cfg s i inst s' es)
      (hout : OutsideLdst s s') : StepCase cfg read s (.dispatch i port) s' es
  | ldst {a : Action Mem} {s' : Shader Mem} {es : List Event} (hret : retires s a = none)
      (hstep : LdstStep cfg s s' es) (hframe : LdstFrame s s') : StepCase cfg read s a s' es
  | retire {a : Action Mem} {c : Nat} {s' : Shader Mem} (hret : retires s a = some c)
      (htables : s'.tables = (s.eraseCta c).tables) (hldst : s'.ldst = s.ldst)
      (huid : s'.nextUid = s.nextUid) : StepCase cfg read s a s' [.retired c]
  | idle {a : Action Mem} {s' : Shader Mem} (hret : retires s a = none) (hidle : Idle s s') :
      StepCase cfg read s a s' []

/-- Every action of a core in which loads without active lanes have no accesses is one
of these cases. -/
theorem step_cases {a : Action Mem}
    (hoff : ∀ inst ∈ s.ldst.dispatch, inst.activeMask = 0 → inst.accessqCount = 0)
    (h : step cfg read s a = .ok (s', es)) : StepCase cfg read s a s' es := by
  cases a with
  | test w inst countStall =>
    simp only [step, bind_eq_ok, require_eq_ok, pure_eq_ok, Prod.exists, Prod.mk.injEq] at h
    obtain ⟨_, ⟨_, hrunning⟩, s₁, b₁, hrfq, s₂, b₂, hsmemq, rfl, rfl⟩ := h
    exact .test hrunning hrfq hsmemq
  | issue w inst mask input =>
    cases hload : inst.load with
    | true => exact .load hload h
    | false => exact .move hload h
  | dispatch i port =>
    obtain ⟨inst, hinst, hstep, hout⟩ :=
      dispatchCycle_cases (fun inst hi => hoff inst (List.mem_of_getElem? hi)) h
    exact .dispatch hinst hstep hout
  | l1Latency i status =>
    obtain ⟨hstep, hframe⟩ := l1LatencyQueueCycle_cases h
    exact .ldst rfl hstep hframe
  | respond i =>
    obtain ⟨hstep, hframe⟩ := respond_cases h
    exact .ldst rfl hstep hframe
  | writeback client =>
    obtain ⟨hstep, hframe⟩ := writeback_cases h
    exact .ldst rfl hstep hframe
  | reclaim w =>
    obtain ⟨_, _, _, _, hldst, huid, _, ⟨c, hret, htables, rfl⟩ | ⟨hret, htables, rfl⟩⟩ :=
      reclaim_cases h
    · exact .retire hret htables hldst huid
    · exact .idle hret ⟨htables, hldst, huid⟩
  | launch c =>
    obtain ⟨hidle, rfl⟩ := issueBlock2core_idle h
    exact .idle rfl hidle
  | decode w =>
    simp only [step, pure_eq_ok, Prod.mk.injEq] at h
    obtain ⟨rfl, rfl⟩ := h
    exact .idle rfl ⟨rfl, rfl, rfl⟩
  | issueOther w =>
    simp only [step, bind_eq_ok, pure_eq_ok, Prod.mk.injEq] at h
    obtain ⟨_, _, rfl, rfl⟩ := h
    exact .idle rfl ⟨rfl, rfl, rfl⟩
  | finishOther w =>
    simp only [step, bind_eq_ok, pure_eq_ok, Prod.mk.injEq] at h
    obtain ⟨_, _, m, hdec, rfl, rfl⟩ := h
    obtain ⟨_, rfl⟩ := decInstInPipeline_eq_ok hdec
    exact .idle rfl ⟨rfl, rfl, rfl⟩
  | flush w =>
    simp only [step, bind_eq_ok, pure_eq_ok, Prod.mk.injEq] at h
    obtain ⟨_, _, rfl, rfl⟩ := h
    exact .idle rfl ⟨rfl, rfl, rfl⟩
  | storeReq w =>
    simp only [step, pure_eq_ok, Prod.mk.injEq] at h
    obtain ⟨rfl, rfl⟩ := h
    exact .idle rfl ⟨rfl, rfl, rfl⟩
  | storeAck w =>
    simp only [step, bind_eq_ok, pure_eq_ok, Prod.mk.injEq] at h
    obtain ⟨_, _, rfl, rfl⟩ := h
    exact .idle rfl ⟨rfl, rfl, rfl⟩
  | exit w n =>
    simp only [step, bind_eq_ok, pure_eq_ok, Prod.mk.injEq] at h
    obtain ⟨_, _, rfl, rfl⟩ := h
    exact .idle rfl ⟨rfl, rfl, rfl⟩
  | storeMem mem =>
    simp only [step, pure_eq_ok, Prod.mk.injEq] at h
    obtain ⟨rfl, rfl⟩ := h
    exact .idle rfl ⟨rfl, rfl, rfl⟩

end Shader
end WaspSim
