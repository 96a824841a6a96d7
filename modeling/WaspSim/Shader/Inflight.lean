import Mathlib.Algebra.BigOperators.Group.Multiset.Basic
import Mathlib.Tactic.Abel
import WaspSim.Shader.Machine

/-!
# Accesses in flight

Every access of a queue load that was generated and not yet answered is
somewhere in the load/store unit: in the access queue of its load, in the L1
latency queue, in the memory system or on its way back. The steps of the unit
only move accesses between these places, apart from the one that is answered.
-/

namespace WaspSim

/-- One access of a load, wherever it is: the load's instruction without its queue. -/
def WarpInst.access (inst : WarpInst) : WarpInst := { inst with accessqCount := 0 }

@[simp] theorem WarpInst.uid_access (inst : WarpInst) : inst.access.uid = inst.uid := rfl

@[simp] theorem WarpInst.kind_access (inst : WarpInst) : inst.access.kind = inst.kind := rfl

@[simp] theorem WarpInst.access_access (inst : WarpInst) : inst.access.access = inst.access := rfl

@[simp] theorem WarpInst.tokenFromInst_access (inst : WarpInst) :
    inst.access.tokenFromInst = inst.tokenFromInst := rfl

/-- An access tells its load's number. -/
theorem WarpInst.uid_eq_of_access_eq {i j : WarpInst} (h : i.access = j.access) :
    i.uid = j.uid := by
  rw [← uid_access i, h, uid_access]

/-- An access tells its load's decoded instruction. -/
theorem WarpInst.toQueueInst_eq_of_access_eq {i j : WarpInst} (h : i.access = j.access) :
    i.toQueueInst = j.toQueueInst :=
  calc i.toQueueInst = i.access.toQueueInst := rfl
    _ = j.access.toQueueInst := by rw [h]
    _ = j.toQueueInst := rfl

/-- The accesses still in the access queues of a list of loads. -/
def queuedAccesses (l : List WarpInst) : Multiset WarpInst :=
  (l.map fun inst => Multiset.replicate inst.accessqCount inst.access).sum

/-- The accesses travelling as the given copies. -/
def copies (l : List WarpInst) : Multiset WarpInst := ↑(l.map WarpInst.access)

/-- Every access that was generated and not yet answered. -/
def LdstUnit.inflight (u : LdstUnit) : Multiset WarpInst :=
  queuedAccesses u.dispatch + copies u.l1LatencyQueue + copies u.memory + copies u.l1dReady +
    copies u.nextGlobal.toList + copies u.nextWb.toList

@[simp] theorem copies_nil : copies [] = 0 := rfl

theorem copies_append (l l' : List WarpInst) : copies (l ++ l') = copies l + copies l' := by
  simp [copies]

@[simp] theorem copies_singleton (inst : WarpInst) : copies [inst] = {inst.access} := rfl

/-- Each access of an instruction counts. -/
theorem copies_replicate (n : Nat) (inst : WarpInst) :
    copies (List.replicate n inst) = Multiset.replicate n inst.access := by
  simp [copies, Multiset.coe_replicate]

/-- The access of an instruction is among the copies. -/
theorem mem_copies {l : List WarpInst} {inst : WarpInst} (h : inst ∈ l) :
    inst.access ∈ copies l :=
  Multiset.mem_coe.mpr (List.mem_map_of_mem h)

/-- An instruction that leaves takes one access along. -/
theorem copies_eraseIdx {l : List WarpInst} {i : Nat} {inst : WarpInst} (h : l[i]? = some inst) :
    copies l = {inst.access} + copies (l.eraseIdx i) := by
  obtain ⟨hi, rfl⟩ := List.getElem?_eq_some_iff.mp h
  have hperm := (List.getElem_cons_eraseIdx_perm hi).map WarpInst.access
  rw [copies, ← Multiset.coe_eq_coe.mpr hperm]
  rfl

/-- A new instruction adds its accesses. -/
theorem queuedAccesses_append (l : List WarpInst) (inst : WarpInst) :
    queuedAccesses (l ++ [inst]) =
      queuedAccesses l + Multiset.replicate inst.accessqCount inst.access := by
  simp [queuedAccesses]

/-- An instruction that leaves takes its accesses along. -/
theorem queuedAccesses_eraseIdx {l : List WarpInst} {i : Nat} {inst : WarpInst}
    (h : l[i]? = some inst) :
    queuedAccesses l = Multiset.replicate inst.accessqCount inst.access +
      queuedAccesses (l.eraseIdx i) := by
  obtain ⟨hi, rfl⟩ := List.getElem?_eq_some_iff.mp h
  have hperm := (List.getElem_cons_eraseIdx_perm hi).map
    fun inst => Multiset.replicate inst.accessqCount inst.access
  rw [queuedAccesses, ← hperm.sum_eq]
  rfl

/-- An instruction that changes has other accesses in its place. -/
theorem queuedAccesses_set {l : List WarpInst} {i : Nat} {inst : WarpInst} (inst' : WarpInst)
    (h : l[i]? = some inst) :
    queuedAccesses (l.set i inst') = Multiset.replicate inst'.accessqCount inst'.access +
      queuedAccesses (l.eraseIdx i) := by
  obtain ⟨hi, rfl⟩ := List.getElem?_eq_some_iff.mp h
  have hperm := (List.set_perm_cons_eraseIdx hi inst').map
    fun inst => Multiset.replicate inst.accessqCount inst.access
  rw [queuedAccesses, hperm.sum_eq]
  rfl

/-- Popping accesses and putting as many copies elsewhere keeps the total. -/
theorem replicate_access_split (inst : WarpInst) {n : Nat} (hn : n ≤ inst.accessqCount) :
    Multiset.replicate inst.accessqCount inst.access =
      Multiset.replicate (Shader.accessqPop inst n).accessqCount inst.access +
        Multiset.replicate n inst.access := by
  rw [← Multiset.replicate_add]
  congr 1
  simp only [Shader.accessqPop]
  omega

namespace Shader

variable {Mem : Type} {cfg : Config} {s s' : Shader Mem} {es : List Event}

/-- What `memory_cycle` can do with a load: send or queue some of its accesses, or
have one answered by an L1 hit. -/
inductive MemoryCycle (cfg : Config) (s : Shader Mem) (inst : WarpInst) :
    Shader Mem → WarpInst → Bool → List Event → Prop
  /-- `n` accesses move on. -/
  | sent (n : Nat) (ldst : LdstUnit) (hn : n ≤ inst.accessqCount)
      (hdispatch : ldst.dispatch = s.ldst.dispatch)
      (hinflight : ldst.inflight = s.ldst.inflight + Multiset.replicate n inst.access) :
      MemoryCycle cfg s inst (s.setLdst ldst) (accessqPop inst n)
        ((accessqPop inst n).accessqCount == 0) []
  /-- One access is answered at once, and the answer to the mark is dropped. -/
  | hit (s₁ : Shader Mem) (last : Bool) (hpos : 0 < inst.accessqCount)
      (hmark : markResponse cfg s inst = .ok (s₁, last)) :
      MemoryCycle cfg s inst s₁ (accessqPop inst 1) ((accessqPop inst 1).accessqCount == 0)
        [.answered inst.uid]

/-- Nothing moves. -/
private theorem MemoryCycle.stay (cfg : Config) (s : Shader Mem) (inst : WarpInst) :
    MemoryCycle cfg s inst s inst (inst.accessqCount == 0) [] :=
  MemoryCycle.sent 0 s.ldst (Nat.zero_le _) rfl (by simp)

/-- An access goes to memory. -/
private theorem MemoryCycle.memory {inst : WarpInst} (hpos : 0 < inst.accessqCount) :
    MemoryCycle cfg s inst (s.setLdst { s.ldst with memory := s.ldst.memory ++ [inst] })
      (accessqPop inst 1) ((accessqPop inst 1).accessqCount == 0) [] := by
  refine MemoryCycle.sent 1 _ hpos rfl ?_
  simp only [LdstUnit.inflight, copies_append, copies_singleton, Multiset.replicate_one]
  abel

/-- A load whose lanes are all off has no accesses, so the two reasons to be done are one. -/
theorem memoryCycle_cases {inst inst' : WarpInst} {port : Port} {done : Bool}
    (hoff : inst.activeMask = 0 → inst.accessqCount = 0)
    (h : memoryCycle cfg s inst port = .ok (s', inst', done, es)) :
    MemoryCycle cfg s inst s' inst' done es := by
  unfold memoryCycle at h
  by_cases hempty : inst.activeMask = 0 ∨ inst.accessqCount = 0
  · have hzero : inst.accessqCount = 0 := hempty.elim hoff id
    simp only [hempty, ↓reduceIte, pure_eq_ok, Prod.mk.injEq] at h
    obtain ⟨rfl, rfl, rfl, rfl⟩ := h
    have hstay := MemoryCycle.stay cfg s inst
    rwa [hzero] at hstay
  have hpos : 0 < inst.accessqCount := by
    rw [not_or] at hempty
    omega
  simp only [hempty, ↓reduceIte] at h
  split at h
  · split at h
    · simp only [pure_eq_ok, Prod.mk.injEq] at h
      obtain ⟨rfl, rfl, rfl, rfl⟩ := h
      have hstay := MemoryCycle.stay cfg s inst
      rwa [beq_eq_false_iff_ne.mpr (Nat.ne_of_gt hpos)] at hstay
    · simp only [pure_eq_ok, Prod.mk.injEq] at h
      obtain ⟨rfl, rfl, rfl, rfl⟩ := h
      exact .memory hpos
  · split at h
    · simp only [pure_eq_ok, Prod.mk.injEq] at h
      obtain ⟨rfl, rfl, rfl, rfl⟩ := h
      refine .sent _ _ (by omega) rfl ?_
      simp only [LdstUnit.inflight, copies_append, copies_replicate]
      abel
    · simp only [bind_eq_ok, pure_eq_ok, Prod.exists, Prod.mk.injEq] at h
      obtain ⟨s₁, inst₁, es₁, hprocess, rfl, rfl, rfl, rfl⟩ := h
      cases hstatus : port.status with
      | hit =>
        rw [hstatus] at hprocess
        simp only [processCacheAccess, bind_eq_ok, pure_eq_ok, Prod.exists, Prod.mk.injEq]
          at hprocess
        obtain ⟨m, last, hmark, rfl, rfl, rfl⟩ := hprocess
        exact .hit m last hpos hmark
      | reservationFail =>
        rw [hstatus] at hprocess
        simp only [processCacheAccess, pure_eq_ok, Prod.mk.injEq] at hprocess
        obtain ⟨rfl, rfl, rfl⟩ := hprocess
        exact .stay cfg s inst
      | miss =>
        rw [hstatus] at hprocess
        simp only [processCacheAccess, pure_eq_ok, Prod.mk.injEq] at hprocess
        obtain ⟨rfl, rfl, rfl⟩ := hprocess
        exact .memory hpos
      | hitReserved =>
        rw [hstatus] at hprocess
        simp only [processCacheAccess, pure_eq_ok, Prod.mk.injEq] at hprocess
        obtain ⟨rfl, rfl, rfl⟩ := hprocess
        exact .memory hpos

end Shader
end WaspSim
