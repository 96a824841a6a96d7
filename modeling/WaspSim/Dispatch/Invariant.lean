import WaspSim.Core.Run
import WaspSim.Dispatch.Cores

/-!
# The invariant of the dispatcher

The slots hold distinct launched kernels, every kernel has issued its first CTAs in order, and
the CTAs issued are those completed and those on the cores. One kernel's part of the invariant
depends on little of the state, so that the steps that concern other kernels keep it. The cores
share one table of CTAs, in which each has places of its own.
-/

namespace WaspSim

/-- The place of a core among all cores. -/
theorem GpuConfig.cidToSid_lt {cfg : GpuConfig} {c i : Nat} (hc : c < cfg.nSimtClusters)
    (hi : i < cfg.nSimtCoresPerCluster) : cfg.cidToSid i c < cfg.core.numShader := by
  rw [cfg.numShader_eq]
  calc c * cfg.nSimtCoresPerCluster + i < (c + 1) * cfg.nSimtCoresPerCluster := by
        rw [Nat.succ_mul]
        exact Nat.add_lt_add_left hi _
    _ ≤ cfg.nSimtClusters * cfg.nSimtCoresPerCluster := Nat.mul_le_mul_right _ hc

/-- The slots of all cores have different numbers. -/
theorem GpuConfig.smIdx_inj {cfg : GpuConfig} {c i slot c' i' slot' : Nat}
    (hc : c < cfg.nSimtClusters) (hi : i < cfg.nSimtCoresPerCluster)
    (hc' : c' < cfg.nSimtClusters) (hi' : i' < cfg.nSimtCoresPerCluster)
    (h : (cfg.site c i).smIdx slot = (cfg.site c' i').smIdx slot') :
    c = c' ∧ i = i' ∧ slot = slot' := by
  obtain ⟨rfl, hsid⟩ := mul_add_inj (cfg.cidToSid_lt hc hi) (cfg.cidToSid_lt hc' hi') h
  obtain ⟨rfl, rfl⟩ := mul_add_inj hi hi' hsid
  exact ⟨rfl, rfl, rfl⟩

namespace GpgpuSim

variable {cfg : GpuConfig} {s s' : GpgpuSim} {core core' : SimtCore} {c i : Nat}

/-- The CTAs on all cores. -/
def residentCtas (s : GpgpuSim) : Multiset (Nat × Dim3) :=
  holding (fun _ row => holding (fun _ core => core.residentCtas) row) s.cores

theorem core?_eq_some : s.core? c i = some core ↔
    ∃ row, s.cores[c]? = some row ∧ row[i]? = some core := Option.bind_eq_some_iff

theorem setCore_cores (i : Nat) (core' : SimtCore) {row : List SimtCore}
    (hrow : s.cores[c]? = some row) :
    (s.setCore c i core').cores = s.cores.set c (row.set i core') := by
  change s.cores.modify c _ = _
  rw [List.modify_eq_set_getElem? , hrow]
  rfl

/-- Another core in the place of one: only that core has changed. -/
theorem core?_setCore (h : s.core? c i = some core) (c' i' : Nat) :
    (s.setCore c i core').core? c' i' =
      if c' = c ∧ i' = i then some core' else s.core? c' i' := by
  obtain ⟨row, hrow, hi⟩ := core?_eq_some.mp h
  obtain ⟨hc, _⟩ := List.getElem?_eq_some_iff.mp hrow
  obtain ⟨hlt, _⟩ := List.getElem?_eq_some_iff.mp hi
  unfold core?
  rw [setCore_cores _ _ hrow]
  by_cases heq : c' = c
  · rw [heq, List.getElem?_set_self hc, hrow, Option.bind_some, Option.bind_some]
    by_cases heq' : i' = i
    · rw [heq', List.getElem?_set_self hlt, if_pos ⟨rfl, rfl⟩]
    · rw [List.getElem?_set_ne (Ne.symm heq'), if_neg fun hand => heq' hand.2]
  · rw [List.getElem?_set_ne (Ne.symm heq), if_neg fun hand => heq hand.1]

/-- The CTAs on the cores change with those of the core that changes. -/
theorem residentCtas_setCore (core' : SimtCore) (h : s.core? c i = some core) :
    (s.setCore c i core').residentCtas + core.residentCtas =
      s.residentCtas + core'.residentCtas := by
  obtain ⟨row, hrow, hi⟩ := core?_eq_some.mp h
  unfold residentCtas
  rw [setCore_cores _ _ hrow]
  exact holding_set_set (f := fun _ _ (core : SimtCore) => core.residentCtas) hrow hi

theorem mem_residentCtas {a : Nat × Dim3} :
    a ∈ s.residentCtas ↔ ∃ c i core, s.core? c i = some core ∧ a ∈ core.residentCtas := by
  unfold residentCtas
  simp only [mem_holding, core?_eq_some]
  constructor
  · rintro ⟨c, row, hrow, i, core, hi, ha⟩
    exact ⟨c, i, core, ⟨row, hrow, hi⟩, ha⟩
  · rintro ⟨c, i, core, ⟨row, hrow, hi⟩, ha⟩
    exact ⟨c, row, hrow, i, core, hi, ha⟩

/-- Cores that may have got CTAs. -/
def Grows (cfg : GpuConfig) (s s' : GpgpuSim) : Prop :=
  ∀ c i core', s'.core? c i = some core' → ∃ core, s.core? c i = some core ∧ core.Grows cfg core'

theorem Grows.of_eq (h : s'.cores = s.cores) : s.Grows cfg s' := by
  intro c i core hcore
  rw [core?, h] at hcore
  exact ⟨core, hcore, .of_eq rfl rfl⟩

theorem Grows.trans {s'' : GpgpuSim} (h : s.Grows cfg s') (h' : s'.Grows cfg s'') :
    s.Grows cfg s'' := by
  intro c i core hcore
  obtain ⟨core₁, hcore₁, hgrows₁⟩ := h' c i core hcore
  obtain ⟨core₂, hcore₂, hgrows₂⟩ := h c i core₁ hcore₁
  exact ⟨core₂, hcore₂, hgrows₂.trans hgrows₁⟩

theorem Grows.setCore (hcore : s.core? c i = some core) (h : core.Grows cfg core') :
    s.Grows cfg (s.setCore c i core') := by
  intro c' i' core₁ hcore₁
  rw [core?_setCore hcore] at hcore₁
  split at hcore₁
  · rename_i heq
    rw [heq.1, heq.2, ← Option.some.inj hcore₁]
    exact ⟨core, hcore, h⟩
  · exact ⟨core₁, hcore₁, .of_eq rfl rfl⟩

/-- The sizes of the arrays. -/
structure Shape (cfg : GpuConfig) (s : GpgpuSim) : Prop where
  running : s.runningKernels.length = cfg.maxConcurrentKernel
  last_lt : s.lastIssuedKernel < cfg.maxConcurrentKernel
  clusters : s.cores.length = cfg.nSimtClusters
  row : ∀ row ∈ s.cores, row.length = cfg.nSimtCoresPerCluster
  next : s.ctaIssueNextCore.length = cfg.nSimtClusters

theorem Shape.exists_slot (h : s.Shape cfg) {n : Nat} (hn : n < cfg.maxConcurrentKernel) :
    ∃ slot, s.runningKernels[n]? = some slot :=
  ⟨_, List.getElem?_eq_getElem (h.running ▸ hn)⟩

theorem Shape.exists_core (h : s.Shape cfg) (hc : c < cfg.nSimtClusters)
    (hi : i < cfg.nSimtCoresPerCluster) : ∃ core, s.core? c i = some core := by
  have hrow := List.getElem?_eq_getElem (h.clusters ▸ hc)
  have hlen := h.row _ (List.getElem_mem (h.clusters ▸ hc))
  exact ⟨_, core?_eq_some.mpr ⟨_, hrow, List.getElem?_eq_getElem (hlen ▸ hi)⟩⟩

theorem Shape.core_lt (h : s.Shape cfg) (hcore : s.core? c i = some core) :
    c < cfg.nSimtClusters ∧ i < cfg.nSimtCoresPerCluster := by
  obtain ⟨row, hrow, hi⟩ := core?_eq_some.mp hcore
  obtain ⟨hc, _⟩ := List.getElem?_eq_some_iff.mp hrow
  obtain ⟨hlt, _⟩ := List.getElem?_eq_some_iff.mp hi
  exact ⟨h.clusters ▸ hc, h.row row (List.mem_of_getElem? hrow) ▸ hlt⟩

theorem Shape.sid_lt (h : s.Shape cfg) (hcore : s.core? c i = some core) :
    (cfg.site c i).sid < (cfg.site c i).numShaders :=
  cfg.cidToSid_lt (h.core_lt hcore).1 (h.core_lt hcore).2

theorem Shape.setCore (h : s.Shape cfg) (core' : SimtCore) (hcore : s.core? c i = some core) :
    (s.setCore c i core').Shape cfg := by
  obtain ⟨row, hrow, hi⟩ := core?_eq_some.mp hcore
  have hcores := setCore_cores i core' hrow
  refine ⟨h.running, h.last_lt, ?_, fun row' hrow' => ?_, h.next⟩
  · rw [hcores, List.length_set]
    exact h.clusters
  · rw [hcores] at hrow'
    rcases List.mem_or_eq_of_mem_set hrow' with hmem | rfl
    · exact h.row row' hmem
    · rw [List.length_set]
      exact h.row row (List.mem_of_getElem? hrow)

/-- The CTAs of one kernel among others. -/
def ctasOf (uid : Nat) (ctas : Multiset (Nat × Dim3)) : Nat := ctas.countP fun a => a.1 = uid

variable {ctas : Multiset (Nat × Dim3)} {a : Nat × Dim3} {uid : Nat}

theorem ctasOf_cons_self (h : a.1 = uid) : ctasOf uid (a ::ₘ ctas) = ctasOf uid ctas + 1 :=
  Multiset.countP_cons_of_pos (p := fun a : Nat × Dim3 => a.1 = uid) _ h

theorem ctasOf_cons_ne (h : a.1 ≠ uid) : ctasOf uid (a ::ₘ ctas) = ctasOf uid ctas :=
  Multiset.countP_cons_of_neg (p := fun a : Nat × Dim3 => a.1 = uid) _ h

/-- A kernel has a slot. -/
def InSlot (s : GpgpuSim) (k : Kernel) : Prop := ∃ n : Nat, s.runningKernels[n]? = some (some k)

/-- The invariant of the slots. -/
structure Slots (s : GpgpuSim) (ls : List KernelLaunch) : Prop where
  launched : ∀ (n : Nat) k, s.runningKernels[n]? = some (some k) → ∃ l ∈ ls, l.kernel = k
  inj : ∀ (m n : Nat) k k', s.runningKernels[m]? = some (some k) →
    s.runningKernels[n]? = some (some k') → k.uid = k'.uid → m = n
  executed : ∀ uid ∈ s.executedKernelUids,
    (∃ l ∈ ls, l.kernel.uid = uid) ∧ (s.kernels uid).tbLatency = 0
  /-- Of the kernels selected before only the last one may have CTAs left. -/
  executed_last : ∀ (n : Nat) k, s.runningKernels[n]? = some (some k) →
    k.uid ∈ s.executedKernelUids → s.noMoreCtasToRun k = false → n = s.lastIssuedKernel

/-- The invariant of one kernel. -/
structure Progress (cfg : GpuConfig) (s : GpgpuSim) (log : List DispatchEvent) (l : KernelLaunch) :
    Prop where
  gridDim : (s.kernels l.kernel.uid).gridDim = l.gridDim
  blockDim : (s.kernels l.kernel.uid).blockDim = l.blockDim
  nextTid : (s.kernels l.kernel.uid).nextTid = ⟨0, 0, 0⟩
  activeThreads : (s.kernels l.kernel.uid).activeThreads = []
  fits : l.kernel.threadsPerCta ≤ cfg.core.nThreadPerShader
  nextCta : (s.kernels l.kernel.uid).nextCta = l.gridDim.nth (issuedOf l.kernel.uid log).length
  issued_le : (issuedOf l.kernel.uid log).length ≤ l.gridDim.volume
  issued : issuedOf l.kernel.uid log =
    (List.range (issuedOf l.kernel.uid log).length).map l.gridDim.nth
  running : (s.kernels l.kernel.uid).numCoresRunning = ctasOf l.kernel.uid s.residentCtas
  slot_of_running : 0 < (s.kernels l.kernel.uid).numCoresRunning → s.InSlot l.kernel
  slot_of_left : s.kernelMoreCtaLeft cfg (some l.kernel) = true → s.InSlot l.kernel
  ended : l.kernel.uid ∈ doneUids log → ¬s.InSlot l.kernel ∧
    (s.kernels l.kernel.uid).numCoresRunning = 0 ∧
    s.kernelMoreCtaLeft cfg (some l.kernel) = false
  ends : s.noMoreCtasToRun l.kernel = true → issuedOf l.kernel.uid log ≠ [] →
    (s.kernels l.kernel.uid).numCoresRunning = 0 → l.kernel.uid ∈ doneUids log

/-- The invariant of the dispatcher. -/
structure Sound (cfg : GpuConfig) (s : GpgpuSim) (log : List DispatchEvent) : Prop where
  shape : s.Shape cfg
  slots : s.Slots (launches log)
  progress : ∀ l ∈ launches log, s.Progress cfg log l
  cores : ∀ c i core, s.core? c i = some core →
    core.Sound cfg (launches log) (cfg.site c i) s.ctaLookup
  once : ((launches log).map fun l => l.kernel.uid).Nodup
  issued_launched : ∀ a ∈ issuedCtas log, ∃ l ∈ launches log, l.kernel.uid = a.1
  ledger : (issuedCtas log : Multiset (Nat × Dim3)) = completedCtas log + s.residentCtas
  counted : (issuedCtas log).length = s.gpuTotIssuedCta + s.totalCtaLaunched
  limited : cfg.gpuMaxCtaOpt ≠ 0 → s.gpuTotIssuedCta + s.totalCtaLaunched ≤ cfg.gpuMaxCtaOpt
  done_launched : ∀ uid ∈ doneUids log, ∃ l ∈ launches log, l.kernel.uid = uid
  done_once : (doneUids log).Nodup
  reported : doneUids log = reportedUids log ++ s.finishedKernel

variable {log log' : List DispatchEvent} {l : KernelLaunch} {k : Kernel}

/-- A change of one core in its own places of the table leaves the other cores as they are. -/
theorem cores_setCore {ls : List KernelLaunch} {lookup : Nat → Option PtxCtaInfo}
    (hshape : s.Shape cfg)
    (h : ∀ c i core, s.core? c i = some core → core.Sound cfg ls (cfg.site c i) s.ctaLookup)
    (hcore : s.core? c i = some core) (hsound : core'.Sound cfg ls (cfg.site c i) lookup)
    (hlookup : ∀ idx, (∀ slot, idx ≠ (cfg.site c i).smIdx slot) → lookup idx = s.ctaLookup idx)
    (c' i' : Nat) (core₁ : SimtCore) (hcore₁ : (s.setCore c i core').core? c' i' = some core₁) :
    core₁.Sound cfg ls (cfg.site c' i') lookup := by
  rw [core?_setCore hcore] at hcore₁
  split at hcore₁
  · rename_i heq
    rw [← Option.some.inj hcore₁, heq.1, heq.2]
    exact hsound
  · rename_i hother
    obtain ⟨hc, hi⟩ := hshape.core_lt hcore
    obtain ⟨hc', hi'⟩ := hshape.core_lt hcore₁
    refine (h c' i' core₁ hcore₁).congr fun slot' => hlookup _ fun slot heq => hother ?_
    obtain ⟨rfl, rfl, _⟩ := cfg.smIdx_inj hc' hi' hc hi heq
    exact ⟨rfl, rfl⟩

/-- What one kernel's part of the invariant depends on. -/
structure SameProgress (cfg : GpuConfig) (s s' : GpgpuSim) (log log' : List DispatchEvent)
    (k : Kernel) : Prop where
  kernel : ∃ t, s'.kernels k.uid = { s.kernels k.uid with tbLatency := t }
  issued : issuedOf k.uid log' = issuedOf k.uid log
  done : k.uid ∈ doneUids log' ↔ k.uid ∈ doneUids log
  count : ctasOf k.uid s'.residentCtas = ctasOf k.uid s.residentCtas
  slot : s'.InSlot k → s.InSlot k
  keep : s.InSlot k → 0 < (s.kernels k.uid).numCoresRunning ∨
    s.kernelMoreCtaLeft cfg (some k) = true → s'.InSlot k
  hit : s'.hitMaxCtaCount cfg = false → s.hitMaxCtaCount cfg = false

theorem kernelMoreCtaLeft_some : s.kernelMoreCtaLeft cfg (some k) = true ↔
    s.hitMaxCtaCount cfg = false ∧ s.noMoreCtasToRun k = false := by
  simp [kernelMoreCtaLeft]

/-- A step that concerns other kernels keeps a kernel's part of the invariant. -/
theorem Progress.frame (h : s.Progress cfg log l)
    (hsame : SameProgress cfg s s' log log' l.kernel) : s'.Progress cfg log' l := by
  obtain ⟨t, ht⟩ := hsame.kernel
  have hmore : s'.noMoreCtasToRun l.kernel = s.noMoreCtasToRun l.kernel := by
    unfold noMoreCtasToRun
    rw [ht]
    rfl
  have hleft : s'.kernelMoreCtaLeft cfg (some l.kernel) = true →
      s.kernelMoreCtaLeft cfg (some l.kernel) = true := by
    rw [kernelMoreCtaLeft_some, kernelMoreCtaLeft_some, hmore]
    exact fun hleft => ⟨hsame.hit hleft.1, hleft.2⟩
  have hrunning : (s'.kernels l.kernel.uid).numCoresRunning =
      (s.kernels l.kernel.uid).numCoresRunning := by rw [ht]
  constructor
  · rw [ht]
    exact h.gridDim
  · rw [ht]
    exact h.blockDim
  · rw [ht]
    exact h.nextTid
  · rw [ht]
    exact h.activeThreads
  · exact h.fits
  · rw [ht, hsame.issued]
    exact h.nextCta
  · rw [hsame.issued]
    exact h.issued_le
  · rw [hsame.issued]
    exact h.issued
  · rw [hrunning, hsame.count]
    exact h.running
  · rw [hrunning]
    exact fun hpos => hsame.keep (h.slot_of_running hpos) (.inl hpos)
  · intro hmore'
    exact hsame.keep (h.slot_of_left (hleft hmore')) (.inr (hleft hmore'))
  · rw [hsame.done, hrunning]
    intro hdone
    obtain ⟨hslot, hzero, hnone⟩ := h.ended hdone
    refine ⟨fun hslot' => hslot (hsame.slot hslot'), hzero, Bool.eq_false_iff.mpr fun htrue => ?_⟩
    rw [hleft htrue] at hnone
    cases hnone
  · rw [hmore, hsame.issued, hrunning, hsame.done]
    exact h.ends

/-- The kernel of a slot is one of the launches. -/
theorem Slots.launch_of_inSlot {ls : List KernelLaunch} (h : s.Slots ls) (hk : s.InSlot k) :
    ∃ l ∈ ls, l.kernel = k := by
  obtain ⟨n, hn⟩ := hk
  exact h.launched n k hn

/-- A number belongs to one launch. -/
theorem Sound.launch_inj (h : s.Sound cfg log) {l l' : KernelLaunch} (hl : l ∈ launches log)
    (hl' : l' ∈ launches log) (heq : l.kernel.uid = l'.kernel.uid) : l = l' :=
  List.inj_on_of_nodup_map h.once hl hl' heq

/-- The CTAs of a core belong to launched kernels. -/
theorem Sound.launched_of_resident (h : s.Sound cfg log) {a : Nat × Dim3}
    (ha : a ∈ s.residentCtas) : ∃ l ∈ launches log, l.kernel.uid = a.1 := by
  apply h.issued_launched a
  have hmem : a ∈ (issuedCtas log : Multiset (Nat × Dim3)) := by
    rw [h.ledger]
    exact Multiset.mem_add.mpr (.inr ha)
  exact Multiset.mem_coe.mp hmem

end GpgpuSim

end WaspSim
