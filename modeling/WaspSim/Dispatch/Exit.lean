import WaspSim.Dispatch.Issue

/-!
# The end of CTAs and kernels

The last thread of a CTA takes it off its core. The last CTA of a kernel without CTAs left ends
the kernel, which still has its slot then.
-/

namespace WaspSim

namespace GpgpuSim

variable {cfg : GpuConfig} {s s' : GpgpuSim} {core core' : SimtCore} {c i : Nat}
  {log log' : List DispatchEvent} {l l' : KernelLaunch} {k : Kernel} {uid : Nat}

/-- The state after a CTA of a kernel has left a core. -/
def withExit (s : GpgpuSim) (c i : Nat) (core' : SimtCore) (uid : Nat)
    (slots : List (Option Kernel)) (ended : List Nat) : GpgpuSim :=
  { s.setCore c i core' with
    kernels := Function.update s.kernels uid (s.kernels uid).decRunning
    runningKernels := slots
    finishedKernel := s.finishedKernel ++ ended }

/-- The CTAs that a kernel has left do not depend on those that run. -/
theorem kernelMoreCtaLeft_decRunning (s : GpgpuSim) (uid : Nat) (k : Kernel) :
    (s.decRunning uid).kernelMoreCtaLeft cfg (some k) = s.kernelMoreCtaLeft cfg (some k) := by
  have hmore : (s.decRunning uid).noMoreCtasToRun k = s.noMoreCtasToRun k := by
    by_cases heq : k.uid = uid
    · have hstate : (s.decRunning uid).kernels uid = (s.kernels uid).decRunning :=
        Function.update_self ..
      unfold noMoreCtasToRun
      rw [heq, hstate]
      rfl
    · exact congrArg KernelState.noMoreCtasToRun (Function.update_of_ne heq ..)
  change (!s.hitMaxCtaCount cfg && !(s.decRunning uid).noMoreCtasToRun k) = _
  rw [hmore]
  rfl

/-- One CTA less on the cores. -/
theorem residentCtas_remove (hcore : s.core? c i = some core) {a : Nat × Dim3}
    (hremove : core.residentCtas = a ::ₘ core'.residentCtas) :
    s.residentCtas = a ::ₘ (s.setCore c i core').residentCtas := by
  have hmoved := residentCtas_setCore core' hcore
  rw [hremove, Multiset.add_cons, ← Multiset.cons_add] at hmoved
  exact (add_right_cancel hmoved).symm

/-- What a CTA that leaves a core does to the slots of the kernels. -/
structure Leaves (s : GpgpuSim) (log : List DispatchEvent) (uid : Nat)
    (slots : List (Option Kernel))
    (ended : List Nat) : Prop where
  length : slots.length = s.runningKernels.length
  sub : ∀ (n : Nat) k, slots[n]? = some (some k) → s.runningKernels[n]? = some (some k)
  keep : ∀ (n : Nat) k, s.runningKernels[n]? = some (some k) → k.uid ≠ uid →
    slots[n]? = some (some k)
  ended : ended = [] ∨ ended = [uid] ∧ uid ∉ doneUids log

/-- The events of a CTA that leaves a core, and of the kernel that may end with it. -/
def exitEvents (uid : Nat) (cta : Dim3) (sid slot : Nat) (ended : List Nat) : List DispatchEvent :=
  .ctaCompleted uid cta sid slot :: ended.map .kernelDone

section

variable {slots : List (Option Kernel)} {ended : List Nat} {cta : Dim3} {sid slot : Nat}

variable (cta sid slot) in
theorem exitEvents_log (hended : ended = [] ∨ ended = [uid]) :
    launches (exitEvents uid cta sid slot ended) = [] ∧
      issuedCtas (exitEvents uid cta sid slot ended) = [] ∧
      completedCtas (exitEvents uid cta sid slot ended) = [(uid, cta)] ∧
      doneUids (exitEvents uid cta sid slot ended) = ended ∧
      reportedUids (exitEvents uid cta sid slot ended) = [] := by
  rcases hended with rfl | rfl
  · exact ⟨rfl, rfl, rfl, rfl, rfl⟩
  · exact ⟨rfl, rfl, rfl, rfl, rfl⟩

/-- A kernel of another number keeps its part of the invariant. -/
theorem Sound.progress_exit (h : s.Sound cfg log) (hl : l' ∈ launches log)
    (hne : l'.kernel.uid ≠ uid) (hcore : s.core? c i = some core)
    (hremove : core.residentCtas = (uid, cta) ::ₘ core'.residentCtas)
    (hleaves : s.Leaves log uid slots ended) :
    (s.withExit c i core' uid slots ended).Progress cfg
      (log ++ exitEvents uid cta sid slot ended) l' := by
  have hended : ended = [] ∨ ended = [uid] := hleaves.ended.imp_right And.left
  obtain ⟨-, hissued, -, hdone, -⟩ :=
    exitEvents_log cta sid slot hended
  have hcount : s.residentCtas =
      (uid, cta) ::ₘ (s.withExit c i core' uid slots ended).residentCtas :=
    residentCtas_remove hcore hremove
  refine (h.progress l' hl).frame ⟨⟨_, Function.update_of_ne hne ..⟩, ?_, ?_, ?_, ?_, ?_, id⟩
  · rw [issuedOf_append, issuedOf, issuedOf, hissued]
    exact List.append_nil _
  · rw [doneUids_append, hdone, List.mem_append]
    refine ⟨fun hmem => hmem.resolve_right fun hnew => ?_, .inl⟩
    rcases hended with rfl | rfl
    · cases hnew
    · exact hne (List.mem_singleton.mp hnew)
  · rw [hcount, ctasOf_cons_ne (Ne.symm hne)]
  · rintro ⟨n, hn⟩
    exact ⟨n, hleaves.sub n _ hn⟩
  · rintro ⟨n, hn⟩ _
    exact ⟨n, hleaves.keep n _ hn hne⟩

variable (cta sid slot) in
/-- A CTA that leaves a core keeps the invariant as far as its own kernel does. -/
theorem Sound.exit (h : s.Sound cfg log) (hl : l ∈ launches log) (hcore : s.core? c i = some core)
    (hsound : core'.Sound cfg (launches log) (cfg.site c i) s.ctaLookup)
    (hremove : core.residentCtas = (l.kernel.uid, cta) ::ₘ core'.residentCtas)
    (hleaves : s.Leaves log l.kernel.uid slots ended)
    (hprogress : (s.withExit c i core' l.kernel.uid slots ended).Progress cfg
      (log ++ exitEvents l.kernel.uid cta sid slot ended) l) :
    (s.withExit c i core' l.kernel.uid slots ended).Sound cfg
      (log ++ exitEvents l.kernel.uid cta sid slot ended) := by
  have hended : ended = [] ∨ ended = [l.kernel.uid] := hleaves.ended.imp_right And.left
  obtain ⟨hlaunch, hissued, hcompleted, hdone, hreported⟩ :=
    exitEvents_log cta sid slot hended
  have hlaunches : launches (log ++ exitEvents l.kernel.uid cta sid slot ended) = launches log := by
    rw [launches_append, hlaunch, List.append_nil]
  have hcount : s.residentCtas = (l.kernel.uid, cta) ::ₘ
      (s.withExit c i core' l.kernel.uid slots ended).residentCtas :=
    residentCtas_remove hcore hremove
  have hstate : ∀ uid, ∃ n, (s.withExit c i core' l.kernel.uid slots ended).kernels uid =
      { s.kernels uid with numCoresRunning := n } := by
    intro uid
    by_cases heq : uid = l.kernel.uid
    · rw [heq]
      exact ⟨_, Function.update_self ..⟩
    · exact ⟨_, Function.update_of_ne heq ..⟩
  have hmore : ∀ k, (s.withExit c i core' l.kernel.uid slots ended).noMoreCtasToRun k =
      s.noMoreCtasToRun k := by
    intro k
    obtain ⟨n, hn⟩ := hstate k.uid
    unfold noMoreCtasToRun
    rw [hn]
    rfl
  constructor
  · have hshape := h.shape.setCore core' hcore
    exact ⟨hleaves.length.trans h.shape.running, hshape.last_lt, hshape.clusters, hshape.row,
      hshape.next⟩
  · rw [hlaunches]
    refine ⟨fun n k hk => h.slots.launched n k (hleaves.sub n k hk), fun m n k k' hk hk' =>
      h.slots.inj m n k k' (hleaves.sub m k hk) (hleaves.sub n k' hk'), fun uid huid => ?_,
      fun n k hk huid hmore' => ?_⟩
    · obtain ⟨n, hn⟩ := hstate uid
      obtain ⟨hl, hzero⟩ := h.slots.executed uid huid
      rw [hn]
      exact ⟨hl, hzero⟩
    · rw [hmore k] at hmore'
      exact h.slots.executed_last n k (hleaves.sub n k hk) huid hmore'
  · rw [hlaunches]
    intro l' hl'
    by_cases heq : l'.kernel.uid = l.kernel.uid
    · obtain rfl := h.launch_inj hl' hl heq
      exact hprogress
    · exact h.progress_exit hl' heq hcore hremove hleaves
  · rw [hlaunches]
    exact cores_setCore h.shape h.cores hcore hsound fun _ _ => rfl
  · rw [hlaunches]
    exact h.once
  · rw [issuedCtas_append, hissued, List.append_nil, hlaunches]
    exact h.issued_launched
  · rw [issuedCtas_append, hissued, List.append_nil, completedCtas_append, hcompleted, h.ledger,
      hcount, ← Multiset.coe_add, Multiset.coe_singleton, add_assoc, Multiset.singleton_add]
  · rw [issuedCtas_append, hissued, List.append_nil]
    exact h.counted
  · exact h.limited
  · rw [doneUids_append, hdone, hlaunches]
    intro uid huid
    rcases List.mem_append.mp huid with hold | hnew
    · exact h.done_launched uid hold
    · rcases hended with rfl | rfl
      · cases hnew
      · exact ⟨l, hl, (List.mem_singleton.mp hnew).symm⟩
  · rw [doneUids_append, hdone]
    rcases hleaves.ended with rfl | ⟨rfl, hnew⟩
    · rw [List.append_nil]
      exact h.done_once
    · exact h.done_once.append (List.nodup_singleton _) (List.disjoint_singleton.mpr hnew)
  · rw [doneUids_append, hdone, reportedUids_append, hreported, List.append_nil, h.reported,
      List.append_assoc]
    rfl

/-- The kernel of a CTA that leaves keeps its part of the invariant: it still has a CTA running
or left to issue, or it gives up its slot. -/
theorem Progress.exit (h : s.Progress cfg log l)
    (hcount : ctasOf l.kernel.uid s.residentCtas = ctasOf l.kernel.uid
      (s.withExit c i core' l.kernel.uid slots ended).residentCtas + 1)
    (hended : ended = [] ∨ ended = [l.kernel.uid])
    (hgoes : ended = [] → slots = s.runningKernels ∧
      (s.kernelMoreCtaLeft cfg (some l.kernel) = true ∨
        1 < (s.kernels l.kernel.uid).numCoresRunning))
    (hends : ended ≠ [] → s.kernelMoreCtaLeft cfg (some l.kernel) = false ∧
      ¬1 < (s.kernels l.kernel.uid).numCoresRunning ∧
      ∀ n : Nat, slots[n]? ≠ some (some l.kernel)) :
    (s.withExit c i core' l.kernel.uid slots ended).Progress cfg
      (log ++ exitEvents l.kernel.uid cta sid slot ended) l := by
  obtain ⟨-, hissued, -, hdone, -⟩ :=
    exitEvents_log cta sid slot hended
  have hkernel : (s.withExit c i core' l.kernel.uid slots ended).kernels l.kernel.uid =
      (s.kernels l.kernel.uid).decRunning := Function.update_self ..
  have hof : issuedOf l.kernel.uid (log ++ exitEvents l.kernel.uid cta sid slot ended) =
      issuedOf l.kernel.uid log := by
    rw [issuedOf_append, issuedOf, issuedOf, hissued]
    exact List.append_nil _
  have hpos : 0 < (s.kernels l.kernel.uid).numCoresRunning := by
    rw [h.running, hcount]
    exact Nat.succ_pos _
  have hrunning : ((s.withExit c i core' l.kernel.uid slots ended).kernels
      l.kernel.uid).numCoresRunning = (s.kernels l.kernel.uid).numCoresRunning - 1 := by
    rw [hkernel]
    rfl
  have hmore : (s.withExit c i core' l.kernel.uid slots ended).noMoreCtasToRun l.kernel =
      s.noMoreCtasToRun l.kernel := by
    unfold noMoreCtasToRun
    rw [hkernel]
    rfl
  have hleft : (s.withExit c i core' l.kernel.uid slots ended).kernelMoreCtaLeft cfg
      (some l.kernel) = s.kernelMoreCtaLeft cfg (some l.kernel) := by
    change (!s.hitMaxCtaCount cfg &&
      !(s.withExit c i core' l.kernel.uid slots ended).noMoreCtasToRun l.kernel) = _
    rw [hmore]
    rfl
  have hnot : l.kernel.uid ∉ doneUids log := fun hmem => by
    have hzero := (h.ended hmem).2.1
    omega
  constructor
  · rw [hkernel]
    exact h.gridDim
  · rw [hkernel]
    exact h.blockDim
  · rw [hkernel]
    exact h.nextTid
  · rw [hkernel]
    exact h.activeThreads
  · exact h.fits
  · rw [hkernel, hof]
    exact h.nextCta
  · rw [hof]
    exact h.issued_le
  · rw [hof]
    exact h.issued
  · rw [hrunning, h.running, hcount, Nat.add_sub_cancel]
  · intro hpos'
    rw [hrunning] at hpos'
    by_cases hend : ended = []
    · obtain ⟨n, hn⟩ := h.slot_of_running hpos
      exact ⟨n, (hgoes hend).1 ▸ hn⟩
    · have hlast := (hends hend).2.1
      omega
  · intro hleft'
    rw [hleft] at hleft'
    by_cases hend : ended = []
    · obtain ⟨n, hn⟩ := h.slot_of_left hleft'
      exact ⟨n, (hgoes hend).1 ▸ hn⟩
    · rw [(hends hend).1] at hleft'
      cases hleft'
  · intro hmem
    rw [doneUids_append, hdone, List.mem_append] at hmem
    have hend : ended ≠ [] := fun hnil => by
      rw [hnil] at hmem
      exact hmem.elim hnot fun hnew => by cases hnew
    obtain ⟨hnone, hlast, hfree⟩ := hends hend
    refine ⟨?_, ?_, hleft ▸ hnone⟩
    · rintro ⟨n, hn⟩
      exact hfree n hn
    · rw [hrunning]
      omega
  · intro hmore' _ hzero
    rw [hrunning] at hzero
    rw [doneUids_append, hdone, List.mem_append]
    rcases hended with hend | hend
    · rw [hmore] at hmore'
      rcases (hgoes hend).2 with hleft' | hlast
      · rw [(kernelMoreCtaLeft_some.mp hleft').2] at hmore'
        cases hmore'
      · omega
    · exact .inr (hend ▸ List.mem_singleton_self _)

end

/-- A kernel that has a slot is ended. -/
theorem setKernelDone_meets (hin : s.InSlot k) :
    Meets (s.setKernelDone k) fun s' => ∃ (n : Nat) (k' : Kernel),
      s.runningKernels[n]? = some (some k') ∧ k'.uid = k.uid ∧ s' = { s with
        finishedKernel := s.finishedKernel ++ [k.uid]
        runningKernels := s.runningKernels.set n none } := by
  obtain ⟨m, hm⟩ := hin
  cases hfind : s.runningKernels.findIdx? fun slot => slot.any (·.uid == k.uid) with
  | none =>
    have hno := List.findIdx?_eq_none_iff.mp hfind _ (List.mem_of_getElem? hm)
    simp at hno
  | some n =>
    obtain ⟨hlt, hn, _⟩ := List.findIdx?_eq_some_iff_getElem.mp hfind
    refine .fetch hfind (.pure ⟨n, ?_⟩)
    cases hslot : s.runningKernels[n] with
    | none =>
      rw [hslot] at hn
      cases hn
    | some k' =>
      rw [hslot, Option.any_some, beq_iff_eq] at hn
      exact ⟨k', by rw [List.getElem?_eq_getElem hlt, hslot], hn, rfl⟩

/-- Without a slot of its own a kernel leaves the others theirs. -/
theorem leaves_of_slot {n : Nat} {k' : Kernel}
    (hn : s.runningKernels[n]? = some (some k')) (hnot : k'.uid ∉ doneUids log) :
    s.Leaves log k'.uid (s.runningKernels.set n none) [k'.uid] where
  length := List.length_set
  sub := fun m k hk => by
    rw [List.getElem?_set] at hk
    split at hk
    · split at hk
      · cases hk
      · cases hk
    · exact hk
  keep := fun m k hk hne => by
    rw [List.getElem?_set, if_neg]
    · exact hk
    · rintro rfl
      rw [hn, Option.some.injEq, Option.some.injEq] at hk
      exact hne (hk ▸ rfl)
  ended := .inr ⟨rfl, hnot⟩

/-- A kernel has one slot. -/
theorem Slots.not_mem_set (h : s.Slots (launches log)) {n : Nat} {k' : Kernel}
    (hn : s.runningKernels[n]? = some (some k')) (heq : k'.uid = k.uid) (m : Nat) :
    (s.runningKernels.set n none)[m]? ≠ some (some k) := by
  intro hm
  rw [List.getElem?_set] at hm
  split at hm
  · split at hm
    · cases hm
    · cases hm
  · rename_i hne
    exact hne (h.inj n m k' k hn hm heq)

/-- A core lets go of the kernel that ends, of which it has no CTA left. -/
theorem release_sound {r : Residency} {ls : List KernelLaunch} {site : InitSite}
    {lookup : Nat → Option PtxCtaInfo} {tid : Nat}
    (h : (core.exited r tid).Sound cfg ls site lookup)
    (hnone : ∀ a ∈ (core.exited r tid).residentCtas, a.1 ≠ k.uid) :
    SimtCore.Sound cfg ls site lookup { core.exited r tid with
      residency := if r.kernel = some k then { r with kernel := none } else r } := by
  by_cases hk : r.kernel = some k
  · rw [if_pos hk]
    refine h.release hk fun slot cta hcta heq => ?_
    exact hnone _ (h.mem_residentCtas hcta) (by rw [heq])
  · rw [if_neg hk]
    exact h

theorem release_residentCtas (core : SimtCore) (r : Residency) (tid : Nat) (k : Kernel) :
    SimtCore.residentCtas { core.exited r tid with
      residency := if r.kernel = some k then { r with kernel := none } else r } =
      (core.exited r tid).residentCtas := by
  split
  · rfl
  · rfl

/-- The kernel of the last CTA that leaves ends when it has no CTA left. -/
theorem endKernel_meets (h : s.Sound cfg log) (hl : l ∈ launches log)
    (hcore : s.core? c i = some core) {r : Residency} {tid : Nat} {cta : Dim3}
    (hsound : (core.exited r tid).Sound cfg (launches log) (cfg.site c i) s.ctaLookup)
    (hremove : core.residentCtas = (l.kernel.uid, cta) ::ₘ (core.exited r tid).residentCtas)
    (hnone : s.kernelMoreCtaLeft cfg (some l.kernel) = false)
    (hlast : ¬1 < (s.kernels l.kernel.uid).numCoresRunning) {sid slot : Nat} :
    Meets (setKernelDone ((s.decRunning l.kernel.uid).setCore c i { core.exited r tid with
        residency := if r.kernel = some l.kernel then { r with kernel := none } else r })
      l.kernel) fun s' =>
        s'.Sound cfg (log ++ exitEvents l.kernel.uid cta sid slot [l.kernel.uid]) := by
  have hprogress := h.progress l hl
  have hresident := residentCtas_remove hcore hremove
  have hcount : ctasOf l.kernel.uid s.residentCtas =
      ctasOf l.kernel.uid (s.setCore c i (core.exited r tid)).residentCtas + 1 := by
    rw [hresident]
    exact ctasOf_cons_self rfl
  have hpos : 0 < (s.kernels l.kernel.uid).numCoresRunning := by
    rw [hprogress.running, hcount]
    exact Nat.succ_pos _
  have hin := hprogress.slot_of_running hpos
  refine Meets.mono (setKernelDone_meets ?_) ?_
  · exact hin
  rintro s' ⟨n, k', hn, huid, rfl⟩
  have hnot : l.kernel.uid ∉ doneUids log := fun hmem => (hprogress.ended hmem).1 hin
  -- the core has no CTA of the kernel left
  have hgone : ∀ a ∈ (core.exited r tid).residentCtas, a.1 ≠ l.kernel.uid := by
    intro a ha heq
    have hmem : a ∈ (s.setCore c i (core.exited r tid)).residentCtas :=
      mem_residentCtas.mpr ⟨c, i, core.exited r tid,
        (core?_setCore hcore c i).trans (if_pos ⟨rfl, rfl⟩), ha⟩
    have hone : 0 < ctasOf l.kernel.uid (s.setCore c i (core.exited r tid)).residentCtas :=
      Multiset.countP_pos_of_mem hmem heq
    have hrunning := hprogress.running
    omega
  have hremove' := hremove
  rw [← release_residentCtas core r tid l.kernel] at hremove'
  refine h.exit cta sid slot hl hcore (release_sound hsound hgone) hremove' ?_ ?_
  · rw [← huid]
    exact leaves_of_slot hn (huid ▸ hnot)
  · refine hprogress.exit ?_ (.inr rfl) (fun hnil => by cases hnil) fun _ =>
      ⟨hnone, hlast, fun m => h.slots.not_mem_set hn huid m⟩
    exact (congrArg (ctasOf l.kernel.uid) (residentCtas_remove hcore hremove')).trans
      (ctasOf_cons_self rfl)

/-- The last hardware thread of a CTA takes the CTA off its core, and may end its kernel. -/
theorem leaveCta_meets (h : s.Sound cfg log) (hcore : s.core? c i = some core) {r : Residency}
    {slot tid : Nat} {cta : Cta} (hx : core.Exits cfg r slot tid cta)
    (hdone : (core.thread tid).all (·.done) = true) (hlast : r.ctaStatus slot = 0) :
    MeetsUnless (GpuHalt.Excused cfg (launches log)) (do
      require .emptyTooEarly (r.nActiveCta = 0 → core.residency.kernel ≠ some cta.kernel →
        s.kernelMoreCtaLeft cfg core.residency.kernel = false)
      require .noneRunning (0 < (s.kernels cta.kernel.uid).numCoresRunning)
      let s' := s.decRunning cta.kernel.uid
      let completed := .ctaCompleted cta.kernel.uid (core.ctaidAt tid) (cfg.cidToSid i c) slot
      if s'.kernelMoreCtaLeft cfg (some cta.kernel) = true ∨
          1 < (s.kernels cta.kernel.uid).numCoresRunning then
        pure (s'.setCore c i (core.exited r tid), [completed])
      else do
        let residency := if r.kernel = some cta.kernel then { r with kernel := none } else r
        let s ← (s'.setCore c i { core.exited r tid with residency }).setKernelDone cta.kernel
        pure (s, [completed, .kernelDone cta.kernel.uid])) fun r => r.1.Sound cfg (log ++ r.2) := by
  have hold := h.cores c i core hcore
  have hsound := hold.exit hx hdone
  have hremove := (hold.residentCtas_exit hx).2 hlast
  obtain ⟨l, hl, n, hn, hk, _⟩ := (hold.running slot cta hx.resident).ctaidAt
  rw [← hk] at hremove
  have hprogress := h.progress l hl
  have hcount : ctasOf l.kernel.uid s.residentCtas =
      ctasOf l.kernel.uid (s.setCore c i (core.exited r tid)).residentCtas + 1 := by
    rw [residentCtas_remove hcore hremove]
    exact ctasOf_cons_self rfl
  have hpos : 0 < (s.kernels l.kernel.uid).numCoresRunning := by
    rw [hprogress.running, hcount]
    exact Nat.succ_pos _
  have hempty : r.nActiveCta = 0 → core.residency.kernel ≠ some l.kernel →
      s.kernelMoreCtaLeft cfg core.residency.kernel = false := by
    intro _ hne
    cases hconcurrent : cfg.core.gpgpuConcurrentKernelSm with
    | true => rw [hold.spread.unbound hconcurrent, kernelMoreCtaLeft]
    | false => exact absurd (hk ▸ hold.spread.single hconcurrent slot cta hx.resident) hne
  simp only [← hk, kernelMoreCtaLeft_decRunning]
  refine .require hempty (.require hpos (.ite (fun hgoes => .pure ?_) fun hends => ?_))
  · have heq : (s.decRunning l.kernel.uid).setCore c i (core.exited r tid) =
        s.withExit c i (core.exited r tid) l.kernel.uid s.runningKernels [] := by
      unfold withExit
      rw [List.append_nil]
      rfl
    have hkeep : s.Leaves log l.kernel.uid s.runningKernels [] :=
      ⟨rfl, fun _ _ hk => hk, fun _ _ hk _ => hk, .inl rfl⟩
    have hdone := h.exit (core.ctaidAt tid) (cfg.cidToSid i c) slot hl hcore
      hsound hremove hkeep (hprogress.exit hcount (.inl rfl) (fun _ => ⟨rfl, hgoes⟩)
        fun hne => absurd rfl hne)
    rw [← heq] at hdone
    exact hdone
  · rw [not_or, Bool.not_eq_true] at hends
    exact .bind (.of_meets (endKernel_meets h hl hcore hsound hremove hends.1 hends.2))
      fun s' hs' => .pure hs'

/-- The hardware threads of a warp that is done exit without a failed assertion of the
dispatcher. -/
theorem exitThread_meets (h : s.Sound cfg log) (hcore : s.core? c i = some core) {tid : Nat}
    (htid : tid < cfg.core.nThreadPerShader) (hdone : (core.thread tid).all (·.done) = true) :
    MeetsUnless (GpuHalt.Excused cfg (launches log)) (s.exitThread cfg c i tid) fun r =>
      r.1.Sound cfg (log ++ r.2) := by
  have hold := h.cores c i core hcore
  refine .fetch hcore (.require htid (.ite (fun _ => .pure ?_) fun hactive => ?_))
  · rw [List.append_nil]
    exact h
  rw [Bool.not_eq_false] at hactive
  obtain ⟨slot, cta, hcta, hhas⟩ := hold.owner tid hactive
  have hslot : (core.threadState tid).ctaId = some slot := by
    obtain ⟨t, ht, rfl⟩ := SimtCore.exists_of_has hhas
    exact (hold.running slot cta hcta).ctaId t ht
  refine .fetch hslot (.fetch hcta ?_)
  refine .liftCore (hold.spread.exit_meets hcta).self (fun e he => .inr he) fun r hr => ?_
  have hx : core.Exits cfg r slot tid cta := ⟨hcta, hhas, hactive, hr.1⟩
  refine .ite (fun hmore => .pure ?_) fun hlast => leaveCta_meets h hcore hx hdone
    (not_not.mp hlast)
  rw [List.append_nil]
  exact h.setCore hcore (hold.exit hx hdone) (fun _ _ => rfl)
    ((hold.residentCtas_exit hx).1 hmore)

/-- A thread of a CTA ends. -/
theorem setDone_meets (h : s.Sound cfg log) (hcore : s.core? c i = some core) {tid : Nat}
    {thd : PtxThreadInfo} (hthd : core.thread tid = some thd) (hrun : thd.done = false) :
    Meets (s.setDone c i tid) fun s' => s'.Sound cfg log := by
  have hold := h.cores c i core hcore
  obtain ⟨slot, cta, hcta, hhas⟩ := hold.running_of_not_done hthd hrun
  have hrunning := hold.running slot cta hcta
  have hidx := hrunning.smIdx_eq hhas hthd
  have hsound := hold.finish (h.shape.sid_lt hcore) hcta hhas hthd hrun
  have hset := h.setCore hcore hsound (fun idx hne => Function.update_of_ne (hne slot) ..)
    (SimtCore.residentCtas_finished hthd)
  refine .fetch hcore (.fetch hthd (.require hrun (.fetch (hidx ▸ hrunning.info) (.pure ?_))))
  rw [← hidx] at hset
  exact hset

end GpgpuSim

end WaspSim
