import WaspSim.Dispatch.Exit

/-!
# The launch of kernels

A launched kernel takes a slot that is empty or holds a kernel with all CTAs behind it.
-/

namespace WaspSim

namespace GpgpuSim

variable {cfg : GpuConfig} {s s' : GpgpuSim} {log : List DispatchEvent} {l l' : KernelLaunch}
  {k : Kernel} {n : Nat}

/-- The state after a launch into slot `n`. -/
def withLaunch (s : GpgpuSim) (n : Nat) (l : KernelLaunch) : GpgpuSim :=
  { s with
    runningKernels := s.runningKernels.set n (some l.kernel)
    kernels := Function.update s.kernels l.kernel.uid l.initial }

/-- The slots after a launch. -/
theorem withLaunch_slot {m : Nat} (hk : (s.withLaunch n l).runningKernels[m]? = some (some k)) :
    k = l.kernel ∧ m = n ∨ s.runningKernels[m]? = some (some k) := by
  change (s.runningKernels.set n (some l.kernel))[m]? = _ at hk
  rw [List.getElem?_set] at hk
  split at hk
  · rename_i heq
    split at hk
    · rw [Option.some.injEq, Option.some.injEq] at hk
      exact .inl ⟨hk.symm, heq.symm⟩
    · cases hk
  · exact .inr hk

/-- Another kernel keeps its part of the invariant, although it may lose its slot. -/
theorem Progress.launch (h : s.Progress cfg log l') (hne : l'.kernel.uid ≠ l.kernel.uid)
    (hfree : ∀ k, s.runningKernels[n]? = some (some k) → (s.kernels k.uid).done = true) :
    (s.withLaunch n l).Progress cfg (log ++ [.launched l]) l' := by
  refine h.frame ⟨⟨_, Function.update_of_ne hne ..⟩, ?_, ?_, rfl, ?_, ?_, id⟩
  · rw [issuedOf_append]
    exact List.append_nil _
  · rw [doneUids_append]
    exact Iff.of_eq (congrArg _ (List.append_nil _))
  · rintro ⟨m, hm⟩
    rcases withLaunch_slot hm with ⟨heq, _⟩ | hold
    · exact absurd (congrArg Kernel.uid heq) hne
    · exact ⟨m, hold⟩
  · rintro ⟨m, hm⟩ hbusy
    refine ⟨m, ?_⟩
    change (s.runningKernels.set n (some l.kernel))[m]? = _
    rw [List.getElem?_set, if_neg]
    · exact hm
    · -- the kernel in the slot that is taken has no CTA running or left
      rintro rfl
      have hdone := hfree l'.kernel hm
      simp only [KernelState.done, Bool.and_eq_true, beq_iff_eq] at hdone
      rcases hbusy with hpos | hleft
      · omega
      · have hmore := (kernelMoreCtaLeft_some.mp hleft).2
        rw [noMoreCtasToRun, hdone.1] at hmore
        cases hmore

/-- A new kernel starts with its first CTA. -/
theorem Sound.progress_launched (h : s.Sound cfg log)
    (hfresh : ∀ l' ∈ launches log, l'.kernel.uid ≠ l.kernel.uid)
    (hfits : l.kernel.threadsPerCta ≤ cfg.core.nThreadPerShader)
    (hn : n < s.runningKernels.length) :
    (s.withLaunch n l).Progress cfg (log ++ [.launched l]) l := by
  have hkernel : (s.withLaunch n l).kernels l.kernel.uid = l.initial := Function.update_self ..
  have hnone : ∀ a ∈ issuedCtas log, a.1 ≠ l.kernel.uid := by
    intro a ha heq
    obtain ⟨l', hl', huid⟩ := h.issued_launched a ha
    exact hfresh l' hl' (huid.trans heq)
  have hissued : issuedOf l.kernel.uid (log ++ [.launched l]) = [] := by
    rw [issuedOf_append, issuedOf, List.filter_eq_nil_iff.mpr]
    · rfl
    · intro a ha heq
      exact hnone a ha (beq_iff_eq.mp heq)
  have hcount : ctasOf l.kernel.uid (s.withLaunch n l).residentCtas = 0 := by
    refine Multiset.countP_eq_zero.mpr fun a ha heq => ?_
    obtain ⟨l', hl', huid⟩ := h.launched_of_resident ha
    exact hfresh l' hl' (huid.trans heq)
  have hslot : (s.withLaunch n l).InSlot l.kernel := ⟨n, by
    change (s.runningKernels.set n (some l.kernel))[n]? = _
    rw [List.getElem?_set_self hn]⟩
  constructor
  · rw [hkernel]
    rfl
  · rw [hkernel]
    rfl
  · rw [hkernel]
    rfl
  · rw [hkernel]
    rfl
  · exact hfits
  · rw [hkernel, hissued, List.length_nil, Dim3.nth_zero]
    rfl
  · rw [hissued]
    exact Nat.zero_le _
  · rw [hissued]
    rfl
  · rw [hkernel, hcount]
    rfl
  · exact fun _ => hslot
  · exact fun _ => hslot
  · intro hmem
    rw [doneUids_append] at hmem
    obtain ⟨l', hl', huid⟩ := h.done_launched _ ((List.append_nil (doneUids log)) ▸ hmem)
    exact absurd huid (hfresh l' hl')
  · intro _ hne
    exact absurd hissued hne

/-- A launch keeps the invariant. -/
theorem Sound.launch (h : s.Sound cfg log)
    (hfresh : ∀ l' ∈ launches log, l'.kernel.uid ≠ l.kernel.uid)
    (hfits : l.kernel.threadsPerCta ≤ cfg.core.nThreadPerShader)
    (hn : n < s.runningKernels.length)
    (hfree : ∀ k, s.runningKernels[n]? = some (some k) → (s.kernels k.uid).done = true) :
    (s.withLaunch n l).Sound cfg (log ++ [.launched l]) := by
  have hlaunches : launches (log ++ [.launched l]) = launches log ++ [l] := launches_append ..
  have hissued : issuedCtas (log ++ [.launched l]) = issuedCtas log := by
    rw [issuedCtas_append]
    exact List.append_nil _
  have hdone : doneUids (log ++ [.launched l]) = doneUids log := by
    rw [doneUids_append]
    exact List.append_nil _
  have hmem : ∀ l' ∈ launches log, l' ∈ launches (log ++ [.launched l]) := by
    intro l' hl'
    rw [hlaunches]
    exact List.mem_append_left _ hl'
  have hstate : ∀ uid, uid ≠ l.kernel.uid → (s.withLaunch n l).kernels uid = s.kernels uid :=
    fun uid hne => Function.update_of_ne hne ..
  -- the kernels in the other slots have other numbers
  have hother : ∀ (m : Nat) k, s.runningKernels[m]? = some (some k) → k.uid ≠ l.kernel.uid := by
    intro m k hk
    obtain ⟨l', hl', rfl⟩ := h.slots.launched m k hk
    exact hfresh l' hl'
  constructor
  · exact ⟨(List.length_set).trans h.shape.running, h.shape.last_lt, h.shape.clusters, h.shape.row,
      h.shape.next⟩
  · refine ⟨fun m k hk => ?_, fun m m' k k' hk hk' heq => ?_, fun uid huid => ?_,
      fun m k hk huid hmore => ?_⟩
    · rcases withLaunch_slot hk with ⟨rfl, _⟩ | hold
      · exact ⟨l, by rw [hlaunches]; exact List.mem_append_right _ (List.mem_singleton_self l), rfl⟩
      · obtain ⟨l', hl', heq⟩ := h.slots.launched m k hold
        exact ⟨l', hmem l' hl', heq⟩
    · rcases withLaunch_slot hk with ⟨rfl, hm⟩ | hold
      · rcases withLaunch_slot hk' with ⟨rfl, hm'⟩ | hold'
        · rw [hm, hm']
        · exact absurd heq.symm (hother m' k' hold')
      · rcases withLaunch_slot hk' with ⟨rfl, hm'⟩ | hold'
        · exact absurd heq (hother m k hold)
        · exact h.slots.inj m m' k k' hold hold' heq
    · obtain ⟨⟨l', hl', heq⟩, hzero⟩ := h.slots.executed uid huid
      refine ⟨⟨l', hmem l' hl', heq⟩, ?_⟩
      rw [hstate uid (heq ▸ hfresh l' hl')]
      exact hzero
    · rcases withLaunch_slot hk with ⟨rfl, _⟩ | hold
      · obtain ⟨l', hl', heq⟩ := (h.slots.executed _ huid).1
        exact absurd heq (hfresh l' hl')
      · rw [noMoreCtasToRun, hstate _ (hother m k hold)] at hmore
        exact h.slots.executed_last m k hold huid hmore
  · intro l' hl'
    rw [hlaunches] at hl'
    rcases List.mem_append.mp hl' with hold | hnew
    · exact (h.progress l' hold).launch (hfresh l' hold) hfree
    · obtain rfl := List.mem_singleton.mp hnew
      exact h.progress_launched hfresh hfits hn
  · exact fun c i core hcore => (h.cores c i core hcore).mono hmem
  · rw [hlaunches, List.map_append]
    refine h.once.append (List.nodup_singleton _) (List.disjoint_singleton.mpr fun hin => ?_)
    obtain ⟨l', hl', heq⟩ := List.mem_map.mp hin
    exact hfresh l' hl' heq
  · rw [hissued]
    intro a ha
    obtain ⟨l', hl', heq⟩ := h.issued_launched a ha
    exact ⟨l', hmem l' hl', heq⟩
  · rw [hissued, completedCtas_append]
    exact h.ledger.trans (congrArg (· + s.residentCtas)
      (congrArg Multiset.ofList (List.append_nil _).symm))
  · rw [hissued]
    exact h.counted
  · exact h.limited
  · rw [hdone]
    intro uid huid
    obtain ⟨l', hl', heq⟩ := h.done_launched uid huid
    exact ⟨l', hmem l' hl', heq⟩
  · rw [hdone]
    exact h.done_once
  · rw [hdone, h.reported, reportedUids_append]
    exact congrArg (· ++ s.finishedKernel) (List.append_nil _).symm

/-- A launch that is permitted finds a slot. -/
theorem launch_meets (h : s.Sound cfg log) (hp : Permitted cfg (s, log) (.launch l)) :
    Meets (s.launch cfg l) fun s' => s'.Sound cfg (log ++ [.launched l]) := by
  obtain ⟨hcan, hfresh, hfits⟩ := hp
  refine .require hfits ?_
  cases hfind : s.runningKernels.findIdx? s.freeSlot with
  | none =>
    obtain ⟨slot, hslot, hfree⟩ := List.any_eq_true.mp hcan
    rw [List.findIdx?_eq_none_iff.mp hfind slot hslot] at hfree
    cases hfree
  | some n =>
    obtain ⟨hlt, hn, _⟩ := List.findIdx?_eq_some_iff_getElem.mp hfind
    refine .fetch rfl (.pure (h.launch hfresh hfits hlt fun k hk => ?_))
    rw [List.getElem?_eq_getElem hlt, Option.some.injEq] at hk
    rw [hk] at hn
    exact hn

end GpgpuSim

end WaspSim
