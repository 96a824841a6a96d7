import WaspSim.Dispatch.Invariant

/-!
# Which kernel a CTA is asked of

A kernel that is selected for new has never been selected before, since of the kernels
selected before only the one in the last slot can have CTAs left.
-/

namespace WaspSim

namespace GpgpuSim

variable {cfg : GpuConfig} {s s' : GpgpuSim} {core core' : SimtCore} {c i : Nat}
  {log log' : List DispatchEvent} {l : KernelLaunch} {k : Kernel} {uid : Nat}

/-- A kernel that a slot holds and that may be selected. -/
def Ready (cfg : GpuConfig) (s : GpgpuSim) (idx : Nat) (k : Kernel) : Prop :=
  s.runningKernels[idx]? = some (some k) ∧ s.kernelMoreCtaLeft cfg (some k) = true ∧
    (s.kernels k.uid).tbLatency = 0

theorem findKernel_meets (h : s.Shape cfg) (ns : List Nat) :
    Meets (s.findKernel cfg ns) fun r => ∀ idx k, r = some (idx, k) →
      idx < cfg.maxConcurrentKernel ∧ s.Ready cfg idx k := by
  induction ns with
  | nil => exact .pure fun idx k hr => by cases hr
  | cons n ns ih =>
    have hlt : (n + s.lastIssuedKernel + 1) % cfg.maxConcurrentKernel <
        cfg.maxConcurrentKernel := Nat.mod_lt _ cfg.maxConcurrentKernel_pos
    obtain ⟨slot, hslot⟩ := h.exists_slot hlt
    rw [findKernel]
    refine .fetch hslot ?_
    cases slot with
    | none => exact ih
    | some k =>
      refine .ite (fun hready => .pure fun idx k' hr => ?_) fun _ => ih
      obtain ⟨rfl, rfl⟩ := Prod.mk.inj (Option.some.inj hr)
      exact ⟨hlt, hslot, hready⟩

/-- The selection changes which kernels count as executed, and the last slot. -/
def select (s : GpgpuSim) (last : Nat) (executed : List Nat) : GpgpuSim :=
  { s with
    lastIssuedKernel := last
    executedKernelUids := executed }

/-- What the selection leaves alone keeps the invariant. -/
theorem Sound.select (h : s.Sound cfg log) {last : Nat} {executed : List Nat}
    (hlast : last < cfg.maxConcurrentKernel)
    (hslots : (s.select last executed).Slots (launches log)) :
    (s.select last executed).Sound cfg log where
  shape := ⟨h.shape.running, hlast, h.shape.clusters, h.shape.row, h.shape.next⟩
  slots := hslots
  progress := fun l hl => (h.progress l hl).frame
    ⟨⟨_, rfl⟩, rfl, Iff.rfl, rfl, id, fun hslot _ => hslot, id⟩
  cores := h.cores
  once := h.once
  issued_launched := h.issued_launched
  ledger := h.ledger
  counted := h.counted
  limited := h.limited
  done_launched := h.done_launched
  done_once := h.done_once
  reported := h.reported

/-- The last kernel stays selected. -/
theorem Slots.select_last {ls : List KernelLaunch} (h : s.Slots ls)
    (hk : s.runningKernels[s.lastIssuedKernel]? = some (some k))
    (hlatency : (s.kernels k.uid).tbLatency = 0) :
    (s.select s.lastIssuedKernel (s.executedKernelUids ++ [k.uid])).Slots ls where
  launched := h.launched
  inj := h.inj
  executed := fun uid huid => by
    rcases List.mem_append.mp huid with hold | hnew
    · exact h.executed uid hold
    · obtain rfl := List.mem_singleton.mp hnew
      obtain ⟨l, hl, heq⟩ := h.launched _ k hk
      exact ⟨⟨l, hl, by rw [heq]⟩, hlatency⟩
  executed_last := fun n k' hk' huid hmore => by
    rcases List.mem_append.mp huid with hold | hnew
    · exact h.executed_last n k' hk' hold hmore
    · exact h.inj n s.lastIssuedKernel k' k hk' hk (List.mem_singleton.mp hnew)

/-- Where the last kernel may not be selected, no kernel selected before has CTAs left. -/
theorem Slots.not_executed {ls : List KernelLaunch} (h : s.Slots ls)
    (hlast : ∀ k, s.runningKernels[s.lastIssuedKernel]? = some (some k) →
      s.noMoreCtasToRun k = false → (s.kernels k.uid).tbLatency ≠ 0) {n : Nat}
    (hk : s.runningKernels[n]? = some (some k)) (hmore : s.noMoreCtasToRun k = false) :
    k.uid ∉ s.executedKernelUids := by
  intro hexecuted
  obtain rfl := h.executed_last n k hk hexecuted hmore
  exact hlast k hk hmore (h.executed k.uid hexecuted).2

/-- Another kernel is selected. -/
theorem Slots.select_next {ls : List KernelLaunch} (h : s.Slots ls)
    (hlast : ∀ k, s.runningKernels[s.lastIssuedKernel]? = some (some k) →
      s.noMoreCtasToRun k = false → (s.kernels k.uid).tbLatency ≠ 0) {idx : Nat}
    (hk : s.runningKernels[idx]? = some (some k)) (hlatency : (s.kernels k.uid).tbLatency = 0) :
    (s.select idx (s.executedKernelUids ++ [k.uid])).Slots ls where
  launched := h.launched
  inj := h.inj
  executed := fun uid huid => by
    rcases List.mem_append.mp huid with hold | hnew
    · exact h.executed uid hold
    · obtain rfl := List.mem_singleton.mp hnew
      obtain ⟨l, hl, heq⟩ := h.launched _ k hk
      exact ⟨⟨l, hl, by rw [heq]⟩, hlatency⟩
  executed_last := fun n k' hk' huid hmore => by
    rcases List.mem_append.mp huid with hold | hnew
    · exact absurd hold (h.not_executed hlast hk' hmore)
    · exact h.inj n idx k' k hk' hk (List.mem_singleton.mp hnew)

/-- A selection meets its assertion and yields a kernel that has a slot. -/
theorem selectKernel_meets (h : s.Sound cfg log) :
    Meets (s.selectKernel cfg) fun r =>
      (∃ last executed, r.1 = s.select last executed) ∧ r.1.Sound cfg log ∧
        ∀ k, r.2 = some k → s.InSlot k := by
  obtain ⟨slot, hslot⟩ := h.shape.exists_slot h.shape.last_lt
  unfold selectKernel
  refine .fetch hslot ?_
  cases hfilter : slot.filter fun k =>
      !s.noMoreCtasToRun k && (s.kernels k.uid).tbLatency == 0 with
  | some k =>
    obtain ⟨rfl, hready⟩ := Option.filter_eq_some_iff.mp hfilter
    simp only [Bool.and_eq_true, Bool.not_eq_true', beq_iff_eq] at hready
    have hin : ∀ k', some k = some k' → s.InSlot k' := by
      rintro _ ⟨⟩
      exact ⟨_, hslot⟩
    refine .ite (fun _ => .pure ⟨⟨_, _, rfl⟩, h, hin⟩) fun _ => .pure ⟨⟨_, _, rfl⟩, ?_, hin⟩
    exact h.select h.shape.last_lt (h.slots.select_last hslot hready.2)
  | none =>
    have hlast : ∀ k, s.runningKernels[s.lastIssuedKernel]? = some (some k) →
        s.noMoreCtasToRun k = false → (s.kernels k.uid).tbLatency ≠ 0 := by
      intro k hk hmore hlatency
      rw [hslot, Option.some.injEq] at hk
      rw [hk, Option.filter_some, hmore, hlatency] at hfilter
      cases hfilter
    refine .bind (findKernel_meets h.shape _) fun found hfound => ?_
    cases found with
    | none => exact .pure ⟨⟨_, _, rfl⟩, h, fun k hk => by cases hk⟩
    | some found =>
      obtain ⟨idx, k⟩ := found
      obtain ⟨hlt, hk, hmore, hlatency⟩ := hfound idx k rfl
      refine .require ?_ (.pure ⟨⟨_, _, rfl⟩, ?_, ?_⟩)
      · exact h.slots.not_executed hlast hk (kernelMoreCtaLeft_some.mp hmore).2
      · exact h.select hlt (h.slots.select_next hlast hk hlatency)
      · rintro _ ⟨⟩
        exact ⟨idx, hk⟩

/-- A core with the same CTAs keeps the invariant. -/
theorem Sound.setCore (h : s.Sound cfg log) (hcore : s.core? c i = some core)
    {lookup : Nat → Option PtxCtaInfo}
    (hsound : core'.Sound cfg (launches log) (cfg.site c i) lookup)
    (hlookup : ∀ idx, (∀ slot, idx ≠ (cfg.site c i).smIdx slot) → lookup idx = s.ctaLookup idx)
    (hcount : core'.residentCtas = core.residentCtas) :
    Sound cfg { s.setCore c i core' with ctaLookup := lookup } log := by
  have hresident : (s.setCore c i core').residentCtas = s.residentCtas := by
    have hmoved := residentCtas_setCore core' hcore
    rw [hcount] at hmoved
    exact add_right_cancel hmoved
  have hshape := h.shape.setCore core' hcore
  exact {
    shape := ⟨hshape.running, hshape.last_lt, hshape.clusters, hshape.row, hshape.next⟩
    slots := ⟨h.slots.launched, h.slots.inj, h.slots.executed, h.slots.executed_last⟩
    progress := fun l hl => (h.progress l hl).frame
      ⟨⟨_, rfl⟩, rfl, Iff.rfl, congrArg _ hresident, id, fun hslot _ => hslot, id⟩
    cores := cores_setCore h.shape h.cores hcore hsound hlookup
    once := h.once
    issued_launched := h.issued_launched
    ledger := h.ledger.trans (congrArg _ hresident.symm)
    counted := h.counted
    limited := h.limited
    done_launched := h.done_launched
    done_once := h.done_once
    reported := h.reported }

/-- What a core may get a CTA of. -/
structure Picked (cfg : GpuConfig) (s : GpgpuSim) (log : List DispatchEvent) (c i : Nat)
    (l : KernelLaunch) (core : SimtCore) : Prop where
  launched : l ∈ launches log
  found : s.core? c i = some core
  bound : cfg.core.gpgpuConcurrentKernelSm = true ∨ core.residency.kernel = some l.kernel

/-- The kernel that a core is asked to take a CTA of is launched, and with single kernels the
core is bound to it. -/
theorem pickKernel_meets (h : s.Sound cfg log) (hcore : s.core? c i = some core) :
    Meets (s.pickKernel cfg c i) fun r => s.Grows cfg r.1 ∧ r.1.Sound cfg log ∧
      ∀ k, r.2 = some k → ∃ l core', l.kernel = k ∧ r.1.Picked cfg log c i l core' := by
  refine .ite (fun hconcurrent => ?_) fun hsingle => .fetch hcore ?_
  · refine (selectKernel_meets h).mono ?_
    rintro ⟨_, o⟩ ⟨⟨last, executed, rfl⟩, hsound, hin⟩
    refine ⟨.of_eq rfl, hsound, fun k hk => ?_⟩
    obtain ⟨l, hl, heq⟩ := h.slots.launch_of_inSlot (hin k hk)
    exact ⟨l, core, heq, hl, hcore, .inl hconcurrent⟩
  · refine .ite (fun _ => .pure ⟨.of_eq rfl, h, fun k hk => ?_⟩) fun hidle => ?_
    · obtain ⟨l, hl, heq⟩ := (h.cores c i core hcore).bound k hk
      exact ⟨l, core, heq, hl, hcore, .inr (heq ▸ hk)⟩
    · refine .bind (selectKernel_meets h) fun r hr => ?_
      obtain ⟨s', o⟩ := r
      obtain ⟨⟨last, executed, hs'⟩, hsound, hin⟩ := hr
      have hcores : s'.cores = s.cores := by
        change s' = _ at hs'
        rw [hs']
        rfl
      have hcore' : s'.core? c i = some core := by
        rw [core?, hcores]
        exact hcore
      cases o with
      | none => exact .pure ⟨.of_eq hcores, hsound, fun k hk => by cases hk⟩
      | some k =>
        obtain ⟨l, hl, rfl⟩ := h.slots.launch_of_inSlot (hin k rfl)
        have hzero : core.notCompleted = 0 := not_not.mp fun hne => hidle (.inr hne)
        have hbind := (h.cores c i core hcore).bind hzero (Bool.eq_false_iff.mpr hsingle) hl
        have hlookup : s'.ctaLookup = s.ctaLookup := by
          change s' = _ at hs'
          rw [hs']
          rfl
        refine .pure ⟨(Grows.of_eq hcores).trans (.setCore hcore' (.of_eq rfl rfl)),
          hsound.setCore hcore' (hlookup ▸ hbind) (fun _ _ => rfl) rfl, ?_⟩
        rintro _ ⟨⟩
        exact ⟨l, _, rfl, hl, (core?_setCore hcore' c i).trans (if_pos ⟨rfl, rfl⟩), .inr rfl⟩

end GpgpuSim

end WaspSim
