import WaspSim.Correctness.AccessStep
import WaspSim.Correctness.Log

/-!
# Where accesses come from

Every access in flight belongs to one logged load, loads have distinct numbers,
and each load accounts for its accesses: those answered and those in flight
together are the ones it made. None of this depends on the queues.
-/

namespace WaspSim

namespace Log

variable {uid u : Nat} {done : Bool} {log es : List Event}

@[simp] theorem loads_nil : loads [] = [] := rfl

@[simp] theorem answers_nil : answers uid [] = 0 := rfl

@[simp] theorem completions_nil : completions uid [] = 0 := rfl

@[simp] theorem loads_answerEvents : loads (Shader.answerEvents uid done) = [] := by
  cases done <;> rfl

theorem answers_answerEvents :
    answers u (Shader.answerEvents uid done) = if uid = u then 1 else 0 := by
  cases done <;> by_cases h : uid = u <;> simp [answers, Shader.answerEvents, answersLoad, h]

theorem completions_answerEvents :
    completions u (Shader.answerEvents uid done) = if uid = u ∧ done = true then 1 else 0 := by
  cases done <;> by_cases h : uid = u <;>
    simp [completions, Shader.answerEvents, completesLoad, h]

/-- The log answers or completes no load it does not record. -/
def Closed (log : List Event) : Prop :=
  ∀ u, 0 < answers u log ∨ 0 < completions u log → ∃ r ∈ loads log, r.inst.uid = u

/-- A log stays closed when the new events answer and complete recorded loads. -/
theorem Closed.append (h : Closed log)
    (hes : ∀ u, 0 < answers u es ∨ 0 < completions u es → ∃ r ∈ loads log, r.inst.uid = u) :
    Closed (log ++ es) := by
  intro u hu
  rw [answers_append, completions_append] at hu
  have hcases : (0 < answers u log ∨ 0 < completions u log) ∨
      (0 < answers u es ∨ 0 < completions u es) := by omega
  obtain ⟨r, hr, huid⟩ := hcases.elim (h u) (hes u)
  rw [loads_append]
  exact ⟨r, List.mem_append_left _ hr, huid⟩

end Log

open Log

namespace Shader

variable {Mem : Type} {cfg : Config} {s s' : Shader Mem} {log es : List Event}
  {read : Mem → BitVec 64 → Nat → BitVec 64}

/-- What a log tells about the loads and accesses of a core. -/
structure Provenance (cfg : Config) (s : Shader Mem) (log : List Event) : Prop where
  fresh : ∀ r ∈ loads log, r.inst.uid < s.nextUid
  nodup : ((loads log).map fun r => r.inst.uid).Nodup
  loaded : ∀ r ∈ loads log, r.inst.load = true ∧ cfg.enabled r.inst.kind = true ∧
    (r.inst.activeMask = 0 → r.inst.accessqCount = 0)
  dispatch : ∀ i ∈ s.ldst.dispatch, ∃ r ∈ loads log, i.access = r.inst.access ∧
    i.accessqCount ≤ r.inst.accessqCount ∧ (0 < r.inst.accessqCount → 0 < i.accessqCount)
  inflight : ∀ a ∈ s.ldst.inflight, ∃ r ∈ loads log, a = r.inst.access
  balance : ∀ r ∈ loads log,
    answers r.inst.uid log + s.ldst.inflight.count r.inst.access = r.inst.accessqCount
  closed : Closed log

namespace Provenance

/-- Loads with one number are one load. -/
theorem eq_of_uid_eq (h : Provenance cfg s log) {r r' : LoadRecord} (hr : r ∈ loads log)
    (hr' : r' ∈ loads log) (huid : r.inst.uid = r'.inst.uid) : r = r' :=
  List.inj_on_of_nodup_map h.nodup hr hr' huid

/-- A load whose lanes are all off has no accesses in its queue. -/
theorem off (h : Provenance cfg s log) {i : WarpInst} (hi : i ∈ s.ldst.dispatch)
    (hmask : i.activeMask = 0) : i.accessqCount = 0 := by
  obtain ⟨r, hr, haccess, hle, _⟩ := h.dispatch i hi
  have hrmask : r.inst.activeMask = 0 :=
    (congrArg WarpInst.activeMask haccess).symm.trans hmask
  have hzero := (h.loaded r hr).2.2 hrmask
  omega

/-- A number not given out yet was neither answered nor completed. -/
theorem unanswered (h : Provenance cfg s log) {u : Nat} (hu : s.nextUid ≤ u) :
    answers u log = 0 ∧ completions u log = 0 := by
  by_contra hne
  obtain ⟨r, hr, hru⟩ := h.closed u (by omega)
  have hlt := h.fresh r hr
  omega

/-- A load with an access in flight has not had all its answers. -/
theorem answers_lt (h : Provenance cfg s log) {r : LoadRecord} (hr : r ∈ loads log)
    (hin : r.inst.access ∈ s.ldst.inflight) : answers r.inst.uid log < r.inst.accessqCount := by
  have hpos := Multiset.count_pos.mpr hin
  have hbalance := h.balance r hr
  omega

/-- Loads on one queue with one number hold one ticket. -/
theorem ticket_unique (h : Provenance cfg s log) {kind : QueueKind} {key : QueueKey} {t u : Nat}
    {r r' : LoadRecord} (hr : (loadsOf kind key log)[t]? = some r)
    (hr' : (loadsOf kind key log)[u]? = some r') (huid : r.inst.uid = r'.inst.uid) : t = u := by
  have hnodup : ((loadsOf kind key log).map fun r => r.inst.uid).Nodup :=
    h.nodup.sublist (loadsOf_sublist.map _)
  have hlt : t < ((loadsOf kind key log).map fun r => r.inst.uid).length := by
    rw [List.length_map]
    exact (List.getElem?_eq_some_iff.mp hr).1
  apply (List.getElem?_inj hlt hnodup).mp
  rw [List.getElem?_map, List.getElem?_map, hr, hr', Option.map_some, Option.map_some, huid]

/-- Nothing is on its way at first. -/
theorem initial (cfg : Config) (mem : Mem) : Provenance cfg (initial mem) [] where
  fresh := by simp
  nodup := by simp
  loaded := by simp
  dispatch i hi := absurd hi List.not_mem_nil
  inflight a ha := by simp [Shader.initial, LdstUnit.inflight, queuedAccesses] at ha
  balance := by simp
  closed u hu := by simp at hu

/-- A step that keeps the accesses in flight and logs neither loads nor answers. -/
private theorem keep (h : Provenance cfg s log)
    (hinflight : s'.ldst.inflight = s.ldst.inflight)
    (hdispatch : Shrinks s.ldst.dispatch s'.ldst.dispatch) (huid : s.nextUid ≤ s'.nextUid)
    (hloads : loads es = []) (hanswers : ∀ u, answers u es = 0)
    (hcompletions : ∀ u, 0 < completions u es → ∃ r ∈ loads log, r.inst.uid = u) :
    Provenance cfg s' (log ++ es) := by
  have hlog : loads (log ++ es) = loads log := by rw [loads_append, hloads, List.append_nil]
  refine ⟨fun r hr => ?_, by rw [hlog]; exact h.nodup, by rw [hlog]; exact h.loaded,
    fun j hj => ?_, by rw [hlog, hinflight]; exact h.inflight, fun r hr => ?_, ?_⟩
  · rw [hlog] at hr
    exact (h.fresh r hr).trans_le huid
  · obtain ⟨i, hi, haccess, hle, hpos⟩ := hdispatch j hj
    obtain ⟨r, hr, hir, hler, hposr⟩ := h.dispatch i hi
    exact ⟨r, hlog.symm ▸ hr, haccess.trans hir, hle.trans hler, fun hn => hpos (hposr hn)⟩
  · rw [hlog] at hr
    rw [answers_append, hanswers, Nat.add_zero, hinflight]
    exact h.balance r hr
  · refine h.closed.append fun u hu => hcompletions u ?_
    rw [hanswers] at hu
    omega

/-- Issuing a load adds its accesses and its record. -/
private theorem load (h : Provenance cfg s log) {wi : WarpInst} {executed : Nat → Bool}
    {value : Nat → Nat → BitVec 64} (hload : wi.load = true) (henabled : cfg.enabled wi.kind = true)
    (hoff : wi.activeMask = 0 → wi.accessqCount = 0) (huid : wi.uid = s.nextUid)
    (hnext : s'.nextUid = s.nextUid + 1)
    (hldst : s'.ldst = { s.ldst with dispatch := s.ldst.dispatch ++ [wi] }) :
    Provenance cfg s' (log ++ [.loaded wi executed value]) := by
  have hlog : loads (log ++ [.loaded wi executed value]) =
      loads log ++ [⟨wi, executed, value⟩] := by
    rw [loads_append]
    rfl
  have hinflight : s'.ldst.inflight =
      s.ldst.inflight + Multiset.replicate wi.accessqCount wi.access := by
    rw [hldst]
    simp only [LdstUnit.inflight, queuedAccesses_append]
    abel
  have hnew : ∀ a ∈ s.ldst.inflight, a.uid < s.nextUid := by
    intro a ha
    obtain ⟨r, hr, rfl⟩ := h.inflight a ha
    exact h.fresh r hr
  refine ⟨fun r hr => ?_, ?_, fun r hr => ?_, fun j hj => ?_, fun a ha => ?_, fun r hr => ?_, ?_⟩
  · rw [hlog, List.mem_append, List.mem_singleton] at hr
    rw [hnext]
    rcases hr with hr | rfl
    · exact Nat.lt_succ_of_lt (h.fresh r hr)
    · exact huid ▸ Nat.lt_succ_self _
  · rw [hlog, List.map_append, List.nodup_append]
    refine ⟨h.nodup, by simp, fun u hu v hv => ?_⟩
    obtain ⟨r, hr, rfl⟩ := List.mem_map.mp hu
    obtain rfl : v = wi.uid := by simpa using hv
    have := h.fresh r hr
    omega
  · rw [hlog, List.mem_append, List.mem_singleton] at hr
    rcases hr with hr | rfl
    · exact h.loaded r hr
    · exact ⟨hload, henabled, hoff⟩
  · rw [hldst] at hj
    rw [hlog]
    rcases List.mem_append.mp hj with hj | hj
    · obtain ⟨r, hr, hfacts⟩ := h.dispatch j hj
      exact ⟨r, List.mem_append_left _ hr, hfacts⟩
    · obtain rfl := List.mem_singleton.mp hj
      exact ⟨_, List.mem_append_right _ (List.mem_singleton_self _), rfl, le_rfl, id⟩
  · rw [hinflight, Multiset.mem_add] at ha
    rw [hlog]
    rcases ha with ha | ha
    · obtain ⟨r, hr, rfl⟩ := h.inflight a ha
      exact ⟨r, List.mem_append_left _ hr, rfl⟩
    · exact ⟨_, List.mem_append_right _ (List.mem_singleton_self _),
        Multiset.eq_of_mem_replicate ha⟩
  · rw [hlog, List.mem_append, List.mem_singleton] at hr
    rw [answers_append, hinflight, Multiset.count_add, Multiset.count_replicate]
    have hnone : answers r.inst.uid [Event.loaded wi executed value] = 0 := rfl
    rw [hnone, Nat.add_zero]
    rcases hr with hr | rfl
    · have hne : wi.access ≠ r.inst.access := fun heq => by
        have hu := WarpInst.uid_eq_of_access_eq heq
        have := h.fresh r hr
        omega
      rw [if_neg hne, Nat.add_zero]
      exact h.balance r hr
    · have hunanswered := (h.unanswered huid.ge).1
      have habsent : s.ldst.inflight.count wi.access = 0 := by
        rw [Multiset.count_eq_zero]
        intro hmem
        have hlt := hnew _ hmem
        rw [WarpInst.uid_access] at hlt
        omega
      simp [hunanswered, habsent]
  · have hanswers : ∀ u, answers u [Event.loaded wi executed value] = 0 := fun _ => rfl
    have hcompletions : ∀ u, completions u [Event.loaded wi executed value] = 0 := fun _ => rfl
    refine h.closed.append fun u hu => ?_
    simp [hanswers, hcompletions] at hu

/-- An answer moves one access of its load from the ones in flight to the answered. -/
private theorem answered (h : Provenance cfg s log) {inst : WarpInst} {done : Bool}
    (hinflight : s.ldst.inflight = {inst.access} + s'.ldst.inflight)
    (hdispatch : Shrinks s.ldst.dispatch s'.ldst.dispatch) (huid : s'.nextUid = s.nextUid) :
    Provenance cfg s' (log ++ answerEvents inst.uid done) := by
  have hlog : loads (log ++ answerEvents inst.uid done) = loads log := by
    rw [loads_append, loads_answerEvents, List.append_nil]
  obtain ⟨r₀, hr₀, hinst⟩ := h.inflight inst.access (by simp [hinflight])
  have huid₀ : inst.uid = r₀.inst.uid := WarpInst.uid_eq_of_access_eq hinst
  refine ⟨by rw [hlog, huid]; exact h.fresh, by rw [hlog]; exact h.nodup,
    by rw [hlog]; exact h.loaded, fun j hj => ?_, fun a ha => ?_, fun r hr => ?_, ?_⟩
  · obtain ⟨i, hi, haccess, hle, hpos⟩ := hdispatch j hj
    obtain ⟨r, hr, hir, hler, hposr⟩ := h.dispatch i hi
    exact ⟨r, hlog.symm ▸ hr, haccess.trans hir, hle.trans hler, fun hn => hpos (hposr hn)⟩
  · rw [hlog]
    exact h.inflight a (by rw [hinflight]; exact Multiset.mem_add.mpr (.inr ha))
  · rw [hlog] at hr
    have hbalance := h.balance r hr
    rw [hinflight, Multiset.count_add, Multiset.count_singleton] at hbalance
    rw [answers_append, answers_answerEvents]
    by_cases hru : inst.uid = r.inst.uid
    · obtain rfl := h.eq_of_uid_eq hr hr₀ (hru.symm.trans huid₀)
      rw [if_pos hinst.symm] at hbalance
      rw [if_pos hru]
      omega
    · have hne : r.inst.access ≠ inst.access := fun heq =>
        hru (WarpInst.uid_eq_of_access_eq heq).symm
      rw [if_neg hne] at hbalance
      rw [if_neg hru]
      omega
  · refine h.closed.append fun u hu => ⟨r₀, hr₀, ?_⟩
    rw [answers_answerEvents, completions_answerEvents] at hu
    by_contra hne
    have hiu : ¬inst.uid = u := fun heq => hne (huid₀.symm.trans heq)
    simp [hiu] at hu

/-- Every action keeps the accounts. -/
theorem step (h : Provenance cfg s log) {a : Action Mem} (hstep : AccessStep cfg read s a s' es) :
    Provenance cfg s' (log ++ es) := by
  cases hstep with
  | quiet _ _ hinflight hdispatch huid =>
    exact h.keep hinflight hdispatch huid.ge rfl (fun _ => rfl) (fun u hu => by simp at hu)
  | test _ _ hrfq hsmemq =>
    have hcore := (canIssue_core hrfq).trans (canIssue_core hsmemq)
    exact h.keep (by rw [hcore.ldst_eq]) (by rw [hcore.ldst_eq]; exact .refl _)
      hcore.nextUid_eq.ge rfl (fun _ => rfl) (fun u hu => by simp at hu)
  | load _ hload hissue =>
    obtain ⟨key, wi, hissued, rfl, _, hoff, hldst, _⟩ := issueWarp_load_frame hload hissue
    exact h.load (by rw [hissued.inst_eq]; exact hload)
      (by rw [hissued.inst_eq]; exact hissued.enabled) hoff hissued.uid_eq hissued.nextUid_eq hldst
  | move _ hload hissue =>
    obtain ⟨key, wi, written, hissued, rfl, hldst, _⟩ := issueWarp_move_frame hload hissue
    refine h.keep (by rw [hldst]) (by rw [hldst]; exact .refl _) ?_ rfl (fun _ => rfl)
      (fun u hu => ?_)
    · rw [hissued.nextUid_eq]
      exact Nat.le_succ _
    · simp [completions, completesLoad] at hu
  | answered inst out s₁ last done _ _ _ _ hinflight hdispatch huid _ =>
    exact h.answered hinflight hdispatch huid
  | completed inst _ hinst _ _ hinflight hdispatch huid =>
    refine h.keep hinflight hdispatch huid.ge rfl (fun _ => rfl) (fun u hu => ?_)
    obtain ⟨r, hr, haccess, _⟩ := h.dispatch inst hinst
    refine ⟨r, hr, (WarpInst.uid_eq_of_access_eq haccess).symm.trans ?_⟩
    by_contra hne
    have hzero : completions u [.completed inst.uid] = 0 := by
      have hiu : ¬inst.uid = u := hne
      simp [completions, completesLoad, hiu]
    omega
  | retire _ _ hldst huid =>
    exact h.keep (by rw [hldst]) (by rw [hldst]; exact .refl _) huid.ge rfl (fun _ => rfl)
      (fun u hu => by simp [completions, completesLoad] at hu)

/-- An action of a core with sound accounts, seen by its accesses. -/
theorem accessStep (h : Provenance cfg s log) {a : Action Mem}
    (hstep : Shader.step cfg read s a = .ok (s', es)) : AccessStep cfg read s a s' es :=
  (step_cases (fun _ hi hmask => h.off hi hmask) hstep).accessStep

end Provenance
end Shader
end WaspSim
