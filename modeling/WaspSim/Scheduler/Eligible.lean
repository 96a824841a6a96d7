import Mathlib.Data.List.Perm.Subperm
import WaspSim.Scheduler.Issued
import WaspSim.Scheduler.RoundRobin

/-!
# Eligible warps

A cycle counts each eligible warp of its order once, and only counted warps issue.
The slots are the supervised warps, which cover the order of every policy but the
two-level one: that policy registers its warps elsewhere. A loose `rrr` turn of a
scheduler that supervises no warp has no slot either.
-/

namespace WaspSim

variable {Mem Threads Simt Score : Type} {O : Outside Mem Threads Simt Score} {cfg : SchedConfig}

namespace IssueState

variable {c c' : IssueState Mem Threads Simt Score} {w : Nat}

/-- The flag of a sampled warp says whether it passes. -/
theorem eligible_iff_passes {b : Bool} (h : c.eligible O cfg (some w) = .ok (c', b)) :
    b = true ↔ c'.Passes O cfg w := by
  cases hnext : c.nextToIssue O w with
  | mk m o =>
    cases o with
    | none =>
      simp only [eligible, hnext, pure_eq_ok, Prod.mk.injEq] at h
      obtain ⟨rfl, rfl⟩ := h
      have hagain := nextToIssue_again hnext (.refl w m)
      refine iff_of_false Bool.false_ne_true ?_
      rintro ⟨inst, hpresents, _⟩
      rw [Presents, hagain] at hpresents
      cases hpresents
    | some inst =>
      simp only [eligible, hnext] at h
      have hagain := nextToIssue_again hnext (passesScoreboard_keeps h w)
      obtain ⟨c₃, hc₃, hsame⟩ := passesScoreboard_again h (.refl w c') false
      obtain rfl := hsame rfl
      have hpresents : c₃.Presents O w inst := by rw [Presents, hagain]
      constructor
      · rintro rfl
        exact ⟨inst, hpresents, hc₃⟩
      · rintro ⟨inst', hpresents', hpasses⟩
        obtain rfl := Option.some.inj (hpresents.symm.trans hpresents')
        rw [hc₃, Except.ok.injEq, Prod.mk.injEq] at hpasses
        exact hpasses.2

/-- The warps that are counted as eligible pass their tests, and each is counted once. -/
theorem eligibleWarps_counted {ws : List Nat} {n : Nat} (hnodup : ws.Nodup)
    (h : c.eligibleWarps O cfg (ws.map some) = .ok (c', n)) :
    ∃ counted : Finset Nat, counted.card = n ∧
      ∀ w, w ∈ counted ↔ w ∈ ws ∧ c'.Passes O cfg w := by
  have hgeneral : ∀ {count : Nat} {c : IssueState Mem Threads Simt Score},
      (ws.map some).foldlM (fun acc entry => do
        let r ← acc.1.eligible O cfg entry
        pure (r.1, acc.2 + r.2.toNat)) (c, count) = .ok (c', n) →
      (∀ v, KeepsFor O v c c') ∧ ∃ counted : Finset Nat, count + counted.card = n ∧
        ∀ w, w ∈ counted ↔ w ∈ ws ∧ c'.Passes O cfg w := by
    clear h
    induction ws with
    | nil =>
      intro count c h
      simp only [List.map_nil, foldlM_nil_eq_ok, Prod.mk.injEq] at h
      obtain ⟨rfl, rfl⟩ := h
      exact ⟨fun v => .refl v c, ∅, rfl, by simp⟩
    | cons w ws ih =>
      intro count c h
      rw [List.nodup_cons] at hnodup
      obtain ⟨⟨m, count'⟩, hstep, hrest⟩ := foldlM_cons_eq_ok.mp h
      simp only [bind_eq_ok, Prod.exists, pure_eq_ok, Prod.mk.injEq] at hstep
      obtain ⟨m', b, hentry, rfl, rfl⟩ := hstep
      obtain ⟨hkeeps, counted, hcard, hcounted⟩ := ih hnodup.2 hrest
      have hw : b = true ↔ c'.Passes O cfg w :=
        (eligible_iff_passes hentry).trans ((eligible_settles hentry).passes_iff (hkeeps w)).symm
      refine ⟨fun v => (eligible_keeps hentry v).trans (hkeeps v), ?_⟩
      cases b with
      | false =>
        refine ⟨counted, hcard, fun u => ?_⟩
        rw [hcounted, List.mem_cons]
        constructor
        · exact fun hu => ⟨.inr hu.1, hu.2⟩
        · rintro ⟨rfl | hu, hpasses⟩
          · exact absurd (hw.mpr hpasses) Bool.false_ne_true
          · exact ⟨hu, hpasses⟩
      | true =>
        have hnew : w ∉ counted := fun hmem => hnodup.1 ((hcounted w).mp hmem).1
        refine ⟨insert w counted, ?_, fun u => ?_⟩
        · rw [Finset.card_insert_of_notMem hnew, ← hcard, Bool.toNat_true]
          omega
        · rw [Finset.mem_insert, hcounted, List.mem_cons]
          constructor
          · rintro (rfl | hu)
            · exact ⟨.inl rfl, hw.mp rfl⟩
            · exact ⟨.inr hu.1, hu.2⟩
          · rintro ⟨rfl | hu, hpasses⟩
            · exact .inl rfl
            · exact .inr ⟨hu, hpasses⟩
  obtain ⟨_, counted, hcard, hcounted⟩ := hgeneral h
  exact ⟨counted, by rw [← hcard, Nat.zero_add], hcounted⟩

/-- Looking for a warp that can run asks only whether warps wait. -/
theorem sleeps_out (w : Nat) : (c.sleeps O w).1.out = c.out := by
  unfold sleeps
  split
  · rfl
  · exact waiting_out w

theorem ask_out (ws : List Nat) : (c.ask O ws).out = c.out := by
  induction ws generalizing c with
  | nil => rfl
  | cons w ws ih => exact ih.trans (waiting_out w)

/-- The first warp that can run is one of the list. -/
theorem firstAwake_spec (ws : List Nat) :
    (c.firstAwake O ws).1.out = c.out ∧ ∀ w ∈ (c.firstAwake O ws).2, w ∈ ws := by
  induction ws generalizing c with
  | nil => exact ⟨rfl, by simp [firstAwake]⟩
  | cons v ws ih =>
    have hout := sleeps_out (O := O) (c := c) v
    unfold firstAwake
    split
    · rename_i c₁ heq
      rw [heq] at hout
      obtain ⟨hrest, hmem⟩ := @ih c₁
      exact ⟨hrest.trans hout, fun w hw => List.mem_cons_of_mem _ (hmem w hw)⟩
    · rename_i c₁ heq
      rw [heq] at hout
      refine ⟨hout, fun w hw => ?_⟩
      rw [Option.mem_some_iff.mp hw]
      exact List.mem_cons_self

end IssueState

section Ordering

variable {α : Type} {input sorted ws : List α} {last n : Nat}

/-- A round-robin order of a whole list permutes it. -/
theorem orderLrr_perm (hlast : last ≤ input.length)
    (h : orderLrr input last input.length = .ok ws) : ws.Perm input := by
  rcases Nat.eq_or_lt_of_le hlast with rfl | hlt
  · rw [orderLrr_end, Except.ok.injEq] at h
    rw [h]
  · rw [orderLrr_eq hlt, Except.ok.injEq] at h
    rw [← h]
    exact List.rotate_perm input _

/-- A greedy order takes distinct elements of its input. -/
theorem orderGreedy_spec [DecidableEq α] (hnodup : input.Nodup) (hperm : sorted.Perm input)
    (h : orderGreedy input sorted last n = .ok ws) : ws.Nodup ∧ ws ⊆ input := by
  simp only [orderGreedy, bind_eq_ok, fetch_eq_ok, pure_eq_ok] at h
  obtain ⟨_, _, greedy, hgreedy, rfl⟩ := h
  have hsub : (sorted.take n).filter (· ≠ greedy) ⊆ input := by
    intro a ha
    exact hperm.subset (List.mem_of_mem_take (List.mem_of_mem_filter ha))
  constructor
  · rw [List.nodup_cons]
    refine ⟨fun hmem => ?_, ?_⟩
    · simpa using (List.mem_filter.mp hmem).2
    · exact ((hperm.nodup_iff.mpr hnodup).take).filter _
  · intro a ha
    rcases List.mem_cons.mp ha with rfl | ha
    · exact List.mem_of_getElem? hgreedy
    · exact hsub ha

/-- An order by priority alone takes distinct elements of its input. -/
theorem orderByPriorityOnly_spec (hnodup : input.Nodup) (hperm : sorted.Perm input)
    (h : orderByPriorityOnly input sorted n = .ok ws) : ws.Nodup ∧ ws ⊆ input := by
  simp only [orderByPriorityOnly, bind_eq_ok, pure_eq_ok] at h
  obtain ⟨_, _, rfl⟩ := h
  refine ⟨(hperm.nodup_iff.mpr hnodup).take, fun a ha => ?_⟩
  exact hperm.subset (List.mem_of_mem_take ha)

end Ordering

namespace SchedulerUnit

variable {order : OrderOracle Score} {u : SchedulerUnit} {c c' : IssueState Mem Threads Simt Score}

/-- The slots of a cycle cover its order. -/
def HasSlots (u : SchedulerUnit) : Prop :=
  match u.policy with
  | .twoLevelActive _ => False
  | .rrr => u.supervised ≠ []
  | _ => True

/-- Demoting splits the active warps. -/
theorem demote_perm (active : List Nat)
    (acc : IssueState Mem Threads Simt Score × List Nat × List Nat) :
    (active.foldl (demote O order) acc).1.out = acc.1.out ∧
      ((active.foldl (demote O order) acc).2.1 ++ (active.foldl (demote O order) acc).2.2).Perm
        (acc.2.1 ++ acc.2.2 ++ active) := by
  induction active generalizing acc with
  | nil => exact ⟨rfl, by simp⟩
  | cons w active ih =>
    obtain ⟨hout, hperm⟩ := ih (demote O order acc w)
    have hstep : (demote O order acc w).1.out = acc.1.out ∧
        ((demote O order acc w).2.1 ++ (demote O order acc w).2.2).Perm
          (acc.2.1 ++ acc.2.2 ++ [w]) := by
      have hwait := IssueState.waiting_out (O := O) (c := acc.1) w
      simp only [demote]
      split
      · exact ⟨hwait, by rw [List.append_assoc]⟩
      · refine ⟨hwait, ?_⟩
        rw [List.append_assoc, List.append_assoc]
        exact List.perm_append_comm.append_left acc.2.1
    refine ⟨hout.trans hstep.1, hperm.trans ?_⟩
    rw [← List.singleton_append, ← List.append_assoc]
    exact hstep.2.append_right active

/-- The warps that stayed active or were promoted are distinct. -/
theorem active_nodup {kept demoted : List Nat} (hperm : (kept ++ demoted).Perm u.prioritized)
    (promoted : Nat) : (kept ++ (u.pending ++ demoted).take promoted).Nodup := by
  have hall : (kept ++ (u.pending ++ demoted)).Perm (u.prioritized ++ u.pending) := by
    calc
      (kept ++ (u.pending ++ demoted)).Perm (kept ++ (demoted ++ u.pending)) :=
        List.perm_append_comm.append_left kept
      _ = kept ++ demoted ++ u.pending := (List.append_assoc kept demoted u.pending).symm
      List.Perm _ (u.prioritized ++ u.pending) := hperm.append_right u.pending
  exact (hall.nodup_iff.mpr u.prioritized_nodup).sublist ((List.take_sublist _ _).append_left kept)

/-- An order of supervised warps fits their slots. -/
private theorem fits {ws : List Nat} (hnodup : ws.Nodup) (hsub : ws ⊆ u.supervised) :
    ws.Nodup ∧ (u.HasSlots → ws.length ≤ u.supervised.length) :=
  ⟨hnodup, fun _ => (hnodup.subperm hsub).length_le⟩

/-- A turn orders one warp at most. -/
theorem orderRrr_spec {ws : List Nat} {turn : Nat}
    (h : u.orderRrr O cfg c = .ok (c', ws, turn)) :
    c'.out = c.out ∧ ws.Nodup ∧ ws.length ≤ 1 := by
  simp only [orderRrr, bind_eq_ok, Prod.exists] at h
  obtain ⟨c₁, ends, hturn, h⟩ := h
  have hout : c₁.out = c.out := by
    unfold endsTurn at hturn
    split at hturn
    · rw [pure_eq_ok, Prod.mk.injEq] at hturn
      rw [hturn.1]
    · simp only [bind_eq_ok, pure_eq_ok] at hturn
      obtain ⟨_, _, hsleeps⟩ := hturn
      have hsame := IssueState.sleeps_out (O := O) (c := c) u.currentTurnWarp
      rwa [hsleeps] at hsame
  split at h
  · rw [pure_eq_ok, Prod.mk.injEq, Prod.mk.injEq] at h
    obtain ⟨rfl, rfl, _⟩ := h
    exact ⟨hout, List.nodup_singleton _, le_refl 1⟩
  · rw [bind_eq_ok] at h
    obtain ⟨ws₀, _, h⟩ := h
    have hawake := (IssueState.firstAwake_spec (O := O) (c := c₁) ws₀).1
    split at h
    · rename_i c₂ w heq
      rw [heq] at hawake
      rw [pure_eq_ok, Prod.mk.injEq, Prod.mk.injEq] at h
      obtain ⟨rfl, rfl, _⟩ := h
      exact ⟨hawake.trans hout, List.nodup_singleton _, le_refl 1⟩
    · rename_i c₂ heq
      rw [heq] at hawake
      rw [pure_eq_ok, Prod.mk.injEq, Prod.mk.injEq] at h
      obtain ⟨rfl, rfl, _⟩ := h
      exact ⟨hawake.trans hout, List.nodup_nil, Nat.zero_le 1⟩

/-- An order has distinct warps, no more than its slots, and issues nothing. -/
theorem orderWarps_spec {ws pending : List Nat} {turn : Nat}
    (h : u.orderWarps O cfg order c = .ok (c', ws, pending, turn)) :
    c'.out = c.out ∧ ws.Nodup ∧ (u.HasSlots → ws.length ≤ u.supervised.length) := by
  have hsorted := fun before => order.sort_perm before u.supervised
  unfold orderWarps at h
  cases hpolicy : u.policy with
  | lrr =>
    simp only [hpolicy, bind_eq_ok, pure_eq_ok, Prod.mk.injEq] at h
    obtain ⟨_, hlrr, rfl, rfl, _⟩ := h
    have hperm := orderLrr_perm u.lastSupervisedIssued_le hlrr
    exact ⟨rfl, fits (hperm.nodup_iff.mpr u.supervised_nodup) hperm.subset⟩
  | gto =>
    simp only [hpolicy, bind_eq_ok, pure_eq_ok, Prod.mk.injEq] at h
    obtain ⟨_, hgreedy, rfl, rfl, _⟩ := h
    obtain ⟨hnodup, hsub⟩ := orderGreedy_spec u.supervised_nodup (hsorted _) hgreedy
    exact ⟨IssueState.ask_out _, fits hnodup hsub⟩
  | oldest =>
    simp only [hpolicy, bind_eq_ok, pure_eq_ok, Prod.mk.injEq] at h
    obtain ⟨_, holdest, rfl, rfl, _⟩ := h
    obtain ⟨hnodup, hsub⟩ := orderByPriorityOnly_spec u.supervised_nodup (hsorted _) holdest
    exact ⟨IssueState.ask_out _, fits hnodup hsub⟩
  | warpLimiting numWarpsToLimit =>
    simp only [hpolicy, bind_eq_ok, pure_eq_ok, Prod.mk.injEq] at h
    obtain ⟨_, hgreedy, rfl, rfl, _⟩ := h
    obtain ⟨hnodup, hsub⟩ := orderGreedy_spec u.supervised_nodup (hsorted _) hgreedy
    exact ⟨IssueState.ask_out _, fits hnodup hsub⟩
  | rrr =>
    simp only [hpolicy, bind_eq_ok, Prod.exists, pure_eq_ok, Prod.mk.injEq] at h
    obtain ⟨_, _, _, hrrr, rfl, rfl, _⟩ := h
    obtain ⟨hout, hnodup, hlen⟩ := orderRrr_spec hrrr
    refine ⟨hout, hnodup, fun hslots => ?_⟩
    simp only [HasSlots, hpolicy] at hslots
    exact hlen.trans (List.length_pos_iff.mpr hslots)
  | twoLevelActive maxActiveWarps =>
    simp only [hpolicy, bind_eq_ok, pure_eq_ok, Prod.mk.injEq] at h
    obtain ⟨_, _, _, _, rfl, rfl, _⟩ := h
    obtain ⟨hout, hperm⟩ := @demote_perm _ _ _ _ O order u.prioritized (c, [], [])
    refine ⟨hout, active_nodup hperm _, fun hslots => ?_⟩
    simp only [HasSlots, hpolicy] at hslots

end SchedulerUnit
end WaspSim
