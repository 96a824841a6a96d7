import Mathlib.Algebra.BigOperators.Group.Multiset.Basic
import Mathlib.Tactic.Abel
import WaspSim.Core.Run
import WaspSim.Shader.Decode
import WaspSim.Shader.LoadStore

/-!
# Requests and responses of global loads

`memory_cycle` decides on the instruction whether an access goes through the L1
data cache, and `cycle` decides again on the returning fetch. The second decision
lacks the exception for the non-coherent operator under `gmem_skip_L1D`. When the
decisions agree, every access that waits for a miss is returned; the cache itself
comes from outside the modelled sources and is a parameter.
-/

namespace WaspSim

/-- `mem_fetch` of a global load. -/
structure MemFetch where
  /-- `m_request_uid`. -/
  requestUid : Nat
  /-- The queue of the load; a plain load has none. -/
  kind : Option QueueKind := none
  /-- `cache_op` of the load. -/
  cacheOp : CacheOp
  deriving DecidableEq, Repr

namespace CacheOp

/-- `bypassL1D` when a load is sent. -/
def bypassL1D (cfg : Config) (op : CacheOp) : Bool :=
  op == .global || !cfg.hasL1D || (cfg.gmemSkipL1D && op != .l1)

/-- `bypassL1D` when a response arrives. -/
def bypassL1DResponse (cfg : Config) (op : CacheOp) : Bool :=
  op == .global || !cfg.hasL1D || cfg.gmemSkipL1D

/-- A response takes another way than its request: a non-coherent load under
`gmem_skip_L1D`. -/
def Diverts (cfg : Config) (op : CacheOp) : Prop :=
  cfg.hasL1D = true ∧ cfg.gmemSkipL1D = true ∧ op = .l1

/-- Requests and responses are routed by the same decision unless the response is diverted. -/
theorem bypassL1DResponse_eq_iff (cfg : Config) (op : CacheOp) :
    op.bypassL1DResponse cfg = op.bypassL1D cfg ↔ ¬op.Diverts cfg := by
  unfold bypassL1DResponse bypassL1D Diverts
  cases hL1D : cfg.hasL1D with
  | false => simp
  | true =>
    cases hskip : cfg.gmemSkipL1D with
    | false => simp
    | true =>
      cases op with
      | all | l1 | global | other => simp

end CacheOp

/-- The decisions on queue loads are those on their cache operators. -/
theorem Shader.bypassL1D_eq (cfg : Config) (inst : WarpInst) :
    bypassL1D cfg inst = inst.cacheOp.bypassL1D cfg ∧
      bypassL1DResponse cfg inst = inst.cacheOp.bypassL1DResponse cfg :=
  ⟨rfl, rfl⟩

/-- The L1 data cache as the load/store unit uses it. Its status says whether a fetch is
sent for the access, which the cache tells in its events. -/
structure L1D where
  State : Type
  initial : State
  access : State → MemFetch → State × CacheStatus
  fill : State → MemFetch → State
  nextAccess : State → Option (MemFetch × State)
  /-- The outstanding misses, each with the accesses that wait for it. -/
  misses : State → Multiset (MemFetch × Multiset MemFetch)
  /-- The accesses that `next_access` will return. -/
  filled : State → Multiset MemFetch
  misses_initial : misses initial = 0
  filled_initial : filled initial = 0
  /-- A miss waits for its own fetch. -/
  access_miss : ∀ s mf s', access s mf = (s', .miss) →
    misses s' = (mf, {mf}) ::ₘ misses s ∧ filled s' = filled s
  /-- An access to a block that is on its way waits for the fetch of that block. -/
  access_hitReserved : ∀ s mf s', access s mf = (s', .hitReserved) → ∃ primary merged rest,
    misses s = (primary, merged) ::ₘ rest ∧ misses s' = (primary, mf ::ₘ merged) ::ₘ rest ∧
      filled s' = filled s
  access_hit : ∀ s mf s', access s mf = (s', .hit) → misses s' = misses s ∧ filled s' = filled s
  access_fail : ∀ s mf s', access s mf = (s', .reservationFail) →
    misses s' = misses s ∧ filled s' = filled s
  /-- A fill ends its miss. -/
  fill_miss : ∀ s mf merged rest, (misses s).map Prod.fst |>.Nodup →
    misses s = (mf, merged) ::ₘ rest →
      misses (fill s mf) = rest ∧ filled (fill s mf) = merged + filled s
  nextAccess_none : ∀ s, nextAccess s = none → filled s = 0
  nextAccess_some : ∀ s mf s', nextAccess s = some (mf, s') →
    filled s = mf ::ₘ filled s' ∧ misses s' = misses s

/-- The accesses of global loads beyond their access queues. -/
structure RouteUnit (D : L1D) where
  l1d : D.State
  /-- The fetches in the memory system and in `m_response_fifo`. -/
  inFlight : List MemFetch := []
  /-- `m_next_global`. -/
  nextGlobal : Option MemFetch := none
  /-- The accesses handed to `writeback` or answered by a hit. -/
  returned : List MemFetch := []
  /-- All accesses that left their access queues. -/
  sent : List MemFetch := []

inductive RouteAction where
  /-- `memory_cycle` with an access of a load. -/
  | send (mf : MemFetch)
  /-- A response at the head of `m_response_fifo`. -/
  | respond (i : Nat)
  /-- `writeback` takes `m_next_global`. -/
  | takeGlobal
  /-- `writeback` takes `next_access` of the L1. -/
  | takeL1d

/-- An action that brings accesses back. -/
def RouteAction.Returns : RouteAction → Prop
  | .send _ => False
  | _ => True

namespace RouteUnit

variable {D : L1D} {cfg : Config} {u u' : RouteUnit D}

/-- One action on the loads. -/
def step (cfg : Config) (u : RouteUnit D) : RouteAction → Except Halt (RouteUnit D)
  | .send mf => do
    require .disabled (mf ∉ u.sent)
    if mf.cacheOp.bypassL1D cfg then
      pure { u with inFlight := u.inFlight ++ [mf], sent := u.sent ++ [mf] }
    else
      match D.access u.l1d mf with
      | (l1d, .hit) => pure { u with l1d, returned := u.returned ++ [mf], sent := u.sent ++ [mf] }
      | (l1d, .miss) => pure { u with l1d, inFlight := u.inFlight ++ [mf], sent := u.sent ++ [mf] }
      | (l1d, .hitReserved) => pure { u with l1d, sent := u.sent ++ [mf] }
      | (l1d, .reservationFail) => pure { u with l1d }
  | .respond i => do
    let mf ← fetch .disabled u.inFlight[i]?
    let inFlight := u.inFlight.eraseIdx i
    if mf.cacheOp.bypassL1DResponse cfg then
      require .disabled (u.nextGlobal = none)
      pure { u with inFlight, nextGlobal := some mf }
    else pure { u with inFlight, l1d := D.fill u.l1d mf }
  | .takeGlobal => do
    let mf ← fetch .disabled u.nextGlobal
    pure { u with nextGlobal := none, returned := u.returned ++ [mf] }
  | .takeL1d => do
    let (mf, l1d) ← fetch .disabled (D.nextAccess u.l1d)
    pure { u with l1d, returned := u.returned ++ [mf] }

/-- No access is out. -/
def initial (D : L1D) : RouteUnit D where
  l1d := D.initial

/-- Responses find the way of their requests, and no access is lost. -/
structure Routed (cfg : Config) (u : RouteUnit D) : Prop where
  sent_nodup : u.sent.Nodup
  inFlight_nodup : u.inFlight.Nodup
  inFlight_subset : u.inFlight ⊆ u.sent
  straight : ∀ mf ∈ u.inFlight, ¬mf.cacheOp.Diverts cfg
  /-- The fetches of misses are those that went through the L1. -/
  misses_eq : (D.misses u.l1d).map Prod.fst =
    ↑(u.inFlight.filter fun mf => !mf.cacheOp.bypassL1D cfg)
  conserved : (↑u.sent : Multiset MemFetch) =
    ↑(u.inFlight.filter fun mf => mf.cacheOp.bypassL1D cfg) +
      ((D.misses u.l1d).map Prod.snd).sum + D.filled u.l1d + ↑u.nextGlobal.toList + ↑u.returned

/-- Only loads whose responses are not diverted are sent. -/
def Straight (cfg : Config) (_ : RouteUnit D) (a : RouteAction) : Prop :=
  ∀ mf, a = .send mf → ¬mf.cacheOp.Diverts cfg

/-- The selected elements with one of them set apart. -/
theorem filter_eq_of_getElem? {l : List MemFetch} {i : Nat} {mf : MemFetch} (h : l[i]? = some mf)
    (p : MemFetch → Bool) :
    (↑(l.filter p) : Multiset MemFetch) =
      (if p mf then {mf} else 0) + ↑((l.eraseIdx i).filter p) := by
  obtain ⟨hi, rfl⟩ := List.getElem?_eq_some_iff.mp h
  have hperm := (List.getElem_cons_eraseIdx_perm hi).filter p
  rw [← Multiset.coe_eq_coe.mpr hperm, List.filter_cons]
  split
  · rfl
  · rw [zero_add]

/-- The selected elements with one more at the end. -/
theorem filter_append_eq (l : List MemFetch) (mf : MemFetch) (p : MemFetch → Bool) :
    (↑((l ++ [mf]).filter p) : Multiset MemFetch) = (if p mf then {mf} else 0) + ↑(l.filter p) := by
  rw [List.filter_append, ← Multiset.coe_add, add_comm, List.filter_singleton]
  cases p mf with
  | false => rfl
  | true => rfl

/-- No access is on its way at first. -/
theorem routed_initial : Routed cfg (initial D) where
  sent_nodup := List.nodup_nil
  inFlight_nodup := List.nodup_nil
  inFlight_subset := fun _ h => h
  straight := fun _ h => absurd h List.not_mem_nil
  misses_eq := by simp [initial, D.misses_initial]
  conserved := by simp [initial, D.misses_initial, D.filled_initial]

/-- Sending an access keeps the routes straight. -/
theorem Routed.send (h : Routed cfg u) {mf : MemFetch} (hmf : ¬mf.cacheOp.Diverts cfg)
    (hstep : u.step cfg (.send mf) = .ok u') : Routed cfg u' := by
  simp only [step, bind_eq_ok, require_eq_ok] at hstep
  obtain ⟨_, hfresh, hstep⟩ := hstep
  have hsent : (u.sent ++ [mf]).Nodup := by
    rw [List.nodup_append_comm, List.singleton_append, List.nodup_cons]
    exact ⟨hfresh, h.sent_nodup⟩
  have hflight : (u.inFlight ++ [mf]).Nodup := by
    rw [List.nodup_append_comm, List.singleton_append, List.nodup_cons]
    exact ⟨fun hmem => hfresh (h.inFlight_subset hmem), h.inFlight_nodup⟩
  have hsubset : u.inFlight ++ [mf] ⊆ u.sent ++ [mf] := by
    intro a ha
    rw [List.mem_append] at ha ⊢
    exact ha.imp (fun ha => h.inFlight_subset ha) id
  have hstraight : ∀ a ∈ u.inFlight ++ [mf], ¬a.cacheOp.Diverts cfg := by
    intro a ha
    rcases List.mem_append.mp ha with ha | ha
    · exact h.straight a ha
    · rw [List.mem_singleton.mp ha]
      exact hmf
  split at hstep
  · rename_i hbypass
    rw [pure_eq_ok] at hstep
    subst hstep
    refine ⟨hsent, hflight, hsubset, hstraight, ?_, ?_⟩
    · simp only [filter_append_eq, h.misses_eq, hbypass, Bool.not_true, Bool.false_eq_true,
        ↓reduceIte, zero_add]
    · simp only [filter_append_eq, hbypass, ↓reduceIte, ← Multiset.coe_add, h.conserved,
        Multiset.coe_singleton]
      abel
  · rename_i hbypass
    rw [Bool.not_eq_true] at hbypass
    have hsub : u.inFlight ⊆ u.sent ++ [mf] :=
      fun a ha => List.mem_append_left _ (h.inFlight_subset ha)
    split at hstep
    · rename_i l1d haccess
      rw [pure_eq_ok] at hstep
      subst hstep
      obtain ⟨hmisses, hfilled⟩ := D.access_hit _ _ _ haccess
      refine ⟨hsent, h.inFlight_nodup, hsub, h.straight, ?_, ?_⟩
      · simp only [hmisses, h.misses_eq]
      · simp only [hmisses, hfilled, ← Multiset.coe_add, h.conserved]
        abel
    · rename_i l1d haccess
      rw [pure_eq_ok] at hstep
      subst hstep
      obtain ⟨hmisses, hfilled⟩ := D.access_miss _ _ _ haccess
      refine ⟨hsent, hflight, hsubset, hstraight, ?_, ?_⟩
      · simp only [hmisses, Multiset.map_cons, h.misses_eq, filter_append_eq, hbypass,
          Bool.not_false, ↓reduceIte, Multiset.singleton_add]
      · simp only [hmisses, hfilled, Multiset.map_cons, Multiset.sum_cons, filter_append_eq,
          hbypass,
          Bool.false_eq_true, ↓reduceIte, ← Multiset.coe_add, h.conserved, Multiset.coe_singleton]
        abel
    · rename_i l1d haccess
      rw [pure_eq_ok] at hstep
      subst hstep
      obtain ⟨primary, merged, rest, hold, hnew, hfilled⟩ := D.access_hitReserved _ _ _ haccess
      refine ⟨hsent, h.inFlight_nodup, hsub, h.straight, ?_, ?_⟩
      · rw [← h.misses_eq, hold]
        simp only [hnew, Multiset.map_cons]
      · have hconserved := h.conserved
        rw [hold, Multiset.map_cons, Multiset.sum_cons] at hconserved
        simp only [hnew, hfilled, Multiset.map_cons, Multiset.sum_cons, ← Multiset.coe_add,
          hconserved, ← Multiset.singleton_add mf merged, Multiset.coe_singleton]
        abel
    · rename_i l1d haccess
      rw [pure_eq_ok] at hstep
      subst hstep
      obtain ⟨hmisses, hfilled⟩ := D.access_fail _ _ _ haccess
      exact ⟨h.sent_nodup, h.inFlight_nodup, h.inFlight_subset, h.straight,
        by simp only [hmisses, h.misses_eq], by simp only [hmisses, hfilled, h.conserved]⟩

/-- A response finds the way of its request. -/
theorem Routed.respond (h : Routed cfg u) {i : Nat} (hstep : u.step cfg (.respond i) = .ok u') :
    Routed cfg u' ∧ u'.sent = u.sent ∧ u'.returned = u.returned ∧
      u'.inFlight.length + 1 = u.inFlight.length := by
  simp only [step, bind_eq_ok, fetch_eq_ok] at hstep
  obtain ⟨mf, hmf, hstep⟩ := hstep
  obtain ⟨hi, hget⟩ := List.getElem?_eq_some_iff.mp hmf
  have hlength : (u.inFlight.eraseIdx i).length + 1 = u.inFlight.length := by
    rw [List.length_eraseIdx_of_lt hi]
    omega
  have hmem : mf ∈ u.inFlight := List.mem_of_getElem? hmf
  have hsub : u.inFlight.eraseIdx i ⊆ u.inFlight := (List.eraseIdx_sublist _ _).subset
  have hnodup := h.inFlight_nodup.sublist (List.eraseIdx_sublist u.inFlight i)
  have hsubset : u.inFlight.eraseIdx i ⊆ u.sent := fun a ha => h.inFlight_subset (hsub ha)
  have hstraight : ∀ a ∈ u.inFlight.eraseIdx i, ¬a.cacheOp.Diverts cfg :=
    fun a ha => h.straight a (hsub ha)
  have hmisses := h.misses_eq
  have hconserved := h.conserved
  rw [filter_eq_of_getElem? hmf] at hmisses hconserved
  rw [(CacheOp.bypassL1DResponse_eq_iff cfg mf.cacheOp).mpr (h.straight mf hmem)] at hstep
  cases hbypass : mf.cacheOp.bypassL1D cfg with
  | true =>
    simp only [hbypass, ↓reduceIte, bind_eq_ok, require_eq_ok, pure_eq_ok] at hstep
    obtain ⟨_, hfree, rfl⟩ := hstep
    refine ⟨⟨h.sent_nodup, hnodup, hsubset, hstraight, ?_, ?_⟩, rfl, rfl, hlength⟩
    · rw [hmisses, hbypass]
      exact zero_add _
    · rw [hconserved, hbypass, hfree]
      simp only [↓reduceIte, Option.toList_some, Option.toList_none, Multiset.coe_nil,
        Multiset.coe_singleton]
      abel
  | false =>
    simp only [hbypass, Bool.false_eq_true, ↓reduceIte, pure_eq_ok] at hstep
    subst hstep
    -- the fetch is that of a miss
    have hkeys : ((D.misses u.l1d).map Prod.fst).Nodup := by
      rw [h.misses_eq]
      exact Multiset.coe_nodup.mpr (h.inFlight_nodup.filter _)
    rw [hbypass] at hmisses
    simp only [Bool.not_false, ↓reduceIte, Multiset.singleton_add] at hmisses
    have hmiss : mf ∈ (D.misses u.l1d).map Prod.fst := by
      rw [hmisses]
      exact Multiset.mem_cons_self _ _
    obtain ⟨⟨mf', merged⟩, hentry, rfl⟩ := Multiset.mem_map.mp hmiss
    obtain ⟨rest, hrest⟩ := Multiset.exists_cons_of_mem hentry
    obtain ⟨hfill, hfilled⟩ := D.fill_miss _ _ _ _ hkeys hrest
    refine ⟨⟨h.sent_nodup, hnodup, hsubset, hstraight, ?_, ?_⟩, rfl, rfl, hlength⟩
    · rw [hrest, Multiset.map_cons, Multiset.cons_inj_right] at hmisses
      rw [hfill]
      exact hmisses
    · rw [hconserved, hbypass, hfill, hfilled, hrest]
      simp only [Bool.false_eq_true, ↓reduceIte, zero_add, Multiset.map_cons, Multiset.sum_cons]
      abel

/-- Handing an access to `writeback`. -/
theorem Routed.take (h : Routed cfg u) {a : RouteAction} (ha : a = .takeGlobal ∨ a = .takeL1d)
    (hstep : u.step cfg a = .ok u') :
    Routed cfg u' ∧ u'.sent = u.sent ∧ u'.returned.length = u.returned.length + 1 ∧
      u'.inFlight = u.inFlight := by
  rcases ha with rfl | rfl
  · simp only [step, bind_eq_ok, fetch_eq_ok, pure_eq_ok] at hstep
    obtain ⟨mf, hmf, rfl⟩ := hstep
    refine ⟨⟨h.sent_nodup, h.inFlight_nodup, h.inFlight_subset, h.straight, h.misses_eq, ?_⟩,
      rfl, by simp, rfl⟩
    rw [h.conserved, hmf]
    simp only [Option.toList_some, Option.toList_none, ← Multiset.coe_add, Multiset.coe_nil]
    abel
  · simp only [step, bind_eq_ok, fetch_eq_ok, pure_eq_ok, Prod.exists] at hstep
    obtain ⟨mf, l1d, hnext, rfl⟩ := hstep
    obtain ⟨hfilled, hmisses⟩ := D.nextAccess_some _ _ _ hnext
    refine ⟨⟨h.sent_nodup, h.inFlight_nodup, h.inFlight_subset, h.straight, ?_, ?_⟩,
      rfl, by simp, rfl⟩
    · rw [← h.misses_eq, hmisses]
    · rw [h.conserved, hmisses, hfilled, ← Multiset.singleton_add]
      simp only [← Multiset.coe_add, Multiset.coe_singleton]
      abel

/-- What is left to do until every access is back. -/
def remaining (u : RouteUnit D) : Nat := u.inFlight.length + (u.sent.length - u.returned.length)

/-- Bringing accesses back gets nearer to the end. -/
theorem Routed.returns (h : Routed cfg u) {a : RouteAction} (ha : a.Returns)
    (hstep : u.step cfg a = .ok u') :
    Routed cfg u' ∧ u'.sent = u.sent ∧ u'.remaining + 1 = u.remaining := by
  have hle : ∀ {v : RouteUnit D}, Routed cfg v → v.returned.length ≤ v.sent.length := by
    intro v hv
    have hcard := congrArg Multiset.card hv.conserved
    simp only [Multiset.card_add, Multiset.coe_card] at hcard
    omega
  cases a with
  | send mf => exact absurd ha id
  | respond i =>
    obtain ⟨hrouted, hsent, hreturned, hlength⟩ := h.respond hstep
    refine ⟨hrouted, hsent, ?_⟩
    simp only [remaining, hsent, hreturned]
    omega
  | takeGlobal =>
    obtain ⟨hrouted, hsent, hreturned, hflight⟩ := h.take (.inl rfl) hstep
    refine ⟨hrouted, hsent, ?_⟩
    have hbound := hle hrouted
    simp only [remaining, hsent, hreturned, hflight] at hbound ⊢
    omega
  | takeL1d =>
    obtain ⟨hrouted, hsent, hreturned, hflight⟩ := h.take (.inr rfl) hstep
    refine ⟨hrouted, hsent, ?_⟩
    have hbound := hle hrouted
    simp only [remaining, hsent, hreturned, hflight] at hbound ⊢
    omega

/-- When no action brings anything back, everything is back. -/
theorem Routed.returned_of_stuck (h : Routed cfg u)
    (hstuck : ∀ a, a.Returns → ∀ u', u.step cfg a ≠ .ok u') :
    (↑u.returned : Multiset MemFetch) = ↑u.sent := by
  have hglobal : u.nextGlobal = none := by
    cases hnext : u.nextGlobal with
    | none => rfl
    | some mf =>
      refine absurd ?_ (hstuck .takeGlobal trivial { u with
        nextGlobal := none, returned := u.returned ++ [mf] })
      simp [step, hnext, fetch, bind, Except.bind, pure, Except.pure]
  have hfilled : D.filled u.l1d = 0 := by
    cases hnext : D.nextAccess u.l1d with
    | none => exact D.nextAccess_none _ hnext
    | some r =>
      refine absurd ?_ (hstuck .takeL1d trivial { u with
        l1d := r.2, returned := u.returned ++ [r.1] })
      simp [step, hnext, fetch, bind, Except.bind, pure, Except.pure]
  have hflight : u.inFlight = [] := by
    cases hlist : u.inFlight with
    | nil => rfl
    | cons mf rest =>
      by_cases hbypass : mf.cacheOp.bypassL1DResponse cfg = true
      · refine absurd ?_ (hstuck (.respond 0) trivial { u with
          inFlight := rest, nextGlobal := some mf })
        simp [step, hlist, hbypass, hglobal, fetch, require, bind, Except.bind, pure, Except.pure]
      · refine absurd ?_ (hstuck (.respond 0) trivial { u with
          inFlight := rest, l1d := D.fill u.l1d mf })
        simp [step, hlist, hbypass, fetch, bind, Except.bind, pure, Except.pure]
  have hmisses : D.misses u.l1d = 0 := by
    have hkeys := h.misses_eq
    rw [hflight, List.filter_nil, Multiset.coe_nil, Multiset.map_eq_zero] at hkeys
    exact hkeys
  rw [h.conserved, hflight, hmisses, hfilled, hglobal]
  simp

/-- Actions that bring accesses back end with all of them back. -/
theorem Routed.all_return (h : Routed cfg u) {as : List RouteAction} (has : ∀ a ∈ as, a.Returns)
    (hrun : as.foldlM (step cfg) u = .ok u') :
    as.length ≤ u.remaining ∧ ((∀ a, a.Returns → ∀ u'', u'.step cfg a ≠ .ok u'') →
      (↑u'.returned : Multiset MemFetch) = ↑u.sent) := by
  induction as generalizing u with
  | nil =>
    rw [foldlM_nil_eq_ok] at hrun
    subst hrun
    exact ⟨Nat.zero_le _, h.returned_of_stuck⟩
  | cons a as ih =>
    obtain ⟨m, hstep, hrest⟩ := foldlM_cons_eq_ok.mp hrun
    obtain ⟨hm, hsent, hremaining⟩ := h.returns (has a List.mem_cons_self) hstep
    obtain ⟨hlength, hback⟩ := ih hm (fun b hb => has b (List.mem_cons_of_mem _ hb)) hrest
    refine ⟨?_, fun hstuck => ?_⟩
    · rw [List.length_cons]
      omega
    · rw [hback hstuck, hsent]

/-- In a run without diverted responses the routes stay straight. -/
theorem Routed.of_reaches (h : Reaches (step cfg) (Straight cfg) (initial D) u) : Routed cfg u := by
  refine h.invariant (Routed cfg) routed_initial ?_
  intro v a v' hv hstraight hstep
  cases a with
  | send mf => exact hv.send (hstraight mf rfl) hstep
  | respond i => exact (hv.respond hstep).1
  | takeGlobal => exact (hv.take (.inl rfl) hstep).1
  | takeL1d => exact (hv.take (.inr rfl) hstep).1

/-- A fetch in flight is filled into the L1 exactly when accesses wait for it there, and they
wait for nothing else. -/
theorem Routed.fills_iff (h : Routed cfg u) :
    (∀ mf ∈ u.inFlight, mf.cacheOp.bypassL1DResponse cfg = false ↔
        ∃ merged, (mf, merged) ∈ D.misses u.l1d) ∧
      ∀ mf merged, (mf, merged) ∈ D.misses u.l1d → mf ∈ u.inFlight := by
  have hkeys : ∀ mf, (∃ merged, (mf, merged) ∈ D.misses u.l1d) ↔
      mf ∈ u.inFlight ∧ mf.cacheOp.bypassL1D cfg = false := by
    intro mf
    have hmem : mf ∈ (D.misses u.l1d).map Prod.fst ↔
        mf ∈ u.inFlight ∧ mf.cacheOp.bypassL1D cfg = false := by
      rw [h.misses_eq, Multiset.mem_coe, List.mem_filter, Bool.not_eq_true']
    rw [← hmem, Multiset.mem_map]
    constructor
    · rintro ⟨merged, hentry⟩
      exact ⟨(mf, merged), hentry, rfl⟩
    · rintro ⟨⟨mf', merged⟩, hentry, rfl⟩
      exact ⟨merged, hentry⟩
  constructor
  · intro mf hmf
    rw [(CacheOp.bypassL1DResponse_eq_iff cfg mf.cacheOp).mpr (h.straight mf hmf), hkeys]
    exact (and_iff_right hmf).symm
  · intro mf merged hentry
    exact ((hkeys mf).mp ⟨merged, hentry⟩).1

/-- Request and response take the same way unless the response is diverted. In a run without
diverted responses every fetch returns to the accesses that wait for it, and bringing accesses
back ends with all of them returned. -/
theorem routing_agrees (D : L1D) (cfg : Config) :
    (∀ op : CacheOp, op.bypassL1DResponse cfg = op.bypassL1D cfg ↔ ¬op.Diverts cfg) ∧
      (∀ inst : WarpInst, Shader.bypassL1DResponse cfg inst = Shader.bypassL1D cfg inst ↔
        ¬inst.cacheOp.Diverts cfg) ∧
      ∀ u, Reaches (step cfg) (Straight cfg) (initial D) u →
        ((∀ mf ∈ u.inFlight, mf.cacheOp.bypassL1DResponse cfg = false ↔
              ∃ merged, (mf, merged) ∈ D.misses u.l1d) ∧
            ∀ mf merged, (mf, merged) ∈ D.misses u.l1d → mf ∈ u.inFlight) ∧
          ∃ n, ∀ (as : List RouteAction) (u' : RouteUnit D), (∀ a ∈ as, a.Returns) →
            as.foldlM (step cfg) u = .ok u' →
              as.length ≤ n ∧ ((∀ a, a.Returns → ∀ u'', step cfg u' a ≠ .ok u'') →
                (↑u'.returned : Multiset MemFetch) = ↑u.sent) := by
  refine ⟨CacheOp.bypassL1DResponse_eq_iff cfg, fun inst => ?_, fun u hu => ?_⟩
  · rw [(Shader.bypassL1D_eq cfg inst).1, (Shader.bypassL1D_eq cfg inst).2]
    exact CacheOp.bypassL1DResponse_eq_iff cfg inst.cacheOp
  · have hrouted := Routed.of_reaches hu
    exact ⟨hrouted.fills_iff, u.remaining, fun as u' has hrun => hrouted.all_return has hrun⟩

/-- A cache of one block, with one miss at a time. -/
def sampleL1D : L1D where
  State := Option (MemFetch × List MemFetch) × List MemFetch
  initial := (none, [])
  access
    | (none, filled), mf => ((some (mf, [mf]), filled), .miss)
    | (some (primary, merged), filled), mf => ((some (primary, mf :: merged), filled), .hitReserved)
  fill
    | (some (primary, merged), filled), mf =>
      if primary = mf then (none, merged ++ filled) else (some (primary, merged), filled)
    | (none, filled), _ => (none, filled)
  nextAccess
    | (_, []) => none
    | (miss, mf :: filled) => some (mf, miss, filled)
  misses s := ↑(s.1.toList.map fun e => (e.1, (↑e.2 : Multiset MemFetch)))
  filled s := ↑s.2
  misses_initial := rfl
  filled_initial := rfl
  access_miss := by
    rintro ⟨_ | ⟨primary, merged⟩, filled⟩ mf s' h
    · cases h
      exact ⟨rfl, rfl⟩
    · cases h
  access_hitReserved := by
    rintro ⟨_ | ⟨primary, merged⟩, filled⟩ mf s' h
    · cases h
    · cases h
      exact ⟨primary, merged, 0, rfl, rfl, rfl⟩
  access_hit := by
    rintro ⟨_ | ⟨primary, merged⟩, filled⟩ mf s' h
    · cases h
    · cases h
  access_fail := by
    rintro ⟨_ | ⟨primary, merged⟩, filled⟩ mf s' h
    · cases h
    · cases h
  fill_miss := by
    rintro ⟨_ | ⟨primary, merged⟩, filled⟩ mf waiting rest _ h
    · exact absurd h.symm (Multiset.cons_ne_zero)
    · have hone : ({(primary, ↑merged)} : Multiset (MemFetch × Multiset MemFetch)) =
          (mf, waiting) ::ₘ rest := h
      rw [Multiset.singleton_eq_cons_iff, Prod.mk.injEq] at hone
      obtain ⟨⟨rfl, rfl⟩, rfl⟩ := hone
      simp
  nextAccess_none := by
    rintro ⟨miss, _ | ⟨mf, filled⟩⟩ h
    · rfl
    · cases h
  nextAccess_some := by
    rintro ⟨miss, _ | ⟨mf, filled⟩⟩ mf' s' h
    · cases h
    · cases h
      exact ⟨rfl, rfl⟩

/-- A core that skips the L1 for global loads, and access `i` of a queue load. -/
def sampleConfig : Config := { Config.sample 64 4 with gmemSkipL1D := true }

def sampleFetch (options : List PtxOption) (i : Nat) : MemFetch where
  requestUid := i
  kind := some .rfq
  cacheOp := PtxInst.cacheOp .ld options

/-- Two loads of one line, of which the second one sends no fetch. -/
theorem routing_agrees_of_merged_loads :
    ∃ u u' : RouteUnit sampleL1D,
      Reaches (step (Config.sample 64 4)) (Straight (Config.sample 64 4)) (initial sampleL1D) u ∧
        [.respond 0, .takeL1d, .takeL1d].foldlM (step (Config.sample 64 4)) u = .ok u' ∧
          (↑u'.returned : Multiset MemFetch) = ↑u.sent := by
  have hstraight : ∀ op : CacheOp, ¬op.Diverts (Config.sample 64 4) := by
    intro op h
    cases h.2.1
  let mf := sampleFetch [.rfq]
  let u : RouteUnit sampleL1D :=
    { l1d := (some (mf 0, [mf 1, mf 0]), []), inFlight := [mf 0], sent := [mf 0, mf 1] }
  have hu : Reaches (step (Config.sample 64 4)) (Straight (Config.sample 64 4))
      (initial sampleL1D) u :=
    ((Reaches.start.next (a := .send (mf 0)) (fun _ _ => hstraight _) rfl).next
      (a := .send (mf 1)) (fun _ _ => hstraight _) rfl)
  obtain ⟨_, _, hruns⟩ := routing_agrees sampleL1D (Config.sample 64 4)
  obtain ⟨_, n, hreturn⟩ := hruns u hu
  obtain ⟨_, hback⟩ := hreturn [.respond 0, .takeL1d, .takeL1d]
    { l1d := (none, []), returned := [mf 1, mf 0], sent := [mf 0, mf 1] }
    (by simp [RouteAction.Returns]) rfl
  refine ⟨u, _, hu, rfl, hback ?_⟩
  intro a ha u'' hstep
  cases a with
  | send mf => exact ha
  | respond i => cases hstep
  | takeGlobal => cases hstep
  | takeL1d => cases hstep

/-- Two non-coherent loads of one block: the response to the first passes by the L1, and the
second is never returned. -/
theorem diverted_response_strands :
    ∃ u : RouteUnit sampleL1D,
      Reaches (step sampleConfig) (fun _ _ => True) (initial sampleL1D) u ∧
        u.sent = [sampleFetch [.rfq, .nc] 0, sampleFetch [.rfq, .nc] 1] ∧
          u.returned = [sampleFetch [.rfq, .nc] 0] ∧
            ∀ a, a.Returns → ∀ u', u.step sampleConfig a ≠ .ok u' := by
  let mf := sampleFetch [.rfq, .nc]
  refine ⟨{ l1d := (some (mf 0, [mf 1, mf 0]), []), returned := [mf 0], sent := [mf 0, mf 1] },
    ?_, rfl, rfl, ?_⟩
  · exact (((Reaches.start.next (a := .send (mf 0)) trivial rfl).next
      (a := .send (mf 1)) trivial rfl).next (a := .respond 0) trivial rfl).next
        (a := .takeGlobal) trivial rfl
  · intro a ha u' hstep
    cases a with
    | send mf => exact ha
    | respond i => cases hstep
    | takeGlobal => cases hstep
    | takeL1d => cases hstep

end RouteUnit
end WaspSim
