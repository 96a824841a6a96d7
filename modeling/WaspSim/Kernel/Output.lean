import WaspSim.Kernel.Handoff

/-!
# What the grid loads and writes

Along every run of the grid each load sees the element that its producer stored in the
same chunk, and each element of the output is written at most once, with its value.
When all threads are done every element has been written.
-/

namespace WaspSim
namespace StreamFma

variable {α : Type} {l : Launch α}

/-- The assignments to the output, in order. -/
def writes (log : List (Event α)) : List (Nat × α) :=
  log.filterMap fun
    | .write i v => some (i, v)
    | _ => none

/-- All threads of the grid are done. -/
def Complete (l : Launch α) (g : Grid α) : Prop :=
  ∀ c < l.blocks, ∀ tid, ((g.ctas c).threads tid).chunk = l.kChunksPerCta

/-- An element of the output has been written when its consumer is beyond its chunk. -/
def Done (l : Launch α) (g : Grid α) (i : Nat) : Prop :=
  ∃ c tid chunk, c < l.blocks ∧ ¬producer tid ∧ chunk < ((g.ctas c).threads tid).chunk ∧
    i = l.idx c chunk (roleThread tid)

/-- Every element that a producer stored is in the log, and a load sees the element that
its producer stored in the same chunk. -/
structure Accesses (l : Launch α) (g : Grid α) (log : List (Event α)) : Prop where
  stored : ∀ c < l.blocks, ∀ t, producer t → ∀ x chunk,
    chunk < ((g.ctas c).threads t).stores x →
    Event.store c t chunk x (l.input x (l.idx c chunk (roleThread t))) ∈ log
  loads : ∀ c t chunk x v, Event.load c t chunk x v ∈ log →
    v = l.input x (l.idx c chunk (roleThread t)) ∧ Event.store c (partner t) chunk x v ∈ log

/-- The elements that have been written are written once and hold their values. -/
structure Outputs (l : Launch α) (g : Grid α) (log : List (Event α)) : Prop where
  nodup : ((writes log).map Prod.fst).Nodup
  mem_iff : ∀ i, i ∈ (writes log).map Prod.fst ↔ Done l g i
  values : ∀ i v, (i, v) ∈ writes log → i < l.n ∧ v = l.value i ∧ g.out i = v

/-- What holds of a grid and its memory accesses along every run. -/
structure GridInv (l : Launch α) (g : Grid α) (log : List (Event α)) : Prop where
  ctas : ∀ c < l.blocks, CtaInv l c (g.ctas c)
  accesses : Accesses l g log
  outputs : Outputs l g log

variable {g g' : Grid α} {log : List (Event α)} {c : Nat} {tid : Tid} {b' : Cta α}
  {es : List (Event α)}

/-- A step of the grid moves one thread of one CTA. -/
theorem step_cases {a : Nat × Tid} (h : step l g a = .ok (g', es)) :
    a.1 < l.blocks ∧ ∃ b', (g.ctas a.1).step l a.1 a.2 = .ok (b', es) ∧
      g' = ⟨Function.update g.ctas a.1 b', es.foldl Event.apply g.out⟩ := by
  simp only [step, bind_eq_ok, require_eq_ok, pure_eq_ok, Prod.exists, Prod.mk.injEq] at h
  obtain ⟨_, hblock, b', es', hstep, rfl, rfl⟩ := h
  exact ⟨hblock, b', hstep, rfl⟩

theorem GridInv.initial {g : Grid α} (h : g.Initial) : GridInv l g [] where
  ctas c _ := by
    refine ⟨⟨fun t => ?_, fun t => ?_, ?_⟩, fun t _ x => ?_, fun t x hx => ?_⟩
    · rw [(h c t).1]
      exact Nat.zero_le _
    · rw [(h c t).2]
      exact trivial
    · have harrivals : (fun t => ((g.ctas c).threads t).arrivals) = fun _ => 0 := by
        funext t
        simp [Thread.arrivals, h c t]
      have hpasses : (fun t => ((g.ctas c).threads t).passes) = fun _ => 0 := by
        funext t
        simp [Thread.passes, h c t]
      rw [harrivals, hpasses]
      exact .start
    · have hstores : ((g.ctas c).threads t).stores x = 0 := by
        simp [Thread.stores, h c t]
      rw [hstores]
      exact .empty
    · simp [Thread.Loaded, h c t] at hx
  accesses := by
    refine ⟨fun c _ t _ x chunk hlt => ?_, fun c t chunk x v hmem => ?_⟩
    · simp [Thread.stores, h c t] at hlt
    · cases hmem
  outputs := by
    refine ⟨List.nodup_nil, fun i => ⟨fun hmem => ?_, ?_⟩, fun i v hmem => ?_⟩
    · cases hmem
    · rintro ⟨c, t, chunk, _, _, hlt, _⟩
      rw [(h c t).1] at hlt
      exact absurd hlt (Nat.not_lt_zero _)
    · cases hmem

variable {b : Cta α} {t : Tid}

/-- A thread that does not move stays as it is. -/
theorem Moves.threads_of_ne (hm : Moves l c b tid b' es) (ht : t ≠ tid) :
    b'.threads t = b.threads t := by
  cases hm <;> exact Function.update_of_ne ht _ _

/-- A producer's element more is one that this move stores. -/
theorem Moves.stores_cases (hm : Moves l c b tid b' es) (ht : producer t) {x : Input}
    {chunk : Nat} (hlt : chunk < (b'.threads t).stores x) :
    chunk < (b.threads t).stores x ∨
      Event.store c t chunk x (l.input x (l.idx c chunk (roleThread t))) ∈ es := by
  by_cases heq : t = tid
  · subst heq
    cases hm with
    | toStore hpc htid =>
      left
      simpa [Thread.stores, hpc, Input.rank] using hlt
    | toSync hpc htid => exact absurd ht htid
    | store y v hpc hv =>
      simp only [Cta.setThread_threads, Function.update_self] at hlt
      rw [Thread.stores_afterStore hpc] at hlt
      split at hlt
      · rename_i hxy
        subst hxy
        rw [Thread.stores_store hpc] at hlt ⊢
        rcases Nat.lt_succ_iff_lt_or_eq.mp hlt with hold | rfl
        · exact .inl hold
        · right
          rw [hv]
          exact List.mem_singleton_self _
      · exact .inl hlt
    | arrive hpc =>
      left
      simpa [Thread.stores, hpc] using hlt
    | pass hpc hall =>
      left
      simpa [Thread.stores, hpc] using hlt
    | toLoad hpc htid => exact absurd ht htid
    | skip hpc htid =>
      left
      simpa [Thread.next, Thread.stores, hpc] using hlt
    | load y v hpc hv =>
      left
      cases y <;> simpa [Thread.stores, hpc, Pc.afterLoad] using hlt
    | write v hpc hv =>
      left
      simpa [Thread.next, Thread.stores, hpc] using hlt
  · rw [hm.threads_of_ne heq] at hlt
    exact .inl hlt

/-- A load is of the moving thread, in its chunk. -/
theorem Moves.load_mem (hm : Moves l c b tid b' es) {c' chunk : Nat} {x : Input} {v : α}
    (hmem : Event.load c' t chunk x v ∈ es) :
    c' = c ∧ t = tid ∧ chunk = (b.threads tid).chunk ∧ (b.threads tid).pc = .load x ∧
      v = b.smem x ((b.threads tid).chunk % 2) (roleThread tid) := by
  cases hm with
  | load y w hpc hv =>
    rw [List.mem_singleton, Event.load.injEq] at hmem
    obtain ⟨rfl, rfl, rfl, rfl, rfl⟩ := hmem
    exact ⟨rfl, rfl, rfl, hpc, hv⟩
  | store y w hpc hv => cases List.mem_singleton.mp hmem
  | write w hpc hv => cases List.mem_singleton.mp hmem
  | _ => cases hmem

/-- A move either writes the element of a consumer's chunk and goes on to the next one, or
writes nothing and leaves the chunks of the consumers as they are. -/
theorem Moves.write_cases (hm : Moves l c b tid b' es) :
    ((b.threads tid).pc = .write ∧ b' = b.setThread tid (b.threads tid).next ∧
      es = [.write (l.idx c (b.threads tid).chunk (roleThread tid))
        (streamFmaValue l.ops ((b.threads tid).reg .a) ((b.threads tid).reg .b)
          ((b.threads tid).reg .c) l.computeIters)]) ∨
    writes es = [] ∧ (∀ out : Nat → α, es.foldl Event.apply out = out) ∧
      ∀ t, ¬producer t → (b'.threads t).chunk = (b.threads t).chunk := by
  have hkept : ∀ {th : Thread α}, th.chunk = (b.threads tid).chunk → ∀ t, ¬producer t →
      (Function.update b.threads tid th t).chunk = (b.threads t).chunk := by
    intro th hth t _
    by_cases ht : t = tid
    · rw [ht, Function.update_self, hth]
    · rw [Function.update_of_ne ht]
  cases hm with
  | write v hpc hv =>
    subst hv
    exact .inl ⟨hpc, rfl, rfl⟩
  | skip hpc htid =>
    right
    refine ⟨rfl, fun _ => rfl, fun t ht => ?_⟩
    have hne : t ≠ tid := by
      rintro rfl
      exact ht htid
    simp only [Cta.setThread_threads, Function.update_of_ne hne]
  | toStore hpc htid => exact .inr ⟨rfl, fun _ => rfl, hkept rfl⟩
  | toSync hpc htid => exact .inr ⟨rfl, fun _ => rfl, hkept rfl⟩
  | store x v hpc hv => exact .inr ⟨rfl, fun _ => rfl, hkept rfl⟩
  | arrive hpc => exact .inr ⟨rfl, fun _ => rfl, hkept rfl⟩
  | pass hpc hall => exact .inr ⟨rfl, fun _ => rfl, hkept rfl⟩
  | toLoad hpc htid => exact .inr ⟨rfl, fun _ => rfl, hkept rfl⟩
  | load x v hpc hv => exact .inr ⟨rfl, fun _ => rfl, hkept rfl⟩

theorem writes_append (log es : List (Event α)) : writes (log ++ es) = writes log ++ writes es :=
  List.filterMap_append

/-- A move keeps what is known of the accesses. -/
theorem Accesses.moves (h : Accesses l g log) (hinv : CtaInv l c (g.ctas c)) (hc : c < l.blocks)
    (hm : Moves l c (g.ctas c) tid b' es) {out : Nat → α} :
    Accesses l ⟨Function.update g.ctas c b', out⟩ (log ++ es) := by
  constructor
  · intro c' hc' t ht x chunk hlt
    rw [List.mem_append]
    by_cases heq : c' = c
    · subst heq
      simp only [Function.update_self] at hlt
      rcases hm.stores_cases ht hlt with hold | hnew
      · exact .inl (h.stored c' hc' t ht x chunk hold)
      · exact .inr hnew
    · simp only [Function.update_of_ne heq] at hlt
      exact .inl (h.stored c' hc' t ht x chunk hlt)
  · intro c' t chunk x v hmem
    rcases List.mem_append.mp hmem with hold | hnew
    · obtain ⟨hv, hstore⟩ := h.loads c' t chunk x v hold
      exact ⟨hv, List.mem_append_left _ hstore⟩
    · obtain ⟨rfl, rfl, rfl, hpc, rfl⟩ := hm.load_mem hnew
      have hv := hinv.load_eq hpc
      refine ⟨hv, List.mem_append_left _ ?_⟩
      have hlow := (hinv.control.window hpc x).1
      have hstored := h.stored c' hc _ (producer_partner t) x _ hlow
      rwa [roleThread_partner, ← hv] at hstored

/-- Without a write the outputs are as before. -/
theorem Outputs.silent (h : Outputs l g log) (hes : writes es = [])
    (hchunk : ∀ t, ¬producer t → (b'.threads t).chunk = ((g.ctas c).threads t).chunk) :
    Outputs l ⟨Function.update g.ctas c b', g.out⟩ (log ++ es) := by
  have hwrites : writes (log ++ es) = writes log := by
    rw [writes_append, hes, List.append_nil]
  have hsame : ∀ c' t, ¬producer t →
      ((Function.update g.ctas c b' c').threads t).chunk = ((g.ctas c').threads t).chunk := by
    intro c' t ht
    by_cases heq : c' = c
    · rw [heq, Function.update_self]
      exact hchunk t ht
    · rw [Function.update_of_ne heq]
  refine ⟨hwrites ▸ h.nodup, fun i => ?_, fun i v hmem => ?_⟩
  · rw [hwrites, h.mem_iff i]
    constructor
    · rintro ⟨c', t, chunk, hc', ht, hlt, rfl⟩
      exact ⟨c', t, chunk, hc', ht, by rwa [hsame c' t ht], rfl⟩
    · rintro ⟨c', t, chunk, hc', ht, hlt, rfl⟩
      rw [hsame c' t ht] at hlt
      exact ⟨c', t, chunk, hc', ht, hlt, rfl⟩
  · rw [hwrites] at hmem
    exact h.values i v hmem

/-- What a consumer writes is the value of its element. -/
theorem CtaInv.write_eq (h : CtaInv l c b) (hpc : (b.threads tid).pc = .write) :
    streamFmaValue l.ops ((b.threads tid).reg .a) ((b.threads tid).reg .b)
        ((b.threads tid).reg .c) l.computeIters =
      l.value (l.idx c (b.threads tid).chunk (roleThread tid)) := by
  have hloaded : ∀ x, (b.threads tid).Loaded x := by
    intro x
    simp [Thread.Loaded, hpc]
  rw [h.registers tid .a (hloaded .a), h.registers tid .b (hloaded .b),
    h.registers tid .c (hloaded .c)]
  rfl

/-- A consumer's write adds the element of its chunk. -/
theorem done_next (hc : c < l.blocks) (htid : ¬producer tid) {out : Nat → α} (i : Nat) :
    Done l ⟨Function.update g.ctas c ((g.ctas c).setThread tid ((g.ctas c).threads tid).next), out⟩
        i ↔
      Done l g i ∨ i = l.idx c ((g.ctas c).threads tid).chunk (roleThread tid) := by
  have hchunk : ∀ c' t, ((Function.update g.ctas c
      ((g.ctas c).setThread tid ((g.ctas c).threads tid).next) c').threads t).chunk =
      if c' = c ∧ t = tid then ((g.ctas c).threads tid).chunk + 1
      else ((g.ctas c').threads t).chunk := by
    intro c' t
    by_cases heq : c' = c
    · subst heq
      by_cases ht : t = tid
      · subst ht
        simp [Thread.next]
      · simp [ht]
    · simp [heq]
  constructor
  · rintro ⟨c', t, chunk, hc', ht, hlt, rfl⟩
    rw [hchunk] at hlt
    split at hlt
    · rename_i heq
      obtain ⟨rfl, rfl⟩ := heq
      rcases Nat.lt_succ_iff_lt_or_eq.mp hlt with hold | rfl
      · exact .inl ⟨c', t, chunk, hc', ht, hold, rfl⟩
      · exact .inr rfl
    · exact .inl ⟨c', t, chunk, hc', ht, hlt, rfl⟩
  · rintro (⟨c', t, chunk, hc', ht, hlt, rfl⟩ | rfl)
    · refine ⟨c', t, chunk, hc', ht, ?_, rfl⟩
      rw [hchunk]
      split
      · rename_i heq
        obtain ⟨rfl, rfl⟩ := heq
        exact Nat.lt_succ_of_lt hlt
      · exact hlt
    · refine ⟨c, tid, _, hc, htid, ?_, rfl⟩
      rw [hchunk, if_pos ⟨rfl, rfl⟩]
      exact Nat.lt_succ_self _

/-- A write adds an element that has not been written yet, with its value. -/
theorem Outputs.write (h : Outputs l g log) (hinv : ∀ c < l.blocks, CtaInv l c (g.ctas c))
    (hc : c < l.blocks) (hchunk : ((g.ctas c).threads tid).chunk < l.kChunksPerCta)
    (hpc : ((g.ctas c).threads tid).pc = .write) :
    Outputs l
      ⟨Function.update g.ctas c ((g.ctas c).setThread tid ((g.ctas c).threads tid).next),
        Function.update g.out (l.idx c ((g.ctas c).threads tid).chunk (roleThread tid))
          (l.value (l.idx c ((g.ctas c).threads tid).chunk (roleThread tid)))⟩
      (log ++ [.write (l.idx c ((g.ctas c).threads tid).chunk (roleThread tid))
        (l.value (l.idx c ((g.ctas c).threads tid).chunk (roleThread tid)))]) := by
  have htid : ¬producer tid := by
    have hallowed := (hinv c hc).control.allowed tid
    rwa [hpc] at hallowed
  -- the element is not done: its consumer is still in the chunk
  have hfresh : ¬Done l g (l.idx c ((g.ctas c).threads tid).chunk (roleThread tid)) := by
    rintro ⟨c', t, chunk, hc', ht, hlt, heq⟩
    have hle := (hinv c' hc').control.chunk_le t
    obtain ⟨rfl, rfl, hrole⟩ := Launch.idx_injective hc hchunk (roleThread_lt tid) hc'
      (hlt.trans_le hle) (roleThread_lt t) heq
    have hval : tid = t := by
      unfold roleThread at hrole
      rw [if_neg htid, if_neg ht] at hrole
      unfold producer kProducerThreads at *
      apply Fin.ext
      omega
    rw [hval] at hlt
    exact Nat.lt_irrefl _ hlt
  have hnew := h.mem_iff (l.idx c ((g.ctas c).threads tid).chunk (roleThread tid))
  refine ⟨?_, fun i => ?_, fun i v hmem => ?_⟩
  · rw [writes_append, List.map_append, List.nodup_append]
    refine ⟨h.nodup, List.nodup_singleton _, ?_⟩
    intro i hi j hj heq
    obtain rfl := List.mem_singleton.mp hj
    rw [heq] at hi
    exact hfresh (hnew.mp hi)
  · rw [done_next hc htid, writes_append, List.map_append, List.mem_append, h.mem_iff i]
    exact or_congr Iff.rfl List.mem_singleton
  · rw [writes_append, List.mem_append] at hmem
    rcases hmem with hold | hlast
    · obtain ⟨hlt, hv, hout⟩ := h.values i v hold
      refine ⟨hlt, hv, ?_⟩
      have hne : i ≠ l.idx c ((g.ctas c).threads tid).chunk (roleThread tid) := by
        rintro rfl
        exact hfresh (hnew.mp (List.mem_map_of_mem hold))
      exact (Function.update_of_ne hne _ _).trans hout
    · obtain ⟨rfl, rfl⟩ := Prod.mk.injEq _ _ _ _ ▸ List.mem_singleton.mp hlast
      exact ⟨Launch.idx_lt hc hchunk (roleThread_lt tid), rfl, Function.update_self _ _ _⟩

/-- A step of the grid keeps its invariant. -/
theorem GridInv.step {a : Nat × Tid} (h : GridInv l g log) (hstep : step l g a = .ok (g', es)) :
    GridInv l g' (log ++ es) := by
  obtain ⟨hc, b', hcta, rfl⟩ := step_cases hstep
  obtain ⟨hchunk, hm⟩ := Cta.step_cases hc hcta
  refine ⟨fun c hc' => ?_, h.accesses.moves (h.ctas a.1 hc) hc hm, ?_⟩
  · change CtaInv l c (Function.update g.ctas a.1 b' c)
    by_cases heq : c = a.1
    · rw [heq, Function.update_self]
      exact (h.ctas a.1 hc).moves hchunk hm
    · rw [Function.update_of_ne heq]
      exact h.ctas c hc'
  · rcases hm.write_cases with ⟨hpc, rfl, rfl⟩ | ⟨hes, hout, hkept⟩
    · rw [(h.ctas a.1 hc).write_eq hpc]
      exact h.outputs.write h.ctas hc hchunk hpc
    · rw [hout]
      exact h.outputs.silent hes hkept

end StreamFma
end WaspSim
