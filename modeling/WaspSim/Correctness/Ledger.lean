import WaspSim.Correctness.Tracks

/-!
# What one step books

The counters of a core record every reservation, consumption and answer. A step
changes them by as much as it changes the occupancies and the awaited responses
of the queues, apart from what it drops with a table entry and the accesses that
its loads generate.
-/

namespace WaspSim

/-- The slots of a ring wait for the responses that its window waits for. -/
theorem Represents.outstanding_eq {α : Type} {q : Queue} {f : Fifo (Item α)}
    (h : Represents q f) : q.outstanding = f.weight fun i => i.total - i.marked := by
  let z : Entry := { lanePayload := List.replicate (q.warpSize * q.payloadWordsPerLane) 0 }
  refine h.shows.sum_eq (z := z) ?_ ?_ ⟨rfl, rfl, rfl, by simp [z]⟩
  · intro t i e hlive
    have hstate : e.state ≠ .free := by
      rw [hlive.state_eq]
      unfold Queue.stateFor
      split
      · simp
      · simp
    rw [if_neg hstate, hlive.pending_eq]
  · intro e hfree
    rw [if_pos hfree.state_eq]

namespace Shader

variable {Mem : Type} {cfg : Config} {kind : QueueKind} {key : QueueKey} {s s' : Shader Mem}
  {f : Fifo (Item Nat)} {es : List Event} {read : Mem → BitVec 64 → Nat → BitVec 64}

/-- The entries in all queues of a kind. -/
def occupied (s : Shader Mem) (kind : QueueKind) : Nat := (s.tables kind).total Queue.occupancy

/-- The responses that all queues of a kind wait for. -/
def awaited (s : Shader Mem) (kind : QueueKind) : Nat := (s.tables kind).total Queue.outstanding

/-- The entries in the queues that a step drops. -/
def droppedEntries (s s' : Shader Mem) (kind : QueueKind) : Nat :=
  ((s.tables kind).without (s'.tables kind)).total Queue.occupancy

/-- The responses that the queues dropped by a step waited for. -/
def droppedResponses (s s' : Shader Mem) (kind : QueueKind) : Nat :=
  ((s.tables kind).without (s'.tables kind)).total Queue.outstanding

/-- The accesses generated by the queue loads of a log. -/
def generated (kind : QueueKind) (log : List Event) : Nat :=
  (((Log.loads log).filter fun r => r.inst.kind == kind).map fun r => r.inst.accessqCount).sum

/-- Every key holds a window. -/
def Sound (cfg : Config) (s : Shader Mem) : Prop := ∀ kind key, ∃ f, Holds cfg kind key s f

/-- The books of one kind balance over a step. -/
structure Booked (cfg : Config) (kind : QueueKind) (s s' : Shader Mem) (es : List Event) :
    Prop where
  entries_eq : (s'.stats kind).reservations + (s.stats kind).consumes + s.occupied kind =
    (s.stats kind).reservations + (s'.stats kind).consumes + s'.occupied kind +
      droppedEntries s s' kind
  responses_eq : (s'.stats kind).memoryFills + s'.awaited kind + droppedResponses s s' kind =
    (s.stats kind).memoryFills + s.awaited kind + generated kind es
  maxOccupancy_mono : (s.stats kind).maxOccupancy ≤ (s'.stats kind).maxOccupancy
  maxOccupancy_le : (s.stats kind).maxOccupancy ≤ (cfg.options kind).entries →
    (s'.stats kind).maxOccupancy ≤ (cfg.options kind).entries
  occupancy_le : (∀ k, (s.tables kind).share Queue.occupancy k ≤ (s.stats kind).maxOccupancy) →
    ∀ k, (s'.tables kind).share Queue.occupancy k ≤ (s'.stats kind).maxOccupancy

/-- Counters that agree where the books look. -/
structure SameCounts (c c' : QueueStats) : Prop where
  reservations_eq : c'.reservations = c.reservations
  consumes_eq : c'.consumes = c.consumes
  memoryFills_eq : c'.memoryFills = c.memoryFills
  maxOccupancy_eq : c'.maxOccupancy = c.maxOccupancy

theorem SameCounts.of_eq {c c' : QueueStats} (h : c' = c) : SameCounts c c' :=
  h ▸ ⟨rfl, rfl, rfl, rfl⟩

theorem SameCounts.trans {a b c : QueueStats} (hab : SameCounts a b) (hbc : SameCounts b c) :
    SameCounts a c :=
  ⟨hbc.reservations_eq.trans hab.reservations_eq, hbc.consumes_eq.trans hab.consumes_eq,
    hbc.memoryFills_eq.trans hab.memoryFills_eq, hbc.maxOccupancy_eq.trans hab.maxOccupancy_eq⟩

/-- The share of a queue depends on that queue only. -/
theorem share_congr {g : Queue → Nat} (h : s'.queue? kind key = s.queue? kind key) :
    (s'.tables kind).share g key = (s.tables kind).share g key := by
  unfold queue? at h
  unfold QueueTable.share
  rw [h]

/-- The shares of a key that holds a window. -/
theorem Holds.share_eq (h : Holds cfg kind key s f) :
    (s.tables kind).share Queue.occupancy key = f.items.length ∧
      (s.tables kind).share Queue.outstanding key = f.weight Item.pending := by
  rcases h with ⟨hnone, rfl⟩ | ⟨q, hq, _, hrep⟩
  · have hmem : key ∉ s.tables kind := AList.lookup_eq_none.mp hnone
    rw [QueueTable.share_of_not_mem hmem, QueueTable.share_of_not_mem hmem]
    exact ⟨rfl, rfl⟩
  · rw [QueueTable.share_of_lookup hq, QueueTable.share_of_lookup hq, hrep.outstanding_eq]
    exact ⟨hrep.occupancy_eq, rfl⟩

/-- A step that keeps the counters and the share of every queue it keeps. -/
theorem Booked.of_keep (hcounts : SameCounts (s.stats kind) (s'.stats kind))
    (hgenerated : generated kind es = 0)
    (hshare : ∀ k, k ∈ s'.tables kind →
      (s'.tables kind).share Queue.occupancy k = (s.tables kind).share Queue.occupancy k ∧
        (s'.tables kind).share Queue.outstanding k = (s.tables kind).share Queue.outstanding k) :
    Booked cfg kind s s' es where
  entries_eq := by
    have hkeep := QueueTable.total_keep fun k hk => (hshare k hk).1
    rw [hcounts.reservations_eq, hcounts.consumes_eq]
    unfold occupied droppedEntries
    omega
  responses_eq := by
    have hkeep := QueueTable.total_keep fun k hk => (hshare k hk).2
    rw [hcounts.memoryFills_eq, hgenerated]
    unfold awaited droppedResponses
    omega
  maxOccupancy_mono := hcounts.maxOccupancy_eq.ge
  maxOccupancy_le hle := hcounts.maxOccupancy_eq.symm ▸ hle
  occupancy_le hle k := by
    rw [hcounts.maxOccupancy_eq]
    by_cases hk : k ∈ s'.tables kind
    · rw [(hshare k hk).1]
      exact hle k
    · rw [QueueTable.share_of_not_mem hk]
      exact Nat.zero_le _

/-- A step that changes one queue: `r` reservations, `c` consumptions, `m` answers and
`g` generated accesses. -/
theorem Booked.of_change {r c m g : Nat}
    (hothers : ∀ k, k ≠ key → s'.queue? kind k = s.queue? kind k)
    (hmem : key ∈ s'.tables kind)
    (hoccupancy : (s'.tables kind).share Queue.occupancy key + c =
      (s.tables kind).share Queue.occupancy key + r)
    (houtstanding : (s'.tables kind).share Queue.outstanding key + m =
      (s.tables kind).share Queue.outstanding key + g)
    (hreservations : (s'.stats kind).reservations = (s.stats kind).reservations + r)
    (hconsumes : (s'.stats kind).consumes = (s.stats kind).consumes + c)
    (hfills : (s'.stats kind).memoryFills = (s.stats kind).memoryFills + m)
    (hgenerated : generated kind es = g)
    (hmax : (s'.stats kind).maxOccupancy = (s.stats kind).maxOccupancy ∧ r ≤ c ∨
      (s'.stats kind).maxOccupancy = max (s.stats kind).maxOccupancy
          ((s'.tables kind).share Queue.occupancy key) ∧
        (s'.tables kind).share Queue.occupancy key ≤ (cfg.options kind).entries) :
    Booked cfg kind s s' es where
  entries_eq := by
    have hchange := QueueTable.total_change (g := Queue.occupancy) (a := c) (b := r)
      (fun k hk _ => share_congr (hothers k hk))
      (by rw [QueueTable.share_without, if_pos hmem, Nat.add_zero]; exact hoccupancy)
    rw [hreservations, hconsumes]
    unfold occupied droppedEntries
    omega
  responses_eq := by
    have hchange := QueueTable.total_change (g := Queue.outstanding) (a := m) (b := g)
      (fun k hk _ => share_congr (hothers k hk))
      (by rw [QueueTable.share_without, if_pos hmem, Nat.add_zero]; exact houtstanding)
    rw [hfills, hgenerated]
    unfold awaited droppedResponses
    omega
  maxOccupancy_mono := by
    rcases hmax with ⟨hmax, _⟩ | ⟨hmax, _⟩
    · exact hmax.ge
    · rw [hmax]
      exact Nat.le_max_left _ _
  maxOccupancy_le hle := by
    rcases hmax with ⟨hmax, _⟩ | ⟨hmax, hroom⟩
    · exact hmax.symm ▸ hle
    · rw [hmax]
      exact Nat.max_le.mpr ⟨hle, hroom⟩
  occupancy_le hle k := by
    by_cases hk : k = key
    · subst hk
      rcases hmax with ⟨hmax, hrc⟩ | ⟨hmax, _⟩
      · have hold := hle k
        rw [hmax]
        omega
      · rw [hmax]
        exact Nat.le_max_right _ _
    · rw [share_congr (hothers k hk)]
      have hold := hle k
      rcases hmax with ⟨hmax, _⟩ | ⟨hmax, _⟩
      · rw [hmax]
        exact hold
      · rw [hmax]
        exact hold.trans (Nat.le_max_left _ _)

end Shader
end WaspSim
