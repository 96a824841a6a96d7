import WaspSim.Correctness.Creation
import WaspSim.Correctness.Residency

/-!
# Order-matched queue programs

A producer warp loads into a sequence of queues, and its consumer moves from the
same queues in the same order. The log tells how far both have come; what they
have done is always the beginning of the sequence, whatever other warps do.
-/

namespace WaspSim

namespace Log

/-- One event's effect on the queue ids that an original warp has used as a producer
(`load`) or as a consumer: a retirement of its CTA forgets them. -/
def trackId (load : Bool) (kind : QueueKind) (ctaHwId originalWarpId : Nat) (acc : List Nat) :
    Event → List Nat
  | .loaded inst _ _ =>
    if load = true ∧ inst.On kind ⟨ctaHwId, originalWarpId, 0, 1, inst.queueId⟩ then
      acc ++ [inst.queueId]
    else acc
  | .moved inst _ _ =>
    if load = false ∧ inst.On kind ⟨ctaHwId, originalWarpId, 0, 1, inst.queueId⟩ then
      acc ++ [inst.queueId]
    else acc
  | .retired c => if ctaHwId = c then [] else acc
  | _ => acc

/-- The queue ids that an original warp has used since its CTA was last retired. -/
def idsOf (load : Bool) (kind : QueueKind) (ctaHwId originalWarpId : Nat) (log : List Event) :
    List Nat :=
  log.foldl (trackId load kind ctaHwId originalWarpId) []

variable {kind : QueueKind} {c o id : Nat} {load : Bool} {log es : List Event}

theorem idsOf_append : idsOf load kind c o (log ++ es) =
    es.foldl (trackId load kind c o) (idsOf load kind c o log) := List.foldl_append

/-- An instruction counts for the queue id it names. -/
private theorem count_use {ρ : Type} {acc : List Nat} {rs : List ρ} (inst : WarpInst) (r : ρ)
    (h : acc.count id = rs.length) :
    (if inst.On kind ⟨c, o, 0, 1, inst.queueId⟩ then acc ++ [inst.queueId] else acc).count id =
      (if inst.On kind ⟨c, o, 0, 1, id⟩ then rs ++ [r] else rs).length := by
  by_cases hid : inst.queueId = id
  · subst hid
    split
    · rw [List.count_append, h, List.length_append, List.count_singleton_self]
      rfl
    · exact h
  · have hoff : ¬inst.On kind ⟨c, o, 0, 1, id⟩ := fun hon => hid (congrArg QueueKey.queueId hon.2)
    rw [if_neg hoff]
    split
    · rw [List.count_append, h, List.count_singleton]
      simp [hid]
    · exact h

/-- A producer has used a queue id once for every load on that queue. -/
theorem count_idsOf_load : (idsOf true kind c o log).count id =
    (loadsOf kind ⟨c, o, 0, 1, id⟩ log).length := by
  induction log using List.reverseRecOn with
  | nil => rfl
  | append_singleton log e ih =>
    rw [idsOf_append, loadsOf_append]
    cases e with
    | loaded inst executed value => simpa [trackId, trackLoad] using count_use inst _ ih
    | retired c' =>
      simp only [List.foldl_cons, List.foldl_nil, trackId, trackLoad]
      split
      · rfl
      · exact ih
    | moved inst executed written => simpa [trackId, trackLoad] using ih
    | answered u => exact ih
    | completed u => exact ih

/-- A consumer has used a queue id once for every move from that queue. -/
theorem count_idsOf_move : (idsOf false kind c o log).count id =
    (movesOf kind ⟨c, o, 0, 1, id⟩ log).length := by
  induction log using List.reverseRecOn with
  | nil => rfl
  | append_singleton log e ih =>
    rw [idsOf_append, movesOf_append]
    cases e with
    | moved inst executed written => simpa [trackId, trackMove] using count_use inst _ ih
    | retired c' =>
      simp only [List.foldl_cons, List.foldl_nil, trackId, trackMove]
      split
      · rfl
      · exact ih
    | loaded inst executed value => simpa [trackId, trackMove] using ih
    | answered u => exact ih
    | completed u => exact ih

end Log

/-- A producer and its consumer in a hardware CTA slot, and the queues that both use in
one order. -/
structure QueueProgram (cfg : Config) where
  kind : QueueKind
  ctaHwId : Nat
  /-- The local number of the producer. -/
  producer : Nat
  /-- The queue of each load and of each move. -/
  ids : List Nat
  /-- The vector specifier of the instructions on each queue. -/
  v3 : Nat → Bool
  /-- The other fields of each load (`true`) and move. -/
  vectorDst : Bool → Nat → Bool
  cacheOp : Bool → Nat → CacheOp
  enabled : cfg.enabled kind = true
  entries_pos : 0 < (cfg.options kind).entries
  producer_lt : producer < cfg.producerWarps kind
  consumer_lt : producer + cfg.producerWarps kind < cfg.warpsPerCta

namespace QueueProgram

variable {cfg : Config} {Mem : Type}

/-- The producer (`true`) or the consumer. -/
def warp (p : QueueProgram cfg) (load : Bool) : Nat :=
  p.ctaHwId * cfg.warpsPerCta + if load then p.producer else p.producer + cfg.producerWarps p.kind

/-- The queue of an id. -/
def key (p : QueueProgram cfg) (id : Nat) : QueueKey := ⟨p.ctaHwId, p.producer, 0, 1, id⟩

/-- The `n`-th queue instruction of the producer or the consumer. -/
def instAt (p : QueueProgram cfg) (load : Bool) (n : Nat) : Option QueueInst :=
  p.ids[n]?.map fun id =>
    { kind := p.kind, load, queueId := id, v3 := p.v3 id, vectorDst := p.vectorDst load n,
      cacheOp := p.cacheOp load n }

/-- The queue ids that the producer or the consumer has used. -/
def done (p : QueueProgram cfg) (load : Bool) (log : List Event) : List Nat :=
  Log.idsOf load p.kind p.ctaHwId p.producer log

/-- The next queue instruction of the producer or the consumer. -/
def next (p : QueueProgram cfg) (load : Bool) (log : List Event) : Option QueueInst :=
  p.instAt load (p.done load log).length

/-- The producer and the consumer test and issue their queue instructions of this kind
in program order. -/
def Follows (p : QueueProgram cfg) (m : Shader Mem × List Event) (a : Action Mem) : Prop :=
  ∀ n ∈ a.named?, ∀ load, n.1 = p.warp load → n.2.kind = p.kind → p.next load m.2 = some n.2

instance (p : QueueProgram cfg) (m : Shader Mem × List Event) (a : Action Mem) :
    Decidable (p.Follows m a) := inferInstanceAs (Decidable (∀ n ∈ a.named?, _))

/-- An instruction of the program has the queue id of its place. -/
theorem instAt_eq_some {p : QueueProgram cfg} {load : Bool} {n : Nat} {inst : QueueInst}
    (h : p.instAt load n = some inst) :
    p.ids[n]? = some inst.queueId ∧ inst.load = load ∧ inst.v3 = p.v3 inst.queueId := by
  obtain ⟨id, hid, rfl⟩ := Option.map_eq_some_iff.mp h
  exact ⟨hid, rfl, rfl⟩

end QueueProgram
end WaspSim
