import Mathlib.Algebra.Order.BigOperators.Group.Finset
import WaspSim.Correctness.Creation
import WaspSim.Correctness.Runs
import WaspSim.Occupancy.MaxCta

/-!
# Storage charged to a CTA

A CTA is charged for the queues of its producers. A queue also appears for a
consumer that is only tested, so the charge covers the live queues as long as
every key that is looked up belongs to a producer, and each original warp uses no
more queue ids than the metadata tells.
-/

namespace WaspSim

/-- How many CTAs have left a hardware slot. -/
def Log.generation (ctaHwId : Nat) (log : List Event) : Nat :=
  log.countP fun
    | .retired c => c == ctaHwId
    | _ => false

/-- The occupancy options of a core. -/
def Config.occupancy (cfg : Config) (caps : Capacities) (countRegisterPressure : Bool) :
    OccupancyConfig :=
  { caps with
    warpSize := cfg.warpSize
    warpSize_pos := cfg.warpSize_pos
    gpgpuWaspEnable := cfg.gpgpuWaspEnable
    rfq := cfg.rfq
    countRegisterPressure
    smemq := cfg.smemq }

/-- The queue ids that each original warp of each CTA uses, the CTAs of a hardware slot
being numbered by those before them. -/
structure QueueUse (cfg : Config) where
  ids : QueueKind → (ctaHwId generation originalWarpId : Nat) → Finset Nat
  card_le : ∀ kind c g o, (ids kind c g o).card ≤ (cfg.options kind).queuesPerOriginalWarp

namespace Shader

variable {Mem : Type} {cfg : Config} {use : QueueUse cfg} {kind : QueueKind} {s s' : Shader Mem}
  {log es : List Event} {mem : Mem} {a : Action Mem} {read : Mem → BitVec 64 → Nat → BitVec 64}

/-- A key that the metadata provides for: of a producer, and with an id in use. -/
structure Provided (use : QueueUse cfg) (kind : QueueKind) (log : List Event) (key : QueueKey) :
    Prop where
  producer : key.originalWarpId < cfg.producerWarps kind
  inUse : key.queueId ∈ use.ids kind key.ctaHwId (Log.generation key.ctaHwId log)
    key.originalWarpId

/-- Queue instructions agree with the metadata and name queues it provides for. -/
def Conforms (use : QueueUse cfg) (m : Shader Mem × List Event) (a : Action Mem) : Prop :=
  ∀ w inst, a.named? = some (w, inst) →
    inst.payloadWords ≤ (cfg.options inst.kind).payloadWordsPerLane ∧
      ∀ key, keyForWarp inst.kind cfg m.1 w inst.queueId = .ok key → Provided use inst.kind m.2 key

/-- The words that the queues of a hardware CTA hold. -/
def queueWords (s : Shader Mem) (kind : QueueKind) (ctaHwId : Nat) : Nat :=
  (((s.tables kind).entries.filter fun e => e.1.ctaHwId == ctaHwId).map fun e =>
    e.2.entries * e.2.payloadWordsPerLane * e.2.warpSize).sum

/-- A queue that its CTA is charged for. -/
structure Charged (use : QueueUse cfg) (kind : QueueKind) (log : List Event) (key : QueueKey)
    (q : Queue) : Prop where
  enabled : cfg.enabled kind = true
  source : key.srcStageId = 0
  destination : key.dstStageId = 1
  provided : Provided use kind log key
  width : q.payloadWordsPerLane ≤ (cfg.options kind).payloadWordsPerLane

/-- Every queue of a core is charged for. -/
def Stored (use : QueueUse cfg) (s : Shader Mem) (log : List Event) : Prop :=
  ∀ kind key q, s.queue? kind key = some q → Charged use kind log key q

/-- A step that leaves a queue behind does not retire its CTA. -/
private theorem AccessStep.generation_eq (h : AccessStep cfg read s a s' es) {key : QueueKey}
    {q : Queue} (hq : s'.queue? kind key = some q) :
    Log.generation key.ctaHwId (log ++ es) = Log.generation key.ctaHwId log := by
  have happend : ∀ es, Log.generation key.ctaHwId (log ++ es) =
      Log.generation key.ctaHwId log + Log.generation key.ctaHwId es :=
    fun es => List.countP_append
  cases h with
  | quiet _ _ _ _ _ => rw [List.append_nil]
  | test _ _ _ _ => rw [List.append_nil]
  | load _ hload hissue =>
    obtain ⟨_, _, _, rfl, _⟩ := issueWarp_load_frame hload hissue
    exact happend _
  | move _ hload hissue =>
    obtain ⟨_, _, _, _, rfl, _⟩ := issueWarp_move_frame hload hissue
    exact happend _
  | answered inst _ _ _ done _ _ _ _ _ _ _ _ =>
    cases done with
    | true => exact happend _
    | false => exact happend _
  | completed _ _ _ _ _ _ _ _ => exact happend _
  | @retire c _ htables _ _ =>
    have hlookup : s'.queue? kind key = if key.ctaHwId = c then none else s.queue? kind key := by
      rw [queue?_congr htables]
      exact QueueTable.lookup_eraseCta (s.tables kind) c key
    rw [hq] at hlookup
    have hne : c ≠ key.ctaHwId := by
      rintro rfl
      rw [if_pos rfl] at hlookup
      cases hlookup
    rw [happend]
    simp [Log.generation, hne]

theorem Stored.initial (use : QueueUse cfg) (mem : Mem) : Stored use (initial mem) [] := by
  intro kind key q hq
  rw [queue?, Shader.initial, AList.lookup_empty] at hq
  cases hq

/-- A conforming step creates no queue that is not charged for. -/
theorem Stored.step (h : Stored use s log) (hp : Provenance cfg s log)
    (hheld : ∀ kind key, ∃ f, Holds cfg kind key s f) (hguard : Conforms use (s, log) a)
    (hstep : AccessStep cfg read s a s' es) : Stored use s' (log ++ es) := by
  intro kind key q hq
  have hgeneration : Log.generation key.ctaHwId (log ++ es) = Log.generation key.ctaHwId log :=
    hstep.generation_eq hq
  obtain ⟨f, hf⟩ := hheld kind key
  have hkeep : Provided use kind log key → Provided use kind (log ++ es) key := by
    intro hprovided
    exact ⟨hprovided.producer, by rw [hgeneration]; exact hprovided.inUse⟩
  rcases hstep.queue_back hp hf hq with ⟨q₀, hq₀, hshape⟩ | ⟨w, inst, hnames, rfl, hconf⟩
  · have hold := h kind key q₀ hq₀
    exact ⟨hold.enabled, hold.source, hold.destination, hkeep hold.provided,
      hshape.width_eq ▸ hold.width⟩
  · obtain ⟨hwidth, hprovided⟩ := hguard w inst hnames.named
    obtain ⟨_, _, hkey⟩ := keyForWarp_eq_ok.mp hnames.key_eq
    exact ⟨hnames.enabled, congrArg QueueKey.srcStageId hkey, congrArg QueueKey.dstStageId hkey,
      hkeep (hprovided key hnames.key_eq), hconf.width_eq ▸ hwidth⟩

/-- The queues of a conforming run are charged for, and have the configured sizes. -/
theorem stored_of_reaches
    (h : Reaches (logged (step cfg read)) (Conforms use) (initial mem, []) (s, log)) :
    (∀ kind key, ∃ f, Tracks cfg kind key s log f) ∧ Stored use s log := by
  have hall : Provenance cfg s log ∧ (∀ kind key, ∃ f, Tracks cfg kind key s log f) ∧
      Stored use s log := by
    refine Reaches.invariant (fun m => Provenance cfg m.1 m.2 ∧
        (∀ kind key, ∃ f, Tracks cfg kind key m.1 m.2 f) ∧ Stored use m.1 m.2)
      ⟨.initial cfg mem, fun kind key => ⟨_, .initial cfg kind key mem⟩, .initial use mem⟩ ?_ h
    rintro ⟨s, log⟩ a ⟨s', log'⟩ ⟨hp, ht, hs⟩ hguard hstep
    obtain ⟨es, hstep, rfl⟩ := logged_eq_ok.mp hstep
    have haccess := hp.accessStep hstep
    refine ⟨hp.step haccess, fun kind key => ?_, hs.step hp (fun kind key => ?_) hguard haccess⟩
    · obtain ⟨f, hf⟩ := ht kind key
      obtain ⟨f', hqueue⟩ := haccess.queueStep hp hf.held
      exact ⟨f', hf.step hqueue⟩
    · obtain ⟨f, hf⟩ := ht kind key
      exact ⟨f, hf.held⟩
  exact hall.2

/-- The keys that the metadata provides for in a CTA. -/
private def providedKeys (use : QueueUse cfg) (kind : QueueKind) (log : List Event) (c : Nat) :
    Finset QueueKey :=
  (Finset.range (cfg.producerWarps kind)).biUnion fun o =>
    (use.ids kind c (Log.generation c log) o).image fun id => ⟨c, o, 0, 1, id⟩

private theorem card_providedKeys_le (use : QueueUse cfg) (kind : QueueKind) (log : List Event)
    (c : Nat) : (providedKeys use kind log c).card ≤
      cfg.producerWarps kind * (cfg.options kind).queuesPerOriginalWarp := by
  unfold providedKeys
  conv_rhs => rw [← Finset.card_range (cfg.producerWarps kind)]
  apply Finset.card_biUnion_le_card_mul
  intro o _
  exact Finset.card_image_le.trans (use.card_le kind c _ o)

/-- The live queues of a CTA hold no more words than its producers are charged for. -/
theorem Stored.queueWords_le (h : Stored use s log)
    (hheld : ∀ key, ∃ f, Holds cfg kind key s f) (c : Nat) :
    queueWords s kind c ≤ cfg.producerWarps kind * (cfg.options kind).queuesPerOriginalWarp *
      ((cfg.options kind).entries * (cfg.options kind).payloadWordsPerLane * cfg.warpSize) := by
  unfold queueWords
  generalize hlive : ((s.tables kind).entries.filter fun e => e.1.ctaHwId == c) = live
  have hmem : ∀ e ∈ live, e.1.ctaHwId = c ∧ s.queue? kind e.1 = some e.2 := by
    intro e he
    rw [← hlive, List.mem_filter] at he
    exact ⟨beq_iff_eq.mp he.2, AList.mem_lookup_iff.mpr he.1⟩
  -- every queue is as large as configured at most
  have hsize : ∀ words ∈ live.map fun e => e.2.entries * e.2.payloadWordsPerLane * e.2.warpSize,
      words ≤ (cfg.options kind).entries * (cfg.options kind).payloadWordsPerLane *
        cfg.warpSize := by
    intro words hwords
    obtain ⟨e, he, rfl⟩ := List.mem_map.mp hwords
    obtain ⟨_, hq⟩ := hmem e he
    obtain ⟨f, hf⟩ := hheld e.1
    obtain ⟨hconf, _⟩ := hf.of_queue hq
    rw [hconf.entries_eq, hconf.warpSize_eq]
    exact Nat.mul_le_mul_right _ (Nat.mul_le_mul_left _ (h kind e.1 e.2 hq).width)
  -- and there is at most one for each key provided for
  have hcount : live.length ≤
      cfg.producerWarps kind * (cfg.options kind).queuesPerOriginalWarp := by
    have hnodup : (live.map Sigma.fst).Nodup := by
      rw [← hlive]
      exact (s.tables kind).nodupKeys.sublist List.filter_sublist
    have hsub : (live.map Sigma.fst).toFinset ⊆ providedKeys use kind log c := by
      intro key hkey
      obtain ⟨e, he, rfl⟩ := List.mem_map.mp (List.mem_toFinset.mp hkey)
      obtain ⟨rfl, hq⟩ := hmem e he
      have hcharged := h kind e.1 e.2 hq
      refine Finset.mem_biUnion.mpr ⟨_, Finset.mem_range.mpr hcharged.provided.producer,
        Finset.mem_image.mpr ⟨_, hcharged.provided.inUse, ?_⟩⟩
      rw [← hcharged.source, ← hcharged.destination]
    calc live.length = (live.map Sigma.fst).toFinset.card := by
          rw [List.toFinset_card_of_nodup hnodup, List.length_map]
      _ ≤ (providedKeys use kind log c).card := Finset.card_le_card hsub
      _ ≤ _ := card_providedKeys_le use kind log c
  calc _ ≤ (live.map fun e => e.2.entries * e.2.payloadWordsPerLane * e.2.warpSize).length •
        ((cfg.options kind).entries * (cfg.options kind).payloadWordsPerLane * cfg.warpSize) :=
        List.sum_le_card_nsmul _ _ hsize
    _ ≤ _ := by
      rw [List.length_map]
      exact Nat.mul_le_mul_right _ hcount

/-- A core and its occupancy options count the same producers when the CTA size does not
wrap. -/
private theorem producers_eq {k : KernelInfo} (caps : Capacities) (count : Bool)
    (hk : k.threadsPerCta = cfg.threadsPerCta)
    (hfits : (cfg.occupancy caps count).exactPadded k < 2 ^ 32) (kind : QueueKind) :
    (cfg.occupancy caps count).producers k (cfg.options kind) = cfg.producerWarps kind := by
  have hpadded : (cfg.occupancy caps count).exactPadded k = cfg.paddedCtaSize := by
    unfold OccupancyConfig.exactPadded Config.paddedCtaSize
    rw [hk]
    rfl
  have hwarps : 0 < cfg.paddedCtaSize / cfg.warpSize := by
    have hpos := hk ▸ k.threadsPerCta_pos
    apply Nat.div_pos _ cfg.warpSize_pos
    unfold Config.paddedCtaSize
    split
    · exact Nat.le_mul_of_pos_left _ (Nat.succ_pos _)
    · rename_i hdvd
      exact Nat.le_of_dvd hpos (Nat.dvd_of_mod_eq_zero (not_not.mp hdvd))
  unfold OccupancyConfig.producers Config.producerWarps Config.warpsPerCta
  rw [OccupancyConfig.paddedCtaSize_eq, u32_eq_self hfits, hpadded, orDefault_of_pos hwarps]
  change orDefault _ (orDefault (cfg.paddedCtaSize / cfg.warpSize / 2) 1) = _
  unfold orDefault
  split
  · rfl
  · rfl

/-- In every reached state of a conforming run, the queues of a CTA whose footprint fits
in 32 bits are within the registers and the shared memory that it is charged for. -/
theorem storage_covered {k : KernelInfo} {caps : Capacities}
    (hrun : Reaches (logged (step cfg read)) (Conforms use) (initial mem, []) (s, log))
    (hk : k.threadsPerCta = cfg.threadsPerCta)
    (hfits : ((cfg.occupancy caps true).footprint k).Unwrapped) (c : Nat) :
    (∀ regs, (cfg.occupancy caps true).waspRfqRegsPerCta k = .ok regs →
      queueWords s .rfq c ≤ regs) ∧
    ∀ bytes, (cfg.occupancy caps true).smemqSharedBytesPerCta k = .ok bytes →
      4 * queueWords s .smemq c ≤ bytes := by
  obtain ⟨ht, hstored⟩ := stored_of_reaches hrun
  have hwords : ∀ kind, queueWords s kind c ≤
      (cfg.occupancy caps true).exactEntries k (cfg.options kind) 1 := by
    intro kind
    have hheld : ∀ key, ∃ f, Holds cfg kind key s f := by
      intro key
      obtain ⟨f, hf⟩ := ht kind key
      exact ⟨f, hf.held⟩
    have hle := hstored.queueWords_le hheld c
    unfold OccupancyConfig.exactEntries
    rw [producers_eq caps true hk hfits.threads, Nat.mul_one]
    change _ ≤ _ * _ * _ * _ * cfg.warpSize
    rwa [← Nat.mul_assoc, ← Nat.mul_assoc] at hle
  -- a queue mechanism that is off has no queue
  have hoff : ∀ kind, cfg.enabled kind = false → queueWords s kind c = 0 := by
    intro kind hdisabled
    have hnone : (s.tables kind).entries = [] := by
      rw [List.eq_nil_iff_forall_not_mem]
      intro e he
      have henabled := (hstored kind e.1 e.2 (AList.mem_lookup_iff.mpr he)).enabled
      rw [hdisabled] at henabled
      cases henabled
    simp [queueWords, hnone]
  constructor
  · intro regs hregs
    have hexact : (cfg.occupancy caps true).exactRfqRegs k < 2 ^ 32 :=
      (Nat.le_add_left _ _).trans_lt hfits.regs
    unfold OccupancyConfig.waspRfqRegsPerCta at hregs
    unfold OccupancyConfig.exactRfqRegs at hexact
    have hcounts : (cfg.occupancy caps true).countsRfq = cfg.enabled .rfq := by
      simp [OccupancyConfig.countsRfq, Config.occupancy, Config.enabled, Config.waspRfqEnabled]
    rw [hcounts] at hregs hexact
    cases henabled : cfg.enabled .rfq with
    | true =>
      rw [henabled, if_pos rfl] at hregs hexact
      rw [OccupancyConfig.exact_of_ok _ k hregs, u32_eq_self hexact]
      exact hwords .rfq
    | false => simp [hoff .rfq henabled]
  · intro bytes hbytes
    have hexact : (cfg.occupancy caps true).exactSmemqBytes k < 2 ^ 32 :=
      (Nat.le_add_left _ _).trans_lt hfits.smem
    unfold OccupancyConfig.smemqSharedBytesPerCta at hbytes
    unfold OccupancyConfig.exactSmemqBytes at hexact
    cases henabled : cfg.smemq.enable with
    | true =>
      have hon : (cfg.occupancy caps true).smemq.enable = true := henabled
      rw [if_pos hon] at hbytes hexact
      rw [OccupancyConfig.exact_of_ok _ k hbytes, u32_eq_self hexact]
      have hle := hwords .smemq
      unfold OccupancyConfig.exactEntries at hle ⊢
      change _ ≤ _ * _ * _ * _ * _ * 4
      rw [Nat.mul_one] at hle
      rw [Nat.mul_comm 4]
      exact Nat.mul_le_mul_right 4 hle
    | false => simp [hoff .smemq henabled]

/-- One queue with id 0 for every original warp. -/
def sampleUse : QueueUse (Config.sample 96 1) where
  ids _ _ _ _ := {0}
  card_le kind c g o := by cases kind <;> decide

/-- The kernel of a CTA of three warps. -/
def sampleKernel : KernelInfo :=
  { OccupancyConfig.sampleKernel with
    threadsPerCta := 96
    threadsPerCta_pos := by decide
    threadsPerCta_lt := by decide }

/-- The capacities of the H200 configuration. -/
def sampleCapacities : Capacities := (OccupancyConfig.sample 1).toCapacities

/-- A three-word load on queue 0. -/
def sampleLoad3 : QueueInst := { sampleLoad with v3 := true }

/-- A three-word move from queue 0. -/
def sampleMove3 : QueueInst := { sampleMove with v3 := true }

theorem storage_covered_of_three_warps :
    ∃ s log, Reaches (logged (step (Config.sample 96 1) sampleRead)) (Conforms sampleUse)
        (initial (), []) (s, log) ∧ 0 < queueWords s .rfq 0 ∧ queueWords s .rfq 0 ≤ 96 := by
  obtain ⟨s, log, hrun, hpos⟩ := exists_reaches (Config.sample 96 1) sampleRead
    (fun m a => ∀ n ∈ a.named?, (n.2.queueId = 0 ∧ n.2.kind = .rfq) ∧
      n.1 % 3 < 2) () [.launch 0, .decode 0, .decode 1,
      .issue 0 sampleLoad3 (BitVec.allOnes 32) (sampleInput 1), .test 1 sampleMove3 true]
    (fun s _ => 0 < queueWords s .rfq 0) (by decide +kernel)
  have hconforms : Reaches (logged (step (Config.sample 96 1) sampleRead)) (Conforms sampleUse)
      (initial (), []) (s, log) := by
    refine Reaches.mono (fun m a hguard w inst hnamed => ?_) hrun
    obtain ⟨⟨hqueue, hkind⟩, hwarp⟩ := hguard (w, inst) hnamed
    simp only at hqueue hkind hwarp
    refine ⟨?_, fun key hkey => ?_⟩
    · rw [hkind]
      exact inst.payloadWords_le.2
    · rw [hkind] at hkey ⊢
      obtain ⟨_, _, rfl⟩ := keyForWarp_eq_ok.mp hkey
      refine ⟨?_, by simp [sampleUse, hqueue]⟩
      change originalWarpId 1 (w % 3) < 1
      unfold originalWarpId
      split
      · assumption
      · omega
  have hfits : (((Config.sample 96 1).occupancy sampleCapacities true).footprint
      sampleKernel).Unwrapped := ⟨by decide, by decide, by decide⟩
  exact ⟨s, log, hconforms, hpos, (storage_covered hconforms rfl hfits 0).1 96 (by decide)⟩

/-- In a CTA of three warps one warp is a producer, and its queue is all that the CTA is
charged for. When the second consumer is tested, a second queue appears. -/
theorem storage_exceeds_charge :
    ((Config.sample 96 1).occupancy sampleCapacities true).waspRfqRegsPerCta sampleKernel =
        .ok 96 ∧
      ∃ s log, Reaches (logged (step (Config.sample 96 1) sampleRead)) (fun _ a =>
          ∀ n ∈ a.named?, n.2.queueId = 0 ∧ n.2.payloadWords ≤
            ((Config.sample 96 1).options n.2.kind).payloadWordsPerLane) (initial (), []) (s, log) ∧
        0 < s.ctaStatus 0 ∧ queueWords s .rfq 0 = 192 := by
  refine ⟨by decide, ?_⟩
  exact exists_reaches (Config.sample 96 1) sampleRead _ () [.launch 0, .decode 0, .decode 2,
    .issue 0 sampleLoad3 (BitVec.allOnes 32) (sampleInput 1), .test 2 sampleMove3 true]
    (fun s _ => 0 < s.ctaStatus 0 ∧ queueWords s .rfq 0 = 192) (by decide +kernel)

end Shader
end WaspSim
