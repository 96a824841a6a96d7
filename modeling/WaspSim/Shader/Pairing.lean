import WaspSim.Shader.Key

/-!
# Producer and consumer pairing

Within a CTA that occupies its aligned range of warps, the keys of a fixed queue
id separate producers from each other and consumers from each other, and a
producer shares its key with the consumer whose local number is larger by the
number of producers. Both sides are matched up exactly when half of the warps
are producers.
-/

namespace WaspSim
namespace Shader

variable {Mem : Type} {kind : QueueKind} {cfg : Config} {s : Shader Mem}
  {c c' queueId queueId' : Nat}

/-- CTA `c` occupies the warps from `c * warpsPerCta` on. -/
def Resident (cfg : Config) (s : Shader Mem) (c : Nat) : Prop :=
  ∀ i < cfg.warpsPerCta, c * cfg.warpsPerCta + i < cfg.maxWarpsPerShader ∧
    (s.warps (c * cfg.warpsPerCta + i)).ctaId = c

/-- `wasp_rfq_key_for_warp` or `smemq_key_for_warp`. -/
def keyFor (kind : QueueKind) (cfg : Config) (s : Shader Mem) (warpId queueId : Nat) :
    Except Halt QueueKey :=
  match kind with
  | .rfq => waspRfqKeyForWarp cfg s warpId queueId
  | .smemq => smemqKeyForWarp cfg s warpId queueId

/-- Both kinds of keys are one function of the kind. -/
theorem keyFor_eq (warpId : Nat) :
    keyFor kind cfg s warpId queueId = keyForWarp kind cfg s warpId queueId := by
  cases kind with
  | rfq => rfl
  | smemq => rfl

/-- Two warps with one queue id each name one queue. -/
def SameQueue (kind : QueueKind) (cfg : Config) (s : Shader Mem) (a queueId b queueId' : Nat) :
    Prop :=
  ∃ key, keyFor kind cfg s a queueId = .ok key ∧ keyFor kind cfg s b queueId' = .ok key

/-- Two warps share the key of a queue id. -/
def SharesKey (kind : QueueKind) (cfg : Config) (s : Shader Mem) (queueId a b : Nat) : Prop :=
  SameQueue kind cfg s a queueId b queueId

/-- The key of a local warp of a resident CTA. -/
theorem keyForWarp_resident (hacc : cfg.producerWarps kind < cfg.warpsPerCta)
    (hc : Resident cfg s c) {i : Nat} (hi : i < cfg.warpsPerCta) :
    keyForWarp kind cfg s (c * cfg.warpsPerCta + i) queueId =
      .ok ⟨c, originalWarpId (cfg.producerWarps kind) i, 0, 1, queueId⟩ := by
  obtain ⟨hwarp, hcta⟩ := hc i hi
  rw [keyForWarp_eq_ok]
  refine ⟨hwarp, hacc, ?_⟩
  rw [hcta, Nat.mul_comm c, Nat.mul_add_mod, Nat.mod_eq_of_lt hi]

/-- Local warps name one queue when they stand for one original warp of one CTA and have
one queue id. -/
theorem sameQueue_iff (hacc : cfg.producerWarps kind < cfg.warpsPerCta) (hc : Resident cfg s c)
    (hc' : Resident cfg s c') {i j : Nat} (hi : i < cfg.warpsPerCta)
    (hj : j < cfg.warpsPerCta) :
    SameQueue kind cfg s (c * cfg.warpsPerCta + i) queueId (c' * cfg.warpsPerCta + j) queueId' ↔
      c = c' ∧ originalWarpId (cfg.producerWarps kind) i =
        originalWarpId (cfg.producerWarps kind) j ∧ queueId = queueId' := by
  simp only [SameQueue, keyFor_eq, keyForWarp_resident hacc hc hi, keyForWarp_resident hacc hc' hj,
    Except.ok.injEq, exists_eq_left', QueueKey.mk.injEq, true_and]
  constructor
  · rintro ⟨h₁, h₂, h₃⟩
    exact ⟨h₁.symm, h₂.symm, h₃.symm⟩
  · rintro ⟨h₁, h₂, h₃⟩
    exact ⟨h₁.symm, h₂.symm, h₃.symm⟩

/-- Local warps of one CTA share a key when they stand for one original warp. -/
theorem sharesKey_iff (hacc : cfg.producerWarps kind < cfg.warpsPerCta) (hc : Resident cfg s c)
    {i j : Nat} (hi : i < cfg.warpsPerCta) (hj : j < cfg.warpsPerCta) :
    SharesKey kind cfg s queueId (c * cfg.warpsPerCta + i) (c * cfg.warpsPerCta + j) ↔
      originalWarpId (cfg.producerWarps kind) i = originalWarpId (cfg.producerWarps kind) j := by
  rw [SharesKey, sameQueue_iff hacc hc hc hi hj]
  exact ⟨fun h => h.2.1, fun h => ⟨rfl, h, rfl⟩⟩

/-- The partner of a producer is the consumer with a number larger by the producers. -/
theorem sharesKey_producer_consumer_iff (hacc : cfg.producerWarps kind < cfg.warpsPerCta)
    (hc : Resident cfg s c) {i j : Nat} (hi : i < cfg.producerWarps kind)
    (hj : cfg.producerWarps kind ≤ j) (hjw : j < cfg.warpsPerCta) :
    SharesKey kind cfg s queueId (c * cfg.warpsPerCta + i) (c * cfg.warpsPerCta + j) ↔
      j = i + cfg.producerWarps kind := by
  have hj' : ¬j < cfg.producerWarps kind := by omega
  rw [sharesKey_iff hacc hc (by omega) hjw]
  simp only [originalWarpId, hi, hj', ↓reduceIte]
  omega

/-- For every accepted number of producers, keys separate producers, consumers, CTAs and
queue ids, and partners differ by the number of producers; every warp has exactly one
partner precisely when producers and consumers are equally many. -/
theorem keyForWarp_pairing (hacc : cfg.producerWarps kind < cfg.warpsPerCta)
    (hc : Resident cfg s c) :
    (∀ i j, i < cfg.producerWarps kind → j < cfg.producerWarps kind →
      SharesKey kind cfg s queueId (c * cfg.warpsPerCta + i) (c * cfg.warpsPerCta + j) →
      i = j) ∧
    (∀ i j, cfg.producerWarps kind ≤ i → i < cfg.warpsPerCta → cfg.producerWarps kind ≤ j →
      j < cfg.warpsPerCta →
      SharesKey kind cfg s queueId (c * cfg.warpsPerCta + i) (c * cfg.warpsPerCta + j) →
      i = j) ∧
    (∀ c' queueId' i j, Resident cfg s c' → c ≠ c' ∨ queueId ≠ queueId' →
      i < cfg.warpsPerCta → j < cfg.warpsPerCta →
      ¬SameQueue kind cfg s (c * cfg.warpsPerCta + i) queueId
        (c' * cfg.warpsPerCta + j) queueId') ∧
    (∀ i j, i < cfg.producerWarps kind → cfg.producerWarps kind ≤ j → j < cfg.warpsPerCta →
      (SharesKey kind cfg s queueId (c * cfg.warpsPerCta + i) (c * cfg.warpsPerCta + j) ↔
        j = i + cfg.producerWarps kind)) ∧
    (((∀ i < cfg.producerWarps kind, ∃! j, (cfg.producerWarps kind ≤ j ∧ j < cfg.warpsPerCta) ∧
        SharesKey kind cfg s queueId (c * cfg.warpsPerCta + i) (c * cfg.warpsPerCta + j)) ∧
      (∀ j, cfg.producerWarps kind ≤ j → j < cfg.warpsPerCta → ∃! i,
        i < cfg.producerWarps kind ∧
        SharesKey kind cfg s queueId (c * cfg.warpsPerCta + i) (c * cfg.warpsPerCta + j))) ↔
      cfg.warpsPerCta = 2 * cfg.producerWarps kind) := by
  have hpartner : ∀ i j, i < cfg.producerWarps kind → cfg.producerWarps kind ≤ j →
      j < cfg.warpsPerCta →
      (SharesKey kind cfg s queueId (c * cfg.warpsPerCta + i) (c * cfg.warpsPerCta + j) ↔
        j = i + cfg.producerWarps kind) :=
    fun i j hi hj hjw => sharesKey_producer_consumer_iff hacc hc hi hj hjw
  refine ⟨fun i j hi hj h => ?_, fun i j hi hiw hj hjw h => ?_,
    fun c' queueId' i j hc' hne hi hj h => ?_, hpartner, ?_⟩
  · have heq := (sharesKey_iff hacc hc (by omega) (by omega)).mp h
    simpa only [originalWarpId, hi, hj, ↓reduceIte] using heq
  · have hi' : ¬i < cfg.producerWarps kind := by omega
    have hj' : ¬j < cfg.producerWarps kind := by omega
    have heq := (sharesKey_iff hacc hc hiw hjw).mp h
    simp only [originalWarpId, hi', hj', ↓reduceIte] at heq
    omega
  · obtain ⟨hcta, _, hqueue⟩ := (sameQueue_iff hacc hc hc' hi hj).mp h
    exact hne.elim (fun hne => hne hcta) fun hne => hne hqueue
  constructor
  · rintro ⟨hprod, hcons⟩
    have hpos := cfg.producerWarps_pos kind
    -- the last producer and the last consumer have partners
    obtain ⟨j, ⟨⟨hj, hjw⟩, hshare⟩, _⟩ := hprod (cfg.producerWarps kind - 1) (by omega)
    have hj' := (hpartner _ j (by omega) hj hjw).mp hshare
    obtain ⟨i, ⟨hi, hshare'⟩, _⟩ := hcons (cfg.warpsPerCta - 1) (by omega) (by omega)
    have hi' := (hpartner i _ hi (by omega) (by omega)).mp hshare'
    omega
  · intro htwice
    refine ⟨fun i hi => ⟨i + cfg.producerWarps kind, ⟨⟨by omega, by omega⟩, ?_⟩, ?_⟩,
      fun j hj hjw => ⟨j - cfg.producerWarps kind, ⟨by omega, ?_⟩, ?_⟩⟩
    · exact (hpartner i _ hi (by omega) (by omega)).mpr rfl
    · rintro j ⟨⟨hj, hjw⟩, hshare⟩
      exact (hpartner i j hi hj hjw).mp hshare
    · exact (hpartner _ j (by omega) hj hjw).mpr (by omega)
    · rintro i ⟨hi, hshare⟩
      have hij := (hpartner i j hi hj hjw).mp hshare
      omega

/-- A core whose warps all belong to CTA 0. -/
theorem resident_initial {threads : Nat} (h : (Config.sample threads 1).warpsPerCta ≤ 16) :
    Resident (Config.sample threads 1) (initial () : Shader Unit) 0 := by
  intro i hi
  refine ⟨?_, rfl⟩
  change 0 * _ + i < 16
  omega

theorem keyForWarp_pairing_four_warps :
    ∃! j, (2 ≤ j ∧ j < 4) ∧
      SharesKey .rfq (Config.sample 128 1) (initial () : Shader Unit) 7 (0 * 4 + 1) (0 * 4 + j) :=
  ((@keyForWarp_pairing Unit .rfq (Config.sample 128 1) (initial ()) 0 7 (by decide)
    (resident_initial (by decide))).2.2.2.2.mpr (by decide)).1 1 (by decide)

/-- In a CTA of three warps the default makes one warp a producer, and the second
consumer shares its key with no producer. -/
theorem no_producer_for_last_of_three :
    (Config.sample 96 1).warpsPerCta = 3 ∧ (Config.sample 96 1).producerWarps .rfq = 1 ∧
      Resident (Config.sample 96 1) (initial () : Shader Unit) 0 ∧
      ∀ i < 1, ¬SharesKey .rfq (Config.sample 96 1) (initial () : Shader Unit) 7 (0 * 3 + i)
        (0 * 3 + 2) := by
  have hresident : Resident (Config.sample 96 1) (initial () : Shader Unit) 0 :=
    resident_initial (by decide)
  refine ⟨by decide, by decide, hresident, fun i hi hshare => ?_⟩
  have h := (@sharesKey_producer_consumer_iff Unit .rfq (Config.sample 96 1) (initial ()) 0 7
    (by decide) hresident i 2 hi (by decide) (by decide)).mp hshare
  change 2 = i + 1 at h
  omega

end Shader
end WaspSim
