import Mathlib.Data.List.Sort
import WaspSim.Core.FloatRound
import WaspSim.Occupancy.Admission

/-!
# The shared-memory carve-out

With an adaptive cache `max_cta` takes the smallest shared-memory option that holds
the resident CTAs and gives the rest of the unified memory to the L1 data cache. It
counts the shared memory of the kernel alone, without the SMEMQ entries by which it
has limited the number of CTAs.
-/

namespace WaspSim

/-- `shmem_opt_list`, from the numbers of `gpgpu_shmem_option`. -/
def shmemOptList (options : List Int) : List Nat :=
  (options.map fun option => (option * 1024 % 2 ^ 32).toNat).insertionSort (· ≤ ·)

/-- `m_L1D_config`, of which all ways together make the unified cache. -/
structure UnifiedCache where
  /-- `m_unified_cache_size`. -/
  unifiedCacheSize : Nat
  /-- `get_max_assoc`. -/
  maxAssoc : Nat
  /-- The bytes of one way of every set. -/
  wayBytes : Nat
  maxAssoc_mul : maxAssoc * wayBytes = u32 (unifiedCacheSize * 1024)

/-- `total_unified`. -/
def UnifiedCache.totalUnified (l1d : UnifiedCache) : Nat := u32 (l1d.unifiedCacheSize * 1024)

/-- A single-precision value. -/
abbrev float32 (x : ℚ) : ℚ := roundSig 24 x

/-- `l1_ratio` of an option. -/
def l1Ratio (l1d : UnifiedCache) (option : Nat) : ℚ :=
  float32 (1 - float32 (float32 option / float32 l1d.totalUnified))

/-- The ways that `set_assoc` is given. -/
def l1Assoc (l1d : UnifiedCache) (ratio : ℚ) : Nat :=
  ⌊float32 (float32 (float32 l1d.maxAssoc * ratio) + 1 / 2)⌋₊

/-- What the adaptive configuration sets. -/
structure CarveOut where
  option : Nat
  assoc : Nat
  deriving DecidableEq, Repr

namespace OccupancyConfig

variable (cfg : OccupancyConfig) (k : KernelInfo)

/-- The adaptive cache configuration for `result` resident CTAs. -/
def carveOut (l1d : UnifiedCache) (shmemOptions : List Nat) (result : Nat) :
    Except Halt CarveOut := do
  let totalShmem := u32 (k.smem * result)
  let largest ← fetch .indexOutOfRange shmemOptions.getLast?
  require .noSharedOption (totalShmem ≤ largest)
  let option ← fetch .noSharedOption (shmemOptions.find? fun option => totalShmem ≤ option)
  require .divideByZero (0 < l1d.totalUnified)
  let ratio := l1Ratio l1d option
  require .noSharedOption (0 ≤ ratio ∧ ratio ≤ 1)
  pure { option, assoc := l1Assoc l1d ratio }

/-- `max_cta` of a kernel without a cache configuration. A kernel that does not fit, but is let
through, returns before the carve-out. -/
def maxCtaAdaptive (l1d : UnifiedCache) (shmemOptions : List Nat) (numBlocks numShader : Nat)
    (ignoreResourcesLimitation : Bool) : Except Halt (Nat × Option CarveOut) := do
  let limits ← cfg.ctaLimits k
  let n ← cfg.maxCta k numBlocks numShader ignoreResourcesLimitation
  if clampByBlocks numBlocks numShader limits.result < 1 then pure (n, none)
  else do
    let cut ← carveOut k l1d shmemOptions n
    pure (n, some cut)

end OccupancyConfig

section Rounding

variable {l1d : UnifiedCache} {option : Nat}

/-- A ratio that is not negative comes from an option within the unified cache, up to the
precision. -/
theorem quotient_le_one (h : 0 ≤ l1Ratio l1d option) :
    float32 (float32 option / float32 l1d.totalUnified) ≤ 1 := by
  by_contra hgt
  push Not at hgt
  have herr := (abs_le.mp (abs_roundSig_sub_le 24
    (1 - float32 (float32 option / float32 l1d.totalUnified)))).2
  rw [abs_of_neg (by linarith)] at herr
  unfold l1Ratio at h
  linarith

/-- The option, from below by its quotient. -/
theorem option_le (hpos : 0 < l1d.totalUnified) :
    (option : ℚ) ≤ l1d.totalUnified *
      float32 (float32 option / float32 l1d.totalUnified) * (1 + 1 / 2 ^ 20) := by
  have hU : (0 : ℚ) < l1d.totalUnified := by exact_mod_cast hpos
  have ho : (0 : ℚ) ≤ option := Nat.cast_nonneg option
  have hnum : (option : ℚ) * (1 - 1 / 2 ^ 24) ≤ float32 option := le_roundSig ho
  have hden : float32 l1d.totalUnified ≤ l1d.totalUnified * (1 + 1 / 2 ^ 24) := roundSig_le hU.le
  have hden_pos : 0 < float32 l1d.totalUnified :=
    (mul_pos hU (by norm_num)).trans_le (le_roundSig hU.le)
  have hquot : (0 : ℚ) ≤ float32 option / float32 l1d.totalUnified :=
    div_nonneg (roundSig_nonneg ho) hden_pos.le
  have hround : float32 option / float32 l1d.totalUnified * (1 - 1 / 2 ^ 24) ≤
      float32 (float32 option / float32 l1d.totalUnified) := le_roundSig hquot
  generalize float32 (float32 option / float32 l1d.totalUnified) = q at hround ⊢
  have hcross : float32 option * (1 - 1 / 2 ^ 24) ≤ q * float32 l1d.totalUnified := by
    calc
      float32 option * (1 - 1 / 2 ^ 24) = float32 option / float32 l1d.totalUnified *
          (1 - 1 / 2 ^ 24) * float32 l1d.totalUnified := by
        field_simp
      _ ≤ q * float32 l1d.totalUnified := by gcongr
  have hq : 0 ≤ q := (mul_nonneg hquot (by norm_num)).trans hround
  have hchain : (option : ℚ) * (1 - 1 / 2 ^ 24) ^ 2 ≤ l1d.totalUnified * q * (1 + 1 / 2 ^ 24) := by
    calc
      (option : ℚ) * (1 - 1 / 2 ^ 24) ^ 2 = option * (1 - 1 / 2 ^ 24) * (1 - 1 / 2 ^ 24) := by ring
      _ ≤ float32 option * (1 - 1 / 2 ^ 24) := by gcongr
      _ ≤ q * float32 l1d.totalUnified := hcross
      _ ≤ q * (l1d.totalUnified * (1 + 1 / 2 ^ 24)) := by gcongr
      _ = l1d.totalUnified * q * (1 + 1 / 2 ^ 24) := by ring
  have hUq : 0 ≤ l1d.totalUnified * q := mul_nonneg hU.le hq
  generalize (l1d.totalUnified : ℚ) * q = y at hchain hUq ⊢
  norm_num at hchain ⊢
  linarith

/-- The configured ways, from above by the quotient of the option. -/
theorem l1Assoc_le (h : 0 ≤ l1Ratio l1d option) :
    (l1Assoc l1d (l1Ratio l1d option) : ℚ) ≤
      l1d.maxAssoc * (1 - float32 (float32 option / float32 l1d.totalUnified)) * (1 + 1 / 2 ^ 20) +
        1 / 2 * (1 + 1 / 2 ^ 24) := by
  have hq := quotient_le_one h
  have hA : (0 : ℚ) ≤ l1d.maxAssoc := Nat.cast_nonneg _
  have hassoc : float32 l1d.maxAssoc ≤ l1d.maxAssoc * (1 + 1 / 2 ^ 24) := roundSig_le hA
  have hratio : l1Ratio l1d option ≤
      (1 - float32 (float32 option / float32 l1d.totalUnified)) * (1 + 1 / 2 ^ 24) :=
    roundSig_le (by linarith)
  generalize float32 (float32 option / float32 l1d.totalUnified) = q at hq hratio ⊢
  generalize l1Ratio l1d option = r at h hratio ⊢
  have hassoc_nonneg : 0 ≤ float32 l1d.maxAssoc := roundSig_nonneg hA
  have hprod : (0 : ℚ) ≤ float32 l1d.maxAssoc * r := mul_nonneg hassoc_nonneg h
  have hways : float32 (float32 l1d.maxAssoc * r) ≤
      float32 l1d.maxAssoc * r * (1 + 1 / 2 ^ 24) := roundSig_le hprod
  have hways_nonneg : 0 ≤ float32 (float32 l1d.maxAssoc * r) := roundSig_nonneg hprod
  have hsum : float32 (float32 (float32 l1d.maxAssoc * r) + 1 / 2) ≤
      (float32 (float32 l1d.maxAssoc * r) + 1 / 2) * (1 + 1 / 2 ^ 24) :=
    roundSig_le (by linarith)
  have hAq : 0 ≤ l1d.maxAssoc * (1 - q) := mul_nonneg hA (by linarith)
  calc
    (l1Assoc l1d r : ℚ) ≤ float32 (float32 (float32 l1d.maxAssoc * r) + 1 / 2) :=
      Nat.floor_le (roundSig_nonneg (by linarith))
    _ ≤ (float32 (float32 l1d.maxAssoc * r) + 1 / 2) * (1 + 1 / 2 ^ 24) := hsum
    _ ≤ (float32 l1d.maxAssoc * r * (1 + 1 / 2 ^ 24) + 1 / 2) * (1 + 1 / 2 ^ 24) := by gcongr
    _ ≤ (l1d.maxAssoc * (1 + 1 / 2 ^ 24) * ((1 - q) * (1 + 1 / 2 ^ 24)) * (1 + 1 / 2 ^ 24) +
        1 / 2) * (1 + 1 / 2 ^ 24) := by gcongr
    _ = l1d.maxAssoc * (1 - q) * (1 + 1 / 2 ^ 24) ^ 4 + 1 / 2 * (1 + 1 / 2 ^ 24) := by ring
    _ ≤ l1d.maxAssoc * (1 - q) * (1 + 1 / 2 ^ 20) + 1 / 2 * (1 + 1 / 2 ^ 24) := by
      gcongr
      norm_num

/-- The option and the configured L1 capacity make up the unified cache, up to half a way and
the precision of the ratio. -/
theorem option_add_l1_le (hpos : 0 < l1d.totalUnified) (h : 0 ≤ l1Ratio l1d option) :
    (option : ℚ) + l1Assoc l1d (l1Ratio l1d option) * l1d.wayBytes ≤
      l1d.totalUnified + l1d.wayBytes / 2 + (l1d.totalUnified + l1d.wayBytes) / 2 ^ 20 := by
  have hoption := @option_le l1d option hpos
  have hways := l1Assoc_le h
  have hall : (l1d.maxAssoc : ℚ) * l1d.wayBytes = l1d.totalUnified := by
    exact_mod_cast l1d.maxAssoc_mul
  generalize float32 (float32 option / float32 l1d.totalUnified) = q at hoption hways
  have hway : (0 : ℚ) ≤ l1d.wayBytes := Nat.cast_nonneg _
  have hbytes : (l1Assoc l1d (l1Ratio l1d option) : ℚ) * l1d.wayBytes ≤
      l1d.totalUnified * (1 - q) * (1 + 1 / 2 ^ 20) +
        l1d.wayBytes / 2 * (1 + 1 / 2 ^ 24) := by
    calc
      (l1Assoc l1d (l1Ratio l1d option) : ℚ) * l1d.wayBytes ≤
          (l1d.maxAssoc * (1 - q) * (1 + 1 / 2 ^ 20) + 1 / 2 * (1 + 1 / 2 ^ 24)) *
            l1d.wayBytes := by gcongr
      _ = l1d.maxAssoc * l1d.wayBytes * (1 - q) * (1 + 1 / 2 ^ 20) +
          l1d.wayBytes / 2 * (1 + 1 / 2 ^ 24) := by ring
      _ = l1d.totalUnified * (1 - q) * (1 + 1 / 2 ^ 20) +
          l1d.wayBytes / 2 * (1 + 1 / 2 ^ 24) := by rw [hall]
  calc
    (option : ℚ) + l1Assoc l1d (l1Ratio l1d option) * l1d.wayBytes ≤
        l1d.totalUnified * q * (1 + 1 / 2 ^ 20) + (l1d.totalUnified * (1 - q) * (1 + 1 / 2 ^ 20) +
          l1d.wayBytes / 2 * (1 + 1 / 2 ^ 24)) := add_le_add hoption hbytes
    _ = l1d.totalUnified * (1 + 1 / 2 ^ 20) + l1d.wayBytes / 2 * (1 + 1 / 2 ^ 24) := by ring
    _ ≤ l1d.totalUnified + l1d.wayBytes / 2 + (l1d.totalUnified + l1d.wayBytes) / 2 ^ 20 := by
      norm_num
      linarith

end Rounding

/-- The first large enough element of a sorted list is the least. -/
theorem find?_least {sizes : List Nat} {bound size : Nat} (hsorted : sizes.Pairwise (· ≤ ·))
    (h : (sizes.find? fun other => bound ≤ other) = some size) :
    bound ≤ size ∧ size ∈ sizes ∧ ∀ other ∈ sizes, bound ≤ other → size ≤ other := by
  have hmem := List.mem_of_find?_eq_some h
  rw [List.find?_eq_some_iff_append] at h
  obtain ⟨hbound, before, after, rfl, hbefore⟩ := h
  refine ⟨by simpa using hbound, hmem, fun other hother hle => ?_⟩
  have hafter := (List.pairwise_append.mp hsorted).2.1
  rw [List.pairwise_cons] at hafter
  rcases List.mem_append.mp hother with hother | hother
  · have hsmall := hbefore other hother
    simp only [hle, decide_true, Bool.not_true, Bool.false_eq_true] at hsmall
  · rcases List.mem_cons.mp hother with rfl | hother
    · exact le_refl _
    · exact hafter.1 other hother

theorem shmemOptList_sorted (options : List Int) : (shmemOptList options).Pairwise (· ≤ ·) :=
  List.pairwise_insertionSort _ _

/-- A carve-out that leaves `used` bytes of shared memory, and no more than it has to. -/
structure CarveOut.LeavesRoom (cut : CarveOut) (l1d : UnifiedCache) (shmemOptions : List Nat)
    (used : Nat) : Prop where
  used_le : used ≤ cut.option
  least : ∀ other ∈ shmemOptions, used ≤ other → cut.option ≤ other
  /-- Up to half a way and the precision of the ratio. -/
  unified : (used + cut.assoc * l1d.wayBytes : ℚ) ≤
    l1d.totalUnified + l1d.wayBytes / 2 + (l1d.totalUnified + l1d.wayBytes) / 2 ^ 20

namespace OccupancyConfig

variable {cfg : OccupancyConfig} {k : KernelInfo} {l1d : UnifiedCache} {options : List Int}
  {numBlocks numShader c : Nat} {ignore : Bool} {cut : CarveOut}

/-- What a carve-out is. -/
theorem carveOut_spec (h : carveOut k l1d (shmemOptList options) c = .ok cut) :
    (u32 (k.smem * c) ≤ cut.option ∧ cut.option ∈ shmemOptList options ∧
        ∀ other ∈ shmemOptList options, u32 (k.smem * c) ≤ other → cut.option ≤ other) ∧
      (cut.option + cut.assoc * l1d.wayBytes : ℚ) ≤
        l1d.totalUnified + l1d.wayBytes / 2 + (l1d.totalUnified + l1d.wayBytes) / 2 ^ 20 := by
  simp only [carveOut, bind_eq_ok, fetch_eq_ok, require_eq_ok, pure_eq_ok] at h
  obtain ⟨_, _, _, _, option, hfind, _, hpos, _, ⟨hratio, _⟩, rfl⟩ := h
  exact ⟨find?_least (shmemOptList_sorted options) hfind, option_add_l1_le hpos hratio⟩

/-- The CTAs of a kernel that a core takes: as many as fit with their queues, or the share of
a grid that does not keep all cores busy. -/
def Resident (cfg : OccupancyConfig) (k : KernelInfo) (numBlocks numShader n : Nat) : Prop :=
  ∃ most, IsGreatest {m | Fits cfg.toCapacities (cfg.footprint k).wrapped m} most ∧
    n = clampByBlocks numBlocks numShader most

/-- Some CTA is resident, and no option lies between what the resident CTAs use without their
queues and with them. -/
def NoOptionBetween (cfg : OccupancyConfig) (k : KernelInfo) (options : List Int)
    (numBlocks numShader : Nat) : Prop :=
  ∃ n, Resident cfg k numBlocks numShader n ∧ 0 < n ∧
    ∀ option ∈ shmemOptList options, u32 (k.smem * n) ≤ option →
      n * (k.smem + u32 (cfg.exactSmemqBytes k)) ≤ option

/-- The greatest number of CTAs that fit is the count of `max_cta` before the clamp. -/
theorem resident_iff {limits : CtaLimits} {n : Nat} (h : cfg.ctaLimits k = .ok limits) :
    Resident cfg k numBlocks numShader n ↔ n = clampByBlocks numBlocks numShader limits.result := by
  have hthreads := padded_pos_of_ctaLimits h
  rw [ctaLimits_eq (charges_of_ctaLimits h) hthreads, Except.ok.injEq] at h
  have hmost : IsGreatest {m | Fits cfg.toCapacities (cfg.footprint k).wrapped m}
      limits.result := by
    rw [← h]
    exact ⟨(le_countFor_iff hthreads).mp (Nat.le_refl _),
      fun m hm => (le_countFor_iff hthreads).mpr hm⟩
  constructor
  · rintro ⟨most, hgreatest, rfl⟩
    rw [hgreatest.unique hmost]
  · rintro rfl
    exact ⟨_, hmost, rfl⟩

/-- The carve-out that `max_cta` returns leaves room for the resident CTAs with their queues
exactly when a CTA is resident and no option lies between what they use without the queues and
with them. -/
theorem carveOut_leavesRoom_iff {o : Option CarveOut}
    (h : cfg.maxCtaAdaptive k l1d (shmemOptList options) numBlocks numShader ignore = .ok (c, o)) :
    (∃ bytes cut, cfg.smemqSharedBytesPerCta k = .ok bytes ∧ o = some cut ∧
      cut.LeavesRoom l1d (shmemOptList options) (c * (k.smem + bytes))) ↔
      NoOptionBetween cfg k options numBlocks numShader := by
  simp only [maxCtaAdaptive, bind_eq_ok] at h
  obtain ⟨limits, hlimits, n, hmax, h⟩ := h
  have hresident : ∀ n, Resident cfg k numBlocks numShader n ↔
      n = clampByBlocks numBlocks numShader limits.result := fun n => resident_iff hlimits
  simp only [maxCta, hlimits, bind_eq_ok, Except.ok.injEq, exists_eq_left', require_eq_ok] at hmax
  obtain ⟨_, _, hmax⟩ := hmax
  by_cases hnone : clampByBlocks numBlocks numShader limits.result < 1
  · rw [if_pos hnone, pure_eq_ok, Prod.mk.injEq] at h
    refine iff_of_false ?_ ?_
    · rintro ⟨_, _, _, hsome, _⟩
      rw [← h.2] at hsome
      cases hsome
    · rintro ⟨n, hn, hpos, _⟩
      rw [(hresident n).mp hn] at hpos
      omega
  · rw [if_neg hnone, pure_eq_ok] at hmax
    simp only [hnone, ↓reduceIte, bind_eq_ok, pure_eq_ok, Prod.mk.injEq] at h
    obtain ⟨cut, hcut, rfl, rfl⟩ := h
    obtain ⟨⟨hle, hmem, hleast⟩, hunified⟩ := carveOut_spec hcut
    have hbytes : cfg.smemqSharedBytesPerCta k = .ok (u32 (cfg.exactSmemqBytes k)) :=
      smemqSharedBytesPerCta_eq (charges_of_ctaLimits hlimits)
    constructor
    · rintro ⟨bytes, _, hb, hsome, hroom⟩
      obtain rfl := Option.some.inj hsome
      rw [hbytes, Except.ok.injEq] at hb
      subst hb
      refine ⟨n, (hresident n).mpr hmax.symm, by omega, fun other hother hother_le => ?_⟩
      exact hroom.used_le.trans (hleast other hother hother_le)
    · rintro ⟨n', hn', _, hgap⟩
      obtain rfl : n' = n := ((hresident n').mp hn').trans hmax
      have hused := hgap _ hmem hle
      have hkernel : u32 (k.smem * n') ≤ n' * (k.smem + u32 (cfg.exactSmemqBytes k)) := by
        calc
          u32 (k.smem * n') ≤ k.smem * n' := Nat.mod_le _ _
          _ ≤ n' * (k.smem + u32 (cfg.exactSmemqBytes k)) := by
            rw [Nat.mul_comm]
            exact Nat.mul_le_mul_left n' (Nat.le_add_right _ _)
      refine ⟨_, cut, hbytes, rfl, hused, fun other hother hother_le => ?_, ?_⟩
      · exact hleast other hother (hkernel.trans hother_le)
      · have hcast : ((n' * (k.smem + u32 (cfg.exactSmemqBytes k)) : Nat) : ℚ) ≤ cut.option := by
          exact_mod_cast hused
        linarith

/-- A core with SMEMQ queues and the shared memory of the H200 configuration. -/
def sampleSmemq : OccupancyConfig where
  __ := sample 32
  gpgpuShmemSize := 233472
  gpgpuShmemSize_lt := by decide
  rfq := {}
  smemq := { enable := true }

/-- A unified cache of 256 KB. -/
def sampleUnified : UnifiedCache where
  unifiedCacheSize := 256
  maxAssoc := 512
  wayBytes := 512
  maxAssoc_mul := by decide

/-- A single option of 228 KB holds the queues of four CTAs. -/
theorem carveOut_leavesRoom_of_one_option :
    ∃ bytes cut, sampleSmemq.smemqSharedBytesPerCta sampleKernel = .ok bytes ∧
      some (⟨233472, 56⟩ : CarveOut) = some cut ∧
      cut.LeavesRoom sampleUnified (shmemOptList [228]) (4 * (sampleKernel.smem + bytes)) := by
  have hlimits : sampleSmemq.ctaLimits sampleKernel = .ok ⟨4, 4, 8⟩ := by decide +kernel
  have hmax : sampleSmemq.maxCtaAdaptive sampleKernel sampleUnified (shmemOptList [228]) 640 132
      false = .ok (4, some ⟨233472, 56⟩) := by decide +kernel
  exact (carveOut_leavesRoom_iff hmax).mpr
    ⟨4, (resident_iff hlimits).mpr (by decide +kernel), by decide, by decide +kernel⟩

/-- Four CTAs of a kernel without shared memory of its own hold 192 KB of queues, and the whole
unified cache is left to the L1. -/
theorem carveOut_ignores_queues :
    sampleSmemq.maxCtaAdaptive sampleKernel sampleUnified
        (shmemOptList [0, 8, 16, 32, 64, 100, 132, 164, 196, 228]) 640 132 false =
      .ok (4, some ⟨0, 512⟩) ∧
      sampleSmemq.smemqSharedBytesPerCta sampleKernel = .ok 49152 ∧
      0 < 4 * (sampleKernel.smem + 49152) ∧
      sampleUnified.totalUnified < 4 * (sampleKernel.smem + 49152) + 512 * sampleUnified.wayBytes :=
  ⟨by decide +kernel, by decide +kernel, by decide, by decide⟩

end OccupancyConfig
end WaspSim
