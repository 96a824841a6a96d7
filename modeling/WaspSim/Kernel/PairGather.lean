import WaspSim.Kernel.PairOptions

/-!
# Index safety of the gather kernel

The producer streams read a table of indices at four wrapped positions for each tile and
gather from two arrays through it. Arithmetic on `int` wraps at 32 bits. The wrapped
positions are corrected for negative remainders; the table is not, so that its entries are
indices only while `67 * i + 29` does not wrap.
-/

namespace WaspSim
namespace PairKernel

/-- Two's-complement wrap to 32 bits. -/
def i32 (x : Int) : Int := (x + 2147483648) % 4294967296 - 2147483648

theorem i32_eq {x : Int} (hlo : -2147483648 ≤ x) (hhi : x < 2147483648) : i32 x = x := by
  unfold i32
  omega

/-- `wrap_index`. -/
def wrapIndex (value n : Int) : Int :=
  if value.tmod n < 0 then i32 (value.tmod n + n) else value.tmod n

/-- `index[i]` as `initialize` fills it. -/
def indexTable (n i : Int) : Int := (i32 (i32 (i * 67) + 29)).tmod n

/-- An access to one of the arrays of `n` elements. -/
inductive ArrayAccess where
  | a (j : Int)
  | b (j : Int)
  | index (p : Int)
  | producerOut (i : Int)
  | consumerOut (i : Int)
  deriving DecidableEq, Repr

namespace ArrayAccess

/-- The element that is accessed. -/
def position : ArrayAccess → Int
  | .a j | .b j | .index j | .producerOut j | .consumerOut j => j

/-- The access lies within an array of `n` elements. -/
def Within (n : Int) (x : ArrayAccess) : Prop := 0 ≤ x.position ∧ x.position < n

end ArrayAccess

/-- The accesses of the producer streams for one tile. -/
def tileAccesses (n i tile : Int) : List ArrayAccess :=
  let base := i32 (i + i32 (tile * 911))
  let p0 := wrapIndex base n
  let p1 := wrapIndex (i32 (base + 97)) n
  let p2 := wrapIndex (i32 (base + 193)) n
  let p3 := wrapIndex (i32 (base + 389)) n
  [.index p0, .index p1, .index p2, .index p3,
    .a (indexTable n p0), .b (indexTable n p1), .a (indexTable n p2), .b (indexTable n p3)]

/-- The accesses of `producer_stream_v10`, and of `producer_stream_tile_v10` over all tiles. -/
def streamAccesses (opt : Options Mode) (i : Int) : List ArrayAccess :=
  (List.range opt.tiles).flatMap fun tile => tileAccesses opt.n i tile

/-- Every mode but `baseline` splits a block into two roles. -/
def split (mode : Mode) : Bool := mode != .baseline

/-- The elements that a block works on. -/
def perBlock (mode : Mode) : Nat := if split mode then kProducerThreads else kBlockThreads

/-- `grid`; a negative one launches nothing. -/
def grid (opt : Options Mode) : Nat :=
  ((i32 (i32 (opt.n + perBlock opt.mode) - 1)).tdiv (perBlock opt.mode)).toNat

/-- The element of a thread. -/
def element (mode : Mode) (block thread : Nat) : Int :=
  if split mode then i32 (block * kProducerThreads + (thread % kProducerThreads : Nat))
  else i32 (block * kBlockThreads + thread)

/-- The accesses of one thread of a block. -/
def threadAccesses (opt : Options Mode) (block thread : Nat) : List ArrayAccess :=
  let i := element opt.mode block thread
  if i < opt.n then
    if split opt.mode then
      if thread < kProducerThreads then streamAccesses opt i ++ [.producerOut i]
      else [.consumerOut i]
    else streamAccesses opt i ++ [.producerOut i, .consumerOut i]
  else []

/-- The accesses of `reference` on the host for one element. -/
def referenceAccesses (opt : Options Mode) (i : Nat) : List ArrayAccess :=
  streamAccesses opt i ++ [.producerOut i, .consumerOut i]

/-- The table holds indices, wrapped positions are indices, and no access leaves its array. -/
structure IndexSafe (opt : Options Mode) : Prop where
  table : ∀ k : Nat, k < opt.n → 0 ≤ indexTable opt.n k ∧ indexTable opt.n k < opt.n
  wrap : ∀ value : Int, 0 ≤ wrapIndex value opt.n ∧ wrapIndex value opt.n < opt.n
  reference : ∀ i < opt.n, ∀ x ∈ referenceAccesses opt i, x.Within opt.n
  threads : ∀ block < grid opt, ∀ thread < kBlockThreads,
    ∀ x ∈ threadAccesses opt block thread, x.Within opt.n

/-- `wrap_index` yields an index of an array whose size is an `int`. -/
theorem wrapIndex_within {n : Int} (hn : 0 < n) (hle : n < 2147483648) (value : Int) :
    0 ≤ wrapIndex value n ∧ wrapIndex value n < n := by
  have hlo := Int.lt_tmod_of_pos value hn
  have hhi := Int.tmod_lt_of_pos value hn
  unfold wrapIndex
  split
  · rw [i32_eq (by omega) (by omega)]
    omega
  · omega

/-- While `67 * i + 29` does not wrap, the table holds indices. -/
theorem indexTable_within {n : Int} (hn : 0 < n) (hle : n ≤ 32051995) {i : Int} (hi : 0 ≤ i)
    (hlt : i < n) : 0 ≤ indexTable n i ∧ indexTable n i < n := by
  unfold indexTable
  rw [i32_eq (x := i * 67) (by omega) (by omega), i32_eq (by omega) (by omega)]
  exact ⟨Int.tmod_nonneg n (by omega), Int.tmod_lt_of_pos _ hn⟩

/-- A wrapped product gives a negative entry, unless its remainder is 0. -/
theorem indexTable_neg {n i : Int} (hn : 0 < n) (hlo : 32051995 ≤ i) (hhi : i ≤ 32051996)
    (hrem : (2147483602 - 67 * (i - 32051995)) % n ≠ 0) : indexTable n i < 0 := by
  have hwrap : i32 (i32 (i * 67) + 29) = -(2147483602 - 67 * (i - 32051995)) := by
    unfold i32
    omega
  have hnonneg := Int.emod_nonneg (2147483602 - 67 * (i - 32051995)) (Int.ne_of_gt hn)
  unfold indexTable
  rw [hwrap, Int.neg_tmod, Int.tmod_eq_emod_of_nonneg (by omega)]
  omega

/-- A table in which the product wraps has a negative entry. -/
theorem exists_indexTable_neg {n : Nat} (hn : 32051996 ≤ n) : ∃ k < n, indexTable n k < 0 := by
  by_cases hfirst : (2147483602 : Int) % n = 0
  · -- the entry behind it is 67 away from a multiple of `n`
    have hlong : 32051997 ≤ n := by
      rcases hn.eq_or_lt with heq | hlt
      · subst heq
        exact absurd hfirst (by decide)
      · exact hlt
    refine ⟨32051996, by omega, indexTable_neg (by omega) (by omega) (by omega) ?_⟩
    intro hsecond
    have hdvd : (n : Int) ∣ 67 := by
      have h := Int.dvd_sub (Int.dvd_of_emod_eq_zero hfirst) (Int.dvd_of_emod_eq_zero hsecond)
      simpa using h
    have hle := Int.le_of_dvd (by decide) hdvd
    omega
  · refine ⟨32051995, by omega, indexTable_neg (by omega) (by omega) (by omega) ?_⟩
    simpa using hfirst

section

variable {opt : Options Mode}

/-- The streams stay within their arrays when the table does, whatever element they start at. -/
theorem streamAccesses_within (hn : 0 < opt.n) (hle : opt.n ≤ 32051995) {i : Int}
    {x : ArrayAccess} (hx : x ∈ streamAccesses opt i) : x.Within opt.n := by
  have hwrap := wrapIndex_within (n := opt.n) (by omega) (by omega)
  have htable : ∀ value : Int, 0 ≤ indexTable opt.n (wrapIndex value opt.n) ∧
      indexTable opt.n (wrapIndex value opt.n) < opt.n := fun value =>
    indexTable_within (by omega) (by omega) (hwrap value).1 (hwrap value).2
  obtain ⟨tile, _, hx⟩ := List.mem_flatMap.mp hx
  simp only [tileAccesses, List.mem_cons, List.not_mem_nil, or_false] at hx
  rcases hx with rfl | rfl | rfl | rfl | rfl | rfl | rfl | rfl
  · exact hwrap _
  · exact hwrap _
  · exact hwrap _
  · exact hwrap _
  · exact htable _
  · exact htable _
  · exact htable _
  · exact htable _

/-- No element of a launched block is beyond the range of `int`. -/
theorem element_nonneg (hle : opt.n ≤ 32051995) {block thread : Nat} (hblock : block < grid opt)
    (hthread : thread < kBlockThreads) : 0 ≤ element opt.mode block thread := by
  have hper : perBlock opt.mode = 512 ∨ perBlock opt.mode = 1024 := by
    unfold perBlock
    split
    · exact .inl rfl
    · exact .inr rfl
  have hfirst : (block : Int) * perBlock opt.mode < opt.n := by
    unfold grid at hblock
    rw [i32_eq (x := opt.n + perBlock opt.mode) (by omega) (by omega),
      i32_eq (by omega) (by omega), Int.tdiv_eq_ediv_of_nonneg (by omega)] at hblock
    rcases hper with hper | hper
    · rw [hper] at hblock ⊢
      omega
    · rw [hper] at hblock ⊢
      omega
  have hstart : (0 : Int) ≤ block * perBlock opt.mode := Int.mul_nonneg (by omega) (by omega)
  unfold element
  unfold kBlockThreads at hthread
  split
  · rename_i hsplit
    have hrole : thread % kProducerThreads < 512 := Nat.mod_lt thread (by decide)
    rw [show perBlock opt.mode = kProducerThreads from if_pos hsplit] at hfirst hstart
    rw [i32_eq (by omega) (by omega)]
    omega
  · rename_i hsplit
    rw [show perBlock opt.mode = kBlockThreads from if_neg hsplit] at hfirst hstart
    rw [i32_eq (by omega) (by omega)]
    omega

/-- A thread accesses elements within the arrays. -/
theorem threadAccesses_within (hn : 0 < opt.n) (hle : opt.n ≤ 32051995) {block thread : Nat}
    (hblock : block < grid opt) (hthread : thread < kBlockThreads) {x : ArrayAccess}
    (hx : x ∈ threadAccesses opt block thread) : x.Within opt.n := by
  have hpos := element_nonneg hle hblock hthread
  unfold threadAccesses at hx
  simp only at hx
  split at hx
  · rename_i hlt
    split at hx
    · split at hx
      · rcases List.mem_append.mp hx with hx | hx
        · exact streamAccesses_within hn hle hx
        · rw [List.mem_singleton.mp hx]
          exact ⟨hpos, hlt⟩
      · rw [List.mem_singleton.mp hx]
        exact ⟨hpos, hlt⟩
    · rcases List.mem_append.mp hx with hx | hx
      · exact streamAccesses_within hn hle hx
      · simp only [List.mem_cons, List.not_mem_nil, or_false] at hx
        rcases hx with rfl | rfl
        · exact ⟨hpos, hlt⟩
        · exact ⟨hpos, hlt⟩
  · cases hx

end

/-- An accepted run is index safe exactly when the table is not longer than 32051995. -/
theorem index_safe_iff (args : List (List Char)) (opt : Options Mode)
    (h : parseOptions args = .ok opt) : IndexSafe opt ↔ opt.n ≤ 32051995 := by
  obtain ⟨⟨hmax, _, _⟩, hn, _, _⟩ := parseOptions_spec h
  have hint : (opt.n : Int) < 2147483648 := by
    unfold intMax at hmax
    omega
  constructor
  · intro hsafe
    by_contra hlong
    obtain ⟨k, hk, hneg⟩ := exists_indexTable_neg (n := opt.n) (by omega)
    have hpos := (hsafe.table k hk).1
    omega
  · intro hle
    refine ⟨?_, wrapIndex_within (by omega) hint, ?_, ?_⟩
    · intro k hk
      exact indexTable_within (by omega) (by omega) (by omega) (by omega)
    · intro i hi x hx
      rcases List.mem_append.mp hx with hx | hx
      · exact streamAccesses_within hn hle hx
      · simp only [List.mem_cons, List.not_mem_nil, or_false] at hx
        have hwithin : (0 : Int) ≤ i ∧ (i : Int) < opt.n := by omega
        rcases hx with rfl | rfl
        · exact hwithin
        · exact hwithin
    · intro block hblock thread hthread x hx
      exact threadAccesses_within hn hle hblock hthread hx

theorem index_safe_iff_of_defaults : IndexSafe { mode := .baseline } :=
  (index_safe_iff [] { mode := .baseline } rfl).mpr (by decide)

/-- The table of 40000000 entries has a negative one. -/
theorem long_table_unsafe :
    parseOptions ["--n".toList, "40000000".toList] = .ok { mode := .baseline, n := 40000000 } ∧
      indexTable 40000000 32051995 < 0 ∧ ¬IndexSafe { mode := .baseline, n := 40000000 } := by
  refine ⟨rfl, by decide, fun hsafe => ?_⟩
  exact absurd (hsafe.table 32051995 (by decide)).1 (by decide)

end PairKernel
end WaspSim
