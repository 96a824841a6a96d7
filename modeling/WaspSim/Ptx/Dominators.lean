import WaspSim.Core.Dominance
import WaspSim.Ptx.ControlFlow

/-!
# Dominators are the blocks that every path passes

The sets that the two searches cut down end up with the blocks on every path of links to the root,
which is the exit block for postdominators and the entry block for dominators. When every block
reaches the root, striking out leaves the nearest of them.
-/

namespace WaspSim

/-- The links of a function of `n` blocks, towards the neighbours of a block. -/
def Edge (n : Nat) (neighbours : Nat → Finset Nat) (b b' : Nat) : Prop :=
  b' < n ∧ b' ∈ neighbours b

section

variable {n root b d h k s t : Nat} {neighbours sets sets' : Nat → Finset Nat} {order : List Nat}
  {tmp : Finset Nat} {links : Links} {p : List Nat}

theorem mem_inOrder {blocks : Finset Nat} : b ∈ inOrder n blocks ↔ b < n ∧ b ∈ blocks := by
  rw [inOrder, List.mem_filter, List.mem_range, decide_eq_true_eq]

/-- The elements that all sets of a list have. -/
theorem mem_foldl_inter {l : List Nat} {T : Finset Nat} :
    d ∈ l.foldl (fun T s => T ∩ sets s) T ↔ d ∈ T ∧ ∀ s ∈ l, d ∈ sets s := by
  induction l generalizing T with
  | nil => simp
  | cons s l ih =>
    rw [List.foldl_cons, ih, Finset.mem_inter, List.forall_mem_cons, and_assoc]

/-- What the neighbours of a block have in common, and the block itself. -/
theorem mem_common : d ∈ common n neighbours sets h ↔
    d = h ∨ d < n ∧ ∀ s, Edge n neighbours h s → d ∈ sets s := by
  rw [common, Finset.mem_insert, mem_foldl_inter, Finset.mem_range]
  simp only [mem_inOrder]
  exact Iff.rfl

/-- Larger sets have more in common. -/
theorem common_monotone : Monotone (common n neighbours) := by
  intro sets sets' hle h d hd
  rw [mem_common] at hd ⊢
  exact hd.imp_right fun ⟨hdn, hall⟩ => ⟨hdn, fun s hs => hle s (hall s hs)⟩

/-- The sets that the searches start with are cut down by the first round. -/
theorem common_lowers (horder : ∀ h, h ∈ order ↔ h < n ∧ h ≠ root) :
    Sweep.Lowers (common n neighbours) order (allBut n root) := by
  intro h hh d hd
  obtain ⟨hhn, hne⟩ := (horder h).mp hh
  rw [allBut, if_neg hne, Finset.mem_range]
  rcases mem_common.mp hd with rfl | ⟨hdn, _⟩
  · exact hhn
  · exact hdn

/-- The rounds allowed are enough. -/
theorem total_allBut (horder : ∀ h, h ∈ order ↔ h < n ∧ h ≠ root) :
    Sweep.total Finset.card order (allBut n root) < n * n + 1 := by
  have hsub : order.toFinset ⊆ Finset.range n := by
    intro h hh
    rw [Finset.mem_range]
    exact ((horder h).mp (List.mem_toFinset.mp hh)).1
  have hcard : ∀ h ∈ order.toFinset, (allBut n root h).card ≤ n := by
    intro h hh
    have hne := ((horder h).mp (List.mem_toFinset.mp hh)).2
    rw [allBut, if_neg hne, Finset.card_range]
  rw [Nat.lt_succ_iff]
  calc Sweep.total Finset.card order (allBut n root)
      ≤ order.toFinset.card * n := Finset.sum_le_card_nsmul _ _ _ hcard
    _ ≤ n * n := Nat.mul_le_mul_right n ((Finset.card_le_card hsub).trans (Finset.card_range n).le)

/-- The searches come to an end. -/
theorem settle_common (horder : ∀ h, h ∈ order ↔ h < n ∧ h ≠ root) :
    ∃ sets, Sweep.settle (common n neighbours) order (n * n + 1) (allBut n root) = some sets :=
  Sweep.settle_isSome common_monotone Finset.card_strictMono (common_lowers horder)
    (total_allBut horder)

/-- They end with the blocks that every path to the root passes. -/
theorem mem_settled (horder : ∀ h, h ∈ order ↔ h < n ∧ h ≠ root)
    (hrun : Sweep.settle (common n neighbours) order (n * n + 1) (allBut n root) = some sets)
    (hb : b < n) :
    d ∈ sets b ↔ d < n ∧ Guards (Edge n neighbours) root d b := by
  obtain ⟨hle, hfix, hout, hgreatest⟩ :=
    Sweep.settle_spec common_monotone (common_lowers horder) hrun
  have hroot : sets root = {root} := by
    rw [hout root fun hmem => ((horder root).mp hmem).2 rfl, allBut, if_pos rfl]
  constructor
  · intro hd
    refine ⟨?_, ?_⟩
    · have hmem := hle b hd
      rw [allBut] at hmem
      split at hmem
      · next heq => rw [Finset.mem_singleton.mp hmem, ← heq]; exact hb
      · exact Finset.mem_range.mp hmem
    · -- membership in a settled set is such a relation
      refine Guards.greatest (R := fun d u => u < n ∧ d ∈ sets u) ?_ ?_ ⟨hb, hd⟩
      · rintro d ⟨_, hd⟩
        rw [hroot] at hd
        exact Finset.mem_singleton.mp hd
      · rintro d u hu ⟨hun, hd⟩
        rw [← hfix u ((horder u).mpr ⟨hun, hu⟩)] at hd
        rcases mem_common.mp hd with rfl | ⟨_, hall⟩
        · exact .inl rfl
        · exact .inr fun v hv => ⟨hv.1, hall v hv⟩
  · rintro ⟨hdn, hguards⟩
    classical
    let X := fun b => (Finset.range n).filter fun d => Guards (Edge n neighbours) root d b
    have hX : ∀ h ∈ order, X h ≤ common n neighbours X h := by
      intro h hh e he
      obtain ⟨_, hne⟩ := (horder h).mp hh
      obtain ⟨hen, heh⟩ := Finset.mem_filter.mp he
      rw [mem_common]
      rcases (Guards.iff_edges hne).mp heh with rfl | hall
      · exact .inl rfl
      · exact .inr ⟨Finset.mem_range.mp hen, fun s hs => Finset.mem_filter.mpr ⟨hen, hall s hs⟩⟩
    have hstart : X ≤ allBut n root := by
      intro h e he
      obtain ⟨hen, heh⟩ := Finset.mem_filter.mp he
      rw [allBut]
      split
      · next heq =>
        rw [heq] at heh
        exact Finset.mem_singleton.mpr heh.eq_root
      · exact hen
    refine hgreatest X hX hstart b (Finset.mem_filter.mpr ⟨Finset.mem_range.mpr hdn, hguards⟩)

/-- One round of striking out. -/
theorem mem_strike_round : t ∈ (if s ∈ tmp then tmp.filter fun t => t = s ∨ t ∉ sets s else tmp) ↔
    t ∈ tmp ∧ (s ∈ tmp → t = s ∨ t ∉ sets s) := by
  split
  · next h =>
    rw [Finset.mem_filter]
    exact ⟨fun ⟨ht, hs⟩ => ⟨ht, fun _ => hs⟩, fun ⟨ht, hs⟩ => ⟨ht, hs h⟩⟩
  · next h => exact ⟨fun ht => ⟨ht, fun hs => absurd hs h⟩, fun ⟨ht, _⟩ => ht⟩

/-- The block whose turn it is stays. -/
theorem strike_eq_empty : strike n sets tmp = ∅ ↔ tmp = ∅ := by
  unfold strike
  generalize List.range n = l
  induction l generalizing tmp with
  | nil => exact Iff.rfl
  | cons s l ih =>
    rw [List.foldl_cons, ih]
    constructor
    · intro h
      by_contra hne
      obtain ⟨t, ht⟩ := Finset.nonempty_iff_ne_empty.mpr hne
      by_cases hs : s ∈ tmp
      · have hmem : s ∈ (∅ : Finset Nat) := h ▸ mem_strike_round.mpr ⟨hs, fun _ => .inl rfl⟩
        exact Finset.notMem_empty s hmem
      · have hmem : t ∈ (∅ : Finset Nat) := h ▸ mem_strike_round.mpr ⟨ht, fun h' => absurd h' hs⟩
        exact Finset.notMem_empty t hmem
    · rintro rfl
      rw [if_neg (Finset.notMem_empty s)]

/-- What is left when one more candidate has struck out its own. -/
theorem mem_strike_succ : t ∈ strike (s + 1) sets tmp ↔
    t ∈ strike s sets tmp ∧ (s ∈ strike s sets tmp → t = s ∨ t ∉ sets s) := by
  rw [strike, List.range_succ, List.foldl_append]
  exact mem_strike_round

/-- When the sets hold the guards, the nearest of the other guards is never struck out, and
strikes out all others when it has its turn. -/
theorem strike_nearest {E : Nat → Nat → Prop} {i u : Nat} (hp : PathTo E root u p)
    (hi : NearestGuard E root i u) (hin : i < n)
    (htmp : ∀ t, t ∈ tmp ↔ t ≠ u ∧ t < n ∧ Guards E root t u)
    (hsets : ∀ s ∈ tmp, ∀ t, t ∈ sets s ↔ t < n ∧ Guards E root t s) (k : Nat) :
    (∀ t ∈ strike k sets tmp, t ∈ tmp) ∧ i ∈ strike k sets tmp ∧
      (i < k → ∀ t ∈ strike k sets tmp, t = i) := by
  obtain ⟨q, _, hq⟩ := hp.suffix (hi.guards p hp)
  induction k with
  | zero =>
    exact ⟨fun t ht => ht, (htmp i).mpr ⟨hi.ne, hin, hi.guards⟩,
      fun h => absurd h (Nat.not_lt_zero i)⟩
  | succ k ih =>
    obtain ⟨hsub, hmem, hdone⟩ := ih
    refine ⟨fun t ht => hsub t (mem_strike_succ.mp ht).1, ?_, fun hik t ht => ?_⟩
    · refine mem_strike_succ.mpr ⟨hmem, fun hk => ?_⟩
      by_cases heq : i = k
      · exact .inl heq
      · refine .inr fun hik => heq ?_
        obtain ⟨hku, _, hkg⟩ := (htmp k).mp (hsub k hk)
        have hgik := ((hsets k (hsub k hk) i).mp hik).2
        exact Guards.antisymm hq hgik (hi.behind k hku hkg)
    · obtain ⟨ht, hround⟩ := mem_strike_succ.mp ht
      rcases Nat.lt_succ_iff_lt_or_eq.mp hik with hlt | rfl
      · exact hdone hlt t ht
      · refine (hround hmem).resolve_right fun hnot => hnot ?_
        obtain ⟨htu, htn, htg⟩ := (htmp t).mp (hsub t ht)
        exact (hsets i (hsub i hmem) t).mpr ⟨htn, hi.behind t htu htg⟩

/-- What is left after all rounds. -/
theorem strike_eq {E : Nat → Nat → Prop} {i u : Nat} (hp : PathTo E root u p)
    (hi : NearestGuard E root i u) (hin : i < n)
    (htmp : ∀ t, t ∈ tmp ↔ t ≠ u ∧ t < n ∧ Guards E root t u)
    (hsets : ∀ s ∈ tmp, ∀ t, t ∈ sets s ↔ t < n ∧ Guards E root t s) :
    strike n sets tmp = {i} := by
  obtain ⟨_, hmem, hdone⟩ := strike_nearest hp hi hin htmp hsets n
  ext t
  rw [Finset.mem_singleton]
  constructor
  · exact hdone hin t
  · rintro rfl
    exact hmem

theorem firstOf_singleton {i : Nat} (hi : i < n) : firstOf n {i} = some i := by
  have hmem : i ∈ inOrder n {i} := mem_inOrder.mpr ⟨hi, Finset.mem_singleton_self i⟩
  rw [firstOf]
  cases hl : inOrder n {i} with
  | nil => rw [hl] at hmem; cases hmem
  | cons a l =>
    have ha : a ∈ inOrder n {i} := hl ▸ List.mem_cons_self
    rw [List.head?_cons, Finset.mem_singleton.mp (mem_inOrder.mp ha).2]

/-- A block that reaches the root has a nearest guard, and it is a block of the function. -/
theorem exists_nearestGuard (hb : b < n) (hne : b ≠ root) (hroot : root < n)
    (hp : PathTo (Edge n neighbours) root b p) :
    ∃ i < n, NearestGuard (Edge n neighbours) root i b := by
  have hpath : ∀ d ∈ p, d < n := by
    clear hne
    induction hp with
    | arrive =>
      intro d hd
      rw [List.mem_singleton.mp hd]
      exact hroot
    | step hE _ ih =>
      intro d hd
      rcases List.mem_cons.mp hd with rfl | hd
      · exact hb
      · exact ih hE.1 d hd
  obtain ⟨i, hi, hnearest⟩ := NearestGuard.exists_nearest (V := Finset.range n)
    (fun d hd => Finset.mem_range.mpr (hpath d (hd p hp))) hp hne
  exact ⟨i, Finset.mem_range.mp hi, hnearest⟩

/-- The postdominators of a block are the blocks on every path to the exit block. -/
theorem findPostdominators_spec (n : Nat) (links : Links) :
    ∃ sets, findPostdominators n links = .ok sets ∧
      ∀ b < n, ∀ d, d ∈ sets b ↔
        d < n ∧ Guards (Edge n links.successors) (n - 1) d b := by
  have horder : ∀ h, h ∈ (List.range (n - 1)).reverse ↔ h < n ∧ h ≠ n - 1 := by
    intro h
    rw [List.mem_reverse, List.mem_range]
    omega
  obtain ⟨sets, hrun⟩ : ∃ sets, Sweep.settle (common n links.successors)
      (List.range (n - 1)).reverse (n * n + 1) (allBut n (n - 1)) = some sets :=
    settle_common horder
  refine ⟨sets, ?_, fun b hb d => mem_settled horder hrun hb⟩
  rw [findPostdominators, hrun]
  rfl

/-- The other postdominators of the exit block are none. -/
theorem postdominators_exit (hn : 0 < n)
    (hsets : ∀ b < n, ∀ d, d ∈ sets b ↔ d < n ∧ Guards (Edge n neighbours) (n - 1) d b) :
    (sets (n - 1)).erase (n - 1) = ∅ := by
  rw [Finset.eq_empty_iff_forall_notMem]
  intro d hd
  obtain ⟨hne, hd⟩ := Finset.mem_erase.mp hd
  exact hne ((hsets (n - 1) (Nat.sub_lt hn Nat.one_pos) d).mp hd).2.eq_root

/-- All numbers below `n` but the last are counted exactly when all of these satisfy `q`. -/
theorem countP_range {q : Nat → Bool} (hn : 0 < n) (hlast : q (n - 1) = false) :
    (List.range n).countP q = n - 1 ↔ ∀ b < n - 1, q b = true := by
  have hsucc : List.range n = List.range (n - 1) ++ [n - 1] := by
    rw [← List.range_succ, Nat.succ_eq_add_one, Nat.sub_add_cancel hn]
  rw [hsucc, List.countP_append, List.countP_singleton, hlast, if_neg Bool.false_ne_true,
    Nat.add_zero]
  constructor
  · intro h b hb
    exact List.countP_eq_length.mp (h.trans List.length_range.symm) b (List.mem_range.mpr hb)
  · intro h
    rw [List.countP_eq_length.mpr fun b hb => h b (List.mem_range.mp hb), List.length_range]

/-- Striking out leaves the nearest postdominator of a block that reaches the exit block. -/
theorem postTmpIds_eq (hn : 0 < n) (hb : b + 1 < n)
    (hsets : ∀ b < n, ∀ d, d ∈ sets b ↔ d < n ∧ Guards (Edge n neighbours) (n - 1) d b)
    (hp : PathTo (Edge n neighbours) (n - 1) b p) :
    ∃ i < n, postTmpIds n sets b = {i} ∧ NearestGuard (Edge n neighbours) (n - 1) i b := by
  obtain ⟨i, hin, hi⟩ := exists_nearestGuard (by omega) (by omega) (Nat.sub_lt hn Nat.one_pos) hp
  refine ⟨i, hin, ?_, hi⟩
  rw [postTmpIds, if_pos hb]
  refine strike_eq hp hi hin (fun t => ?_) (fun s hs t => ?_)
  · rw [Finset.mem_erase, hsets b (by omega)]
  · have hsn := ((hsets b (by omega) s).mp (Finset.mem_of_mem_erase hs)).1
    exact hsets s hsn t

/-- The exit block is left with none. -/
theorem postTmpIds_exit (hn : 0 < n)
    (hsets : ∀ b < n, ∀ d, d ∈ sets b ↔ d < n ∧ Guards (Edge n neighbours) (n - 1) d b) :
    postTmpIds n sets (n - 1) = ∅ := by
  rw [postTmpIds, if_neg (by omega), postdominators_exit hn hsets]

/-- The first number of a set below `n`. -/
theorem firstOf_isSome (htmp : tmp ≠ ∅) (hlt : ∀ t ∈ tmp, t < n) : ∃ i, firstOf n tmp = some i := by
  obtain ⟨t, ht⟩ := Finset.nonempty_iff_ne_empty.mpr htmp
  have hmem : t ∈ inOrder n tmp := mem_inOrder.mpr ⟨hlt t ht, ht⟩
  rw [firstOf]
  cases hl : inOrder n tmp with
  | nil => rw [hl] at hmem; cases hmem
  | cons a l => exact ⟨a, rfl⟩

/-- Striking out adds nothing. -/
theorem strike_subset : strike k sets tmp ⊆ tmp := by
  induction k with
  | zero => exact Finset.Subset.refl tmp
  | succ k ih => exact fun t ht => ih (mem_strike_succ.mp ht).1

/-- When every block reaches the exit block, the assertions of `find_ipostdominators` hold, and
every other block gets the nearest of its postdominators. -/
theorem findIpostdominators_spec (hn : 0 < n)
    (hsets : ∀ b < n, ∀ d, d ∈ sets b ↔ d < n ∧ Guards (Edge n neighbours) (n - 1) d b)
    (hreach : ∀ b < n, ∃ p, PathTo (Edge n neighbours) (n - 1) b p) :
    ∃ ipdom, findIpostdominators n sets = .ok ipdom ∧ ∀ b, b + 1 < n →
      ∃ i < n, ipdom b = some i ∧ NearestGuard (Edge n neighbours) (n - 1) i b := by
  have hnearest : ∀ b, b + 1 < n → ∃ i < n, postTmpIds n sets b = {i} ∧
      NearestGuard (Edge n neighbours) (n - 1) i b := by
    intro b hb
    obtain ⟨p, hp⟩ := hreach b (by omega)
    exact postTmpIds_eq hn hb hsets hp
  have hlast := postTmpIds_exit hn hsets
  have hcard : ∀ b ∈ List.range n, (postTmpIds n sets b).card ≤ 1 := by
    intro b hb
    rw [List.mem_range] at hb
    rcases Nat.lt_or_ge (b + 1) n with hlt | hge
    · obtain ⟨i, _, htmp, _⟩ := hnearest b hlt
      rw [htmp, Finset.card_singleton]
    · have hbn : b = n - 1 := by omega
      rw [hbn, hlast, Finset.card_empty]
      exact Nat.zero_le 1
  have hcount : (List.range n).countP (fun b => decide (postTmpIds n sets b ≠ ∅)) = n - 1 := by
    rw [countP_range hn (by rw [hlast]; rfl)]
    intro b hb
    obtain ⟨i, _, htmp, _⟩ := hnearest b (by omega)
    rw [decide_eq_true_eq, htmp]
    exact Finset.singleton_ne_empty i
  refine ⟨_, bind_eq_ok.mpr ⟨(), require_eq_ok.mpr hcard,
    bind_eq_ok.mpr ⟨(), require_eq_ok.mpr hcount, rfl⟩⟩, fun b hb => ?_⟩
  obtain ⟨i, hin, htmp, hi⟩ := hnearest b hb
  refine ⟨i, hin, ?_, hi⟩
  rw [if_pos (Nat.lt_of_succ_lt hb), htmp, firstOf_singleton hin]

/-- When its assertions hold, `find_ipostdominators` gives every block but the exit block an
immediate postdominator, and the nearest one to a block that reaches the exit block. -/
theorem findIpostdominators_sound {ipdom : Nat → Option Nat} (hn : 0 < n)
    (hsets : ∀ b < n, ∀ d, d ∈ sets b ↔ d < n ∧ Guards (Edge n neighbours) (n - 1) d b)
    (h : findIpostdominators n sets = .ok ipdom) (hb : b + 1 < n) :
    (∃ i, ipdom b = some i) ∧ ∀ p, PathTo (Edge n neighbours) (n - 1) b p →
      ∃ i < n, ipdom b = some i ∧ NearestGuard (Edge n neighbours) (n - 1) i b := by
  obtain ⟨_, _, h⟩ := bind_eq_ok.mp h
  obtain ⟨_, hcount, h⟩ := bind_eq_ok.mp h
  rw [require_eq_ok, countP_range hn (by rw [postTmpIds_exit hn hsets]; rfl)] at hcount
  cases pure_eq_ok.mp h
  have hne : postTmpIds n sets b ≠ ∅ := of_decide_eq_true (hcount b (by omega))
  have hlt : ∀ t ∈ postTmpIds n sets b, t < n := by
    intro t ht
    rw [postTmpIds, if_pos hb] at ht
    exact ((hsets b (by omega) t).mp (Finset.mem_of_mem_erase (strike_subset ht))).1
  refine ⟨?_, fun p hp => ?_⟩
  · obtain ⟨i, hi⟩ := firstOf_isSome hne hlt
    exact ⟨i, (if_pos (Nat.lt_of_succ_lt hb)).trans hi⟩
  · obtain ⟨i, hin, htmp, hi⟩ := postTmpIds_eq hn hb hsets hp
    refine ⟨i, hin, (if_pos (Nat.lt_of_succ_lt hb)).trans ?_, hi⟩
    rw [htmp, firstOf_singleton hin]

/-- The dominators of a block with a predecessor, and of the entry block, are the blocks on every
path from the entry block, followed backwards. -/
theorem findDominators_spec (n : Nat) (links : Links) :
    ∃ sets, findDominators n links = .ok sets ∧ ∀ b < n,
      (b ≠ 0 → links.predecessors b = ∅ → sets b = ∅) ∧
      ((b = 0 ∨ links.predecessors b ≠ ∅) → ∀ d, d ∈ sets b ↔
        d < n ∧ Guards (Edge n links.predecessors) 0 d b) := by
  have horder : ∀ h, h ∈ List.range' 1 (n - 1) ↔ h < n ∧ h ≠ 0 := by
    intro h
    rw [List.mem_range'_1]
    omega
  obtain ⟨sets, hrun⟩ : ∃ sets, Sweep.settle (common n links.predecessors)
      (List.range' 1 (n - 1)) (n * n + 1) (allBut n 0) = some sets := settle_common horder
  refine ⟨fun b => if b ≠ 0 ∧ links.predecessors b = ∅ then ∅ else sets b, ?_,
    fun b hb => ⟨fun h0 hp => if_pos ⟨h0, hp⟩, fun h d => ?_⟩⟩
  · rw [findDominators, hrun]
    rfl
  · have hno : ¬ (b ≠ 0 ∧ links.predecessors b = ∅) := by
      rintro ⟨h0, hp⟩
      rcases h with h | h
      · exact h0 h
      · exact h hp
    have hset : (fun b => if b ≠ 0 ∧ links.predecessors b = ∅ then ∅ else sets b) b = sets b :=
      if_neg hno
    rw [hset]
    exact mem_settled horder hrun hb

/-- What `find_dominators` establishes. -/
def DominatorSets (n : Nat) (links : Links) (sets : Nat → Finset Nat) : Prop :=
  ∀ b < n, (b ≠ 0 → links.predecessors b = ∅ → sets b = ∅) ∧
    ((b = 0 ∨ links.predecessors b ≠ ∅) → ∀ d, d ∈ sets b ↔
      d < n ∧ Guards (Edge n links.predecessors) 0 d b)

/-- A block has other dominators exactly when it is not the entry block and has a predecessor. -/
theorem DominatorSets.erase_eq_empty (hn : 0 < n) (h : DominatorSets n links sets) (hb : b < n) :
    (sets b).erase b = ∅ ↔ b = 0 ∨ links.predecessors b = ∅ := by
  obtain ⟨hclear, hsets⟩ := h b hb
  constructor
  · intro hempty
    by_contra hno
    rw [not_or] at hno
    have hmem : 0 ∈ (sets b).erase b :=
      Finset.mem_erase.mpr ⟨Ne.symm hno.1, (hsets (.inr hno.2) 0).mpr ⟨hn, .root_guards⟩⟩
    rw [hempty] at hmem
    exact Finset.notMem_empty 0 hmem
  · intro hcase
    rw [Finset.eq_empty_iff_forall_notMem]
    intro d hd
    obtain ⟨hne, hd⟩ := Finset.mem_erase.mp hd
    by_cases h0 : b = 0
    · subst h0
      exact hne ((hsets (.inl rfl) d).mp hd).2.eq_root
    · rw [hclear h0 (hcase.resolve_left h0)] at hd
      exact Finset.notMem_empty d hd

/-- Counting the blocks with an immediate dominator and those without a predecessor. -/
theorem count_idoms (hn : 0 < n) {q : Nat → Bool} :
    (List.range n).countP (fun b => decide (¬ (b = 0 ∨ q b = true))) =
        n - (List.range n).countP (fun b => decide ((b = 0 ∨ q b = true) ∧ q b = true)) ↔
      q 0 = true := by
  obtain ⟨m, rfl⟩ : ∃ m, n = m + 1 := ⟨n - 1, by omega⟩
  have hpos : ∀ b ∈ List.range' 1 m, b ≠ 0 := by
    intro b hb
    rw [List.mem_range'_1] at hb
    omega
  have hsome : (List.range' 1 m).countP (fun b => decide (¬ (b = 0 ∨ q b = true))) =
      (List.range' 1 m).countP fun b => ¬ q b = true := by
    refine List.countP_congr fun b hb => ?_
    simp [hpos b hb]
  have hnone : (List.range' 1 m).countP
      (fun b => decide ((b = 0 ∨ q b = true) ∧ q b = true)) = (List.range' 1 m).countP q := by
    refine List.countP_congr fun b hb => ?_
    simp [hpos b hb]
  have hlen := List.length_eq_countP_add_countP q (l := List.range' 1 m)
  rw [List.length_range'] at hlen
  rw [List.range_eq_range', List.range'_succ, List.countP_cons, List.countP_cons, hsome, hnone]
  simp only [true_or, not_true_eq_false, decide_false, Bool.false_eq_true, if_false, true_and,
    Bool.decide_eq_true]
  split
  · next hq => exact iff_of_true (by omega) hq
  · next hq => exact iff_of_false (by omega) hq

/-- A block on a path from the entry block has a predecessor. -/
theorem pred_of_path {u : Nat} (hp : PathTo (Edge n neighbours) 0 u p) (hb : b ∈ p) :
    b = 0 ∨ neighbours b ≠ ∅ := by
  obtain ⟨q, _, hq⟩ := hp.suffix hb
  cases hq with
  | arrive => exact .inl rfl
  | step hE _ => exact .inr (Finset.ne_empty_of_mem hE.2)

/-- `find_idominators` passes its assertion exactly when no block is linked to the entry block,
and then every other block that the entry block leads to gets the nearest of its dominators. -/
theorem findIdominators_spec (hn : 0 < n) (h : DominatorSets n links sets)
    (old : Nat → Option Nat) :
    ((∃ idom, findIdominators n links sets old = .ok idom) ↔ links.predecessors 0 = ∅) ∧
      ∀ idom, findIdominators n links sets old = .ok idom →
        ∀ b < n, b ≠ 0 → (∃ p, PathTo (Edge n links.predecessors) 0 b p) →
          ∃ i < n, idom b = some i ∧ NearestGuard (Edge n links.predecessors) 0 i b := by
  let tmp := fun b => strike n sets ((sets b).erase b)
  have htmp : ∀ b < n, tmp b = ∅ ↔ b = 0 ∨ links.predecessors b = ∅ := fun b hb =>
    strike_eq_empty.trans (h.erase_eq_empty hn hb)
  have hidoms : (List.range n).countP (fun b => decide (tmp b ≠ ∅)) =
      (List.range n).countP fun b =>
        decide (¬ (b = 0 ∨ decide (links.predecessors b = ∅) = true)) := by
    refine List.countP_congr fun b hb => ?_
    rw [decide_eq_true_eq, decide_eq_true_eq, Ne, htmp b (List.mem_range.mp hb), decide_eq_true_eq]
  have hnopred : (List.range n).countP
      (fun b => decide (tmp b = ∅ ∧ links.predecessors b = ∅)) =
      (List.range n).countP fun b =>
        decide ((b = 0 ∨ decide (links.predecessors b = ∅) = true) ∧
          decide (links.predecessors b = ∅) = true) := by
    refine List.countP_congr fun b hb => ?_
    rw [decide_eq_true_eq, decide_eq_true_eq, htmp b (List.mem_range.mp hb), decide_eq_true_eq]
  have hcount : (List.range n).countP (fun b => decide (tmp b ≠ ∅)) =
      n - (List.range n).countP (fun b => decide (tmp b = ∅ ∧ links.predecessors b = ∅)) ↔
      links.predecessors 0 = ∅ := by
    rw [hidoms, hnopred, count_idoms hn, decide_eq_true_eq]
  constructor
  · rw [← hcount]
    constructor
    · rintro ⟨idom, hrun⟩
      obtain ⟨_, hreq, _⟩ := bind_eq_ok.mp hrun
      exact require_eq_ok.mp hreq
    · intro hreq
      exact ⟨_, bind_eq_ok.mpr ⟨(), require_eq_ok.mpr hreq, rfl⟩⟩
  · rintro idom hrun b hb hne ⟨p, hp⟩
    obtain ⟨_, _, hpure⟩ := bind_eq_ok.mp hrun
    cases pure_eq_ok.mp hpure
    obtain ⟨i, hin, hi⟩ := exists_nearestGuard hb hne hn hp
    have heq : tmp b = {i} := by
      refine strike_eq hp hi hin (fun t => ?_) (fun s hs t => ?_)
      · rw [Finset.mem_erase, (h b hb).2 (pred_of_path hp hp.head_mem) t]
      · have hsb := (((h b hb).2 (pred_of_path hp hp.head_mem) s).mp (Finset.mem_of_mem_erase hs))
        exact (h s hsb.1).2 (pred_of_path hp (hsb.2 p hp)) t
    refine ⟨i, hin, ?_, hi⟩
    have hsome : tmp b ≠ ∅ := by
      rw [heq]
      exact Finset.singleton_ne_empty i
    refine (if_pos ⟨hb, hsome⟩).trans ?_
    change firstOf n (tmp b) = some i
    rw [heq, firstOf_singleton hin]

/-- The postdominators of a block are the blocks on all its paths to the exit block. In a graph in
which every block reaches the exit block, the immediate one is the nearest of the others. -/
theorem postdominators_nearest (n : Nat) (links : Links) :
    ∃ sets, findPostdominators n links = .ok sets ∧
      (∀ b < n, ∀ d, d ∈ sets b ↔ d < n ∧ Guards (Edge n links.successors) (n - 1) d b) ∧
      (0 < n → (∀ b < n, ∃ p, PathTo (Edge n links.successors) (n - 1) b p) →
        ∃ ipdom, findIpostdominators n sets = .ok ipdom ∧
          ∀ b, b + 1 < n → ∃ i < n, ipdom b = some i ∧
            NearestGuard (Edge n links.successors) (n - 1) i b) := by
  obtain ⟨sets, hrun, hsets⟩ := findPostdominators_spec n links
  exact ⟨sets, hrun, hsets, fun hn hreach => findIpostdominators_spec hn hsets hreach⟩

/-- Two ways from block 0 to block 3. -/
def diamond : Links := (((Links.add {} 0 1).add 0 2).add 1 3).add 2 3

theorem postdominators_nearest_diamond : ∃ sets ipdom, findPostdominators 4 diamond = .ok sets ∧
    findIpostdominators 4 sets = .ok ipdom ∧
    ∃ i < 4, ipdom 0 = some i ∧ NearestGuard (Edge 4 diamond.successors) 3 i 0 := by
  have hstep : ∀ u v p, v < 4 → v ∈ diamond.successors u →
      PathTo (Edge 4 diamond.successors) 3 v p → PathTo (Edge 4 diamond.successors) 3 u (u :: p) :=
    fun u v p hv hmem hp => .step ⟨hv, hmem⟩ hp
  have h1 := hstep 1 3 [3] (by decide) (by decide) .arrive
  have h2 := hstep 2 3 [3] (by decide) (by decide) .arrive
  have h0 := hstep 0 1 _ (by decide) (by decide) h1
  have hreach : ∀ b < 4, ∃ p, PathTo (Edge 4 diamond.successors) (4 - 1) b p := by
    intro b hb
    match b, hb with
    | 0, _ => exact ⟨_, h0⟩
    | 1, _ => exact ⟨_, h1⟩
    | 2, _ => exact ⟨_, h2⟩
    | 3, _ => exact ⟨_, .arrive⟩
  obtain ⟨sets, hsets, _, hnearest⟩ := postdominators_nearest 4 diamond
  obtain ⟨ipdom, hipdom, hnearest⟩ := hnearest (by decide) hreach
  exact ⟨sets, ipdom, hsets, hipdom, hnearest 0 (by decide)⟩

/-- The dominators of a block are the blocks on all paths to it from the entry block. The assertion
of `find_idominators` fails exactly for a function that branches back to its entry block; when it
holds, every other block that control can reach gets the nearest of its dominators. -/
theorem dominators_nearest (n : Nat) (links : Links) (hn : 0 < n) :
    ∃ sets, findDominators n links = .ok sets ∧ DominatorSets n links sets ∧
      ∀ old, ((∃ idom, findIdominators n links sets old = .ok idom) ↔ links.predecessors 0 = ∅) ∧
        ∀ idom, findIdominators n links sets old = .ok idom →
          ∀ b < n, b ≠ 0 → (∃ p, PathTo (Edge n links.predecessors) 0 b p) →
            ∃ i < n, idom b = some i ∧ NearestGuard (Edge n links.predecessors) 0 i b := by
  obtain ⟨sets, hrun, hsets⟩ := findDominators_spec n links
  exact ⟨sets, hrun, hsets, findIdominators_spec hn hsets⟩

theorem dominators_nearest_diamond : ∃ sets, findDominators 4 diamond = .ok sets ∧
    ∃ idom, findIdominators 4 diamond sets (fun _ => none) = .ok idom ∧
      ∃ i < 4, idom 3 = some i ∧ NearestGuard (Edge 4 diamond.predecessors) 0 i 3 := by
  have hpath : PathTo (Edge 4 diamond.predecessors) 0 3 [3, 1, 0] :=
    .step ⟨by decide, by decide⟩ (.step ⟨by decide, by decide⟩ .arrive)
  obtain ⟨sets, hrun, _, hspec⟩ := dominators_nearest 4 diamond (by decide)
  obtain ⟨hiff, hnearest⟩ := hspec fun _ => none
  obtain ⟨idom, hidom⟩ := hiff.mpr rfl
  exact ⟨sets, hrun, idom, hidom, hnearest idom hidom 3 (by decide) (by decide) ⟨_, hpath⟩⟩

end

end WaspSim
