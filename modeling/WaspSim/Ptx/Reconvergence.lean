import WaspSim.Ptx.Dominators
import WaspSim.Ptx.Links

/-!
# Where diverged threads meet again

A thread that executes a function follows the links of its basic blocks. So whatever way it takes
from a branch to the end of the function, it comes by the PC that `get_converge_point` gives for
the branch, and that PC begins the nearest block with this property.
-/

namespace WaspSim

/-- The PC of the instruction at a line. -/
def AssembledFunction.pcOf (F : AssembledFunction) (j : Nat) : Nat := F.startPc + offset F.lines j

/-- What executing an instruction may do to the PC of a thread, `none` for leaving the function.
A call counts until it returns, and a `break` goes to one of the blocks found for it. -/
structure Executes (F : AssembledFunction) (g : FlowGraph) (next : Nat → Option Nat → Prop) :
    Prop where
  plain : ∀ j pI o, F.lines[j]? = some (.inst pI) → next (F.pcOf j) o → pI.leaves = false →
    pI.opcode ≠ .bra → pI.opcode ≠ .brk → o = some (F.pcOf j + pI.instSize)
  leave : ∀ j pI o, F.lines[j]? = some (.inst pI) → next (F.pcOf j) o → pI.leaves = true →
    o = none ∨ pI.hasPred = true ∧ o = some (F.pcOf j + pI.instSize)
  branch : ∀ j pI o, F.lines[j]? = some (.inst pI) → next (F.pcOf j) o → pI.opcode = .bra →
    (∃ target, F.labelAddress pI.target = some target ∧ o = some target) ∨
      pI.hasPred = true ∧ o = some (F.pcOf j + pI.instSize)
  breaks : ∀ j pI o, F.lines[j]? = some (.inst pI) → next (F.pcOf j) o → pI.opcode = .brk →
    ∃ b b' k, g.bbs.assigned[j]? = some b ∧ b' ∈ g.links.successors b ∧
      g.bbs.beginOf b' = some k ∧ o = some (F.pcOf k)

/-- The PCs that a thread comes by until it leaves the function. -/
inductive RunOut (next : Nat → Option Nat → Prop) : Nat → List Nat → Prop
  | leave {pc : Nat} : next pc none → RunOut next pc [pc]
  | step {pc pc' : Nat} {pcs : List Nat} : next pc (some pc') → RunOut next pc' pcs →
      RunOut next pc (pc :: pcs)

/-- What `do_pdom` establishes. -/
structure FlowGraph.Sound (F : AssembledFunction) (g : FlowGraph) : Prop where
  partition : g.bbs.Partition F.lines
  linked : ∀ b, b + 1 < g.bbs.blocks.length → LinkedBlock F g.bbs g.links b
  postdominators : ∀ b < g.bbs.blocks.length, ∀ d, d ∈ g.postdominators b ↔
    d < g.bbs.blocks.length ∧
      Guards (Edge g.bbs.blocks.length g.links.successors) (g.bbs.blocks.length - 1) d b
  ipdom : findIpostdominators g.bbs.blocks.length g.postdominators = .ok g.ipdom

section

variable {F : AssembledFunction} {g : FlowGraph} {next : Nat → Option Nat → Prop}
  {b b' i j k pc pc' fuel : Nat} {pI : FlowInst} {o : Option Nat} {pcs p : List Nat}

/-- What `do_pdom` leaves is sound. -/
theorem doPdom_sound (hF : F.Placed) (hplain : StartsPlain F.lines) (h : doPdom fuel F = .ok g) :
    g.Sound F := by
  obtain ⟨bbs, hbbs, h⟩ := bind_eq_ok.mp h
  obtain ⟨links, hlinks, h⟩ := bind_eq_ok.mp h
  obtain ⟨links', hsettle, h⟩ := bind_eq_ok.mp h
  obtain ⟨sets, hsets, h⟩ := bind_eq_ok.mp h
  obtain ⟨ipdom, hipdom, h⟩ := bind_eq_ok.mp h
  cases pure_eq_ok.mp h
  obtain ⟨sets', hrun, hspec⟩ := findPostdominators_spec bbs.blocks.length links'
  cases hrun.symm.trans hsets
  exact ⟨createBasicBlocks_partition hplain (fetch_eq_ok.mp hbbs),
    fun b hb => settleBreaks_linked hF hsettle (connectBasicBlocks_linked hF hlinks b hb),
    hspec, hipdom⟩

/-- The PC of the next instruction. -/
theorem pcOf_next (hj : F.lines[j]? = some (.inst pI))
    (hk : findNextRealInstruction F.lines (j + 1) = some k) :
    F.pcOf k = F.pcOf j + pI.instSize := by
  rw [AssembledFunction.pcOf, AssembledFunction.pcOf, offset_findNextRealInstruction hk,
    offset_succ hj, PtxLine.size, Nat.add_assoc]

/-- Control goes from instruction `j` to instruction `k` inside a block or along a link. -/
def FlowGraph.Moves (g : FlowGraph) (j k : Nat) : Prop :=
  ∃ b b', g.bbs.assigned[j]? = some b ∧ g.bbs.assigned[k]? = some b' ∧
    (b' = b ∨ Edge g.bbs.blocks.length g.links.successors b b' ∧ g.bbs.beginOf b' = some k)

namespace FlowGraph.Sound

/-- Falling through stays in the block or follows its link to the next one. -/
theorem fall (hg : g.Sound F) (hj : F.lines[j]? = some (.inst pI)) (hbrk : pI.opcode ≠ .brk)
    (hfall : pI.fallsThrough = true) :
    ∃ k, IsInst F.lines k ∧ F.pcOf k = F.pcOf j + pI.instSize ∧ g.Moves j k := by
  cases hnext : findNextRealInstruction F.lines (j + 1) with
  | none =>
    obtain ⟨b, hb, _, hend⟩ := hg.partition.last j ⟨pI, hj⟩ hnext
    obtain ⟨k, _, hk, _⟩ := (hg.linked b (by omega) j pI hend hj hbrk).fall hfall
    rw [hnext] at hk
    cases hk
  | some k =>
    refine ⟨k, .of_next hnext, pcOf_next hj hnext, ?_⟩
    obtain ⟨b, hb, ⟨hsame, _⟩ | ⟨hb', hend, hbegin⟩⟩ := hg.partition.joined j k ⟨⟨pI, hj⟩, hnext⟩
    · exact ⟨b, b, hb, hsame, .inl rfl⟩
    · have hlt := hg.partition.begin_lt hbegin
      obtain ⟨k', c, hk', hc, hmem⟩ := (hg.linked b (by omega) j pI hend hj hbrk).fall hfall
      cases hnext.symm.trans hk'
      cases hb'.symm.trans hc
      exact ⟨b, b + 1, hb, hb', .inr ⟨⟨by omega, hmem⟩, hbegin⟩⟩

/-- A branch follows the link of its block to the block of the label. -/
theorem branch (hg : g.Sound F) (hF : F.Placed) (hj : F.lines[j]? = some (.inst pI))
    (hbra : pI.opcode = .bra) {target : Nat} (htarget : F.labelAddress pI.target = some target) :
    ∃ k, IsInst F.lines k ∧ F.pcOf k = target ∧ g.Moves j k := by
  obtain ⟨i, k, hi, hlabels, hk, haddr⟩ := hF.labelAddress j pI hj (.inl hbra)
  cases haddr.symm.trans htarget
  have hends : pI.endsBlock = true := by rw [FlowInst.endsBlock, hbra]
  obtain ⟨b, hb, hassigned, hend⟩ := hg.partition.endsBlock hj hends
  obtain ⟨b', hassigned', hbegin⟩ := hg.partition.label hi hk
  have hbrk : pI.opcode ≠ .brk := by
    rw [hbra]
    exact FlowOpcode.noConfusion
  obtain ⟨o, k', c, ho, hk', hc, hmem⟩ := (hg.linked b hb j pI hend hj hbrk).branch hbra
  cases hlabels.symm.trans ho
  rw [hF.instrMem, image_offset, hk] at hk'
  cases hk'
  cases hassigned'.symm.trans hc
  have hlt := hg.partition.begin_lt hbegin
  exact ⟨k, .of_next hk, rfl, b, b', hassigned, hassigned', .inr ⟨⟨by omega, hmem⟩, hbegin⟩⟩

/-- The step: executing an instruction moves along the graph, or to the exit block. -/
theorem step (hg : g.Sound F) (hF : F.Placed) (hnext : Executes F g next)
    (hj : F.lines[j]? = some (.inst pI)) (h : next (F.pcOf j) o) :
    (o = none ∧ ∃ b, g.bbs.assigned[j]? = some b ∧
        Edge g.bbs.blocks.length g.links.successors b (g.bbs.blocks.length - 1)) ∨
      ∃ k, IsInst F.lines k ∧ o = some (F.pcOf k) ∧ g.Moves j k := by
  have hlen := hg.partition.length
  have hfalls : pI.fallsThrough = true → pI.opcode ≠ .brk → o = some (F.pcOf j + pI.instSize) →
      ∃ k, IsInst F.lines k ∧ o = some (F.pcOf k) ∧ g.Moves j k := by
    intro hfall hbrk ho
    obtain ⟨k, hk, hpc, hmoves⟩ := hg.fall hj hbrk hfall
    exact ⟨k, hk, by rw [ho, hpc], hmoves⟩
  cases hleaves : pI.leaves with
  | true =>
    have hbrk : pI.opcode ≠ .brk := by
      intro hbrk
      rw [FlowInst.leaves, hbrk] at hleaves
      cases hleaves
    rcases hnext.leave j pI o hj h hleaves with rfl | ⟨hpred, ho⟩
    · have hends : pI.endsBlock = true := by
        rw [FlowInst.leaves] at hleaves
        rw [FlowInst.endsBlock]
        split at hleaves <;> simp_all
      obtain ⟨b, hb, hassigned, hend⟩ := hg.partition.endsBlock hj hends
      have hmem := (hg.linked b hb j pI hend hj hbrk).leave hleaves
      exact .inl ⟨rfl, b, hassigned, by omega, hmem⟩
    · refine .inr (hfalls ?_ hbrk ho)
      rw [FlowInst.fallsThrough, hpred, Bool.or_true]
  | false =>
    right
    by_cases hbra : pI.opcode = .bra
    · rcases hnext.branch j pI o hj h hbra with ⟨target, htarget, rfl⟩ | ⟨hpred, ho⟩
      · obtain ⟨k, hk, rfl, hmoves⟩ := hg.branch hF hj hbra htarget
        exact ⟨k, hk, rfl, hmoves⟩
      · refine hfalls ?_ (by rw [hbra]; exact FlowOpcode.noConfusion) ho
        rw [FlowInst.fallsThrough, hpred, Bool.or_true]
    · by_cases hbrk : pI.opcode = .brk
      · obtain ⟨b, b', k, hb, hmem, hbegin, rfl⟩ := hnext.breaks j pI o hj h hbrk
        have hlt := hg.partition.begin_lt hbegin
        obtain ⟨k', hk', hinst, hassigned⟩ := hg.partition.begins b' hlt
        cases hbegin.symm.trans hk'
        exact ⟨k, hinst, rfl, b, b', hb, hassigned, .inr ⟨⟨by omega, hmem⟩, hbegin⟩⟩
      · refine hfalls ?_ hbrk (hnext.plain j pI o hj h hleaves hbra hbrk)
        rw [FlowInst.fallsThrough, hleaves, decide_eq_false hbra, Bool.or_false, Bool.not_false,
          Bool.true_or]

/-- A run to the end of the function passes the blocks of a path to the exit block, and comes by
the first instruction of every block that it enters. -/
theorem run (hg : g.Sound F) (hF : F.Placed) (hnext : Executes F g next)
    (hrun : RunOut next pc pcs) (hj : IsInst F.lines j) (hpc : pc = F.pcOf j) :
    ∃ b p, g.bbs.assigned[j]? = some b ∧
      PathTo (Edge g.bbs.blocks.length g.links.successors) (g.bbs.blocks.length - 1) b (b :: p) ∧
      ∀ b' ∈ p, ∀ k, g.bbs.beginOf b' = some k → F.pcOf k ∈ pcs.tail := by
  induction hrun generalizing j with
  | leave hout =>
    obtain ⟨pI, hpI⟩ := hj
    rw [hpc] at hout
    rcases hg.step hF hnext hpI hout with ⟨_, b, hb, hedge⟩ | ⟨k, _, ho, _⟩
    · refine ⟨b, _, hb, .step hedge .arrive, fun b' hb' k hk => ?_⟩
      rw [List.mem_singleton.mp hb', hg.partition.begin_exit] at hk
      cases hk
    · cases ho
  | @step pc pc' pcs hstep hrest ih =>
    obtain ⟨pI, hpI⟩ := hj
    rw [hpc] at hstep
    rcases hg.step hF hnext hpI hstep with ⟨ho, _⟩ | ⟨k, hk, ho, b, b₁, hb, hb₁, hmove⟩
    · cases ho
    · obtain ⟨b', p, hb', hpath, hvisits⟩ := ih hk (Option.some.inj ho)
      cases hb₁.symm.trans hb'
      rcases hmove with rfl | ⟨hedge, hbegin⟩
      · refine ⟨b₁, p, hb, hpath, fun c hc i hi => ?_⟩
        exact List.mem_of_mem_tail (hvisits c hc i hi)
      · refine ⟨b, _, hb, .step hedge hpath, fun c hc i hi => ?_⟩
        rcases List.mem_cons.mp hc with rfl | hc
        · cases hbegin.symm.trans hi
          rw [← Option.some.inj ho]
          cases hrest with
          | leave _ => exact List.mem_cons_self
          | step _ _ => exact List.mem_cons_self
        · exact List.mem_of_mem_tail (hvisits c hc i hi)

end FlowGraph.Sound

/-- Where `get_reconvergence_pairs` makes a branch reconverge whose block has a given immediate
postdominator. -/
def FlowGraph.pointOf (F : AssembledFunction) (g : FlowGraph) (i : Nat) : ConvergePoint :=
  match g.bbs.beginOf i with
  | some k => .pc (F.pcOf k)
  | none => .returnPc

namespace FlowGraph.Sound

/-- A line has the PC of its instruction. -/
theorem linePc_eq (hF : F.Placed) (hj : F.lines[j]? = some (.inst pI)) :
    linePc F j = .ok (F.pcOf j) :=
  bind_eq_ok.mpr ⟨_, fetch_eq_ok.mpr (hF.placed j pI hj), rfl⟩

/-- The entry of a block that is not the exit block. -/
theorem reconvergencePair_eq (hg : g.Sound F) (hF : F.Placed) (hb : b + 1 < g.bbs.blocks.length) :
    ∃ j pI i, g.bbs.endOf b = some j ∧ F.lines[j]? = some (.inst pI) ∧ g.ipdom b = some i ∧
      reconvergencePair F g b = .ok (if pI.opcode = .bra then some (F.pcOf j, g.pointOf F i)
        else none) := by
  obtain ⟨j, hend, ⟨pI, hpI⟩, _⟩ := hg.partition.ends b hb
  obtain ⟨⟨i, hi⟩, _⟩ :=
    findIpostdominators_sound (by omega) hg.postdominators hg.ipdom hb
  refine ⟨j, pI, i, hend, hpI, hi, ?_⟩
  refine bind_eq_ok.mpr ⟨(pI, offset F.lines j), (endInst_eq_ok hF).mpr ⟨j, hend, hpI, rfl⟩, ?_⟩
  change (if pI.opcode = .bra then _ else _) = _
  split
  · refine bind_eq_ok.mpr ⟨j, fetch_eq_ok.mpr hend, ?_⟩
    refine bind_eq_ok.mpr ⟨_, linePc_eq hF hpI, bind_eq_ok.mpr ⟨i, fetch_eq_ok.mpr hi, ?_⟩⟩
    rw [pointOf]
    cases hbegin : g.bbs.beginOf i with
    | none => rfl
    | some k =>
      obtain ⟨k', hk', ⟨pK, hpK⟩, _⟩ := hg.partition.begins i (hg.partition.begin_lt hbegin)
      cases hbegin.symm.trans hk'
      exact bind_eq_ok.mpr ⟨_, linePc_eq hF hpK, rfl⟩
  · rfl

/-- A map whose steps all succeed does. -/
theorem mapM_total {ε β γ : Type} {f : γ → Except ε β} {as : List γ}
    (h : ∀ a ∈ as, ∃ b, f a = .ok b) : ∃ bs, as.mapM f = .ok bs := by
  induction as with
  | nil => exact ⟨[], rfl⟩
  | cons a as ih =>
    obtain ⟨b, hb⟩ := h a List.mem_cons_self
    obtain ⟨bs, hbs⟩ := ih fun a ha => h a (List.mem_cons_of_mem _ ha)
    rw [List.mapM_cons]
    exact ⟨b :: bs, bind_eq_ok.mpr ⟨b, hb, bind_eq_ok.mpr ⟨bs, hbs, rfl⟩⟩⟩

/-- Two instructions at one PC are one. -/
theorem pcOf_inj {pJ : FlowInst} (hj : F.lines[j]? = some (.inst pI))
    (hk : F.lines[k]? = some (.inst pJ)) (h : F.pcOf j = F.pcOf k) : j = k :=
  offset_inj hj hk (Nat.add_left_cancel h)

/-- The pairs are one for each branch, with the immediate postdominator of its block. -/
theorem mem_reconvergencePairs (hg : g.Sound F) (hF : F.Placed) :
    ∃ pairs, reconvergencePairs F g = .ok pairs ∧ ∀ pair, pair ∈ pairs ↔
      ∃ b j pI i, b + 1 < g.bbs.blocks.length ∧ g.bbs.endOf b = some j ∧
        F.lines[j]? = some (.inst pI) ∧ pI.opcode = .bra ∧ g.ipdom b = some i ∧
        pair = (F.pcOf j, g.pointOf F i) := by
  obtain ⟨entries, hentries⟩ : ∃ entries,
      (List.range (g.bbs.blocks.length - 1)).mapM (reconvergencePair F g) = .ok entries := by
    refine mapM_total fun b hb => ?_
    rw [List.mem_range] at hb
    obtain ⟨j, pI, i, _, _, _, heq⟩ := hg.reconvergencePair_eq hF (b := b) (by omega)
    exact ⟨_, heq⟩
  refine ⟨entries.filterMap id, bind_eq_ok.mpr ⟨entries, hentries, rfl⟩, fun pair => ?_⟩
  obtain ⟨hlen, hat⟩ := mapM_range_eq_ok hentries
  rw [List.mem_filterMap]
  constructor
  · rintro ⟨entry, hentry, hpair⟩
    obtain ⟨b, hb⟩ := List.mem_iff_getElem?.mp hentry
    have hlt : b < g.bbs.blocks.length - 1 := hlen ▸ (List.getElem?_eq_some_iff.mp hb).1
    obtain ⟨entry', hb', hrun⟩ := hat b hlt
    cases hb.symm.trans hb'
    obtain ⟨j, pI, i, hend, hpI, hi, heq⟩ := hg.reconvergencePair_eq hF (b := b) (by omega)
    cases hrun.symm.trans heq
    change (if pI.opcode = .bra then _ else _) = some pair at hpair
    split at hpair
    · next hbra =>
      exact ⟨b, j, pI, i, by omega, hend, hpI, hbra, hi, (Option.some.inj hpair).symm⟩
    · cases hpair
  · rintro ⟨b, j, pI, i, hb, hend, hpI, hbra, hi, rfl⟩
    obtain ⟨entry, hb', hrun⟩ := hat b (by omega)
    obtain ⟨j', pI', i', hend', hpI', hi', heq⟩ := hg.reconvergencePair_eq hF hb
    cases hend.symm.trans hend'
    cases hpI.symm.trans hpI'
    cases hi.symm.trans hi'
    cases hrun.symm.trans heq
    refine ⟨_, List.mem_iff_getElem?.mpr ⟨b, hb'⟩, ?_⟩
    rw [if_pos hbra]
    rfl

/-- `get_converge_point` of a branch is where the immediate postdominator of its block begins. -/
theorem convergePoint_eq (hg : g.Sound F) (hF : F.Placed) (hb : b + 1 < g.bbs.blocks.length)
    (hend : g.bbs.endOf b = some j) (hj : F.lines[j]? = some (.inst pI)) (hbra : pI.opcode = .bra)
    (hi : g.ipdom b = some i) : convergePoint F g (F.pcOf j) = .ok (g.pointOf F i) := by
  obtain ⟨pairs, hpairs, hmem⟩ := hg.mem_reconvergencePairs hF
  refine bind_eq_ok.mpr ⟨pairs, hpairs, ?_⟩
  have hin := (hmem _).mpr ⟨b, j, pI, i, hb, hend, hj, hbra, hi, rfl⟩
  cases hfind : pairs.find? fun pair => pair.1 == F.pcOf j with
  | none =>
    have hno := List.find?_eq_none.mp hfind _ hin
    exact absurd (beq_self_eq_true _) hno
  | some pair =>
    -- another entry with this PC would be of a block that the branch ends as well
    have hpc := List.find?_some hfind
    obtain ⟨b', j', pJ, i', hb', hend', hj', _, hi', rfl⟩ :=
      (hmem pair).mp (List.mem_of_find?_eq_some hfind)
    cases pcOf_inj hj' hj (eq_of_beq hpc)
    obtain ⟨k, hk, _, hassigned⟩ := hg.partition.ends b hb
    obtain ⟨k', hk', _, hassigned'⟩ := hg.partition.ends b' hb'
    cases hend.symm.trans hk
    cases hend'.symm.trans hk'
    cases hassigned.symm.trans hassigned'
    cases hi.symm.trans hi'
    rfl

end FlowGraph.Sound

/-- Every run from a branch to the end of the function comes by the PC at which the branch
reconverges, and this PC begins the nearest block that all paths from the branch pass. -/
theorem reconverges (hF : F.Placed) (hplain : StartsPlain F.lines) (hdo : doPdom fuel F = .ok g)
    (hnext : Executes F g next) (hj : F.lines[j]? = some (.inst pI)) (hbra : pI.opcode = .bra)
    (hrun : RunOut next (F.pcOf j) pcs) :
    ∃ b i, g.bbs.assigned[j]? = some b ∧
      NearestGuard (Edge g.bbs.blocks.length g.links.successors) (g.bbs.blocks.length - 1) i b ∧
      ∃ point, g.convergePoint F (F.pcOf j) = .ok point ∧
        (point = .returnPc ∧ i = g.bbs.blocks.length - 1 ∨
          ∃ k, point = .pc (F.pcOf k) ∧ g.bbs.beginOf i = some k ∧ F.pcOf k ∈ pcs.tail) := by
  have hg := doPdom_sound hF hplain hdo
  have hlen := hg.partition.length
  obtain ⟨b, p, hassigned, hpath, hvisits⟩ := hg.run hF hnext hrun ⟨pI, hj⟩ rfl
  obtain ⟨b', hb, hassigned', hend⟩ :=
    hg.partition.endsBlock hj (by rw [FlowInst.endsBlock, hbra])
  cases hassigned.symm.trans hassigned'
  obtain ⟨_, hnearest⟩ := findIpostdominators_sound (by omega) hg.postdominators hg.ipdom hb
  obtain ⟨i, hin, hi, hguard⟩ := hnearest _ hpath
  refine ⟨b, i, hassigned, hguard, _, hg.convergePoint_eq hF hb hend hj hbra hi, ?_⟩
  rw [FlowGraph.pointOf]
  cases hbegin : g.bbs.beginOf i with
  | none =>
    refine .inl ⟨rfl, ?_⟩
    by_contra hne
    obtain ⟨k, hk, _⟩ := hg.partition.begins i (by omega)
    rw [hbegin] at hk
    cases hk
  | some k =>
    have hmem : i ∈ p := (List.mem_cons.mp (hguard.guards _ hpath)).resolve_left hguard.ne
    exact .inr ⟨k, rfl, rfl, hvisits i hmem k hbegin⟩

/-- What the instructions of `skipLines` do to the PC of a thread. -/
def skipNext (pc : Nat) (o : Option Nat) : Prop :=
  pc = 0 ∧ o = some 8 ∨ pc = 8 ∧ (o = some 16 ∨ o = some 24) ∨ pc = 16 ∧ o = some 24 ∨
    pc = 24 ∧ o = none

theorem executes_skip {l : Loader} (hl : Loader.ptxAssemble {} Loader.skipLines = .ok l)
    (hF : l.functions[0]? = some F) : Executes F g skipNext := by
  cases hl
  cases hF
  have hcases : ∀ j pI, Loader.skipLines[j]? = some (.inst pI) →
      (j = 0 ∨ j = 2) ∧ pI = { opcode := .other } ∨
        j = 1 ∧ pI = { opcode := .bra, hasPred := true, target := "SKIP" } ∨
          j = 4 ∧ pI = { opcode := .ret } := by
    intro j pI hj
    match j with
    | 0 | 1 | 2 | 4 => cases hj; simp
    | 3 => cases hj
    | j + 5 => cases hj
  constructor
  case plain =>
    intro j pI o hj h hleaves hbra _
    rcases hcases j pI hj with ⟨rfl | rfl, rfl⟩ | ⟨rfl, rfl⟩ | ⟨rfl, rfl⟩
    · rcases h with ⟨_, ho⟩ | ⟨h, _⟩ | ⟨h, _⟩ | ⟨h, _⟩
      · exact ho
      all_goals cases h
    · rcases h with ⟨h, _⟩ | ⟨h, _⟩ | ⟨_, ho⟩ | ⟨h, _⟩
      · cases h
      · cases h
      · exact ho
      · cases h
    · exact absurd rfl hbra
    · cases hleaves
  case leave =>
    intro j pI o hj h hleaves
    rcases hcases j pI hj with ⟨_, rfl⟩ | ⟨_, rfl⟩ | ⟨rfl, rfl⟩
    · cases hleaves
    · cases hleaves
    · rcases h with ⟨h, _⟩ | ⟨h, _⟩ | ⟨h, _⟩ | ⟨_, ho⟩
      · cases h
      · cases h
      · cases h
      · exact .inl ho
  case branch =>
    intro j pI o hj h hbra
    rcases hcases j pI hj with ⟨_, rfl⟩ | ⟨rfl, rfl⟩ | ⟨_, rfl⟩
    · cases hbra
    · rcases h with ⟨h, _⟩ | ⟨_, ho | ho⟩ | ⟨h, _⟩ | ⟨h, _⟩
      · cases h
      · exact .inr ⟨rfl, ho⟩
      · exact .inl ⟨24, rfl, ho⟩
      · cases h
      · cases h
    · cases hbra
  case breaks =>
    intro j pI o hj h hbrk
    rcases hcases j pI hj with ⟨_, rfl⟩ | ⟨_, rfl⟩ | ⟨_, rfl⟩ <;> cases hbrk

theorem reconverges_skip : ∃ F g, F.lines = Loader.skipLines ∧ doPdom 1 F = .ok g ∧
    ∃ b i, g.bbs.assigned[1]? = some b ∧
      NearestGuard (Edge g.bbs.blocks.length g.links.successors) (g.bbs.blocks.length - 1) i b ∧
      ∃ point, g.convergePoint F 8 = .ok point ∧
        (point = .returnPc ∧ i = g.bbs.blocks.length - 1 ∨
          ∃ k, point = .pc (F.pcOf k) ∧ g.bbs.beginOf i = some k ∧ F.pcOf k ∈ [16, 24]) := by
  obtain ⟨l, F, g, hl, hF, hlines, hpc, hdo⟩ :
      ∃ l F g, Loader.ptxAssemble {} Loader.skipLines = .ok l ∧ l.functions[0]? = some F ∧
        F.lines = Loader.skipLines ∧ F.pcOf 1 = 8 ∧ doPdom 1 F = .ok g :=
    ⟨_, _, _, rfl, rfl, rfl, rfl, rfl⟩
  have hplaced := (Loader.Linked.empty.ptxAssemble hl).functions 0 F hF
  have hplain : StartsPlain F.lines := by
    intro first rest h
    rw [hlines] at h
    cases h
    exact ⟨rfl, fun h => absurd h Bool.false_ne_true⟩
  have hrun : RunOut skipNext 8 [8, 16, 24] :=
    .step (.inr (.inl ⟨rfl, .inl rfl⟩)) (.step (.inr (.inr (.inl ⟨rfl, rfl⟩)))
      (.leave (.inr (.inr (.inr ⟨rfl, rfl⟩)))))
  have h := reconverges (j := 1) hplaced hplain hdo (executes_skip hl hF) (by rw [hlines]; rfl) rfl
    (by rw [hpc]; exact hrun)
  rw [hpc] at h
  exact ⟨F, g, hlines, hdo, h⟩

end

end WaspSim
