import WaspSim.Ptx.ControlFlow

/-!
# Where the links of a block lead

The links that `connect_basic_blocks` makes lead to the exit block from a return, to the label of
a branch, and to the block behind whatever can fall through. Retargeting `break` changes the links
of blocks that end in a `break` only.
-/

namespace WaspSim

/-- Control can go on to the next instruction. -/
def FlowInst.fallsThrough (pI : FlowInst) : Bool :=
  !(pI.leaves || decide (pI.opcode = .bra)) || pI.hasPred

/-- The links of the block that instruction `j` ends lead to where control can go. -/
structure Linking (F : AssembledFunction) (bbs : BasicBlocks) (successors : Finset Nat)
    (j : Nat) (pI : FlowInst) : Prop where
  leave : pI.leaves = true → bbs.blocks.length - 1 ∈ successors
  fall : pI.fallsThrough = true → ∃ k b, findNextRealInstruction F.lines (j + 1) = some k ∧
    bbs.assigned[k]? = some b ∧ b ∈ successors
  branch : pI.opcode = .bra → ∃ o k b, F.labels pI.target = some o ∧
    F.instrMem[o]? = some (some k) ∧ bbs.assigned[k]? = some b ∧ b ∈ successors

/-- The blocks that end in another instruction than `break` are linked. -/
def LinkedBlock (F : AssembledFunction) (bbs : BasicBlocks) (links : Links) (b : Nat) : Prop :=
  ∀ j pI, bbs.endOf b = some j → F.lines[j]? = some (.inst pI) → pI.opcode ≠ .brk →
    Linking F bbs (links.successors b) j pI

section

variable {F : AssembledFunction} {bbs : BasicBlocks} {links links' : Links} {b b' j k o : Nat}
  {pI : FlowInst} {name : String} {successors successors' : Finset Nat}

theorem Links.add_self :
    (links.add b b').successors b = insert b' (links.successors b) := Function.update_self _ _ _

/-- A link that was added is there. -/
theorem Links.mem_add : b' ∈ (links.add b b').successors b := by
  rw [add_self]
  exact Finset.mem_insert_self _ _

/-- The links of the other blocks stay. -/
theorem Links.add_of_ne {c : Nat} (hc : c ≠ b) :
    (links.add b b').successors c = links.successors c := Function.update_of_ne hc _ _

/-- No link is lost. -/
theorem Links.add_mono (c : Nat) : links.successors c ⊆ (links.add b b').successors c := by
  by_cases hc : c = b
  · rw [hc, add_self]
    exact Finset.subset_insert _ _
  · rw [add_of_ne hc]

theorem Links.clear_of_ne {c : Nat} (hc : c ≠ b) :
    (links.clear b).successors c = links.successors c := Function.update_of_ne hc _ _

/-- The block of an address is that of the instruction there. -/
theorem bbAt_eq_ok : F.bbAt bbs o = .ok b ↔
    ∃ k, F.instrMem[o]? = some (some k) ∧ bbs.assigned[k]? = some b := by
  simp only [AssembledFunction.bbAt, bind_eq_ok, fetch_eq_ok]
  constructor
  · rintro ⟨cell, hcell, k, rfl, hb⟩
    exact ⟨k, hcell, hb⟩
  · rintro ⟨k, hk, hb⟩
    exact ⟨_, hk, k, rfl, hb⟩

/-- A label leads to the block of its instruction. -/
theorem targetBlock_eq_ok : F.targetBlock bbs name = .ok b ↔ ∃ o k, F.labels name = some o ∧
    F.instrMem[o]? = some (some k) ∧ bbs.assigned[k]? = some b := by
  simp only [AssembledFunction.targetBlock, bind_eq_ok, fetch_eq_ok, bbAt_eq_ok]
  constructor
  · rintro ⟨o, ho, k, hk, hb⟩
    exact ⟨o, k, ho, hk, hb⟩
  · rintro ⟨o, k, ho, hk, hb⟩
    exact ⟨o, ho, k, hk, hb⟩

/-- The instruction that ends a block, at its offset. -/
theorem endInst_eq_ok (hF : F.Placed) {index : Nat} : F.endInst bbs b = .ok (pI, index) ↔
    ∃ j, bbs.endOf b = some j ∧ F.lines[j]? = some (.inst pI) ∧ index = offset F.lines j := by
  simp only [AssembledFunction.endInst, bind_eq_ok, fetch_eq_ok]
  constructor
  · rintro ⟨j, hj, entry, hentry, h⟩
    split at h
    · next pJ index' pc hline =>
      cases h
      rw [hF.placed j _ hline] at hentry
      cases hentry
      exact ⟨j, hj, hline, rfl⟩
    · cases h
  · rintro ⟨j, hj, hline, rfl⟩
    refine ⟨j, hj, _, hF.placed j pI hline, ?_⟩
    rw [hline]
    rfl

/-- The block behind an instruction is that of the next one. -/
theorem bbAt_next (hF : F.Placed) (hj : F.lines[j]? = some (.inst pI)) :
    F.bbAt bbs (offset F.lines j + pI.instSize) = .ok b ↔
      ∃ k, findNextRealInstruction F.lines (j + 1) = some k ∧ bbs.assigned[k]? = some b := by
  have hoff : offset F.lines j + pI.instSize = offset F.lines (j + 1) := (offset_succ hj).symm
  rw [bbAt_eq_ok, hoff, hF.instrMem, image_offset]
  simp only [Option.map_eq_some_iff, id, Option.some.injEq]
  constructor
  · rintro ⟨k, ⟨k', hk', rfl⟩, hb⟩
    exact ⟨k', hk', hb⟩
  · rintro ⟨k, hk, hb⟩
    exact ⟨k, ⟨k, hk, rfl⟩, hb⟩

/-- The block behind an instruction is linked unless it is skipped. -/
theorem linkNext_spec (hF : F.Placed) (hline : F.lines[j]? = some (.inst pI)) {skip : Bool}
    (h : linkNext F bbs links b pI (offset F.lines j) skip = .ok links') :
    links.successors b ⊆ links'.successors b ∧
      (skip = false → ∃ k c, findNextRealInstruction F.lines (j + 1) = some k ∧
        bbs.assigned[k]? = some c ∧ c ∈ links'.successors b) := by
  rw [linkNext] at h
  split at h
  · next hskip =>
    cases pure_eq_ok.mp h
    rw [hskip]
    exact ⟨Finset.Subset.refl _, fun h => absurd h.symm Bool.false_ne_true⟩
  · obtain ⟨c, hc, h⟩ := bind_eq_ok.mp h
    cases pure_eq_ok.mp h
    obtain ⟨k, hk, hkc⟩ := (bbAt_next hF hline).mp hc
    exact ⟨Links.add_mono b, fun _ => ⟨k, c, hk, hkc, Links.mem_add⟩⟩

/-- The links of the other blocks stay. -/
theorem linkNext_of_ne {c index : Nat} {skip : Bool} (hc : c ≠ b)
    (h : linkNext F bbs links b pI index skip = .ok links') :
    links'.successors c = links.successors c := by
  rw [linkNext] at h
  split at h
  · cases pure_eq_ok.mp h
    rfl
  · obtain ⟨t, _, h⟩ := bind_eq_ok.mp h
    cases pure_eq_ok.mp h
    exact Links.add_of_ne hc

/-- The block of the label of a branch is linked. -/
theorem linkTarget_spec (h : linkTarget F bbs links b pI = .ok links') :
    pI.opcode = .bra → ∃ o k c, F.labels pI.target = some o ∧
      F.instrMem[o]? = some (some k) ∧ bbs.assigned[k]? = some c ∧ c ∈ links'.successors b := by
  intro hbra
  rw [linkTarget, if_pos hbra] at h
  obtain ⟨c, hc, h⟩ := bind_eq_ok.mp h
  cases pure_eq_ok.mp h
  obtain ⟨o, k, ho, hk, hkc⟩ := targetBlock_eq_ok.mp hc
  exact ⟨o, k, c, ho, hk, hkc, Links.mem_add⟩

/-- The links of the other blocks stay. -/
theorem linkTarget_of_ne {c : Nat} (hc : c ≠ b) (h : linkTarget F bbs links b pI = .ok links') :
    links'.successors c = links.successors c := by
  rw [linkTarget] at h
  split at h
  · obtain ⟨t, _, h⟩ := bind_eq_ok.mp h
    cases pure_eq_ok.mp h
    exact Links.add_of_ne hc
  · cases pure_eq_ok.mp h
    rfl

/-- One round of `connect_basic_blocks` links the block as its last instruction says. -/
theorem connectBlock_linked (hF : F.Placed) (hb : b + 1 ≠ bbs.blocks.length)
    (h : connectBlock F bbs links b = .ok links') : LinkedBlock F bbs links' b := by
  intro j pI hj hline hbrk
  rw [connectBlock, if_neg hb] at h
  obtain ⟨⟨pJ, index⟩, hend, h⟩ := bind_eq_ok.mp h
  obtain ⟨j', hj', hline', rfl⟩ := (endInst_eq_ok hF).mp hend
  cases hj.symm.trans hj'
  cases hline.symm.trans hline'
  change (if pI.leaves = true then _ else _) = _ at h
  split at h
  · next hleaves =>
    have hbra : pI.opcode ≠ .bra := by
      intro hbra
      rw [FlowInst.leaves, hbra] at hleaves
      cases hleaves
    obtain ⟨hsub, hnext⟩ := linkNext_spec hF hline h
    refine ⟨fun _ => hsub Links.mem_add, fun hfall => hnext ?_, fun h => absurd h hbra⟩
    rw [FlowInst.fallsThrough, hleaves, Bool.true_or, Bool.not_true, Bool.false_or] at hfall
    rw [hfall]
    rfl
  · next hleaves =>
    obtain ⟨mid, hmid, h⟩ := bind_eq_ok.mp h
    obtain ⟨hsub, hnext⟩ := linkNext_spec hF hline h
    refine ⟨fun hl => absurd hl hleaves, fun hfall => hnext ?_, fun hbra => ?_⟩
    · rw [FlowInst.fallsThrough, Bool.eq_false_iff.mpr hleaves, Bool.false_or] at hfall
      cases hbra : decide (pI.opcode = .bra) with
      | false => rfl
      | true =>
        rw [hbra, Bool.not_true, Bool.false_or] at hfall
        rw [hfall]
        rfl
    · obtain ⟨o, k, c, ho, hk, hkc, hmem⟩ := linkTarget_spec hmid hbra
      exact ⟨o, k, c, ho, hk, hkc, hsub hmem⟩

/-- A round links no other block. -/
theorem connectBlock_of_ne {c : Nat} (hc : c ≠ b) (h : connectBlock F bbs links b = .ok links') :
    links'.successors c = links.successors c := by
  rw [connectBlock] at h
  split at h
  · cases pure_eq_ok.mp h
    rfl
  · obtain ⟨⟨pI, index⟩, _, h⟩ := bind_eq_ok.mp h
    change (if pI.leaves = true then _ else _) = _ at h
    split at h
    · rw [linkNext_of_ne hc h, Links.add_of_ne hc]
    · obtain ⟨mid, hmid, h⟩ := bind_eq_ok.mp h
      rw [linkNext_of_ne hc h, linkTarget_of_ne hc hmid]

/-- `connect_basic_blocks` links every block but the exit block. -/
theorem connectBasicBlocks_linked (hF : F.Placed) (h : connectBasicBlocks F bbs = .ok links) :
    ∀ b, b + 1 < bbs.blocks.length → LinkedBlock F bbs links b := by
  intro b hb
  refine foldlM_range (fun k links => b < k → LinkedBlock F bbs links b) ?_ h
    (fun h => absurd h (Nat.not_lt_zero b)) (by omega)
  intro k mid mid' hk hmid hround hbk
  rcases Nat.lt_succ_iff_lt_or_eq.mp hbk with hlt | rfl
  · intro j pI hj hline hbrk
    rw [connectBlock_of_ne (Nat.ne_of_lt hlt) hround]
    exact hmid hlt j pI hj hline hbrk
  · exact connectBlock_linked hF (by omega) hround

/-- One round of `connect_break_targets` changes no block that ends in another instruction. -/
theorem connectBreak_of_ne (hF : F.Placed) {idom : Nat → Option Nat} {state state' : Links × Bool}
    {c : Nat} (hj : bbs.endOf c = some j) (hline : F.lines[j]? = some (.inst pI))
    (hbrk : pI.opcode ≠ .brk) (h : connectBreak F bbs idom state b = .ok state') :
    state'.1.successors c = state.1.successors c := by
  rw [connectBreak] at h
  split at h
  · cases pure_eq_ok.mp h
    rfl
  · obtain ⟨⟨pJ, index⟩, hend, h⟩ := bind_eq_ok.mp h
    change (if pJ.opcode = .brk then _ else _) = _ at h
    split at h
    · next hpJ =>
      have hc : c ≠ b := by
        rintro rfl
        obtain ⟨j', hj', hline', _⟩ := (endInst_eq_ok hF).mp hend
        cases hj.symm.trans hj'
        cases hline.symm.trans hline'
        exact hbrk hpJ
      obtain ⟨name, _, h⟩ := bind_eq_ok.mp h
      obtain ⟨target, _, h⟩ := bind_eq_ok.mp h
      obtain ⟨mid, hmid, h⟩ := bind_eq_ok.mp h
      cases pure_eq_ok.mp h
      change mid.successors c = _
      rw [linkNext_of_ne hc hmid, Links.add_of_ne hc, Links.clear_of_ne hc]
    · cases pure_eq_ok.mp h
      rfl

/-- However often the breaks are retargeted, the other blocks stay linked. -/
theorem settleBreaks_linked (hF : F.Placed) {fuel : Nat} {old : Nat → Option Nat}
    (h : settleBreaks F bbs fuel links old = .ok links') {b : Nat}
    (hb : LinkedBlock F bbs links b) : LinkedBlock F bbs links' b := by
  induction fuel generalizing links old with
  | zero => cases h
  | succ fuel ih =>
    obtain ⟨dominators, _, h⟩ := bind_eq_ok.mp h
    obtain ⟨idom, _, h⟩ := bind_eq_ok.mp h
    obtain ⟨⟨mid, modified⟩, hround, h⟩ := bind_eq_ok.mp h
    have hmid : LinkedBlock F bbs mid b := by
      intro j pI hj hline hbrk
      have hsame : mid.successors b = links.successors b :=
        foldlM_invariant (fun state : Links × Bool => state.1.successors b = links.successors b)
          (fun s a s' _ hs hstep => (connectBreak_of_ne hF hj hline hbrk hstep).trans hs) hround rfl
      rw [hsame]
      exact hb j pI hj hline hbrk
    change (if modified = true then _ else _) = _ at h
    split at h
    · exact ih h hmid
    · cases pure_eq_ok.mp h
      exact hmid

end

end WaspSim
