import WaspSim.Core.Sweep
import WaspSim.Ptx.Partition

/-!
# The control-flow graph of a function

The links between basic blocks, their dominators and postdominators, and the immediate ones among
them, as `do_pdom` computes them. Each set of dominators starts out with all blocks and is cut
down until a round over the blocks changes none.
-/

namespace WaspSim

/-- What stops the analysis of a function. -/
inductive FlowFault where
  /-- A function without an instruction. -/
  | noInstruction
  /-- The memory behind the last instruction is read. -/
  | pastEnd
  | unknownLabel
  /-- Postdominators of a block none of which is the nearest. -/
  | notNearest
  /-- The number of blocks with an immediate dominator or postdominator is wrong. -/
  | miscounted
  /-- No `breakaddr` is found for a `break`. -/
  | noBreakAddress
  /-- The rounds allowed are over. -/
  | unsettled
  deriving DecidableEq, Repr

/-- `successor_ids` and `predecessor_ids` of the blocks. -/
structure Links where
  successors : Nat → Finset Nat := fun _ => ∅
  predecessors : Nat → Finset Nat := fun _ => ∅

namespace Links

/-- Link two blocks. -/
def add (links : Links) (b b' : Nat) : Links where
  successors := Function.update links.successors b (insert b' (links.successors b))
  predecessors := Function.update links.predecessors b' (insert b (links.predecessors b'))

/-- Erase the links to the successors of a block. -/
def clear (links : Links) (b : Nat) : Links where
  successors := Function.update links.successors b ∅
  predecessors := fun b' =>
    if b' ∈ links.successors b then (links.predecessors b').erase b else links.predecessors b'

end Links

/-- The block of the instruction at an offset. -/
def AssembledFunction.bbAt (F : AssembledFunction) (bbs : BasicBlocks) (addr : Nat) :
    Except FlowFault Nat := do
  let cell ← fetch .pastEnd F.instrMem[addr]?
  let k ← fetch .pastEnd cell
  fetch .pastEnd bbs.assigned[k]?

/-- The last instruction of a block, and its offset. -/
def AssembledFunction.endInst (F : AssembledFunction) (bbs : BasicBlocks) (b : Nat) :
    Except FlowFault (FlowInst × Nat) := do
  let k ← fetch .noInstruction (bbs.endOf b)
  let entry ← fetch .noInstruction F.placed[k]?
  match F.lines[k]?, entry with
  | some (.inst pI), some (index, _) => pure (pI, index)
  | _, _ => throw .noInstruction

/-- A return or an exit. -/
def FlowInst.leaves (pI : FlowInst) : Bool :=
  match pI.opcode with
  | .retp | .ret | .exit => true
  | _ => false

/-- The block of the label that an instruction names. -/
def AssembledFunction.targetBlock (F : AssembledFunction) (bbs : BasicBlocks) (name : String) :
    Except FlowFault Nat := do
  let addr ← fetch .unknownLabel (F.labels name)
  F.bbAt bbs addr

/-- Link a block to that of the label its last instruction branches to. -/
def linkTarget (F : AssembledFunction) (bbs : BasicBlocks) (links : Links) (b : Nat)
    (pI : FlowInst) : Except FlowFault Links :=
  if pI.opcode = .bra then do
    let target ← F.targetBlock bbs pI.target
    pure (links.add b target)
  else pure links

/-- Link a block to that of the instruction behind its last one, unless `skip`. -/
def linkNext (F : AssembledFunction) (bbs : BasicBlocks) (links : Links) (b : Nat)
    (pI : FlowInst) (index : Nat) (skip : Bool) : Except FlowFault Links :=
  if skip = true then pure links
  else do
    let next ← F.bbAt bbs (index + pI.instSize)
    pure (links.add b next)

/-- One round of `connect_basic_blocks`. -/
def connectBlock (F : AssembledFunction) (bbs : BasicBlocks) (links : Links) (b : Nat) :
    Except FlowFault Links :=
  if b + 1 = bbs.blocks.length then pure links
  else do
    let (pI, index) ← F.endInst bbs b
    if pI.leaves = true then
      linkNext F bbs (links.add b (bbs.blocks.length - 1)) b pI index (!pI.hasPred)
    else do
      let links ← linkTarget F bbs links b pI
      linkNext F bbs links b pI index (decide (pI.opcode = .bra) && !pI.hasPred)

/-- `connect_basic_blocks`. -/
def connectBasicBlocks (F : AssembledFunction) (bbs : BasicBlocks) : Except FlowFault Links :=
  (List.range bbs.blocks.length).foldlM (connectBlock F bbs) {}

/-- The elements of a set of blocks in order, as an iterator over it meets them. -/
def inOrder (n : Nat) (blocks : Finset Nat) : List Nat :=
  (List.range n).filter fun b => decide (b ∈ blocks)

/-- The blocks common to the sets of the neighbours of `h`, and `h`. -/
def common (n : Nat) (neighbours : Nat → Finset Nat) (sets : Nat → Finset Nat) (h : Nat) :
    Finset Nat :=
  insert h ((inOrder n (neighbours h)).foldl (fun T s => T ∩ sets s) (Finset.range n))

/-- Every block with all blocks, and `root` with itself only. -/
def allBut (n root : Nat) (b : Nat) : Finset Nat := if b = root then {root} else Finset.range n

/-- `find_dominators`. -/
def findDominators (n : Nat) (links : Links) : Except FlowFault (Nat → Finset Nat) := do
  let sets ← fetch .unsettled <|
    Sweep.settle (common n links.predecessors) (List.range' 1 (n - 1)) (n * n + 1) (allBut n 0)
  pure fun b => if b ≠ 0 ∧ links.predecessors b = ∅ then ∅ else sets b

/-- `find_postdominators`. -/
def findPostdominators (n : Nat) (links : Links) : Except FlowFault (Nat → Finset Nat) :=
  fetch .unsettled <|
    Sweep.settle (common n links.successors) (List.range (n - 1)).reverse (n * n + 1)
      (allBut n (n - 1))

/-- `Tmp_ids` of a block, from which each set strikes out its other members. -/
def strike (n : Nat) (sets : Nat → Finset Nat) (tmp : Finset Nat) : Finset Nat :=
  (List.range n).foldl (fun tmp s =>
    if s ∈ tmp then tmp.filter fun t => t = s ∨ t ∉ sets s else tmp) tmp

/-- `*Tmp_ids.begin()`. -/
def firstOf (n : Nat) (tmp : Finset Nat) : Option Nat := (inOrder n tmp).head?

/-- `find_idominators`, from what earlier calls have left in `immediatedominator_id`. -/
def findIdominators (n : Nat) (links : Links) (dominators : Nat → Finset Nat)
    (old : Nat → Option Nat) : Except FlowFault (Nat → Option Nat) := do
  let tmp := fun b => strike n dominators ((dominators b).erase b)
  let numIdoms := (List.range n).countP fun b => decide (tmp b ≠ ∅)
  let numNopred := (List.range n).countP fun b =>
    decide (tmp b = ∅ ∧ links.predecessors b = ∅)
  require .miscounted (numIdoms = n - numNopred)
  pure fun b => if b < n ∧ tmp b ≠ ∅ then firstOf n (tmp b) else old b

/-- `Tmp_ids` of a block when the rounds of `find_ipostdominators` are over; those of the exit
block are not struck out. -/
def postTmpIds (n : Nat) (postdominators : Nat → Finset Nat) (b : Nat) : Finset Nat :=
  if b + 1 < n then strike n postdominators ((postdominators b).erase b)
  else (postdominators b).erase b

/-- `find_ipostdominators`. -/
def findIpostdominators (n : Nat) (postdominators : Nat → Finset Nat) :
    Except FlowFault (Nat → Option Nat) := do
  require .notNearest (∀ b ∈ List.range n, (postTmpIds n postdominators b).card ≤ 1)
  let numIpdoms := (List.range n).countP fun b => decide (postTmpIds n postdominators b ≠ ∅)
  require .miscounted (numIpdoms = n - 1)
  pure fun b => if b < n then firstOf n (postTmpIds n postdominators b) else none

/-- The `breakaddr` closest before the end of a block. -/
def findBreakaddr (F : AssembledFunction) (bbs : BasicBlocks) (b : Nat) :
    Except FlowFault (Option String) := do
  let (_, last) ← F.endInst bbs b
  let k ← fetch .noInstruction (bbs.beginOf b)
  let entry ← fetch .noInstruction F.placed[k]?
  let (first, _) ← fetch .noInstruction entry
  let downwards := (List.range' first (last + 1 - first)).reverse
  pure <| downwards.findSome? fun addr =>
    match F.instrMem[addr]? with
    | some (some k) =>
      match F.lines[k]? with
      | some (.inst pI) => if pI.opcode = .breakaddr then some pI.target else none
      | _ => none
    | _ => none

/-- `find_break_target`, up the immediate dominators of a block; the entry block is not searched. -/
def findBreakTarget (F : AssembledFunction) (bbs : BasicBlocks) (idom : Nat → Option Nat) :
    Nat → Nat → Except FlowFault String
  | 0, _ => throw .unsettled
  | fuel + 1, b =>
    match idom b with
    | none => throw .noBreakAddress
    | some d => do
      match ← findBreakaddr F bbs b with
      | some name => pure name
      | none => findBreakTarget F bbs idom fuel d

/-- One round of `connect_break_targets`, with `modified`. -/
def connectBreak (F : AssembledFunction) (bbs : BasicBlocks) (idom : Nat → Option Nat)
    (state : Links × Bool) (b : Nat) : Except FlowFault (Links × Bool) :=
  if b + 1 = bbs.blocks.length then pure state
  else do
    let (pI, index) ← F.endInst bbs b
    if pI.opcode = .brk then do
      let name ← findBreakTarget F bbs idom bbs.blocks.length b
      let target ← F.targetBlock bbs name
      let links ← linkNext F bbs ((state.1.clear b).add b target) b pI index (!pI.hasPred)
      pure (links, state.2 || decide (state.1.successors b ≠ links.successors b))
    else pure state

/-- `connect_break_targets`. -/
def connectBreakTargets (F : AssembledFunction) (bbs : BasicBlocks) (idom : Nat → Option Nat)
    (links : Links) : Except FlowFault (Links × Bool) :=
  (List.range bbs.blocks.length).foldlM (connectBreak F bbs idom) (links, false)

/-- The first loop of `do_pdom`: until no `break` gets another target. -/
def settleBreaks (F : AssembledFunction) (bbs : BasicBlocks) :
    Nat → Links → (Nat → Option Nat) → Except FlowFault Links
  | 0, _, _ => throw .unsettled
  | fuel + 1, links, old => do
    let dominators ← findDominators bbs.blocks.length links
    let idom ← findIdominators bbs.blocks.length links dominators old
    let (links, modified) ← connectBreakTargets F bbs idom links
    if modified = true then settleBreaks F bbs fuel links idom else pure links

/-- What `do_pdom` leaves in a `function_info`. -/
structure FlowGraph where
  bbs : BasicBlocks
  links : Links
  postdominators : Nat → Finset Nat
  /-- `immediatepostdominator_id`. -/
  ipdom : Nat → Option Nat

/-- `do_pdom`, with as many rounds of its first loop as `fuel`. -/
def doPdom (fuel : Nat) (F : AssembledFunction) : Except FlowFault FlowGraph := do
  let bbs ← fetch .noInstruction (createBasicBlocks F.lines)
  let links ← connectBasicBlocks F bbs
  let links ← settleBreaks F bbs fuel links fun _ => none
  let postdominators ← findPostdominators bbs.blocks.length links
  let ipdom ← findIpostdominators bbs.blocks.length postdominators
  pure { bbs, links, postdominators, ipdom }

/-- Where the threads of a warp reconverge behind a branch. -/
inductive ConvergePoint where
  /-- `RECONVERGE_RETURN_PC`. -/
  | returnPc
  | pc (target : Nat)
  /-- `NO_BRANCH_DIVERGENCE`. -/
  | noDivergence
  deriving DecidableEq, Repr

namespace FlowGraph

/-- The PC of the instruction at a line. -/
def linePc (F : AssembledFunction) (k : Nat) : Except FlowFault Nat := do
  let entry ← fetch .noInstruction F.placed[k]?
  let (_, pc) ← fetch .noInstruction entry
  pure pc

/-- The entry of `get_reconvergence_pairs` for a block, if it ends in a branch. -/
def reconvergencePair (F : AssembledFunction) (g : FlowGraph) (b : Nat) :
    Except FlowFault (Option (Nat × ConvergePoint)) := do
  let (pI, _) ← F.endInst g.bbs b
  if pI.opcode = .bra then do
    let last ← fetch .noInstruction (g.bbs.endOf b)
    let source ← linePc F last
    let ipdom ← fetch .miscounted (g.ipdom b)
    match g.bbs.beginOf ipdom with
    | some first => do
      let target ← linePc F first
      pure (some (source, .pc target))
    -- reconverge after function return
    | none => pure (some (source, .returnPc))
  else pure none

/-- `get_reconvergence_pairs`. -/
def reconvergencePairs (F : AssembledFunction) (g : FlowGraph) :
    Except FlowFault (List (Nat × ConvergePoint)) := do
  let pairs ← (List.range (g.bbs.blocks.length - 1)).mapM (reconvergencePair F g)
  pure (pairs.filterMap id)

/-- `get_converge_point` of a PC of the function. -/
def convergePoint (F : AssembledFunction) (g : FlowGraph) (pc : Nat) :
    Except FlowFault ConvergePoint := do
  let pairs ← reconvergencePairs F g
  pure <| match pairs.find? fun pair => pair.1 == pc with
    | some pair => pair.2
    | none => .noDivergence

end FlowGraph

end WaspSim
