import WaspSim.Ptx.Layout

/-!
# Basic blocks

`create_basic_blocks` goes over the lines of a function twice: it collects the lines that lead a
block, and then cuts the function at them. When the first line is an ordinary instruction, or a
label before an instruction, the blocks are runs of instructions that control enters at the first
one only and leaves at the last one only.
-/

namespace WaspSim

/-- `basic_block_t`, with the lines of its first and last instruction. -/
structure BasicBlock where
  ptxBegin : Option Nat
  ptxEnd : Option Nat
  isEntry : Bool
  isExit : Bool
  deriving DecidableEq, Repr

/-- The opcodes after which `create_basic_blocks` starts a block. -/
def FlowInst.endsBlock (pI : FlowInst) : Bool :=
  match pI.opcode with
  | .bra | .ret | .exit | .retp | .brk => true
  | .call | .callp => pI.hasPred
  | .breakaddr | .other => false

namespace PtxLine

/-- The line is an instruction after which a block starts. -/
def endsBlock : PtxLine → Bool
  | label _ => false
  | inst pI => pI.endsBlock

end PtxLine

/-- The first loop from line `k` on; `skip` when `find_next_real_instruction` passes labels. -/
def leadersFrom : Bool → Nat → List PtxLine → List Nat
  | _, _, [] => []
  | true, k, .label _ :: rest => leadersFrom true (k + 1) rest
  | false, k, .label _ :: rest => k :: leadersFrom true (k + 1) rest
  | _, k, .inst pI :: rest =>
    if pI.endsBlock = true then
      if rest = [] then [] else (k + 1) :: leadersFrom true (k + 1) rest
    else leadersFrom false (k + 1) rest

/-- `leaders`: the first line leads a block and is not looked at any further. -/
def leaders (lines : List PtxLine) : List Nat := 0 :: leadersFrom false 1 lines.tail

/-- The second loop of `create_basic_blocks`. -/
structure Cutting where
  /-- The leaders from `l` on. -/
  leaders : List Nat
  /-- `m_basic_blocks` without the last one. -/
  closed : List BasicBlock := []
  /-- `m_basic_blocks.back()`. -/
  back : BasicBlock
  /-- `last_real_inst`. -/
  lastRealInst : Nat
  /-- The numbers of the blocks of the lines before this one. -/
  assigned : List Nat := []

namespace Cutting

/-- A leader closes the last block, and opens one unless it is a trailing label. -/
def atLeader (lines : List PtxLine) (c : Cutting) (k : Nat) : Cutting :=
  if c.leaders.head? = some k then
    let closing := { c.back with ptxEnd := some c.lastRealInst }
    match findNextRealInstruction lines k with
    | some first =>
      { c with
        leaders := c.leaders.tail
        closed := c.closed ++ [closing]
        back := { ptxBegin := some first, ptxEnd := none, isEntry := false, isExit := false }
        lastRealInst := first }
    | none => { c with leaders := c.leaders.tail, back := closing }
  else c

/-- `assign_bb`, and the last instruction seen. -/
def assign (lines : List PtxLine) (c : Cutting) (k : Nat) : Cutting :=
  { c with
    assigned := c.assigned ++ [c.closed.length]
    lastRealInst :=
      match lines[k]? with
      | some (.inst _) => k
      | _ => c.lastRealInst }

/-- One round of the second loop. -/
def next (lines : List PtxLine) (c : Cutting) (k : Nat) : Cutting :=
  (c.atLeader lines k).assign lines k

/-- The entry block is pushed, and the first leader is passed. -/
def start (lines : List PtxLine) (first : Nat) : Cutting where
  leaders := (WaspSim.leaders lines).tail
  back := { ptxBegin := some first, ptxEnd := none, isEntry := true, isExit := false }
  lastRealInst := 0

/-- The last block is closed, and the exit block is pushed. -/
def blocks (c : Cutting) : List BasicBlock :=
  c.closed ++ [{ c.back with ptxEnd := some c.lastRealInst },
    { ptxBegin := none, ptxEnd := none, isEntry := false, isExit := true }]

end Cutting

/-- The blocks of a function, the last of which is the exit block, and those of its lines. -/
structure BasicBlocks where
  blocks : List BasicBlock
  /-- `get_bb` of every line. -/
  assigned : List Nat
  deriving DecidableEq, Repr

/-- `create_basic_blocks`, or nothing for a function without an instruction. -/
def createBasicBlocks (lines : List PtxLine) : Option BasicBlocks := do
  let first ← findNextRealInstruction lines 0
  let c := (List.range lines.length).foldl (Cutting.next lines) (Cutting.start lines first)
  pure { blocks := c.blocks, assigned := c.assigned }

/-- The first line, which is not looked at, neither ends a block nor stands before a label
as a label itself. -/
def StartsPlain (lines : List PtxLine) : Prop :=
  ∀ first rest, lines = first :: rest → first.endsBlock = false ∧
    (first.isLabel = true → ∀ second, rest.head? = some second → second.isLabel = false)

/-- A line leads a block when it stands behind the end of one, or is the first of its labels. -/
def leads (lines : List PtxLine) : Nat → Bool
  | 0 => true
  | k + 1 =>
    match lines[k]?, lines[k + 1]? with
    | some previous, some line =>
      previous.endsBlock || (line.isLabel && !previous.isLabel)
    | _, _ => false

section

variable {lines rest : List PtxLine} {line previous : PtxLine} {j k : Nat} {skip : Bool}

/-- A label ends no block. -/
theorem PtxLine.endsBlock_of_isLabel (h : line.isLabel = true) : line.endsBlock = false := by
  cases line with
  | label name => rfl
  | inst pI => cases h

/-- A line begins a block behind an end of one, or as the first of its labels. -/
theorem leads_succ (hk : lines[k]? = some previous) (hline : lines[k + 1]? = some line) :
    leads lines (k + 1) = (previous.endsBlock || (line.isLabel && !previous.isLabel)) := by
  rw [leads, hk, hline]

/-- The lines that lead blocks among those behind line `k`. -/
def leadersBehind (lines : List PtxLine) (k : Nat) : List Nat :=
  (List.range' (k + 1) (lines.length - (k + 1))).filter (leads lines)

/-- The leaders behind a line, from the next line on. -/
theorem leadersBehind_cons (hk : k + 1 < lines.length) :
    leadersBehind lines k =
      if leads lines (k + 1) = true then (k + 1) :: leadersBehind lines (k + 1)
      else leadersBehind lines (k + 1) := by
  have hlen : lines.length - (k + 1) = lines.length - (k + 1 + 1) + 1 := by omega
  rw [leadersBehind, hlen, List.range'_succ, List.filter_cons]
  rfl

/-- Behind the last line there is no leader. -/
theorem leadersBehind_nil (hk : lines.length ≤ k + 1) : leadersBehind lines k = [] := by
  rw [leadersBehind, Nat.sub_eq_zero_of_le hk]
  rfl

/-- The first loop at an instruction, when it is right about the lines behind. -/
theorem leadersFrom_inst {pI : FlowInst} (hdrop : lines.drop (k + 1) = rest)
    (hplain : pI.endsBlock = false → leadersFrom false (k + 1) rest = leadersBehind lines k)
    (hends : pI.endsBlock = true → rest ≠ [] →
      (k + 1) :: leadersFrom true (k + 1) rest = leadersBehind lines k) :
    leadersFrom skip k (.inst pI :: rest) = leadersBehind lines k := by
  have hfrom : leadersFrom skip k (.inst pI :: rest) =
      if pI.endsBlock = true then
        if rest = [] then [] else (k + 1) :: leadersFrom true (k + 1) rest
      else leadersFrom false (k + 1) rest := by
    cases skip <;> rfl
  rw [hfrom]
  split
  · next hpI =>
    split
    · next hrest =>
      rw [hrest, List.drop_eq_nil_iff] at hdrop
      exact (leadersBehind_nil hdrop).symm
    · next hrest => exact hends hpI hrest
  · next hpI => exact hplain (Bool.eq_false_iff.mpr hpI)

/-- What the first loop finds, by the line before the one it is at. -/
theorem leadersFrom_eq (hdrop : lines.drop (k + 1) = rest) (hk : lines[k]? = some previous) :
    (previous.endsBlock = false → previous.isLabel = false →
      leadersFrom false (k + 1) rest = leadersBehind lines k) ∧
    (previous.isLabel = true → leadersFrom true (k + 1) rest = leadersBehind lines k) ∧
    (previous.endsBlock = true → rest ≠ [] →
      (k + 1) :: leadersFrom true (k + 1) rest = leadersBehind lines k) := by
  induction rest generalizing k previous with
  | nil =>
    have hnil := leadersBehind_nil (List.drop_eq_nil_iff.mp hdrop)
    rw [hnil]
    exact ⟨fun _ _ => rfl, fun _ => rfl, fun _ hne => absurd rfl hne⟩
  | cons line rest ih =>
    have hline : lines[k + 1]? = some line := by
      rw [← Nat.add_zero (k + 1), ← List.getElem?_drop, hdrop]
      rfl
    have hrest : lines.drop (k + 1 + 1) = rest := by
      rw [← List.tail_drop, hdrop, List.tail_cons]
    obtain ⟨hplain, hlabel, hends⟩ := ih hrest hline
    rw [leadersBehind_cons (List.getElem?_eq_some_iff.mp hline).1, leads_succ hk hline]
    cases line with
    | label name =>
      have hbehind := hlabel rfl
      refine ⟨fun he hl => ?_, fun hl => ?_, fun he _ => ?_⟩
      · rw [he, hl, leadersFrom, hbehind]
        rfl
      · rw [PtxLine.endsBlock_of_isLabel hl, hl, leadersFrom, hbehind]
        rfl
      · rw [he, leadersFrom, hbehind]
        rfl
    | inst pI =>
      have hbehind : ∀ skip, leadersFrom skip (k + 1) (.inst pI :: rest) =
          leadersBehind lines (k + 1) :=
        fun skip => leadersFrom_inst hrest (fun h => hplain h rfl) hends
      refine ⟨fun he _ => ?_, fun hl => ?_, fun he _ => ?_⟩
      · rw [he, hbehind]
        rfl
      · rw [PtxLine.endsBlock_of_isLabel hl, hbehind]
        rfl
      · rw [he, hbehind]
        rfl

/-- The leaders behind the first line. -/
theorem leaders_tail (hplain : StartsPlain lines) :
    (leaders lines).tail = leadersBehind lines 0 := by
  cases lines with
  | nil => rfl
  | cons first rest =>
    obtain ⟨hends, hlabels⟩ := hplain first rest rfl
    obtain ⟨hreal, hlabel, _⟩ :=
      leadersFrom_eq (show (first :: rest).drop (0 + 1) = rest from rfl) List.getElem?_cons_zero
    change leadersFrom false 1 rest = _
    cases hfirst : first.isLabel with
    | false => exact hreal hends hfirst
    | true =>
      -- behind a first label comes an instruction, where it does not matter who skips labels
      rw [← hlabel hfirst]
      cases rest with
      | nil => rfl
      | cons second rest =>
        have hsecond := hlabels hfirst second rfl
        cases second with
        | label name => cases hsecond
        | inst pI => rfl

/-- A leader is met exactly when it leads. -/
theorem leadersBehind_head (hk : k + 1 < lines.length) :
    (leadersBehind lines k).head? = some (k + 1) ↔ leads lines (k + 1) = true := by
  rw [leadersBehind_cons hk]
  split
  · next h => exact ⟨fun _ => h, fun _ => rfl⟩
  · next h =>
    refine ⟨fun hhead => ?_, fun h' => absurd h' h⟩
    have hmem := List.mem_of_mem_head? (Option.mem_def.mpr hhead)
    rw [leadersBehind, List.mem_filter, List.mem_range'_1] at hmem
    omega

theorem leadersBehind_head_zero : (leadersBehind lines 0).head? ≠ some 0 := by
  intro hhead
  have hmem := List.mem_of_mem_head? (Option.mem_def.mpr hhead)
  rw [leadersBehind, List.mem_filter, List.mem_range'_1] at hmem
  omega

end

end WaspSim
